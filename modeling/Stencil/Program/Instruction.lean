import Stencil.Program.Expression
set_option autoImplicit false

namespace Stencil

mutual

inductive Instruction where
  | literal (text : String)
  | print (e : Expression)
  | branch (arms : List Arm)
  | loop (index value : String) (collection : Expression) (body : List Instruction)
  | embed (path : String) (context : Option Expression)

inductive Arm where
  | mk (guard : Option Expression) (body : List Instruction)

end

def Arm.guard : Arm → Option Expression
  | .mk g _ => g

def Arm.body : Arm → List Instruction
  | .mk _ b => b

mutual

def Instruction.beq : Instruction → Instruction → Bool
  | .literal a, .literal b => a = b
  | .print a, .print b => a == b
  | .branch as, .branch bs => Arm.beqList as bs
  | .loop i v c as, .loop j w d bs => i = j && v = w && c == d && Instruction.beqList as bs
  | .embed p c, .embed q d => p = q && c == d
  | _, _ => false

def Instruction.beqList : List Instruction → List Instruction → Bool
  | [], [] => true
  | a :: as, b :: bs => Instruction.beq a b && Instruction.beqList as bs
  | _, _ => false

def Arm.beq : Arm → Arm → Bool
  | .mk g as, .mk h bs => g == h && Instruction.beqList as bs

def Arm.beqList : List Arm → List Arm → Bool
  | [], [] => true
  | a :: as, b :: bs => Arm.beq a b && Arm.beqList as bs
  | _, _ => false

end

structure Template where
  name : Option String
  instructions : List Instruction

def Template.beq (a b : Template) : Bool :=
  a.name = b.name && Instruction.beqList a.instructions b.instructions

end Stencil
