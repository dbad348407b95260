import Stencil.Program.Instruction
set_option autoImplicit false

namespace Stencil

section

variable (R : Expression → Expression → Prop)

mutual

/-- The two differ at most in their expressions, which stand in the relation to each other. -/
inductive Instruction.Alike : Instruction → Instruction → Prop where
  | literal (text : String) : Instruction.Alike (.literal text) (.literal text)
  | print {x y : Expression} : R x y → Instruction.Alike (.print x) (.print y)
  | branch {as bs : List Arm} : Arm.AllAlike as bs → Instruction.Alike (.branch as) (.branch bs)
  | loop (index value : String) {x y : Expression} {is js : List Instruction} : R x y →
    Instruction.AllAlike is js → Instruction.Alike (.loop index value x is) (.loop index value y js)
  | embed (path : String) {x y : Option Expression} : Option.Rel R x y →
    Instruction.Alike (.embed path x) (.embed path y)

inductive Instruction.AllAlike : List Instruction → List Instruction → Prop where
  | nil : Instruction.AllAlike [] []
  | cons {i j : Instruction} {is js : List Instruction} : Instruction.Alike i j →
    Instruction.AllAlike is js → Instruction.AllAlike (i :: is) (j :: js)

inductive Arm.AllAlike : List Arm → List Arm → Prop where
  | nil : Arm.AllAlike [] []
  | cons {x y : Option Expression} {is js : List Instruction} {as bs : List Arm} :
    Option.Rel R x y → Instruction.AllAlike is js → Arm.AllAlike as bs →
    Arm.AllAlike (.mk x is :: as) (.mk y js :: bs)

end

end

theorem optionRel_refl {α : Type} {S : α → α → Prop} (h : ∀ a, S a a) : ∀ x, Option.Rel S x x
  | none => .none
  | some a => .some (h a)

section

variable {R : Expression → Expression → Prop}

mutual

theorem Instruction.alike_refl (h : ∀ x, R x x) : ∀ i : Instruction, i.Alike R i
  | .literal text => .literal text
  | .print x => .print (h x)
  | .branch arms => .branch (Arm.allAlike_refl h arms)
  | .loop index value x is => .loop index value (h x) (Instruction.allAlike_refl h is)
  | .embed path x => .embed path (optionRel_refl h x)

theorem Instruction.allAlike_refl (h : ∀ x, R x x) :
    ∀ is : List Instruction, Instruction.AllAlike R is is
  | [] => .nil
  | i :: is => .cons (Instruction.alike_refl h i) (Instruction.allAlike_refl h is)

theorem Arm.allAlike_refl (h : ∀ x, R x x) : ∀ arms : List Arm, Arm.AllAlike R arms arms
  | [] => .nil
  | .mk x is :: arms =>
    .cons (optionRel_refl h x) (Instruction.allAlike_refl h is) (Arm.allAlike_refl h arms)

end

end

end Stencil
