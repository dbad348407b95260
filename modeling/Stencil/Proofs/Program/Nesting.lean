import Stencil.Program.Blocks
set_option autoImplicit false

namespace Stencil

open Markup

namespace Expression

def payload (e : Expression) : Payload := ⟨e.source, e.offset⟩

/-- The expression is the one that its text spells at its offset. -/
def Faithful (e : Expression) : Prop := ofPayload e.payload = e

@[simp] theorem payload_ofPayload (p : Payload) : (ofPayload p).payload = p := rfl

@[simp] theorem faithful_ofPayload (p : Payload) : (ofPayload p).Faithful := rfl

end Expression

def Arm.header (first : Bool) : Option Expression → Token
  | some guard => if first then .ifStart guard.payload else .elseIf guard.payload
  | none => .elsePart

mutual

def Instruction.tokens : Instruction → List Token
  | .literal text => [.literal text]
  | .print e => [.print e.payload]
  | .branch arms => Arm.tokensAll true arms ++ [.endIf]
  | .loop index value collection body =>
    .forStart index value collection.payload :: (Instruction.tokensAll body ++ [.endFor])
  | .embed path context => [.embed path (context.map Expression.payload)]

def Instruction.tokensAll : List Instruction → List Token
  | [] => []
  | i :: is => i.tokens ++ Instruction.tokensAll is

def Arm.tokensAll (first : Bool) : List Arm → List Token
  | [] => []
  | .mk guard body :: arms =>
    Arm.header first guard :: (Instruction.tokensAll body ++ Arm.tokensAll false arms)

end

/-- There is an arm, the first one has a guard, and none but the last lacks one. -/
def Arm.Chained (arms : List Arm) : Prop :=
  (∃ a, arms.head? = some a ∧ a.guard.isSome) ∧ ∀ a ∈ arms.dropLast, a.guard.isSome

mutual

/-- All branches are chains, and all expressions are those that their texts spell. -/
def Instruction.WellFormed : Instruction → Prop
  | .literal _ => True
  | .print e => e.Faithful
  | .branch arms => Arm.Chained arms ∧ Arm.AllWellFormed arms
  | .loop _ _ collection body => collection.Faithful ∧ Instruction.AllWellFormed body
  | .embed _ context => ∀ e ∈ context, e.Faithful

def Instruction.AllWellFormed : List Instruction → Prop
  | [] => True
  | i :: is => i.WellFormed ∧ Instruction.AllWellFormed is

def Arm.AllWellFormed : List Arm → Prop
  | [] => True
  | .mk guard body :: arms =>
    (∀ e ∈ guard, e.Faithful) ∧ Instruction.AllWellFormed body ∧ Arm.AllWellFormed arms

end

@[simp] theorem Instruction.tokensAll_append (is js : List Instruction) :
    tokensAll (is ++ js) = tokensAll is ++ tokensAll js := by
  induction is with
  | nil => simp [tokensAll]
  | cons i is ih => simp [tokensAll, ih]

@[simp] theorem Instruction.allWellFormed_append (is js : List Instruction) :
    AllWellFormed (is ++ js) ↔ AllWellFormed is ∧ AllWellFormed js := by
  induction is with
  | nil => simp [AllWellFormed]
  | cons i is ih => simp [AllWellFormed, ih, and_assoc]

theorem Arm.tokensAll_append_one (first : Bool) (arms : List Arm) (guard : Option Expression)
    (body : List Instruction) :
    tokensAll first (arms ++ [.mk guard body]) =
      tokensAll first arms ++ header (first && arms.isEmpty) guard :: Instruction.tokensAll body := by
  induction arms generalizing first with
  | nil => simp [tokensAll]
  | cons a arms ih =>
    obtain ⟨g, b⟩ := a
    simp [tokensAll, ih]

@[simp] theorem Arm.allWellFormed_append (arms others : List Arm) :
    AllWellFormed (arms ++ others) ↔ AllWellFormed arms ∧ AllWellFormed others := by
  induction arms with
  | nil => simp [AllWellFormed]
  | cons a arms ih =>
    obtain ⟨g, b⟩ := a
    simp [AllWellFormed, ih, and_assoc]

theorem Arm.dropLast_subset_cons (a : Arm) (arms : List Arm) :
    arms.dropLast ⊆ (a :: arms).dropLast := by cases arms <;> simp

theorem Arm.chained_one (guard : Expression) (body : List Instruction) :
    Chained [.mk (some guard) body] := by simp [Chained, Arm.guard]

theorem Arm.chained_append_body {arms : List Arm} {guard : Option Expression}
    {body : List Instruction} (h : Chained (arms ++ [.mk guard body])) (other : List Instruction) :
    Chained (arms ++ [.mk guard other]) := by
  rw [Chained, List.dropLast_concat] at h ⊢
  exact ⟨by cases arms <;> simpa [Arm.guard] using h.1, h.2⟩

theorem Arm.chained_append_two (arms : List Arm) (a b : Arm) :
    Chained (arms ++ [a] ++ [b]) ↔ Chained (arms ++ [a]) ∧ a.guard.isSome := by
  cases arms with
  | nil => simp [Chained]
  | cons c arms =>
    simp only [Chained, List.cons_append, List.head?_cons]
    grind

mutual

/-- Literals, prints, includes and whole blocks, one after the other. -/
inductive WellNested : List Token → Prop where
  | nil : WellNested []
  | cons {ts us : List Token} : Whole ts → WellNested us → WellNested (ts ++ us)

/-- One literal, print or include, or a block from its beginning to its end. -/
inductive Whole : List Token → Prop where
  | literal (text : String) : Whole [.literal text]
  | print (e : Payload) : Whole [.print e]
  | embed (path : String) (context : Option Payload) : Whole [.embed path context]
  | chain (guard : Payload) {body rest : List Token} :
    WellNested body → ChainRest rest → Whole (.ifStart guard :: (body ++ rest))
  | loop (index value : String) (collection : Payload) {body : List Token} :
    WellNested body → Whole (.forStart index value collection :: (body ++ [.endFor]))

/-- What follows the body of an arm, up to the end of the chain. -/
inductive ChainRest : List Token → Prop where
  | endIf : ChainRest [.endIf]
  | elsePart {body : List Token} : WellNested body → ChainRest (.elsePart :: (body ++ [.endIf]))
  | elseIf (guard : Payload) {body rest : List Token} :
    WellNested body → ChainRest rest → ChainRest (.elseIf guard :: (body ++ rest))

end

mutual

theorem whole_tokens : ∀ (i : Instruction), i.WellFormed → Whole i.tokens
  | .literal text, _ => .literal text
  | .print e, _ => .print e.payload
  | .branch [], h => by simp [Instruction.WellFormed, Arm.Chained] at h
  | .branch (.mk none body :: arms), h => by
    simp [Instruction.WellFormed, Arm.Chained, Arm.guard] at h
  | .branch (.mk (some guard) body :: arms), h => by
    obtain ⟨⟨-, hd⟩, -, hb, ha⟩ := h
    have hr := chainRest_tokensAll arms ha fun a m => hd a (Arm.dropLast_subset_cons _ arms m)
    simpa [Instruction.tokens, Arm.tokensAll, Arm.header] using
      Whole.chain guard.payload (wellNested_tokensAll body hb) hr
  | .loop index value collection body, h =>
    .loop index value collection.payload (wellNested_tokensAll body h.2)
  | .embed path context, _ => .embed path (context.map Expression.payload)

theorem wellNested_tokensAll :
    ∀ (is : List Instruction), Instruction.AllWellFormed is → WellNested (Instruction.tokensAll is)
  | [], _ => .nil
  | i :: is, h => .cons (whole_tokens i h.1) (wellNested_tokensAll is h.2)

theorem chainRest_tokensAll : ∀ (arms : List Arm), Arm.AllWellFormed arms →
    (∀ a ∈ arms.dropLast, a.guard.isSome) → ChainRest (Arm.tokensAll false arms ++ [.endIf])
  | [], _, _ => .endIf
  | [.mk none body], h, _ => by
    simpa [Arm.tokensAll, Arm.header] using ChainRest.elsePart (wellNested_tokensAll body h.2.1)
  | .mk none body :: a :: arms, _, hd => by simp [Arm.guard] at hd
  | .mk (some guard) body :: arms, h, hd => by
    have hr := chainRest_tokensAll arms h.2.2 fun a m => hd a (Arm.dropLast_subset_cons _ arms m)
    simpa [Arm.tokensAll, Arm.header] using
      ChainRest.elseIf guard.payload (wellNested_tokensAll body h.2.1) hr

end

mutual

theorem WellNested.exists_tree {ts : List Token} :
    WellNested ts → ∃ is, Instruction.AllWellFormed is ∧ Instruction.tokensAll is = ts
  | .nil => ⟨[], trivial, rfl⟩
  | .cons h hs => by
    obtain ⟨i, hi, rfl⟩ := h.exists_instruction
    obtain ⟨is, his, rfl⟩ := hs.exists_tree
    exact ⟨i :: is, ⟨hi, his⟩, rfl⟩

theorem Whole.exists_instruction {ts : List Token} :
    Whole ts → ∃ i : Instruction, i.WellFormed ∧ i.tokens = ts
  | .literal text => ⟨.literal text, trivial, rfl⟩
  | .print e => ⟨.print (.ofPayload e), rfl, rfl⟩
  | .embed path none => ⟨.embed path none, by simp [Instruction.WellFormed], rfl⟩
  | .embed path (some e) =>
    ⟨.embed path (some (.ofPayload e)), by simp [Instruction.WellFormed], rfl⟩
  | .chain guard hb hr => by
    obtain ⟨body, hbody, rfl⟩ := hb.exists_tree
    obtain ⟨arms, harms, hd, rfl⟩ := hr.exists_arms
    refine ⟨.branch (.mk (some (.ofPayload guard)) body :: arms), ⟨⟨?_, ?_⟩, ?_, hbody, harms⟩, ?_⟩
    · exact ⟨_, rfl, rfl⟩
    · cases arms with
      | nil => simp
      | cons a arms => simpa [Arm.guard] using hd
    · simp
    · simp [Instruction.tokens, Arm.tokensAll, Arm.header]
  | .loop index value collection hb => by
    obtain ⟨body, hbody, rfl⟩ := hb.exists_tree
    exact ⟨.loop index value (.ofPayload collection) body, ⟨rfl, hbody⟩, rfl⟩

theorem ChainRest.exists_arms {ts : List Token} : ChainRest ts → ∃ arms : List Arm,
    Arm.AllWellFormed arms ∧ (∀ a ∈ arms.dropLast, a.guard.isSome) ∧
      Arm.tokensAll false arms ++ [.endIf] = ts
  | .endIf => ⟨[], trivial, by simp, rfl⟩
  | .elsePart hb => by
    obtain ⟨body, hbody, rfl⟩ := hb.exists_tree
    exact ⟨[.mk none body], ⟨by simp, hbody, trivial⟩, by simp, by simp [Arm.tokensAll, Arm.header]⟩
  | .elseIf guard hb hr => by
    obtain ⟨body, hbody, rfl⟩ := hb.exists_tree
    obtain ⟨arms, harms, hd, rfl⟩ := hr.exists_arms
    refine ⟨.mk (some (.ofPayload guard)) body :: arms, ⟨by simp, hbody, harms⟩, ?_, ?_⟩
    · cases arms with
      | nil => simp
      | cons a arms => simpa [Arm.guard] using hd
    · simp [Arm.tokensAll, Arm.header]

end

end Stencil
