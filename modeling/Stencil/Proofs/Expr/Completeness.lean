import Stencil.Proofs.Expr.Soundness
set_option autoImplicit false

/-!
# What is derived is read

The parser goes through every derived phrase, whatever frames are open around it, as long as none of
them takes the phrase's operands away. Main statement: `Derives.taken`, by induction on the
derivation.
-/

namespace Stencil.Expr

namespace State

def steps (st : State) : List Token → Option State
  | [] => some st
  | t :: ts => (st.step t).bind fun st => st.steps ts

theorem steps_append (st : State) (ts us : List Token) :
    st.steps (ts ++ us) = (st.steps ts).bind fun st => st.steps us := by
  induction ts generalizing st with
  | nil => rfl
  | cons t ts ih =>
    simp only [List.cons_append, steps]
    cases st.step t with
    | none => rfl
    | some st => exact ih st

theorem run_of_steps {st st' : State} {ls : List Lexeme}
    (h : st.steps (ls.map Lexeme.token) = some st') : st.run ls = .ok st' := by
  induction ls generalizing st with
  | nil => cases h; rfl
  | cons l ls ih =>
    obtain ⟨next, hs, h⟩ := Option.bind_eq_some_iff.1 h
    simp only [run, hs]
    exact ih h

theorem Stops.mono {m n : Nat} {fs : List Frame} (h : Stops m fs) (hn : m ≤ n) : Stops n fs := by
  cases fs with
  | nil => trivial
  | cons f fs => cases f <;> simp_all [Stops] <;> omega

def endings : List Symbol := [.colon, .comma, .parenClose, .bracketClose, .braceClose]

theorem operatorSymbol_of_mem_endings {s : Symbol} (hs : s ∈ endings) (e : Expr)
    (callee : Option Listing) (fs : List Frame) :
    operatorSymbol e callee fs s = closing (settle 0 e fs).1 s (settle 0 e fs).2 := by
  simp only [endings, List.mem_cons, List.not_mem_nil, or_false] at hs
  rcases hs with rfl | rfl | rfl | rfl | rfl <;> rfl

end State

open State

theorem Listing.close_mem_endings (kind : Listing) : kind.close ∈ endings := by
  cases kind <;> simp [endings, close]

theorem Listing.close_ne_comma (kind : Listing) : kind.close ≠ .comma := by
  cases kind <;> simp [close]

/-- How the parser goes through a phrase. Behind an expression the operators that are still open are
exactly those which closing puts together to it; an access leaves none. Lists are read up
to the symbol that ends them. -/
def Phrase.Taken : Phrase → List Token → Prop
  | .of c e, ts => ∀ fs, (c.level < 7 → Stops (max 1 c.level) fs) → ∃ x callee gs,
    steps ⟨.operand, fs⟩ ts = some ⟨.complete x callee, gs⟩ ∧
      (∀ m ≤ c.level, settle m x gs = settle m e fs) ∧ (8 ≤ c.level → x = e ∧ gs = fs)
  | .items es, ts => ∀ kind done fs,
    steps ⟨.operand, .listing kind done :: fs⟩ (ts ++ [.symbol kind.close]) =
      some ⟨.complete (kind.build (done.reverse ++ es)) none, fs⟩
  | .entry key e, ts => ∀ xs fs,
    steps ⟨.key xs, fs⟩ (ts ++ [.symbol .comma]) = some ⟨.key (xs ++ [(key, e)]), fs⟩ ∧
      steps ⟨.key xs, fs⟩ (ts ++ [.symbol .braceClose]) =
        some ⟨.complete (.object (xs ++ [(key, e)])) none, fs⟩
  | .entries ys, ts => ∀ xs fs,
    steps ⟨.key xs, fs⟩ (ts ++ [.symbol .braceClose]) =
      some ⟨.complete (.object (xs ++ ys)) none, fs⟩

theorem taken_access {c : Category} {e : Expr} {ts : List Token}
    (h : ∀ fs, ∃ callee, steps ⟨.operand, fs⟩ ts = some ⟨.complete e callee, fs⟩) :
    (Phrase.of c e).Taken ts := by
  intro fs _
  obtain ⟨callee, hs⟩ := h fs
  exact ⟨e, callee, fs, hs, fun _ _ => rfl, fun _ => ⟨rfl, rfl⟩⟩

theorem exists_callee_of_taken {e : Expr} {ts : List Token} (h : (Phrase.of .access e).Taken ts)
    (fs : List Frame) : ∃ callee, steps ⟨.operand, fs⟩ ts = some ⟨.complete e callee, fs⟩ := by
  obtain ⟨x, callee, gs, hs, -, he⟩ := h fs fun h => absurd h (by decide)
  obtain ⟨rfl, rfl⟩ := he (by decide)
  exact ⟨callee, hs⟩

/-- A whole operand and the symbol behind it that goes on with the construct around it. -/
theorem steps_ending {e : Expr} {ts : List Token} {s : Symbol} {fs : List Frame} {st : State}
    (h : (Phrase.of .expr e).Taken ts) (hs : s ∈ endings) (hf : Stops 0 fs)
    (hc : closing e s fs = some st) : steps ⟨.operand, fs⟩ (ts ++ [.symbol s]) = some st := by
  obtain ⟨x, callee, gs, hr, hx, -⟩ := h fs fun _ => hf.mono (Nat.zero_le _)
  have hx := (hx 0 (Nat.zero_le _)).trans (settle_of_stops hf e)
  simp [steps_append, hr, steps, step, operatorSymbol_of_mem_endings hs, hx, hc]

theorem steps_cons_append {st mid : State} {ts us : List Token} {t : Token}
    (h : st.steps (ts ++ [t]) = some mid) : st.steps (ts ++ t :: us) = mid.steps us := by
  rw [List.append_cons, steps_append, h]
  rfl

theorem taken_binary {c : Category} {s : Symbol} {op : BinaryOp} {lhs rhs : Expr}
    {ts us : List Token} (hs : (s, op) ∈ c.operators) (hl : (Phrase.of c lhs).Taken ts)
    (hr : (Phrase.of c.next rhs).Taken us) :
    (Phrase.of c (.binary op lhs rhs)).Taken (ts ++ .symbol s :: us) := by
  obtain ⟨hop, hlevel⟩ := Category.binaryOp?_of_mem_operators hs
  have hpos := op.level_pos
  have hlt := op.level_lt_seven
  have hnext : c.next.level = c.level + 1 := Category.level_next (by omega)
  intro fs hf
  have hf := hf (by omega)
  obtain ⟨x, callee, gs, hx, hsettle, -⟩ := hl fs fun _ => hf
  -- All that is tighter than the operator belongs to its left side.
  have hlhs : settle op.level x gs = (lhs, fs) := by
    rw [hsettle _ (by omega)]
    exact settle_of_stops (by rwa [hlevel, ← Nat.max_eq_right (by omega : 1 ≤ c.level)]) lhs
  have hop : steps ⟨.operand, fs⟩ (ts ++ [.symbol s]) = some ⟨.operand, .binary lhs op :: fs⟩ := by
    simp [steps_append, hx, steps, step, operatorSymbol, hop, hlhs]
  obtain ⟨y, callee', hs', hy, hsettle', -⟩ := hr (.binary lhs op :: fs) fun _ => by
    simp only [Stops]
    omega
  refine ⟨y, callee', hs', ?_, fun m hm => ?_, fun h => absurd h (by omega)⟩
  · rw [steps_cons_append hop, hy]
  · rw [hsettle' m (by omega), settle, if_pos (by omega)]

theorem taken_cond {test yes no : Expr} {ts us vs : List Token}
    (ht : (Phrase.of .or test).Taken ts) (hy : (Phrase.of .expr yes).Taken us)
    (hn : (Phrase.of .expr no).Taken vs) :
    (Phrase.of .expr (.cond test yes no)).Taken
      (ts ++ .symbol .question :: (us ++ .symbol .colon :: vs)) := by
  intro fs hf
  have hf : Stops 1 fs := hf (by decide)
  obtain ⟨x, callee, gs, hx, hsettle, -⟩ := ht fs fun _ => hf
  have htest : settle 1 x gs = (test, fs) := by
    rw [hsettle 1 (by decide)]
    exact settle_of_stops hf test
  have hquestion : steps ⟨.operand, fs⟩ (ts ++ [.symbol .question]) =
      some ⟨.operand, .consequent test :: fs⟩ := by
    simp [steps_append, hx, steps, step, operatorSymbol, binaryOp?, htest]
  have hcolon : steps ⟨.operand, .consequent test :: fs⟩ (us ++ [.symbol .colon]) =
      some ⟨.operand, .alternative test yes :: fs⟩ :=
    steps_ending hy (by decide) trivial rfl
  obtain ⟨z, callee', hs', hz, hsettle', -⟩ := hn (.alternative test yes :: fs) fun _ => by
    simp [Stops]
  refine ⟨z, callee', hs', ?_, fun m hm => ?_, fun h => absurd h (by decide)⟩
  · rw [steps_cons_append hquestion, steps_cons_append hcolon, hz]
  · obtain rfl : m = 0 := Nat.le_zero.1 hm
    rw [hsettle' 0 (by decide), settle, if_pos rfl]

theorem taken_entry {key : String} {e : Expr} {t : Token} {ts : List Token} (ht : IsKey key t)
    (h : (Phrase.of .expr e).Taken ts) : (Phrase.entry key e).Taken (t :: .symbol .colon :: ts) := by
  intro xs fs
  have hkey (us : List Token) : steps ⟨.key xs, fs⟩ (t :: .symbol .colon :: us) =
      steps ⟨.operand, .entry xs key :: fs⟩ us := by
    obtain rfl | rfl := ht <;> rfl
  simp only [List.cons_append, hkey]
  exact ⟨steps_ending h (by decide) trivial rfl, steps_ending h (by decide) trivial rfl⟩

theorem Derives.taken {p : Phrase} {ts : List Token} (h : Derives p ts) : p.Taken ts := by
  induction h with
  | @operand c e ts hc _ ih =>
    intro fs hf
    have hlt : c.level < 9 := by
      have := c.level_le_nine
      have : c.level ≠ 9 := fun h => hc (Category.level_injective h)
      omega
    have hnext := Category.level_next hlt
    obtain ⟨x, callee, gs, hx, hsettle, htight⟩ := ih fs fun h =>
      (hf (by omega)).mono (by omega)
    exact ⟨x, callee, gs, hx, fun m hm => hsettle m (by omega), fun h => htight (by omega)⟩
  | cond _ _ _ iht ihy ihn => exact taken_cond iht ihy ihn
  | binary hs _ _ ihl ihr => exact taken_binary hs ihl ihr
  | @unary s op e ts hs _ ih =>
    intro fs _
    obtain ⟨x, callee, gs, hx, hsettle, -⟩ := ih (.unary op :: fs) fun h => absurd h (by decide)
    have hop := Category.unaryOp?_eq_some_iff.2 hs
    refine ⟨x, callee, gs, ?_, fun m hm => hsettle m hm, fun h => absurd h (by decide)⟩
    simp [steps, step, operandSymbol, hop, hx]
  | member _ ih =>
    refine taken_access fun fs => ?_
    obtain ⟨callee, hs⟩ := exists_callee_of_taken ih fs
    exact ⟨_, by simp only [steps_append, hs]; rfl⟩
  | method _ _ ih ihs =>
    refine taken_access fun fs => ?_
    obtain ⟨callee, hs⟩ := exists_callee_of_taken ih fs
    exact ⟨none, by simp only [steps_append, hs]; exact ihs (.method _ _) [] fs⟩
  | index _ _ ih ihi =>
    refine taken_access fun fs => ?_
    obtain ⟨callee, hs⟩ := exists_callee_of_taken ih fs
    refine ⟨none, ?_⟩
    simp only [steps_append, hs]
    exact steps_ending ihi (by decide) trivial rfl
  | null => exact taken_access fun fs => ⟨none, rfl⟩
  | true => exact taken_access fun fs => ⟨none, rfl⟩
  | false => exact taken_access fun fs => ⟨none, rfl⟩
  | number x => exact taken_access fun fs => ⟨none, rfl⟩
  | string s => exact taken_access fun fs => ⟨none, rfl⟩
  | ident name => exact taken_access fun fs => ⟨_, rfl⟩
  | call _ ih => exact taken_access fun fs => ⟨none, ih (.call _) [] fs⟩
  | array _ ih => exact taken_access fun fs => ⟨none, ih .array [] fs⟩
  | object _ ih => exact taken_access fun fs => ⟨none, ih [] fs⟩
  | group _ ih =>
    exact taken_access fun fs =>
      ⟨none, steps_ending ih (by decide) trivial rfl⟩
  | noItems =>
    intro kind done fs
    cases kind <;> simp [steps, step, operandSymbol, unaryOp?, Listing.close]
  | item _ ih =>
    intro kind done fs
    exact steps_ending ih kind.close_mem_endings trivial (by simp [closing, kind.close_ne_comma])
  | @items e es ts us _ _ ih ihs =>
    intro kind done fs
    have hcomma : steps ⟨.operand, .listing kind done :: fs⟩ (ts ++ [.symbol .comma]) =
        some ⟨.operand, .listing kind (e :: done) :: fs⟩ :=
      steps_ending ih (by decide) trivial rfl
    rw [List.append_assoc, List.cons_append, steps_cons_append hcomma, ihs]
    simp
  | named _ ih => exact taken_entry (.inl rfl) ih
  | quoted _ ih => exact taken_entry (.inr rfl) ih
  | shorthand key => exact fun xs fs => ⟨rfl, rfl⟩
  | noEntries => intro xs fs; simp [steps, step]
  | oneEntry _ ih => exact fun xs fs => (ih xs fs).2
  | entries _ _ ih ihs =>
    intro xs fs
    rw [List.append_assoc, List.cons_append, steps_cons_append (ih xs fs).1, ihs]
    simp

theorem Derives.finishes {e : Expr} {ts : List Token} (h : Derives (.of .expr e) ts) :
    ∃ st, State.start.steps ts = some st ∧ st.finish = some e := by
  obtain ⟨x, callee, gs, hs, hx, -⟩ := h.taken [] fun _ => trivial
  exact ⟨⟨.complete x callee, gs⟩, hs, by simp [finish, hx 0 (Nat.zero_le _), settle]⟩

theorem parseLexemes_of_derives {length : Nat} {ls : List Lexeme} {e : Expr}
    (h : Derives (.of .expr e) (ls.map Lexeme.token)) : parseLexemes length ls = .ok e := by
  obtain ⟨st, hs, hfinish⟩ := h.finishes
  simp [parseLexemes, run_of_steps hs, hfinish]

theorem exists_lexemes (ts : List Token) : ∃ ls : List Lexeme, ls.map Lexeme.token = ts :=
  ⟨ts.map fun t => ⟨t, ⟨0, 0⟩⟩, by simp [Function.comp_def]⟩

/-- The parser accepts exactly the expressions of the grammar, each as the one tree it derives. -/
theorem parseLexemes_iff_derives :
    (∀ (length : Nat) (ls : List Lexeme) (e : Expr),
      parseLexemes length ls = .ok e ↔ Derives (.of .expr e) (ls.map Lexeme.token)) ∧
    ∀ (ts : List Token) (e : Expr), Derives (.of .expr e) ts →
      (∀ e', Derives (.of .expr e') ts → e' = e) ∧
        .keyword .in ∉ ts ∧ ∀ text, .error text ∉ ts := by
  refine ⟨fun length ls e => ⟨derives_of_parseLexemes, parseLexemes_of_derives⟩, ?_⟩
  intro ts e h
  refine ⟨fun e' h' => ?_, h.not_mem⟩
  obtain ⟨ls, rfl⟩ := exists_lexemes ts
  have hparse : parseLexemes 0 ls = .ok e := parseLexemes_of_derives h
  rw [parseLexemes_of_derives h'] at hparse
  exact Except.ok.inj hparse

/-- `a ? b.f(x,) : -c * {d, "e": []}` is a conditional, and nothing else. -/
theorem conditional_derived_once :
    let ts : List Token :=
      [.ident "a", .symbol .question, .ident "b", .symbol .dot, .ident "f", .symbol .parenOpen,
        .ident "x", .symbol .comma, .symbol .parenClose, .symbol .colon, .symbol .minus, .ident "c",
        .symbol .star, .symbol .braceOpen, .ident "d", .symbol .comma, .string "e", .symbol .colon,
        .symbol .bracketOpen, .symbol .bracketClose, .symbol .braceClose]
    let e : Expr :=
      .cond (.ident "a") (.method (.ident "b") "f" [.ident "x"])
        (.binary .mul (.unary .neg (.ident "c")) (.object [("d", .ident "d"), ("e", .array [])]))
    Derives (.of .expr e) ts ∧ ∀ e', Derives (.of .expr e') ts → e' = e := by
  intro ts e
  have h : Derives (.of .expr e) ts :=
    (parseLexemes_iff_derives.1 0 (ts.map fun t => ⟨t, ⟨0, 0⟩⟩) e).1 rfl
  exact ⟨h, (parseLexemes_iff_derives.2 ts e h).1⟩

end Stencil.Expr
