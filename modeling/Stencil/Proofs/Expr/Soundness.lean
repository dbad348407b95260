import Stencil.Proofs.Expr.Grammar
set_option autoImplicit false

/-!
# What the parser reads is derived

Each open frame holds phrases that are derived already. Main statement: `Reads.step`, whatever state
the parser is in, the tokens that led there are those of its frames and of what it holds.
-/

namespace Stencil.Expr

namespace State

def Stops (level : Nat) : List Frame → Prop
  | .unary _ :: _ => False
  | .binary _ op :: _ => op.level < level
  | .alternative _ _ :: _ => level ≠ 0
  | _ => True

theorem settle_of_stops {level : Nat} {fs : List Frame} (h : Stops level fs) (e : Expr) :
    settle level e fs = (e, fs) := by
  cases fs with
  | nil => rfl
  | cons f fs =>
    cases f with
    | binary lhs op => simp [settle, Nat.not_le.2 h]
    | _ => simp_all [Stops, settle]

theorem stops_settle (level : Nat) (e : Expr) (fs : List Frame) :
    Stops level (settle level e fs).2 := by
  fun_induction settle level e fs with
  | case1 e op fs ih => exact ih
  | case2 e lhs op fs h ih => exact ih
  | case3 e lhs op fs h => exact Nat.lt_of_not_le h
  | case4 e test yes fs h ih => exact ih
  | case5 e test yes fs h => exact h
  | case6 e fs h1 h2 h3 =>
    cases fs with
    | nil => trivial
    | cons f fs => cases f <;> simp_all [Stops]

end State

open State

/-- An expression of this level can be the operand for which the innermost frame waits. -/
def Fits (level : Nat) : List Frame → Prop
  | .unary _ :: _ => 7 ≤ level
  | .binary _ op :: _ => op.level < level
  | _ => True

theorem fits_of_stops {level : Nat} {fs : List Frame} (h : Stops level fs) : Fits level fs := by
  cases fs with
  | nil => trivial
  | cons f fs => cases f <;> simp_all [Stops, Fits]

theorem fits_of_seven_le {level : Nat} (h : 7 ≤ level) (fs : List Frame) : Fits level fs := by
  cases fs with
  | nil => trivial
  | cons f fs =>
    cases f with
    | binary lhs op => exact Nat.lt_of_lt_of_le op.level_lt_seven h
    | unary op => exact h
    | _ => trivial

/-- The tokens up to the parenthesis or bracket that opens a list. -/
inductive Headed : Listing → List Token → Prop where
  | array : Headed .array [.symbol .bracketOpen]
  | call (f : String) : Headed (.call f) [.ident f, .symbol .parenOpen]
  | method {e : Expr} {ts : List Token} (name : String) : Derives (.of .access e) ts →
    Headed (.method e name) (ts ++ [.symbol .dot, .ident name, .symbol .parenOpen])

theorem Headed.build {kind : Listing} {ts us : List Token} {es : List Expr} (h : Headed kind ts)
    (hs : Derives (.items es) us) :
    Derives (.of .access (kind.build es)) (ts ++ (us ++ [.symbol kind.close])) := by
  cases h with
  | array => exact .operand (by decide) (.array hs)
  | call f => exact .operand (by decide) (.call hs)
  | method name he => simpa [Listing.build, Listing.close] using Derives.method he hs

/-- The tokens are items, each with a comma behind it: whatever list follows goes on with them. -/
def ItemsBefore (es : List Expr) (ts : List Token) : Prop :=
  ∀ fs us, Derives (.items fs) us → Derives (.items (es ++ fs)) (ts ++ us)

def EntriesBefore (xs : List (String × Expr)) (ts : List Token) : Prop :=
  ∀ ys us, Derives (.entries ys) us → Derives (.entries (xs ++ ys)) (ts ++ us)

theorem itemsBefore_nil : ItemsBefore [] [] := fun _ _ h => h

theorem entriesBefore_nil : EntriesBefore [] [] := fun _ _ h => h

theorem ItemsBefore.comma {es : List Expr} {e : Expr} {ts us : List Token}
    (h : ItemsBefore es ts) (he : Derives (.of .expr e) us) :
    ItemsBefore (es ++ [e]) (ts ++ (us ++ [.symbol .comma])) := by
  intro fs vs hf
  simpa using h _ _ (.items he hf)

theorem EntriesBefore.comma {xs : List (String × Expr)} {key : String} {e : Expr}
    {ts us : List Token} (h : EntriesBefore xs ts) (he : Derives (.entry key e) us) :
    EntriesBefore (xs ++ [(key, e)]) (ts ++ (us ++ [.symbol .comma])) := by
  intro ys vs hy
  simpa using h _ _ (.entries he hy)

def IsKey (key : String) (t : Token) : Prop := t = .ident key ∨ t = .string key

theorem IsKey.entry {key : String} {t : Token} (h : IsKey key t) {e : Expr} {ts : List Token}
    (he : Derives (.of .expr e) ts) : Derives (.entry key e) (t :: .symbol .colon :: ts) := by
  obtain rfl | rfl := h
  · exact .named he
  · exact .quoted he

/-- The tokens that have been read for the open frames. An operator is put around its left operand
only where that operand ends all that is tighter. -/
inductive Opened : List Frame → List Token → Prop where
  | nil : Opened [] []
  | unary {fs : List Frame} {ts : List Token} {s : Symbol} {op : UnaryOp} :
    Opened fs ts → (s, op) ∈ Category.signs → Opened (.unary op :: fs) (ts ++ [.symbol s])
  | binary {fs : List Frame} {ts us : List Token} {c : Category} {s : Symbol} {op : BinaryOp}
    {lhs : Expr} :
    Opened fs ts → Fits c.level fs → (s, op) ∈ c.operators → Derives (.of c lhs) us →
    Opened (.binary lhs op :: fs) (ts ++ (us ++ [.symbol s]))
  | consequent {fs : List Frame} {ts us : List Token} {test : Expr} :
    Opened fs ts → Fits 1 fs → Derives (.of .or test) us →
    Opened (.consequent test :: fs) (ts ++ (us ++ [.symbol .question]))
  | alternative {fs : List Frame} {ts us vs : List Token} {test yes : Expr} :
    Opened fs ts → Fits 1 fs → Derives (.of .or test) us → Derives (.of .expr yes) vs →
    Opened (.alternative test yes :: fs)
      (ts ++ (us ++ .symbol .question :: (vs ++ [.symbol .colon])))
  | group {fs : List Frame} {ts : List Token} :
    Opened fs ts → Opened (.group :: fs) (ts ++ [.symbol .parenOpen])
  | index {fs : List Frame} {ts us : List Token} {base : Expr} :
    Opened fs ts → Derives (.of .access base) us →
    Opened (.index base :: fs) (ts ++ (us ++ [.symbol .bracketOpen]))
  | listing {fs : List Frame} {ts us vs : List Token} {kind : Listing} {items : List Expr} :
    Opened fs ts → Headed kind us → ItemsBefore items.reverse vs →
    Opened (.listing kind items :: fs) (ts ++ (us ++ vs))
  | entry {fs : List Frame} {ts us : List Token} {entries : List (String × Expr)} {key : String}
    {t : Token} :
    Opened fs ts → EntriesBefore entries us → IsKey key t →
    Opened (.entry entries key :: fs) (ts ++ .symbol .braceOpen :: (us ++ [t, .symbol .colon]))

theorem Opened.newListing {fs : List Frame} {ts us : List Token} {kind : Listing}
    (hf : Opened fs ts) (hk : Headed kind us) : Opened (.listing kind [] :: fs) (ts ++ us) := by
  have h : Opened (.listing kind [] :: fs) (ts ++ (us ++ [])) := hf.listing hk itemsBefore_nil
  simpa using h

theorem fits_zero_of_fits_one {fs : List Frame} (h : Fits 1 fs) : Fits 0 fs := by
  cases fs with
  | nil => trivial
  | cons f fs =>
    cases f with
    | binary lhs op => exact absurd h (by have := op.level_pos; simp only [Fits]; omega)
    | unary op => exact absurd h (by simp [Fits])
    | _ => trivial

/-- Closing operators around an operand makes one longer phrase of what has been read. -/
theorem Opened.settle {level : Nat} {e : Expr} {fs : List Frame} {c : Category}
    {ts us : List Token} (hl : level ≤ 7) (hf : Opened fs ts) (he : Derives (.of c e) us)
    (hc : level ≤ c.level) (hfit : Fits c.level fs) :
    ∃ ts' us', ts' ++ us' = ts ++ us ∧ Opened (State.settle level e fs).2 ts' ∧
      ∃ d : Category, level ≤ d.level ∧ Derives (.of d (State.settle level e fs).1) us' := by
  fun_induction State.settle level e fs generalizing c ts us with
  | case1 e op fs ih =>
    cases hf with
    | unary hf hs =>
      have hu : Derives (.of .unary e) us := he.loosen hfit
      obtain ⟨ts', us', h, hr⟩ := ih hf (.unary hs hu) hl (fits_of_seven_le (by decide) fs)
      exact ⟨ts', us', by simp [h], hr⟩
  | case2 e lhs op fs h ih =>
    cases hf with
    | @binary _ ts _ d s _ _ hf hd hs ha =>
      have hop := (Category.binaryOp?_of_mem_operators hs).2
      have hlt := op.level_lt_seven
      have hn : d.next.level = d.level + 1 := Category.level_next (by omega)
      have hb : Derives (.of d.next e) us := he.loosen (by simp only [Fits] at hfit; omega)
      obtain ⟨ts', us', h, hr⟩ := ih hf (.binary hs ha hb) (by omega) hd
      exact ⟨ts', us', by simp [h], hr⟩
  | case3 e lhs op fs h => exact ⟨ts, us, rfl, hf, c, hc, he⟩
  | case4 e test yes fs h ih =>
    cases hf with
    | alternative hf hd ht hy =>
      obtain ⟨ts', us', h, hr⟩ := ih hf (.cond ht hy he.whole) (by omega) (fits_zero_of_fits_one hd)
      exact ⟨ts', us', by simp [h], hr⟩
  | case5 e test yes fs h => exact ⟨ts, us, rfl, hf, c, hc, he⟩
  | case6 e fs => exact ⟨ts, us, rfl, hf, c, hc, he⟩

/-- What has been read up to a state: the tokens of its frames, and those of what it holds. -/
def Reads (st : State) (ts : List Token) : Prop :=
  match st.mode with
  | .operand => Opened st.frames ts
  | .complete e callee => ∃ us vs, us ++ vs = ts ∧ Opened st.frames us ∧
    Derives (.of .access e) vs ∧ ∀ kind ∈ callee, Headed kind (vs ++ [.symbol .parenOpen])
  | .property e => ∃ us vs, us ++ (vs ++ [.symbol .dot]) = ts ∧ Opened st.frames us ∧
    Derives (.of .access e) vs
  | .key entries => ∃ us vs, us ++ .symbol .braceOpen :: vs = ts ∧ Opened st.frames us ∧
    EntriesBefore entries vs
  | .afterKey entries key alone => ∃ us vs t, us ++ .symbol .braceOpen :: (vs ++ [t]) = ts ∧
    Opened st.frames us ∧ EntriesBefore entries vs ∧ IsKey key t ∧ (alone → t = .ident key)

theorem reads_complete {e : Expr} {fs : List Frame} {ts us : List Token} (hf : Opened fs ts)
    (he : Derives (.of .access e) us) : Reads ⟨.complete e none, fs⟩ (ts ++ us) :=
  ⟨ts, us, rfl, hf, he, by simp⟩

theorem reads_atom {e : Expr} {fs : List Frame} {ts us : List Token} (hf : Opened fs ts)
    (he : Derives (.of .atom e) us) : Reads ⟨.complete e none, fs⟩ (ts ++ us) :=
  reads_complete hf (.operand (by decide) he)

theorem reads_object {xs : List (String × Expr)} {fs : List Frame} {ts us : List Token}
    (hf : Opened fs ts) (hx : Derives (.entries xs) us) :
    Reads ⟨.complete (.object xs) none, fs⟩
      (ts ++ .symbol .braceOpen :: (us ++ [.symbol .braceClose])) :=
  reads_atom hf (.object hx)

theorem reads_closing {e : Expr} {s : Symbol} {fs : List Frame} {st : State} {ts us : List Token}
    (hf : Opened fs ts) (he : Derives (.of .expr e) us) (h : closing e s fs = some st) :
    Reads st (ts ++ (us ++ [.symbol s])) := by
  cases hf with
  | nil => simp [closing] at h
  | unary => simp [closing] at h
  | binary => simp [closing] at h
  | alternative => simp [closing] at h
  | consequent hf hd ht =>
    obtain ⟨rfl, rfl⟩ : s = .colon ∧ _ = st := by simpa [closing] using h
    simpa [Reads] using Opened.alternative hf hd ht he
  | group hf =>
    obtain ⟨rfl, rfl⟩ : s = .parenClose ∧ _ = st := by simpa [closing] using h
    simpa using reads_atom hf (.group he)
  | index hf hb =>
    obtain ⟨rfl, rfl⟩ : s = .bracketClose ∧ _ = st := by simpa [closing] using h
    simpa using reads_complete hf (.index hb he)
  | @listing fs ts vs ws kind items hf hh hi =>
    by_cases hs : s = .comma
    · simp only [closing, hs, if_true, Option.some.injEq] at h
      subst h hs
      have hj : ItemsBefore (e :: items).reverse (ws ++ (us ++ [.symbol .comma])) := by
        simpa using hi.comma he
      simpa [Reads] using Opened.listing hf hh hj
    · obtain ⟨rfl, rfl⟩ : s = kind.close ∧ _ = st := by simpa [closing, hs] using h
      have hj : Derives (.items (e :: items).reverse) (ws ++ us) := by
        simpa using hi _ _ (.item he)
      simpa using reads_complete hf (hh.build hj)
  | @entry fs ts ws entries key t hf hx hk =>
    have hkey := hk.entry he
    by_cases hs : s = .comma
    · simp only [closing, hs, if_true, Option.some.injEq] at h
      subst h hs
      exact ⟨ts, _, by simp, hf, hx.comma hkey⟩
    · obtain ⟨rfl, rfl⟩ : s = .braceClose ∧ _ = st := by simpa [closing, hs] using h
      simpa using reads_object hf (hx _ _ (.oneEntry hkey))

theorem reads_operandSymbol {s : Symbol} {fs : List Frame} {st : State} {ts : List Token}
    (hf : Opened fs ts) (h : operandSymbol fs s = some st) : Reads st (ts ++ [.symbol s]) := by
  unfold operandSymbol at h
  split at h
  · next op hop =>
    cases h
    exact .unary hf (Category.unaryOp?_eq_some_iff.1 hop)
  · split at h
    · cases h
      exact hf.newListing .array
    · cases h
      exact ⟨ts, [], by simp, hf, entriesBefore_nil⟩
    · cases h
      exact .group hf
    · split at h
      · next kind items rest =>
        obtain ⟨rfl, rfl⟩ : s = kind.close ∧ _ = st := by simpa using h
        cases hf with
        | @listing _ ts us vs _ _ hf hh hi =>
          simpa using reads_complete hf (hh.build (hi _ _ .noItems))
      · cases h

theorem reads_operatorSymbol {e : Expr} {callee : Option Listing} {s : Symbol} {fs : List Frame}
    {st : State} {ts us : List Token} (hf : Opened fs ts) (he : Derives (.of .access e) us)
    (hk : ∀ kind ∈ callee, Headed kind (us ++ [.symbol .parenOpen]))
    (h : operatorSymbol e callee fs s = some st) : Reads st (ts ++ (us ++ [.symbol s])) := by
  unfold operatorSymbol at h
  split at h
  · next op hop =>
    cases h
    obtain ⟨c, hc⟩ := Category.exists_mem_operators hop
    have hl := (Category.binaryOp?_of_mem_operators hc).2
    have hlt := op.level_lt_seven
    obtain ⟨ts', us', heq, hf', d, hd, he'⟩ := hf.settle (by omega : op.level ≤ 7) he
      (by simp only [Category.level]; omega) (fits_of_seven_le (by decide) fs)
    have hfit := fits_of_stops (stops_settle op.level e fs)
    have hb := Opened.binary hf' (hl ▸ hfit) hc (he'.loosen (by omega))
    rwa [← List.append_assoc, heq, List.append_assoc] at hb
  · split at h
    · obtain ⟨kind, hkind, rfl⟩ := Option.map_eq_some_iff.1 h
      exact hf.newListing (hk kind hkind)
    · cases h
      exact ⟨ts, us, rfl, hf, he⟩
    · cases h
      exact .index hf he
    · cases h
      obtain ⟨ts', us', heq, hf', d, hd, he'⟩ := hf.settle (by decide : 1 ≤ 7) he
        (by decide) (fits_of_seven_le (by decide) fs)
      have hb := Opened.consequent hf' (fits_of_stops (stops_settle 1 e fs)) (he'.loosen hd)
      rwa [← List.append_assoc, heq, List.append_assoc] at hb
    · obtain ⟨ts', us', heq, hf', d, hd, he'⟩ := hf.settle (by decide : 0 ≤ 7) he
        (by decide) (fits_of_seven_le (by decide) fs)
      have hb := reads_closing hf' (he'.loosen hd) h
      rwa [← List.append_assoc, heq, List.append_assoc] at hb

/-- Each step reads one more token. -/
theorem Reads.step {st st' : State} {t : Token} {ts : List Token} (h : Reads st ts)
    (hs : st.step t = some st') : Reads st' (ts ++ [t]) := by
  obtain ⟨mode, fs⟩ := st
  cases mode with
  | operand =>
    cases t with
    | symbol s => exact reads_operandSymbol h hs
    | ident n =>
      cases hs
      refine ⟨ts, [.ident n], rfl, h, .operand (by decide) (.ident n), ?_⟩
      rintro kind ⟨⟩
      exact .call n
    | keyword w =>
      cases w with
      | null => cases hs; exact reads_atom h .null
      | true => cases hs; exact reads_atom h .true
      | false => cases hs; exact reads_atom h .false
      | «in» => cases hs
    | string s => cases hs; exact reads_atom h (.string s)
    | number x => cases hs; exact reads_atom h (.number x)
    | error x => cases hs
  | complete e callee =>
    obtain ⟨us, vs, rfl, hf, he, hk⟩ := h
    cases t with
    | symbol s =>
      rw [List.append_assoc]
      exact reads_operatorSymbol hf he hk hs
    | _ => cases hs
  | property e =>
    obtain ⟨us, vs, rfl, hf, he⟩ := h
    cases t with
    | ident n =>
      cases hs
      refine ⟨us, vs ++ [.symbol .dot, .ident n], by simp, hf, .member he, ?_⟩
      rintro kind ⟨⟩
      simpa using Headed.method n he
    | _ => cases hs
  | key entries =>
    obtain ⟨us, vs, rfl, hf, hx⟩ := h
    cases t with
    | ident n => cases hs; exact ⟨us, vs, .ident n, by simp, hf, hx, .inl rfl, fun _ => rfl⟩
    | string n => cases hs; exact ⟨us, vs, .string n, by simp, hf, hx, .inr rfl, by simp⟩
    | symbol s =>
      cases s with
      | braceClose => cases hs; simpa using reads_object hf (hx _ _ .noEntries)
      | _ => cases hs
    | _ => cases hs
  | afterKey entries key alone =>
    obtain ⟨us, vs, t', rfl, hf, hx, hk, ha⟩ := h
    cases t with
    | symbol s =>
      cases s with
      | colon => cases alone <;> cases hs <;> simpa [Reads] using Opened.entry hf hx hk
      | comma =>
        cases alone <;> cases hs
        obtain rfl := ha rfl
        exact ⟨us, _, by simp, hf, hx.comma (.shorthand key)⟩
      | braceClose =>
        cases alone <;> cases hs
        obtain rfl := ha rfl
        simpa using reads_object hf (hx _ _ (.oneEntry (.shorthand key)))
      | _ => cases alone <;> cases hs
    | _ => cases hs

theorem Reads.finish {st : State} {e : Expr} {ts : List Token} (h : Reads st ts)
    (hs : st.finish = some e) : Derives (.of .expr e) ts := by
  obtain ⟨mode, fs⟩ := st
  cases mode with
  | complete x callee =>
    obtain ⟨us, vs, rfl, hf, he, -⟩ := h
    obtain ⟨ts', us', heq, hf', d, hd, he'⟩ := hf.settle (by decide : 0 ≤ 7) he
      (by decide) (fits_of_seven_le (by decide) fs)
    simp only [State.finish] at hs
    split at hs
    · next x' hx =>
      cases hs
      rw [hx] at hf' he'
      cases hf'
      rw [← heq]
      exact he'.loosen hd
    · cases hs
  | _ => cases hs

theorem reads_start : Reads .start [] := .nil

theorem Reads.run {st st' : State} {ts : List Token} {ls : List Lexeme} (h : Reads st ts)
    (hr : st.run ls = .ok st') : Reads st' (ts ++ ls.map Lexeme.token) := by
  induction ls generalizing st ts with
  | nil => cases hr; simpa using h
  | cons l ls ih =>
    simp only [State.run] at hr
    split at hr
    · next hs => simpa using ih (h.step hs) hr
    · cases hr

theorem derives_of_parseLexemes {length : Nat} {ls : List Lexeme} {e : Expr}
    (h : parseLexemes length ls = .ok e) : Derives (.of .expr e) (ls.map Lexeme.token) := by
  unfold parseLexemes at h
  split at h
  · cases h
  · next st hr =>
    split at h
    · next x hx =>
      cases h
      exact (reads_start.run hr).finish hx
    · cases h

end Stencil.Expr
