import Stencil.Proofs.Eval.Operands
import Stencil.Proofs.Value.Positions
import Stencil.Proofs.Value.Rounds
set_option autoImplicit false

namespace Stencil

namespace Functions

theorem len_of_length? {v : Value} {n : ℕ} (hv : v.length? = some n) (hn : n < 2 ^ 64) :
    len [v] = .ok (.number (.int n)) := by
  have harg : arg [v] 0 = .ok v := rfl
  simp only [len, harg, hv, bind, Except.bind, Number.ofCount_of_lt hn]
  rfl

theorem keys_object (fields : List (String × Value)) :
    keys [.object fields] = .ok (.array (fields.map fun f => .string f.1)) := by
  have hkeys : keys [.object fields] = .ok (.array ((Entries.keys fields).map .string)) := rfl
  rw [hkeys, Entries.keys, List.map_map]
  rfl

theorem contains_array (xs : List Value) (v : Value) :
    contains [.array xs, v] = .ok (.bool (xs.any fun item => item.equal v)) := by
  cases v <;> rfl

end Functions

namespace Expr

/-- An array is this row of pairs: a loop goes through them and knows how many are to come, they are as many
as the array is long, and each has a position and the item there. Any number equal to the position names the
item, any other number names null, and a search finds what is equal to an item. -/
structure ArrayViews (st : Setting) (scope : Scope) (x : Expr) (xs : List Value)
    (ps : List (Value × Value)) : Prop where
  loop : (Value.array xs).pairs? = some ps
  rounds : ∃ r, (Value.array xs).rounds? = some r ∧ r.Runs ps
  count : ps.length = xs.length
  pair : ∀ k (h : k < xs.length), ps[k]? = some (.number (.int k), xs[k])
  len : (call "len" [x]).eval st scope = .ok (.number (.int ps.length))
  length : (member x "length").eval st scope = .ok (.number (.int ps.length))
  same : ∀ m : Number, m.WellFormed → ∀ k : ℕ, k < xs.length →
    ((Value.number m).equal (.number (.int k)) ↔ m.value = k)
  item : ∀ y (m : Number) (k : ℕ) (h : k < xs.length), y.eval st scope = .ok (.number m) → m.value = k →
    (index x y).eval st scope = .ok xs[k]
  beyond : ∀ y (m : Number), y.eval st scope = .ok (.number m) → m.WellFormed →
    (∀ k : ℕ, k < xs.length → m.value ≠ k) → (index x y).eval st scope = .ok .null
  contains : ∀ y v, y.eval st scope = .ok v → ∃ t,
    (call "contains" [x, y]).eval st scope = .ok (.bool t) ∧ (t ↔ ∃ p ∈ ps, p.2.equal v)

/-- An object is this row of pairs: a loop goes through them and knows how many are to come, they are its
fields in their order, and their names are its keys. By either access a name stands for what it is paired
with, any other string for null, and a search finds the names. A length is a number of 64 bits. -/
structure ObjectViews (st : Setting) (scope : Scope) (x : Expr) (fields : List (String × Value))
    (ps : List (Value × Value)) : Prop where
  loop : (Value.object fields).pairs? = some ps
  rounds : ∃ r, (Value.object fields).rounds? = some r ∧ r.Runs ps
  pair : ∀ k : ℕ, ps[k]? = fields[k]?.map fun f => (.string f.1, f.2)
  keys : (call "keys" [x]).eval st scope = .ok (.array (ps.map Prod.fst))
  len : ps.length < 2 ^ 64 → (call "len" [x]).eval st scope = .ok (.number (.int ps.length))
  field : ∀ y name v, y.eval st scope = .ok (.string name) → (.string name, v) ∈ ps →
    (index x y).eval st scope = .ok v ∧ (member x name).eval st scope = .ok v
  beyond : ∀ y name, y.eval st scope = .ok (.string name) → .string name ∉ ps.map Prod.fst →
    (index x y).eval st scope = .ok .null ∧ (member x name).eval st scope = .ok .null
  contains : ∀ y name, y.eval st scope = .ok (.string name) → ∃ t,
    (call "contains" [x, y]).eval st scope = .ok (.bool t) ∧ (t ↔ .string name ∈ ps.map Prod.fst)

section

variable {st : Setting} {scope : Scope} (hst : st.functions.HasBuiltins) {x : Expr}

include hst

theorem arrayViews {xs : List Value} (hx : x.eval st scope = .ok (.array xs))
    (hxs : xs.length < 2 ^ 53) : ArrayViews st scope x xs (Value.enumerate 0 xs) where
  loop := rfl
  rounds := ⟨_, rfl, Value.Rounds.runs_pairs _⟩
  count := Value.length_enumerate 0 xs
  pair k hk := by
    rw [Value.getElem?_enumerate, List.getElem?_eq_getElem hk, Nat.zero_add,
      Number.ofCount_of_lt (by omega)]
    rfl
  len := by
    have hcount := Value.length_enumerate 0 xs
    exact eval_builtin_of_ok (.cons hx .nil) hst rfl
      (Functions.len_of_length? (congrArg some hcount.symm) (by omega))
  length := by
    rw [eval_member hx, Value.member, if_pos rfl, Value.length_enumerate,
      Number.ofCount_of_lt (by omega)]
  same m hm k hk := by
    rw [Number.equal_int_iff (by omega), Number.isWhole_iff_value hm (by omega), Int.cast_natCast]
  item y m k hk hy hm := by rw [eval_index hx hy, Value.index_of_value hxs hk hm]
  beyond y m hy hm h := by rw [eval_index hx hy, Value.index_of_ne hxs hm h]
  contains y v hy := by
    refine ⟨_, eval_builtin_of_ok (.cons hx (.cons hy .nil)) hst rfl (Functions.contains_array xs v), ?_⟩
    rw [← Value.map_snd_enumerate 0 xs, List.any_map, List.any_eq_true, Value.map_snd_enumerate]
    rfl

theorem objectViews {fields : List (String × Value)} (hx : x.eval st scope = .ok (.object fields))
    (hnames : (Entries.keys fields).Nodup) :
    ObjectViews st scope x fields (fields.map fun f => (.string f.1, f.2)) where
  loop := rfl
  rounds := ⟨_, rfl, Value.Rounds.runs_pairs _⟩
  pair k := List.getElem?_map ..
  keys := by
    rw [List.map_map]
    exact eval_builtin_of_ok (.cons hx .nil) hst rfl (Functions.keys_object fields)
  len h := by
    rw [List.length_map] at h ⊢
    exact eval_builtin_of_ok (.cons hx .nil) hst rfl (Functions.len_of_length? rfl h)
  field y name v hy hv := by
    have hget : Entries.get? name fields = some v := by
      rw [Entries.get?_eq_some_iff hnames]
      simpa using hv
    rw [eval_index hx hy, eval_member hx, Value.index, Value.member, hget]
    exact ⟨rfl, rfl⟩
  beyond y name hy hname := by
    have hget : Entries.get? name fields = none := by
      rw [Entries.get?_eq_none_iff]
      simpa [Entries.keys] using hname
    rw [eval_index hx hy, eval_member hx, Value.index, Value.member, hget]
    exact ⟨rfl, rfl⟩
  contains y name hy := by
    refine ⟨_, eval_builtin_of_ok (.cons hx (.cons hy .nil)) hst rfl rfl, ?_⟩
    rw [Entries.contains, Option.isSome_iff_ne_none, ne_eq, Entries.get?_eq_none_iff]
    simp [Entries.keys]

end

/-- Whatever an expression has as its value: an array shorter than `2 ^ 53`, and an object, which has no name
twice, is one row of pairs in every view. -/
theorem views_agree {st : Setting} {scope : Scope} (hst : st.functions.HasBuiltins) (x : Expr) :
    (∀ xs, x.eval st scope = .ok (.array xs) → xs.length < 2 ^ 53 →
      ∃ ps, ArrayViews st scope x xs ps) ∧
    (∀ fields, x.eval st scope = .ok (.object fields) → (Entries.keys fields).Nodup →
      ∃ ps, ObjectViews st scope x fields ps) :=
  ⟨fun _ hx hxs => ⟨_, arrayViews hst hx hxs⟩, fun _ hx hnames => ⟨_, objectViews hst hx hnames⟩⟩

theorem float_names_item :
    let st : Setting := ⟨Functions.standard, .strict⟩
    let one : Binary64.Finite := ⟨false, 4503599627370496, 1022, by decide⟩
    let half : Binary64.Finite := ⟨false, 4503599627370496, 1021, by decide⟩
    let scope := Scope.ofContext [("xs", .array [.null, .string "s"]),
      ("o", .object [("b", .bool true), ("a", .null)]), ("one", .number (.float one)),
      ("half", .number (.float half)), ("b", .string "b"), ("c", .string "c")]
    one.value = (1 : ℕ) ∧ (∀ k : ℕ, half.value ≠ k) ∧
    (index (.ident "xs") (.ident "one")).eval st scope = .ok (.string "s") ∧
    (index (.ident "xs") (.ident "half")).eval st scope = .ok .null ∧
    (∃ r, (Value.array [.null, .string "s"]).rounds? = some r ∧
      (Value.Rounds.step^[1] r).sizeHint = (1, some 1)) ∧
    (call "keys" [.ident "o"]).eval st scope = .ok (.array [.string "b", .string "a"]) ∧
    (index (.ident "o") (.ident "b")).eval st scope = .ok (.bool true) ∧
    (member (.ident "o") "c").eval st scope = .ok .null := by
  intro st one half scope
  have hone : one.value = (1 : ℕ) := by
    rw [← Int.cast_natCast, Binary64.Finite.value_eq_intCast_iff]
    decide +kernel
  have hhalf (k : ℕ) : half.value ≠ k := by
    intro h
    have hfraction : half.isIntegral = false := by decide +kernel
    rw [Binary64.Finite.isIntegral_iff.2 ⟨k, by rw [h, Int.cast_natCast]⟩] at hfraction
    cases hfraction
  have hst : st.functions.HasBuiltins := fun _ _ h => h
  have hxs : (ident "xs").eval st scope = .ok (.array [.null, .string "s"]) := rfl
  have ho : (ident "o").eval st scope = .ok (.object [("b", .bool true), ("a", .null)]) := rfl
  obtain ⟨ps, harray⟩ := (views_agree hst (.ident "xs")).1 _ hxs (by decide)
  obtain ⟨qs, hobject⟩ := (views_agree hst (.ident "o")).2 _ ho (by decide)
  obtain ⟨r, hr, hruns⟩ := harray.rounds
  have hps : ps.length = 2 := harray.count
  obtain rfl : [(.string "b", .bool true), (.string "a", .null)] = qs := Option.some.inj hobject.loop
  refine ⟨hone, hhalf, harray.item _ _ 1 (by decide) rfl hone,
    harray.beyond (.ident "half") (.float half) rfl nofun fun k _ => hhalf k, ⟨r, hr, ?_⟩,
    hobject.keys, (hobject.field (.ident "b") "b" _ rfl (by simp)).1,
    (hobject.beyond (.ident "c") "c" rfl (by simp)).2⟩
  rw [hruns.sizeHint, hps]

end Expr

end Stencil
