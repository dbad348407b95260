import Mathlib.Data.List.Forall2
import Mathlib.Data.List.Perm.Subperm
import Mathlib.Logic.Relation
import Stencil.Value.Basic
set_option autoImplicit false

/-!
# Equality of values

On values whose objects have no name twice equality is an equivalence, and it is kept where a part is
replaced by an equal one or the fields of an object change their order. An object is compared in one
direction only: as there are as many names in both, none is left out. Main statements:
`Value.equal_symm`, `Value.Replaced.equal` and `Value.equal_equivalence`.
-/

namespace Stencil

/-- Where a number lies: below the finite numbers, at so many units, or above them. -/
def Binary64.place? : Binary64 → Option (Int × Int)
  | .nan => none
  | .infinite negative => some (if negative then -1 else 1, 0)
  | .finite x => some (0, x.units)

theorem Binary64.same_iff {x y : Binary64} :
    x.same y ↔ ∃ p, x.place? = some p ∧ y.place? = some p := by
  cases x with
  | nan => simp [same, compare?, place?]
  | infinite a =>
    cases y with
    | nan => simp [same, compare?, place?]
    | infinite b => cases a <;> cases b <;> decide
    | finite y => cases a <;> simp [same, compare?, place?]
  | finite x =>
    cases y with
    | nan => simp [same, compare?, place?]
    | infinite b => cases b <;> simp [same, compare?, place?]
    | finite y => simp [same, compare?, place?, eq_comm (a := y.units)]

theorem Binary64.exists_place_pack (negative : Bool) (significand scale : Nat) :
    ∃ p, (pack negative significand scale).place? = some p := by
  unfold pack
  split
  · exact ⟨_, rfl⟩
  · split <;> exact ⟨_, rfl⟩

theorem Number.exists_place (n : Number) : ∃ p, n.toBinary64.place? = some p := by
  cases n with
  | int n => exact Binary64.exists_place_pack _ _ _
  | float x => exact ⟨_, rfl⟩

namespace Value

variable {a b c v w : Value}

def parts : Value → List Value
  | .array items => items
  | .object fields => fields.map Prod.snd
  | _ => []

def names : Value → List String
  | .object fields => Entries.keys fields
  | _ => []

/-- No object in the value has two fields of one name. -/
inductive DistinctNames : Value → Prop where
  | intro {v : Value} : v.names.Nodup → (∀ w ∈ v.parts, DistinctNames w) → DistinctNames v

theorem distinctNames_iff : v.DistinctNames ↔ v.names.Nodup ∧ ∀ w ∈ v.parts, w.DistinctNames :=
  ⟨fun h => by cases h with | intro hn hp => exact ⟨hn, hp⟩, fun h => .intro h.1 h.2⟩

@[simp] theorem distinctNames_null : null.DistinctNames := .intro List.nodup_nil (by simp [parts])

@[simp] theorem distinctNames_bool (b : Bool) : (bool b).DistinctNames :=
  .intro List.nodup_nil (by simp [parts])

@[simp] theorem distinctNames_number (n : Number) : (number n).DistinctNames :=
  .intro List.nodup_nil (by simp [parts])

@[simp] theorem distinctNames_string (s : String) : (string s).DistinctNames :=
  .intro List.nodup_nil (by simp [parts])

@[simp] theorem distinctNames_array {items : List Value} :
    (array items).DistinctNames ↔ ∀ x ∈ items, x.DistinctNames := by
  rw [distinctNames_iff]
  simp [names, parts]

@[simp] theorem distinctNames_object {fields : List (String × Value)} :
    (object fields).DistinctNames ↔ (Entries.keys fields).Nodup ∧ ∀ f ∈ fields, f.2.DistinctNames := by
  rw [distinctNames_iff, parts, List.forall_mem_map]
  rfl

theorem equalItems_iff {xs ys : List Value} :
    equalItems xs ys ↔ List.Forall₂ (fun x y => x.equal y) xs ys := by
  induction xs generalizing ys with
  | nil => cases ys <;> simp [equalItems]
  | cons x xs ih => cases ys <;> simp [equalItems, ih]

theorem equalFields_iff {fs gs : List (String × Value)} :
    equalFields fs gs ↔ ∀ f ∈ fs, ∃ y, Entries.get? f.1 gs = some y ∧ f.2.equal y := by
  induction fs with
  | nil => simp [equalFields]
  | cons f fs ih =>
    obtain ⟨k, x⟩ := f
    rw [equalFields, Bool.and_eq_true, ih, List.forall_mem_cons]
    cases Entries.get? k gs <;> simp

theorem null_equal : null.equal v ↔ v = null := by
  cases v <;> simp [equal]

theorem bool_equal {x : Bool} : (bool x).equal v ↔ v = bool x := by
  cases v <;> simp [equal, eq_comm]

theorem string_equal {s : String} : (string s).equal v ↔ v = string s := by
  cases v <;> simp [equal, eq_comm]

theorem number_equal {m : Number} : (number m).equal v ↔ ∃ n, v = number n ∧
    ∃ p, m.toBinary64.place? = some p ∧ n.toBinary64.place? = some p := by
  cases v with
  | number n => simp [equal, Number.same, Binary64.same_iff]
  | _ => simp [equal]

theorem array_equal {xs : List Value} : (array xs).equal v ↔ ∃ ys, v = array ys ∧
    List.Forall₂ (fun x y => x.equal y) xs ys := by
  cases v with
  | array ys => simp [equal, equalItems_iff]
  | _ => simp [equal]

theorem object_equal {fs : List (String × Value)} : (object fs).equal v ↔ ∃ gs, v = object gs ∧
    fs.length = gs.length ∧ ∀ f ∈ fs, ∃ y, Entries.get? f.1 gs = some y ∧ f.2.equal y := by
  cases v with
  | object gs => simp [equal, equalFields_iff]
  | _ => simp [equal]

theorem equal_refl (h : v.DistinctNames) : v.equal v := by
  induction h with
  | @intro v hnames _ ih =>
    cases v with
    | null => rfl
    | bool b => simp [equal]
    | string s => simp [equal]
    | number n =>
      obtain ⟨p, hp⟩ := n.exists_place
      exact number_equal.2 ⟨n, rfl, p, hp, hp⟩
    | array items => exact array_equal.2 ⟨items, rfl, List.forall₂_same.2 ih⟩
    | object fields =>
      refine object_equal.2 ⟨fields, rfl, rfl, fun f hf => ⟨f.2, ?_, ih f.2 (List.mem_map_of_mem hf)⟩⟩
      exact (Entries.get?_eq_some_iff hnames).2 hf

/-- If all names are found among as many others, then the others are found as well. -/
theorem mem_keys_of_equal {fs gs : List (String × Value)} (hfs : (Entries.keys fs).Nodup)
    (hlength : fs.length = gs.length)
    (hfound : ∀ f ∈ fs, ∃ y, Entries.get? f.1 gs = some y ∧ f.2.equal y) {k : String}
    (hk : k ∈ Entries.keys gs) : k ∈ Entries.keys fs := by
  have hsub : Entries.keys fs ⊆ Entries.keys gs := by
    intro k hk
    obtain ⟨f, hf, rfl⟩ := List.mem_map.1 hk
    obtain ⟨y, hy, -⟩ := hfound f hf
    exact List.mem_map.2 ⟨_, Entries.mem_of_get? hy, rfl⟩
  have hle : (Entries.keys gs).length ≤ (Entries.keys fs).length := by
    simp [Entries.keys, hlength]
  exact ((List.subperm_of_subset hfs hsub).perm_of_length_le hle).mem_iff.2 hk

theorem equal_symm (ha : a.DistinctNames) (hb : b.DistinctNames) (h : a.equal b) : b.equal a := by
  induction ha generalizing b with
  | @intro a hnames _ ih =>
    obtain ⟨hnamesb, hpartsb⟩ := distinctNames_iff.1 hb
    cases a with
    | null =>
      obtain rfl := null_equal.1 h
      exact h
    | bool x =>
      obtain rfl := bool_equal.1 h
      exact h
    | string s =>
      obtain rfl := string_equal.1 h
      exact h
    | number m =>
      obtain ⟨n, rfl, p, hm, hn⟩ := number_equal.1 h
      exact number_equal.2 ⟨m, rfl, p, hn, hm⟩
    | array xs =>
      obtain ⟨ys, rfl, hitems⟩ := array_equal.1 h
      obtain ⟨hlength, hget⟩ := List.forall₂_iff_get.1 hitems
      refine array_equal.2 ⟨xs, rfl, List.forall₂_iff_get.2 ⟨hlength.symm, fun i hy hx => ?_⟩⟩
      exact ih _ (List.get_mem _ _) (hpartsb _ (List.get_mem _ _)) (hget i hx hy)
    | object fs =>
      obtain ⟨gs, rfl, hlength, hfound⟩ := object_equal.1 h
      refine object_equal.2 ⟨fs, rfl, hlength.symm, fun g hg => ?_⟩
      have hk : g.1 ∈ Entries.keys fs :=
        mem_keys_of_equal hnames hlength hfound (List.mem_map_of_mem hg)
      obtain ⟨f, hf, hfg⟩ := List.mem_map.1 hk
      obtain ⟨y, hy, hequal⟩ := hfound f hf
      have hyg : y = g.2 := by
        have hget := (Entries.get?_eq_some_iff (x := g.2) hnamesb).2 hg
        rw [← hfg, hy] at hget
        exact Option.some.inj hget
      subst hyg
      refine ⟨f.2, ?_, ih f.2 (List.mem_map_of_mem hf) (hpartsb _ (List.mem_map_of_mem hg)) hequal⟩
      rw [← hfg]
      exact (Entries.get?_eq_some_iff hnames).2 hf

theorem equal_comm (ha : a.DistinctNames) (hb : b.DistinctNames) : a.equal b = b.equal a :=
  Bool.eq_iff_iff.2 ⟨equal_symm ha hb, equal_symm hb ha⟩

theorem equal_trans (ha : a.DistinctNames) (hab : a.equal b) (hbc : b.equal c) : a.equal c := by
  induction ha generalizing b c with
  | @intro a _ _ ih =>
    cases a with
    | null =>
      obtain rfl := null_equal.1 hab
      exact hbc
    | bool x =>
      obtain rfl := bool_equal.1 hab
      exact hbc
    | string s =>
      obtain rfl := string_equal.1 hab
      exact hbc
    | number l =>
      obtain ⟨m, rfl, p, hl, hm⟩ := number_equal.1 hab
      obtain ⟨n, rfl, q, hm', hn⟩ := number_equal.1 hbc
      exact number_equal.2 ⟨n, rfl, p, hl, (hm'.symm.trans hm) ▸ hn⟩
    | array xs =>
      obtain ⟨ys, rfl, hxy⟩ := array_equal.1 hab
      obtain ⟨zs, rfl, hyz⟩ := array_equal.1 hbc
      obtain ⟨hlength, hget⟩ := List.forall₂_iff_get.1 hxy
      obtain ⟨hlength', hget'⟩ := List.forall₂_iff_get.1 hyz
      refine array_equal.2
        ⟨zs, rfl, List.forall₂_iff_get.2 ⟨hlength.trans hlength', fun i hx hz => ?_⟩⟩
      exact ih _ (List.get_mem _ _) (hget i hx (hlength ▸ hx)) (hget' i (hlength ▸ hx) hz)
    | object fs =>
      obtain ⟨gs, rfl, hlength, hfound⟩ := object_equal.1 hab
      obtain ⟨hs, rfl, hlength', hfound'⟩ := object_equal.1 hbc
      refine object_equal.2 ⟨hs, rfl, hlength.trans hlength', fun f hf => ?_⟩
      obtain ⟨y, hy, hxy⟩ := hfound f hf
      obtain ⟨z, hz, hyz⟩ := hfound' (f.1, y) (Entries.mem_of_get? hy)
      exact ⟨z, hz, ih f.2 (List.mem_map_of_mem hf) hxy hyz⟩

/-- The second value is the first with one part replaced, or the whole. What is replaced, at whatever
depth, stands in the relation to what takes its place. -/
inductive Replaced (R : Value → Value → Prop) : Value → Value → Prop where
  | whole {v w : Value} : R v w → Replaced R v w
  | item {v w : Value} (before after : List Value) : Replaced R v w →
    Replaced R (.array (before ++ v :: after)) (.array (before ++ w :: after))
  | field {v w : Value} (name : String) (before after : List (String × Value)) : Replaced R v w →
    Replaced R (.object (before ++ (name, v) :: after)) (.object (before ++ (name, w) :: after))

def Permuted (v w : Value) : Prop := ∃ fs gs, v = .object fs ∧ w = .object gs ∧ fs.Perm gs

namespace Replaced

variable {R : Value → Value → Prop}

theorem distinctNames (hR : ∀ v w, R v w → v.DistinctNames → w.DistinctNames)
    (h : Replaced R v w) (hv : v.DistinctNames) : w.DistinctNames := by
  induction h with
  | whole h => exact hR _ _ h hv
  | item before after _ ih =>
    simp only [distinctNames_array, List.forall_mem_append, List.forall_mem_cons] at hv ⊢
    exact ⟨hv.1, ih hv.2.1, hv.2.2⟩
  | field name before after _ ih =>
    simp only [distinctNames_object, List.forall_mem_append, List.forall_mem_cons] at hv ⊢
    exact ⟨by simpa [Entries.keys] using hv.1, hv.2.1, ih hv.2.2.1, hv.2.2.2⟩

theorem equal (hR : ∀ v w, R v w → v.DistinctNames → v.equal w) (h : Replaced R v w)
    (hv : v.DistinctNames) : v.equal w := by
  induction h with
  | whole h => exact hR _ _ h hv
  | @item v w before after _ ih =>
    simp only [distinctNames_array, List.forall_mem_append, List.forall_mem_cons] at hv
    have hsame (xs : List Value) (hxs : ∀ x ∈ xs, x.DistinctNames) :
        List.Forall₂ (fun x y => x.equal y) xs xs :=
      List.forall₂_same.2 fun x hx => equal_refl (hxs x hx)
    exact array_equal.2 ⟨_, rfl, List.rel_append (hsame before hv.1)
      (.cons (ih hv.2.1) (hsame after hv.2.2))⟩
  | @field v w name before after _ ih =>
    obtain ⟨hnames, hfields⟩ := distinctNames_object.1 hv
    have hnames' : (Entries.keys (before ++ (name, w) :: after)).Nodup := by
      simpa [Entries.keys] using hnames
    refine object_equal.2 ⟨_, rfl, by simp, fun f hf => ?_⟩
    by_cases h : f ∈ before ∨ f ∈ after
    · have hf' : f ∈ before ++ (name, w) :: after := by rcases h with h | h <;> simp [h]
      exact ⟨f.2, (Entries.get?_eq_some_iff hnames').2 hf', equal_refl (hfields f hf)⟩
    · obtain rfl : f = (name, v) := by simpa [not_or.1 h] using hf
      exact ⟨w, (Entries.get?_eq_some_iff hnames').2 (by simp), ih (hfields _ hf)⟩

end Replaced

namespace Permuted

theorem distinctNames (h : Permuted v w) (hv : v.DistinctNames) : w.DistinctNames := by
  obtain ⟨fs, gs, rfl, rfl, hperm⟩ := h
  obtain ⟨hnames, hfields⟩ := distinctNames_object.1 hv
  exact distinctNames_object.2 ⟨(hperm.map Prod.fst).nodup_iff.1 hnames,
    fun f hf => hfields f (hperm.mem_iff.2 hf)⟩

theorem equal (h : Permuted v w) (hv : v.DistinctNames) : v.equal w := by
  have hw := h.distinctNames hv
  obtain ⟨fs, gs, rfl, rfl, hperm⟩ := h
  refine object_equal.2 ⟨gs, rfl, hperm.length_eq, fun f hf => ⟨f.2, ?_, ?_⟩⟩
  · exact (Entries.get?_eq_some_iff (distinctNames_object.1 hw).1).2 (hperm.mem_iff.1 hf)
  · exact equal_refl ((distinctNames_object.1 hv).2 f hf)

end Permuted

/-- The value with the fields of any of its objects in another order. -/
def Reordered : Value → Value → Prop := Relation.ReflTransGen (Replaced Permuted)

theorem Reordered.equal (h : v.Reordered w) (hv : v.DistinctNames) :
    w.DistinctNames ∧ v.equal w := by
  induction h with
  | refl => exact ⟨hv, equal_refl hv⟩
  | tail _ h ih =>
    obtain ⟨hu, hequal⟩ := ih
    have hnames := h.distinctNames (fun _ _ => Permuted.distinctNames) hu
    exact ⟨hnames, equal_trans hv hequal (h.equal (fun _ _ => Permuted.equal) hu)⟩

theorem equal_congr (ha : a.DistinctNames) (hb : b.DistinctNames) (h : a.equal b) (c : Value) :
    a.equal c = b.equal c :=
  Bool.eq_iff_iff.2 ⟨equal_trans hb (equal_symm ha hb h), equal_trans ha h⟩

/-- On values whose objects have no name twice equality is an equivalence. It does not see the order of
the fields, in whichever objects, and is kept when a part is replaced by an equal one. -/
theorem equal_equivalence :
    (∀ a : Value, a.DistinctNames → a.equal a) ∧
    (∀ a b : Value, a.DistinctNames → b.DistinctNames → a.equal b = b.equal a) ∧
    (∀ a b c : Value, a.DistinctNames → b.DistinctNames → c.DistinctNames →
      a.equal b → b.equal c → a.equal c) ∧
    (∀ a a' b b' : Value, a.DistinctNames → b.DistinctNames → a.Reordered a' → b.Reordered b' →
      a'.equal b' = a.equal b) ∧
    ∀ a a' : Value, a.DistinctNames → a.Replaced (fun v w => v.equal w) a' → a.equal a' := by
  refine ⟨fun a => equal_refl, fun a b => equal_comm, fun a b c ha _ _ => equal_trans ha,
    fun a a' b b' ha hb haa hbb => ?_, fun a a' ha h => ?_⟩
  · obtain ⟨ha', haa⟩ := haa.equal ha
    obtain ⟨hb', hbb⟩ := hbb.equal hb
    calc a'.equal b' = a.equal b' := (equal_congr ha ha' haa b').symm
      _ = b'.equal a := equal_comm ha hb'
      _ = b.equal a := (equal_congr hb hb' hbb a).symm
      _ = a.equal b := equal_comm hb ha
  · exact Replaced.equal (fun _ _ h _ => h) h ha

theorem turned_fields_equal :
    let one : Value := .number (.int 1)
    let one' : Value := .number (.float ⟨false, 4503599627370496, 1022, by decide⟩)
    let fields := [("p", .null), ("q", one)]
    let page (x : Value) (fields : List (String × Value)) : Value :=
      .object [("x", .array [x, .object fields]), ("y", .string "s")]
    let a := page one fields
    let b := page one' fields
    let c := page one' fields.reverse
    a.DistinctNames ∧ b.Reordered c ∧ a.Replaced (fun v w => v.equal w) b ∧
      a.equal a ∧ a.equal b ∧ a.equal c ∧ c.equal a = a.equal c ∧ c.equal a = b.equal a := by
  intro one one' fields page a b c
  have ha : a.DistinctNames := by simp [a, page, fields, one, Entries.keys]
  have hb : b.DistinctNames := by simp [b, page, fields, one, one', Entries.keys]
  have hpart : a.Replaced (fun v w => v.equal w) b :=
    .field "x" [] _ (.item [] _ (.whole (by decide +kernel)))
  have hturned : Permuted (.object fields) (.object fields.reverse) :=
    ⟨_, _, rfl, rfl, fields.reverse_perm.symm⟩
  have horder : b.Reordered c := .single (.field "x" [] _ (.item [one'] [] (.whole hturned)))
  obtain ⟨hrefl, hcomm, htrans, hordered, hreplaced⟩ := equal_equivalence
  have hab : a.equal b := hreplaced a b ha hpart
  have hac : a.equal c = a.equal b := hordered a a b c ha hb .refl horder
  have hc : c.DistinctNames := (horder.equal hb).1
  exact ⟨ha, horder, hpart, hrefl a ha, hab, hac ▸ hab, hcomm c a hc ha,
    hordered b c a a hb ha horder .refl⟩

end Value

end Stencil
