import Stencil.Proofs.Eval.Comparisons
import Stencil.Proofs.Value.Order
set_option autoImplicit false

namespace Stencil

/-- The operators that ask which of two values is the larger one. -/
def BinaryOp.orderings : List BinaryOp := [.less, .lessOrEqual, .greater, .greaterOrEqual]

namespace Value

variable {v w u : Value} {op : BinaryOp}

theorem binary_of_not_ordered (h : ¬ v.Ordered w) (hop : op ∈ BinaryOp.orderings) :
    v.binary op w = .error (.type (.compare op v.kind w.kind)) := by
  have hnone : v.compare? w = none := by
    rw [← compare?_isSome_iff] at h
    simpa using h
  have hordered (test : Ordering → Bool) :
      ordered op test v w = .error (.type (.compare op v.kind w.kind)) := by
    rw [ordered, hnone]
  simp only [BinaryOp.orderings, List.mem_cons, List.not_mem_nil, or_false] at hop
  rcases hop with rfl | rfl | rfl | rfl
  · exact hordered _
  · exact hordered _
  · exact hordered _
  · exact hordered _

theorem compare?_of_less (h : v.binary .less w = .ok (.bool true)) : v.compare? w = some .lt := by
  cases ho : v.compare? w with
  | none => simp [binary, ordered, ho] at h
  | some o => simpa [binary, ordered_of_some ho, Ordering.isLT_iff_eq_lt] using h

theorem binary_less_trans (h : v.binary .less w = .ok (.bool true))
    (h' : w.binary .less u = .ok (.bool true)) : v.binary .less u = .ok (.bool true) :=
  ordered_of_some (compare?_trans (compare?_of_less h) (compare?_of_less h')) _ _

/-- Equal values cannot be told apart by comparing them with a third one, from either side. -/
theorem binary_congr (hv : v.DistinctNames) (hw : w.DistinctNames) (hu : u.DistinctNames)
    (h : v.equal w) (hop : op.relation?.isSome) :
    v.binary op u = w.binary op u ∧ u.binary op v = u.binary op w := by
  obtain ⟨hleft, hright⟩ := compare?_congr h u
  have hkind := kind_eq_of_equal h
  have hequal : v.equal u = w.equal u := equal_congr hv hw h u
  have hequal' : u.equal v = u.equal w := by
    rw [equal_comm hu hv, equal_comm hu hw, hequal]
  cases op with
  | eq | strictEq | notEq | strictNotEq => simp only [binary, hequal, hequal', and_self]
  | less | lessOrEqual | greater | greaterOrEqual =>
    simp only [binary, ordered, hleft, hright, hkind, and_self]
  | _ => cases hop

end Value

namespace Expr

variable {st : Setting} {scope : Scope} {x y z : Expr}

/-- Of two numbers or two strings just one is less, or both are equal, and the operators that allow for
equality deny the opposite order. Of three values the first is less than the last if both are in order with
the one between. Values that are equal give the same answers, and the same errors, in every comparison with a
third. What is not two numbers or two strings cannot be ordered. -/
theorem comparisons_total {v w u : Value} (hx : x.eval st scope = .ok v)
    (hy : y.eval st scope = .ok w) (hz : z.eval st scope = .ok u) :
    (v.Ordered w → ∃ less equal greater : Bool, [less, equal, greater].count true = 1 ∧
      (binary .less x y).eval st scope = .ok (.bool less) ∧
      (binary .eq x y).eval st scope = .ok (.bool equal) ∧
      (binary .strictEq x y).eval st scope = .ok (.bool equal) ∧
      (binary .greater x y).eval st scope = .ok (.bool greater) ∧
      (binary .lessOrEqual x y).eval st scope = .ok (.bool !greater) ∧
      (binary .greaterOrEqual x y).eval st scope = .ok (.bool !less)) ∧
    ((binary .less x y).eval st scope = .ok (.bool true) →
      (binary .less y z).eval st scope = .ok (.bool true) →
      (binary .less x z).eval st scope = .ok (.bool true)) ∧
    (v.DistinctNames → w.DistinctNames → u.DistinctNames →
      (binary .eq x y).eval st scope = .ok (.bool true) → ∀ op, op.relation?.isSome →
        (binary op x z).eval st scope = (binary op y z).eval st scope ∧
        (binary op z x).eval st scope = (binary op z y).eval st scope) ∧
    (¬ v.Ordered w → ∀ op ∈ BinaryOp.orderings,
      (binary op x y).eval st scope = .error (.type (.compare op v.kind w.kind))) := by
  simp only [eval_binary hx hy, eval_binary hx hz, eval_binary hy hz, eval_binary hz hx, eval_binary hz hy]
  refine ⟨fun h => ?_, Value.binary_less_trans, fun hv hw hu h op hop => ?_, fun h op hop => ?_⟩
  · obtain ⟨o, ho⟩ := Option.isSome_iff_exists.1 (Value.compare?_isSome_iff.2 h)
    have hequal : v.equal w = decide (o = .eq) := by simp [Value.equal_eq_compare? h, ho]
    refine ⟨o.isLT, decide (o = .eq), o.isGT, ?_⟩
    simp only [Value.binary, hequal, Value.ordered_of_some ho]
    cases o <;> simp
  · have hequal : v.equal w := by simpa [Value.binary] using h
    exact Value.binary_congr hv hw hu hequal hop
  · exact Value.binary_of_not_ordered h hop

theorem equal_numbers_compared_alike :
    let st : Setting := ⟨Functions.standard, .strict⟩
    let scope := Scope.ofContext [("a", .number (.int 9007199254740993)),
      ("b", .number (.float ⟨false, 4503599627370496, 1075, by decide⟩)),
      ("c", .number (.int 18446744073709551615)), ("s", .string "a"), ("t", .string "ab"),
      ("u", .string "é")]
    (binary .eq (.ident "a") (.ident "b")).eval st scope = .ok (.bool true) ∧
    (binary .less (.ident "a") (.ident "c")).eval st scope =
      (binary .less (.ident "b") (.ident "c")).eval st scope ∧
    (∃ less equal greater : Bool, [less, equal, greater].count true = 1 ∧
      (binary .less (.ident "a") (.ident "b")).eval st scope = .ok (.bool less) ∧
      (binary .greaterOrEqual (.ident "a") (.ident "b")).eval st scope = .ok (.bool !less)) ∧
    (binary .less (.ident "s") (.ident "u")).eval st scope = .ok (.bool true) ∧
    (binary .less (.ident "a") (.ident "s")).eval st scope =
      .error (.type (.compare .less .number .string)) := by
  intro st scope
  have ha : (ident "a").eval st scope = .ok (.number (.int 9007199254740993)) := rfl
  have hb : (ident "b").eval st scope =
      .ok (.number (.float ⟨false, 4503599627370496, 1075, by decide⟩)) := rfl
  have hc : (ident "c").eval st scope = .ok (.number (.int 18446744073709551615)) := rfl
  have hs : (ident "s").eval st scope = .ok (.string "a") := rfl
  have ht : (ident "t").eval st scope = .ok (.string "ab") := rfl
  have hu : (ident "u").eval st scope = .ok (.string "é") := rfl
  have hequal : (binary .eq (.ident "a") (.ident "b")).eval st scope = .ok (.bool true) := by
    have hsame : (Value.number (.int 9007199254740993)).equal
        (.number (.float ⟨false, 4503599627370496, 1075, by decide⟩)) = true := by decide +kernel
    rw [eval_binary ha hb, Value.binary, hsame]
  obtain ⟨hone, -, halike, -⟩ := comparisons_total ha hb hc
  obtain ⟨less, equal, greater, hcount, hless, -, -, -, -, hge⟩ := hone ⟨rfl, .inl rfl⟩
  obtain ⟨-, htrans, -, -⟩ := comparisons_total hs ht hu
  obtain ⟨-, -, -, herror⟩ := comparisons_total ha hs hc
  refine ⟨hequal, (halike ?_ ?_ ?_ hequal .less rfl).1, ⟨less, equal, greater, hcount, hless, hge⟩,
    htrans rfl rfl, herror ?_ .less (by decide)⟩
  · simp
  · simp
  · simp
  · rintro ⟨hkind, -⟩
    cases hkind

end Expr

end Stencil
