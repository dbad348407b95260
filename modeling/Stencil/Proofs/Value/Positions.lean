import Stencil.Proofs.Number.Exactness
import Stencil.Proofs.Value.Forms
import Stencil.Proofs.Value.WellFormed
set_option autoImplicit false

namespace Stencil

-- A comparison of two terms that stay as they are would compute the power.
attribute [local irreducible] Binary64.unitsPerOne

namespace Binary64

theorem place?_eq_finite_iff {b : Binary64} {units : ℤ} :
    b.place? = some (0, units) ↔ ∃ x : Finite, b = .finite x ∧ x.units = units := by
  cases b with
  | nan => simp [place?]
  | infinite s => cases s <;> simp [place?]
  | finite x => simp [place?]

theorem isWhole_iff_place? {b : Binary64} {n : ℤ} :
    b.IsWhole n ↔ b.place? = some (0, n * unitsPerOne) := by
  simp only [place?_eq_finite_iff, IsWhole, Finite.value_eq_intCast_iff]

end Binary64

namespace Number

variable {m : Number} {n : ℤ}

/-- Below `2 ^ 53` no other integer of 64 bits has the same binary64 number. -/
theorem isWhole_iff_value (hm : m.WellFormed) (hn : n.natAbs < 2 ^ 53) :
    m.toBinary64.IsWhole n ↔ m.value = n := by
  refine ⟨fun h => ?_, fun h => isWhole_toBinary64 h hn.le⟩
  cases m with
  | float x =>
    obtain ⟨y, hy, hvalue⟩ := h
    cases hy
    exact hvalue
  | int k =>
    obtain ⟨x, hx, hvalue⟩ := h
    obtain ⟨y, hy, -, hunits⟩ := Binary64.ofInt_of_fitsWord (hm k rfl)
    obtain rfl : x = y := Binary64.finite.inj (hx.symm.trans hy)
    have hnearest : Binary64.nearestUnits n = Binary64.nearestUnits k := by
      rw [← hunits, Binary64.Finite.nearestUnits_of_value hvalue]
    obtain rfl : n = k := not_not.1 fun hne => Binary64.nearestUnits_ne hn hne hnearest
    rfl

theorem equal_int_iff (hn : n.natAbs ≤ 2 ^ 53) :
    (Value.number m).equal (.number (.int n)) ↔ m.toBinary64.IsWhole n := by
  have hplace := Binary64.isWhole_iff_place?.1 (isWhole_toBinary64 (m := .int n) rfl hn)
  rw [Value.number_equal]
  constructor
  · rintro ⟨_, hint, p, hm, hp⟩
    cases hint
    obtain rfl := Option.some.inj (hplace.symm.trans hp)
    exact Binary64.isWhole_iff_place?.2 hm
  · intro h
    exact ⟨_, rfl, _, Binary64.isWhole_iff_place?.1 h, hplace⟩

theorem ofCount_of_lt {n : ℕ} (h : n < 2 ^ 64) : ofCount n = .int n := by
  rw [ofCount, Nat.toUInt64_eq, UInt64.toNat_ofNat_of_lt' h]

end Number

namespace Value

variable {m : Number} {xs : List Value}

theorem position?_eq_some_iff {k : ℕ} : position? m = some k ↔ m.toBinary64.IsWhole k := by
  constructor
  · intro h
    cases hm : m.toBinary64 with
    | finite x =>
      have hintegral : x.isIntegral = true := by
        by_contra hfraction
        simp [position?, hm, hfraction] at h
      obtain ⟨n, hn⟩ := Binary64.Finite.isIntegral_iff.1 hintegral
      rw [position?_of_value hm hn] at h
      split at h
      · next hsign =>
        cases h
        exact ⟨x, rfl, by rw [hn, Int.toNat_of_nonneg hsign]⟩
      · cases h
    | _ => simp [position?, hm] at h
  · rintro ⟨x, hx, hvalue⟩
    rw [position?_of_value hx hvalue]
    simp

section

variable (hxs : xs.length < 2 ^ 53)

include hxs

theorem index_of_value {k : ℕ} (hk : k < xs.length) (h : m.value = k) :
    (array xs).index (number m) = .ok xs[k] := by
  have hwhole : m.toBinary64.IsWhole k :=
    Number.isWhole_toBinary64 (by rw [h, Int.cast_natCast]) (by omega)
  simp [index, position?_eq_some_iff.2 hwhole, hk]

theorem index_of_ne (hm : m.WellFormed) (h : ∀ k < xs.length, m.value ≠ k) :
    (array xs).index (number m) = .ok null := by
  rw [index]
  cases hposition : position? m with
  | none => rfl
  | some k =>
    have hk : xs.length ≤ k := by
      by_contra hlt
      have hwhole := position?_eq_some_iff.1 hposition
      refine h k (by omega) ?_
      rw [(Number.isWhole_iff_value hm (by omega)).1 hwhole, Int.cast_natCast]
    simp [hk]

end

end Value

end Stencil
