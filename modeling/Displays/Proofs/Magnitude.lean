import Displays.Proofs.Doubles

/-!
# Scales against themselves

A scale is equal to itself up to rounding exactly if it is finite. To one that is not finite no
scale is equal up to rounding, but for the infinities, which are so to their opposites. And a finite
scale to which another one is not equal up to rounding is not the same number.
-/

namespace Displays.Scale

open Float.Model Float.Model.UnpackedFloat

/-- The infinities. -/
def infinityOf (s : Sign) : Float := .ofModel (.pack (.infinity s))

/-- What is no number. -/
def nan : Float := .ofModel (.pack .notANumber)

private theorem eq_infinityOf {a : Float} {s : Sign} (h : a.toModel.unpack = .infinity s) :
    a = infinityOf s := by
  apply float_ext
  rw [h]
  cases s <;> rfl

private theorem eq_nan {a : Float} (h : a.toModel.unpack = .notANumber) : a = nan := by
  apply float_ext
  rw [h]
  rfl

/-- What is not finite is no number or an infinity. -/
theorem cases_of_not_isFinite {x : Float} (h : x.isFinite = false) :
    x = nan ∨ ∃ s, x = infinityOf s := by
  change x.toModel.unpack.isFinite = false at h
  cases hu : x.toModel.unpack with
  | notANumber => exact .inl (eq_nan hu)
  | infinity s => exact .inr ⟨s, eq_infinityOf hu⟩
  | zero s =>
    rw [hu] at h
    cases h
  | finite s m e hm =>
    rw [hu] at h
    cases h

/-! ## Magnitudes -/

private theorem le_iff {a b : Float} :
    a ≤ b ↔ (a.toModel.unpack.compare b.toModel.unpack).any (·.isLE) = true := by
  change decide _ = true ↔ _
  rw [decide_eq_true_iff]
  exact Iff.rfl

/-- The magnitude of a finite number is a zero or a positive number. -/
theorem unpack_abs {x : Float} (h : x.isFinite = true) :
    (∃ s, x.abs.toModel.unpack = .zero s) ∨
      ∃ m e hm, x.abs.toModel.unpack = .finite .positive m e hm := by
  change (∃ s, (Float.Model.pack x.toModel.unpack.abs).unpack = .zero s) ∨
    ∃ m e hm, (Float.Model.pack x.toModel.unpack.abs).unpack = .finite .positive m e hm
  rcases Double.cases_of_isFinite h with ⟨s, hx⟩ | ⟨s, m, e, hm, hx⟩
  · rw [hx]
    exact .inl ⟨.positive, by cases s <;> rfl⟩
  · rw [hx, UnpackedFloat.abs]
    set bits := UnpackedFloat.pack format (.finite .positive m e hm) with hbits
    have hfinite : (UnpackedFloat.unpack format bits).isFinite = true :=
      Double.isFinite_pack_finite hm (Double.bounds_of_unpack hx).2.2
    have hsign : unpackSign bits = 0#1 := by
      rw [hbits, Double.pack_finite]
      split
      · rfl
      · split <;> exact Double.unpackSign_packComponents .positive _ _
    rcases unpack_cases bits with ⟨_, _, hu⟩ | ⟨_, _, hu⟩ | ⟨_, _, hu⟩ | ⟨m', e', hm', hu, _⟩
    · rw [hu] at hfinite
      cases hfinite
    · rw [hu] at hfinite
      cases hfinite
    · exact .inl ⟨_, hu⟩
    · rw [hsign] at hu
      exact .inr ⟨m', e', hm', hu⟩

/-- The magnitude of a finite number lies between zero and infinity, which it does not reach. -/
theorem abs_bounds {x : Float} (h : x.isFinite = true) :
    zeroOf .positive ≤ x.abs ∧ x.abs ≤ infinityOf .positive ∧ ¬ infinityOf .positive ≤ x.abs := by
  simp only [le_iff]
  rcases unpack_abs h with ⟨s, hx⟩ | ⟨m, e, hm, hx⟩
  · rw [hx]
    exact ⟨rfl, rfl, Bool.false_ne_true⟩
  · rw [hx]
    exact ⟨rfl, rfl, Bool.false_ne_true⟩

/-! ## Differences -/

/-- A finite double less itself is zero. -/
theorem sub_self {x : Float} (h : x.isFinite = true) : x - x = zeroOf .positive := by
  change Float.ofModel (.pack (UnpackedFloat.sub format x.toModel.unpack x.toModel.unpack)) = _
  rcases Double.cases_of_isFinite h with ⟨s, hx⟩ | ⟨s, m, e, hm, hx⟩
  · rw [hx]
    cases s <;> rfl
  · have hzero : UnpackedFloat.sub format (.finite s m e hm) (.finite s m e hm) =
        UnpackedFloat.normalize format 0 (min e e) .positive := by
      simp only [UnpackedFloat.sub, Int.sub_self]
    rw [hx, hzero]
    rfl

/-- A finite double less an infinity is the opposite infinity. -/
theorem sub_infinityOf {x : Float} (h : x.isFinite = true) (s : Sign) :
    x - infinityOf s = infinityOf (-s) := by
  have hs : (infinityOf s).toModel.unpack = .infinity s := by cases s <;> rfl
  change Float.ofModel (.pack (UnpackedFloat.sub format x.toModel.unpack
    (infinityOf s).toModel.unpack)) = _
  rw [hs]
  rcases Double.cases_of_isFinite h with ⟨t, hx⟩ | ⟨t, m, e, hm, hx⟩ <;> rw [hx] <;> rfl

private theorem sub_nan (x : Float) : x - nan = nan := by
  change Float.ofModel (.pack (UnpackedFloat.sub format x.toModel.unpack .notANumber)) = _
  cases x.toModel.unpack <;> rfl

/-! ## Equality up to rounding -/

/-- A scale is equal to itself up to rounding exactly if it is finite. -/
theorem scaleEq_self_iff {x : Float} : scaleEq x x = true ↔ x.isFinite = true := by
  constructor
  · intro h
    by_contra hx
    rcases cases_of_not_isFinite (Bool.not_eq_true _ ▸ hx) with rfl | ⟨s, rfl⟩
    · cases h
    · cases s <;> cases h
  · intro h
    have hz : (zeroOf .positive).abs * 100000 = zeroOf .positive := rfl
    rw [scaleEq, sub_self h, ite_self, hz]
    exact decide_eq_true (abs_bounds h).1

private theorem scaleEq_nan (x : Float) : scaleEq x nan = false := by
  have hn : nan.abs * 100000 = nan := rfl
  rw [scaleEq, sub_nan, hn]
  apply decide_eq_false
  rw [le_iff]
  exact Bool.false_ne_true

private theorem scaleEq_infinityOf {x : Float} (h : x.isFinite = true) (s : Sign) :
    scaleEq x (infinityOf s) = false := by
  obtain ⟨-, hle, hlt⟩ := abs_bounds h
  have hinf : (infinityOf s).abs = infinityOf .positive := by cases s <;> rfl
  have hfar : (infinityOf (-s)).abs * 100000 = infinityOf .positive := by cases s <;> rfl
  rw [scaleEq, sub_infinityOf h, hfar, hinf, if_pos hle]
  exact decide_eq_false hlt

/-- Only the opposite infinity is equal up to rounding to a scale that is not finite. -/
theorem scaleEq_iff_of_not_isFinite {x y : Float} (hy : y.isFinite = false) :
    scaleEq x y = true ↔ x.isInf = true ∧ y = -x := by
  cases hx : x.isFinite with
  | true =>
    have hinf : x.isInf = false := by
      change x.toModel.unpack.isInf = false
      rcases Double.cases_of_isFinite hx with ⟨s, hx⟩ | ⟨s, m, e, hm, hx⟩ <;> rw [hx] <;> rfl
    have hne : scaleEq x y = false := by
      rcases cases_of_not_isFinite hy with rfl | ⟨s, rfl⟩
      · exact scaleEq_nan x
      · exact scaleEq_infinityOf hx s
    rw [hinf, hne]
    simp only [Bool.false_eq_true, false_and]
  | false =>
    rcases cases_of_not_isFinite hx with rfl | ⟨t, rfl⟩ <;>
      rcases cases_of_not_isFinite hy with rfl | ⟨s, rfl⟩
    · decide
    · cases s <;> decide
    · cases t <;> decide
    · cases s <;> cases t <;> decide

/-- A finite scale to which another one is not equal up to rounding is not the same number. -/
theorem beq_eq_false {x y : Float} (hy : y.isFinite = true) (h : scaleEq x y = false) :
    (x == y) = false := by
  rw [← Bool.not_eq_true]
  intro hxy
  rcases eq_or_zero_of_beq hxy with rfl | ⟨s, t, rfl, rfl⟩
  · rw [scaleEq_self_iff.mpr hy] at h
    cases h
  · cases s <;> cases t <;> cases h

end Displays.Scale
