import Mathlib.Logic.Basic
import Displays.Configuration

/-!
# Valid configurations

A configuration has no defect exactly if each of its outputs is valid, whatever the others are: its
index is in range, its scale is finite and positive, and if it is used it is connected and its
picture lies within the coordinates that sixteen bits address.
-/

namespace Displays

/-- Nothing is wrong with the output. -/
structure Output.Valid (o : Output) : Prop where
  /-- The index is that of a mode, unless there are no modes. -/
  index : o.modes = [] ∨ o.modeIndex < o.modes.length
  /-- The scale is a number other than infinity. -/
  finite : o.scale.isFinite = true
  /-- The scale is above zero. -/
  positive : 0 < o.scale
  /-- A display that is used hangs on the connector. -/
  connected : o.used = true → o.connected = true
  /-- An output that is used shows a mode, which fits where it is to lie. -/
  fits : o.used = true → ∃ m, o.mode? = some m ∧
    -32768 ≤ o.topLeft.x ∧ o.topLeft.x + m.resolution.width ≤ 32767 ∧
    -32768 ≤ o.topLeft.y ∧ o.topLeft.y + m.resolution.height ≤ 32767

namespace Output

variable {o : Output}

private theorem isPositiveScale_iff {scale : Float} :
    isPositiveScale scale = true ↔ scale.isFinite = true ∧ 0 < scale := by
  rw [isPositiveScale, Bool.and_eq_true, decide_eq_true_eq]

/-- An output to be used has no defect of its own exactly if it is connected and its picture lies
within the coordinates of sixteen bits. -/
theorem usedDefect?_eq_none_iff :
    o.usedDefect? = none ↔ o.connected = true ∧ ∃ m, o.mode? = some m ∧
      -32768 ≤ o.topLeft.x ∧ o.topLeft.x + m.resolution.width ≤ 32767 ∧
      -32768 ≤ o.topLeft.y ∧ o.topLeft.y + m.resolution.height ≤ 32767 := by
  rw [usedDefect?]
  cases hc : o.connected with
  | false => simp only [ite_true, reduceCtorEq, Bool.false_eq_true, false_and]
  | true =>
    cases hm : o.mode? with
    | none =>
      simp only [Bool.true_eq_false, ite_false, reduceCtorEq, false_and, exists_false, and_false]
    | some m =>
      simp only [Bool.true_eq_false, ite_false, Option.some.injEq, exists_eq_left', true_and]
      by_cases hout : o.topLeft.x < leastCoordinate ∨ o.topLeft.y < leastCoordinate ∨
          greatestCoordinate < o.topLeft.x + m.resolution.width ∨
          greatestCoordinate < o.topLeft.y + m.resolution.height
      · simp only [hout, ite_true, reduceCtorEq, false_iff]
        simp only [leastCoordinate, greatestCoordinate] at hout
        omega
      · simp only [hout, ite_false, true_iff]
        simp only [leastCoordinate, greatestCoordinate] at hout
        omega

/-- An output has no defect exactly if it is valid. -/
theorem defect?_eq_none_iff : o.defect? = none ↔ o.Valid := by
  have hindex : ¬ (o.modes ≠ [] ∧ o.modes.length ≤ o.modeIndex) ↔
      o.modes = [] ∨ o.modeIndex < o.modes.length := by
    rw [not_and_or, not_not, Nat.not_le]
  rw [defect?]
  by_cases hi : o.modes ≠ [] ∧ o.modes.length ≤ o.modeIndex
  · rw [if_pos hi]
    exact ⟨fun h => (by cases h), fun h => absurd hi (hindex.mpr h.index)⟩
  · rw [if_neg hi]
    cases hs : isPositiveScale o.scale with
    | false =>
      refine ⟨fun h => (by cases h), fun h => ?_⟩
      rw [isPositiveScale_iff.mpr ⟨h.finite, h.positive⟩] at hs
      cases hs
    | true =>
      obtain ⟨hfinite, hpositive⟩ := isPositiveScale_iff.mp hs
      rw [if_neg Bool.noConfusion]
      cases hu : o.used with
      | false =>
        refine ⟨fun _ => ⟨hindex.mp hi, hfinite, hpositive, ?_, ?_⟩, fun _ => rfl⟩
        all_goals
          rw [hu]
          exact fun h => Bool.noConfusion h
      | true =>
        rw [if_pos rfl, usedDefect?_eq_none_iff]
        exact ⟨fun h => ⟨hindex.mp hi, hfinite, hpositive, fun _ => h.1, fun _ => h.2⟩,
          fun h => ⟨h.connected hu, h.fits hu⟩⟩

end Output

/-- A configuration has no defect if and only if all its outputs are valid. -/
theorem Configuration.defect?_eq_none_iff {c : Configuration} :
    c.defect? = none ↔ ∀ o ∈ c.outputs, o.Valid := by
  rw [Configuration.defect?, List.findSome?_eq_none_iff]
  exact forall₂_congr fun o _ => Output.defect?_eq_none_iff

end Displays
