import Mathlib
import Displays.Configuration

/-!
# Comparing scales

Scales that compare as equal are the same, or zeros of either sign: the bits of a scale can be found
again from the number that they stand for. A scale is equal up to rounding to one zero if it is to
the other. So what holds a scale up to rounding holds every scale that compares as equal to it.
-/

namespace Displays.Scale

open Float.Model Float.Model.UnpackedFloat

/-- The format of scales. -/
abbrev format : Format := Format.binary64

/-- Bits are the same if their three parts are. -/
theorem bits_ext {x y : BitVec format.numBits} (hs : unpackSign x = unpackSign y)
    (he : unpackExponent x = unpackExponent y) (hm : unpackMantissa x = unpackMantissa y) :
    x = y := by
  apply BitVec.eq_of_getLsbD_eq
  intro i hi
  have hi' : i < 64 := hi
  by_cases h52 : i < 52
  · have h := congrArg (fun v => v.getLsbD i) hm
    simpa [unpackMantissa, h52] using h
  · by_cases h63 : i < 63
    · have h := congrArg (fun v => v.getLsbD (i - 52)) he
      have h1 : i - 52 < 11 := by omega
      have h2 : 52 + (i - 52) = i := by omega
      simpa [unpackExponent, h1, h2] using h
    · have h := congrArg (fun v => v.getLsbD 0) hs
      have h3 : i = 63 := by omega
      subst h3
      simpa [unpackSign] using h

private theorem sign_inj {x y : BitVec 1} (h : Sign.ofBitVec x = Sign.ofBitVec y) : x = y := by
  unfold Sign.ofBitVec at h
  split at h <;> split at h
  · simp_all
  · cases h
  · cases h
  · bv_omega

/-- A one in front of a mantissa adds the power of two of its place. -/
theorem toNat_one_append (m : BitVec 52) : (1#1 ++ m).toNat = 2 ^ 52 + m.toNat := by
  have h := m.isLt
  rw [BitVec.toNat_append, ← Nat.shiftLeft_add_eq_or_of_lt h]
  rfl

/-- What bits stand for, and how they are found again. -/
theorem unpack_cases (x : BitVec format.numBits) :
    (unpackExponent x = -1#_ ∧ unpackMantissa x = 0#_ ∧
      UnpackedFloat.unpack format x = .infinity (.ofBitVec (unpackSign x))) ∨
    (unpackExponent x = -1#_ ∧ unpackMantissa x ≠ 0#_ ∧
      UnpackedFloat.unpack format x = .notANumber) ∨
    (unpackExponent x = 0#_ ∧ unpackMantissa x = 0#_ ∧
      UnpackedFloat.unpack format x = .zero (.ofBitVec (unpackSign x))) ∨
    ∃ m e h, UnpackedFloat.unpack format x = .finite (.ofBitVec (unpackSign x)) m e h ∧
      (unpackExponent x).toNat = (if m < 2 ^ 52 then 0 else (e + 1075).toNat) ∧
      (unpackMantissa x).toNat = m % 2 ^ 52 := by
  have hm : (unpackMantissa x).toNat < 2 ^ 52 := (unpackMantissa x).isLt
  have hbias : (format.exponentBias : Int) = 1023 := rfl
  have hwidth : (format.mantissaBitsWithoutImplicit : Int) = 52 := rfl
  by_cases he : unpackExponent x = -1#_
  · by_cases hz : unpackMantissa x = 0#_
    · exact .inl ⟨he, hz, by simp only [UnpackedFloat.unpack, he, hz, ite_true]⟩
    · exact .inr (.inl ⟨he, hz, by simp only [UnpackedFloat.unpack, he, hz, ite_true, ite_false]⟩)
  · by_cases he0 : unpackExponent x = 0#_
    · by_cases hz : unpackMantissa x = 0#_
      · refine .inr (.inr (.inl ⟨he0, hz, ?_⟩))
        simp only [UnpackedFloat.unpack]
        rw [if_neg he, if_pos he0, dif_pos hz]
      · have hpos : 0 < (unpackMantissa x).toNat :=
          Nat.pos_of_ne_zero fun h => hz (BitVec.toNat_inj.mp h)
        refine .inr (.inr (.inr ⟨(unpackMantissa x).toNat,
          (unpackExponent x).toNat - (format.exponentBias + format.mantissaBitsWithoutImplicit) + 1,
          hpos, ?_, ?_, ?_⟩))
        · simp only [UnpackedFloat.unpack]
          rw [if_neg he, if_pos he0, dif_neg hz]
        · rw [if_pos hm, he0]
          rfl
        · omega
    · have happend := toNat_one_append (unpackMantissa x)
      refine .inr (.inr (.inr ⟨(1#1 ++ unpackMantissa x).toNat,
        (unpackExponent x).toNat - (format.exponentBias + format.mantissaBitsWithoutImplicit),
        by omega, ?_, ?_, ?_⟩))
      · simp only [UnpackedFloat.unpack]
        rw [if_neg he, if_neg he0]
      · rw [if_neg (by omega), hbias, hwidth]
        omega
      · omega

/-- Bits that stand for the same are the same. -/
theorem unpack_inj {x y : BitVec format.numBits} (hx : format.Valid x) (hy : format.Valid y)
    (h : UnpackedFloat.unpack format x = UnpackedFloat.unpack format y) : x = y := by
  rcases unpack_cases x with ⟨ex, mx, ux⟩ | ⟨ex, mx, ux⟩ | ⟨ex, mx, ux⟩ | ⟨m, e, _, ux, ex, mx⟩ <;>
    rcases unpack_cases y with ⟨ey, my, uy⟩ | ⟨ey, my, uy⟩ | ⟨ey, my, uy⟩ |
      ⟨m', e', _, uy, ey, my⟩ <;>
    rw [ux, uy] at h <;> try simp only [reduceCtorEq] at h
  · exact bits_ext (sign_inj (UnpackedFloat.infinity.inj h)) (ex.trans ey.symm) (mx.trans my.symm)
  · rw [hx.eq_packedNaN ex mx, hy.eq_packedNaN ey my]
  · exact bits_ext (sign_inj (UnpackedFloat.zero.inj h)) (ex.trans ey.symm) (mx.trans my.symm)
  · obtain ⟨hs, rfl, rfl⟩ := UnpackedFloat.finite.inj h
    exact bits_ext (sign_inj hs) (BitVec.toNat_inj.mp (ex.trans ey.symm))
      (BitVec.toNat_inj.mp (mx.trans my.symm))

/-- Floats that stand for the same are the same. -/
theorem float_ext {a b : Float} (h : a.toModel.unpack = b.toModel.unpack) : a = b := by
  obtain ⟨⟨x, hx⟩⟩ := a
  obtain ⟨⟨y, hy⟩⟩ := b
  have hxy : x = y := UInt64.toBitVec_inj.mp (unpack_inj hx hy h)
  subst hxy
  rfl

/-- Numbers that compare as equal are the same, or zeros. -/
theorem eq_of_compare {u v : UnpackedFloat} (h : u.compare v = some .eq) :
    u = v ∨ (∃ s, u = .zero s) ∧ ∃ s, v = .zero s := by
  cases u with
  | notANumber => simp only [UnpackedFloat.compare, reduceCtorEq] at h
  | infinity s =>
    cases s <;> cases v with
    | infinity t => cases t <;> first | exact .inl rfl | cases h
    | _ => cases h
  | zero s =>
    cases v with
    | zero t => exact .inr ⟨⟨s, rfl⟩, t, rfl⟩
    | infinity t => cases t <;> cases h
    | finite t => cases t <;> cases h
    | notANumber => cases h
  | finite s m e hm =>
    cases v with
    | finite t m' e' hm' =>
      cases s <;> cases t <;> simp only [UnpackedFloat.compare, Option.some.injEq, reduceCtorEq,
        Ordering.swap_eq_eq, Ordering.then_eq_eq, Int.compare_eq_eq, Nat.compare_eq_eq] at h
      · obtain ⟨rfl, rfl⟩ := h
        exact .inl rfl
      · obtain ⟨rfl, rfl⟩ := h
        exact .inl rfl
    | infinity t => cases s <;> cases t <;> cases h
    | zero t => cases s <;> cases h
    | notANumber => cases s <;> cases h

/-- The zeros. -/
def zeroOf (s : Sign) : Float := .ofModel (.pack (.zero s))

private theorem eq_zeroOf {a : Float} {s : Sign} (h : a.toModel.unpack = .zero s) :
    a = zeroOf s := by
  apply float_ext
  rw [h]
  cases s <;> rfl

/-- Scales that compare as equal are the same, or zeros. -/
theorem eq_or_zero_of_beq {a b : Float} (h : (a == b) = true) :
    a = b ∨ ∃ s t, a = zeroOf s ∧ b = zeroOf t := by
  have hcompare : (a.toModel.unpack.compare b.toModel.unpack == some .eq) = true := h
  rcases eq_of_compare (eq_of_beq hcompare) with hsame | ⟨⟨s, hs⟩, t, ht⟩
  · exact .inl (float_ext hsame)
  · exact .inr ⟨s, t, eq_zeroOf hs, eq_zeroOf ht⟩

/-- Scales that compare as equal compare alike with any other one. -/
theorem beq_congr {a b : Float} (h : (a == b) = true) (x : Float) : (a == x) = (b == x) := by
  rcases eq_or_zero_of_beq h with rfl | ⟨s, t, rfl, rfl⟩
  · rfl
  · have hbeq : ∀ u, (zeroOf u == x) =
        ((UnpackedFloat.zero u).compare x.toModel.unpack == some .eq) := fun u => by
      cases u <;> rfl
    rw [hbeq, hbeq]
    cases x.toModel.unpack with
    | infinity u => cases u <;> rfl
    | finite u => cases u <;> rfl
    | _ => rfl

private theorem abs_zeroOf (s t : Sign) : (zeroOf s).abs = (zeroOf t).abs := by
  cases s <;> cases t <;> rfl

/-- Only from a zero does it matter which zero is taken away. -/
theorem sub_zeroOf {x : Float} (s t : Sign) (hx : ∀ u, x.toModel.unpack ≠ .zero u) :
    x - zeroOf s = x - zeroOf t := by
  have hzero : ∀ s, (zeroOf s).toModel.unpack = .zero s := fun s => by cases s <;> rfl
  change
    Float.ofModel (.pack (UnpackedFloat.sub format x.toModel.unpack (zeroOf s).toModel.unpack)) =
    Float.ofModel (.pack (UnpackedFloat.sub format x.toModel.unpack (zeroOf t).toModel.unpack))
  rw [hzero, hzero]
  cases h : x.toModel.unpack with
  | zero u => exact absurd h (hx u)
  | _ => rfl

/-- A scale is equal up to rounding to both zeros or to none of them. -/
theorem scaleEq_zeroOf (x : Float) (s t : Sign) : scaleEq x (zeroOf s) = scaleEq x (zeroOf t) := by
  by_cases hx : ∃ u, x.toModel.unpack = .zero u
  · obtain ⟨u, hu⟩ := hx
    rw [eq_zeroOf hu]
    cases u <;> cases s <;> cases t <;> rfl
  · rw [not_exists] at hx
    rw [scaleEq, scaleEq, sub_zeroOf s t hx, abs_zeroOf s t]

/-- A scale that holds another one up to rounding holds all that compare as equal to it. -/
theorem holds_of_beq {x a b : Float} (hab : (a == b) = true) (h : x = a ∨ scaleEq x a = true) :
    x = b ∨ scaleEq x b = true := by
  rcases eq_or_zero_of_beq hab with rfl | ⟨s, t, rfl, rfl⟩
  · exact h
  · right
    rcases h with rfl | h
    · cases s <;> cases t <;> rfl
    · rw [scaleEq_zeroOf x t s]
      exact h

end Displays.Scale
