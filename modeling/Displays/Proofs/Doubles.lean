import Mathlib
import Displays.Proofs.Scale

/-!
# Finite doubles

A product or a quotient of finite doubles is finite unless it rounds to an infinity, and it does so
only if its exact value reaches the middle between the greatest double and the next power of two.
-/

namespace Displays.Double

open Float.Model Float.Model.UnpackedFloat

/-- The format of doubles. -/
abbrev format : Format := Format.binary64

/-! ## Rounding -/

/-- Shifting drops low bits. -/
theorem mantissa_shift (em : ExtendedMantissa) (k : ℕ) :
    (em >>> k).mantissa = em.mantissa / 2 ^ k := by
  induction k with
  | zero => exact (Nat.div_one _).symm
  | succ k ih =>
    change (em >>> k).mantissa / 2 = _
    rw [ih, Nat.div_div_eq_div_mul, pow_succ]

/-- The round bit is the last bit that is dropped. -/
theorem roundBit_shift (em : ExtendedMantissa) (k : ℕ) :
    (em >>> (k + 1)).roundBit = (em.mantissa / 2 ^ k % 2 != 0) := by
  rw [← mantissa_shift]
  rfl

/-- Rounding goes up by one at most, and not at all if the last bit dropped is zero. -/
theorem roundedMantissa_cases (em : ExtendedMantissa) :
    em.roundedMantissa = em.mantissa ∨
      em.roundBit = true ∧ em.roundedMantissa ≤ em.mantissa + 1 := by
  obtain ⟨m, r, t⟩ := em
  cases r <;> cases t
  · exact .inl rfl
  · exact .inl rfl
  · refine .inr ⟨rfl, ?_⟩
    change m + m % 2 ≤ m + 1
    omega
  · exact .inr ⟨rfl, le_rfl⟩

private theorem mantissa_ofMantissaAndAccuracy (m : ℕ) (a : Accuracy) :
    (ExtendedMantissa.ofMantissaAndAccuracy m a).mantissa = m := by
  cases a with
  | exact => rfl
  | inexact o => cases o <;> rfl

private theorem targetExponent_eq (t : ℤ) : format.targetExponent t = max (t - 53) (-1074) := rfl

variable {m : ℕ} {e : ℤ}

/-- What is left of a number below the middle between the greatest double and the next power of two
stays below this power when it is rounded to 53 bits. -/
theorem log2_rounded_le {r k : ℕ} (hm : m < (2 ^ 54 - 1) * 2 ^ (970 - e).toNat)
    (hk : m.log2 < 53 + k) (hexp : e ≤ 970) (hreach : e + k ≤ 971)
    (hr : r = m / 2 ^ k ∨ r ≤ m / 2 ^ k + 1 ∧ ∀ j, k = j + 1 → m / 2 ^ j % 2 = 1) :
    r.log2 + (e + k) ≤ 1023 := by
  have hbits : m / 2 ^ k < 2 ^ 53 := by
    rw [Nat.div_lt_iff_lt_mul (by positivity), ← pow_add]
    exact Nat.lt_log2_self.trans_le (Nat.pow_le_pow_right (by decide) hk)
  suffices hlt : r < 2 ^ (1024 - (e + k)).toNat by
    by_cases hzero : r = 0
    · rw [hzero, Nat.log2_zero]
      omega
    · have hlog := (Nat.log2_lt hzero).mpr hlt
      omega
  by_cases htop : e + k = 971
  · obtain ⟨j, rfl⟩ : ∃ j, k = j + 1 := ⟨k - 1, by omega⟩
    have hhalf : m / 2 ^ j < 2 ^ 54 - 1 := by
      rw [Nat.div_lt_iff_lt_mul (by positivity)]
      rwa [show (970 - e).toNat = j by omega] at hm
    have hdiv : m / 2 ^ (j + 1) = m / 2 ^ j / 2 := by rw [Nat.div_div_eq_div_mul, pow_succ]
    have hr' : r < 2 ^ 53 := by
      rcases hr with rfl | ⟨hle, hodd⟩
      · exact hbits
      · have hodd' := hodd j rfl
        omega
    rwa [show (1024 - (e + ((j + 1 : ℕ) : ℤ))).toNat = 53 by omega]
  · have hr' : r ≤ 2 ^ 53 := by
      rcases hr with rfl | ⟨hle, -⟩ <;> omega
    calc r ≤ 2 ^ 53 := hr'
      _ < 2 ^ 54 := by norm_num
      _ ≤ 2 ^ (1024 - (e + k)).toNat := Nat.pow_le_pow_right (by decide) (by omega)

/-- A number that does not reach the middle between the greatest double and the next power of two
rounds to a double. -/
theorem roundWithAccuracy_of_lt (s : Sign) (a : Accuracy) (he : e ≤ 970)
    (hm : m < (2 ^ 54 - 1) * 2 ^ (970 - e).toNat) :
    roundWithAccuracy format s m e a = .zero s ∨
      ∃ m' e' h, roundWithAccuracy format s m e a = .finite s m' e' h ∧ e' ≤ 971 := by
  set k := (format.targetExponent (totalExponent m e) - e).toNat with hk
  set em := ExtendedMantissa.ofMantissaAndAccuracy m a >>> k with hem
  set l := (format.targetExponent (totalExponent em.roundedMantissa (e + k)) - (e + k)).toNat
    with hl
  rw [targetExponent_eq, totalExponent] at hk hl
  have hlog : m.log2 + e ≤ 1023 := by
    by_cases hzero : m = 0
    · rw [hzero, Nat.log2_zero]
      omega
    · have hlt : m < 2 ^ (54 + (970 - e).toNat) := by
        rw [pow_add]
        exact hm.trans (Nat.mul_lt_mul_of_pos_right (by norm_num) (by positivity))
      have hlog := (Nat.log2_lt hzero).mpr hlt
      omega
  have hmantissa : ∀ i, (ExtendedMantissa.ofMantissaAndAccuracy m a >>> i).mantissa = m / 2 ^ i :=
    fun i => by rw [mantissa_shift, mantissa_ofMantissaAndAccuracy]
  have hrounded : em.roundedMantissa.log2 + (e + k) ≤ 1023 := by
    refine log2_rounded_le hm (by omega) he (by omega) ?_
    rw [← hmantissa k, ← hem]
    refine (roundedMantissa_cases em).imp_right fun ⟨hbit, hle⟩ => ⟨hle, fun j hj => ?_⟩
    rw [hem, hj, roundBit_shift, mantissa_ofMantissaAndAccuracy, bne_iff_ne] at hbit
    omega
  have hround : roundWithAccuracy format s m e a =
      let m' := (ExtendedMantissa.ofMantissaAndAccuracy em.roundedMantissa .exact >>> l).mantissa
      if h : m' = 0 then .zero s
      else .finite s m' (e + k + l) (Nat.pos_of_ne_zero h) := rfl
  rw [hround]
  dsimp only
  split
  · exact .inl rfl
  · next h => exact .inr ⟨_, _, Nat.pos_of_ne_zero h, rfl, by omega⟩

/-! ## Packing -/

/-- The sign that is packed is unpacked. -/
theorem unpackSign_packComponents (s : Sign) (x : BitVec 11) (y : BitVec 52) :
    unpackSign (packComponents format s x y) = s.toBitVec := by
  apply BitVec.eq_of_getLsbD_eq
  intro i hi
  obtain rfl : i = 0 := by omega
  simp only [unpackSign, packComponents, BitVec.getLsbD_cast, BitVec.getLsbD_extractLsb]
  rw [BitVec.getLsbD_append, BitVec.getLsbD_append]
  rfl

private theorem ofBitVec_toBitVec (s : Sign) : Sign.ofBitVec s.toBitVec = s := by
  cases s <;> rfl

/-- An exponent below the greatest one is not the one of infinities. -/
theorem exponent_ne_max {x : BitVec 11} (h : x.toNat < 2047) : x ≠ -1#11 := by
  rintro rfl
  exact absurd h (by decide)

/-- Exponent bits that stand for a positive number are not zero. -/
theorem exponent_ne_zero {x : BitVec 11} (h : 0 < x.toNat) : x ≠ 0#11 := by
  rintro rfl
  exact absurd h (by decide)

/-- Bits without the greatest exponent stand for a finite double. -/
theorem isFinite_unpack {x : BitVec format.numBits} (h : unpackExponent x ≠ -1#_) :
    (UnpackedFloat.unpack format x).isFinite = true := by
  simp only [UnpackedFloat.unpack]
  rw [if_neg h]
  split
  · split <;> rfl
  · rfl

/-- A number is packed into an infinity if its exponent is too large, and otherwise with its
exponent if it has 53 bits and with the least one if it has fewer. -/
theorem pack_finite (s : Sign) {m : ℕ} (hm : 0 < m) (e : ℤ) :
    UnpackedFloat.pack format (.finite s m e hm) =
      if 971 < e then packedInfinity format s
      else if m.log2 + 1 = 53 then
        packComponents format s (BitVec.ofNat 11 (e + 1075).toNat) (BitVec.ofNat 52 m)
      else packComponents format s 0#11 (BitVec.ofNat 52 m) := by
  have hbias : (format.exponentBias : ℤ) = 1023 := rfl
  have hwidth : (format.mantissaBitsWithoutImplicit : ℤ) = 52 := rfl
  have hcount : (2 : ℕ) ^ format.exponentBits = 2048 := rfl
  have hsum : (e + format.exponentBias + format.mantissaBitsWithoutImplicit).toNat =
      (e + 1075).toNat := by omega
  rw [UnpackedFloat.pack, hsum, hcount]
  by_cases he : 971 < e
  · rw [if_pos he, if_pos (by omega)]
  · rw [if_neg he, if_neg (by omega)]
    rfl

/-- A number whose exponent fits is finite when it is packed. -/
theorem isFinite_pack_finite {s : Sign} {m : ℕ} {e : ℤ} (hm : 0 < m) (he : e ≤ 971) :
    (Float.Model.pack (.finite s m e hm)).unpack.isFinite = true := by
  apply isFinite_unpack
  change unpackExponent (UnpackedFloat.pack format (.finite s m e hm)) ≠ -1#_
  rw [pack_finite, if_neg (by omega)]
  split
  · rw [unpackExponent_packComponents]
    refine exponent_ne_max ?_
    rw [BitVec.toNat_ofNat]
    omega
  · rw [unpackExponent_packComponents]
    decide

/-- A number is finite when it is packed, unless it is packed into an infinity. -/
theorem isFinite_pack {u : UnpackedFloat} (hu : u ≠ .notANumber)
    (hinf : (Float.Model.pack u).unpack.isInf = false) :
    (Float.Model.pack u).unpack.isFinite = true := by
  cases u with
  | notANumber => exact absurd rfl hu
  | infinity s => cases s <;> cases hinf
  | zero s => cases s <;> rfl
  | finite s m e hm =>
    by_cases he : e ≤ 971
    · exact isFinite_pack_finite hm he
    · have hpack : Float.Model.pack (.finite s m e hm) = Float.Model.pack (.infinity s) := by
        rw [Float.Model.pack, Float.Model.pack, Float.Model.mk.injEq, pack_finite,
          if_pos (by omega)]
        rfl
      rw [hpack] at hinf
      cases s <;> cases hinf

/-- The number of a finite double has at most 53 bits, and its exponent lies within the format. -/
theorem bounds_of_unpack {x : BitVec format.numBits} {s : Sign} {m : ℕ} {e : ℤ} {hm : 0 < m}
    (h : UnpackedFloat.unpack format x = .finite s m e hm) : m < 2 ^ 53 ∧ -1074 ≤ e ∧ e ≤ 971 := by
  have hmantissa : (unpackMantissa x).toNat < 2 ^ 52 := (unpackMantissa x).isLt
  have hexponent : (unpackExponent x).toNat < 2 ^ 11 := (unpackExponent x).isLt
  have hbias : (format.exponentBias : ℤ) = 1023 := rfl
  have hwidth : (format.mantissaBitsWithoutImplicit : ℤ) = 52 := rfl
  simp only [UnpackedFloat.unpack] at h
  split at h
  · split at h <;> cases h
  · next hmax =>
    have hmax' : (unpackExponent x).toNat ≠ 2047 := fun hnat => hmax (BitVec.toNat_inj.mp hnat)
    split at h
    · next hzero =>
      split at h
      · cases h
      · obtain ⟨-, rfl, rfl⟩ := UnpackedFloat.finite.inj h
        rw [hzero, hbias, hwidth]
        exact ⟨by omega, by simp, by simp⟩
    · next hzero =>
      have hzero' : (unpackExponent x).toNat ≠ 0 := fun hnat => hzero (BitVec.toNat_inj.mp hnat)
      obtain ⟨-, rfl, rfl⟩ := UnpackedFloat.finite.inj h
      rw [Scale.toNat_one_append, hbias, hwidth]
      exact ⟨by omega, by omega, by omega⟩

/-- A normal double is found again when it is packed. -/
theorem unpack_pack_normal {s : Sign} {m : ℕ} {e : ℤ} (hm : 0 < m) (hleast : 2 ^ 52 ≤ m)
    (hgreatest : m < 2 ^ 53) (he : -1074 ≤ e) (he' : e ≤ 971) :
    (Float.Model.pack (.finite s m e hm)).unpack = .finite s m e hm := by
  have hlog : m.log2 + 1 = 53 := by rw [(Nat.log2_eq_iff hm.ne').mpr ⟨hleast, hgreatest⟩]
  have hexp : (BitVec.ofNat 11 (e + 1075).toNat).toNat = (e + 1075).toNat := by
    rw [BitVec.toNat_ofNat, Nat.mod_eq_of_lt (by omega)]
  have hmax : BitVec.ofNat 11 (e + 1075).toNat ≠ -1#11 := exponent_ne_max (by omega)
  have hzero : BitVec.ofNat 11 (e + 1075).toNat ≠ 0#11 := exponent_ne_zero (by omega)
  have hmantissa : (1#1 ++ BitVec.ofNat 52 m).toNat = m := by
    rw [Scale.toNat_one_append, BitVec.toNat_ofNat]
    omega
  have hbias : (format.exponentBias : ℤ) = 1023 := rfl
  have hwidth : (format.mantissaBitsWithoutImplicit : ℤ) = 52 := rfl
  change UnpackedFloat.unpack format (UnpackedFloat.pack format (.finite s m e hm)) = _
  rw [pack_finite, if_neg (by omega), if_pos hlog]
  simp only [UnpackedFloat.unpack, unpackExponent_packComponents, unpackMantissa_packComponents,
    unpackSign_packComponents, ofBitVec_toBitVec]
  rw [if_neg hmax, if_neg hzero, UnpackedFloat.finite.injEq]
  exact ⟨rfl, hmantissa, by omega⟩

/-! ## Products and quotients -/

/-- A finite number is a zero or has a mantissa. -/
theorem cases_of_isFinite {u : UnpackedFloat} (h : u.isFinite = true) :
    (∃ s, u = .zero s) ∨ ∃ s m e hm, u = .finite s m e hm := by
  cases u with
  | notANumber => cases h
  | infinity s => cases h
  | zero s => exact .inl ⟨s, rfl⟩
  | finite s m e hm => exact .inr ⟨s, m, e, hm, rfl⟩

private theorem isFinite_zero (s : Sign) : (Float.Model.pack (.zero s)).unpack.isFinite = true := by
  cases s <;> rfl

/-- The negative of a finite double is finite. -/
theorem isFinite_neg {x : Float} (h : x.isFinite = true) : (-x).isFinite = true := by
  change (Float.Model.pack x.toModel.unpack.neg).unpack.isFinite = true
  rcases cases_of_isFinite h with ⟨s, hx⟩ | ⟨s, m, e, hm, hx⟩
  · rw [hx]
    exact isFinite_zero (-s)
  · rw [hx]
    exact isFinite_pack_finite hm (bounds_of_unpack hx).2.2

/-- Rounding gives a number. -/
theorem roundWithAccuracy_ne (s : Sign) (m : ℕ) (e : ℤ) (a : Accuracy) :
    roundWithAccuracy format s m e a ≠ .notANumber := by
  rw [roundWithAccuracy]
  dsimp only
  split <;> exact fun h => nomatch h

/-- A product of finite doubles is finite unless it is infinite. -/
theorem isFinite_mul {x y : Float} (hx : x.isFinite = true) (hy : y.isFinite = true)
    (h : (x * y).isInf = false) : (x * y).isFinite = true := by
  refine isFinite_pack ?_ h
  rcases cases_of_isFinite hx with ⟨s, hx⟩ | ⟨s, m, e, hm, hx⟩ <;>
    rcases cases_of_isFinite hy with ⟨t, hy⟩ | ⟨t, k, i, hk, hy⟩ <;> rw [hx, hy]
  · exact fun h => nomatch h
  · exact fun h => nomatch h
  · exact fun h => nomatch h
  · exact roundWithAccuracy_ne _ _ _ _

/-- What lies below the middle between the greatest double and the next power of two is rounded to a
finite double. -/
theorem isFinite_pack_roundWithAccuracy {s : Sign} {m : ℕ} {e : ℤ} {a : Accuracy} (he : e ≤ 970)
    (hm : m < (2 ^ 54 - 1) * 2 ^ (970 - e).toNat) :
    (Float.Model.pack (roundWithAccuracy format s m e a)).unpack.isFinite = true := by
  rcases roundWithAccuracy_of_lt s a he hm with h | ⟨m', e', hm', h, he'⟩
  · rw [h]
    exact isFinite_zero s
  · rw [h]
    exact isFinite_pack_finite hm' he'

/-- A product that does not reach the middle between the greatest double and the next power of two
is finite. -/
theorem isFinite_mul_of_lt {x y : Float} {s t : Sign} {m k : ℕ} {e i : ℤ} {hm : 0 < m} {hk : 0 < k}
    (hx : x.toModel.unpack = .finite s m e hm) (hy : y.toModel.unpack = .finite t k i hk)
    (he : e + i ≤ 970) (hlt : m * k < (2 ^ 54 - 1) * 2 ^ (970 - (e + i)).toNat) :
    (x * y).isFinite = true := by
  change (Float.Model.pack (UnpackedFloat.mul format x.toModel.unpack
    y.toModel.unpack)).unpack.isFinite = true
  rw [hx, hy]
  exact isFinite_pack_roundWithAccuracy he hlt

/-- A finite double divided by one that is at least two is finite. -/
theorem isFinite_div {x y : Float} {t : Sign} {k : ℕ} {i : ℤ} {hk : 0 < k}
    (hx : x.isFinite = true) (hy : y.toModel.unpack = .finite t k i hk) (htwo : 1 ≤ k.log2 + i) :
    (x / y).isFinite = true := by
  change (Float.Model.pack (UnpackedFloat.div format x.toModel.unpack
    y.toModel.unpack)).unpack.isFinite = true
  rw [hy]
  rcases cases_of_isFinite hx with ⟨s, hx⟩ | ⟨s, m, e, hm, hx⟩
  · rw [hx]
    exact isFinite_zero _
  · obtain ⟨hbits, hleast, hgreatest⟩ := bounds_of_unpack hx
    have hlog : m.log2 < 53 := (Nat.log2_lt hm.ne').mpr hbits
    set b := min (e - i) (format.targetExponent (totalExponent m e - totalExponent k i)) with hb
    rw [targetExponent_eq, totalExponent, totalExponent] at hb
    rw [hx]
    refine isFinite_pack_roundWithAccuracy (by omega : b ≤ 970) ?_
    change (m <<< (e - i - b).toNat) / k < _
    have hquotient : (m <<< (e - i - b).toNat) / k < 2 ^ (53 + (970 - b).toNat) := by
      rw [Nat.div_lt_iff_lt_mul hk, Nat.shiftLeft_eq]
      calc m * 2 ^ (e - i - b).toNat < 2 ^ (m.log2 + 1) * 2 ^ (e - i - b).toNat :=
            Nat.mul_lt_mul_of_pos_right Nat.lt_log2_self (by positivity)
        _ = 2 ^ (m.log2 + 1 + (e - i - b).toNat) := (pow_add _ _ _).symm
        _ ≤ 2 ^ (53 + (970 - b).toNat + k.log2) := Nat.pow_le_pow_right (by decide) (by omega)
        _ = 2 ^ (53 + (970 - b).toNat) * 2 ^ k.log2 := pow_add _ _ _
        _ ≤ 2 ^ (53 + (970 - b).toNat) * k :=
          Nat.mul_le_mul_left _ (Nat.log2_self_le hk.ne')
    rw [pow_add] at hquotient
    exact hquotient.trans_le (Nat.mul_le_mul_right _ (by norm_num))

end Displays.Double
