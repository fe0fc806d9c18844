import Mathlib
import Displays.Decimal.Binary
import Displays.Proofs.Doubles

/-!
# Doubles from their bits

The parts of a double are those of its bits. A whole number that is not too large has a nearest
double, which exceeds it by a part in `2 ^ 53` at most.
-/

namespace Displays.Double

open Float.Model Float.Model.UnpackedFloat Decimal

/-! ## Bits -/

private theorem toNat_unpackMantissa (x : BitVec 64) :
    (@unpackMantissa format x).toNat = x.toNat % 2 ^ 52 := by
  rw [unpackMantissa, BitVec.toNat_cast, BitVec.extractLsb_toNat]
  rfl

private theorem toNat_unpackExponent (x : BitVec 64) :
    (@unpackExponent format x).toNat = x.toNat / 2 ^ 52 % 2 ^ 11 := by
  rw [unpackExponent, BitVec.toNat_cast, BitVec.extractLsb_toNat, Nat.shiftRight_eq_div_pow]
  rfl

private theorem toNat_unpackSign (x : BitVec 64) :
    (@unpackSign format x).toNat = x.toNat / 2 ^ 63 % 2 := by
  rw [unpackSign, BitVec.toNat_cast, BitVec.extractLsb_toNat, Nat.shiftRight_eq_div_pow]
  rfl

/-- Bits without sign whose exponent is neither the least nor the greatest one stand for a double
with 53 bits. -/
theorem unpack_ofBits {b : ℕ} (hleast : 2 ^ 52 ≤ b) (hgreatest : b < 2047 * 2 ^ 52) :
    (Float.ofBits (UInt64.ofNat b)).toModel.unpack =
      .finite .positive (2 ^ 52 + b % 2 ^ 52) ((b / 2 ^ 52 : ℕ) - 1075) (by positivity) := by
  set x : BitVec 64 := BitVec.ofNat 64 b with hx
  have hbits : x.toNat = b := by
    rw [hx, BitVec.toNat_ofNat]
    exact Nat.mod_eq_of_lt (by omega)
  have hexp := toNat_unpackExponent x
  have hmantissa := toNat_unpackMantissa x
  have hsign := toNat_unpackSign x
  rw [hbits] at hexp hmantissa hsign
  have hmax : @unpackExponent format x ≠ -1#11 := exponent_ne_max (by omega)
  have hzero : @unpackExponent format x ≠ 0#11 := exponent_ne_zero (by omega)
  have hpositive : @unpackSign format x = 0#1 := by
    apply BitVec.eq_of_toNat_eq
    rw [hsign]
    change b / 2 ^ 63 % 2 = 0
    omega
  have hunpack : UnpackedFloat.unpack format x =
      .finite .positive (2 ^ 52 + b % 2 ^ 52) ((b / 2 ^ 52 : ℕ) - 1075) (by positivity) := by
    have hbias : (format.exponentBias : ℤ) = 1023 := rfl
    have hwidth : (format.mantissaBitsWithoutImplicit : ℤ) = 52 := rfl
    simp only [UnpackedFloat.unpack]
    rw [if_neg hmax, if_neg hzero, UnpackedFloat.finite.injEq, hpositive, Scale.toNat_one_append,
      hmantissa, hexp]
    exact ⟨rfl, rfl, by omega⟩
  change (Float.Model.pack (UnpackedFloat.unpack format x)).unpack = _
  rw [hunpack]
  exact unpack_pack_normal _ (by omega) (by omega) (by omega) (by omega)

/-- A finite double has parts within the format; an infinity and what is no number have none. -/
theorem ofFloat_cases (x : Float) :
    (x.isFinite = true ∧ ∃ negative m q, Parts.ofFloat x = .finite negative m q ∧ m < 2 ^ 53 ∧
      -1074 ≤ q ∧ q ≤ 971) ∨
    (x.isFinite = false ∧ ∀ negative m q, Parts.ofFloat x ≠ .finite negative m q) := by
  have hexp : (@unpackExponent format x.toBits.toBitVec).toNat =
      x.toBits.toNat / Nat.pow 2 52 % Nat.pow 2 11 := toNat_unpackExponent x.toBits.toBitVec
  have hfraction : x.toBits.toNat % Nat.pow 2 52 < 2 ^ 52 := Nat.mod_lt _ (by decide)
  have hrange : x.toBits.toNat / Nat.pow 2 52 % Nat.pow 2 11 < 2048 := Nat.mod_lt _ (by decide)
  rw [Parts.ofFloat]
  by_cases hmax : x.toBits.toNat / Nat.pow 2 52 % Nat.pow 2 11 = 2047
  · refine .inr ⟨?_, fun negative m q => ?_⟩
    · have hexp' : @unpackExponent format x.toBits.toBitVec = -1#11 :=
        BitVec.eq_of_toNat_eq (hexp.trans hmax)
      change (UnpackedFloat.unpack format x.toBits.toBitVec).isFinite = false
      simp only [UnpackedFloat.unpack]
      rw [if_pos hexp']
      split <;> rfl
    · rw [if_pos hmax]
      split <;> exact fun h => nomatch h
  · refine .inl ⟨?_, ?_⟩
    · refine isFinite_unpack (x := x.toBits.toBitVec) fun h => hmax ?_
      rw [← hexp, h]
      rfl
    · rw [if_neg hmax]
      split
      · exact ⟨_, _, _, rfl, by omega, le_rfl, by decide⟩
      · refine ⟨_, _, _, rfl, ?_, ?_, ?_⟩
        · change 2 ^ 52 + _ < 2 ^ 53
          omega
        · rw [leastExponent]
          omega
        · rw [leastExponent]
          omega

/-! ## Whole numbers -/

variable {n : ℕ}

private theorem exponentFor_one (hn : 0 < n) : exponentFor n 1 = (n.log2 : ℤ) - 52 := by
  have hone : Nat.log2 1 = 0 := by decide
  have hreached : 1 * Nat.pow 2 n.log2 ≤ n * Nat.pow 2 0 := by
    rw [one_mul]
    exact (Nat.log2_self_le hn.ne').trans (Nat.le_mul_of_pos_right n Nat.one_pos)
  have hneg : (-(n.log2 : ℤ)).toNat = 0 := by omega
  simp only [exponentFor, hone, Nat.cast_zero, sub_zero, Int.toNat_natCast, hneg, hreached, if_true,
    leastExponent]
  omega

/-- A quotient is rounded up by half at most. -/
theorem roundedQuotient_cases (num den : ℕ) (q : ℤ) {a b : ℕ} (ha : a = num * 2 ^ (-q).toNat)
    (hb : b = den * 2 ^ q.toNat) :
    roundedQuotient num den q = a / b ∨
      roundedQuotient num den q = a / b + 1 ∧ b ≤ 2 * (a % b) := by
  have hround : roundedQuotient num den q =
      if 2 * (a % b) < b then a / b
      else if b < 2 * (a % b) then a / b + 1
      else a / b + a / b % 2 := by
    rw [ha, hb]
    rfl
  rw [hround]
  split
  · exact .inl rfl
  split
  · exact .inr ⟨rfl, by omega⟩
  · rcases Nat.mod_two_eq_zero_or_one (a / b) with h | h
    · exact .inl (by rw [h, add_zero])
    · exact .inr ⟨by rw [h], by omega⟩

/-- A whole number of 53 bits at most is kept as it is. -/
theorem roundedQuotient_of_le (hlog : n.log2 ≤ 52) :
    roundedQuotient n 1 (n.log2 - 52) = n * 2 ^ (52 - n.log2) := by
  have hnum : n * 2 ^ (52 - n.log2) = n * 2 ^ (-((n.log2 : ℤ) - 52)).toNat := by
    congr 2
    omega
  have hden : 1 = 1 * 2 ^ ((n.log2 : ℤ) - 52).toNat := by
    rw [one_mul, show ((n.log2 : ℤ) - 52).toNat = 0 by omega, pow_zero]
  rcases roundedQuotient_cases n 1 _ hnum hden with h | ⟨-, h⟩
  · rw [h, Nat.div_one]
  · rw [Nat.mod_one] at h
    omega

/-- A whole number of more than 53 bits loses the low ones. -/
theorem roundedQuotient_of_eq {k : ℕ} (hlog : n.log2 = 52 + k) :
    roundedQuotient n 1 (n.log2 - 52) = n / 2 ^ k ∨
      roundedQuotient n 1 (n.log2 - 52) = n / 2 ^ k + 1 ∧ 2 ^ k ≤ 2 * (n % 2 ^ k) := by
  refine roundedQuotient_cases n 1 _ ?_ ?_
  · rw [show (-((n.log2 : ℤ) - 52)).toNat = 0 by omega, pow_zero, mul_one]
  · rw [one_mul, show ((n.log2 : ℤ) - 52).toNat = k by omega]

/-- The bits that are left of a whole number of more than 53 bits. -/
theorem div_bounds {k : ℕ} (hn : 0 < n) (hlog : n.log2 = 52 + k) :
    2 ^ 52 ≤ n / 2 ^ k ∧ n / 2 ^ k < 2 ^ 53 := by
  have hpos : 0 < 2 ^ k := by positivity
  rw [Nat.le_div_iff_mul_le hpos, Nat.div_lt_iff_lt_mul hpos, ← pow_add, ← pow_add]
  refine ⟨hlog ▸ Nat.log2_self_le hn.ne', ?_⟩
  calc n < 2 ^ (n.log2 + 1) := Nat.lt_log2_self
    _ = 2 ^ (53 + k) := by rw [hlog]; ring

/-- The rounded quotient of a whole number has 53 bits, unless it is the next power of two, and
exceeds the number by a part in `2 ^ 53` at most. -/
theorem roundedQuotient_spec (hn : 0 < n) :
    2 ^ 52 ≤ roundedQuotient n 1 (n.log2 - 52) ∧ roundedQuotient n 1 (n.log2 - 52) ≤ 2 ^ 53 ∧
      roundedQuotient n 1 (n.log2 - 52) * 2 ^ n.log2 * 2 ≤ n * (2 ^ 53 + 1) := by
  rcases le_or_gt n.log2 52 with hlog | hlog
  · have hpow : 2 ^ n.log2 * 2 ^ (52 - n.log2) = 2 ^ 52 := by
      rw [← pow_add, Nat.add_sub_cancel' hlog]
    rw [roundedQuotient_of_le hlog]
    refine ⟨?_, ?_, ?_⟩
    · rw [← hpow]
      exact Nat.mul_le_mul_right _ (Nat.log2_self_le hn.ne')
    · calc n * 2 ^ (52 - n.log2) ≤ 2 ^ (n.log2 + 1) * 2 ^ (52 - n.log2) :=
            Nat.mul_le_mul_right _ Nat.lt_log2_self.le
        _ = 2 ^ 53 := by rw [pow_succ, mul_right_comm, hpow]; norm_num
    · calc n * 2 ^ (52 - n.log2) * 2 ^ n.log2 * 2 = n * (2 ^ n.log2 * 2 ^ (52 - n.log2) * 2) := by
            ring
        _ ≤ n * (2 ^ 53 + 1) := by
            rw [hpow]
            exact Nat.mul_le_mul_left _ (by norm_num)
  · obtain ⟨k, hk⟩ : ∃ k, n.log2 = 52 + k := ⟨n.log2 - 52, by omega⟩
    have hpow : 2 ^ n.log2 = 2 ^ 52 * 2 ^ k := by rw [hk, pow_add]
    have hleast : 2 ^ n.log2 ≤ n := Nat.log2_self_le hn.ne'
    have hdiv := Nat.div_add_mod' n (2 ^ k)
    obtain ⟨hfrom, hto⟩ := div_bounds hn hk
    have hr := roundedQuotient_of_eq hk
    have hhalf : roundedQuotient n 1 (n.log2 - 52) * 2 ^ k * 2 ≤ 2 * n + 2 ^ k := by
      rcases hr with h | ⟨h, hle⟩
      · rw [h]
        omega
      · rw [h, add_mul, one_mul]
        omega
    refine ⟨by omega, by omega, ?_⟩
    calc roundedQuotient n 1 (n.log2 - 52) * 2 ^ n.log2 * 2
        = roundedQuotient n 1 (n.log2 - 52) * 2 ^ k * 2 * 2 ^ 52 := by rw [hpow]; ring
      _ ≤ (2 * n + 2 ^ k) * 2 ^ 52 := Nat.mul_le_mul_right _ hhalf
      _ = 2 * n * 2 ^ 52 + 2 ^ n.log2 := by rw [hpow]; ring
      _ ≤ n * (2 ^ 53 + 1) := by omega

/-- The rounded quotient of a whole number below the greatest double has 53 bits where its exponent
is the greatest one. -/
theorem roundedQuotient_lt (hlog : n.log2 = 1023) (hlt : n < (2 ^ 53 - 1) * 2 ^ 971) :
    roundedQuotient n 1 (n.log2 - 52) < 2 ^ 53 := by
  have hdiv : n / 2 ^ 971 < 2 ^ 53 - 1 := (Nat.div_lt_iff_lt_mul (by positivity)).mpr hlt
  rcases roundedQuotient_of_eq (k := 971) hlog with h | ⟨h, -⟩ <;> omega

/-- The bits of the double nearest to a whole number. -/
theorem nearestBits_one (hn : 0 < n) (hlt : n < (2 ^ 53 - 1) * 2 ^ 971) :
    nearestBits n 1 = (n.log2 + 1022) * 2 ^ 52 + roundedQuotient n 1 (n.log2 - 52) ∧
      nearestBits n 1 < 2047 * 2 ^ 52 := by
  have hlog : n.log2 < 1024 := by
    refine (Nat.log2_lt hn.ne').mpr (hlt.trans_le ?_)
    calc (2 ^ 53 - 1) * 2 ^ 971 ≤ 2 ^ 53 * 2 ^ 971 := Nat.mul_le_mul_right _ (by norm_num)
      _ = 2 ^ 1024 := by rw [← pow_add]
  obtain ⟨-, hle, -⟩ := roundedQuotient_spec hn
  have htop := fun h => roundedQuotient_lt (n := n) h hlt
  have hsum : ((n.log2 : ℤ) - 52 - leastExponent).toNat = n.log2 + 1022 := by
    rw [leastExponent]
    omega
  have hbits : nearestBits n 1 =
      min ((n.log2 + 1022) * 2 ^ 52 + roundedQuotient n 1 (n.log2 - 52)) (2047 * 2 ^ 52) := by
    rw [nearestBits, if_neg hn.ne', exponentFor_one hn]
    dsimp only
    rw [hsum]
    rfl
  rw [hbits]
  omega

/-- A positive whole number below the greatest double has a nearest double with 53 bits, which is
not smaller by more than a power of two and not greater by more than a part in `2 ^ 53`. -/
theorem unpack_nearest (hn : 0 < n) (hlt : n < (2 ^ 53 - 1) * 2 ^ 971) :
    ∃ m e, ∃ hm : 0 < m, (nearest false n 1).toModel.unpack = .finite .positive m e hm ∧
      2 ^ 52 ≤ m ∧ (n.log2 : ℤ) ≤ e + 52 ∧
      m * 2 ^ (e + 52).toNat * 2 ≤ n * (2 ^ 53 + 1) := by
  obtain ⟨hbits, hmax⟩ := nearestBits_one hn hlt
  obtain ⟨hleast, hgreatest, hvalue⟩ := roundedQuotient_spec hn
  have hunpack := unpack_ofBits (by omega) hmax
  rw [nearest, if_neg Bool.false_ne_true, Nat.add_zero]
  refine ⟨_, _, _, hunpack, by omega, by omega, ?_⟩
  rcases hgreatest.lt_or_eq with hlt53 | heq
  · have hm : 2 ^ 52 + nearestBits n 1 % 2 ^ 52 = roundedQuotient n 1 (n.log2 - 52) := by omega
    have he : (((nearestBits n 1 / 2 ^ 52 : ℕ) : ℤ) - 1075 + 52).toNat = n.log2 := by omega
    rw [hm, he]
    exact hvalue
  · have hm : 2 ^ 52 + nearestBits n 1 % 2 ^ 52 = 2 ^ 52 := by omega
    have he : (((nearestBits n 1 / 2 ^ 52 : ℕ) : ℤ) - 1075 + 52).toNat = n.log2 + 1 := by omega
    rw [heq] at hvalue
    rw [hm, he, pow_succ]
    omega

end Displays.Double
