import Displays.Proofs.Nearest
import Displays.Proofs.Printing
import Displays.Proofs.Shortest

/-!
# Reading the numerals of doubles

Whatever numeral is read as a double, the double is finite. Conversely the numeral that is written
for a finite double is read as one: even though the significand and the power of ten are rounded
before they are multiplied, their product does not become infinite.
-/

namespace Displays.Json.Numeral

open Decimal (nearest)
open Double (unpack_nearest)

variable {x y : Float} {exponent : ℤ}

private theorem isInf_of_isFinite (h : x.isFinite = true) : x.isInf = false := by
  change x.toModel.unpack.isInf = false
  rcases Double.cases_of_isFinite h with ⟨s, hx⟩ | ⟨s, m, e, hm, hx⟩ <;> rw [hx] <;> rfl

/-! ## Powers of ten -/

/-- A whole number below the greatest double has a finite double nearest to it. -/
theorem isFinite_nearest {n : ℕ} (h : n < (2 ^ 53 - 1) * 2 ^ 971) :
    (nearest false n 1).isFinite = true := by
  rcases Nat.eq_zero_or_pos n with rfl | hn
  · decide
  · obtain ⟨m, e, hm, hunpack, -⟩ := unpack_nearest hn h
    change (nearest false n 1).toModel.unpack.isFinite = true
    rw [hunpack]
    rfl

private theorem ten_pow_lt {k : ℕ} (h : k ≤ greatestPower) : 10 ^ k < (2 ^ 53 - 1) * 2 ^ 971 :=
  (Nat.pow_le_pow_right (by decide) h).trans_lt (by decide +kernel)

/-- The powers of ten in use are finite. -/
theorem isFinite_powerOfTen {k : ℕ} (h : k ≤ greatestPower) : (powerOfTen k).isFinite = true :=
  isFinite_nearest (ten_pow_lt h)

/-- Dividing by a power of ten leaves a finite double finite. -/
theorem isFinite_div_powerOfTen (hx : x.isFinite = true) {k : ℕ} (hk : 0 < k)
    (h : k ≤ greatestPower) : (x / powerOfTen k).isFinite = true := by
  obtain ⟨m, e, hm, hunpack, hleast, hlog, -⟩ := unpack_nearest (by positivity) (ten_pow_lt h)
  refine Double.isFinite_div hx hunpack ?_
  have hten : 3 ≤ (10 ^ k).log2 := by
    refine (Nat.le_log2 (by positivity)).mpr ?_
    calc 2 ^ 3 ≤ 10 ^ 1 := by norm_num
      _ ≤ 10 ^ k := Nat.pow_le_pow_right (by decide) hk
  have hm52 : 52 ≤ m.log2 := (Nat.le_log2 hm.ne').mpr hleast
  omega

/-! ## Scaling -/

/-- What is scaled without overflow is finite. -/
theorem isFinite_of_scaled? (hx : x.isFinite = true) (h : scaled? x exponent = some y) :
    y.isFinite = true := by
  fun_induction scaled? x exponent with
  | case1 x exponent hle hpos z hinf => cases h
  | case2 x exponent hle hpos z hinf =>
    obtain rfl := Option.some.inj h
    exact Double.isFinite_mul hx (isFinite_powerOfTen hle) (Bool.eq_false_iff.mpr hinf)
  | case3 x exponent hle hneg =>
    obtain rfl := Option.some.inj h
    exact isFinite_div_powerOfTen hx (by omega) hle
  | case4 x exponent hlarge hzero =>
    obtain rfl := Option.some.inj h
    exact hx
  | case5 => cases h
  | case6 x exponent hlarge hzero hneg ih =>
    exact ih (isFinite_div_powerOfTen hx (by decide) le_rfl) h

/-- Scaling downward always gives a double. -/
theorem isSome_scaled?_of_neg (x : Float) (h : exponent < 0) : (scaled? x exponent).isSome := by
  fun_induction scaled? x exponent with
  | case1 => omega
  | case2 => omega
  | case3 => rfl
  | case4 => rfl
  | case5 => omega
  | case6 x exponent hlarge hzero hneg ih =>
    refine ih ?_
    rw [greatestPower] at hlarge ⊢
    omega

/-- Two numbers whose product is below the greatest double by some of its last places may each be
rounded up by a part in `2 ^ 53` before they are multiplied. -/
theorem product_lt {m n a b u v : ℕ} (hm : 2 ^ 52 ≤ m) (hn : 2 ^ 52 ≤ n)
    (hu : m * 2 ^ a * 2 ≤ u * (2 ^ 53 + 1)) (hv : n * 2 ^ b * 2 ≤ v * (2 ^ 53 + 1))
    (h : u * v ≤ (2 ^ 55 - 10) * 2 ^ 969) :
    a + b < 1024 ∧ m * n < (2 ^ 54 - 1) * 2 ^ (1074 - (a + b)) := by
  have hproduct : m * n * 2 ^ (a + b) < (2 ^ 54 - 1) * 2 ^ 1074 := by
    refine lt_of_mul_lt_mul_right ?_ (Nat.zero_le 4)
    calc m * n * 2 ^ (a + b) * 4 = m * 2 ^ a * 2 * (n * 2 ^ b * 2) := by ring
      _ ≤ u * (2 ^ 53 + 1) * (v * (2 ^ 53 + 1)) := Nat.mul_le_mul hu hv
      _ = u * v * (2 ^ 53 + 1) ^ 2 := by ring
      _ ≤ (2 ^ 55 - 10) * 2 ^ 969 * (2 ^ 53 + 1) ^ 2 := Nat.mul_le_mul_right _ h
      _ < (2 ^ 54 - 1) * 2 ^ 1074 * 4 := by decide +kernel
  have hab : a + b < 1024 := by
    by_contra hge
    refine absurd hproduct (not_lt.mpr ?_)
    calc (2 ^ 54 - 1) * 2 ^ 1074 ≤ 2 ^ 52 * 2 ^ 52 * 2 ^ 1024 := by decide +kernel
      _ ≤ m * n * 2 ^ (a + b) := Nat.mul_le_mul (Nat.mul_le_mul hm hn)
          (Nat.pow_le_pow_right (by decide) (not_lt.mp hge))
  refine ⟨hab, lt_of_mul_lt_mul_right (hproduct.trans_eq ?_) (Nat.zero_le (2 ^ (a + b)))⟩
  rw [mul_assoc, ← pow_add, Nat.sub_add_cancel (by omega)]

private theorem isSome_scaled?_of_isInf {k : ℕ} (hk : k ≤ greatestPower)
    (h : (x * powerOfTen k).isInf = false) : (scaled? x k).isSome := by
  rw [scaled?, Int.natAbs_natCast, if_pos hk, if_pos (Int.natCast_nonneg k)]
  dsimp only
  rw [h]
  rfl

/-- A decimal below the greatest double by some of its last places is scaled to a double. -/
theorem isSome_scaled?_of_le {d k : ℕ} (hd : 0 < d) (h : d * 10 ^ k ≤ (2 ^ 55 - 10) * 2 ^ 969) :
    (scaled? (nearest false d 1) k).isSome := by
  have hk : k ≤ greatestPower := by
    by_contra hgt
    have hgt' : greatestPower + 1 ≤ k := Nat.succ_le_of_lt (not_le.mp hgt)
    refine absurd h (not_le.mpr ?_)
    calc (2 ^ 55 - 10) * 2 ^ 969 < 10 ^ (greatestPower + 1) := by decide +kernel
      _ ≤ 10 ^ k := Nat.pow_le_pow_right (by decide) hgt'
      _ ≤ d * 10 ^ k := Nat.le_mul_of_pos_left _ hd
  have hdlt : d < (2 ^ 53 - 1) * 2 ^ 971 :=
    (Nat.le_mul_of_pos_right d (by positivity)).trans_lt (h.trans_lt (by decide +kernel))
  obtain ⟨m, e, hm, hx, hm52, hlog, hvalue⟩ := unpack_nearest hd hdlt
  obtain ⟨n, i, hn, hy, hn52, hlog', hvalue'⟩ := unpack_nearest (by positivity) (ten_pow_lt hk)
  obtain ⟨hab, hlt⟩ := product_lt hm52 hn52 hvalue hvalue' h
  refine isSome_scaled?_of_isInf hk (isInf_of_isFinite ?_)
  refine Double.isFinite_mul_of_lt hx hy (by omega) ?_
  rwa [show (970 - (e + i)).toNat = 1074 - ((e + 52).toNat + (i + 52).toNat) by omega]

/-! ## Significands -/

section Digits

variable {n : ℕ} {digits : List ℕ}

private theorem ofDigits_append (n : ℕ) (l r : List ℕ) :
    ofDigits n (l ++ r) = ofDigits (ofDigits n l) r :=
  List.foldl_append

private theorem ofDigits_zeros (k : ℕ) (digits : List ℕ) :
    ofDigits 0 (zeros k ++ digits) = ofDigits 0 digits := by
  induction k with
  | zero => rfl
  | succ k ih => exact ih

private theorem le_ofDigits (n : ℕ) (digits : List ℕ) : n ≤ ofDigits n digits := by
  induction digits generalizing n with
  | nil => exact le_rfl
  | cons d digits ih => exact le_trans (by omega) (ih (10 * n + d))

/-- Digits stand for a number below the next power of ten. -/
theorem ofDigits_lt (h : ∀ d ∈ digits, d < 10) (n : ℕ) :
    ofDigits n digits < (n + 1) * 10 ^ digits.length := by
  induction digits generalizing n with
  | nil => exact (Nat.lt_succ_self n).trans_eq (mul_one _).symm
  | cons d digits ih =>
    obtain ⟨hd, hdigits⟩ := List.forall_mem_cons.mp h
    calc ofDigits (10 * n + d) digits < (10 * n + d + 1) * 10 ^ digits.length := ih hdigits _
      _ ≤ (n + 1) * 10 * 10 ^ digits.length := Nat.mul_le_mul_right _ (by omega)
      _ = (n + 1) * 10 ^ (digits.length + 1) := by rw [pow_succ]; ring

/-- A number below a power of ten has no more digits than this. -/
theorem length_toDigits_le {k : ℕ} (h : n < 10 ^ (k + 1)) : (toDigits n).length ≤ k + 1 := by
  induction k generalizing n with
  | zero =>
    rw [toDigits, if_pos (by omega)]
    exact le_rfl
  | succ k ih =>
    rw [toDigits]
    split
    · exact Nat.le_add_left 1 (k + 1)
    · rw [List.length_append]
      exact Nat.succ_le_succ (ih (by rw [pow_succ] at h; omega))

/-- Digits that fit into 64 bits are all kept. -/
theorem significand_of_lt (h : ofDigits n digits < 2 ^ 64) :
    significand n digits = (ofDigits n digits, 0) := by
  induction digits generalizing n with
  | nil => rfl
  | cons d digits ih =>
    have hstep : 10 * n + d < 2 ^ 64 := (le_ofDigits (10 * n + d) digits).trans_lt h
    rw [significand]
    exact (if_pos hstep).trans (ih h)

/-- The significand that is kept fits into 64 bits. -/
theorem significand_lt (h : n < 2 ^ 64) (digits : List ℕ) : (significand n digits).1 < 2 ^ 64 := by
  induction digits generalizing n with
  | nil => exact h
  | cons d digits ih =>
    rw [significand]
    split
    · next hstep => exact ih hstep
    · exact h

end Digits

/-! ## Numerals -/

variable {n : Numeral} {s : Decimal.Scientific} {negative : Bool}

/-- Whatever is read as a double is finite. -/
theorem isFinite_of_float? (h : n.float? = some x) : x.isFinite = true := by
  have hsigned : ∀ y : Float, y.isFinite = true →
      (if n.negative then -y else y).isFinite = true := by
    intro y hy
    split
    · exact Double.isFinite_neg hy
    · exact hy
  simp only [float?] at h
  split at h
  · split at h
    · cases h
    · obtain rfl := Option.some.inj h
      exact hsigned 0 (by decide)
  · obtain ⟨y, hy, rfl⟩ := Option.map_eq_some_iff.mp h
    have hfits : (significand (significand 0 n.whole).1 n.fraction).1 < 2 ^ 64 :=
      significand_lt (significand_lt (by decide) _) _
    exact hsigned y (isFinite_of_scaled? (isFinite_nearest (hfits.trans (by decide +kernel))) hy)

/-- The number that all digits stand for, without the point. -/
def digits (n : Numeral) : ℕ :=
  ofDigits 0 (n.whole ++ n.fraction)

/-- The power of ten that the last digit counts. -/
def place (n : Numeral) : ℤ :=
  n.exponent.getD 0 - n.fraction.length

/-- No digit of the numeral is dropped and its exponent is kept when it is read. -/
structure Small (n : Numeral) : Prop where
  /-- The digits fit into 64 bits. -/
  digits_lt : n.digits < 2 ^ 64
  /-- The exponent and the places fit into 32 bits. -/
  exponent_lt : (n.exponent.getD 0).natAbs + n.fraction.length < 2 ^ 31

/-- A small numeral is read as its digits, scaled by the power of ten of the last one. -/
theorem Small.isSome_float?_iff (h : n.Small) :
    n.float?.isSome ↔ (scaled? (nearest false n.digits 1) n.place).isSome := by
  have hleast : exponents.least = -2 ^ 31 := by decide
  have hgreatest : exponents.greatest = 2 ^ 31 - 1 := by decide
  have hexp := h.exponent_lt
  have hdigits := h.digits_lt
  rw [digits, ofDigits_append] at hdigits
  have hwhole := significand_of_lt ((le_ofDigits _ n.fraction).trans_lt hdigits)
  have htotal : max exponents.least (min exponents.greatest
      (((0 : ℕ) : ℤ) - (n.fraction.length - 0 : ℕ) + n.exponent.getD 0)) = n.place := by
    rw [hleast, hgreatest, place]
    omega
  simp only [float?, hwhole, significand_of_lt hdigits]
  rw [if_neg (by omega), htotal, Option.isSome_map, digits, ofDigits_append]

/-- The numeral of a decimal has the digits of the decimal at their place, or its last digit stands
behind the point. -/
theorem small_ofScientific (hlt : s.digits < 2 ^ 64) (hexp : s.exponent.natAbs < 1000)
    (negative : Bool) :
    (ofScientific negative s).Small ∧
      ((ofScientific negative s).place < 0 ∨
        (ofScientific negative s).digits = s.digits ∧
          (ofScientific negative s).place = s.exponent) := by
  have hvalue := ofDigits_toDigits s.digits
  have hdigits := lt_of_mem_toDigits s.digits
  have hlength : (toDigits s.digits).length ≤ 20 := length_toDigits_le (hlt.trans (by decide))
  have hpos := List.length_pos_iff.mpr (toDigits_ne_nil s.digits)
  have hsplit : ∀ k, ofDigits 0 ((toDigits s.digits).take k ++ (toDigits s.digits).drop k) =
      s.digits := by
    intro k
    rw [List.take_append_drop, hvalue]
  have hzeros : ∀ k, ofDigits 0 ([0] ++ (zeros k ++ toDigits s.digits)) = s.digits := by
    intro k
    rw [ofDigits_append]
    exact (ofDigits_zeros k _).trans hvalue
  rw [ofScientific]
  split
  · next h =>
    -- a whole number of 16 digits at most, with a zero behind the point
    refine ⟨⟨?_, (by decide : 0 + 1 < 2 ^ 31)⟩, .inl (by decide : (0 : ℤ) - 1 < 0)⟩
    refine (ofDigits_lt (fun d hd => ?_) 0).trans_le ?_
    · simp only [List.mem_append, List.mem_singleton, zeros, List.mem_replicate] at hd
      rcases hd with (hd | ⟨-, rfl⟩) | rfl
      · exact hdigits d hd
      · decide
      · decide
    · simp only [List.length_append, zeros, List.length_replicate, List.length_singleton]
      calc (0 + 1) * 10 ^ ((toDigits s.digits).length + s.exponent.toNat + 1) ≤ 1 * 10 ^ 17 :=
            Nat.mul_le_mul_left _ (Nat.pow_le_pow_right (by decide) (by omega))
        _ ≤ 2 ^ 64 := by decide
  split
  · next h =>
    refine ⟨⟨(hsplit _).trans_lt hlt, ?_⟩, .inl ?_⟩
    · rw [Option.getD_none, List.length_drop]
      omega
    · rw [place, Option.getD_none, List.length_drop]
      omega
  split
  · next h =>
    refine ⟨⟨(hzeros _).trans_lt hlt, ?_⟩, .inl ?_⟩
    · rw [Option.getD_none, List.length_append, zeros, List.length_replicate]
      omega
    · rw [place, Option.getD_none, List.length_append, zeros, List.length_replicate]
      omega
  · next h =>
    refine ⟨⟨(hsplit 1).trans_lt hlt, ?_⟩, .inr ⟨hsplit 1, ?_⟩⟩
    · rw [Option.getD_some, List.length_drop]
      omega
    · rw [place, Option.getD_some, List.length_drop]
      omega

/-- The numeral of a decimal is read if scaling its digits upward succeeds. -/
theorem isSome_float?_ofScientific (hlt : s.digits < 2 ^ 64) (hexp : s.exponent.natAbs < 1000)
    (h : ∀ k : ℕ, s.exponent = k → (scaled? (nearest false s.digits 1) k).isSome)
    (negative : Bool) : (ofScientific negative s).float?.isSome := by
  obtain ⟨hsmall, hplace⟩ := small_ofScientific hlt hexp negative
  rw [hsmall.isSome_float?_iff]
  rcases hplace with hneg | ⟨hdigits, hplace⟩
  · exact isSome_scaled?_of_neg _ hneg
  · rw [hdigits, hplace]
    rcases lt_or_ge s.exponent 0 with hneg | hpos
    · exact isSome_scaled?_of_neg _ hneg
    · obtain ⟨k, hk⟩ := Int.eq_ofNat_of_zero_le hpos
      rw [hk]
      exact h k hk

section Shortest

variable {m k : ℕ} {q : ℤ}

/-- All doubles but the two greatest leave room for rounding the digits and the power of ten. -/
theorem room_below (hm : m < 2 ^ 53) (h : q ≤ 970 ∨ q = 971 ∧ m + 2 < 2 ^ 53) :
    (4 * m + 2 : ℚ) * 2 ^ (q - 2) ≤ ((2 ^ 55 - 10) * 2 ^ 969 : ℕ) := by
  rcases h with hq | ⟨rfl, hm⟩
  · have hnumber : (4 * m + 2 : ℚ) ≤ 2 ^ 55 := by
      exact_mod_cast (by omega : 4 * m + 2 ≤ 2 ^ 55)
    have hpower : (2 : ℚ) ^ (q - 2) ≤ 2 ^ 968 :=
      (zpow_le_zpow_right₀ one_le_two (by omega : q - 2 ≤ 968)).trans_eq (zpow_ofNat 2 968)
    have hroom : 2 ^ 55 * 2 ^ 968 ≤ (2 ^ 55 - 10) * 2 ^ 969 := by decide +kernel
    calc (4 * m + 2 : ℚ) * 2 ^ (q - 2) ≤ 2 ^ 55 * 2 ^ 968 :=
          mul_le_mul hnumber hpower (by positivity) (by positivity)
      _ ≤ ((2 ^ 55 - 10) * 2 ^ 969 : ℕ) := by exact_mod_cast hroom
  · have hnumber : (4 * m + 2 : ℚ) ≤ (2 ^ 55 - 10 : ℕ) := by
      exact_mod_cast (by omega : 4 * m + 2 ≤ 2 ^ 55 - 10)
    have hpower : (2 : ℚ) ^ ((971 : ℤ) - 2) = 2 ^ 969 := zpow_ofNat 2 969
    rw [hpower, Nat.cast_mul, Nat.cast_pow, Nat.cast_ofNat]
    exact mul_le_mul_of_nonneg_right hnumber (by positivity)

/-- The shortest decimal of a double, if it is a whole number, is scaled to a double. -/
theorem isSome_scaled?_shortest (hm : 0 < m) (hm' : m < 2 ^ 53) (hq : -1074 ≤ q) (hq' : q ≤ 971)
    (hk : (Decimal.shortest .even m q).exponent = k) :
    (scaled? (nearest false (Decimal.shortest .even m q).digits 1) k).isSome := by
  by_cases hroom : q ≤ 970 ∨ q = 971 ∧ m + 2 < 2 ^ 53
  · obtain ⟨hpos, -, -, -, hle⟩ := Decimal.shortest_spec .even hm hm' hq hq'
    rw [hk, zpow_natCast] at hle
    refine isSome_scaled?_of_le hpos ?_
    exact_mod_cast hle.trans (room_below hm' hroom)
  · obtain rfl : q = 971 := by omega
    -- the two greatest doubles have no room below the middle to infinity
    obtain ⟨d, heq, hinf⟩ : ∃ d, Decimal.shortest .even m 971 = ⟨d, 292⟩ ∧
        (nearest false d 1 * powerOfTen 292).isInf = false := by
      obtain rfl | rfl : m = 2 ^ 53 - 1 ∨ m = 2 ^ 53 - 2 := by omega
      · exact ⟨17976931348623157, by decide +kernel, by decide +kernel⟩
      · exact ⟨17976931348623155, by decide +kernel, by decide +kernel⟩
    rw [heq] at hk ⊢
    obtain rfl : 292 = k := Int.ofNat.inj hk
    exact isSome_scaled?_of_isInf (by decide) hinf

end Shortest

/-- A double has a numeral exactly if it is finite, and this numeral is written as JSON has it and
read as a double. -/
theorem ofFloat?_cases (x : Float) :
    (x.isFinite = true ∧ ∃ n : Numeral, ofFloat? x = some n ∧ n.Sound ∧ n.float?.isSome) ∨
      (x.isFinite = false ∧ ofFloat? x = none) := by
  rw [ofFloat?]
  rcases Double.ofFloat_cases x with ⟨hfinite, negative, m, q, hparts, hm, hq, hq'⟩ |
    ⟨hfinite, hparts⟩
  · refine .inl ⟨hfinite, ?_⟩
    rw [hparts]
    dsimp only
    split
    · refine ⟨_, rfl, ⟨?_, ?_, List.cons_ne_nil _ _, fun _ _ h => nomatch h⟩, ?_⟩
      · exact fun d hd => (List.mem_singleton.mp hd).trans_lt (by decide)
      · exact fun d hd => (List.mem_singleton.mp hd).trans_lt (by decide)
      · cases negative <;> decide +kernel
    · next hzero =>
      have hpos : 0 < m := Nat.pos_of_ne_zero hzero
      obtain ⟨hdigits, hlt, hleast, hgreatest, -⟩ := Decimal.shortest_spec .even hpos hm hq hq'
      refine ⟨_, rfl, sound_ofScientific hdigits negative, ?_⟩
      exact isSome_float?_ofScientific hlt (by omega)
        (fun k hk => isSome_scaled?_shortest hpos hm hq hq' hk) negative
  · refine .inr ⟨hfinite, ?_⟩
    split
    · next heq => exact absurd heq (hparts _ _ _)
    · rfl

end Displays.Json.Numeral
