import Mathlib
import Displays.Decimal.Shortest

/-!
# The shortest decimal

Seventeen decimal places tell every double from its neighbours, so the search for the shortest
decimal never ends without one. What it finds is positive, has a number of digits that fits into a
word, and lies no further up than the middle between the double and its upper neighbour.
-/

namespace Displays.Decimal

/-! ## Powers of two and ten -/

private theorem ten_pow_le : (10 : ℚ) ^ 1233 ≤ 2 ^ 4096 := by
  have h : 10 ^ 1233 ≤ 2 ^ 4096 := by decide +kernel
  exact_mod_cast h

private theorem two_pow_le : (2 : ℚ) ^ 4096 ≤ 10 ^ 1234 := by
  have h : 2 ^ 4096 ≤ 10 ^ 1234 := by decide +kernel
  exact_mod_cast h

/-- The logarithm of ten to the base two lies between the quotients of 4096 by 1234 and 1233. -/
theorem ten_zpow_le_two_zpow {a b : ℤ} (h : 4096 * a ≤ 1233 * b) (h' : 4096 * a ≤ 1234 * b) :
    (10 : ℚ) ^ a ≤ 2 ^ b := by
  have hpow : ((10 : ℚ) ^ a) ^ 4096 ≤ ((2 : ℚ) ^ b) ^ 4096 := by
    have hten : ((10 : ℚ) ^ a) ^ 4096 = 10 ^ (4096 * a) := by
      rw [mul_comm, zpow_mul]
      rfl
    have htwo : ((2 : ℚ) ^ b) ^ 4096 = ((2 : ℚ) ^ 4096) ^ b := by
      rw [← zpow_natCast, ← zpow_mul, mul_comm, zpow_mul]
      rfl
    rw [hten, htwo]
    rcases le_total 0 b with hb | hb
    · calc (10 : ℚ) ^ (4096 * a) ≤ 10 ^ (1233 * b) := zpow_le_zpow_right₀ (by norm_num) h
        _ = ((10 : ℚ) ^ 1233) ^ b := by rw [zpow_mul]; rfl
        _ ≤ ((2 : ℚ) ^ 4096) ^ b := zpow_le_zpow_left₀ hb (by positivity) ten_pow_le
    · calc (10 : ℚ) ^ (4096 * a) ≤ 10 ^ (1234 * b) := zpow_le_zpow_right₀ (by norm_num) h'
        _ = ((10 : ℚ) ^ 1234) ^ b := by rw [zpow_mul]; rfl
        _ ≤ ((2 : ℚ) ^ 4096) ^ b := by
          obtain ⟨k, rfl⟩ : ∃ k : ℕ, b = -(k : ℤ) := ⟨b.natAbs, by omega⟩
          rw [zpow_neg, zpow_neg, zpow_natCast, zpow_natCast]
          exact inv_anti₀ (by positivity) (pow_le_pow_left₀ (by positivity) two_pow_le k)
  exact (pow_le_pow_iff_left₀ (by positivity) (by positivity) (by norm_num)).mp hpow

/-- Powers of two and ten compare as their exponents do by both fractions between which the
logarithm lies. -/
theorem two_zpow_le_ten_zpow {a b : ℤ} (h : 1233 * b ≤ 4096 * a) (h' : 1234 * b ≤ 4096 * a) :
    (2 : ℚ) ^ b ≤ 10 ^ a := by
  have hinv : (10 : ℚ) ^ (-a) ≤ 2 ^ (-b) := ten_zpow_le_two_zpow (by omega) (by omega)
  rw [zpow_neg, zpow_neg] at hinv
  exact (inv_le_inv₀ (by positivity) (by positivity)).mp hinv

/-! ## Points of a grid -/

namespace Neighbourhood

variable {v : Neighbourhood} {d : ℕ} {g : ℤ}

private theorem pow_toNat {a : ℚ} (ha : a ≠ 0) (n : ℤ) : a ^ n.toNat = a ^ n * a ^ (-n).toNat := by
  rw [← zpow_natCast, ← zpow_natCast, ← zpow_add₀ ha]
  congr 1
  omega

private theorem step_pos (v : Neighbourhood) (g : ℤ) : 0 < v.step g :=
  Nat.mul_pos (Nat.pow_pos (by decide)) (Nat.pow_pos (by decide))

private theorem quarter_pos (v : Neighbourhood) (g : ℤ) : 0 < v.quarter g :=
  Nat.mul_pos (Nat.pow_pos (by decide)) (Nat.pow_pos (by decide))

/-- Steps of a grid and quarters have the ratio of the powers of ten and two. -/
theorem exists_scale (v : Neighbourhood) (g : ℤ) :
    ∃ k : ℚ, 0 < k ∧ v.step g * k = 10 ^ g ∧ v.quarter g * k = 2 ^ v.exponent := by
  have hpos : (0 : ℚ) < v.quarter g := by exact_mod_cast quarter_pos v g
  have hmul : (v.step g : ℚ) * 2 ^ v.exponent = v.quarter g * 10 ^ g := by
    have htwo := pow_toNat (two_ne_zero (α := ℚ)) v.exponent
    have hten := pow_toNat (a := (10 : ℚ)) (by norm_num) g
    simp only [step, quarter, Nat.pow_eq, Nat.cast_mul, Nat.cast_pow, Nat.cast_ofNat]
    rw [htwo, hten]
    ring
  refine ⟨2 ^ v.exponent / v.quarter g, by positivity, ?_, ?_⟩
  · rw [mul_div_assoc', hmul, mul_div_cancel_left₀ _ hpos.ne']
  · rw [mul_div_cancel₀ _ hpos.ne']

/-- A point of the grid lies not above a number of quarters. -/
theorem mul_step_le_iff (v : Neighbourhood) (g : ℤ) (a b : ℕ) :
    a * v.step g ≤ b * v.quarter g ↔ (a : ℚ) * 10 ^ g ≤ b * 2 ^ v.exponent := by
  obtain ⟨k, hk, hstep, hquarter⟩ := v.exists_scale g
  rw [← hstep, ← hquarter, ← mul_assoc, ← mul_assoc, mul_le_mul_iff_of_pos_right hk]
  exact_mod_cast Iff.rfl

/-- A point of the grid lies not below a number of quarters. -/
theorem le_mul_step_iff (v : Neighbourhood) (g : ℤ) (a b : ℕ) :
    b * v.quarter g ≤ a * v.step g ↔ (b : ℚ) * 2 ^ v.exponent ≤ a * 10 ^ g := by
  obtain ⟨k, hk, hstep, hquarter⟩ := v.exists_scale g
  rw [← hstep, ← hquarter, ← mul_assoc, ← mul_assoc, mul_le_mul_iff_of_pos_right hk]
  exact_mod_cast Iff.rfl

/-- A point that rounds to the double lies between the ends of the neighbourhood. -/
theorem Covers.between (h : v.Covers d g) :
    (v.low : ℚ) * 2 ^ v.exponent ≤ d * 10 ^ g ∧ (d : ℚ) * 10 ^ g ≤ v.high * 2 ^ v.exponent := by
  rw [← le_mul_step_iff, ← mul_step_le_iff]
  rw [Covers] at h
  split at h
  · exact h
  · exact ⟨h.1.le, h.2.le⟩

/-- A point strictly between the ends rounds to the double. -/
theorem covers_of_between (hlow : (v.low : ℚ) * 2 ^ v.exponent < d * 10 ^ g)
    (hhigh : (d : ℚ) * 10 ^ g < v.high * 2 ^ v.exponent) : v.Covers d g := by
  rw [← not_le, ← mul_step_le_iff, not_le] at hlow
  rw [← not_le, ← le_mul_step_iff, not_le] at hhigh
  rw [Covers]
  split
  · exact ⟨hlow.le, hhigh.le⟩
  · exact ⟨hlow, hhigh⟩

/-- What is found on a grid is one of the two points next to the double. -/
theorem onGrid?_cases (tie : Tie) (v : Neighbourhood) (g : ℤ) :
    ∃ d, (d * v.step g ≤ v.value * v.quarter g ∧ v.value * v.quarter g < (d + 1) * v.step g) ∧
      ((v.Covers d g ∧ v.onGrid? tie g = some d) ∨
        (v.Covers (d + 1) g ∧ v.onGrid? tie g = some (d + 1)) ∨
        (¬ v.Covers d g ∧ ¬ v.Covers (d + 1) g ∧ v.onGrid? tie g = none)) := by
  obtain ⟨upper, hupper⟩ : ∃ upper : Bool, v.onGrid? tie g =
      let d := v.value * v.quarter g / v.step g
      if v.Covers d g ∧ (¬ v.Covers (d + 1) g ∨ upper = false) then some d
      else if v.Covers (d + 1) g then some (d + 1)
      else none := ⟨_, rfl⟩
  refine ⟨v.value * v.quarter g / v.step g, ⟨Nat.div_mul_le_self _ _, ?_⟩, ?_⟩
  · exact (Nat.div_lt_iff_lt_mul (v.step_pos g)).mp (Nat.lt_succ_self _)
  · rw [hupper]
    dsimp only
    split_ifs with hfirst hnext
    · exact .inl ⟨hfirst.1, rfl⟩
    · exact .inr (.inl ⟨hnext, rfl⟩)
    · exact .inr (.inr ⟨fun h => hfirst ⟨h, .inl hnext⟩, hnext, rfl⟩)

/-- A point that is found on a grid rounds to the double. -/
theorem covers_of_onGrid? {tie : Tie} (h : v.onGrid? tie g = some d) : v.Covers d g := by
  obtain ⟨k, -, ⟨hcovers, hk⟩ | ⟨hcovers, hk⟩ | ⟨-, -, hk⟩⟩ := onGrid?_cases tie v g
  · obtain rfl := Option.some.inj (hk.symm.trans h)
    exact hcovers
  · obtain rfl := Option.some.inj (hk.symm.trans h)
    exact hcovers
  · rw [hk] at h
    cases h

/-- A grid that is finer than the neighbourhood has a point that rounds to the double. -/
theorem exists_onGrid? (tie : Tie) (hlow : v.low < v.value) (hhigh : v.value < v.high)
    (h : (v.low : ℚ) * 2 ^ v.exponent + 10 ^ g < v.high * 2 ^ v.exponent) :
    ∃ d, v.onGrid? tie g = some d := by
  obtain ⟨d, ⟨hbelow, habove⟩, ⟨-, hd⟩ | ⟨-, hd⟩ | ⟨hfirst, hnext, -⟩⟩ := onGrid?_cases tie v g
  · exact ⟨d, hd⟩
  · exact ⟨d + 1, hd⟩
  -- the two points are one step apart, so they cannot both miss the neighbourhood
  exfalso
  have hexp : (0 : ℚ) < 2 ^ v.exponent := by positivity
  have hlow' : (v.low : ℚ) * 2 ^ v.exponent < v.value * 2 ^ v.exponent :=
    mul_lt_mul_of_pos_right (by exact_mod_cast hlow) hexp
  have hhigh' : (v.value : ℚ) * 2 ^ v.exponent < v.high * 2 ^ v.exponent :=
    mul_lt_mul_of_pos_right (by exact_mod_cast hhigh) hexp
  rw [mul_step_le_iff] at hbelow
  rw [← not_le, mul_step_le_iff, not_le] at habove
  have hd : (d : ℚ) * 10 ^ g ≤ v.low * 2 ^ v.exponent :=
    le_of_not_gt fun hlt => hfirst (covers_of_between hlt (hbelow.trans_lt hhigh'))
  have hd' : (v.high : ℚ) * 2 ^ v.exponent ≤ (d + 1 : ℕ) * 10 ^ g :=
    le_of_not_gt fun hlt => hnext (covers_of_between (hlow'.trans habove) hlt)
  push_cast at hd'
  linarith

/-- Raising an exponent stops below the double, and it stops at the first significant digit unless
it runs out of attempts. -/
theorem raiseExponent_spec {e : ℤ} (h : (10 : ℚ) ^ e ≤ v.value * 2 ^ v.exponent) (n : ℕ) :
    (10 : ℚ) ^ v.raiseExponent n e ≤ v.value * 2 ^ v.exponent ∧
      ((v.value : ℚ) * 2 ^ v.exponent < 10 ^ (v.raiseExponent n e + 1) ∨
        v.raiseExponent n e = e + n) ∧
      e ≤ v.raiseExponent n e ∧ v.raiseExponent n e ≤ e + n := by
  induction n generalizing e with
  | zero => exact ⟨h, .inr (by simp [raiseExponent]), le_rfl, by simp [raiseExponent]⟩
  | succ n ih =>
    have hreached := v.mul_step_le_iff (e + 1) 1 v.value
    rw [one_mul, Nat.cast_one, one_mul] at hreached
    rw [raiseExponent]
    split
    · next hle =>
      obtain ⟨hle, hstop, hleast, hgreatest⟩ := ih (hreached.mp hle)
      exact ⟨hle, hstop.imp_right (by omega), by omega, by omega⟩
    · next hlt =>
      rw [hreached, not_le] at hlt
      exact ⟨h, .inl hlt, le_rfl, by omega⟩

/-- The exponent of the first significant digit. -/
theorem decimalExponent_spec (hvalue : 0 < v.value)
    (hexp : -1076 ≤ v.exponent ∧ v.exponent + v.value.log2 ≤ 1023) :
    (10 : ℚ) ^ v.decimalExponent ≤ v.value * 2 ^ v.exponent ∧
      (v.value : ℚ) * 2 ^ v.exponent < 10 ^ (v.decimalExponent + 1) ∧
      -326 ≤ v.decimalExponent ∧ v.decimalExponent ≤ 310 := by
  set b : ℤ := v.value.log2 + v.exponent with hb
  have hleast : (2 : ℚ) ^ b ≤ v.value * 2 ^ v.exponent := by
    have hlog : (2 : ℚ) ^ v.value.log2 ≤ v.value := by
      exact_mod_cast Nat.log2_self_le hvalue.ne'
    rw [hb, zpow_add₀ two_ne_zero, zpow_natCast]
    exact mul_le_mul_of_nonneg_right hlog (by positivity)
  have hgreatest : (v.value : ℚ) * 2 ^ v.exponent < 2 ^ (b + 1) := by
    have hlog : (v.value : ℚ) < 2 ^ (v.value.log2 + 1) := by
      exact_mod_cast Nat.lt_log2_self
    have hsum : b + 1 = (v.value.log2 + 1 : ℕ) + v.exponent := by omega
    rw [hsum, zpow_add₀ two_ne_zero, zpow_natCast]
    exact mul_lt_mul_of_pos_right hlog (by positivity)
  have hdiv : Int.fdiv (b * 1233) 4096 = b * 1233 / 4096 := Int.fdiv_eq_ediv_of_nonneg _ (by decide)
  have hestimate : (10 : ℚ) ^ (b * 1233 / 4096 - 1) ≤ v.value * 2 ^ v.exponent :=
    (ten_zpow_le_two_zpow (by omega) (by omega)).trans hleast
  obtain ⟨hle, hstop, hfrom, hto⟩ := raiseExponent_spec hestimate 3
  rw [decimalExponent, hdiv]
  refine ⟨hle, ?_, by omega, by omega⟩
  rcases hstop with hlt | heq
  · exact hlt
  · refine hgreatest.trans_le (two_zpow_le_ten_zpow ?_ ?_) <;> omega

/-! ## The search -/

variable {m : ℕ} {q : ℤ}

private theorem value_of (m : ℕ) (q : ℤ) : (Neighbourhood.of m q).value = 4 * m := rfl

private theorem high_of (m : ℕ) (q : ℤ) : (Neighbourhood.of m q).high = 4 * m + 2 := rfl

private theorem exponent_of (m : ℕ) (q : ℤ) : (Neighbourhood.of m q).exponent = q - 2 := rfl

/-- The lower end is closer below a power of two. -/
theorem low_of_cases (m : ℕ) (q : ℤ) :
    (Neighbourhood.of m q).low = 4 * m - 2 ∨
      m = 2 ^ 52 ∧ (Neighbourhood.of m q).low = 4 * m - 1 := by
  rw [of]
  dsimp only
  split
  · next h => exact .inr ⟨h.1, rfl⟩
  · exact .inl rfl

private theorem low_of_lt (hm : 0 < m) (q : ℤ) :
    (Neighbourhood.of m q).low < (Neighbourhood.of m q).value := by
  rw [value_of]
  rcases low_of_cases m q with hlow | ⟨-, hlow⟩ <;> omega

/-- The exponent of the first significant digit of a double. -/
theorem decimalExponent_of (hm : 0 < m) (hm' : m < 2 ^ 53) (hq : -1074 ≤ q) (hq' : q ≤ 971) :
    (10 : ℚ) ^ (Neighbourhood.of m q).decimalExponent ≤ (4 * m : ℕ) * 2 ^ (q - 2) ∧
      ((4 * m : ℕ) : ℚ) * 2 ^ (q - 2) < 10 ^ ((Neighbourhood.of m q).decimalExponent + 1) ∧
      -326 ≤ (Neighbourhood.of m q).decimalExponent ∧
      (Neighbourhood.of m q).decimalExponent ≤ 310 := by
  have hlog : (4 * m).log2 < 55 := (Nat.log2_lt (by omega)).mpr (by omega)
  have hspec := decimalExponent_spec (v := .of m q) (by rw [value_of]; omega)
    (by rw [value_of, exponent_of]; omega)
  rwa [value_of, exponent_of] at hspec

/-- The last of seventeen places is finer than the neighbourhood of a double. -/
theorem fine_of (hm : 0 < m) (hm' : m < 2 ^ 53) {e : ℤ}
    (he : (10 : ℚ) ^ e ≤ (4 * m : ℕ) * 2 ^ (q - 2)) :
    ((Neighbourhood.of m q).low : ℚ) * 2 ^ (q - 2) + 10 ^ (e - 16) <
      (4 * m + 2 : ℕ) * 2 ^ (q - 2) := by
  have hexp : (0 : ℚ) < 2 ^ (q - 2) := by positivity
  have hplace : (10 : ℚ) ^ (e - 16) * 10 ^ 16 ≤ 4 * m * 2 ^ (q - 2) := by
    rw [zpow_sub₀ (by norm_num), div_mul_eq_mul_div, zpow_ofNat, mul_div_assoc,
      div_self (by norm_num), mul_one]
    exact_mod_cast he
  have hcount : (m : ℚ) + 1 ≤ 2 ^ 53 := by exact_mod_cast hm'
  rcases low_of_cases m q with hlow | ⟨rfl, hlow⟩
  · have hlow' : ((Neighbourhood.of m q).low : ℚ) = 4 * m - 2 := by
      rw [hlow, Nat.cast_sub (by omega)]
      push_cast
      ring
    rw [hlow']
    push_cast
    nlinarith
  · rw [hlow]
    norm_num at hplace ⊢
    nlinarith

end Neighbourhood

/-- The decimals stand for one number, and the second has fewer digits. -/
structure Scientific.Shortens (x y : Scientific) : Prop where
  /-- They stand for one number. -/
  value_eq : (y.digits : ℚ) * 10 ^ y.exponent = x.digits * 10 ^ x.exponent
  /-- The digits are not more. -/
  digits_le : y.digits ≤ x.digits
  /-- The exponent is not smaller. -/
  exponent_le : x.exponent ≤ y.exponent

/-- Zeros at the end of the digits go into the exponent. -/
theorem Scientific.strip_spec {x : Scientific} (h : 0 < x.digits) (n : ℕ) :
    x.Shortens (x.strip n) ∧ 0 < (x.strip n).digits ∧
      (x.strip n).exponent ≤ x.exponent + n := by
  induction n generalizing x with
  | zero => exact ⟨⟨rfl, le_rfl, le_rfl⟩, h, by simp [strip]⟩
  | succ n ih =>
    rw [strip]
    split
    · next hzero =>
      obtain ⟨hshort, hpos, hexp⟩ := @ih ⟨x.digits / 10, x.exponent + 1⟩ (by dsimp only; omega)
      have hle := hshort.digits_le
      have hexp' := hshort.exponent_le
      dsimp only at hle hexp' hexp
      refine ⟨⟨?_, by omega, by omega⟩, hpos, by omega⟩
      have hdigits : (x.digits : ℚ) = (x.digits / 10 : ℕ) * 10 := by
        exact_mod_cast (Nat.div_mul_cancel (Nat.dvd_of_mod_eq_zero hzero)).symm
      rw [hshort.value_eq, hdigits, zpow_add_one₀ (by norm_num)]
      ring
    · exact ⟨⟨rfl, le_rfl, le_rfl⟩, h, by omega⟩

variable {m : ℕ} {q : ℤ}

/-- The shortest decimal is found on one of the grids. -/
theorem exists_shortest_eq (tie : Tie) (hm : 0 < m) (hm' : m < 2 ^ 53) (hq : -1074 ≤ q)
    (hq' : q ≤ 971) :
    ∃ d g, shortest tie m q = Scientific.strip 17 ⟨d, g⟩ ∧ (Neighbourhood.of m q).Covers d g ∧
      (Neighbourhood.of m q).decimalExponent - 16 ≤ g ∧
      g ≤ (Neighbourhood.of m q).decimalExponent := by
  obtain ⟨hle, -, -, -⟩ := Neighbourhood.decimalExponent_of hm hm' hq hq'
  obtain ⟨d, hd⟩ := Neighbourhood.exists_onGrid? tie (v := .of m q)
    (g := (Neighbourhood.of m q).decimalExponent - 16) (Neighbourhood.low_of_lt hm q)
    (by rw [Neighbourhood.value_of, Neighbourhood.high_of]; omega)
    (Neighbourhood.fine_of hm hm' hle)
  rw [shortest]
  split
  · next x hfind =>
    obtain ⟨g, hg, hx⟩ := List.exists_of_findSome?_eq_some hfind
    obtain ⟨n, hn, rfl⟩ := List.mem_map.mp hg
    obtain ⟨d, hd, rfl⟩ := Option.map_eq_some_iff.mp hx
    have hn' : Int.ofNat n < 17 := Int.ofNat_lt.mpr (List.mem_range.mp hn)
    have hn'' : 0 ≤ Int.ofNat n := Int.natCast_nonneg n
    exact ⟨d, _, rfl, Neighbourhood.covers_of_onGrid? hd, by omega, by omega⟩
  · next hfind =>
    have hnone := List.findSome?_eq_none_iff.mp hfind _
      (List.mem_map.mpr ⟨16, List.mem_range.mpr (by decide), rfl⟩)
    rw [Option.map_eq_none_iff] at hnone
    exact absurd (hnone.symm.trans hd) (by simp only [reduceCtorEq, not_false_eq_true])

/-- The shortest decimal is positive, its digits fit into a word, and it lies no further up than the
middle between the double and its upper neighbour. -/
theorem shortest_spec (tie : Tie) (hm : 0 < m) (hm' : m < 2 ^ 53) (hq : -1074 ≤ q)
    (hq' : q ≤ 971) :
    0 < (shortest tie m q).digits ∧ (shortest tie m q).digits < 2 ^ 64 ∧
      -342 ≤ (shortest tie m q).exponent ∧ (shortest tie m q).exponent ≤ 327 ∧
      ((shortest tie m q).digits : ℚ) * 10 ^ (shortest tie m q).exponent ≤
        (4 * m + 2) * 2 ^ (q - 2) := by
  obtain ⟨d, g, heq, hcovers, hleast, hgreatest⟩ := exists_shortest_eq tie hm hm' hq hq'
  obtain ⟨-, hlt, hfrom, hto⟩ := Neighbourhood.decimalExponent_of hm hm' hq hq'
  obtain ⟨hlow, hhigh⟩ := hcovers.between
  rw [Neighbourhood.exponent_of] at hlow hhigh
  rw [Neighbourhood.high_of] at hhigh
  set e := (Neighbourhood.of m q).decimalExponent
  have hpos : 0 < d := by
    have hlow' : (0 : ℚ) < (Neighbourhood.of m q).low := by
      have hlow' : 0 < (Neighbourhood.of m q).low := by
        rcases Neighbourhood.low_of_cases m q with h | ⟨-, h⟩ <;> omega
      exact_mod_cast hlow'
    have hd : (0 : ℚ) < d * 10 ^ g := lt_of_lt_of_le (by positivity) hlow
    exact_mod_cast pos_of_mul_pos_left hd (by positivity)
  have hfits : d < 2 ^ 64 := by
    have hone : (1 : ℚ) ≤ m := by exact_mod_cast hm
    have hpow : (0 : ℚ) < 10 ^ (e - 16) := by positivity
    have hexp : (0 : ℚ) < 2 ^ (q - 2) := by positivity
    have hbound : (d : ℚ) * 10 ^ (e - 16) < 2 * 10 ^ 17 * 10 ^ (e - 16) := by
      calc (d : ℚ) * 10 ^ (e - 16) ≤ d * 10 ^ g :=
            mul_le_mul_of_nonneg_left (zpow_le_zpow_right₀ (by norm_num) hleast) (by positivity)
        _ ≤ (4 * m + 2 : ℕ) * 2 ^ (q - 2) := hhigh
        _ ≤ 2 * ((4 * m : ℕ) * 2 ^ (q - 2)) := by push_cast; nlinarith
        _ < 2 * 10 ^ (e + 1) := by linarith
        _ = 2 * 10 ^ 17 * 10 ^ (e - 16) := by
          rw [show e + 1 = 17 + (e - 16) by ring, zpow_add₀ (by norm_num), mul_assoc]
          rfl
    have hlt := lt_of_mul_lt_mul_right hbound hpow.le
    have hlt' : d < 2 * 10 ^ 17 := by exact_mod_cast hlt
    omega
  obtain ⟨hshort, hpos', hexp⟩ := Scientific.strip_spec (x := ⟨d, g⟩) hpos 17
  have hdigits := hshort.digits_le
  have hexp' := hshort.exponent_le
  have hvalue := hshort.value_eq
  rw [← heq] at hpos' hdigits hexp hexp' hvalue
  dsimp only at hdigits hexp hexp' hvalue
  refine ⟨hpos', by omega, by omega, by omega, ?_⟩
  rw [hvalue]
  exact_mod_cast hhigh

end Displays.Decimal
