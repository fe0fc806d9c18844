import Displays.Decimal.Shortest
import Displays.Decimal.Reading

/-!
# Numbers in decimal digits

A whole number that is written in decimal digits, with or without zeros in front, is read back as
long as it lies within its bounds, and so is one with a minus sign. A number with digits behind a
point is read as the double nearest to it.
-/

namespace Displays.Decimal

variable {l s : List Char} {c : Char} {bits limit n width : Nat}

section Digits

/-- The digits of a number are decimal digits. -/
theorem isDigit_of_mem_digitChars (h : c ∈ digitChars n) : c.isDigit = true :=
  Nat.isDigit_of_mem_toDigits (by decide) (by decide) h

/-- Every number has a digit. -/
theorem digitChars_ne_nil (n : Nat) : digitChars n ≠ [] :=
  Nat.toDigits_ne_nil

/-- The digits of a number stand for the number. -/
@[simp] theorem ofDigitChars_digitChars (n : Nat) : Nat.ofDigitChars 10 (digitChars n) 0 = n :=
  Nat.ofDigitChars_toDigits (by decide) (by decide)

/-- A padded number has zeros in front of its digits. -/
theorem toList_padded (width n : Nat) :
    (padded width n).toList =
      List.replicate (width - (digitChars n).length) '0' ++ digitChars n :=
  String.toList_ofList

/-- A padded number is written in decimal digits. -/
theorem isDigit_of_mem_padded (h : c ∈ (padded width n).toList) : c.isDigit = true := by
  rw [toList_padded, List.mem_append] at h
  rcases h with h | h
  · rw [List.eq_of_mem_replicate h]
    rfl
  · exact isDigit_of_mem_digitChars h

/-- A padded number has a digit. -/
theorem toList_padded_ne_nil (width n : Nat) : (padded width n).toList ≠ [] := by
  rw [toList_padded]
  exact List.append_ne_nil_of_right_ne_nil _ (digitChars_ne_nil n)

/-- Zeros in front do not change what digits stand for. -/
@[simp] theorem ofDigitChars_padded (width n : Nat) :
    Nat.ofDigitChars 10 (padded width n).toList 0 = n := by
  rw [toList_padded, Nat.ofDigitChars_append, Nat.ofDigitChars_replicate_zero, Nat.mul_zero,
    ofDigitChars_digitChars]

/-- A number that fits into the width is written in exactly that many digits. -/
theorem length_padded (hwidth : 0 < width) (h : n < Nat.pow 10 width) :
    (padded width n).toList.length = width := by
  have hle : (digitChars n).length ≤ width :=
    (Nat.length_toDigits_le_iff (by decide) hwidth).mpr h
  rw [toList_padded, List.length_append, List.length_replicate, Nat.sub_add_cancel hle]

end Digits

section Whole

private theorem digit?_of_isDigit (h : c.isDigit = true) :
    digit? c = some (c.toNat - '0'.toNat) := by
  rw [digit?, if_pos h]

private theorem le_ofDigitChars (l : List Char) (n : Nat) : n ≤ Nat.ofDigitChars 10 l n := by
  have hpos : 0 < 10 ^ l.length := Nat.pow_pos (by decide)
  rw [Nat.ofDigitChars_eq_ofDigitChars_zero]
  exact Nat.le_trans (Nat.le_mul_of_pos_left n hpos) (Nat.le_add_right _ _)

/-- Digits are read while what they stand for stays within the limit. -/
theorem magnitude_eq_ok {excess : IntegerFault} (hd : ∀ c ∈ l, c.isDigit = true)
    (h : Nat.ofDigitChars 10 l n ≤ limit) :
    magnitude limit excess n l = .ok (Nat.ofDigitChars 10 l n) := by
  induction l generalizing n with
  | nil => rfl
  | cons c l ih =>
    obtain ⟨hc, hl⟩ := List.forall_mem_cons.mp hd
    rw [Nat.ofDigitChars_cons] at h ⊢
    have hstep : 10 * n + (c.toNat - '0'.toNat) ≤ limit := Nat.le_trans (le_ofDigitChars l _) h
    simp only [magnitude, digit?_of_isDigit hc]
    rw [if_pos hstep, ih hl h]

/-- Digits of a number within the limit are read as the number. -/
theorem unsignedOf_eq_ok {excess : IntegerFault} (hne : l ≠ []) (hd : ∀ c ∈ l, c.isDigit = true)
    (hvalue : Nat.ofDigitChars 10 l 0 = n) (h : n ≤ limit) :
    unsignedOf limit excess l = .ok n := by
  subst hvalue
  rw [unsignedOf, List.isEmpty_eq_false_iff.mpr hne, if_neg Bool.false_ne_true,
    magnitude_eq_ok hd h]

/-- A digit is no sign. -/
theorem ne_of_isDigit (h : c.isDigit = true) : c ≠ '+' ∧ c ≠ '-' := by
  constructor
  all_goals
    rintro rfl
    cases h

/-- Digits are read up to the upper bound. -/
theorem readInt_of_digits {r : Bounds} (hne : l ≠ []) (hd : ∀ c ∈ l, c.isDigit = true)
    (hvalue : Nat.ofDigitChars 10 l 0 = n) (h : n ≤ r.greatest.toNat) :
    readInt r l = .ok n := by
  cases l with
  | nil => exact absurd rfl hne
  | cons c l =>
    obtain ⟨hplus, hminus⟩ := ne_of_isDigit (hd c List.mem_cons_self)
    rw [readInt, unsignedOf_eq_ok hne hd hvalue h]
    · rfl
    · exact hne
    · exact fun _ heq => hplus (List.cons.inj heq).1
    · exact fun _ heq => hminus (List.cons.inj heq).1

/-- Digits are read as a natural number of a certain length in bits. -/
theorem readNat_of_digits (hne : l ≠ []) (hd : ∀ c ∈ l, c.isDigit = true)
    (hvalue : Nat.ofDigitChars 10 l 0 = n) (h : n < Nat.pow 2 bits) : readNat bits l = .ok n := by
  have hle : n ≤ (Bounds.unsigned bits).greatest.toNat := by
    simp only [Bounds.unsigned]
    omega
  rw [readNat, readInt_of_digits hne hd hvalue hle]
  rfl

/-- A number is read as it is written. -/
theorem readNat_digitChars (h : n < Nat.pow 2 bits) : readNat bits (digitChars n) = .ok n :=
  readNat_of_digits (digitChars_ne_nil n) (fun _ => isDigit_of_mem_digitChars)
    (ofDigitChars_digitChars n) h

/-- Zeros in front of a number do not matter. -/
theorem readNat_padded (h : n < Nat.pow 2 bits) : readNat bits (padded width n).toList = .ok n :=
  readNat_of_digits (toList_padded_ne_nil width n) (fun _ => isDigit_of_mem_padded)
    (ofDigitChars_padded width n) h

/-- The digits of a number, behind a minus sign if it is negative. -/
def signedChars (n : Int) : List Char :=
  if n < 0 then '-' :: digitChars n.natAbs else digitChars n.natAbs

/-- A number with sign is read as it is written. -/
theorem readInt_signedChars {n : Int} (h : n ∈ Bounds.signed bits) :
    readInt (.signed bits) (signedChars n) = .ok n := by
  obtain ⟨hleast, hgreatest⟩ : (Bounds.signed bits).least ≤ n ∧ n ≤ (Bounds.signed bits).greatest :=
    h
  have hd : ∀ c ∈ digitChars n.natAbs, c.isDigit = true := fun _ => isDigit_of_mem_digitChars
  by_cases hn : n < 0
  · have hle : n.natAbs ≤ (-(Bounds.signed bits).least).toNat := by omega
    rw [signedChars, if_pos hn, readInt, if_pos (by omega), unsignedOf_eq_ok
      (digitChars_ne_nil n.natAbs) hd (ofDigitChars_digitChars n.natAbs) hle]
    exact congrArg Except.ok (show -(n.natAbs : Int) = n by omega)
  · have hle : n.natAbs ≤ (Bounds.signed bits).greatest.toNat := by omega
    rw [signedChars, if_neg hn, readInt_of_digits (digitChars_ne_nil n.natAbs) hd
      (ofDigitChars_digitChars n.natAbs) hle]
    exact congrArg Except.ok (by omega)

end Whole

section Doubles

/-- A digit is in lower case. -/
theorem toLower_of_isDigit (h : c.isDigit = true) : c.toLower = c := by
  have hle : c.toNat ≤ 57 := (Char.isDigit_iff_toNat.mp h).2
  have hupper : ¬ (c.val ≥ 'A'.val ∧ c.val ≤ 'Z'.val) := by
    intro hc
    have hge : 65 ≤ c.toNat := UInt32.le_iff_toNat_le.mp hc.1
    omega
  exact dif_neg hupper

/-- What begins with a digit is none of the words for doubles. -/
theorem readFloat?_of_isDigit (h : c.isDigit = true) (s : List Char) :
    readFloat? (c :: s) = readDecimal? false (c :: s) := by
  obtain ⟨hplus, hminus⟩ := ne_of_isDigit h
  have hn : c ≠ 'n' := by
    rintro rfl
    cases h
  have hi : c ≠ 'i' := by
    rintro rfl
    cases h
  rw [readFloat?]
  · simp only [readUnsigned?, List.map_cons, toLower_of_isDigit h, List.cons.injEq, hn, hi,
      false_and, or_self, ite_false]
  · exact fun _ heq => hminus (List.cons.inj heq).1
  · exact fun _ heq => hplus (List.cons.inj heq).1

/-- Digits are taken up to where they stop. -/
theorem spanDigits_append (hd : ∀ c ∈ l, c.isDigit = true) (hs : ∀ c ∈ s.head?, c.isDigit = false)
    (n count : Nat) :
    spanDigits n count (l ++ s) = (Nat.ofDigitChars 10 l n, count + l.length, s) := by
  induction l generalizing n count with
  | nil =>
    cases s with
    | nil => rfl
    | cons c s =>
      have hc : c.isDigit = false := hs c rfl
      rw [List.nil_append, spanDigits, digit?, hc, if_neg Bool.false_ne_true]
      rfl
  | cons c l ih =>
    obtain ⟨hc, hl⟩ := List.forall_mem_cons.mp hd
    simp only [List.cons_append, spanDigits, digit?_of_isDigit hc, ih hl, Nat.ofDigitChars_cons,
      List.length_cons, Nat.add_right_comm count 1, Nat.add_assoc]

/-- A number with digits before and behind a point is read as the double nearest to it. -/
theorem readFloat?_of_digits {whole places : List Char} (hne : whole ≠ [])
    (hwhole : ∀ c ∈ whole, c.isDigit = true) (hplaces : ∀ c ∈ places, c.isDigit = true) :
    readFloat? (whole ++ '.' :: places) =
      some (nearestDecimal false (Nat.ofDigitChars 10 (whole ++ places) 0) (-places.length)) := by
  have hspan := spanDigits_append hwhole (s := '.' :: places)
    (fun c hc => by obtain rfl := Option.some.inj hc; rfl) 0 0
  have hrest := fun n => spanDigits_append hplaces (s := []) (fun c hc => by cases hc) n 0
  simp only [List.append_nil, Nat.zero_add] at hspan hrest
  have hread : readDecimal? false (whole ++ '.' :: places) =
      some (nearestDecimal false (Nat.ofDigitChars 10 (whole ++ places) 0) (-places.length)) := by
    have hpos : ¬ (whole.length + places.length = 0) := by
      rw [Nat.add_eq_zero_iff, List.length_eq_zero_iff]
      exact fun h => hne h.1
    simp only [readDecimal?, hspan, hrest, if_neg hpos, Nat.ofDigitChars_append]
  cases whole with
  | nil => exact absurd rfl hne
  | cons c whole =>
    rw [List.cons_append] at hread ⊢
    rw [readFloat?_of_isDigit (hwhole c List.mem_cons_self), hread]

end Doubles

end Displays.Decimal
