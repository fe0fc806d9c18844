import Displays.Json.Numeral

/-!
# JSON tokens

The octets of a JSON text are cut into tokens. Inside a string only the form of the escapes is
looked at, so octets that are not UTF-8 and escapes of lone surrogates pass; what a string says is
decided where it is used.
-/

namespace Displays.Json

/-- A token of JSON. -/
inductive Token where
  /-- An opening brace. -/
  | openObject
  /-- A closing brace. -/
  | closeObject
  /-- An opening bracket. -/
  | openArray
  /-- A closing bracket. -/
  | closeArray
  /-- A colon. -/
  | colon
  /-- A comma. -/
  | comma
  /-- The word for the empty value. -/
  | null
  /-- A truth value. -/
  | bool (b : Bool)
  /-- A number. -/
  | number (n : Numeral)
  /-- A string, as the octets between its quotes. -/
  | string (raw : List UInt8)
  deriving DecidableEq, Repr

/-- The value of a hexadecimal digit. -/
def hexValue? (b : UInt8) : Option Nat :=
  let n := b.toNat
  if 0x30 ≤ n ∧ n ≤ 0x39 then some (n - 0x30)
  else if 0x61 ≤ n ∧ n ≤ 0x66 then some (n - 0x57)
  else if 0x41 ≤ n ∧ n ≤ 0x46 then some (n - 0x37)
  else none

/-- The value of four hexadecimal digits. -/
def hexValue4? (a b c d : UInt8) : Option Nat := do
  let a ← hexValue? a
  let b ← hexValue? b
  let c ← hexValue? c
  let d ← hexValue? d
  return ((a * 16 + b) * 16 + c) * 16 + d

/-- The character that a letter stands for after a backslash. -/
def letterEscape? (b : UInt8) : Option UInt8 :=
  match b with
  | 0x22 => some 0x22
  | 0x5c => some 0x5c
  | 0x2f => some 0x2f
  | 0x62 => some 0x08
  | 0x66 => some 0x0c
  | 0x6e => some 0x0a
  | 0x72 => some 0x0d
  | 0x74 => some 0x09
  | _ => none

/-- Splits off the octets of a string up to its closing quote. -/
def stringBody? : List UInt8 → Option (List UInt8 × List UInt8)
  | [] => none
  | 0x22 :: rest => some ([], rest)
  | 0x5c :: 0x75 :: a :: b :: c :: d :: rest => do
    let _ ← hexValue4? a b c d
    let (raw, rest) ← stringBody? rest
    return (0x5c :: 0x75 :: a :: b :: c :: d :: raw, rest)
  | 0x5c :: e :: rest => do
    let _ ← letterEscape? e
    let (raw, rest) ← stringBody? rest
    return (0x5c :: e :: raw, rest)
  | b :: rest =>
    if b < 0x20 ∨ b = 0x5c then none
    else do
      let (raw, rest) ← stringBody? rest
      return (b :: raw, rest)

/-- Splits off the digits at the front. -/
def spanDigits : List UInt8 → List Nat × List UInt8
  | [] => ([], [])
  | b :: rest =>
    if 0x30 ≤ b ∧ b ≤ 0x39 then
      let (digits, rest) := spanDigits rest
      ((b.toNat - 0x30) :: digits, rest)
    else ([], b :: rest)

/-- Splits off the digits after a point, if there is one. -/
def fraction? : List UInt8 → Option (List Nat × List UInt8)
  | 0x2e :: rest =>
    match spanDigits rest with
    | ([], _) => none
    | span => some span
  | rest => some ([], rest)

/-- Splits off the sign of an exponent; true for a minus sign. -/
def exponentSign : List UInt8 → Bool × List UInt8
  | 0x2b :: rest => (false, rest)
  | 0x2d :: rest => (true, rest)
  | rest => (false, rest)

/-- Splits off the exponent, if there is one. -/
def exponent? : List UInt8 → Option (Option Int × List UInt8)
  | [] => some (none, [])
  | b :: rest =>
    if b = 0x65 ∨ b = 0x45 then
      let sign := exponentSign rest
      match spanDigits sign.2 with
      | ([], _) => none
      | (digits, rest) =>
        let n : Int := ofDigits 0 digits
        some (some (if sign.1 then -n else n), rest)
    else some (none, b :: rest)

/-- Splits off an unsigned numeral. A zero in front stands alone. -/
def unsigned? (negative : Bool) (s : List UInt8) : Option (Numeral × List UInt8) :=
  match spanDigits s with
  | ([], _) => none
  | (0 :: _ :: _, _) => none
  | (whole, rest) => do
    let (fraction, rest) ← fraction? rest
    let (exponent, rest) ← exponent? rest
    return (⟨negative, whole, fraction, exponent⟩, rest)

/-- Reading a string leaves less than there was. -/
theorem length_of_stringBody? {s raw rest : List UInt8} (h : stringBody? s = some (raw, rest)) :
    rest.length < s.length := by
  fun_induction stringBody? s generalizing raw rest <;>
    simp_all [Option.bind_eq_some_iff] <;> grind

/-- Taking a run of digits leaves no more than there was. -/
theorem length_spanDigits (s : List UInt8) : (spanDigits s).2.length ≤ s.length := by
  fun_induction spanDigits s <;> simp_all
  omega

private theorem length_spanDigits_lt {s : List UInt8} (h : (spanDigits s).1 ≠ []) :
    (spanDigits s).2.length < s.length := by
  cases s with
  | nil => simp [spanDigits] at h
  | cons b rest =>
    have := length_spanDigits rest
    unfold spanDigits at h ⊢
    split
    · simp
      omega
    · simp_all

private theorem length_of_fraction? {s rest : List UInt8} {digits : List Nat}
    (h : fraction? s = some (digits, rest)) : rest.length ≤ s.length := by
  unfold fraction? at h
  split at h
  · rename_i tail
    have := length_spanDigits tail
    split at h <;> simp_all
    omega
  · simp_all

private theorem length_exponentSign (s : List UInt8) : (exponentSign s).2.length ≤ s.length := by
  unfold exponentSign
  split <;> simp

private theorem length_of_exponent? {s rest : List UInt8} {e : Option Int}
    (h : exponent? s = some (e, rest)) : rest.length ≤ s.length := by
  unfold exponent? at h
  split at h
  · simp_all
  · rename_i tail
    split at h
    · have hsign := length_exponentSign tail
      have hspan := length_spanDigits (exponentSign tail).2
      simp only at h
      split at h
      · simp at h
      · simp_all
        omega
    · simp_all

/-- Reading a number leaves less than there was. -/
theorem length_of_unsigned? {s rest : List UInt8} {negative : Bool} {n : Numeral}
    (h : unsigned? negative s = some (n, rest)) : rest.length < s.length := by
  unfold unsigned? at h
  split at h
  · simp at h
  · simp at h
  · rename_i whole after hne _ hspan
    simp only [bind, Option.bind_eq_some_iff, Prod.exists, pure, Option.some.injEq,
      Prod.mk.injEq] at h
    obtain ⟨_, _, hf, _, _, he, _, rfl⟩ := h
    have h₁ := length_of_fraction? hf
    have h₂ := length_of_exponent? he
    have h₃ : (spanDigits s).2.length < s.length :=
      length_spanDigits_lt (by rw [hspan]; exact fun h => hne h)
    rw [hspan] at h₃
    exact Nat.lt_of_le_of_lt (Nat.le_trans h₂ h₁) h₃

/-- The tokens of a JSON text. -/
def tokens? : List UInt8 → Option (List Token)
  | [] => some []
  | 0x6e :: 0x75 :: 0x6c :: 0x6c :: rest => (tokens? rest).map (.null :: ·)
  | 0x74 :: 0x72 :: 0x75 :: 0x65 :: rest => (tokens? rest).map (.bool true :: ·)
  | 0x66 :: 0x61 :: 0x6c :: 0x73 :: 0x65 :: rest => (tokens? rest).map (.bool false :: ·)
  | 0x20 :: rest => tokens? rest
  | 0x09 :: rest => tokens? rest
  | 0x0a :: rest => tokens? rest
  | 0x0d :: rest => tokens? rest
  | 0x7b :: rest => (tokens? rest).map (.openObject :: ·)
  | 0x7d :: rest => (tokens? rest).map (.closeObject :: ·)
  | 0x5b :: rest => (tokens? rest).map (.openArray :: ·)
  | 0x5d :: rest => (tokens? rest).map (.closeArray :: ·)
  | 0x3a :: rest => (tokens? rest).map (.colon :: ·)
  | 0x2c :: rest => (tokens? rest).map (.comma :: ·)
  | 0x22 :: rest =>
    match h : stringBody? rest with
    | none => none
    | some (raw, after) =>
      have := length_of_stringBody? h
      (tokens? after).map (.string raw :: ·)
  | 0x2d :: rest =>
    match h : unsigned? true rest with
    | none => none
    | some (n, after) =>
      have := length_of_unsigned? h
      (tokens? after).map (.number n :: ·)
  | b :: rest =>
    match h : unsigned? false (b :: rest) with
    | none => none
    | some (n, after) =>
      have := length_of_unsigned? h
      (tokens? after).map (.number n :: ·)
termination_by s => s.length
decreasing_by all_goals simp_all <;> omega

end Displays.Json
