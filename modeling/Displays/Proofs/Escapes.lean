import Displays.Json.Text
import Displays.Proofs.Encoding

/-!
# Escaped text

What is written between the quotes of a string ends at the closing quote, and stands for the text
that was written. Each character is written as one chunk: a letter behind a backslash, a number
behind a backslash, or its own octets, none of which means anything else.
-/

namespace Displays.Json

open Displays.Text

/-- These octets between quotes stand for those octets, whatever comes behind them. -/
inductive Chunk : List UInt8 → List UInt8 → Prop where
  /-- A letter stands behind a backslash. -/
  | letter {e b : UInt8} (letter : letterEscape? e = some b) : Chunk [0x5c, e] [b]
  /-- The number of a character stands behind a backslash. -/
  | number {a b c d : UInt8} {n : Nat} (value : hexValue4? a b c d = some n) (low : n < 0xd800) :
    Chunk [0x5c, 0x75, a, b, c, d] (Utf8.encodeChar (Char.ofNat n))
  /-- The octets stand for themselves. -/
  | plain {bytes : List UInt8} (plain : ∀ b ∈ bytes, 0x20 ≤ b ∧ b ≠ 0x22 ∧ b ≠ 0x5c) :
    Chunk bytes bytes

variable {written octets : List UInt8} {e b : UInt8}

/-- The letter behind a backslash is not the one that announces a number. -/
theorem ne_of_letterEscape? (h : letterEscape? e = some b) : e ≠ 0x75 := by
  rintro rfl
  cases h

namespace Chunk

/-- A chunk belongs to the string in which it stands. -/
theorem stringBody?_append (h : Chunk written octets) (s : List UInt8) :
    stringBody? (written ++ s) = (stringBody? s).map fun p => (written ++ p.1, p.2) := by
  cases h with
  | letter h =>
    have hne := ne_of_letterEscape? h
    rw [List.cons_append, List.cons_append, List.nil_append, stringBody?, h]
    · cases stringBody? s <;> rfl
    · exact fun _ _ _ _ _ h => absurd h hne
  | number h =>
    simp only [List.cons_append, List.nil_append, stringBody?, h]
    cases stringBody? s <;> rfl
  | plain h =>
    induction written with
    | nil => cases hs : stringBody? s <;> simp only [List.nil_append, hs, Option.map]
    | cons b bytes ih =>
      obtain ⟨⟨hlow, hquote, hbackslash⟩, hbytes⟩ := List.forall_mem_cons.mp h
      have hin : ¬ (b < 0x20 ∨ b = 0x5c) := not_or.mpr ⟨UInt8.not_lt.mpr hlow, hbackslash⟩
      rw [List.cons_append, stringBody?, if_neg hin, ih hbytes]
      · cases stringBody? s <;> rfl
      · exact hquote
      · exact fun _ _ _ _ _ h => absurd h hbackslash
      · exact fun _ _ h => absurd h hbackslash

/-- A chunk stands for its octets in the string in which it stands. -/
theorem unescape?_append (h : Chunk written octets) (s : List UInt8) :
    unescape? (written ++ s) = (unescape? s).map (octets ++ ·) := by
  cases h with
  | letter h =>
    have hne := ne_of_letterEscape? h
    rw [List.cons_append, List.cons_append, List.nil_append, unescape?, h]
    · cases unescape? s <;> rfl
    · exact fun _ _ _ _ _ h => absurd h hne
  | @number a b c d n h hlow =>
    have hlone : ¬ (0xdc00 ≤ n ∧ n < 0xe000) := by omega
    have hpair : ¬ (0xd800 ≤ n ∧ n < 0xdc00) := by omega
    simp only [List.cons_append, List.nil_append, unescape?, h, Option.bind_eq_bind,
      Option.bind_some, hlone, hpair, if_false]
    cases unescape? s <;> rfl
  | plain h =>
    induction written with
    | nil => cases hs : unescape? s <;> simp only [List.nil_append, hs, Option.map]
    | cons b bytes ih =>
      obtain ⟨⟨_, _, hbackslash⟩, hbytes⟩ := List.forall_mem_cons.mp h
      rw [List.cons_append, unescape?, ih hbytes]
      · cases unescape? s <;> rfl
      · exact fun _ _ _ _ _ h => absurd h hbackslash
      · exact fun _ _ h => absurd h hbackslash

end Chunk

private theorem hexValue?_hexDigit {n : Nat} (h : n < 16) : hexValue? (hexDigit n) = some n := by
  match n with
  | 0 | 1 | 2 | 3 | 4 | 5 | 6 | 7 | 8 | 9 | 10 | 11 | 12 | 13 | 14 | 15 => rfl
  | n + 16 => omega

/-- The octets of a character stand for themselves unless it has to be escaped. -/
theorem plain_encodeChar {c : Char} (hlow : 0x20 ≤ c.toNat) (hquote : c.toNat ≠ 0x22)
    (hbackslash : c.toNat ≠ 0x5c) : ∀ b ∈ Utf8.encodeChar c, 0x20 ≤ b ∧ b ≠ 0x22 ∧ b ≠ 0x5c := by
  intro b hb
  by_cases hone : c.toNat < 0x80
  · rw [Utf8.encodeChar_of_lt hone, List.mem_singleton] at hb
    have htoNat : b.toNat = c.toNat := by rw [hb, Utf8.toNat_toUInt8 (by omega)]
    refine ⟨?_, ?_, ?_⟩
    · rw [UInt8.le_iff_toNat_le, htoNat]
      exact hlow
    · rintro rfl
      exact hquote htoNat.symm
    · rintro rfl
      exact hbackslash htoNat.symm
  · have hle : 0x80 ≤ b := Utf8.le_of_mem_encodeChar (Nat.not_lt.mp hone) hb
    refine ⟨UInt8.le_trans (by decide) hle, ?_, ?_⟩
    · rintro rfl
      exact absurd hle (by decide)
    · rintro rfl
      exact absurd hle (by decide)

/-- A character is written as a chunk that stands for its octets. -/
theorem chunk_escapeChar (c : Char) : Chunk (escapeChar c) (Utf8.encodeChar c) := by
  have hone : ∀ n : Nat, c.toNat = n → n < 0x80 → Utf8.encodeChar c = [n.toUInt8] := by
    rintro n rfl h
    exact Utf8.encodeChar_of_lt h
  rw [escapeChar]
  split
  case h_1 h => exact hone _ h (by decide) ▸ .letter rfl
  case h_2 h => exact hone _ h (by decide) ▸ .letter rfl
  case h_3 h => exact hone _ h (by decide) ▸ .letter rfl
  case h_4 h => exact hone _ h (by decide) ▸ .letter rfl
  case h_5 h => exact hone _ h (by decide) ▸ .letter rfl
  case h_6 h => exact hone _ h (by decide) ▸ .letter rfl
  case h_7 h => exact hone _ h (by decide) ▸ .letter rfl
  case h_8 hquote hbackslash _ _ _ _ _ =>
    by_cases hlow : c.toNat < 0x20
    · have hhigh := hexValue?_hexDigit (n := c.toNat / 16) (by omega)
      have hrest := hexValue?_hexDigit (n := c.toNat % 16) (by omega)
      have hvalue : hexValue4? 0x30 0x30 (hexDigit (c.toNat / 16)) (hexDigit (c.toNat % 16)) =
          some c.toNat := by
        have hzero : hexValue? 0x30 = some 0 := rfl
        rw [hexValue4?, hzero, hhigh, hrest]
        exact congrArg some (by omega)
      have hchunk := Chunk.number hvalue (by omega)
      rw [Char.ofNat_toNat] at hchunk
      rwa [if_pos hlow]
    · rw [if_neg hlow]
      exact .plain (plain_encodeChar (Nat.not_lt.mp hlow) hquote hbackslash)

/-- An escaped text ends at the closing quote. -/
theorem stringBody?_escape (s : List Char) (rest : List UInt8) :
    stringBody? (escape s ++ 0x22 :: rest) = some (escape s, rest) := by
  induction s with
  | nil => rfl
  | cons c s ih =>
    rw [escape, List.flatMap_cons, ← escape, List.append_assoc,
      (chunk_escapeChar c).stringBody?_append, ih, Option.map_some]

private theorem unescape?_escape (s : List Char) : unescape? (escape s) = some (Utf8.encode s) := by
  induction s with
  | nil => rfl
  | cons c s ih =>
    rw [escape, List.flatMap_cons, ← escape, (chunk_escapeChar c).unescape?_append, ih,
      Option.map_some, Utf8.encode, Utf8.encode, List.flatMap_cons]

/-- Text that is written between quotes is read back. -/
theorem text?_escape (s : List Char) : text? (escape s) = some s := by
  rw [text?, unescape?_escape]
  exact Utf8.decode?_encode s

end Displays.Json
