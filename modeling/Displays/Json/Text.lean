import Displays.Json.Token
import Displays.Text.Utf8

/-!
# What JSON strings say

Between quotes, the quote, the backslash and the controls below the space are escaped and all else
stands as its UTF-8 octets. Reading resolves escapes and fails on lone surrogates and on octets
that are not UTF-8.
-/

namespace Displays.Json

open Displays.Text

/-- The lower-case hexadecimal digit of a number below sixteen. -/
def hexDigit (n : Nat) : UInt8 :=
  if n < 10 then UInt8.ofNat (0x30 + n) else UInt8.ofNat (0x57 + n)

/-- The octets of one character between quotes. -/
def escapeChar (c : Char) : List UInt8 :=
  match c.toNat with
  | 0x22 => [0x5c, 0x22]
  | 0x5c => [0x5c, 0x5c]
  | 0x08 => [0x5c, 0x62]
  | 0x0c => [0x5c, 0x66]
  | 0x0a => [0x5c, 0x6e]
  | 0x0d => [0x5c, 0x72]
  | 0x09 => [0x5c, 0x74]
  | n =>
    if n < 0x20 then [0x5c, 0x75, 0x30, 0x30, hexDigit (n / 16), hexDigit (n % 16)]
    else Utf8.encodeChar c

/-- The octets of a text between quotes. -/
def escape (s : List Char) : List UInt8 :=
  s.flatMap escapeChar

/-- The octets that a string stands for, with its escapes resolved. -/
def unescape? : List UInt8 → Option (List UInt8)
  | [] => some []
  | 0x5c :: 0x75 :: a :: b :: c :: d :: rest => do
    let n ← hexValue4? a b c d
    if 0xdc00 ≤ n ∧ n < 0xe000 then none
    else if 0xd800 ≤ n ∧ n < 0xdc00 then
      match rest with
      | 0x5c :: 0x75 :: e :: f :: g :: h :: rest =>
        let low ← hexValue4? e f g h
        if 0xdc00 ≤ low ∧ low < 0xe000 then
          let code := 0x10000 + (n - 0xd800) * 0x400 + (low - 0xdc00)
          return Utf8.encodeChar (Char.ofNat code) ++ (← unescape? rest)
        else none
      | _ => none
    else return Utf8.encodeChar (Char.ofNat n) ++ (← unescape? rest)
  | 0x5c :: e :: rest => do
    let b ← letterEscape? e
    return b :: (← unescape? rest)
  | b :: rest => do return b :: (← unescape? rest)

/-- The text of a string. -/
def text? (raw : List UInt8) : Option (List Char) := do
  Utf8.decode? (← unescape? raw)

/-- The text of a string that is written without escapes. -/
def plainText? (raw : List UInt8) : Option (List Char) :=
  if raw.contains 0x5c then none else Utf8.decode? raw

end Displays.Json
