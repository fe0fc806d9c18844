/-!
# White space, digits and lines, and scanning a line from its front

White space are the characters with the Unicode property White_Space, more than the five of
`Char.isWhitespace`. Decimal digits are those of Unicode's general category Nd, which come in runs
of ten, each from zero to nine.

A line ends at a line feed, or at a carriage return directly before one; what follows the last
line feed is a line unless it is empty. A text that ends with a line feed falls apart from
whatever is put behind it, which is what makes a line-wise reader compositional.

Each scanner takes what it looks for off the front of a text, or fails. Those for runs take the
longest one. Scanning to the last occurrence of something tries the places from the back.
-/

namespace Displays.Text

/-! ## White space -/

/-- The character has the Unicode property White_Space. -/
def isBlank (c : Char) : Bool :=
  let n := c.toNat
  (0x9 ≤ n && n ≤ 0xd) || n == 0x20 || n == 0x85 || n == 0xa0 || n == 0x1680 ||
    (0x2000 ≤ n && n ≤ 0x200a) || n == 0x2028 || n == 0x2029 || n == 0x202f || n == 0x205f ||
    n == 0x3000

/-- The characters left after the longest run of `p` at the end is dropped. -/
def dropEnd (p : Char → Bool) (s : List Char) : List Char :=
  (s.reverse.dropWhile p).reverse

/-- Drops white space at both ends. -/
def trim (s : List Char) : List Char :=
  dropEnd isBlank (s.dropWhile isBlank)

/-! ## Decimal digits -/

/-- The zeros of all scripts, in the order of their code points. -/
def decimalZeros : List Nat :=
  [
    0x30, 0x660, 0x6f0, 0x7c0, 0x966, 0x9e6, 0xa66, 0xae6, 0xb66, 0xbe6, 0xc66, 0xce6, 0xd66,
    0xde6, 0xe50, 0xed0, 0xf20, 0x1040, 0x1090, 0x17e0, 0x1810, 0x1946, 0x19d0, 0x1a80, 0x1a90,
    0x1b50, 0x1bb0, 0x1c40, 0x1c50, 0xa620, 0xa8d0, 0xa900, 0xa9d0, 0xa9f0, 0xaa50, 0xabf0,
    0xff10, 0x104a0, 0x10d30, 0x10d40, 0x11066, 0x110f0, 0x11136, 0x111d0, 0x112f0, 0x11450,
    0x114d0, 0x11650, 0x116c0, 0x116d0, 0x116da, 0x11730, 0x118e0, 0x11950, 0x11bf0, 0x11c50,
    0x11d50, 0x11da0, 0x11f50, 0x16130, 0x16a60, 0x16ac0, 0x16b50, 0x16d70, 0x1ccf0, 0x1d7ce,
    0x1d7d8, 0x1d7e2, 0x1d7ec, 0x1d7f6, 0x1e140, 0x1e2f0, 0x1e4f0, 0x1e5f1, 0x1e950, 0x1fbf0
  ]

/-- The character is a decimal digit of some script. -/
def isDecimalDigit (c : Char) : Bool :=
  decimalZeros.any fun first => first ≤ c.toNat && c.toNat < first + 10

/-- The ASCII digits are decimal digits. -/
theorem isDecimalDigit_of_isDigit {c : Char} (h : c.isDigit = true) : isDecimalDigit c = true := by
  simp only [Char.isDigit, ge_iff_le, Bool.and_eq_true, decide_eq_true_eq] at h
  obtain ⟨h₁, h₂⟩ := h
  have h₁ : 48 ≤ c.toNat := h₁
  have h₂ : c.toNat ≤ 57 := h₂
  simp only [isDecimalDigit, decimalZeros, List.any_cons, Bool.or_eq_true, Bool.and_eq_true,
    decide_eq_true_eq]
  exact Or.inl ⟨h₁, by omega⟩

/-! ## Lines -/

/-- The lines of a text, without their ends. -/
def lines : List Char → List (List Char)
  | [] => []
  | '\r' :: '\n' :: rest => [] :: lines rest
  | c :: rest =>
    if c = '\n' then [] :: lines rest
    else
      match lines rest with
      | [] => [[c]]
      | line :: more => (c :: line) :: more

/-- The empty text has no lines. -/
@[simp] theorem lines_nil : lines [] = [] := by simp [lines]

/-- A line feed ends an empty line. -/
@[simp] theorem lines_newline (s : List Char) : lines ('\n' :: s) = [] :: lines s := by
  simp [lines]

example : lines "a\r\n\nb\r".toList = [['a'], [], ['b', '\r']] := by simp [lines]

/-! ## Scanners -/

/-- Takes one blank. -/
def blank? : List Char → Option (List Char)
  | c :: rest => if isBlank c then some rest else none
  | [] => none

/-- Takes blanks, at least one. -/
def blanks? (s : List Char) : Option (List Char) :=
  (blank? s).map fun rest => rest.dropWhile isBlank

/-- Takes these characters. -/
def literal? : List Char → List Char → Option (List Char)
  | [], s => some s
  | _ :: _, [] => none
  | c :: cs, d :: s => if c = d then literal? cs s else none

/-- Takes characters that satisfy `p`, at least one. -/
def run? (p : Char → Bool) (s : List Char) : Option (List Char × List Char) :=
  match s.takeWhile p with
  | [] => none
  | front => some (front, s.dropWhile p)

/-- Takes characters other than blanks. -/
def word? : List Char → Option (List Char × List Char) :=
  run? fun c => !isBlank c

/-- Takes decimal digits. -/
def digits? : List Char → Option (List Char × List Char) :=
  run? isDecimalDigit

/-- Takes decimal digits with an optional minus sign. -/
def signedDigits? (s : List Char) : Option (List Char × List Char) :=
  match s with
  | '-' :: rest => (digits? rest).map fun (front, back) => ('-' :: front, back)
  | s => digits? s

/-- Takes exactly `n` characters that satisfy `p`. -/
def exactly? (p : Char → Bool) : Nat → List Char → Option (List Char × List Char)
  | 0, s => some ([], s)
  | _ + 1, [] => none
  | n + 1, c :: s =>
    if p c then (exactly? p n s).map fun (front, back) => (c :: front, back) else none

/-- What `p?` finds at the last place where it finds something. -/
def last? {α : Type} (p? : List Char → Option α) : List Char → Option α
  | [] => p? []
  | c :: rest =>
    match last? p? rest with
    | some a => some a
    | none => p? (c :: rest)

end Displays.Text
