/-!
# UTF-8

Octets are read one at a time. A sequence that breaks off is reported at once and the octet that
broke it is read afresh, so that each report covers a maximal ill-formed subpart. Strict reading
fails at the first report; lossy reading puts U+FFFD for each of them.
-/

namespace Displays.Text.Utf8

/-- The octets of one character. -/
def encodeChar (c : Char) : List UInt8 :=
  let n := c.toNat
  if n < 0x80 then [n.toUInt8]
  else if n < 0x800 then [(0xc0 + n / 0x40).toUInt8, (0x80 + n % 0x40).toUInt8]
  else if n < 0x10000 then
    [(0xe0 + n / 0x1000).toUInt8, (0x80 + n / 0x40 % 0x40).toUInt8, (0x80 + n % 0x40).toUInt8]
  else
    [(0xf0 + n / 0x40000).toUInt8, (0x80 + n / 0x1000 % 0x40).toUInt8,
      (0x80 + n / 0x40 % 0x40).toUInt8, (0x80 + n % 0x40).toUInt8]

/-- The octets of a text. -/
def encode (s : List Char) : List UInt8 :=
  s.flatMap encodeChar

/-- A sequence of octets that has begun and is not complete. -/
structure Pending where
  /-- The bits read so far. -/
  value : Nat
  /-- The least octet that may come next. -/
  least : UInt8
  /-- The greatest octet that may come next. -/
  greatest : UInt8
  /-- The number of octets still to come after the next one. -/
  more : Nat
  /-- The number of octets read so far. -/
  size : Nat
  deriving DecidableEq, Repr

/-- What a run of octets stands for. -/
inductive Piece where
  /-- A character. -/
  | char (c : Char)
  /-- Octets that no well-formed sequence continues in this way. -/
  | invalid (size : Nat)
  /-- A sequence cut short by the end of the input. -/
  | incomplete (size : Nat)
  deriving DecidableEq, Repr

/-- The effect of one octet. -/
inductive Step where
  /-- The octet ends a piece. -/
  | piece (p : Piece)
  /-- The octet needs others behind it. -/
  | pending (p : Pending)
  deriving DecidableEq, Repr

/-- Reads the first octet of a sequence. -/
def start (b : UInt8) : Step :=
  let n := b.toNat
  if n < 0x80 then .piece (.char (Char.ofNat n))
  else if n < 0xc2 then .piece (.invalid 1)
  else if n < 0xe0 then .pending ⟨n - 0xc0, 0x80, 0xbf, 0, 1⟩
  else if n = 0xe0 then .pending ⟨0, 0xa0, 0xbf, 1, 1⟩
  else if n = 0xed then .pending ⟨0xd, 0x80, 0x9f, 1, 1⟩
  else if n < 0xf0 then .pending ⟨n - 0xe0, 0x80, 0xbf, 1, 1⟩
  else if n = 0xf0 then .pending ⟨0, 0x90, 0xbf, 2, 1⟩
  else if n < 0xf4 then .pending ⟨n - 0xf0, 0x80, 0xbf, 2, 1⟩
  else if n = 0xf4 then .pending ⟨4, 0x80, 0x8f, 2, 1⟩
  else .piece (.invalid 1)

/-- Reads a further octet, or `none` if it does not belong to the sequence. -/
def Pending.next? (p : Pending) (b : UInt8) : Option Step :=
  if p.least ≤ b ∧ b ≤ p.greatest then
    let value := p.value * 0x40 + (b.toNat - 0x80)
    match p.more with
    | 0 => some (.piece (.char (Char.ofNat value)))
    | more + 1 => some (.pending ⟨value, 0x80, 0xbf, more, p.size + 1⟩)
  else none

/-- The pieces of the input, given the sequence that is open. -/
def piecesFrom : Option Pending → List UInt8 → List Piece
  | none, [] => []
  | some p, [] => [.incomplete p.size]
  | none, b :: rest =>
    match start b with
    | .piece piece => piece :: piecesFrom none rest
    | .pending p => piecesFrom (some p) rest
  | some p, b :: rest =>
    match p.next? b with
    | some (.piece piece) => piece :: piecesFrom none rest
    | some (.pending q) => piecesFrom (some q) rest
    | none =>
      .invalid p.size ::
        match start b with
        | .piece piece => piece :: piecesFrom none rest
        | .pending q => piecesFrom (some q) rest

/-- The input as characters and ill-formed subparts. -/
def pieces (bytes : List UInt8) : List Piece :=
  piecesFrom none bytes

/-- The character that stands for a piece in lossy reading. -/
def Piece.toChar : Piece → Char
  | .char c => c
  | .invalid _ => '\uFFFD'
  | .incomplete _ => '\uFFFD'

/-- Reads octets as text, with U+FFFD for each ill-formed subpart. -/
def decodeLossy (bytes : List UInt8) : List Char :=
  (pieces bytes).map Piece.toChar

/-- Why octets are not text. -/
inductive Fault where
  /-- At this offset stand octets that begin no well-formed sequence. -/
  | invalid (size offset : Nat)
  /-- The sequence at this offset is cut short. -/
  | incomplete (offset : Nat)
  deriving DecidableEq, Repr

/-- The description of a fault. -/
def Fault.message : Fault → String
  | .invalid size offset => s!"invalid utf-8 sequence of {size} bytes from index {offset}"
  | .incomplete offset => s!"incomplete utf-8 byte sequence from index {offset}"

/-- The characters of the pieces, the first of which begins at `offset`. -/
def charsOf : Nat → List Piece → Except Fault (List Char)
  | _, [] => .ok []
  | offset, .char c :: rest =>
    match charsOf (offset + c.utf8Size) rest with
    | .ok cs => .ok (c :: cs)
    | .error fault => .error fault
  | offset, .invalid size :: _ => .error (.invalid size offset)
  | offset, .incomplete _ :: _ => .error (.incomplete offset)

/-- Reads octets as text, or reports the first ill-formed subpart. -/
def decode (bytes : List UInt8) : Except Fault (List Char) :=
  charsOf 0 (pieces bytes)

/-- Reads octets as text if they are well formed. -/
def decode? (bytes : List UInt8) : Option (List Char) :=
  (decode bytes).toOption

end Displays.Text.Utf8
