import Displays.Edid.Identity
import Displays.Text.Scan
import Displays.Text.Utf8

/-!
# Decoding EDID

Only the base block of 128 octets is read; further blocks may follow, as long as their octets make
whole blocks. Length, header and checksum are judged in this order, so a block with a bad header
is reported as such whatever its checksum.

A descriptor begins with three zero octets, a tag at offset three and a payload at offset five. A
nonzero octet in front marks a detailed timing. Text ends at the first line feed and loses the
spaces and NULs behind it.
-/

namespace Displays.Edid

/-- The number of octets in a block. -/
def blockSize : Nat := 128

/-- The octets that open every base block. -/
def header : List UInt8 := [0x00, 0xff, 0xff, 0xff, 0xff, 0xff, 0xff, 0x00]

/-- Why octets are no EDID. -/
inductive Fault where
  /-- The octets do not make whole blocks. -/
  | length (size : Nat)
  /-- The octets do not open like a base block. -/
  | header
  /-- The octets of the base block do not sum to zero. -/
  | checksum
  deriving DecidableEq, Repr

/-- The description of a fault. -/
def Fault.message : Fault → String
  | .length size => s!"EDID length {size} is not a positive multiple of 128"
  | .header => "Invalid EDID header"
  | .checksum => "Invalid EDID checksum"

/-- The octet at an offset as a number. -/
def octet (bytes : List UInt8) (offset : Nat) : Nat :=
  (bytes[offset]?.getD 0).toNat

/-- The sum of octets, as an octet. -/
def blockSum (block : List UInt8) : UInt8 :=
  block.foldl (· + ·) 0

/-- The letter for five bits; what lies beyond the alphabet is a question mark. -/
def vendorLetter (n : Nat) : Char :=
  if 1 ≤ n ∧ n ≤ 26 then Char.ofNat (0x40 + n) else '?'

/-- The three letters of a maker, packed into five bits each. -/
def decodeVendor (packed : Nat) : String :=
  String.ofList
    [vendorLetter (packed / 1024 % 32), vendorLetter (packed / 32 % 32), vendorLetter (packed % 32)]

/-- The text in a payload. -/
def decodeText (payload : List UInt8) : List Char :=
  let line := payload.takeWhile (· ≠ 0x0a)
  Text.dropEnd (fun c => c = ' ' || c = Char.ofNat 0) (Text.Utf8.decodeLossy line)

/-- Reads a descriptor; octets too few for a payload define nothing. -/
def decodeDescriptor : List UInt8 → Descriptor
  | 0 :: 0 :: 0 :: tag :: _ :: payload =>
    let text := String.ofList (decodeText payload)
    if tag = 0xfc then .monitorName text
    else if tag = 0xff then .serialText text
    else if tag = 0xfe then .text text
    else if tag = 0xfd then .rangeLimits payload
    else .undefined
  | _ => .undefined

/-- The offsets of the descriptors, which have eighteen octets each. -/
def descriptorOffsets : List Nat := [54, 72, 90, 108]

/-- The identity in a base block. -/
def identityOf (block : List UInt8) : Identity where
  vendor := decodeVendor (256 * octet block 8 + octet block 9)
  productCode := octet block 10 + 256 * octet block 11
  serialNumber := octet block 12 + 256 * octet block 13 + 65536 * octet block 14 +
    16777216 * octet block 15
  week := octet block 16
  year := 1990 + octet block 17
  version := octet block 18
  revision := octet block 19
  widthCm := octet block 21
  heightCm := octet block 22
  descriptors := descriptorOffsets.map fun offset => decodeDescriptor ((block.drop offset).take 18)
  extensionCount := octet block 126

/-- The identity of the display that reports these octets. -/
def decode (bytes : List UInt8) : Except Fault Identity :=
  let block := bytes.take blockSize
  if bytes = [] ∨ bytes.length % blockSize ≠ 0 then .error (.length bytes.length)
  else if block.take 8 ≠ header then .error .header
  else if blockSum block ≠ 0 then .error .checksum
  else .ok (identityOf block)

/-- The identity, if the octets are an EDID. -/
def identity? (bytes : List UInt8) : Option Identity :=
  (decode bytes).toOption

end Displays.Edid
