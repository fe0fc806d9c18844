import Displays.Decimal.Shortest

/-!
# Display identities

What a display says about itself: who made it, when, and the texts in its four descriptors. The
display id joins vendor, product code and serial number, and so names one physical display
whichever connector it hangs on.
-/

namespace Displays

/-- One of the four slots behind the standard timings. -/
inductive Descriptor where
  /-- A detailed timing, or a kind of descriptor that is not interpreted. -/
  | undefined
  /-- The name of the monitor. -/
  | monitorName (text : String)
  /-- The serial number as a text. -/
  | serialText (text : String)
  /-- A text without fixed meaning. -/
  | text (text : String)
  /-- The range limits, not interpreted. -/
  | rangeLimits (bytes : List UInt8)
  deriving DecidableEq, Repr

/-- The identity of a display. -/
structure Identity where
  /-- Three letters for the maker. -/
  vendor : String
  /-- The maker's number of the product. -/
  productCode : Nat
  /-- The serial number of this display. -/
  serialNumber : Nat
  /-- The week of manufacture. -/
  week : Nat
  /-- The year of manufacture. -/
  year : Nat
  /-- The version of the data format. -/
  version : Nat
  /-- The revision of the data format. -/
  revision : Nat
  /-- The width in centimetres; zero if only an aspect ratio is known. -/
  widthCm : Nat
  /-- The height in centimetres; zero if only an aspect ratio is known. -/
  heightCm : Nat
  /-- The four descriptors. -/
  descriptors : List Descriptor
  /-- The number of further blocks the display announces. -/
  extensionCount : Nat
  deriving DecidableEq, Repr

namespace Identity

/-- The first monitor name among the descriptors. -/
def monitorName? (i : Identity) : Option String :=
  i.descriptors.findSome? fun
    | .monitorName text => some text
    | _ => none

/-- The first serial text among the descriptors. -/
def serialText? (i : Identity) : Option String :=
  i.descriptors.findSome? fun
    | .serialText text => some text
    | _ => none

end Identity

/-- The upper-case hexadecimal digit of a number below sixteen. -/
def upperHexDigit (n : Nat) : Char :=
  if n < 10 then Char.ofNat (0x30 + n) else Char.ofNat (0x37 + n)

/-- Four upper-case hexadecimal digits of a number below `2 ^ 16`. -/
def upperHex4 (n : Nat) : List Char :=
  [upperHexDigit (n / 4096 % 16), upperHexDigit (n / 256 % 16), upperHexDigit (n / 16 % 16),
    upperHexDigit (n % 16)]

/-- The key under which the options of this display are remembered. -/
def Identity.displayId (i : Identity) : String :=
  String.ofList (i.vendor.toList ++ '-' :: upperHex4 i.productCode ++
    '-' :: Decimal.digitChars i.serialNumber)

end Displays
