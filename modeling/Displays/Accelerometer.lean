import Displays.Fault
import Displays.Decimal.Integer
import Displays.Property
import Displays.Text.Scan
import Displays.Text.Utf8

/-!
# Accelerometers

A device offers one number for each of its three axes. The axis along which gravity is strongest
tells which edge points up; of two equal ones the screen's normal loses to its edges, and the
sideways edge to the upright one.
-/

namespace Displays

open Decimal (Bounds readInt)

/-- The strength of an acceleration in 64 bits. The least number has no positive counterpart there
and stays as it is. -/
def strength (n : Int) : Int :=
  if n = -Int.ofNat (Nat.pow 2 63) then n else n.natAbs

/-- The edge that points up, given the acceleration in device coordinates. -/
def Tilt.ofGravity (x y z : Int) : Tilt :=
  if strength x = 0 ∧ strength y = 0 ∧ strength z = 0 then undefined
  else if strength x < strength z ∧ strength y < strength z then
    if 0 < z then faceUp else faceDown
  else if strength x ≤ strength y then
    if 0 < y then topUp else topDown
  else if x < 0 then leftUp
  else rightUp

/-- An accelerometer, as the contents of the files of its axes; none for a file that is missing. -/
structure Accelerometer where
  /-- The file of the axis to the right. -/
  x : Option (List UInt8)
  /-- The file of the axis upward. -/
  y : Option (List UInt8)
  /-- The file of the axis out of the screen. -/
  z : Option (List UInt8)
  deriving DecidableEq, Repr

/-- The number in the file of an axis, with white space around it. -/
def readAxis : Option (List UInt8) → Except IoFault Int
  | none => .error .notFound
  | some bytes =>
    match Text.Utf8.decode? bytes with
    | none => .error .invalidData
    | some text =>
      match readInt (.signed 64) (Text.trim text) with
      | .error _ => .error .invalidData
      | .ok n => .ok n

/-- The tilt of the device. The first axis that cannot be read decides the fault. -/
def Accelerometer.read (a : Accelerometer) : Except IoFault Tilt := do
  let x ← readAxis a.x
  let y ← readAxis a.y
  let z ← readAxis a.z
  return .ofGravity x y z

end Displays
