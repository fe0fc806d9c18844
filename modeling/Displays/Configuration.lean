import Displays.Edid.Decode
import Displays.Geometry
import Displays.Property

/-!
# Configurations

What the hardware reports of its outputs, or is asked to make of them. Identifiers may repeat;
looking one up finds its first output. A configuration is valid if each output by itself is: its
mode index lies in range, its scale is finite and positive, and if it is used it is connected and
spans addressable coordinates. Outputs may overlap, which is how mirroring is requested.
-/

namespace Displays

/-- An output of the hardware. -/
structure Output where
  /-- The name of the connector. -/
  id : OutputId
  /-- A display hangs on the connector. -/
  connected : Bool
  /-- The output shows a picture. -/
  used : Bool
  /-- The position of the picture. -/
  topLeft : Point
  /-- The index of the current mode. -/
  modeIndex : Nat
  /-- The modes on offer. -/
  modes : List Mode
  /-- How far the display is powered. -/
  power : PowerMode
  /-- Device pixels per pixel. -/
  scale : Float
  /-- The kind of device. -/
  form : FormFactor
  /-- The extent of the display. -/
  size : PhysicalSize
  /-- The EDID of the display, if it gives one. -/
  edid : Option (List UInt8)
  deriving BEq, Repr

/-- The current mode, if there is one. -/
def Output.mode? (o : Output) : Option Mode :=
  o.modes[o.modeIndex]?

/-- All outputs, in the order of the hardware. -/
structure Configuration where
  /-- The outputs. -/
  outputs : List Output := []
  deriving BEq, Repr

namespace Configuration

/-- The first output with this name. -/
def output? (c : Configuration) (id : OutputId) : Option Output :=
  c.outputs.find? fun o => o.id = id

/-- Changes the first output that satisfies `p`. -/
def modifyFirst (p : Output → Bool) (f : Output → Output) : List Output → List Output
  | [] => []
  | o :: outputs => if p o then f o :: outputs else o :: modifyFirst p f outputs

/-- Changes the first output with this name. -/
def modify (c : Configuration) (id : OutputId) (f : Output → Output) : Configuration :=
  ⟨modifyFirst (fun o => o.id = id) f c.outputs⟩

end Configuration

/-- The least coordinate that can be addressed. -/
def leastCoordinate : Int := -32768

/-- The greatest coordinate that can be addressed. -/
def greatestCoordinate : Int := 32767

/-- What is wrong with a configuration or with a change to a screen. -/
inductive Defect where
  /-- The output has no mode with its index. -/
  | modeIndex (id : OutputId) (index count : Nat)
  /-- The scale of the output is not finite and positive. -/
  | scale (id : OutputId) (scale : Float)
  /-- The output is used without being connected. -/
  | disconnected (id : OutputId)
  /-- The output is used without having modes. -/
  | noModes (id : OutputId)
  /-- The picture of the output leaves the addressable range. -/
  | extent (id : OutputId) (left top right bottom : Int)
  /-- A screen is to have a scale that is not finite and positive. -/
  | screenScale (id : OutputId) (scale : Float)
  /-- A screen is to have a mode it does not offer. -/
  | screenModeIndex (id : OutputId) (index count : Nat)
  /-- A screen is to have a size that none of its modes has. -/
  | screenSize (id : OutputId) (size : Resolution)
  deriving DecidableEq, Repr

/-- The description of a defect. -/
def Defect.message : Defect → String
  | modeIndex id index count => s!"{id}: mode index {index} out of range ({count} modes)"
  | scale id s => s!"{id}: scale must be positive, got {Decimal.plainText s}"
  | disconnected id => s!"{id}: cannot use a disconnected output"
  | noModes id => s!"{id}: cannot use an output without modes"
  | extent id left top right bottom =>
    s!"{id}: extent ({left}, {top})..({right}, {bottom}) is out of addressable range"
  | screenScale id s => s!"scale of {id} must be positive, got {Decimal.plainText s}"
  | screenModeIndex id index count => s!"mode index {index} out of range for {id} ({count} modes)"
  | screenSize id size => s!"{id} has no {size.width}x{size.height} mode"

/-- The scale is finite and positive. -/
def isPositiveScale (scale : Float) : Bool :=
  scale.isFinite && 0 < scale

namespace Output

/-- What is wrong with a used output. -/
def usedDefect? (o : Output) : Option Defect :=
  if o.connected = false then some (.disconnected o.id)
  else
    match o.mode? with
    | none => some (.noModes o.id)
    | some mode =>
      let left := o.topLeft.x
      let top := o.topLeft.y
      let right := left + mode.resolution.width
      let bottom := top + mode.resolution.height
      if left < leastCoordinate ∨ top < leastCoordinate ∨ greatestCoordinate < right ∨
          greatestCoordinate < bottom then
        some (.extent o.id left top right bottom)
      else none

/-- What is wrong with the output. -/
def defect? (o : Output) : Option Defect :=
  if o.modes ≠ [] ∧ o.modes.length ≤ o.modeIndex then
    some (.modeIndex o.id o.modeIndex o.modes.length)
  else if isPositiveScale o.scale = false then some (.scale o.id o.scale)
  else if o.used then o.usedDefect?
  else none

end Output

/-- The defect of the first output that has one. -/
def Configuration.defect? (c : Configuration) : Option Defect :=
  c.outputs.findSome? Output.defect?

/-- Scales are equal up to a part in a hundred thousand of the smaller one. -/
def scaleEq (a b : Float) : Bool :=
  (a - b).abs * 100000 ≤ if a.abs ≤ b.abs then a.abs else b.abs

end Displays
