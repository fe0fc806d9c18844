import Displays.Randr.Reading

/-!
# Planning CRTCs

A requested configuration is turned into settings for the CRTCs. First the outputs that are not to
be used release theirs; then each output that is to be used keeps the CRTC that drives it or takes
a free one, which gets its mode and position. At last the whole layout moves to the origin of the
screen, and the screen must be large enough to hold it.
-/

namespace Displays.Randr

/-- Why the server cannot show an output as requested, if it cannot: it only places modes. -/
def refusal? (o : Output) : Option Refusal :=
  if o.used = false then none
  else if o.scale != 1 then some (.scale .randr o.id o.scale)
  else if o.power ≠ .on then some (.power .randr o.power o.id)
  else if o.form ≠ .monitor then some (.form .randr o.form o.id)
  else none

/-- Refuses what the server cannot show. -/
def checkSupported (c : Configuration) : Except HardwareFault Unit :=
  match c.outputs.findSome? refusal? with
  | some reason => .error (.unsupported reason)
  | none => .ok ()

/-- What the configuration requests of an output of the server. -/
def requested? (c : Configuration) (o : Connector) : Option Output :=
  c.output? o.id

/-- The CRTC without this output; without any output it is off. -/
def Crtc.release (id : Nat) (crtc : Crtc) : Crtc :=
  let outputs := crtc.outputs.filter (· ≠ id)
  { crtc with outputs, mode := if outputs = [] then 0 else crtc.mode }

/-- Releases the CRTC of an output that is not to be used. Outputs that the configuration does not
mention keep theirs. -/
def release (c : Configuration) (crtcs : Table Crtc) (id : Nat) (o : Connector) : Table Crtc :=
  match requested? c o with
  | none => crtcs
  | some r => if r.used ∨ o.crtc = 0 then crtcs else crtcs.modify o.crtc (Crtc.release id)

/-- The id of the mode that is requested. -/
def chosenMode (modes : Table ModeInfo) (o : Connector) (r : Output) : Except HardwareFault Nat :=
  match admissible modes o.modes with
  | .error fault => .error fault
  | .ok ids =>
    match ids[r.modeIndex]? with
    | some mode => .ok mode
    | none => .error (.unsupported (.noMode r.id r.modeIndex))

/-- The CRTC drives no output. -/
def isFree (crtcs : Table Crtc) (id : Nat) : Bool :=
  (crtcs.get? id).any fun crtc => crtc.outputs.isEmpty

/-- The id of the CRTC that is to drive an output: the one that does, or else the first free one of
those that can. -/
def chosenCrtc (crtcs : Table Crtc) (id : Nat) (o : Connector) (r : Output) :
    Except HardwareFault Nat :=
  if (crtcs.get? o.crtc).any fun crtc => id ∈ crtc.outputs then .ok o.crtc
  else
    match o.crtcs.find? (isFree crtcs) with
    | some crtc => .ok crtc
    | none => .error (.unsupported (.noFreeCrtc r.id))

/-- A coordinate that fits sixteen bits. -/
def coordinate (r : Output) (value : Int) : Except HardwareFault Int :=
  if value ∈ Decimal.Bounds.signed 16 then .ok value
  else .error (.unsupported (.position r.id value))

/-- The CRTC driving also this output, with this mode, at this place and upright. -/
def Crtc.drive (id mode : Nat) (x y : Int) (crtc : Crtc) : Crtc where
  x
  y
  mode
  rotation := upright
  outputs := if id ∈ crtc.outputs then crtc.outputs else crtc.outputs ++ [id]

/-- Sets up a CRTC for an output that is to be used. -/
def assign (c : Configuration) (modes : Table ModeInfo) (crtcs : Table Crtc) (id : Nat)
    (o : Connector) : Except HardwareFault (Table Crtc) :=
  match requested? c o with
  | none => .ok crtcs
  | some r =>
    if r.used = false then .ok crtcs
    else do
      let mode ← chosenMode modes o r
      let crtc ← chosenCrtc crtcs id o r
      let x ← coordinate r r.topLeft.x
      let y ← coordinate r r.topLeft.y
      return crtcs.modify crtc (Crtc.drive id mode x y)

/-- Sets up CRTCs for outputs one after the other. -/
def assignAll (c : Configuration) (modes : Table ModeInfo) :
    Table Crtc → List (Nat × Connector) → Except HardwareFault (Table Crtc)
  | crtcs, [] => .ok crtcs
  | crtcs, (id, o) :: rest =>
    match assign c modes crtcs id o with
    | .ok crtcs => assignAll c modes crtcs rest
    | .error fault => .error fault

/-- The CRTCs as the configuration requests them, the outputs of the server being visited in the
given order. -/
def updateCrtcs (c : Configuration) (modes : Table ModeInfo) (outputs : List (Nat × Connector))
    (crtcs : Table Crtc) : Except HardwareFault (Table Crtc) :=
  let released := outputs.foldl (fun crtcs (id, o) => release c crtcs id o) crtcs
  assignAll c modes released outputs

/-- The CRTCs that are on. -/
def enabled (crtcs : Table Crtc) : List Crtc :=
  crtcs.values.filter fun crtc => crtc.mode ≠ 0

/-- The greatest extent of a layout. -/
def greatestExtent : Int := 32767

/-- What keeps a CRTC from being moved by `(-dx, -dy)`. -/
def shiftFault? (modes : Table ModeInfo) (dx dy : Int) (crtc : Crtc) : Option HardwareFault :=
  match modes.get? crtc.mode with
  | none => some (.garbled (.unknownMode crtc.mode))
  | some m =>
    if crtc.x - dx + m.width ≤ greatestExtent ∧ crtc.y - dy + m.height ≤ greatestExtent then none
    else some (.unsupported .layoutTooLarge)

/-- Moves the layout so that its least coordinates are zero, as screens begin at the origin. -/
def normalizeOrigin (modes : Table ModeInfo) (crtcs : Table Crtc) :
    Except HardwareFault (Table Crtc) :=
  match ((enabled crtcs).map Crtc.x).min?, ((enabled crtcs).map Crtc.y).min? with
  | some dx, some dy =>
    if dx = 0 ∧ dy = 0 then .ok crtcs
    else
      match (enabled crtcs).findSome? (shiftFault? modes dx dy) with
      | some fault => .error fault
      | none =>
        .ok (crtcs.mapIds fun _ crtc =>
          if crtc.mode = 0 then crtc else { crtc with x := crtc.x - dx, y := crtc.y - dy })
  | _, _ => .ok crtcs

/-- The rectangle that a CRTC scans out. -/
def area (modes : Table ModeInfo) (crtc : Crtc) : Except HardwareFault Rect :=
  match modes.get? crtc.mode with
  | none => .error (.garbled (.unknownMode crtc.mode))
  | some m => .ok ⟨⟨crtc.x, crtc.y⟩, ⟨m.width, m.height⟩⟩

/-- Pixels to millimetres at 96 pixels to the inch, in single precision. -/
def pixelsToMillimetres (pixels : Nat) : Nat :=
  (Float32.ofNat pixels * (25.4 / 96)).round.toUInt32.toNat

/-- The larger of two extents; the second one if they are equally large. -/
def larger (a b : PhysicalSize) : PhysicalSize :=
  if b.width * b.height < a.width * a.height then a else b

/-- The extents of the displays that are lit, as far as they are known. -/
def litSizes (outputs : Table Connector) (crtcs : Table Crtc) : List PhysicalSize :=
  let driven := (enabled crtcs).flatMap Crtc.outputs
  (driven.filterMap fun id => (outputs.get? id).map Connector.size).filter fun s =>
    s.width ≠ 0 && s.height ≠ 0

/-- The size of the screen that holds the layout; none if nothing is lit. The largest display that
is lit gives the extent in millimetres. -/
def screenSize (modes : Table ModeInfo) (outputs : Table Connector) (crtcs : Table Crtc) :
    Except HardwareFault (Option ScreenSize) := do
  let areas ← (enabled crtcs).mapM (area modes)
  let left := (areas.map fun a => a.topLeft.x).min?
  let top := (areas.map fun a => a.topLeft.y).min?
  let right := (areas.map fun a => a.topLeft.x + Int.ofNat a.size.width).max?
  let bottom := (areas.map fun a => a.topLeft.y + Int.ofNat a.size.height).max?
  match left, top, right, bottom with
  | some left, some top, some right, some bottom =>
    if right - left ∈ Decimal.Bounds.unsigned 16 ∧ bottom - top ∈ Decimal.Bounds.unsigned 16 then
      let width := (right - left).toNat
      let height := (bottom - top).toNat
      let physical :=
        match litSizes outputs crtcs with
        | [] => ⟨pixelsToMillimetres width, pixelsToMillimetres height⟩
        | s :: rest => rest.foldl larger s
      return some ⟨width, height, physical⟩
    else throw (.unsupported .screenTooLarge)
  | _, _, _, _ => return none

end Displays.Randr
