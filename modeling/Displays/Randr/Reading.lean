import Displays.Randr.Server

/-!
# Reading an X server

Outputs offer their admissible modes, those without double scan, in the order of the server. An
output is used while a CRTC with a mode drives it, and lies where that CRTC does.
-/

namespace Displays.Randr

/-- The bit of a mode that shows each row twice. -/
def doubleScan : Nat := 32

/-- The mode can be offered. -/
def ModeInfo.isAdmissible (m : ModeInfo) : Bool :=
  m.flags / doubleScan % 2 = 0

/-- Pictures in a thousand seconds, at most what 32 bits hold. -/
def ModeInfo.refresh (m : ModeInfo) : Nat :=
  if m.htotal = 0 ∨ m.vtotal = 0 then 0
  else min (m.dotClock * 1000 / (m.htotal * m.vtotal)) (Nat.pow 2 32 - 1)

/-- The mode as outputs offer it. -/
def ModeInfo.toMode (m : ModeInfo) : Mode :=
  ⟨⟨m.width, m.height⟩, m.refresh⟩

/-- The ids of the modes that can be offered, in their order. -/
def admissible (modes : Table ModeInfo) : List Nat → Except HardwareFault (List Nat)
  | [] => .ok []
  | id :: rest =>
    match modes.get? id with
    | none => .error (.garbled (.unknownMode id))
    | some m =>
      match admissible modes rest with
      | .error fault => .error fault
      | .ok ids => .ok (if m.isAdmissible then id :: ids else ids)

/-- The output of a configuration that a connector amounts to. -/
def Connector.toOutput (o : Connector) (modes : Table ModeInfo) (crtcs : Table Crtc)
    (edid : Option (List UInt8)) : Except HardwareFault Output :=
  match admissible modes o.modes with
  | .error fault => .error fault
  | .ok ids =>
    let crtc := (crtcs.get? o.crtc).filter fun crtc => crtc.mode ≠ 0
    .ok {
      id := o.id
      connected := o.connected
      used := crtc.isSome
      topLeft := crtc.elim ⟨0, 0⟩ fun crtc => ⟨crtc.x, crtc.y⟩
      modeIndex := (crtc.bind fun crtc => ids.idxOf? crtc.mode).getD 0
      modes := (ids.filterMap modes.get?).map ModeInfo.toMode
      power := .on
      scale := 1
      form := .monitor
      size := o.size
      edid }

namespace Server

/-- The EDID of an output. -/
def edidOf (s : Server) (o : Connector) : Except HardwareFault (Option (List UInt8)) :=
  if s.knowsEdid then
    match s.ask .getOutputProperty with
    | .error fault => .error fault
    | .ok () => .ok (if o.edid = [] then none else some o.edid)
  else .ok none

/-- Reads the outputs one after the other. -/
def readOutputs (s : Server) : List (Nat × Connector) → Except HardwareFault (List Output)
  | [] => .ok []
  | (_, o) :: rest => do
    let edid ← s.edidOf o
    let output ← o.toOutput s.modes s.crtcs edid
    return output :: (← s.readOutputs rest)

/-- Reads the configuration of the server. -/
def read (s : Server) : Except HardwareFault Configuration := do
  s.connect
  s.askEach .getCrtcInfo s.crtcs.entries
  s.ask .internAtom
  s.askEach .getOutputInfo s.outputs
  return ⟨← s.readOutputs s.outputs⟩

end Server

end Displays.Randr
