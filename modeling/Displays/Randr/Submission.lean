import Displays.Randr.Planning

/-!
# Submitting a configuration to an X server

After planning, every CRTC that changes and is on is switched off, for it might not fit the new
screen until it is set up again; then the screen is resized, and at last the CRTCs that change and
are to be on are set up.
-/

namespace Displays.Randr

/-- The CRTCs that a plan changes, with their ids and settings of before and after. -/
def changes (old new : Table Crtc) : List (Nat × Option Crtc × Crtc) :=
  (new.entries.map fun (id, crtc) => (id, old.get? id, crtc)).filter fun (_, before, after) =>
    before ≠ some after

/-- The settings of a CRTC that is off. -/
def Crtc.off : Crtc := ⟨0, 0, 0, upright, []⟩

/-- The requests that switch off the CRTCs that change and are on. -/
def disabling (old new : Table Crtc) : List Request :=
  (changes old new).filterMap fun (id, before, _) =>
    if before.any fun crtc => crtc.mode ≠ 0 then some (.setCrtc id .off) else none

/-- The requests that set up the CRTCs that change and are to be on. -/
def enabling (old new : Table Crtc) : List Request :=
  (changes old new).filterMap fun (id, _, after) =>
    if after.mode ≠ 0 then some (.setCrtc id after) else none

namespace Server

/-- Asks for everything that planning needs. -/
def survey (s : Server) : Except HardwareFault Unit := do
  s.connect
  s.askEach .getOutputInfo s.outputs
  s.askEach .getCrtcInfo s.crtcs.entries

/-- The CRTCs of the server as the configuration requests them, before anything is changed. The
outputs are visited in the given order, for that of the server is not kept. -/
def plan (s : Server) (order : List (Nat × Connector)) (c : Configuration) :
    Except HardwareFault (Table Crtc) := do
  let crtcs ← updateCrtcs c s.modes order s.crtcs
  normalizeOrigin s.modes crtcs

/-- Carries out a plan. -/
def carryOut (s : Server) (new : Table Crtc) : Except HardwareFault Unit × Server :=
  match s.performAll (disabling s.crtcs new) with
  | (.error fault, s') => (.error fault, s')
  | (.ok (), s') =>
    match screenSize s.modes (.ofList s.outputs) new with
    | .error fault => (.error fault, s')
    | .ok none => s'.performAll (enabling s.crtcs new)
    | .ok (some size) => s'.performAll (.setScreenSize size :: enabling s.crtcs new)

/-- Submits a configuration, visiting the outputs in the given order. -/
def submit (order : List (Nat × Connector)) (c : Configuration) (s : Server) :
    Except HardwareFault Unit × Server :=
  match (do checkSupported c; s.survey; s.plan order c) with
  | .error fault => (.error fault, s)
  | .ok new => s.carryOut new

end Server

end Displays.Randr
