import Displays.Hardware.Basic
import Displays.Randr.Planning
import Displays.Sway.Command
import Displays.Xrandr.Command

/-!
# Hardware that holds a configuration

The simplest hardware holds one configuration, which is what reading answers and what an accepted
submission replaces. It may have a backend whose limits it respects, it may reject a number of
submissions, and it may be unavailable for reading.
-/

namespace Displays

/-- What a backend says to a configuration before anything is done about it. -/
def Backend.check (b : Backend) (c : Configuration) : Except HardwareFault Unit :=
  match b with
  | xrandr => (Xrandr.words c).map fun _ => ()
  | sway => (Sway.words c).map fun _ => ()
  | randr => Randr.checkSupported c

/-- Submissions to be rejected. -/
structure Rejection where
  /-- The reason that is given. -/
  reason : String
  /-- The number of submissions that are accepted before. -/
  skip : Nat := 0
  /-- The number of submissions that are rejected; all if there is none. -/
  times : Option Nat := none
  deriving DecidableEq, Repr

/-- Hardware that holds a configuration. -/
structure Held where
  /-- The configuration. -/
  configuration : Configuration
  /-- The backend whose limits are respected. -/
  backend : Option Backend := none
  /-- The submissions to be rejected. -/
  rejection : Option Rejection := none
  /-- While it is unavailable, the number of readings that succeed all the same. -/
  unavailable : Option Nat := none
  deriving Repr

namespace Held

/-- Reads the configuration. -/
def read (h : Held) : Except HardwareFault Configuration × Held :=
  match h.unavailable with
  | none => (.ok h.configuration, h)
  | some (n + 1) => (.ok h.configuration, { h with unavailable := some n })
  | some 0 => (.error (.unsupported (.stated "unplugged")), h)

/-- Holds a configuration. -/
def hold (c : Configuration) (h : Held) : Except HardwareFault Unit × Held :=
  (.ok (), { h with configuration := c })

/-- Submits a configuration that the backend does not refuse. -/
def accept (c : Configuration) (h : Held) : Except HardwareFault Unit × Held :=
  match h.rejection with
  | none => h.hold c
  | some r =>
    match r.skip, r.times with
    | skip + 1, _ => { h with rejection := some { r with skip } }.hold c
    | 0, none => (.error (.unsupported (.stated r.reason)), h)
    | 0, some 0 => h.hold c
    | 0, some (times + 1) =>
      (.error (.unsupported (.stated r.reason)),
        { h with rejection := some { r with times := some times } })

/-- Submits a configuration. -/
def submit (c : Configuration) (h : Held) : Except HardwareFault Unit × Held :=
  match h.backend.elim (.ok ()) fun b => b.check c with
  | .error fault => (.error fault, h)
  | .ok () => h.accept c

instance : Hardware Held where
  read := read
  submit := submit

end Held

end Displays
