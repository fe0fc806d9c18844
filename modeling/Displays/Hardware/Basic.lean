import Displays.Fault

/-!
# Hardware

Hardware is whatever can be read for a configuration and be asked to take one on. Both may fail and
both may change its state. `Recorded` keeps a log of what hardware was asked and answered.
-/

namespace Displays

/-- Types whose values are states of hardware. -/
class Hardware (H : Type) where
  /-- Reads the configuration. -/
  read : H → Except HardwareFault Configuration × H
  /-- Submits a whole configuration. -/
  submit : Configuration → H → Except HardwareFault Unit × H

/-- What hardware was asked, and its answer. -/
inductive Call where
  /-- It was read. -/
  | read (answer : Except HardwareFault Configuration)
  /-- A configuration was submitted. -/
  | submit (c : Configuration) (answer : Except HardwareFault Unit)
  deriving Repr

namespace Call

/-- The configuration that was submitted and accepted. -/
def accepted? : Call → Option Configuration
  | submit c (.ok ()) => some c
  | _ => none

end Call

/-- Hardware with a log. -/
structure Recorded (H : Type) where
  /-- The hardware. -/
  hardware : H
  /-- The calls, oldest first. -/
  calls : List Call := []
  deriving Repr

instance {H : Type} [Hardware H] : Hardware (Recorded H) where
  read r :=
    let (answer, h) := Hardware.read r.hardware
    (answer, ⟨h, r.calls ++ [.read answer]⟩)
  submit c r :=
    let (answer, h) := Hardware.submit c r.hardware
    (answer, ⟨h, r.calls ++ [.submit c answer]⟩)

/-- The configurations that were submitted and accepted, oldest first. -/
def Recorded.accepted {H : Type} (r : Recorded H) : List Configuration :=
  r.calls.filterMap Call.accepted?

end Displays
