import Displays.Proofs.Holding
import Displays.Proofs.Reachability
import Displays.Watcher

/-!
# The scene of watching

The hardware is changed from outside and by the requests of the software, a watcher polls it and
sends what it finds through a channel, and the state handles what arrives, all in any order. A run
keeps account of how the model stands: level with the configuration that it took over last, abreast
of the hardware since it followed requests or was resynchronised, or astray.
-/

namespace Displays

/-- The state, the watcher of its hardware and what was sent but not yet handled. -/
structure Scene (H : Type) where
  /-- The state. -/
  state : State H
  /-- The watcher of the hardware. -/
  watcher : Watcher := {}
  /-- What was sent but not yet handled, oldest first. -/
  channel : List Observation := []

/-- What may happen in a scene. -/
inductive Event (H : Type) where
  /-- The hardware is changed from outside. -/
  | outside (h : H)
  /-- The watcher polls the hardware, and the accelerometer if there is one. -/
  | poll (accelerometer : Option (Except IoFault Tilt))
  /-- The oldest observation in the channel is handled. -/
  | deliver
  /-- The software makes a request to a screen. -/
  | mutate (id : OutputId) (u : Mutation)
  /-- The software makes a screen the only active one. -/
  | activate (id : OutputId)
  /-- The software processes its requests. -/
  | process

/-- How the model stands to the hardware. -/
inductive Standing where
  /-- Since it took over a configuration from the channel, the model followed no request. -/
  | level
  /-- Since it followed requests or was resynchronised, nothing else changed the hardware. -/
  | abreast
  /-- Neither is known. -/
  | astray
  deriving DecidableEq, Repr

/-- The configuration of the hardware where the model depends on it. -/
def Standing.known (now : Standing) (c : Configuration) : Option Configuration :=
  if now = .abreast then some c else none

namespace State

variable {H : Type} [Hardware H]

/-- How the model stands once its queue was processed. -/
def standing (s : State H) (now : Standing) : Standing :=
  match s.process.1, (Hardware.read s.drain.2.hardware).1 with
  | .ok (), _ =>
    if now = .level ∧ s.model.queue.any Notification.isRequest then .abreast else now
  | .error _, .ok _ => .abreast
  | .error _, .error _ => .astray

/-- How the model stands once it handled a configuration. Restoring options after a
resynchronisation leads it astray. -/
def standingAbsorbed (c : Configuration) (s : State H) : Standing :=
  let noted : State H := { s with model := (s.model.absorb c).1 }
  match noted.process.1, (Hardware.read noted.drain.2.hardware).1 with
  | .error _, .ok _ =>
    if (s.model.absorb c).2.added = [] ∨ s.storage.isNone then .abreast else .astray
  | _, _ => .level

/-- How the model stands once it handled an observation. -/
def standingHandled (o : Observation) (s : State H) (now : Standing) : Standing :=
  match o with
  | .configuration c => s.standingAbsorbed c
  | .tilt _ _ => ({ s with model := o.note s.model } : State H).standing now
  | .lit _ => ({ s with model := o.note s.model } : State H).standing now

end State

namespace Scene

variable {H : Type} [Hardware H]

/-- What there is to read. -/
def reading (x : Scene H) (accelerometer : Option (Except IoFault Tilt)) : Reading :=
  ⟨(Hardware.read x.state.hardware).1, accelerometer⟩

/-- The scene after an event. -/
def step (x : Scene H) : Event H → Scene H
  | .outside h => { x with state := { x.state with hardware := h } }
  | .poll accelerometer =>
    let p := x.watcher.poll true (x.reading accelerometer)
    { state := { x.state with hardware := (Hardware.read x.state.hardware).2 }
      watcher := p.watcher
      channel := x.channel ++ p.sent }
  | .deliver =>
    match x.channel with
    | [] => x
    | o :: rest => { x with state := (x.state.handle o).2, channel := rest }
  | .mutate id u => { x with state := { x.state with model := (x.state.model.mutate id u).2 } }
  | .activate id =>
    match x.state.model.activate id with
    | .ok model => { x with state := { x.state with model } }
    | .error _ => x
  | .process => { x with state := x.state.process.2 }

/-- How the model stands after an event. -/
def standing (x : Scene H) (now : Standing) : Event H → Standing
  | .outside _ => if now = .level then .level else .astray
  | .deliver =>
    match x.channel with
    | [] => now
    | o :: _ => x.state.standingHandled o now
  | .process => x.state.standing now
  | .poll _ => now
  | .mutate _ _ => now
  | .activate _ => now

/-- What events one after the other lead to. -/
def run (x : Scene H) (now : Standing) : List (Event H) → Scene H × Standing
  | [] => (x, now)
  | e :: rest => (x.step e).run (x.standing now e) rest

/-- Nothing waits, and a poll reads the hardware and sends nothing. -/
structure Quiet (x : Scene H) (accelerometer : Option (Except IoFault Tilt)) : Prop where
  /-- Everything sent was handled. -/
  channel : x.channel = []
  /-- Every notification was processed. -/
  queue : x.state.model.queue = []
  /-- The hardware can be read. -/
  read : (Hardware.read x.state.hardware).1.isOk = true
  /-- A poll sends nothing. -/
  sent : (x.watcher.poll true (x.reading accelerometer)).sent = []

/-- The hardware of a quiet scene can be read. -/
theorem Quiet.exists_read {x : Scene H} {accelerometer : Option (Except IoFault Tilt)}
    (hx : x.Quiet accelerometer) : ∃ c, (Hardware.read x.state.hardware).1 = .ok c := by
  have hread := hx.read
  cases h : (Hardware.read x.state.hardware).1 with
  | error fault =>
    rw [h] at hread
    exact Bool.noConfusion hread
  | ok c => exact ⟨c, rfl⟩

instance (x : Scene H) (accelerometer : Option (Except IoFault Tilt)) :
    Decidable (x.Quiet accelerometer) :=
  decidable_of_iff
    (x.channel.isEmpty = true ∧ x.state.model.queue = [] ∧
      (Hardware.read x.state.hardware).1.isOk = true ∧
      (x.watcher.poll true (x.reading accelerometer)).sent.isEmpty = true)
    ⟨fun ⟨hc, hq, hr, hs⟩ => ⟨List.isEmpty_iff.mp hc, hq, hr, List.isEmpty_iff.mp hs⟩,
      fun h => ⟨List.isEmpty_iff.mpr h.channel, h.queue, h.read, List.isEmpty_iff.mpr h.sent⟩⟩

end Scene

variable {H : Type} [Hardware H] [Holding H]

open Holding (held)

/-- From outside come only configurations without repeated names. -/
def Event.Distinct : Event H → Prop
  | .outside h => (held h).ids.Nodup
  | _ => True

instance (e : Event H) : Decidable e.Distinct :=
  match e with
  | .outside h => inferInstanceAs (Decidable (held h).ids.Nodup)
  | .poll _ => .isTrue trivial
  | .deliver => .isTrue trivial
  | .mutate _ _ => .isTrue trivial
  | .activate _ => .isTrue trivial
  | .process => .isTrue trivial

/-- The scenes that any order of events leads to, and how the model stands there. The watcher starts
with the run. -/
inductive Run : Scene H → Standing → Prop where
  /-- The watcher starts at a state that is reached. -/
  | start {s : State H} : s.Reachable → (held s.hardware).ids.Nodup → Run { state := s } .level
  /-- An event happens. -/
  | step {x : Scene H} {now : Standing} (e : Event H) :
      e.Distinct → Run x now → Run (x.step e) (x.standing now e)

/-- A run goes on by any events that bring no repeated names. -/
theorem run_of_distinct {x : Scene H} {now : Standing} (hx : Run x now) {l : List (Event H)}
    (hl : ∀ e ∈ l, e.Distinct) : Run (x.run now l).1 (x.run now l).2 := by
  induction l generalizing x now with
  | nil => exact hx
  | cons e l ih =>
    exact ih (.step e (hl e List.mem_cons_self) hx) fun d hd => hl d (List.mem_cons_of_mem e hd)

/-- The configurations among observations. -/
def configurations (l : List Observation) : List Configuration :=
  l.filterMap fun
    | .configuration c => some c
    | .tilt _ _ => none
    | .lit _ => none

namespace Watcher

private theorem configurations_lit (lit? : Option Bool) :
    configurations (lit?.map Observation.lit).toList = [] := by
  cases lit? <;> rfl

/-- A poll of the tilt sends no configuration. -/
theorem pollTilt_configurations (w : Watcher) (listening : Bool) (reading : Except IoFault Tilt) :
    configurations (w.pollTilt listening reading).sent = [] ∧
    (w.pollTilt listening reading).watcher.configuration = w.configuration := by
  unfold pollTilt
  cases reading with
  | error fault => exact ⟨rfl, rfl⟩
  | ok t =>
    dsimp only
    by_cases ht : w.tilt = some t
    · rw [if_pos ht]
      exact ⟨rfl, rfl⟩
    · rw [if_neg ht]
      cases w.configuration.bind Configuration.internal? with
      | none => exact ⟨rfl, rfl⟩
      | some panel => cases listening <;> exact ⟨rfl, rfl⟩

/-- What a poll of the hardware does that is listened to: it sends nothing unless it finds something
else than what it saw last, and then the configuration and with it whether the built-in panel is
lit, if that changed. -/
theorem pollHardware_outcomes (w : Watcher) (reading : Except HardwareFault Configuration) :
    (w.pollHardware true reading = ⟨true, [], w⟩ ∧
      ∀ c, reading = .ok c → (w.configuration == some c) = true) ∨
    ∃ c, reading = .ok c ∧ (w.configuration == some c) = false ∧
      ((w.lit = c.lit? ∧ w.pollHardware true reading =
          ⟨true, [.configuration c], { w with configuration := some c }⟩) ∨
        (w.lit ≠ c.lit? ∧ w.pollHardware true reading =
          ⟨true, .configuration c :: (c.lit?.map Observation.lit).toList,
            { w with configuration := some c, lit := c.lit? }⟩)) := by
  cases reading with
  | error fault => exact .inl ⟨rfl, fun c hc => by simp only [reduceCtorEq] at hc⟩
  | ok c =>
    by_cases hsame : (w.configuration == some c) = true
    · exact .inl ⟨by simp only [pollHardware, hsame, ite_true],
        fun d hd => by rw [← Except.ok.inj hd]; exact hsame⟩
    · right
      refine ⟨c, rfl, Bool.eq_false_iff.mpr hsame, ?_⟩
      by_cases hlit : w.lit = c.lit?
      · exact .inl ⟨hlit, by simp only [pollHardware, hsame, hlit, ite_true,
          Bool.false_eq_true, Bool.true_eq_false, ite_false]⟩
      · exact .inr ⟨hlit, by simp only [pollHardware, hsame, hlit, Bool.false_eq_true,
          Bool.true_eq_false, ite_false]⟩

/-- A poll of the hardware that is listened to sends nothing if it finds what it saw last, or cannot
read, and otherwise the configuration that it read. -/
theorem pollHardware_cases (w : Watcher) (reading : Except HardwareFault Configuration) :
    (w.pollHardware true reading).alive = true ∧
    ((configurations (w.pollHardware true reading).sent = [] ∧
        (w.pollHardware true reading).watcher.configuration = w.configuration ∧
        ∀ c, reading = .ok c → (w.configuration == some c) = true) ∨
      ∃ c, reading = .ok c ∧ configurations (w.pollHardware true reading).sent = [c] ∧
        (w.pollHardware true reading).watcher.configuration = some c) := by
  rcases w.pollHardware_outcomes reading with ⟨hp, hsame⟩ | ⟨c, hc, _, ⟨_, hp⟩ | ⟨_, hp⟩⟩
  · rw [hp]
    exact ⟨rfl, .inl ⟨rfl, rfl, hsame⟩⟩
  · rw [hp]
    exact ⟨rfl, .inr ⟨c, hc, rfl, rfl⟩⟩
  · rw [hp]
    refine ⟨rfl, .inr ⟨c, hc, ?_, rfl⟩⟩
    change c :: configurations (c.lit?.map Observation.lit).toList = [c]
    rw [configurations_lit]

/-- Without an accelerometer, a poll is one of the hardware. -/
theorem poll_of_none {w : Watcher} {r : Reading} (h : r.accelerometer = none) :
    w.poll true r = w.pollHardware true r.hardware := by
  simp only [poll, (w.pollHardware_cases r.hardware).1, h]

/-- With an accelerometer, the hardware is polled first. -/
theorem poll_of_some {w : Watcher} {r : Reading} {reading : Except IoFault Tilt}
    (h : r.accelerometer = some reading) :
    w.poll true r = { (w.pollHardware true r.hardware).watcher.pollTilt true reading with
      sent := (w.pollHardware true r.hardware).sent ++
        ((w.pollHardware true r.hardware).watcher.pollTilt true reading).sent } := by
  simp only [poll, (w.pollHardware_cases r.hardware).1, h]

/-- The same of a poll of hardware and accelerometer. -/
theorem poll_cases (w : Watcher) (r : Reading) :
    (configurations (w.poll true r).sent = [] ∧
        (w.poll true r).watcher.configuration = w.configuration ∧
        ∀ c, r.hardware = .ok c → (w.configuration == some c) = true) ∨
      ∃ c, r.hardware = .ok c ∧ configurations (w.poll true r).sent = [c] ∧
        (w.poll true r).watcher.configuration = some c := by
  obtain ⟨_, hcases⟩ := w.pollHardware_cases r.hardware
  cases ha : r.accelerometer with
  | none =>
    rw [poll_of_none ha]
    exact hcases
  | some reading =>
    have hp := poll_of_some (w := w) ha
    obtain ⟨hsent, hsame⟩ :=
      pollTilt_configurations (w.pollHardware true r.hardware).watcher true reading
    have hconfigurations : configurations (w.poll true r).sent =
        configurations (w.pollHardware true r.hardware).sent := by
      rw [hp, configurations, List.filterMap_append]
      change _ ++ configurations _ = _
      rw [hsent, List.append_nil]
      rfl
    have hwatcher : (w.poll true r).watcher.configuration =
        (w.pollHardware true r.hardware).watcher.configuration := by
      rw [hp, hsame]
    rw [hconfigurations, hwatcher]
    exact hcases

end Watcher

end Displays
