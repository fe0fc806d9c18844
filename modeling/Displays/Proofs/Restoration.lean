import Displays.Hardware.Held
import Displays.Proofs.Reachability
import Displays.Proofs.Submissions

/-!
# Restoring remembered options

A step that takes over what the hardware says restores the options of every display that this
connects: once the queue is processed, it requests the settings that are remembered of each, one
request after the other. The displays that get their screen only as the state resynchronises itself
after a fault are passed over, and the next configuration finds them with a screen.
-/

namespace Displays

variable {H : Type} [Hardware H]

/-- Requests settings of outputs one after the other. -/
def Guarded.requestEach : List (OutputId × Settings) → H → H
  | [], h => h
  | (id, s) :: entries, h => requestEach entries (request id s h).2

namespace Model

variable {m : Model} {id : OutputId}

private theorem mem_ids_absorbOutputs {l : List Output} (h : id ∈ (m.absorbOutputs l).1.ids) :
    id ∈ m.ids ∨ id ∈ (m.absorbOutputs l).2 := by
  induction l generalizing m with
  | nil => exact .inl h
  | cons o l ih =>
    rw [added_cons]
    rcases ih h with hid | hid
    · rcases mem_ids_absorbOutput.mp hid with hid | rfl
      · exact .inl hid
      · by_cases hs : (m.screen? o.id).isSome = true
        · exact .inl (isSome_screen?.mp hs)
        · exact .inr (by rw [if_neg hs]; exact List.mem_cons_self)
    · right
      split
      · exact hid
      · exact List.mem_cons_of_mem o.id hid

/-- Every screen of a model that absorbed a configuration was there or is new. -/
theorem mem_ids_absorb {c : Configuration} (h : id ∈ (m.absorb c).1.ids) :
    id ∈ m.ids ∨ id ∈ (m.absorb c).2.added := by
  rcases mem_ids_absorbOutputs (m := m.kept c) h with h | h
  · rw [ids_kept] at h
    exact .inl (List.mem_of_mem_filter h)
  · exact .inr h

private theorem mem_ids_note {o : Observation} (h : id ∈ (o.note m).ids) :
    id ∈ m.ids ∨ id ∈ o.added m := by
  cases o with
  | configuration c => exact mem_ids_absorb h
  | tilt k t => exact .inl (by rwa [Observation.note, ids_update] at h)
  | lit lit => exact .inl (by rwa [Observation.note, ids_setLit] at h)

end Model

namespace State

/-- The settings that are remembered of the displays on some outputs. -/
def due (ids : List OutputId) (s : State H) : List (OutputId × Settings) :=
  ids.filterMap fun id => (s.remembered? id).map fun settings => (id, settings)

/-- Restoring options changes nothing but the hardware, of which it requests those that are due. -/
theorem foldl_restore_eq (ids : List OutputId) (s : State H) :
    ids.foldl (fun s id => s.restore id) s =
      { s with hardware := Guarded.requestEach (s.due ids) s.hardware } := by
  induction ids generalizing s with
  | nil => rfl
  | cons id ids ih =>
    rw [List.foldl_cons, ih]
    cases hr : s.remembered? id with
    | none => simp only [restore, due, List.filterMap_cons, hr, Option.map_none]
    | some settings =>
      simp only [restore, due, List.filterMap_cons, hr, Option.map_some, Guarded.requestEach]
      rfl

/-- The outputs that get their screen as the state resynchronises itself after a fault. -/
def late (s : State H) : List OutputId :=
  match s.drain with
  | (none, _) => []
  | (some _, s) =>
    match (Guarded.read s.hardware).1 with
    | .error _ => []
    | .ok c => (s.model.absorb c).2.added

/-- Outputs come late only if processing fails. -/
theorem fault_of_late {s : State H} {id : OutputId} (h : id ∈ s.late) :
    ∃ fault, s.process.1 = .error fault := by
  rcases hd : s.drain with ⟨first, t⟩
  cases first with
  | none => exact absurd h (by simp only [late, hd, List.not_mem_nil, not_false_eq_true])
  | some fault => exact ⟨fault, by simp only [process, hd]⟩

/-- Every screen that processing leaves was there before or comes late. -/
theorem mem_ids_process {s : State H} {id : OutputId} (h : id ∈ s.process.2.model.ids) :
    id ∈ s.model.ids ∨ id ∈ s.late := by
  have hdrained : s.drain.2.model.ids = s.model.ids := by rw [drain_eq]; rfl
  rcases hd : s.drain with ⟨first, t⟩
  rw [hd] at hdrained
  cases first with
  | none =>
    simp only [process, hd] at h
    exact .inl (hdrained ▸ h)
  | some fault =>
    rcases hr : Guarded.read t.hardware with ⟨answer, hw⟩
    cases answer with
    | error cause =>
      simp only [process, hd, resync, hr] at h
      exact .inl (hdrained ▸ h)
    | ok c =>
      simp only [process, hd, resync, hr, drain_eq] at h
      rcases Model.mem_ids_absorb h with h | h
      · exact .inl (hdrained ▸ h)
      · exact .inr (by simpa only [late, hd, hr] using h)

end State

/-- A step that may connect displays. -/
inductive Intake where
  /-- The configuration of the hardware is taken over. -/
  | sync
  /-- An observation is handled. -/
  | handle (o : Observation)
  /-- The queue is processed. -/
  | process

namespace State

/-- Takes a step. -/
def take (s : State H) : Intake → Except ConfigFault Unit × State H
  | .sync => s.sync
  | .handle o => s.handle o
  | .process => s.process

/-- The state before the queue is processed, with the outputs that have been connected by then; none
if it does not come to that because the hardware cannot be read. -/
def begun? (s : State H) : Intake → Option (State H × List OutputId)
  | .sync =>
    match Guarded.read s.hardware with
    | (.error _, _) => none
    | (.ok c, hardware) =>
      some ({ s with model := (s.model.absorb c).1, hardware }, (s.model.absorb c).2.added)
  | .handle o => some ({ s with model := o.note s.model }, o.added s.model)
  | .process => some (s, [])

/-- A step changes no screen, or it processes a queue and requests what is due of the outputs that
it connected before. -/
theorem take_cases (s : State H) (step : Intake) :
    (s.begun? step = none ∧ (s.take step).2.model = s.model) ∨
    ∃ t ids, s.begun? step = some (t, ids) ∧ t.storage = s.storage ∧
      (∀ id ∈ t.model.ids, id ∈ s.model.ids ∨ id ∈ ids) ∧
      s.take step = (t.process.1, { t.process.2 with
        hardware := Guarded.requestEach (t.process.2.due ids) t.process.2.hardware }) := by
  cases step with
  | sync =>
    rcases hr : Guarded.read s.hardware with ⟨answer, hardware⟩
    cases answer with
    | error fault => exact .inl ⟨by simp only [begun?, hr], by simp only [take, sync, hr]⟩
    | ok c =>
      have htake : s.take .sync =
          ({ s with hardware } : State H).handle (.configuration c) := by
        simp only [take, sync, hr, handle]
      refine .inr ⟨{ s with model := (s.model.absorb c).1, hardware }, (s.model.absorb c).2.added,
        by simp only [begun?, hr], rfl, fun id h => Model.mem_ids_absorb h, ?_⟩
      rw [htake, handle_eq, foldl_restore_eq]
      rfl
  | handle o =>
    refine .inr ⟨{ s with model := o.note s.model }, o.added s.model, rfl, rfl,
      fun id h => Model.mem_ids_note h, ?_⟩
    rw [take, handle_eq, foldl_restore_eq]
  | process => exact .inr ⟨s, [], rfl, rfl, fun id h => .inl h, rfl⟩

/-- A step leads from a reachable state to a reachable one. -/
theorem reachable_take {s : State H} (h : s.Reachable) (step : Intake) :
    (s.take step).2.Reachable := by
  cases step with
  | sync => exact .sync h
  | handle o => exact .handle o h
  | process => exact .process h

/-- The screen that a step makes appear gets the options that are remembered of its display, if its
mode is on offer: its settings are among the requests that end the step. The only exception is a
screen that comes late, in a step that fails. -/
theorem restored_of_appeared {s : State H} (hs : s.Reachable) (step : Intake) {screen : Screen}
    (hscreen : screen ∈ (s.take step).2.model.screens) (hnew : screen.id ∉ s.model.ids)
    {storage : Storage} {identity : Identity} {options : Options} {settings : Settings}
    (hstorage : s.storage = some storage)
    (hidentity : screen.edid.bind Edid.identity? = some identity)
    (hload : storage.load? identity.displayId = some options)
    (hmode : options.toSettings? screen.modes = some settings) :
    ∃ t ids, s.begun? step = some (t, ids) ∧
      ((screen.id ∈ t.late ∧ ∃ fault, (s.take step).1 = .error fault) ∨
        (screen.id, settings) ∈ (s.take step).2.due ids ∧
        (s.take step).2.hardware =
          Guarded.requestEach ((s.take step).2.due ids) t.process.2.hardware) := by
  have hwf := Model.wellFormed_of_reachable (reachable_model (reachable_take hs step))
  have hid : screen.id ∈ (s.take step).2.model.ids := List.mem_map_of_mem hscreen
  rcases take_cases s step with ⟨_, hmodel⟩ | ⟨t, ids, hbegun, hstore, hids, htake⟩
  · exact absurd (hmodel ▸ hid) hnew
  · refine ⟨t, ids, hbegun, ?_⟩
    have hstate : (s.take step).2 = { t.process.2 with
        hardware := Guarded.requestEach (t.process.2.due ids) t.process.2.hardware } := by
      rw [htake]
    have hfinal : (s.take step).2.storage = some storage := by
      rw [hstate, ← hstorage, ← hstore]
      exact storage_process t
    have hknown : screen.identity = some identity := (hwf.known screen hscreen).trans hidentity
    have hremembered : (s.take step).2.remembered? screen.id = some settings := by
      simp only [remembered?, hfinal, Model.screen?_of_mem hwf.nodup hscreen, hknown, hload, hmode,
        Option.bind_eq_bind, Option.bind_some]
    rw [hstate] at hid
    rcases mem_ids_process hid with hid | hlate
    · rcases hids screen.id hid with hid | hid
      · exact absurd hid hnew
      · refine .inr ⟨List.mem_filterMap.mpr ⟨screen.id, hid, ?_⟩, by rw [hstate]; rfl⟩
        rw [hremembered, Option.map_some]
    · exact .inl ⟨hlate, by rw [htake]; exact fault_of_late hlate⟩

end State

/-- An output whose display tells its identity. -/
def Output.identified : Output :=
  { Output.plain "DP-1" with edid := some (Edid.header ++ List.replicate 119 0 ++ [6]) }

/-- Remembered options of this display, with twice its scale. -/
def Storage.scaled : Storage :=
  ⟨"options", [("???-0000-0", ⟨true, ⟨0, 0⟩, none, 2, .monitor, .on⟩)]⟩

namespace State

/-- Hardware is taken over that has the display connected. -/
theorem restored_of_appeared_identified :
    let s : State Held :=
      { hardware := { configuration := ⟨[.plain "HDMI-1", .identified]⟩ }
        storage := some .scaled }
    ∃ t ids, s.begun? .sync = some (t, ids) ∧
      ("DP-1", ⟨true, ⟨0, 0⟩, 0, .on, 2, .monitor⟩) ∈ (s.take .sync).2.due ids ∧
      (s.take .sync).2.hardware =
        Guarded.requestEach ((s.take .sync).2.due ids) t.process.2.hardware := by
  intro s
  have hs : s.Reachable := .remember (some .scaled) (.start s.hardware)
  have hscreen : Screen.ofOutput .identified ∈ (s.take .sync).2.model.screens := by decide +kernel
  have hdisplay : (Output.identified.edid.bind Edid.identity?).map Identity.displayId =
      some "???-0000-0" := by decide +kernel
  obtain ⟨identity, hidentity, hid⟩ := Option.map_eq_some_iff.mp hdisplay
  have hload : Storage.scaled.load? identity.displayId =
      some ⟨true, ⟨0, 0⟩, none, 2, .monitor, .on⟩ := by rw [hid]; rfl
  obtain ⟨t, ids, hbegun, ⟨_, fault, hfault⟩ | hrestored⟩ :=
    restored_of_appeared hs .sync hscreen List.not_mem_nil rfl hidentity hload rfl
  · have hok : (s.take .sync).1 = .ok () := by rfl
    exact absurd (hok.symm.trans hfault) (by simp only [reduceCtorEq, not_false_eq_true])
  · exact ⟨t, ids, hbegun, hrestored⟩

/-- The display is connected while a request waits that the hardware refuses: its screen appears as
the state resynchronises itself, its options are remembered, and only the refused request was ever
submitted. -/
theorem late_not_restored :
    let one : Held := { configuration := ⟨[.plain "HDMI-1"]⟩ }
    let two : Held :=
      { configuration := ⟨[.plain "HDMI-1", .identified]⟩, rejection := some ⟨"busy", 0, some 1⟩ }
    let start : State (Recorded Held) :=
      ({ hardware := { hardware := one }, storage := some .scaled } : State (Recorded Held)).sync.2
    let s : State (Recorded Held) :=
      { start with
        model := (start.model.mutate "HDMI-1" (.used false)).2, hardware := { hardware := two } }
    s.Reachable ∧ s.model.ids = ["HDMI-1"] ∧
    (s.take .process).2.model.ids = ["HDMI-1", "DP-1"] ∧
    (s.take .process).2.remembered? "DP-1" = some ⟨true, ⟨0, 0⟩, 0, .on, 2, .monitor⟩ ∧
    ((s.take .process).2.hardware.submissions.map fun e =>
      e.1.outputs.map fun o => (o.id, o.used, o.scale)) =
        [[("HDMI-1", false, 1), ("DP-1", true, 1)]] := by
  intro one two start s
  have hstart : start.Reachable := .sync (.remember (some .scaled) (.start _))
  exact ⟨.outside _ (.mutate "HDMI-1" (.used false) hstart), by decide +kernel, by decide +kernel,
    by decide +kernel, by decide +kernel⟩

end State

end Displays
