import Displays.Proofs.Finding
import Displays.Proofs.Judgement
import Displays.Proofs.Requests
import Displays.Proofs.Restoration
import Displays.Proofs.Saving
import Displays.Proofs.Sensor

/-!
# Whose options are restored

The options of a display are looked up by what the configuration that is taken over says of it, and
they are requested of an output and a mode by name and index, at a time when the hardware may hold
another configuration. So they reach the display they belong to if the output still carries it, and
its mode if the output still offers this at the same place. Requests and restorations do neither
change: whatever happens to the settings of an output, its device stays.
-/

namespace Displays

/-- The output apart from what can be requested of it. -/
def Output.device (o : Output) : Output :=
  (⟨false, ⟨0, 0⟩, 0, .on, 1, .unknown⟩ : Settings).apply o

/-- The id of the display on an output, if its EDID tells one. -/
def Output.displayId? (o : Output) : Option String :=
  o.identity?.map Identity.displayId

/-- The outputs apart from what can be requested of them. -/
def Configuration.devices (c : Configuration) : List Output :=
  c.outputs.map Output.device

section Device

variable {o p : Output}

private theorem device_write (change : Change) (o : Output) :
    (change.write o).device = o.device := by
  cases change <;> rfl

private theorem device_apply (s : Settings) (o : Output) : (s.apply o).device = o.device := rfl

/-- Settings make the same of the same device. -/
theorem apply_of_device (s : Settings) (h : o.device = p.device) : s.apply o = s.apply p := by
  have hdevice : ∀ o : Output, s.apply o.device = s.apply o := fun _ => rfl
  rw [← hdevice o, h, hdevice]

/-- Outputs with the same device have the same display. -/
theorem displayId?_of_device (h : o.device = p.device) : o.displayId? = p.displayId? := by
  have hdevice : ∀ o : Output, o.device.displayId? = o.displayId? := fun _ => rfl
  rw [← hdevice o, h, hdevice]

/-- Outputs with the same device offer the same modes. -/
theorem modes_of_device (h : o.device = p.device) : o.modes = p.modes := by
  have hdevice : ∀ o : Output, o.device.modes = o.modes := fun _ => rfl
  rw [← hdevice o, h, hdevice]

/-- A screen that shows an output tells its display. -/
theorem Screen.Shows.displayId? {s : Screen} (h : s.Shows o) : s.displayId? = o.displayId? := by
  rw [Screen.displayId?, h.identity, Output.displayId?]

end Device

namespace Configuration

variable {c d : Configuration} {id : OutputId} {o : Output}

private theorem devices_modify {f : Output → Output} (hf : ∀ o, (f o).device = o.device)
    (c : Configuration) (id : OutputId) : (c.modify id f).devices = c.devices :=
  map_modifyFirst _ Output.device hf c.outputs

private theorem ids_eq_of_devices (h : c.devices = d.devices) : c.ids = d.ids := by
  have hids : ∀ c : Configuration, c.devices.map Output.id = c.ids := fun c => by
    rw [devices, List.map_map]
    rfl
  rw [← hids c, ← hids d, h]

/-- Configurations of the same devices have the same device under each name. -/
theorem exists_output?_of_devices (h : c.devices = d.devices) (ho : d.output? id = some o) :
    ∃ p, c.output? id = some p ∧ p.device = o.device := by
  have hfind : ∀ c : Configuration,
      (c.output? id).map Output.device = c.devices.find? fun p => p.id = id := fun c => by
    rw [devices, List.find?_map]
    rfl
  refine Option.map_eq_some_iff.mp ?_
  rw [hfind, h, ← hfind, ho, Option.map_some]

end Configuration

open Holding (held)

namespace Recorded

variable {H : Type} [Hardware H] (r : Recorded H)

/-- A reading is no accepted submission. -/
@[simp] theorem accepted_read : (Hardware.read r).2.accepted = r.accepted := by
  change (r.calls ++ [Call.read _]).filterMap Call.accepted? = _
  simp only [List.filterMap_append, List.filterMap_cons, Call.accepted?, List.filterMap_nil,
    List.append_nil, accepted]

private theorem accepted_of_refused {c : Configuration} {fault : HardwareFault}
    (h : (Hardware.submit c r).1 = .error fault) :
    (Hardware.submit c r).2.accepted = r.accepted := by
  change (r.calls ++ [Call.submit c (Hardware.submit c r).1]).filterMap Call.accepted? = _
  simp only [h, List.filterMap_append, List.filterMap_cons, Call.accepted?, List.filterMap_nil,
    List.append_nil, accepted]

end Recorded

namespace Guarded

variable {H : Type} [Hardware H] [Holding H]

/-- Following a notification keeps the devices. -/
theorem devices_follow (n : Notification) (h : H) :
    (held (follow n h).2).devices = (held h).devices := by
  rcases held_follow n h with ⟨hheld, _⟩ | ⟨_, hheld⟩
  · rw [hheld]
  · rw [hheld]
    exact Configuration.devices_modify (device_write n.change) (held h) n.output

/-- Following a queue keeps the devices. -/
theorem devices_followAll (q : List Notification) (h : H) :
    (held (followAll q h).2).devices = (held h).devices := by
  induction q generalizing h with
  | nil => rfl
  | cons n q ih => rw [followAll_cons, ih, devices_follow]

/-- A submission is accepted and held, or changes neither what is held nor what was accepted. -/
theorem submit_outcomes (c : Configuration) (r : Recorded H) :
    ((submit c r).2.accepted = r.accepted ∧ held (submit c r).2 = held r) ∨
      held (submit c r).2 = c := by
  rcases submit_cases c r with ⟨_, _, h⟩ | ⟨_, hok, h⟩ | ⟨_, _, hfault, h⟩
  · exact .inl (by rw [h]; exact ⟨rfl, rfl⟩)
  · exact .inr (by rw [h]; exact Holding.held_accepted c r hok)
  · exact .inl (by
      rw [h]
      exact ⟨r.accepted_of_refused hfault, Holding.held_refused c r _ hfault⟩)

/-- A request has no submission accepted and leaves what is held, or it writes the settings into the
output. -/
theorem request_outcomes (id : OutputId) (s : Settings) (r : Recorded H) :
    ((request id s r).2.accepted = r.accepted ∧ held (request id s r).2 = held r) ∨
    (∃ o, (held r).output? id = some o) ∧
      held (request id s r).2 = (held r).modify id s.apply := by
  have hlog := r.accepted_read
  have hheld := Holding.held_read r
  have heq := Holding.eq_held r
  rcases hread : Hardware.read r with ⟨answer, r'⟩
  rw [hread] at hlog hheld heq
  cases answer with
  | error fault =>
    exact .inl (by simp only [request, requestAll, read, hread, hlog, hheld, and_self])
  | ok c =>
    obtain rfl := heq c rfl
    cases ho : (held r).output? id with
    | none =>
      left
      simp only [request, requestAll, read, hread, Configuration.requestAll, Configuration.request,
        ho, hlog, hheld, and_self]
    | some o =>
      cases hc : o.connected with
      | false =>
        left
        simp only [request, requestAll, read, hread, Configuration.requestAll,
          Configuration.request, ho, hc, Bool.false_eq_true, ite_false, hlog, hheld, and_self]
      | true =>
        rw [request_eq_submit hread ho hc]
        rcases submit_outcomes ((held r).modify id s.apply) r' with ⟨haccepted, hkept⟩ | hnew
        · exact .inl ⟨haccepted.trans hlog, hkept.trans hheld⟩
        · exact .inr ⟨⟨o, rfl⟩, hnew⟩

end Guarded

namespace Model

variable {m : Model} {id : OutputId} {c : Configuration}

private theorem mem_of_mem_added {l : List Output} (h : id ∈ (m.absorbOutputs l).2) :
    id ∈ l.map Output.id := by
  induction l generalizing m with
  | nil => exact h
  | cons o l ih =>
    rw [added_cons] at h
    rw [List.map_cons]
    split at h
    · exact List.mem_cons_of_mem o.id (ih h)
    · exact (List.mem_cons.mp h).elim (fun he => he ▸ List.mem_cons_self) fun h =>
        List.mem_cons_of_mem o.id (ih h)

/-- An output that is new gets a new screen. -/
theorem screen?_of_mem_added (hc : c.ids.Nodup) (h : id ∈ (m.absorb c).2.added) :
    ∃ q, c.output? id = some q ∧ (m.absorb c).1.screen? id = some (.ofOutput q) := by
  obtain ⟨q, hq, rfl⟩ := List.mem_map.mp (mem_of_mem_added (m := m.kept c) h)
  obtain ⟨hmem, hconnected⟩ := List.mem_filter.mp hq
  have hold : m.screen? q.id = none := by
    rw [← screen?_kept (isConnected_of_mem hc hmem hconnected)]
    exact screen?_eq_none.mpr ((nodup_added_absorbOutputs (m.kept c) _).2 q.id h)
  refine ⟨q, Configuration.output?_of_mem hc hmem, ?_⟩
  rw [screen?_absorb hc hmem hconnected, screenOf, hold, Option.elim_none]

end Model

/-- Remembered options become the settings that say the same, of a mode that is on offer. -/
theorem Options.toSettings?_eq_some {options : Options} {modes : List Mode} {settings : Settings}
    (h : options.toSettings? modes = some settings) :
    settings = ⟨options.used, options.topLeft, settings.modeIndex, options.power, options.scale,
      options.form⟩ ∧
    ∀ mode, options.mode = some mode →
      modes.idxOf mode = settings.modeIndex ∧ modes[settings.modeIndex]? = some mode := by
  cases hmode : options.mode with
  | none =>
    simp only [toSettings?, hmode, Option.bind_eq_bind, Option.bind_some, Option.pure_def,
      Option.some.injEq] at h
    rw [← h]
    exact ⟨rfl, fun mode hmode => by cases hmode⟩
  | some mode =>
    simp only [toSettings?, hmode, Option.bind_eq_bind, Option.bind_eq_some_iff, Option.pure_def,
      Option.some.injEq] at h
    obtain ⟨index, hindex, rfl⟩ := h
    refine ⟨rfl, fun mode hmode => ?_⟩
    obtain rfl := Option.some.inj hmode
    obtain ⟨hlt, hget, -⟩ := List.idxOf?_eq_some_iff.mp hindex
    exact ⟨by rw [List.idxOf_eq_getD_idxOf?, hindex, Option.getD_some],
      List.getElem?_eq_some_iff.mpr ⟨hlt, hget⟩⟩

namespace State

variable {H : Type}

/-- What is remembered is found under the id of the display that the screen tells. -/
theorem remembered?_eq_some {s : State H} {id : OutputId} {settings : Settings}
    (h : s.remembered? id = some settings) :
    ∃ storage screen key options, s.storage = some storage ∧ s.model.screen? id = some screen ∧
      screen.displayId? = some key ∧ storage.load? key = some options ∧
      options.toSettings? screen.modes = some settings := by
  simp only [remembered?, Option.bind_eq_bind, Option.bind_eq_some_iff] at h
  obtain ⟨storage, hstorage, screen, hscreen, identity, hidentity, options, hload, h⟩ := h
  refine ⟨storage, screen, identity.displayId, options, hstorage, hscreen, ?_, hload, h⟩
  rw [Screen.displayId?, hidentity, Option.map_some]

variable [Hardware H]

/-- The state that takes over a configuration, once the options of these outputs were requested. -/
def upTo (s : State H) (c : Configuration) (ids : List OutputId) : State H :=
  ids.foldl (fun s id => s.restore id)
    ({ s with model := (s.model.absorb c).1 } : State H).process.2

private theorem storage_upTo (s : State H) (c : Configuration) (ids : List OutputId) :
    (s.upTo c ids).storage = s.storage := by
  rw [upTo, foldl_restore_eq]
  exact storage_process _

variable [Holding H] {s : State H} {id : OutputId}

/-- Processing keeps the devices. -/
theorem devices_process (s : State H) :
    (held s.process.2.hardware).devices = (held s.hardware).devices := by
  have hfollow := Guarded.devices_followAll s.model.queue s.hardware
  rcases process_cases s with ⟨_, h⟩ | ⟨_, _, _, _, h⟩ | ⟨_, _, _, _, h⟩
  · rw [h, hfollow]
  · rw [h, Holding.held_read, hfollow]
  · rw [h, Holding.held_read, hfollow]

/-- A screen that shows an output goes on to do so, or it shows what the hardware has under its
name, as long as names do not repeat there. -/
theorem shows_process {t u : Screen} {q : Output} (hn : (held s.hardware).ids.Nodup)
    (ht : s.model.screen? id = some t) (hq : t.Shows q)
    (hu : s.process.2.model.screen? id = some u) :
    u.Shows q ∨ ∃ o, (held s.process.2.hardware).output? id = some o ∧ u.Shows o := by
  have hids := Configuration.ids_eq_of_devices s.devices_process
  rcases process_cases s with ⟨_, h⟩ | ⟨_, _, _, _, h⟩ | ⟨_, _, c, hc, h⟩
  · rw [h] at hu
    exact .inl (Option.some.inj (ht.symm.trans hu) ▸ hq)
  · rw [h] at hu
    exact .inl (Option.some.inj (ht.symm.trans hu) ▸ hq)
  · right
    have hheld : held s.process.2.hardware = c := by
      rw [h, Holding.held_read, ← Holding.eq_held _ c hc]
    rw [hheld] at hids ⊢
    rw [h] at hu
    change (s.model.drained.absorb c).1.screen? id = some u at hu
    have hmem : id ∈ (s.model.drained.absorb c).1.ids := Model.isSome_screen?.mp (hu ▸ rfl)
    rw [Model.mem_ids_absorb_iff, Configuration.mem_connectedIds] at hmem
    obtain ⟨o, ho, hoc, rfl⟩ := hmem
    have hnc : c.ids.Nodup := hids ▸ hn
    have hdrained : s.model.drained.screen? o.id = some t := ht
    refine ⟨o, Configuration.output?_of_mem hnc ho, ?_⟩
    rw [Model.screen?_absorb hnc ho hoc, Model.screenOf, hdrained, Option.elim_some] at hu
    obtain rfl := Option.some.inj hu
    exact Screen.shows_follow (Model.id_of_screen? ht) hq.known

section Recorded

variable {s : State (Recorded H)} {c : Configuration} {before after : List OutputId}

/-- Restoring options keeps the devices. -/
theorem devices_restore (id : OutputId) (s : State (Recorded H)) :
    (held (s.restore id).hardware).devices = (held s.hardware).devices := by
  unfold restore
  cases s.remembered? id with
  | none => rfl
  | some settings =>
    rcases Guarded.request_outcomes id settings s.hardware with ⟨_, hheld⟩ | ⟨_, hheld⟩
    · rw [hheld]
    · rw [hheld]
      exact Configuration.devices_modify (device_apply settings) _ id

private theorem devices_upTo (s : State (Recorded H)) (c : Configuration) (ids : List OutputId) :
    (held (s.upTo c ids).hardware).devices = (held s.hardware).devices := by
  have hfold : ∀ (ids : List OutputId) (s : State (Recorded H)),
      (held (ids.foldl (fun s id => s.restore id) s).hardware).devices =
        (held s.hardware).devices := by
    intro ids
    induction ids with
    | nil => exact fun s => rfl
    | cons id ids ih => exact fun s => (ih _).trans (devices_restore id s)
  exact (hfold ids _).trans (devices_process _)

/-- A restoration that has a submission accepted writes what is remembered into the output. -/
theorem restore_of_accepted
    (h : (s.restore id).hardware.accepted ≠ s.hardware.accepted) :
    ∃ settings o, s.remembered? id = some settings ∧ (held s.hardware).output? id = some o ∧
      (held (s.restore id).hardware).output? id = some (settings.apply o) := by
  cases hr : s.remembered? id with
  | none => exact absurd (by simp only [restore, hr]) h
  | some settings =>
    have hrestore : (s.restore id).hardware = (Guarded.request id settings s.hardware).2 := by
      simp only [restore, hr]
    rw [hrestore] at h ⊢
    rcases Guarded.request_outcomes id settings s.hardware with ⟨hlog, _⟩ | ⟨⟨o, ho⟩, hheld⟩
    · exact absurd hlog h
    · refine ⟨settings, o, rfl, ho, ?_⟩
      rw [hheld, Configuration.output?_modify (f := settings.apply) fun _ => rfl, if_pos rfl, ho,
        Option.map_some]

/-- When the options of a new output are requested, its screen shows the output as it was taken
over, or the same device as the hardware has under its name. -/
theorem shows_upTo (hc : c.ids.Nodup) (hn : (held s.hardware).ids.Nodup)
    (hid : id ∈ (s.model.absorb c).2.added) {u : Screen}
    (hu : (s.upTo c before).model.screen? id = some u) :
    ∃ q, c.output? id = some q ∧
      (u.Shows q ∨ ∃ o p, (held s.hardware).output? id = some o ∧ p.device = o.device ∧
        u.Shows p) := by
  obtain ⟨q, hq, hscreen⟩ := Model.screen?_of_mem_added hc hid
  refine ⟨q, hq, ?_⟩
  rw [upTo, model_foldl_restore] at hu
  have hstart : (held ({ s with model := (s.model.absorb c).1 } :
      State (Recorded H)).hardware).ids.Nodup := hn
  rcases shows_process hstart hscreen (Screen.shows_ofOutput q) hu with h | ⟨p, hp, h⟩
  · exact .inl h
  · right
    obtain ⟨o, ho, hdevice⟩ := Configuration.exists_output?_of_devices
      (devices_process ({ s with model := (s.model.absorb c).1 } : State (Recorded H))).symm hp
    exact ⟨o, p, ho, hdevice.symm, h⟩

/-- Whose options are restored: if names do not repeat, neither in the configuration that is taken
over nor in the one that the hardware holds, a restoration that has a submission accepted writes
what is remembered under the display id of the screen, and nothing else, into the output. If the
display on it has the id that the configuration says, this is the display that the options belong
to; and the output gets the remembered mode if it offers this where the configuration says. -/
theorem restored_to_recipient (hc : c.ids.Nodup) (hn : (held s.hardware).ids.Nodup)
    (hadded : (s.model.absorb c).2.added = before ++ id :: after)
    (haccepted : ((s.upTo c before).restore id).hardware.accepted ≠
      (s.upTo c before).hardware.accepted) :
    (s.handle (.configuration c)).2 =
      after.foldl (fun s id => s.restore id) ((s.upTo c before).restore id) ∧
    ∃ q o p storage key options index,
      c.output? id = some q ∧ (held s.hardware).output? id = some o ∧
      (held ((s.upTo c before).restore id).hardware).output? id = some p ∧
      s.storage = some storage ∧
      ((s.upTo c before).model.screen? id).bind Screen.displayId? = some key ∧
      storage.load? key = some options ∧
      p = { o with
        used := options.used, topLeft := options.topLeft, modeIndex := index
        power := options.power, scale := options.scale, form := options.form } ∧
      (o.displayId? = q.displayId? → p.displayId? = some key) ∧
      ∀ mode, options.mode = some mode → o.modes[q.modes.idxOf mode]? = some mode →
        p.mode? = some mode := by
  have hid : id ∈ (s.model.absorb c).2.added :=
    hadded ▸ List.mem_append_right before List.mem_cons_self
  obtain ⟨settings, r, hremembered, hr, hp⟩ := restore_of_accepted haccepted
  obtain ⟨storage, u, key, options, hstorage, hu, hkey, hload, hsettings⟩ :=
    remembered?_eq_some hremembered
  obtain ⟨hwritten, hmodes⟩ := Options.toSettings?_eq_some hsettings
  obtain ⟨q, hq, hshows⟩ := shows_upTo hc hn hid hu
  obtain ⟨o, ho, hdevice⟩ :=
    Configuration.exists_output?_of_devices (devices_upTo s c before).symm hr
  refine ⟨?_, q, o, settings.apply o, storage, key, options, settings.modeIndex, hq, ho,
    hp.trans (congrArg some (apply_of_device settings hdevice.symm)),
    (storage_upTo s c before).symm.trans hstorage, ?_, hload, ?_, fun hdisplay => ?_,
    fun mode hmode hoffer => ?_⟩
  · rw [handle_eq]
    change (s.model.absorb c).2.added.foldl _ _ = _
    rw [hadded, List.foldl_append]
    rfl
  · rw [hu]
    exact hkey
  · rw [hwritten]
    rfl
  · change o.displayId? = some key
    rcases hshows with h | ⟨o', p, ho', hp, h⟩
    · rw [hdisplay, ← h.displayId?, hkey]
    · obtain rfl := Option.some.inj (ho.symm.trans ho')
      rw [← displayId?_of_device hp, ← h.displayId?, hkey]
  · change o.modes[settings.modeIndex]? = some mode
    obtain ⟨hindex, hget⟩ := hmodes mode hmode
    rcases hshows with h | ⟨o', p, ho', hp, h⟩
    · rw [← hindex, h.modes, hoffer]
    · obtain rfl := Option.some.inj (ho.symm.trans ho')
      rw [← modes_of_device hp, ← h.modes, hget]

end Recorded

/-- A display is connected beside another one, and the other one is gone by the time its options are
requested. -/
theorem restored_to_recipient_identified :
    let mode : Mode := ⟨⟨1920, 1080⟩, 60000⟩
    let options : Options := ⟨true, ⟨0, 0⟩, some mode, 2, .monitor, .on⟩
    let storage : Storage := ⟨"options", [("???-0000-0", options)]⟩
    let s : State (Recorded Held) :=
      { hardware := { hardware := { configuration := ⟨[.identified]⟩ } }
        storage := some storage }
    let c : Configuration := ⟨[.plain "HDMI-1", .identified]⟩
    let before : List OutputId := ["HDMI-1"]
    ∃ p, (held ((s.upTo c before).restore "DP-1").hardware).output? "DP-1" = some p ∧
      p.displayId? = some "???-0000-0" ∧ p.mode? = some mode ∧ p.scale = 2 := by
  intro mode options storage s c before
  have hc : c.ids.Nodup := by decide
  have hn : (held s.hardware).ids.Nodup := by decide
  have hadded : (s.model.absorb c).2.added = before ++ "DP-1" :: [] := by decide +kernel
  have haccepted : ((s.upTo c before).restore "DP-1").hardware.accepted ≠
      (s.upTo c before).hardware.accepted :=
    fun h => absurd (congrArg List.length h) (by decide +kernel)
  obtain ⟨-, q, o, p, stored, key, found, index, hq, ho, hp, hstorage, hkey, hload, hwritten,
    hdisplay, hmode⟩ := restored_to_recipient hc hn hadded haccepted
  have hq' : c.output? "DP-1" = some .identified :=
    Configuration.output?_of_mem hc (List.mem_cons_of_mem _ List.mem_cons_self)
  have ho' : (held s.hardware).output? "DP-1" = some .identified :=
    Configuration.output?_of_mem hn List.mem_cons_self
  obtain rfl := Option.some.inj (hq'.symm.trans hq)
  obtain rfl := Option.some.inj (ho'.symm.trans ho)
  obtain rfl : "???-0000-0" = key := by
    refine Option.some.inj (Eq.trans ?_ hkey)
    decide +kernel
  obtain rfl : storage = stored := Option.some.inj hstorage
  have hload' : storage.load? "???-0000-0" = some options := by decide +kernel
  obtain rfl := Option.some.inj (hload'.symm.trans hload)
  exact ⟨p, hp, hdisplay rfl, hmode mode rfl (by decide +kernel), by rw [hwritten]⟩

/-- Options that reach another display, or another mode: the display was replaced since the
configuration was taken, which the hardware tells only by the EDID; its modes changed since; the
configuration has its name twice; or the hardware has it twice, and a request that fails makes the
state take over what the hardware says. -/
theorem options_reach_another :
    let wide : Mode := ⟨⟨1920, 1080⟩, 60000⟩
    let narrow : Mode := ⟨⟨1280, 720⟩, 60000⟩
    let storage : Storage :=
      ⟨"options", [("???-0000-0", ⟨true, ⟨0, 0⟩, some wide, 2, .monitor, .on⟩)]⟩
    let start (h : Held) : State (Recorded Held) :=
      { hardware := { hardware := h }, storage := some storage }
    let known : Output := .identified
    let other : Output := .plain "DP-1"
    let second : Output := { known with modes := [narrow, wide] }
    let waiting : State (Recorded Held) :=
      { (start { configuration := ⟨[.plain "HDMI-1"]⟩ }).sync.2 with
        hardware :=
          { hardware :=
              { configuration := ⟨[.plain "HDMI-1", other, known]⟩
                rejection := some ⟨"busy", 0, some 1⟩ } } }
    let failing : State (Recorded Held) :=
      { waiting with model := (waiting.model.mutate "HDMI-1" (.used false)).2 }
    let told (s : State (Recorded Held)) (c : Configuration) :=
      (s.handle (.configuration c)).2.hardware.accepted.map fun d =>
        d.outputs.map fun o => (o.id, o.displayId?, o.mode?, o.scale)
    told (start { configuration := ⟨[other]⟩ }) ⟨[known]⟩ = [[("DP-1", none, some wide, 2)]] ∧
    told (start { configuration := ⟨[second]⟩ }) ⟨[known]⟩ =
      [[("DP-1", some "???-0000-0", some narrow, 2)]] ∧
    told (start { configuration := ⟨[other]⟩ }) ⟨[other, known]⟩ =
      [[("DP-1", none, some wide, 2)]] ∧
    told failing ⟨[.plain "HDMI-1", other]⟩ =
      [[("HDMI-1", none, some wide, 1), ("DP-1", none, some wide, 2),
        ("DP-1", some "???-0000-0", some wide, 1)]] := by
  intro wide narrow storage start known other second waiting failing told
  exact ⟨by decide +kernel, by decide +kernel, by decide +kernel, by decide +kernel⟩

end State

end Displays
