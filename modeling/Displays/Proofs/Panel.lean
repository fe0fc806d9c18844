import Displays.Hardware.Held
import Displays.Proofs.Sensor
import Displays.Proofs.Watching

/-!
# Turning the picture of the built-in panel

A watcher reports a tilt once, and a panel that is dark does not hear of it; a panel that is
connected anew starts upright. So the picture of the panel is turned by the last tilt it heard: the
last one that told an orientation and was reported while the panel was lit, since it was connected.
What the watcher keeps up from poll to poll is that every panel listens while the watcher has it
lit; what it keeps up of a panel that stays connected is also that it does not listen while dark.
-/

namespace Displays

/-- The tilt, if it is one and addressed to this output. -/
def Observation.tilt? (id : OutputId) : Observation → Option Tilt
  | .tilt k t => if k = id then some t else none
  | .configuration _ => none
  | .lit _ => none

private theorem Observation.tilt?_eq_some {id : OutputId} {o : Observation} {t : Tilt} :
    o.tilt? id = some t ↔ o = .tilt id t := by
  cases o with
  | tilt k u =>
    simp only [tilt?, Option.ite_none_right_eq_some, Option.some.injEq, Observation.tilt.injEq]
  | configuration c => simp only [tilt?, reduceCtorEq]
  | lit lit => simp only [tilt?, reduceCtorEq]

namespace Watcher

/-- The built-in panel of the last configuration shows a picture. -/
def IsLit (w : Watcher) : Prop :=
  w.configuration.bind Configuration.lit? = some true

instance (w : Watcher) : Decidable w.IsLit :=
  inferInstanceAs (Decidable (_ = _))

/-- The tilts that polls report of an output while the panel is lit. -/
def heard (id : OutputId) (w : Watcher) : List Reading → List Tilt
  | [] => []
  | r :: rest =>
    let p := w.poll true r
    (if p.watcher.IsLit then p.sent.filterMap (Observation.tilt? id) else []) ++
      p.watcher.heard id rest

/-- What a poll of the tilt does that is listened to: it sends nothing, or the tilt to the panel. -/
theorem pollTilt_outcomes (w : Watcher) (reading : Except IoFault Tilt) :
    ((w.pollTilt true reading).sent = [] ∧
      (w.pollTilt true reading).watcher.configuration = w.configuration ∧
      (w.pollTilt true reading).watcher.lit = w.lit) ∨
    ∃ t panel, w.configuration.bind Configuration.internal? = some panel ∧
      w.pollTilt true reading = ⟨true, [.tilt panel.id t], { w with tilt := some t }⟩ := by
  cases reading with
  | error fault => exact .inl ⟨rfl, rfl, rfl⟩
  | ok t =>
    by_cases ht : w.tilt = some t
    · have hp : w.pollTilt true (.ok t) = ⟨true, [], w⟩ := by
        simp only [pollTilt, ht, ite_true]
      rw [hp]
      exact .inl ⟨rfl, rfl, rfl⟩
    · cases hpanel : w.configuration.bind Configuration.internal? with
      | none =>
        have hp : w.pollTilt true (.ok t) = ⟨true, [], { w with tilt := some t }⟩ := by
          simp only [pollTilt, ht, ite_false, hpanel]
        rw [hp]
        exact .inl ⟨rfl, rfl, rfl⟩
      | some panel =>
        exact .inr ⟨t, panel, rfl, by simp only [pollTilt, ht, ite_false, hpanel, ite_true]⟩

/-- A poll of the tilt leaves what is known of the hardware. -/
theorem pollTilt_keeps (w : Watcher) (reading : Except IoFault Tilt) :
    (w.pollTilt true reading).watcher.configuration = w.configuration ∧
    (w.pollTilt true reading).watcher.lit = w.lit := by
  rcases w.pollTilt_outcomes reading with ⟨_, hc, hl⟩ | ⟨t, panel, _, hp⟩
  · exact ⟨hc, hl⟩
  · rw [hp]
    exact ⟨rfl, rfl⟩

/-- A poll of the hardware sends no tilt. -/
theorem tilt_not_mem_pollHardware (w : Watcher) (reading : Except HardwareFault Configuration)
    (id : OutputId) (t : Tilt) : .tilt id t ∉ (w.pollHardware true reading).sent := by
  rcases w.pollHardware_outcomes reading with ⟨hp, _⟩ | ⟨c, _, _, ⟨_, hp⟩ | ⟨_, hp⟩⟩
  · rw [hp]
    exact List.not_mem_nil
  · rw [hp]
    exact fun h => Observation.noConfusion (List.mem_singleton.mp h)
  · rw [hp]
    intro h
    rcases List.mem_cons.mp h with h | h
    · exact Observation.noConfusion h
    · rw [Option.mem_toList, Option.map_eq_some_iff] at h
      obtain ⟨_, _, h⟩ := h
      exact Observation.noConfusion h

/-- A poll of the tilt does not decide whether the panel is lit. -/
theorem isLit_poll (w : Watcher) (r : Reading) :
    (w.poll true r).watcher.IsLit ↔ (w.pollHardware true r.hardware).watcher.IsLit := by
  cases ha : r.accelerometer with
  | none => rw [poll_of_none ha]
  | some reading => rw [poll_of_some ha, IsLit, IsLit, (pollTilt_keeps _ reading).1]

/-- What is heard at a poll was sent by its poll of the tilt. -/
theorem mem_heard_singleton {w : Watcher} {id : OutputId} {r : Reading} {t : Tilt} :
    t ∈ w.heard id [r] ↔ (w.pollHardware true r.hardware).watcher.IsLit ∧
      ∃ reading, r.accelerometer = some reading ∧
        .tilt id t ∈ ((w.pollHardware true r.hardware).watcher.pollTilt true reading).sent := by
  have hsent : ∀ l : List Observation,
      t ∈ l.filterMap (Observation.tilt? id) ↔ .tilt id t ∈ l := by
    intro l
    simp only [List.mem_filterMap, Observation.tilt?_eq_some, exists_eq_right]
  have hnot := w.tilt_not_mem_pollHardware r.hardware id t
  by_cases hlit : (w.pollHardware true r.hardware).watcher.IsLit
  · simp only [heard, isLit_poll, hlit, ite_true, List.append_nil, hsent, true_and]
    cases ha : r.accelerometer with
    | none => simp only [poll_of_none ha, hnot, reduceCtorEq, false_and, exists_false]
    | some reading =>
      simp only [poll_of_some ha, List.mem_append, hnot, false_or, Option.some.injEq,
        exists_eq_left']
  · simp only [heard, isLit_poll, hlit, ite_false, List.append_nil, List.not_mem_nil, false_and]

private theorem heard_cons (id : OutputId) (w : Watcher) (r : Reading) (rest : List Reading) :
    w.heard id (r :: rest) = w.heard id [r] ++ (w.poll true r).watcher.heard id rest := by
  simp only [heard, List.append_nil]

private theorem pollAll_append (l k : List Reading) (w : Watcher) :
    w.pollAll (l ++ k) =
      ((w.pollAll l).1 ++ ((w.pollAll l).2.pollAll k).1, ((w.pollAll l).2.pollAll k).2) := by
  induction l generalizing w with
  | nil => rfl
  | cons r l ih => simp only [List.cons_append, pollAll, ih, List.append_assoc]

end Watcher

/-- A configuration with a built-in output connected has a built-in panel. -/
theorem Configuration.exists_lit? {c : Configuration} {id : OutputId}
    (hid : Location.ofOutput id = .internal) (hc : Model.isConnected c id = true) :
    ∃ lit, c.lit? = some lit := by
  obtain ⟨o, ho, hconnected⟩ := Model.isConnected_iff.mp hc
  have hpanel : c.internal?.isSome = true := by
    refine List.find?_isSome.mpr ⟨o, mem_of_output? ho, ?_⟩
    rw [id_of_output? ho, hid, hconnected]
    rfl
  obtain ⟨panel, hp⟩ := Option.isSome_iff_exists.mp hpanel
  exact ⟨_, by rw [lit?, hp, Option.map_some]⟩

/-- A built-in panel is connected and built in. -/
theorem Configuration.internal_of_internal? {c : Configuration} {panel : Output}
    (h : c.internal? = some panel) :
    panel.id ∈ c.connectedIds ∧ Location.ofOutput panel.id = .internal := by
  have hp := List.find?_some h
  simp only [Bool.and_eq_true, decide_eq_true_eq] at hp
  exact ⟨mem_connectedIds.mpr ⟨panel, List.mem_of_find?_eq_some h, hp.1, rfl⟩, hp.2⟩

variable {H : Type} [Hardware H] {w : Watcher} {s : State H} {id : OutputId} {t : Tilt}

namespace State

/-- The state handled all that the watcher sent: the connected outputs have screens, and every
built-in one listens to the sensor if the watcher has the panel lit. -/
structure Attends (w : Watcher) (s : State H) : Prop where
  /-- The state is one that is reached. -/
  reachable : s.Reachable
  /-- Nothing waits. -/
  queue : s.model.queue = []
  /-- The watcher remembers of the panel what its configuration says. -/
  lit : w.lit = w.configuration.bind Configuration.lit?
  /-- All connected outputs have screens. -/
  screens : ∀ c, w.configuration = some c → ∀ id ∈ c.connectedIds, id ∈ s.model.ids
  /-- If the panel is lit, every built-in screen follows the sensor. -/
  listening : w.lit = some true → ∀ u ∈ s.model.screens, u.location = .internal → u.sensor = true

/-- The screens of such a state are of the place that their names tell. -/
theorem Attends.located (h : s.Attends w) : s.model.Located :=
  Model.located_of_reachable (reachable_model h.reachable)

/-- Such a state has no two screens of one name. -/
theorem Attends.nodup (h : s.Attends w) : s.model.ids.Nodup :=
  (Model.wellFormed_of_reachable (reachable_model h.reachable)).nodup

/-- The panel shows a picture exactly if the watcher noted so. -/
theorem Attends.isLit_iff (h : s.Attends w) : w.IsLit ↔ w.lit = some true := by
  rw [Watcher.IsLit, h.lit]

/-- Handling a configuration and what the watcher notes of it leaves the state attentive, if the
panel did not come on by it. -/
theorem attends_configuration (h : s.Attends w) (c : Configuration)
    (hlit : c.lit? = some true → w.lit = some true) :
    (s.handle (.configuration c)).2.Attends { w with configuration := some c, lit := c.lit? } where
  reachable := .handle _ h.reachable
  queue := queue_handle s _
  lit := rfl
  screens := by
    rintro d hd id hid
    obtain rfl := Option.some.inj hd
    rw [model_handle h.queue]
    exact Model.mem_ids_absorb_iff.mpr hid
  listening hon := by
    rw [model_handle h.queue]
    exact Model.forall_absorb (fun _ _ _ h => h) (fun s hs _ => h.listening (hlit hon) s hs)
      fun o _ _ ho => decide_eq_true ho

/-- Handling that the panel was lit or went dark leaves the state attentive. -/
theorem attends_lit {c : Configuration} {lit : Bool} (hr : s.Reachable)
    (hq : s.model.queue = []) (hids : ∀ id ∈ c.connectedIds, id ∈ s.model.ids)
    (hlit : c.lit? = some lit) :
    (s.handle (.lit lit)).2.Attends { w with configuration := some c, lit := c.lit? } where
  reachable := .handle _ hr
  queue := queue_handle s _
  lit := rfl
  screens := by
    rintro d hd id hid
    obtain rfl := Option.some.inj hd
    rw [model_handle hq]
    exact (Model.ids_setLit s.model lit).symm ▸ hids id hid
  listening hon := by
    have htrue : lit = true := Option.some.inj (hlit.symm.trans hon)
    rw [model_handle hq]
    intro t ht hint
    obtain ⟨u, _, rfl⟩ := List.mem_map.mp ht
    by_cases hu : u.location = .internal
    · simp only [Screen.setLit, hu, ite_true, htrue]
    · rw [Screen.setLit, if_neg hu] at hint
      exact absurd hint hu

/-- The state stays attentive as it handles what a poll of the hardware sends. -/
theorem attends_pollHardware (h : s.Attends w) (reading : Except HardwareFault Configuration) :
    (s.handleAll (w.pollHardware true reading).sent).Attends
      (w.pollHardware true reading).watcher := by
  rcases w.pollHardware_outcomes reading with ⟨hp, _⟩ | ⟨c, _, _, ⟨hlit, hp⟩ | ⟨hlit, hp⟩⟩
  · rw [hp]
    exact h
  · rw [hp]
    have hc := attends_configuration h c (hlit ▸ fun h => h)
    rwa [← hlit] at hc
  · rw [hp]
    change (s.handleAll (.configuration c :: (c.lit?.map Observation.lit).toList)).Attends
      { w with configuration := some c, lit := c.lit? }
    cases hc : c.lit? with
    | none =>
      have hdark := attends_configuration h c (by simp only [hc, reduceCtorEq, false_imp_iff])
      rwa [hc] at hdark
    | some lit =>
      have hids : ∀ id ∈ c.connectedIds, id ∈ (s.handle (.configuration c)).2.model.ids := by
        rw [model_handle h.queue]
        exact fun id hid => Model.mem_ids_absorb_iff.mpr hid
      have hlast := attends_lit (w := w) (.handle _ h.reachable) (queue_handle s _) hids hc
      rwa [hc] at hlast

/-- The state stays attentive as it handles what a poll of the accelerometer sends. -/
theorem attends_pollTilt (h : s.Attends w) (reading : Except IoFault Tilt) :
    (s.handleAll (w.pollTilt true reading).sent).Attends (w.pollTilt true reading).watcher := by
  obtain ⟨hconfiguration, hlit⟩ := w.pollTilt_keeps reading
  rcases w.pollTilt_outcomes reading with ⟨hsent, _, _⟩ | ⟨t, panel, _, hp⟩
  · rw [hsent]
    exact ⟨h.reachable, h.queue, by rw [hlit, hconfiguration, h.lit],
      hconfiguration ▸ h.screens, hlit ▸ h.listening⟩
  · rw [hp]
    refine ⟨.handle _ h.reachable, queue_handle s _, h.lit, ?_, fun hon => ?_⟩
    · change ∀ c, _ → ∀ id ∈ _, id ∈ (s.handle (.tilt panel.id t)).2.model.ids
      rw [model_handle h.queue]
      exact fun c hc id hid => Model.ids_update.symm ▸ h.screens c hc id hid
    · change ∀ u ∈ (s.handle (.tilt panel.id t)).2.model.screens, _
      rw [model_handle h.queue]
      refine Model.forall_update (h.listening hon) fun u hu _ => ?_
      obtain ⟨turned, hturned⟩ := u.tilt_eq t
      rw [hturned]
      exact h.listening hon u hu

/-- The state stays attentive as it handles what a poll sends. -/
theorem attends_poll (h : s.Attends w) (r : Reading) :
    (s.handleAll (w.poll true r).sent).Attends (w.poll true r).watcher := by
  have hhardware := attends_pollHardware h r.hardware
  cases ha : r.accelerometer with
  | none =>
    rw [Watcher.poll_of_none ha]
    exact hhardware
  | some reading =>
    rw [Watcher.poll_of_some ha, handleAll_append]
    exact attends_pollTilt hhardware reading

/-- However long the watcher polls, the state attends to it. -/
theorem attends_pollAll (h : s.Attends w) (l : List Reading) :
    (s.handleAll (w.pollAll l).1).Attends (w.pollAll l).2 := by
  induction l generalizing s w with
  | nil => exact h
  | cons r l ih =>
    simp only [Watcher.pollAll, handleAll_append]
    exact ih (attends_poll h r)

/-- A built-in panel that stays connected is turned for this tilt, and listens exactly while the
watcher has it lit. -/
structure Attuned (id : OutputId) (t : Tilt) (w : Watcher) (s : State H) : Prop where
  /-- The panel has a screen. -/
  present : id ∈ s.model.ids
  /-- The picture is turned as it has to be. -/
  turned : ∀ u ∈ s.model.screens, u.id = id → u.Turned t
  /-- The screen follows the sensor just if the watcher has the panel lit. -/
  listening : ∀ u ∈ s.model.screens, u.id = id → (u.sensor = true ↔ w.lit = some true)

/-- Handling a configuration that keeps the panel connected leaves it turned, and listening or not,
as it was. -/
theorem attuned_configuration {c : Configuration} (hs : s.Attends w) (h : s.Attuned id t w)
    (hc : Model.isConnected c id = true) : (s.handle (.configuration c)).2.Attuned id t w := by
  obtain ⟨o, ho, hconnected⟩ := Model.isConnected_iff.mp hc
  have hold : ∀ o : Output, (Model.isConnected c o.id = true → o.id ∉ s.model.ids) → o.id ≠ id :=
    fun o ho he => ho (he ▸ hc) (he ▸ h.present)
  constructor
  · rw [model_handle hs.queue]
    exact Model.mem_ids_absorb_iff.mpr (Configuration.mem_connectedIds.mpr
      ⟨o, Configuration.mem_of_output? ho, hconnected, Configuration.id_of_output? ho⟩)
  · rw [model_handle hs.queue]
    exact Model.forall_absorb (fun _ _ _ h => h) (fun u hu _ => h.turned u hu)
      fun o _ ho he => absurd he (hold o ho)
  · rw [model_handle hs.queue]
    exact Model.forall_absorb (fun _ _ _ h => h) (fun u hu _ => h.listening u hu)
      fun o _ ho he => absurd he (hold o ho)

/-- Whether the panel is lit decides whether it listens, whatever it did before. -/
theorem attuned_lit {lit : Bool} (hq : s.model.queue = []) (hl : s.model.Located)
    (hid : Location.ofOutput id = .internal) (hp : id ∈ s.model.ids)
    (ht : ∀ u ∈ s.model.screens, u.id = id → u.Turned t) (hw : w.lit = some lit) :
    (s.handle (.lit lit)).2.Attuned id t w := by
  constructor
  · rw [model_handle hq]
    exact (Model.ids_setLit s.model lit).symm ▸ hp
  · rw [model_handle hq]
    intro v hv he
    obtain ⟨u, hu, rfl⟩ := List.mem_map.mp hv
    rw [Screen.setLit_id] at he
    exact Screen.turned_setLit.mpr (ht u hu he)
  · rw [model_handle hq]
    intro v hv he
    obtain ⟨u, hu, rfl⟩ := List.mem_map.mp hv
    rw [Screen.setLit_id] at he
    have hint : u.location = .internal := (hl u hu).trans (he ▸ hid)
    rw [Screen.setLit, if_pos hint, hw, Option.some.injEq]

/-- A poll of the hardware leaves a panel attuned that stays connected. -/
theorem attuned_pollHardware (hs : s.Attends w) (h : s.Attuned id t w)
    (hid : Location.ofOutput id = .internal) {reading : Except HardwareFault Configuration}
    (hconnected : ∀ c, reading = .ok c → Model.isConnected c id = true) :
    (s.handleAll (w.pollHardware true reading).sent).Attuned id t
      (w.pollHardware true reading).watcher := by
  rcases w.pollHardware_outcomes reading with ⟨hp, _⟩ | ⟨c, hc, _, ⟨_, hp⟩ | ⟨_, hp⟩⟩
  · rw [hp]
    exact h
  · rw [hp]
    have hc := attuned_configuration hs h (hconnected c hc)
    exact ⟨hc.present, hc.turned, hc.listening⟩
  · rw [hp]
    have habsorbed := attuned_configuration hs h (hconnected c hc)
    obtain ⟨lit, hlit⟩ := Configuration.exists_lit? hid (hconnected c hc)
    have hr : (s.handle (.configuration c)).2.Reachable := .handle _ hs.reachable
    change (s.handleAll (.configuration c :: (c.lit?.map Observation.lit).toList)).Attuned id t
      { w with configuration := some c, lit := c.lit? }
    rw [hlit]
    exact attuned_lit (queue_handle s _) (Model.located_of_reachable (reachable_model hr)) hid
      habsorbed.present habsorbed.turned rfl

/-- So does a poll of the tilt if the panel hears no other tilt that tells an orientation. -/
theorem attuned_pollTilt (hs : s.Attends w) (h : s.Attuned id t w) {reading : Except IoFault Tilt}
    (hheard : w.lit = some true → ∀ u, .tilt id u ∈ (w.pollTilt true reading).sent →
      u ∈ Tilt.upright → u = t) :
    (s.handleAll (w.pollTilt true reading).sent).Attuned id t
      (w.pollTilt true reading).watcher := by
  obtain ⟨_, hlit⟩ := w.pollTilt_keeps reading
  rcases w.pollTilt_outcomes reading with ⟨hsent, _, _⟩ | ⟨u, panel, _, hp⟩
  · rw [hsent]
    exact ⟨h.present, h.turned, hlit ▸ h.listening⟩
  · rw [hp] at hheard ⊢
    change (s.handle (.tilt panel.id u)).2.Attuned id t { w with tilt := some u }
    constructor
    · rw [model_handle hs.queue]
      exact Model.ids_update.symm ▸ h.present
    · rw [model_handle hs.queue]
      refine Model.forall_update h.turned fun v hv hpanel he => ?_
      rw [Screen.tilt_id] at he
      refine Screen.turned_tilt (h.turned v hv he) fun hsensor => ?_
      have hsame : panel.id = id := hpanel.symm.trans he
      exact hheard ((h.listening v hv he).mp hsensor) u (hsame ▸ List.mem_singleton_self _)
    · rw [model_handle hs.queue]
      refine Model.forall_update h.listening fun v hv hpanel he => ?_
      obtain ⟨turned, hturned⟩ := v.tilt_eq u
      rw [Screen.tilt_id] at he
      rw [hturned]
      exact h.listening v hv he

/-- A panel that is attuned once the hardware was polled is so after the whole poll. -/
theorem attuned_poll_of_hardware (hs : s.Attends w) {r : Reading}
    (h : (s.handleAll (w.pollHardware true r.hardware).sent).Attuned id t
      (w.pollHardware true r.hardware).watcher)
    (hheard : ∀ u ∈ w.heard id [r], u ∈ Tilt.upright → u = t) :
    (s.handleAll (w.poll true r).sent).Attuned id t (w.poll true r).watcher := by
  have hafter := attends_pollHardware hs r.hardware
  cases ha : r.accelerometer with
  | none =>
    rw [Watcher.poll_of_none ha]
    exact h
  | some reading =>
    rw [Watcher.poll_of_some ha, handleAll_append]
    refine attuned_pollTilt hafter h fun hon u hu => hheard u ?_
    exact Watcher.mem_heard_singleton.mpr ⟨hafter.isLit_iff.mpr hon, reading, ha, hu⟩

/-- As long as a panel stays connected and hears no other tilt that tells an orientation, it stays
attuned. -/
theorem attuned_pollAll (hs : s.Attends w) (h : s.Attuned id t w)
    (hid : Location.ofOutput id = .internal) {l : List Reading}
    (hconnected : ∀ r ∈ l, ∀ c, r.hardware = .ok c → Model.isConnected c id = true)
    (hheard : ∀ u ∈ w.heard id l, u ∈ Tilt.upright → u = t) :
    (s.handleAll (w.pollAll l).1).Attuned id t (w.pollAll l).2 := by
  induction l generalizing s w with
  | nil => exact h
  | cons r l ih =>
    rw [Watcher.heard_cons] at hheard
    have hfirst := attuned_poll_of_hardware hs
      (attuned_pollHardware hs h hid (hconnected r List.mem_cons_self)) fun u hu =>
        hheard u (List.mem_append_left _ hu)
    simp only [Watcher.pollAll, handleAll_append]
    exact ih (attends_poll hs r) hfirst (fun r' hr => hconnected r' (List.mem_cons_of_mem r hr))
      fun u hu => hheard u (List.mem_append_right _ hu)

/-- A tilt that tells an orientation attunes the panel that hears it. -/
theorem attuned_of_heard (hs : s.Attends w) (ht : t ∈ Tilt.upright) {r : Reading}
    (h : t ∈ w.heard id [r]) :
    (s.handleAll (w.poll true r).sent).Attuned id t (w.poll true r).watcher := by
  obtain ⟨hlit, reading, ha, hsent⟩ := Watcher.mem_heard_singleton.mp h
  have hafter := attends_pollHardware hs r.hardware
  have hon := hafter.isLit_iff.mp hlit
  rw [Watcher.poll_of_some ha, handleAll_append]
  generalize (w.pollHardware true r.hardware).watcher = w' at *
  generalize s.handleAll (w.pollHardware true r.hardware).sent = s' at *
  rcases w'.pollTilt_outcomes reading with ⟨hnone, _⟩ | ⟨u, panel, hpanel, hp⟩
  · rw [hnone] at hsent
    exact absurd hsent List.not_mem_nil
  · rw [hp] at hsent ⊢
    obtain ⟨rfl, rfl⟩ := Observation.tilt.inj (List.mem_singleton.mp hsent)
    obtain ⟨c, hc, hpanel⟩ := Option.bind_eq_some_iff.mp hpanel
    obtain ⟨hconnected, hid⟩ := Configuration.internal_of_internal? hpanel
    change (s'.handle (.tilt panel.id t)).2.Attuned panel.id t { w' with tilt := some t }
    -- Names do not repeat, so the screens with this name are the one that the tilt turned.
    have htilted : ∀ v ∈ (s'.handle (.tilt panel.id t)).2.model.screens, v.id = panel.id →
        ∃ u ∈ s'.model.screens, u.sensor = true ∧ v = (u.tilt t).1 := by
      rw [model_handle hafter.queue]
      intro v hv he
      change v ∈ (s'.model.update panel.id .hardware (Screen.tilt t)).screens at hv
      rw [Model.screens_update hafter.nodup fun u => u.tilt_id t] at hv
      obtain ⟨u, hu, rfl⟩ := List.mem_map.mp hv
      by_cases hue : u.id = panel.id
      · rw [if_pos hue]
        have hint : u.location = .internal := (hafter.located u hu).trans (hue ▸ hid)
        exact ⟨u, hu, hafter.listening hon u hu hint, rfl⟩
      · rw [if_neg hue] at he
        exact absurd he hue
    constructor
    · rw [model_handle hafter.queue]
      exact Model.ids_update.symm ▸ hafter.screens c hc panel.id hconnected
    · intro v hv he
      obtain ⟨u, _, hsensor, rfl⟩ := htilted v hv he
      exact Screen.turned_of_listening hsensor ht
    · intro v hv he
      obtain ⟨u, _, hsensor, rfl⟩ := htilted v hv he
      obtain ⟨turned, hturned⟩ := u.tilt_eq t
      rw [hturned]
      exact iff_of_true hsensor hon

/-- A screen that a poll makes appear is turned as if the device stood upright. -/
theorem turned_of_new (hs : s.Attends w) (hnew : id ∉ s.model.ids)
    (reading : Except HardwareFault Configuration) :
    ∀ u ∈ (s.handleAll (w.pollHardware true reading).sent).model.screens,
      u.id = id → u.Turned .topUp := by
  have hold : ∀ u ∈ s.model.screens, u.id = id → u.Turned .topUp := fun u hu he =>
    absurd (he ▸ List.mem_map_of_mem hu) hnew
  have habsorbed : ∀ c, ∀ u ∈ (s.handle (.configuration c)).2.model.screens,
      u.id = id → u.Turned .topUp := by
    intro c
    rw [model_handle hs.queue]
    exact Model.forall_absorb (fun _ _ _ h => h) (fun u hu _ => hold u hu)
      fun o _ _ _ => Screen.turned_ofOutput o
  rcases w.pollHardware_outcomes reading with ⟨hp, _⟩ | ⟨c, _, _, ⟨_, hp⟩ | ⟨_, hp⟩⟩
  · rw [hp]
    exact hold
  · rw [hp]
    exact habsorbed c
  · rw [hp]
    change ∀ u ∈ (s.handleAll
      (.configuration c :: (c.lit?.map Observation.lit).toList)).model.screens, _
    cases c.lit? with
    | none => exact habsorbed c
    | some lit =>
      change ∀ u ∈ ((s.handle (.configuration c)).2.handle (.lit lit)).2.model.screens, _
      rw [model_handle (queue_handle s _)]
      intro v hv he
      obtain ⟨u, hu, rfl⟩ := List.mem_map.mp hv
      rw [Screen.setLit_id] at he
      exact Screen.turned_setLit.mpr (habsorbed c u hu he)

/-- A panel that appears lit is attuned to a device that stands upright, unless it hears of another
tilt at once. -/
theorem attuned_of_appeared (hs : s.Attends w) (hid : Location.ofOutput id = .internal)
    (hnew : id ∉ s.model.ids) {r : Reading}
    (hpresent : id ∈ (s.handleAll (w.poll true r).sent).model.ids)
    (hlit : (w.poll true r).watcher.IsLit)
    (hheard : ∀ u ∈ w.heard id [r], u ∈ Tilt.upright → u = .topUp) :
    (s.handleAll (w.poll true r).sent).Attuned id .topUp (w.poll true r).watcher := by
  have hafter := attends_pollHardware hs r.hardware
  have hon := hafter.isLit_iff.mp ((w.isLit_poll r).mp hlit)
  refine attuned_poll_of_hardware hs ⟨?_, turned_of_new hs hnew r.hardware, ?_⟩ hheard
  · cases ha : r.accelerometer with
    | none => rwa [Watcher.poll_of_none ha] at hpresent
    | some reading =>
      rw [Watcher.poll_of_some ha, handleAll_append] at hpresent
      rcases (w.pollHardware true r.hardware).watcher.pollTilt_outcomes reading with
        ⟨hsent, _⟩ | ⟨u, panel, _, hp⟩
      · rwa [hsent] at hpresent
      · rw [hp] at hpresent
        change id ∈ (State.handle (.tilt panel.id u) _).2.model.ids at hpresent
        rw [model_handle hafter.queue] at hpresent
        exact Model.ids_update ▸ hpresent
  · intro u hu he
    exact iff_of_true (hafter.listening hon u hu ((hafter.located u hu).trans (he ▸ hid))) hon

/-- A watcher that has not polled yet is attended by every state in which nothing waits. -/
theorem attends_start (hs : s.Reachable) (hq : s.model.queue = []) : s.Attends {} where
  reachable := hs
  queue := hq
  lit := rfl
  screens _ h := by simp only [reduceCtorEq] at h
  listening h := by simp only [reduceCtorEq] at h

/-- The picture of a built-in panel is turned by the last tilt that told an orientation and was
reported while the panel was lit, as long as the panel stays connected. Without such a report it is
that of a device that stands upright, if the panel was lit when its screen appeared. -/
theorem turned_by_last_heard (hs : s.Reachable) (hq : s.model.queue = [])
    (hid : Location.ofOutput id = .internal) (ht : t ∈ Tilt.upright)
    {before later : List Reading} {r : Reading} {sent : List Observation}
    (hbefore : Watcher.pollAll {} before = (sent, w))
    (hstart : t ∈ w.heard id [r] ∨
      t = .topUp ∧ (w.poll true r).watcher.IsLit ∧ id ∉ (s.handleAll sent).model.ids ∧
        id ∈ ((s.handleAll sent).handleAll (w.poll true r).sent).model.ids)
    (hheard : ∀ u ∈ w.heard id (r :: later), u ∈ Tilt.upright → u = t)
    (hconnected : ∀ reading ∈ later, ∀ c, reading.hardware = .ok c →
      Model.isConnected c id = true) :
    ∃ screen, (s.handleAll (Watcher.pollAll {} (before ++ r :: later)).1).model.screen? id =
      some screen ∧ screen.Turned t := by
  have hattends : (s.handleAll sent).Attends w := by
    have h := attends_pollAll (attends_start hs hq) before
    rwa [hbefore] at h
  rw [Watcher.heard_cons] at hheard
  have hfirst : ((s.handleAll sent).handleAll (w.poll true r).sent).Attuned id t
      (w.poll true r).watcher := by
    rcases hstart with h | ⟨rfl, hlit, hnew, hpresent⟩
    · exact attuned_of_heard hattends ht h
    · exact attuned_of_appeared hattends hid hnew hpresent hlit fun u hu =>
        hheard u (List.mem_append_left _ hu)
  have hlast := attuned_pollAll (attends_poll hattends r) hfirst hid hconnected fun u hu =>
    hheard u (List.mem_append_right _ hu)
  have hall : s.handleAll (Watcher.pollAll {} (before ++ r :: later)).1 =
      ((s.handleAll sent).handleAll (w.poll true r).sent).handleAll
        ((w.poll true r).watcher.pollAll later).1 := by
    rw [Watcher.pollAll_append, hbefore]
    simp only [Watcher.pollAll, handleAll_append]
  rw [hall]
  obtain ⟨screen, hscreen⟩ := Option.isSome_iff_exists.mp (Model.isSome_screen?.mpr hlast.present)
  exact ⟨screen, hscreen,
    hlast.turned screen (Model.mem_of_screen? hscreen) (Model.id_of_screen? hscreen)⟩

end State

/-- A successful poll of a hardware with a built-in panel only. -/
def Reading.panel (power : PowerMode) (t : Tilt) : Reading :=
  ⟨.ok ⟨[{ Output.plain "eDP-1" with power }]⟩, some (.ok t)⟩

namespace State

/-- The device is turned while the panel is lit, then to and fro while it is dark. -/
theorem turned_by_last_heard_dark :
    let s : State Held := { hardware := { configuration := ⟨[]⟩ } }
    let before : List Reading := [.panel .on .topUp]
    let later : List Reading := [.panel .off .leftUp, .panel .on .rightUp]
    ∃ screen, (s.handleAll (Watcher.pollAll {}
        (before ++ .panel .on .rightUp :: later)).1).model.screen? "eDP-1" = some screen ∧
      screen.Turned .rightUp := by
  intro s before later
  have hbefore : Watcher.pollAll {} before =
      ((Watcher.pollAll {} before).1, (Watcher.pollAll {} before).2) := rfl
  have hconnected : ∀ reading ∈ later, ∀ c, reading.hardware = .ok c →
      Model.isConnected c "eDP-1" = true := by
    intro reading hr c hc
    rcases List.mem_pair.mp hr with rfl | rfl <;> cases hc <;> decide +kernel
  exact turned_by_last_heard (.start s.hardware) rfl (by decide +kernel) (by decide) hbefore
    (.inl (by decide +kernel)) (by decide +kernel) hconnected

/-- The panel misses that the device is turned while it is dark, not connected, or not known yet:
the tilt is not reported again. -/
theorem tilt_missed :
    let s : State Held := { hardware := { configuration := ⟨[]⟩ } }
    let dark : List Reading := [.panel .on .topUp, .panel .off .rightUp, .panel .on .rightUp]
    let gone : List Reading :=
      [.panel .on .rightUp, ⟨.ok ⟨[]⟩, some (.ok .rightUp)⟩, .panel .on .rightUp]
    let unknown : List Reading :=
      [⟨.error (.unsupported (.stated "unplugged")), some (.ok .rightUp)⟩, .panel .on .rightUp]
    ∀ readings ∈ [dark, gone, unknown],
      (Watcher.pollAll {} readings).2.IsLit ∧
      (Watcher.pollAll {} readings).2.tilt = some .rightUp ∧
      ∃ screen ∈ (s.handleAll (Watcher.pollAll {} readings).1).model.screens,
        screen.id = "eDP-1" ∧ ¬ screen.Turned .rightUp := by
  decide +kernel

end State

end Displays
