import Displays.Proofs.Amending
import Displays.Proofs.Arrivals
import Displays.Proofs.Convergence
import Displays.Proofs.Judgement
import Displays.Proofs.Merging

/-!
# What setting an output leaves behind

If the state is in line with the hardware and nothing waits, setting an output either refuses what
the screen cannot have, before the hardware is asked for anything, or changes the one output of the
hardware. If it succeeds, this output has what the request names, and else what it had: the position
is requested with all settings of the screen, but these are what the hardware has by then, up to a
rounding of the scale. Taking over the outcome brings no screen, so no remembered options interfere.
-/

namespace Displays

/-- Requests to one output change it by what they tell one after the other. -/
theorem SetRequest.foldl_requested (id : OutputId) (changes : List Change) (c : Configuration) :
    ((requested id changes).filter Notification.isRequest).foldl (fun c n => n.applied c) c =
      c.modify id (Change.writeAll changes) := by
  induction changes generalizing c with
  | nil => exact Configuration.modify_self.symm
  | cons change changes ih =>
    cases hf : change.field.isFollowed with
    | true =>
      have hr : (⟨id, change, .software⟩ : Notification).isRequest = true :=
        Notification.isRequest_iff.mpr ⟨rfl, hf⟩
      rw [requested, List.map_cons, List.filter_cons_of_pos hr, List.foldl_cons, ← requested, ih,
        Notification.applied, Configuration.modify_modify change.write_id]
      rfl
    | false =>
      have hr : ¬ (⟨id, change, .software⟩ : Notification).isRequest = true := fun hr =>
        Bool.noConfusion (hf.symm.trans (Notification.isRequest_iff.mp hr).2)
      have hwrite : Change.writeAll (change :: changes) = Change.writeAll changes := by
        funext o
        exact congrArg (Change.writeAll changes) (Change.write_of_not_followed hf o)
      rw [requested, List.map_cons, List.filter_cons_of_neg hr, ← requested, ih, hwrite]

variable {H : Type} [Hardware H]

namespace State

variable {s : State H} {id : OutputId}

/-- Processing succeeds only if nothing in the queue failed, and then leaves the hardware that
followed it. -/
theorem process_eq_ok (h : s.process.1 = .ok ()) :
    (Guarded.followAll s.model.queue s.hardware).1 = [] ∧
    s.process.2.hardware = (Guarded.followAll s.model.queue s.hardware).2 := by
  rcases process_cases s with ⟨hok, hp⟩ | ⟨_, _, _, _, hp⟩ | ⟨_, _, _, _, hp⟩
  · rw [hp]
    exact ⟨hok, rfl⟩
  · rw [hp] at h
    cases h
  · rw [hp] at h
    cases h

/-- Placing an output succeeds only if its screen is there and the request for its position is
accepted. -/
theorem place_eq_ok {position : Point} (h : (s.place id position).1 = .ok ()) :
    ∃ t, s.model.screen? id = some t ∧
      let settings := { t.settings with topLeft := position }
      (Guarded.request id settings s.hardware).1 = .ok () ∧
      (s.place id position).2.hardware = (Guarded.request id settings s.hardware).2 := by
  cases hs : s.model.screen? id with
  | none =>
    simp only [place, hs] at h
    cases h
  | some t =>
    refine ⟨t, rfl, ?_⟩
    rcases hr : Guarded.request id { t.settings with topLeft := position } s.hardware with
      ⟨answer, h'⟩
    cases answer with
    | error fault =>
      simp only [place, hs, hr] at h
      cases h
    | ok v => simp only [place, hs, hr, and_self]

/-- Confirming an output succeeds only if the configuration could be taken over. -/
theorem confirm_eq_ok {text : String} (h : (s.confirm id).1 = .ok text) : s.sync.1 = .ok () := by
  rcases hs : s.sync with ⟨answer, t⟩
  cases answer with
  | error fault =>
    simp only [confirm, hs] at h
    cases h
  | ok v => rfl

/-- What the requests to the screen refuse, setting an output refuses. -/
theorem set_of_refused {r : SetRequest} {t : Screen} {fault : ConfigFault}
    (hs : s.model.screen? r.output = some t) (h : (r.apply s.model).1 = .error fault) :
    s.set r = (.error (.config fault), s.asked r) := by
  rcases ha : r.apply s.model with ⟨answer, m⟩
  rw [ha] at h
  subst h
  simp only [set, hs, ha, asked]

/-- If its screen is missing or refuses anything that is named, setting an output asks the hardware
for nothing. -/
theorem set_of_not_fits {r : SetRequest} (hn : s.model.ids.Nodup)
    (h : ∀ t ∈ s.model.screen? r.output, ¬ r.Fits t.modes) :
    (∃ fault, (s.set r).1 = .error fault) ∧ (s.set r).2.hardware = s.hardware := by
  cases ht : s.model.screen? r.output with
  | none =>
    have hset : s.set r = (.error (.noOutput r.output), s) := by simp only [set, ht]
    rw [hset]
    exact ⟨⟨_, rfl⟩, rfl⟩
  | some t =>
    cases ha : (r.apply s.model).1 with
    | error fault =>
      rw [set_of_refused ht ha]
      exact ⟨⟨_, rfl⟩, rfl⟩
    | ok v => exact absurd (SetRequest.apply_eq_ok hn ht ha).1 (h t ht)

/-- The hardware once the position was requested, if one is named. -/
def Placed (r : SetRequest) (s : State H) (h : H) : Prop :=
  r.position = none ∧ h = s.hardware ∨
    ∃ position, r.position = some position ∧ (s.place r.output position).1 = .ok () ∧
      h = (s.place r.output position).2.hardware

/-- What setting an output has done if it succeeds: it made the requests to the screen, had the
hardware follow them, requested the position, and took over the outcome. -/
theorem set_eq_ok {r : SetRequest} {text : String} (h : (s.set r).1 = .ok text) :
    ∃ t, s.model.screen? r.output = some t ∧ (r.apply s.model).1 = .ok () ∧
      (s.asked r).process.1 = .ok () ∧
      ∃ u : State H, u.model = (s.asked r).process.2.model ∧
        Placed r (s.asked r).process.2 u.hardware ∧ u.sync.1 = .ok () ∧ (s.set r).2 = u.sync.2 := by
  cases hs : s.model.screen? r.output with
  | none =>
    simp only [set, hs] at h
    cases h
  | some t =>
    cases ha : (r.apply s.model).1 with
    | error fault =>
      rw [set_of_refused hs ha] at h
      cases h
    | ok v =>
      refine ⟨t, rfl, rfl, ?_⟩
      rcases set_cases r s with hset | ⟨_, _, hset⟩ | ⟨_, _, hset⟩ | ⟨hp, hnone, hset⟩ |
        ⟨_, _, _, _, _, hset⟩ | ⟨position, hp, hsome, hplace, hset⟩
      · rw [hset] at h
        cases h
      · rw [hset] at h
        cases h
      · rw [hset] at h
        cases h
      · rw [hset] at h ⊢
        exact ⟨hp, _, rfl, .inl ⟨hnone, rfl⟩, confirm_eq_ok h, confirm_snd _ _⟩
      · rw [hset] at h
        cases h
      · rw [hset] at h ⊢
        exact ⟨hp, _, model_place _ _ _, .inr ⟨position, hsome, hplace, rfl⟩, confirm_eq_ok h,
          confirm_snd _ _⟩

end State

variable [Holding H]

open Holding (held)

namespace Guarded

variable {q : List Notification} {h : H} {id : OutputId} {settings : Settings}

/-- If the requests in a queue are for connected outputs, hardware that follows it without a fault
has carried out all of them, one after the other. -/
theorem held_followAll (hn : (held h).ids.Nodup)
    (hq : ∀ n ∈ q, n.isRequest = true → n.output ∈ (held h).connectedIds)
    (hok : (followAll q h).1 = []) :
    held (followAll q h).2 =
      (q.filter Notification.isRequest).foldl (fun c n => n.applied c) (held h) := by
  induction q generalizing h with
  | nil => rfl
  | cons n q ih =>
    obtain ⟨hfirst, hrest⟩ := followAll_cons_eq_nil hok
    have hn' : (held (follow n h).2).ids.Nodup := by rw [ids_follow]; exact hn
    have hq' : ∀ k ∈ q, k.isRequest = true → k.output ∈ (held (follow n h).2).connectedIds := by
      rw [connectedIds_follow]
      exact fun k hk => hq k (List.mem_cons_of_mem n hk)
    rw [followAll_cons, ih hn' hq' hrest]
    rcases held_follow n h with ⟨he, hdue⟩ | ⟨hd, he⟩
    · have hr : ¬ n.isRequest = true := fun hr => by
        have hmem := hq n List.mem_cons_self hr
        exact hdue hfirst ⟨hr, (Configuration.mem_connectedIds_iff_output? hn).mp hmem⟩
      rw [List.filter_cons_of_neg hr, he]
    · rw [List.filter_cons_of_pos hd.1, List.foldl_cons, he]

/-- What was submitted with success is held. -/
theorem held_submit {c : Configuration} (hok : (submit c h).1 = .ok ()) :
    held (submit c h).2 = c := by
  rcases submit_cases c h with ⟨_, _, hs⟩ | ⟨_, haccepted, hs⟩ | ⟨_, _, _, hs⟩
  · rw [hs] at hok
    cases hok
  · rw [hs]
    exact Holding.held_accepted c h haccepted
  · rw [hs] at hok
    cases hok

/-- A request that succeeds has changed the one output. -/
theorem held_request (hok : (request id settings h).1 = .ok ()) :
    held (request id settings h).2 = (held h).modify id settings.apply := by
  rcases hr : Hardware.read h with ⟨answer, h'⟩
  cases answer with
  | error fault =>
    rw [request, requestAll_of_unread hr] at hok
    cases hok
  | ok c =>
    have hc : c = held h := Holding.eq_held h c (congrArg Prod.fst hr)
    by_cases hp : c.Plugged id
    · obtain ⟨o, ho, hconnected⟩ := hp
      rw [request_eq_submit hr ho hconnected] at hok ⊢
      rw [held_submit hok, hc]
    · rw [request, requestAll_of_read hr, Configuration.requestAll,
        Configuration.request_of_not_plugged hp] at hok
      cases hok

end Guarded

namespace State

variable {s : State H} {c : Configuration}

/-- The hardware holds this configuration, the model mirrors it, and nothing waits. -/
structure InSync (s : State H) (c : Configuration) : Prop where
  /-- Nothing waits. -/
  queue : s.model.queue = []
  /-- The hardware holds this configuration. -/
  holds : held s.hardware = c
  /-- The model mirrors it. -/
  mirrors : s.model.Mirrors c

/-- The screens of a state in line with the hardware have different names. -/
theorem InSync.nodup (hs : s.InSync c) (hc : c.ids.Nodup) : s.model.ids.Nodup :=
  hs.mirrors.ids.nodup_iff.mpr (Configuration.nodup_connectedIds hc)

/-- Taking over a configuration that could be read is handling the observation of what the hardware
holds. -/
theorem sync_eq_ok (h : s.sync.1 = .ok ()) :
    s.sync = ({ s with hardware := (Hardware.read s.hardware).2 } : State H).handle
      (.configuration (held s.hardware)) := by
  rcases hr : Hardware.read s.hardware with ⟨answer, h'⟩
  cases answer with
  | error fault =>
    simp only [sync, Guarded.read, hr] at h
    cases h
  | ok d =>
    have hd : d = held s.hardware := Holding.eq_held _ d (congrArg Prod.fst hr)
    simp only [sync, Guarded.read, hr, handle, hd]

/-- Taking over the configuration of the hardware brings the model in line with it. -/
theorem model_sync (h : s.sync.1 = .ok ()) :
    s.sync.2.model = (s.model.absorb (held s.hardware)).1.drained := by
  have hsync := sync_eq_ok h
  rw [handle_eq] at hsync
  rw [hsync] at h ⊢
  rw [model_foldl_restore, model_process_of_ok h]
  rfl

/-- Each connected output then has its screen. -/
theorem screen?_sync {o : Output} (hn : (held s.hardware).ids.Nodup) (h : s.sync.1 = .ok ())
    (ho : o ∈ (held s.hardware).outputs) (hconnected : o.connected = true) :
    s.sync.2.model.screen? o.id = some (s.model.screenOf o) := by
  rw [model_sync h]
  exact Model.screen?_absorb hn ho hconnected

/-- A state is in line with the hardware once it took over its configuration, unless that changed
meanwhile, as remembered options may do for outputs that get a screen. -/
theorem inSync_sync (hs : s.Reachable) (hn : (held s.hardware).ids.Nodup) (h : s.sync.1 = .ok ())
    (hkept : held s.sync.2.hardware = held s.hardware) : s.sync.2.InSync (held s.hardware) where
  queue := by rw [model_sync h]; rfl
  holds := hkept
  mirrors := by
    have hmirrors := Model.mirrors_absorb (Model.wellFormed_of_reachable (reachable_model hs)) hn
    rw [model_sync h]
    exact ⟨hmirrors.ids, hmirrors.shows⟩

/-- If nothing waits and every connected output has a screen, taking over the configuration of the
hardware does not change it. -/
theorem held_sync (hq : s.model.queue = []) (hn : (held s.hardware).ids.Nodup)
    (hids : (held s.hardware).connectedIds ⊆ s.model.ids) (h : s.sync.1 = .ok ()) :
    held s.sync.2.hardware = held s.hardware := by
  have hadded : (s.model.absorb (held s.hardware)).2.added = [] := by
    rw [Model.added_absorb _ hn, List.filter_eq_nil_iff]
    intro id hid
    simpa using hids hid
  have hnews : ∀ n ∈ (s.model.absorb (held s.hardware)).1.queue, n.origin = .hardware := by
    obtain ⟨news, hnews, hhw⟩ := s.model.queue_absorb (held s.hardware)
    rw [hnews, hq, List.nil_append]
    exact hhw
  rw [sync_eq_ok h, handle_eq, process_of_hardware hnews, drain_of_hardware hnews,
    Observation.added, hadded]
  exact Holding.held_read s.hardware

end State

namespace SetRequest

/-- The output is the other one with what the request names, but for the scale: where none is named,
or one that is equal to the scale of the screen up to rounding, it is the old one up to rounding. -/
structure Obeyed (r : SetRequest) (t : Screen) (o p : Output) : Prop where
  /-- All fields but the scale are as the request names them, or as they were. -/
  fields : p = { o with
    used := r.used.getD o.used
    topLeft := r.position.getD o.topLeft
    modeIndex := (r.index? o.modes).getD o.modeIndex
    form := r.form.getD o.form
    scale := p.scale }
  /-- The scale is the one that the request names, if the screen has another one. -/
  named : ∀ x ∈ r.scale, scaleEq t.scale x = false → p.scale = x
  /-- The scale is the old one up to rounding, if the request names none or the one of the
  screen. -/
  kept : (∀ x ∈ r.scale, scaleEq t.scale x = true) →
    p.scale = o.scale ∨ scaleEq p.scale o.scale = true

variable {r : SetRequest} {t : Screen} {o p : Output}

private theorem rescaled_of_named {x old : Float} (hx : x ∈ r.scale)
    (h : scaleEq t.scale x = false) :
    r.rescaled t old = x := by
  rw [rescaled, Option.mem_def.mp hx, Option.elim_some, h, if_neg Bool.false_ne_true]

private theorem rescaled_of_kept {old : Float} (h : ∀ x ∈ r.scale, scaleEq t.scale x = true) :
    r.rescaled t old = old := by
  cases hx : r.scale with
  | none => rw [rescaled, hx, Option.elim_none]
  | some x => rw [rescaled, hx, Option.elim_some, if_pos (h x hx)]

/-- Whichever of two scales that are equal up to rounding is replaced. -/
theorem obeyed_of_rescaled (old : Float) (hold : old = o.scale ∨ scaleEq old o.scale = true)
    (hscale : p.scale = r.rescaled t old)
    (hfields : p = { o with
      used := r.used.getD o.used
      topLeft := r.position.getD o.topLeft
      modeIndex := (r.index? o.modes).getD o.modeIndex
      form := r.form.getD o.form
      scale := p.scale }) : r.Obeyed t o p where
  fields := hfields
  named _ hx hne := hscale.trans (rescaled_of_named hx hne)
  kept hkept := by
    rw [hscale, rescaled_of_kept hkept]
    exact hold

/-- What the hardware follows of the news, without a position. -/
theorem obeyed_carry (ht : t.Shows o) (hnone : r.position = none) : r.Obeyed t o (r.carry t o) := by
  refine obeyed_of_rescaled o.scale (.inl rfl) rfl ?_
  rw [carry, hnone, ht.modes]
  rfl

/-- What the hardware follows of the news, with the settings of the screen at a position. -/
theorem obeyed_place (ht : t.Shows o) {position : Point} (hsome : r.position = some position) :
    r.Obeyed t o
      (Settings.apply { (r.amend t).settings with topLeft := position } (r.carry t o)) := by
  refine obeyed_of_rescaled t.scale ht.scale rfl ?_
  rw [Settings.apply, Screen.settings, amend, carry, hsome, ht.used, ht.modes, ht.modeIndex,
    ht.form, ht.power]
  rfl

end SetRequest

namespace State

variable {s : State H} {c : Configuration} {r : SetRequest} {t : Screen}

/-- What the hardware holds once it followed the requests to the screen. -/
theorem held_asked (hs : s.InSync c) (hc : c.ids.Nodup) (ht : s.model.screen? r.output = some t)
    (ha : (r.apply s.model).1 = .ok ()) (hp : (s.asked r).process.1 = .ok ()) :
    ∃ changes, held (s.asked r).process.2.hardware = c.modify r.output (Change.writeAll changes) ∧
      ∀ o : Output, t.Shows o → Change.writeAll changes o = r.carry t o := by
  have hn := hs.nodup hc
  obtain ⟨-, -, changes, others, hqueue, hothers, hwrite⟩ := SetRequest.apply_eq_ok hn ht ha
  obtain ⟨hok, hhardware⟩ := process_eq_ok hp
  have hq : (s.asked r).model.queue = SetRequest.requested r.output changes ++ others := by
    rw [asked, hqueue, hs.queue, List.nil_append]
  have hnone : others.filter Notification.isRequest = [] :=
    List.filter_eq_nil_iff.mpr fun n hn => by rw [hothers n hn]; exact Bool.false_ne_true
  have hbase : held (s.asked r).hardware = c := hs.holds
  have hconnected : ∀ n ∈ (s.asked r).model.queue, n.isRequest = true →
      n.output ∈ (held (s.asked r).hardware).connectedIds := by
    intro n hmem hr
    rw [hq, List.mem_append] at hmem
    rcases hmem with hmem | hmem
    · obtain ⟨change, -, rfl⟩ := List.mem_map.mp hmem
      rw [hbase, ← hs.mirrors.ids.mem_iff]
      exact Model.isSome_screen?.mp (ht ▸ rfl)
    · exact absurd hr (by rw [hothers n hmem]; exact Bool.false_ne_true)
  have hheld := Guarded.held_followAll (hbase ▸ hc) hconnected hok
  rw [hq, List.filter_append, hnone, List.append_nil, SetRequest.foldl_requested, hbase, ← hq]
    at hheld
  exact ⟨changes, by rw [hhardware, hheld], fun o ho => hwrite o ho.used ho.modeIndex ho.form⟩

/-- What the hardware holds before its configuration is taken over in the end. -/
theorem held_placed (hs : s.InSync c) (hc : c.ids.Nodup) (ht : s.model.screen? r.output = some t)
    (ha : (r.apply s.model).1 = .ok ()) (hp : (s.asked r).process.1 = .ok ()) {h : H}
    (hh : Placed r (s.asked r).process.2 h) :
    ∃ f : Output → Output, held h = c.modify r.output f ∧ (∀ o, (f o).id = o.id) ∧
      (∀ o, (f o).connected = o.connected) ∧ ∀ o : Output, t.Shows o → r.Obeyed t o (f o) := by
  have hn := hs.nodup hc
  obtain ⟨changes, hheld, hwrite⟩ := held_asked hs hc ht ha hp
  have hid := Change.writeAll_id changes
  have hconnected := Change.writeAll_connected changes
  rcases hh with ⟨hnone, rfl⟩ | ⟨position, hsome, hok, rfl⟩
  · refine ⟨Change.writeAll changes, hheld, hid, hconnected, fun o ho => ?_⟩
    rw [hwrite o ho]
    exact SetRequest.obeyed_carry ho hnone
  · -- The screen has what the hardware just followed, so the settings that go with the position
    -- are not behind it.
    obtain ⟨t', ht', hrequest, hhardware⟩ := place_eq_ok hok
    have hscreen : (s.asked r).process.2.model.screen? r.output = some (r.amend t) := by
      rw [model_process_of_ok hp]
      exact (SetRequest.apply_eq_ok hn ht ha).2.1
    obtain rfl := Option.some.inj (hscreen.symm.trans ht')
    refine ⟨fun o => Settings.apply { (r.amend t).settings with topLeft := position }
      (Change.writeAll changes o), ?_, hid, hconnected, fun o ho => ?_⟩
    · rw [hhardware, Guarded.held_request hrequest, hheld, Configuration.modify_modify hid]
    · have hobeyed := SetRequest.obeyed_place ho hsome
      rwa [← hwrite o ho] at hobeyed

/-- If the state is in line with the hardware, nothing waits, and names do not repeat, setting an
output asks the hardware for nothing if its screen is missing or refuses anything that is named. If
setting it succeeds, the hardware differs in this output only, which has what is named, and its
screen is active if it was or is to be. -/
theorem set_obeys {s : State (Recorded H)} (hs : s.InSync c) (hc : c.ids.Nodup) (r : SetRequest) :
    ((∀ t ∈ s.model.screen? r.output, ¬ r.Fits t.modes) →
      (∃ fault, (s.set r).1 = .error fault) ∧ (s.set r).2.hardware = s.hardware) ∧
    ∀ text, (s.set r).1 = .ok text →
      ∃ t t' before o p after,
        s.model.screen? r.output = some t ∧ (s.set r).2.model.screen? r.output = some t' ∧
        t'.active = (t.active || r.activate) ∧
        c.outputs = before ++ o :: after ∧ o.id = r.output ∧
        held (s.set r).2.hardware = ⟨before ++ p :: after⟩ ∧ r.Obeyed t o p := by
  have hn := hs.nodup hc
  refine ⟨set_of_not_fits hn, fun text h => ?_⟩
  obtain ⟨t, ht, ha, hp, u, hmodel, hplaced, hsync, hset⟩ := set_eq_ok h
  obtain ⟨f, hheld, hid, hconnected, hobeyed⟩ := held_placed hs hc ht ha hp hplaced
  obtain ⟨o, ho, hplugged, hshows⟩ := hs.mirrors.shows t (Model.mem_of_screen? ht)
  rw [Model.id_of_screen? ht] at ho
  obtain ⟨before, after, hsplit, hmodify⟩ := Configuration.modify_split ho
  have hname : o.id = r.output := Configuration.id_of_output? ho
  rw [model_process_of_ok hp] at hmodel
  have hids : u.model.ids = s.model.ids := by
    rw [hmodel]
    exact (r.apply_keeps s.model).1
  have hscreen : u.model.screen? r.output = some (r.amend t) := by
    rw [hmodel]
    exact (SetRequest.apply_eq_ok hn ht ha).2.1
  have hnodup : (held u.hardware).ids.Nodup := by
    rw [hheld, Configuration.ids_modify hid]
    exact hc
  have hscreens : (held u.hardware).connectedIds ⊆ u.model.ids := by
    rw [hids, hheld, Configuration.connectedIds_modify hid hconnected]
    exact hs.mirrors.ids.symm.subset
  -- No output is without a screen by then, so no options are restored.
  have hend : held u.sync.2.hardware = held u.hardware :=
    held_sync (by rw [hmodel]; rfl) hnodup hscreens hsync
  have hmem : f o ∈ (held u.hardware).outputs := by
    rw [hheld, hmodify]
    exact List.mem_append_right before List.mem_cons_self
  have hfound := screen?_sync hnodup hsync hmem ((hconnected o).trans hplugged)
  rw [Model.screenOf, hid, hname, hscreen, Option.elim_some] at hfound
  exact ⟨t, (r.amend t).follow (f o), before, o, f o, after, ht, hset ▸ hfound, rfl, hsplit, hname,
    by rw [hset, hend, hheld, hmodify], hobeyed o hshows⟩

/-- The scale of the output is off from that of its screen by a rounding, which the request of a
position undoes. Nothing is requested if a scale is named that is not positive. -/
theorem set_obeys_rounded :
    let panel : Output := .plain "eDP-1"
    let old : Output :=
      { Output.plain "HDMI-1" with
        modes := [⟨⟨1920, 1080⟩, 60000⟩, ⟨⟨1280, 720⟩, 60000⟩], scale := 2 }
    let new : Output := { old with scale := 2 + 1 / 100000 }
    let h (o : Output) : Recorded Held := { hardware := { configuration := ⟨[panel, o]⟩ } }
    let early : State (Recorded Held) := ({ hardware := h old } : State (Recorded Held)).sync.2
    let late : State (Recorded Held) := { early with hardware := h new }
    let s := late.sync.2
    let r : SetRequest :=
      { output := "HDMI-1", size := some ⟨1280, 720⟩, form := some .tv, position := some ⟨1920, 0⟩,
        activate := true }
    (s.set { r with scale := some 0 }).2.hardware = s.hardware ∧
    (∃ t before o p after, [panel, new] = before ++ o :: after ∧
      (s.set r).2.hardware.hardware.configuration = ⟨before ++ p :: after⟩ ∧ r.Obeyed t o p) ∧
    (s.set r).2.hardware.hardware.configuration.outputs.map
      (fun o => (o.id, o.modeIndex, o.topLeft, o.form, o.scale)) =
      [("eDP-1", 0, ⟨0, 0⟩, .monitor, 1), ("HDMI-1", 1, ⟨1920, 0⟩, .tv, 2)] := by
  intro panel old new h early late s r
  have hlate : late.Reachable := .outside (h new) (.sync (.start (h old)))
  have hc : (held late.hardware).ids.Nodup := by decide
  have hids : late.model.ids = ["eDP-1", "HDMI-1"] := by decide +kernel
  have hqueue : late.model.queue = [] := by decide +kernel
  have hsync : late.sync.1 = .ok () := by decide +kernel
  have hkept : held late.sync.2.hardware = held late.hardware :=
    held_sync hqueue hc (by rw [hids]; exact List.Subset.refl _) hsync
  have hs : s.InSync (held late.hardware) := inSync_sync hlate hc hsync hkept
  have hok : (s.set r).1.isOk = true := by decide +kernel
  have hfields : (s.set r).2.hardware.hardware.configuration.outputs.map
      (fun o => (o.id, o.modeIndex, o.topLeft, o.form, o.scale)) =
      [("eDP-1", 0, ⟨0, 0⟩, .monitor, 1), ("HDMI-1", 1, ⟨1920, 0⟩, .tv, 2)] := by decide +kernel
  clear_value s
  refine ⟨?_, ?_, hfields⟩
  · refine ((set_obeys hs hc { r with scale := some 0 }).1 fun t _ hfits => ?_).2
    exact absurd (hfits.scale 0 rfl) (by decide)
  · cases hset : (s.set r).1 with
    | error fault =>
      rw [hset] at hok
      cases hok
    | ok text =>
      obtain ⟨t, -, before, o, p, after, -, -, -, hsplit, -, hheld, hobeyed⟩ :=
        (set_obeys hs hc r).2 text hset
      exact ⟨t, before, o, p, after, hsplit, hheld, hobeyed⟩

end State

end Displays
