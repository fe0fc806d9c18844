import Displays.Proofs.Tracking
import Displays.Proofs.Watching

/-!
# Convergence

In a run whose model is not astray, the model follows the last configuration that was sent and, if
it is abreast, what the hardware holds. When a poll finds nothing new and nothing waits, the two are
one, so every screen is in line with its output. A model that is astray may stay so: a watcher that
finds what it saw last does not notice that the model moved meanwhile.
-/

namespace Displays

variable {H : Type} [Hardware H] [Holding H]

open Holding (held)

/-- A request keeps the names of the outputs. -/
theorem Configuration.ids_requestAll {c d : Configuration} {entries : List (OutputId × Settings)}
    (h : c.requestAll entries = .ok d) : d.ids = c.ids := by
  induction entries generalizing c with
  | nil => rw [← Except.ok.inj h]
  | cons e entries ih =>
    obtain ⟨id, s⟩ := e
    simp only [requestAll, request] at h
    cases ho : c.output? id with
    | none => simp only [ho, reduceCtorEq] at h
    | some o =>
      by_cases hc : o.connected = true
      · simp only [ho, hc, ite_true] at h
        rw [ih h]
        exact ids_modify (fun o => (rfl : (s.apply o).id = o.id)) c id
      · simp only [ho, hc, Bool.false_eq_true, ite_false, reduceCtorEq] at h

namespace Guarded

private theorem ids_submit {c : Configuration} {h : H} (hc : c.ids = (held h).ids) :
    (held (submit c h).2).ids = (held h).ids := by
  rcases submit_cases c h with ⟨_, _, hs⟩ | ⟨_, hok, hs⟩ | ⟨_, _, herr, hs⟩
  · rw [hs]
  · rw [hs, Holding.held_accepted c h hok, hc]
  · rw [hs, Holding.held_refused c h _ herr]

/-- Requesting settings keeps the names that the hardware holds. -/
theorem ids_requestAll (entries : List (OutputId × Settings)) (h : H) :
    (held (requestAll entries h).2).ids = (held h).ids := by
  have hread := Holding.held_read h
  rcases hr : Hardware.read h with ⟨answer, h'⟩
  rw [hr] at hread
  cases answer with
  | error fault => simp only [requestAll, read, hr, hread]
  | ok c =>
    have hc := Holding.eq_held h c (by rw [hr])
    cases hreq : c.requestAll entries with
    | error fault => simp only [requestAll, read, hr, hreq, hread]
    | ok d =>
      have hd : d.ids = (held h').ids := by rw [Configuration.ids_requestAll hreq, hc, hread]
      simp only [requestAll, read, hr, hreq, ids_submit hd, hread]

end Guarded

namespace State

variable {s : State H} {base c : Configuration} {now : Standing}

private theorem ids_restore (id : OutputId) (s : State H) :
    (held (s.restore id).hardware).ids = (held s.hardware).ids := by
  unfold restore
  cases s.remembered? id with
  | none => rfl
  | some settings => exact Guarded.ids_requestAll [(id, settings)] s.hardware

/-- Restoring options keeps the names that the hardware holds. -/
theorem ids_foldl_restore (ids : List OutputId) (s : State H) :
    (held (ids.foldl (fun s id => s.restore id) s).hardware).ids = (held s.hardware).ids := by
  induction ids generalizing s with
  | nil => rfl
  | cons id ids ih => rw [List.foldl_cons, ih, ids_restore]

/-- Processing keeps the names that the hardware holds. -/
theorem ids_process (s : State H) : (held s.process.2.hardware).ids = (held s.hardware).ids := by
  have hq := Guarded.ids_followAll s.model.queue s.hardware
  rcases process_cases s with ⟨_, h⟩ | ⟨_, _, _, _, h⟩ | ⟨_, _, _, _, h⟩
  · rw [h, hq]
  · rw [h, Holding.held_read, hq]
  · rw [h, Holding.held_read, hq]

/-- Handling an observation keeps the names of the outputs of the hardware. -/
theorem ids_handle (o : Observation) (s : State H) :
    (held (s.handle o).2.hardware).ids = (held s.hardware).ids := by
  rw [handle_eq]
  simp only [ids_foldl_restore, ids_process]

/-- A model that was resynchronised follows the hardware. -/
theorem follows_resynchronised (hm : s.model.WellFormed) (hn : (held s.hardware).ids.Nodup)
    (hc : (Hardware.read (Guarded.followAll s.model.queue s.hardware).2).1 = .ok c) :
    (s.model.drained.absorb c).1.drained.Follows base
      (some (held (Hardware.read (Guarded.followAll s.model.queue s.hardware).2).2)) := by
  have hheld := Holding.eq_held _ c hc
  have hnodup : c.ids.Nodup := by
    rw [hheld, Guarded.ids_followAll]
    exact hn
  have hmirrors := Model.mirrors_absorb (Model.wellFormed_drained hm) hnodup
  rw [Holding.held_read, ← hheld]
  exact Model.follows_held_of_mirrors ⟨hmirrors.ids, hmirrors.shows⟩ rfl

/-- Processing keeps a model following, unless it leads it astray. -/
theorem follows_process (hm : s.model.WellFormed) (hn : (held s.hardware).ids.Nodup)
    (hf : now ≠ .astray → s.model.Follows base (now.known (held s.hardware)))
    (hafter : s.standing now ≠ .astray) :
    s.process.2.model.Follows base ((s.standing now).known (held s.process.2.hardware)) := by
  rcases process_cases s with ⟨hok, h⟩ | ⟨fault, _, cause, hc, h⟩ | ⟨fault, _, c, hc, h⟩
  · have hstanding : s.standing now =
        if now = .level ∧ s.model.queue.any Notification.isRequest then .abreast else now := by
      rw [standing, h]
    rw [hstanding] at hafter ⊢
    rw [h]
    by_cases hmoved : now = .level ∧ s.model.queue.any Notification.isRequest
    · rw [if_pos hmoved]
      have hbase : s.model.Follows base none := by
        rw [hmoved.1] at hf
        exact hf (by decide)
      have hnone : ∀ c ∈ (none : Option Configuration), c = held s.hardware :=
        fun _ hc => nomatch hc
      exact Model.follows_drained hnone hn hok hbase
    · rw [if_neg hmoved] at hafter ⊢
      have hbase := hf hafter
      cases now with
      | level =>
        refine Model.follows_drained_of_no_request ?_ hbase
        intro n hn
        rw [← Bool.not_eq_true]
        intro hr
        exact hmoved ⟨rfl, List.any_eq_true.mpr ⟨n, hn, hr⟩⟩
      | abreast => exact Model.follows_drained (fun _ hc => (Option.some.inj hc).symm) hn hok hbase
      | astray => exact absurd rfl hafter
  · have hstanding : s.standing now = .astray := by
      simp only [standing, h, drain_eq, hc]
    exact absurd hstanding hafter
  · have hstanding : s.standing now = .abreast := by
      simp only [standing, h, drain_eq, hc]
    rw [hstanding, h]
    exact follows_resynchronised hm hn hc

/-- A model that handled a configuration follows this, unless that leads it astray. -/
theorem follows_absorbed (hm : s.model.WellFormed) (hn : (held s.hardware).ids.Nodup)
    (hc : c.ids.Nodup) (hafter : s.standingAbsorbed c ≠ .astray) :
    (s.handle (.configuration c)).2.model.Follows c
      ((s.standingAbsorbed c).known (held (s.handle (.configuration c)).2.hardware)) := by
  generalize hnoted : ({ s with model := (s.model.absorb c).1 } : State H) = noted
  have hmodel : noted.model = (s.model.absorb c).1 := by rw [← hnoted]
  have hhardware : noted.hardware = s.hardware := by rw [← hnoted]
  have hstorage : noted.storage = s.storage := by rw [← hnoted]
  have hstate : (s.handle (.configuration c)).2 =
      (s.model.absorb c).2.added.foldl (fun s id => s.restore id) noted.process.2 := by
    rw [handle_eq, ← hnoted]
    rfl
  have hmirrors : noted.model.Mirrors c := by
    rw [hmodel]
    exact Model.mirrors_absorb hm hc
  have hdrained : noted.model.drained.Follows c none :=
    Model.follows_of_mirrors ⟨hmirrors.ids, hmirrors.shows⟩
  have hmodel' : (s.handle (.configuration c)).2.model = noted.process.2.model := by
    rw [hstate, model_foldl_restore]
  rw [hmodel']
  rcases process_cases noted with ⟨_, h⟩ | ⟨fault, _, cause, hr, h⟩ | ⟨fault, _, d, hr, h⟩
  · have hstanding : s.standingAbsorbed c = .level := by
      simp only [standingAbsorbed, hnoted, h]
    rw [hstanding, h]
    exact hdrained
  · have hstanding : s.standingAbsorbed c = .level := by
      simp only [standingAbsorbed, hnoted, h, drain_eq, hr]
    rw [hstanding, h]
    exact hdrained
  · have hstanding : s.standingAbsorbed c =
        if (s.model.absorb c).2.added = [] ∨ s.storage.isNone then .abreast else .astray := by
      simp only [standingAbsorbed, hnoted, h, drain_eq, hr]
    rw [hstanding] at hafter ⊢
    by_cases hquiet : (s.model.absorb c).2.added = [] ∨ s.storage.isNone = true
    · have hsame : (s.handle (.configuration c)).2 = noted.process.2 := by
        rw [hstate]
        rcases hquiet with hadded | hnone
        · rw [hadded]
          rfl
        · refine foldl_restore_of_storage_none ?_ _
          rw [storage_process, hstorage]
          exact Option.isNone_iff_eq_none.mp hnone
      have hwf : noted.model.WellFormed := by
        rw [hmodel]
        exact Model.wellFormed_absorb hm c
      have hnodup : (held noted.hardware).ids.Nodup := by
        rw [hhardware]
        exact hn
      rw [hsame, if_pos hquiet, h]
      exact follows_resynchronised hwf hnodup hr
    · rw [if_neg hquiet] at hafter
      exact absurd rfl hafter

end State

/-- What the watcher, the channel and the model know of each other at any time of a run. -/
structure Scene.Invariant (x : Scene H) (now : Standing) : Prop where
  /-- The state is one that is reached. -/
  reachable : x.state.Reachable
  /-- The hardware holds no name twice. -/
  nodup : (held x.state.hardware).ids.Nodup
  /-- What was sent has no name twice. -/
  sent : ∀ c ∈ configurations x.channel, c.ids.Nodup
  /-- What was sent last is what the watcher saw last. -/
  latest : ∀ c, (configurations x.channel).getLast? = some c → x.watcher.configuration = some c
  /-- Once everything sent was handled, the model follows what the watcher saw last, unless it was
  led astray. -/
  follows : ∀ base, configurations x.channel = [] → x.watcher.configuration = some base →
    now ≠ .astray → x.state.model.Follows base (now.known (held x.state.hardware))

namespace Scene

variable {x : Scene H} {now : Standing}

/-- The model of a run is well formed. -/
theorem Invariant.wellFormed (hx : x.Invariant now) : x.state.model.WellFormed :=
  Model.wellFormed_of_reachable (State.reachable_model hx.reachable)

/-- A change from outside keeps the invariant, but a model that was not level is astray after it. -/
theorem invariant_outside {h : H} (hh : (held h).ids.Nodup) (hx : x.Invariant now) :
    (x.step (.outside h)).Invariant (x.standing now (.outside h)) where
  reachable := .outside h hx.reachable
  nodup := hh
  sent := hx.sent
  latest := hx.latest
  follows base hch hw hafter := by
    by_cases hnow : now = .level
    · have hf := hx.follows base hch hw
      rw [hnow] at hf
      simp only [standing, hnow, ite_true]
      exact hf (by decide)
    · simp only [standing, hnow, ite_false, ne_eq, not_true_eq_false] at hafter

/-- A poll keeps the watcher up to date with what it sends. -/
theorem invariant_poll (accelerometer : Option (Except IoFault Tilt)) (hx : x.Invariant now) :
    (x.step (.poll accelerometer)).Invariant (x.standing now (.poll accelerometer)) := by
  have happend : configurations (x.step (.poll accelerometer)).channel = configurations x.channel ++
      configurations (x.watcher.poll true (x.reading accelerometer)).sent := List.filterMap_append
  have hheld : held (x.step (.poll accelerometer)).state.hardware = held x.state.hardware :=
    Holding.held_read x.state.hardware
  rcases x.watcher.poll_cases (x.reading accelerometer) with
    ⟨hsent, hsame, _⟩ | ⟨c, hc, hsent, hnew⟩
  · rw [hsent, List.append_nil] at happend
    constructor
    · exact .outside _ hx.reachable
    · rw [hheld]
      exact hx.nodup
    · rw [happend]
      exact hx.sent
    · intro c hlast
      rw [happend] at hlast
      exact hsame.trans (hx.latest c hlast)
    · intro base hch hw hafter
      rw [happend] at hch
      rw [hheld]
      exact hx.follows base hch (hsame.symm.trans hw) hafter
  · rw [hsent] at happend
    have hnodup : c.ids.Nodup := by
      rw [Holding.eq_held _ c hc]
      exact hx.nodup
    constructor
    · exact .outside _ hx.reachable
    · rw [hheld]
      exact hx.nodup
    · rw [happend]
      intro d hd
      rcases List.mem_append.mp hd with hd | hd
      · exact hx.sent d hd
      · rw [List.mem_singleton.mp hd]
        exact hnodup
    · intro d hlast
      rw [happend, List.getLast?_concat] at hlast
      rw [← hlast]
      exact hnew
    · intro base hch
      rw [happend] at hch
      exact absurd hch (List.append_ne_nil_of_right_ne_nil _ (List.cons_ne_nil c []))

/-- Moving screens keeps the model following. -/
theorem invariant_moves {m : Model} (hm : Model.Moves .software x.state.model m)
    (hr : State.Reachable { x.state with model := m }) (hx : x.Invariant now) :
    Invariant { x with state := { x.state with model := m } } now where
  reachable := hr
  nodup := hx.nodup
  sent := hx.sent
  latest := hx.latest
  follows base hch hw hafter := Model.follows_moves hm hx.wellFormed (hx.follows base hch hw hafter)

/-- Processing keeps the invariant. -/
theorem invariant_process (hx : x.Invariant now) :
    (x.step .process).Invariant (x.standing now .process) where
  reachable := .process hx.reachable
  nodup := by
    change (held x.state.process.2.hardware).ids.Nodup
    rw [State.ids_process]
    exact hx.nodup
  sent := hx.sent
  latest := hx.latest
  follows base hch hw hafter :=
    State.follows_process hx.wellFormed hx.nodup (hx.follows base hch hw) hafter

/-- Handling what is in the channel makes the model follow the configuration that was sent last. -/
theorem invariant_deliver (hx : x.Invariant now) :
    (x.step .deliver).Invariant (x.standing now .deliver) := by
  cases hch : x.channel with
  | nil =>
    simp only [step, standing, hch]
    exact hx
  | cons o rest =>
    simp only [step, standing, hch]
    have hsub : ∀ c ∈ configurations rest, c ∈ configurations x.channel := by
      intro c hc
      rw [hch]
      cases o with
      | configuration d => exact List.mem_cons_of_mem d hc
      | tilt id t => exact hc
      | lit on => exact hc
    have hlast : ∀ c, (configurations rest).getLast? = some c →
        (configurations x.channel).getLast? = some c := by
      intro c hc
      rw [hch]
      cases o with
      | configuration d =>
        change (d :: configurations rest).getLast? = some c
        rw [List.getLast?_cons, hc, Option.getD_some]
      | tilt id t => exact hc
      | lit on => exact hc
    constructor
    · exact .handle o hx.reachable
    · rw [State.ids_handle]
      exact hx.nodup
    · exact fun c hc => hx.sent c (hsub c hc)
    · exact fun c hc => hx.latest c (hlast c hc)
    · intro base hrest hw hafter
      cases o with
      | configuration c =>
        -- No later configuration is under way, so this is the one that the watcher saw last.
        have hone : configurations x.channel = [c] := by
          rw [hch]
          exact congrArg (c :: ·) hrest
        have hc : c.ids.Nodup := hx.sent c (by rw [hone]; exact List.mem_singleton_self c)
        have hbase : base = c := by
          have hseen := hx.latest c (by rw [hone]; rfl)
          exact Option.some.inj (hw.symm.trans hseen)
        rw [hbase]
        exact State.follows_absorbed hx.wellFormed hx.nodup hc hafter
      | tilt id t =>
        have hnone : configurations x.channel = [] := by rw [hch]; exact hrest
        exact State.follows_process (Model.wellFormed_note (.tilt id t) hx.wellFormed) hx.nodup
          (fun h => Model.follows_update (Screen.moved_tilt t) hx.wellFormed
            (hx.follows base hnone hw h)) hafter
      | lit on =>
        have hnone : configurations x.channel = [] := by rw [hch]; exact hrest
        exact State.follows_process (Model.wellFormed_note (.lit on) hx.wellFormed) hx.nodup
          (fun h => Model.follows_setLit on (hx.follows base hnone hw h)) hafter

/-- Every event keeps the invariant. -/
theorem invariant_step (e : Event H) (he : e.Distinct) (hx : x.Invariant now) :
    (x.step e).Invariant (x.standing now e) := by
  cases e with
  | outside h => exact invariant_outside he hx
  | poll accelerometer => exact invariant_poll accelerometer hx
  | deliver => exact invariant_deliver hx
  | mutate id u => exact invariant_moves (Model.moves_mutate _ id u) (.mutate id u hx.reachable) hx
  | activate id =>
    cases ha : x.state.model.activate id with
    | error fault =>
      simp only [step, standing, ha]
      exact hx
    | ok m =>
      simp only [step, standing, ha]
      exact invariant_moves (Model.moves_activate ha) (.activate ha hx.reachable) hx
  | process => exact invariant_process hx

/-- The invariant holds at any time of a run. -/
theorem invariant_of_run (hx : Run x now) : x.Invariant now := by
  induction hx with
  | start hs hn =>
    constructor
    · exact hs
    · exact hn
    · exact fun c hc => absurd hc List.not_mem_nil
    · exact fun c hc => nomatch hc
    · exact fun base _ hw => nomatch hw
  | step e he _ ih => exact invariant_step e he ih

end Scene

/-- The screen has of its output whether it is used, modes, current mode, power, position, kind and,
up to rounding, scale. -/
def Screen.InLine (s : Screen) (o : Output) : Prop :=
  s.used = o.used ∧ s.modes = o.modes ∧ s.modeIndex = o.modeIndex ∧ s.power = o.power ∧
    s.geometry.topLeft = o.topLeft ∧ s.form = o.form ∧
    (s.scale = o.scale ∨ scaleEq s.scale o.scale = true)

instance (s : Screen) (o : Output) : Decidable (s.InLine o) :=
  inferInstanceAs (Decidable (_ ∧ _ ∧ _ ∧ _ ∧ _ ∧ _ ∧ (_ ∨ _)))

/-- The model has one screen for each connected output, and every screen is in line with it. -/
structure Model.InLine (m : Model) (c : Configuration) : Prop where
  /-- There is one screen for each connected output. -/
  ids : m.ids.Perm c.connectedIds
  /-- Every screen is in line with its output. -/
  screens : ∀ s ∈ m.screens, ∃ o, c.output? s.id = some o ∧ o.connected = true ∧ s.InLine o

instance (m : Model) (c : Configuration) : Decidable (m.InLine c) :=
  decidable_of_iff
    (m.ids.Perm c.connectedIds ∧ ∀ s ∈ m.screens,
      ((c.output? s.id).any fun o => o.connected && decide (s.InLine o)) = true)
    (by
      simp only [Option.any_eq_true, Bool.and_eq_true, decide_eq_true_eq]
      exact ⟨fun h => ⟨h.1, h.2⟩, fun h => ⟨h.ids, h.screens⟩⟩)

private theorem Standing.eq_of_mem_known {now : Standing} {c d : Configuration}
    (h : d ∈ now.known c) :
    d = c := by
  unfold known at h
  split at h
  · exact (Option.some.inj h).symm
  · exact nomatch h

/-- A model without requests is in line with what the hardware holds if it follows this and a
configuration that compares as equal. -/
theorem Model.inLine_of_follows {m : Model} {base c : Configuration} {now : Standing}
    (hn : c.ids.Nodup) (hbase : (base == c) = true) (hq : m.queue = [])
    (hf : m.Follows base (now.known c)) : m.InLine c := by
  have hids : m.ids.Perm c.connectedIds := by
    rcases hf.ids with h | ⟨d, hd, h⟩
    · rw [← Configuration.connectedIds_of_beq hbase]
      exact h
    · rw [← Standing.eq_of_mem_known hd]
      exact h
  refine ⟨hids, fun s hs => ?_⟩
  have hmem : s.id ∈ c.connectedIds := hids.subset (List.mem_map_of_mem hs)
  obtain ⟨o, ho, hconnected⟩ := (Configuration.mem_connectedIds_iff_output? hn).mp hmem
  have hagrees : ∀ f, s.Agrees o f := by
    intro f
    have hshown : s.ShownIn c f := by
      rcases hf.fields s hs f with h | ⟨_, hasked, _⟩ | ⟨d, hd, hout | ⟨_, hin⟩⟩
      · exact Screen.shownIn_of_beq hbase h
      · rw [hq] at hasked
        exact nomatch hasked
      · rw [Standing.eq_of_mem_known hd] at hout
        exact absurd hmem hout
      · rw [Standing.eq_of_mem_known hd] at hin
        exact hin
    obtain ⟨p, hp, hag⟩ := hshown
    rw [Option.some.inj (ho.symm.trans hp)]
    exact hag
  exact ⟨o, ho, hconnected, hagrees .used, hagrees .modes, hagrees .modeIndex, hagrees .power,
    hagrees .geometry, hagrees .form, hagrees .scale⟩

/-- After a quiet poll, a model that is not astray is in line with the hardware. -/
theorem inLine_of_quiet {x : Scene H} {now : Standing}
    {accelerometer : Option (Except IoFault Tilt)} (hx : Run x now) (hnow : now ≠ .astray)
    (hq : x.Quiet accelerometer) :
    (x.step (.poll accelerometer)).state.model.InLine
      (held (x.step (.poll accelerometer)).state.hardware) := by
  have hi := Scene.invariant_of_run hx
  have hheld : held (x.step (.poll accelerometer)).state.hardware = held x.state.hardware :=
    Holding.held_read x.state.hardware
  obtain ⟨c, hc⟩ := hq.exists_read
  rcases x.watcher.poll_cases (x.reading accelerometer) with ⟨_, _, hsame⟩ | ⟨d, _, hsent, _⟩
  · have hseen := hsame c hc
    cases hw : x.watcher.configuration with
    | none =>
      rw [hw] at hseen
      exact Bool.noConfusion hseen
    | some base =>
      rw [hw] at hseen
      have hbase : (base == c) = true := hseen
      have hnone : configurations x.channel = [] := by rw [hq.channel]; rfl
      have hf := hi.follows base hnone hw hnow
      rw [Holding.eq_held _ c hc] at hbase
      rw [hheld]
      exact Model.inLine_of_follows hi.nodup hbase hq.queue hf
  · rw [hq.sent] at hsent
    exact nomatch hsent

namespace Scenes

/-- Hardware with one output. -/
def one : Held := { configuration := ⟨[.plain "HDMI-1"]⟩ }

/-- The same hardware refusing every submission and about to be unavailable. -/
def failing : Held := { one with rejection := some ⟨"busy", 0, none⟩, unavailable := some 1 }

/-- Hardware with a second output of this scale, whose display is known. -/
def two (scale : Float) : Held where
  configuration := ⟨[.plain "HDMI-1", { Output.plain "DP-1" with
    scale, edid := some (Edid.header ++ List.replicate 119 0 ++ [6]) }]⟩

/-- Remembered options of the display on the second output. -/
def options : Storage :=
  ⟨"options", [("???-0000-0", ⟨true, ⟨0, 0⟩, none, 2, .monitor, .on⟩)]⟩

/-- A watcher about to start. -/
def fresh (storage : Option Storage) : Scene Held := { state := { hardware := one, storage } }

/-- A watcher about to start begins a run. -/
theorem run_fresh (storage : Option Storage) : Run (fresh storage) .level :=
  .start (.remember storage (.start one)) (List.nodup_singleton "HDMI-1")

/-- The hardware follows a request, and the watcher finds what that led to. -/
def followed : List (Event Held) :=
  [.poll none, .deliver, .mutate "HDMI-1" (.used false), .process, .poll none, .deliver]

/-- The hardware follows a request and is returned from outside to what it was. -/
def returned : List (Event Held) :=
  [.poll none, .deliver, .mutate "HDMI-1" (.used false), .process, .outside one]

/-- The hardware refuses a request and cannot be read after that for a while. -/
def refused : List (Event Held) :=
  [.poll none, .deliver, .outside failing, .mutate "HDMI-1" (.used false), .process, .outside one]

/-- A display is connected, its scale is changed from outside, and its options are restored right
after the hardware refused a request. -/
def restored : List (Event Held) :=
  [.poll none, .deliver, .outside (two 2), .poll none,
    .outside { two 1 with rejection := some ⟨"busy", 0, some 1⟩ },
    .mutate "HDMI-1" (.used false), .deliver]

/-- After a request and what the watcher found of it, the model is in line. -/
theorem inLine_of_quiet_followed :
    let x := ((fresh none).run .level followed).1
    Run x .level ∧ x.Quiet none ∧ (x.step (.poll none)).state.model.InLine
      (held (x.step (.poll none)).state.hardware) := by
  intro x
  have hstanding : ((fresh none).run .level followed).2 = .level := by decide +kernel
  have hx : Run x .level := hstanding ▸ run_of_distinct (run_fresh none) (by decide +kernel)
  have hquiet : ((fresh none).run .level followed).1.Quiet none := by decide +kernel
  exact ⟨hx, hquiet, inLine_of_quiet hx (by decide) hquiet⟩

/-- The events lead astray, and to a model that is not in line after a quiet poll. -/
def Strays (x : Scene Held) (l : List (Event Held)) : Prop :=
  Run (x.run .level l).1 .astray ∧ (x.run .level l).1.Quiet none ∧
    ¬ ((x.run .level l).1.step (.poll none)).state.model.InLine
      (held ((x.run .level l).1.step (.poll none)).state.hardware)

/-- There are three ways to be out of line after a quiet poll: what the hardware did for the
software is undone from outside, a resynchronisation fails, or restored options undo one. -/
theorem quiet_without_inLine :
    Strays (fresh none) returned ∧ Strays (fresh none) refused ∧
      Strays (fresh (some options)) restored := by
  have hreturned : ((fresh none).run .level returned).2 = .astray := by decide +kernel
  have hrefused : ((fresh none).run .level refused).2 = .astray := by decide +kernel
  have hrestored : ((fresh (some options)).run .level restored).2 = .astray := by decide +kernel
  refine ⟨⟨?_, by decide +kernel⟩, ⟨?_, by decide +kernel⟩, ⟨?_, by decide +kernel⟩⟩
  · exact hreturned ▸ run_of_distinct (run_fresh none) (by decide +kernel)
  · exact hrefused ▸ run_of_distinct (run_fresh none) (by decide +kernel)
  · exact hrestored ▸ run_of_distinct (run_fresh (some options)) (by decide +kernel)

end Scenes

end Displays
