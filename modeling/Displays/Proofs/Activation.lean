import Displays.Proofs.Finding
import Displays.Proofs.Histories

/-!
# The active screen

Activating a screen puts out the other active screens, in their order, and then lights its own
unless that is active already. No other step lights a screen, but for the request to a screen by
itself that it be active, which says nothing to the others. Without such requests, at most one
screen is active, so activating another one announces at most two changes, and activating the active
one announces none.
-/

namespace Displays

/-- The news that the screen of an output is active, or that it no longer is. -/
def activity (active : Bool) (id : OutputId) : Notification := ⟨id, .active active, .software⟩

namespace Screen

variable {s : Screen}

/-- A screen that is made active or not is otherwise as it was. -/
theorem setActive_fst (active : Bool) (s : Screen) :
    (s.setActive active).1 = { s with active } := by
  unfold setActive
  split
  · rename_i h
    rw [← h]
  · rfl

private theorem setActive_snd (active : Bool) (s : Screen) :
    (s.setActive active).2 = if s.active = active then [] else [.active active] := by
  unfold setActive
  split <;> rfl

/-- No request makes a screen active but the one to be active. -/
theorem active_attempt {u : Mutation} (hu : u ≠ .active true)
    (h : (u.attempt s).1.active = true) : s.active = true := by
  rcases u.attempt_cases s with hr | ⟨change, hasks, hr⟩
  · rwa [hr] at h
  · rw [hr] at h
    cases u with
    | active a =>
      rw [show change = .active a from hasks] at h
      exact absurd (congrArg Mutation.active h) hu
    | modeIndex i =>
      obtain ⟨_, rfl⟩ := hasks
      exact h
    | size r =>
      obtain ⟨i, _, rfl⟩ := hasks
      exact h
    | used b | scale x | form f =>
      obtain rfl := hasks
      exact h

end Screen

namespace Model

variable {m : Model} {id k : OutputId} {origin : Origin} {f g : Screen → Screen × List Change}

section UpdateAll

/-- Where names differ, an update writes the screen of its name and announces what this tells. -/
theorem update_eq (hf : ∀ s, (f s).1.id = s.id) (hn : m.ids.Nodup) :
    m.update id origin f =
      { m with
        screens := m.screens.map fun s => if s.id = id then (f s).1 else s
        queue := m.queue ++ m.news id origin f } := by
  have hscreens : (m.update id origin f).screens = _ := screens_update hn hf
  have hinboxes : (m.update id origin f).inboxes = m.inboxes := inboxes_update
  rw [← hscreens, ← hinboxes, ← queue_update]

/-- An update changes nothing that the news of other outputs depend on. -/
theorem news_update_of_ne (hf : ∀ s, (f s).1.id = s.id) (h : k ≠ id) :
    (m.update id origin f).news k origin g = m.news k origin g := by
  rw [news, news, screen?_update hf, if_neg h]

/-- Updates of different screens one after the other change each of them, and tell the news of each
in turn. -/
theorem foldl_update_eq (hf : ∀ s, (f s).1.id = s.id) (hn : m.ids.Nodup) {l : List OutputId}
    (hl : l.Nodup) :
    l.foldl (fun m id => m.update id origin f) m =
      { m with
        screens := m.screens.map fun s => if s.id ∈ l then (f s).1 else s
        queue := m.queue ++ l.flatMap fun id => m.news id origin f } := by
  induction l generalizing m with
  | nil => simp
  | cons id l ih =>
    obtain ⟨hid, hl⟩ := List.nodup_cons.mp hl
    have hnews : (l.flatMap fun k => (m.update id origin f).news k origin f) =
        l.flatMap fun k => m.news k origin f :=
      List.flatMap_congr fun k hk => news_update_of_ne hf fun h => hid (h ▸ hk)
    have hids : (m.update id origin f).ids.Nodup := by
      rw [ids_update]
      exact hn
    rw [List.foldl_cons, ih hids hl, hnews, queue_update, screens_update hn hf, inboxes_update,
      List.map_map, List.append_assoc, List.flatMap_cons]
    congr 1
    apply List.map_congr_left
    intro s _
    by_cases hs : s.id = id
    · simp only [Function.comp_apply, hs, ite_true, hf, hid, ite_false, List.mem_cons, true_or]
    · simp only [Function.comp_apply, hs, ite_false, List.mem_cons, false_or]

/-- Changing every screen in turn is a map over the screens, whose news follow each other in their
order. -/
theorem updateAll_eq (hf : ∀ s, (f s).1.id = s.id) (hn : m.ids.Nodup) :
    m.updateAll origin f =
      { m with
        screens := m.screens.map fun s => (f s).1
        queue := m.queue ++
          m.screens.flatMap fun s => (f s).2.map fun change => ⟨s.id, change, origin⟩ } := by
  have hnews : (m.ids.flatMap fun id => m.news id origin f) =
      m.screens.flatMap fun s => (f s).2.map fun change => ⟨s.id, change, origin⟩ := by
    rw [ids, List.flatMap_map]
    refine List.flatMap_congr fun s hs => ?_
    rw [news_of_screen? (screen?_of_mem hn hs), hf]
  have hfold : m.updateAll origin f = m.ids.foldl (fun m id => m.update id origin f) m := by
    rw [ids, List.foldl_map]
    rfl
  rw [hfold, foldl_update_eq hf hn hn, hnews]
  congr 1
  apply List.map_congr_left
  intro s hs
  exact if_pos (List.mem_map_of_mem hs)

end UpdateAll

/-- The outputs whose screens are active, in order. -/
def activeIds (m : Model) : List OutputId := (m.screens.filter Screen.active).map Screen.id

private theorem mem_activeIds (hn : m.ids.Nodup) {s : Screen} (hs : s ∈ m.screens) :
    s.id ∈ m.activeIds ↔ s.active = true := by
  constructor
  · intro h
    obtain ⟨t, ht, hid⟩ := List.mem_map.mp h
    obtain ⟨ht, hactive⟩ := List.mem_filter.mp ht
    exact eq_of_id_eq hn ht hs hid ▸ hactive
  · exact fun h => List.mem_map_of_mem (List.mem_filter.mpr ⟨hs, h⟩)

/-- The model where the screen of this output is the only active one, with the news of it: what else
was active no longer is, and then the screen is, unless it was before. -/
def activated (m : Model) (id : OutputId) : Model :=
  { m with
    screens := m.screens.map fun s => { s with active := s.id = id }
    queue := m.queue ++ (m.activeIds.filter fun k => k ≠ id).map (activity false) ++
      if id ∈ m.activeIds then [] else [activity true id] }

/-- The screens but that of this output are to be put out. -/
def putOut (id : OutputId) (s : Screen) : Screen × List Change :=
  if s.id = id then (s, []) else s.setActive false

private theorem putOut_id (id : OutputId) (s : Screen) : (putOut id s).1.id = s.id := by
  unfold putOut
  split
  · rfl
  · rw [Screen.setActive_fst]

/-- Putting out screens tells of those that were active. -/
theorem news_putOut (id : OutputId) (l : List Screen) :
    (l.flatMap fun s => (putOut id s).2.map fun change =>
      (⟨s.id, change, .software⟩ : Notification)) =
      (((l.filter Screen.active).map Screen.id).filter fun k => k ≠ id).map (activity false) := by
  induction l with
  | nil => rfl
  | cons s l ih =>
    rw [List.flatMap_cons, ih]
    by_cases hid : s.id = id
    · cases hs : s.active <;> simp [putOut, hid, hs]
    · cases hs : s.active <;> simp [putOut, hid, hs, Screen.setActive_snd, activity]

/-- Activating the screen of an output makes it the only active one. -/
theorem activate_eq (hn : m.ids.Nodup) (hid : id ∈ m.ids) :
    m.activate id = .ok (m.activated id) := by
  obtain ⟨s, hs⟩ := Option.isSome_iff_exists.mp (isSome_screen?.mpr hid)
  have hothers : m.updateAll .software (putOut id) = _ := updateAll_eq (putOut_id id) hn
  have hnodup : (m.updateAll .software (putOut id)).ids.Nodup := by
    rw [ids_updateAll]
    exact hn
  have hput : putOut id s = (s, []) := if_pos (id_of_screen? hs)
  have hmem : s ∈ (m.updateAll .software (putOut id)).screens := by
    rw [hothers]
    exact List.mem_map.mpr ⟨s, mem_of_screen? hs, by rw [hput]⟩
  have hfound := screen?_of_mem hnodup hmem
  rw [id_of_screen? hs] at hfound
  have hactive : id ∈ m.activeIds ↔ s.active = true := by
    rw [← id_of_screen? hs]
    exact mem_activeIds hn (mem_of_screen? hs)
  have hnews : (m.updateAll .software (putOut id)).news id .software (Screen.setActive true) =
      if id ∈ m.activeIds then [] else [activity true id] := by
    rw [news_of_screen? hfound, Screen.setActive_fst, Screen.setActive_snd]
    by_cases h : s.active = true
    · rw [if_pos h, if_pos (hactive.mpr h), List.map_nil]
    · rw [if_neg h, if_neg fun hid => h (hactive.mp hid), List.map_singleton, id_of_screen? hs,
        activity]
  have hactivate : m.activate id = .ok
      ((m.updateAll .software (putOut id)).update id .software (Screen.setActive true)) := by
    simp only [activate, hs]
    rfl
  have hset : ∀ t : Screen, (t.setActive true).1.id = t.id := fun t => by rw [Screen.setActive_fst]
  rw [hactivate, update_eq hset hnodup, hnews, hothers, news_putOut, List.map_map, activated]
  congr 3
  funext t
  by_cases ht : t.id = id
  · simp only [Function.comp_apply, putOut, ht, ite_true, Screen.setActive_fst, decide_true]
  · simp only [Function.comp_apply, putOut, ht, ite_false, Screen.setActive_fst, decide_false]

/-- After an activation only this screen is active. -/
theorem activeIds_activated (hn : m.ids.Nodup) (hid : id ∈ m.ids) :
    (m.activated id).activeIds = [id] := by
  have hfilter : (m.activated id).activeIds = m.ids.filter fun k => k = id := by
    rw [activeIds, activated, List.filter_map, List.map_map, ids, List.filter_map]
    rfl
  rw [hfilter, List.filter_eq, List.count_eq_one_of_mem hn hid, List.replicate_one]

/-- If at most one screen is active, activating the active one tells nothing, and activating another
one tells of the active one, if there is one, and then of the other. -/
theorem queue_activated_of_length_le (h : m.activeIds.length ≤ 1) (id : OutputId) :
    (m.activated id).queue = m.queue ++
      if m.activeIds = [id] then []
      else m.activeIds.map (activity false) ++ [activity true id] := by
  rw [activated, List.append_assoc]
  match m.activeIds, h with
  | [], _ => rfl
  | [k], _ =>
    by_cases hk : k = id
    · simp [hk]
    · have hne : id ≠ k := fun h => hk h.symm
      simp [hk, hne]

section Sublist

/-- Where screens keep their names and none becomes active, no further screen is active. -/
theorem sublist_active_map {g : Screen → Screen} (hid : ∀ s, (g s).id = s.id)
    (hactive : ∀ s, (g s).active = true → s.active = true) (l : List Screen) :
    (((l.map g).filter Screen.active).map Screen.id).Sublist
      ((l.filter Screen.active).map Screen.id) := by
  induction l with
  | nil => exact .slnil
  | cons s l ih =>
    rw [List.map_cons]
    cases hg : (g s).active with
    | true =>
      rw [List.filter_cons_of_pos hg, List.filter_cons_of_pos (hactive s hg), List.map_cons,
        List.map_cons, hid]
      exact ih.cons_cons s.id
    | false =>
      rw [List.filter_cons_of_neg (by rw [hg]; exact Bool.false_ne_true)]
      exact ih.trans ((List.sublist_cons_self s l).filter _ |>.map _)

/-- An update that lights no screen leaves no others active than before. -/
theorem activeIds_update (hf : ∀ s, (f s).1.id = s.id)
    (hactive : ∀ s, (f s).1.active = true → s.active = true) (hn : m.ids.Nodup) :
    (m.update id origin f).activeIds.Sublist m.activeIds := by
  rw [activeIds, screens_update hn hf]
  refine sublist_active_map (fun s => ?_) (fun s h => ?_) m.screens
  · split
    · exact hf s
    · rfl
  · split at h
    · exact hactive s h
    · exact h

private theorem activeIds_absorbOutput (hn : m.ids.Nodup) (o : Output) :
    (m.absorbOutput o).activeIds.Sublist m.activeIds := by
  by_cases h : o.id ∈ m.ids
  · rw [absorbOutput_of_mem h]
    exact activeIds_update (fun s => s.follow_id o) (fun _ h => h) hn
  · -- A new screen is not active.
    have hnew : [Screen.ofOutput o].filter Screen.active = [] := rfl
    rw [absorbOutput_of_not_mem h, activeIds, List.filter_append, hnew, List.append_nil]
    exact List.Sublist.refl _

/-- Absorbing outputs lights no screen. -/
theorem activeIds_absorbOutputs (hm : m.WellFormed) (l : List Output) :
    (m.absorbOutputs l).1.activeIds.Sublist m.activeIds := by
  induction l generalizing m with
  | nil => exact List.Sublist.refl _
  | cons o l ih =>
    rw [absorbOutputs_cons]
    exact (ih (wellFormed_absorbOutput hm o)).trans (activeIds_absorbOutput hm.nodup o)

/-- Observations make no screen active. -/
theorem activeIds_note (hm : m.WellFormed) (o : Observation) :
    (o.note m).activeIds.Sublist m.activeIds := by
  cases o with
  | configuration c =>
    have hkept : (m.kept c).activeIds.Sublist m.activeIds :=
      (List.filter_sublist.filter _).map _
    rw [Observation.note, absorb_eq]
    exact (activeIds_absorbOutputs (wellFormed_kept hm c) _).trans hkept
  | tilt id t =>
    refine activeIds_update (Screen.tilt_id t) (fun s h => ?_) hm.nodup
    obtain ⟨turned, hs⟩ := Screen.tilt_eq t s
    rwa [hs] at h
  | lit lit =>
    refine sublist_active_map (Screen.setLit_id lit) (fun s h => ?_) m.screens
    unfold Screen.setLit at h
    split at h <;> exact h

end Sublist

/-- No step but activating a screen, or asking one to be active, makes a screen active. -/
theorem activeIds_step (hm : m.WellFormed) {a : Step} (ha : ∀ k, a ≠ .mutate k (.active true))
    (h : m.activeIds.length ≤ 1) : (m.step a).activeIds.length ≤ 1 := by
  cases a with
  | note o => exact Nat.le_trans (activeIds_note hm o).length_le h
  | mutate k u =>
    have hu : u ≠ .active true := fun hu => ha k (hu ▸ rfl)
    change (m.mutate k u).2.activeIds.length ≤ 1
    rw [mutate_eq_update]
    have hsub : (m.update k .software u.attempt).activeIds.Sublist m.activeIds :=
      activeIds_update (fun s => Screen.moved_id (u.moved_attempt s))
        (fun _ => Screen.active_attempt hu) hm.nodup
    exact Nat.le_trans hsub.length_le h
  | activate k =>
    by_cases hk : k ∈ m.ids
    · have hstep : m.step (.activate k) = m.activated k := by
        rw [step, activate_eq hm.nodup hk]
        rfl
      rw [hstep, activeIds_activated hm.nodup hk]
      exact Nat.le_refl 1
    · have hstep : m.step (.activate k) = m := by
        rw [step, activate_of_not_mem hk]
        rfl
      rwa [hstep]
  | drain => exact h
  | subscribe => exact h

/-- At most one screen is active unless screens are asked to be active by themselves. -/
theorem length_activeIds_after {steps : List Step}
    (h : ∀ k, Step.mutate k (.active true) ∉ steps) : (after steps).activeIds.length ≤ 1 := by
  induction steps using List.reverseRecOn with
  | nil => exact Nat.zero_le 1
  | append_singleton steps a ih =>
    rw [after_concat]
    refine activeIds_step (wellFormed_of_reachable (reachable_after steps)) (fun k hk => ?_)
      (ih fun k hk => h k (List.mem_append_left _ hk))
    exact h k (hk ▸ List.mem_append_right _ (List.mem_singleton_self a))

/-- Whatever was done to a model, it has one screen for each name of a connected output of the
configuration absorbed last. Activating a screen makes it the only active one and tells the others
first; activating what has no screen fails and changes nothing. Unless screens were asked by
themselves to be active, at most one is, so that activating the active one tells nothing and
activating another one tells that the active one no longer is, if there is one, and then that this
one is. -/
theorem one_active_screen (steps : List Step) :
    let m := after steps
    m.ids.Nodup ∧
    (∀ id, id ∈ m.ids ↔ ∃ o ∈ (lastAbsorbed steps).outputs, o.connected = true ∧ o.id = id) ∧
    (∀ id ∈ m.ids, m.activate id = .ok (m.activated id) ∧ (m.activated id).activeIds = [id]) ∧
    (∀ id, id ∉ m.ids →
      m.activate id = .error (.unknownOutput id) ∧ m.step (.activate id) = m) ∧
    ((∀ k, Step.mutate k (.active true) ∉ steps) →
      m.activeIds.length ≤ 1 ∧
      ∀ id ∈ m.ids, (m.activated id).queue = m.queue ++
        if m.activeIds = [id] then [] else m.activeIds.map (activity false) ++ [activity true id])
    := by
  intro m
  have hn := (wellFormed_of_reachable (reachable_after steps)).nodup
  refine ⟨hn, fun id => ?_, fun id hid => ?_, fun id hid => ?_, fun hquiet => ⟨?_, fun id _ => ?_⟩⟩
  · rw [mem_ids_after, Configuration.mem_connectedIds]
  · exact ⟨activate_eq hn hid, activeIds_activated hn hid⟩
  · refine ⟨activate_of_not_mem hid, ?_⟩
    rw [step, activate_of_not_mem hid]
    rfl
  · exact length_activeIds_after hquiet
  · rw [queue_activated_of_length_le (length_activeIds_after hquiet)]

/-- An output that is listed first as unplugged and then twice as connected has one screen, which is
a new one after each absorption and so no longer the active one. -/
theorem one_active_screen_replugged :
    let unplugged : Output := { Output.plain "DP-1" with connected := false, used := false }
    let c : Configuration :=
      ⟨[unplugged, .plain "HDMI-1", .plain "DP-1", { Output.plain "DP-1" with used := false }]⟩
    let steps : List Step :=
      [.note (.configuration c), .activate "DP-1", .note (.configuration c), .drain,
        .activate "HDMI-1", .mutate "DP-1" (.used true), .activate "VGA-1"]
    let m := after steps
    (∀ k, Step.mutate k (.active true) ∉ steps) ∧ m.activeIds = ["HDMI-1"] ∧
      m.queue = [activity true "HDMI-1", ⟨"DP-1", .used true, .software⟩] ∧
      m.activate "DP-1" = .ok (m.activated "DP-1") ∧ (m.activated "DP-1").activeIds = ["DP-1"] ∧
      (m.activated "DP-1").queue =
        m.queue ++ [activity false "HDMI-1", activity true "DP-1"] := by
  intro unplugged c steps m
  have hquiet : ∀ k, Step.mutate k (.active true) ∉ steps := by
    intro k
    simp [steps]
  have hids : "DP-1" ∈ m.ids := by decide +kernel
  have hactive : m.activeIds = ["HDMI-1"] := by decide +kernel
  obtain ⟨-, -, hactivate, -, hnews⟩ := one_active_screen steps
  obtain ⟨hok, honly⟩ := hactivate "DP-1" hids
  have hqueue := (hnews hquiet).2 "DP-1" hids
  refine ⟨hquiet, hactive, by decide +kernel, hok, honly, hqueue.trans ?_⟩
  change m.queue ++ (if m.activeIds = ["DP-1"] then _ else _) = _
  rw [hactive]
  rfl

/-- Screens that are asked by themselves to be active all are. -/
theorem each_asked_to_be_active :
    let c : Configuration := ⟨[.plain "HDMI-1", .plain "DP-1"]⟩
    (after [.note (.configuration c), .mutate "HDMI-1" (.active true),
      .mutate "DP-1" (.active true)]).activeIds = ["HDMI-1", "DP-1"] := by
  decide +kernel

end Model

end Displays
