import Displays.Model
import Displays.Proofs.Lookup

/-!
# Absorbing a configuration

An update of one screen is a map over the screens if their names do not repeat. Absorbing a
configuration without repeated names keeps the screens whose outputs are connected, in their order
and each in line with its output, and puts the screens of the other connected outputs behind them.
So the model has one screen for each connected output, and every screen shows its output. Whatever
is announced on the way comes from the hardware.
-/

namespace Displays

/-- The identity of the display is the one that its EDID tells. -/
def Screen.Known (s : Screen) : Prop := s.identity = s.edid.bind Edid.identity?

/-- The screen says of its output what the output says of itself; of the scale it does so up to
rounding. -/
structure Screen.Shows (s : Screen) (o : Output) : Prop where
  /-- They have one name. -/
  id : s.id = o.id
  /-- Both are used, or neither is. -/
  used : s.used = o.used
  /-- They offer the same modes. -/
  modes : s.modes = o.modes
  /-- They have the same mode as the current one. -/
  modeIndex : s.modeIndex = o.modeIndex
  /-- They have the same power mode. -/
  power : s.power = o.power
  /-- The picture is at the same place and of the same size. -/
  geometry : s.geometry = o.geometry
  /-- The refresh rate is the same. -/
  refresh : s.refresh = o.refresh
  /-- They are of the same kind. -/
  form : s.form = o.form
  /-- The scale is the same, or equal up to rounding. -/
  scale : s.scale = o.scale ∨ scaleEq s.scale o.scale = true
  /-- The display is of the same size. -/
  size : s.size = o.size
  /-- The EDID is the same. -/
  edid : s.edid = o.edid
  /-- The screen knows the display by the EDID. -/
  identity : s.identity = o.identity?

namespace Screen

variable {s : Screen} {o : Output}

/-- Following an output keeps the name of the screen. -/
@[simp] theorem follow_id (s : Screen) (o : Output) : (s.follow o).id = s.id := rfl

/-- The screen of a new output has its name. -/
@[simp] theorem ofOutput_id (o : Output) : (ofOutput o).id = o.id := rfl

/-- A screen that shows an output knows its display. -/
theorem Shows.known (h : s.Shows o) : s.Known := by
  rw [Known, h.identity, h.edid, Output.identity?]

/-- A screen brought in line with its output shows it. -/
theorem shows_follow (hid : s.id = o.id) (hk : s.Known) : (s.follow o).Shows o where
  id := hid
  used := rfl
  modes := rfl
  modeIndex := rfl
  power := rfl
  geometry := rfl
  refresh := rfl
  form := rfl
  scale := by
    by_cases h : scaleEq s.scale o.scale = true
    · exact Or.inr (by simp only [follow, h, ite_true])
    · exact Or.inl (by simp only [follow, h, Bool.false_eq_true, ite_false])
  size := rfl
  edid := rfl
  identity := by
    by_cases h : s.edid = o.edid
    · simp only [follow, h, ite_true]
      rw [hk, h, Output.identity?]
    · simp only [follow, h, ite_false]

/-- A new screen shows its output. -/
theorem shows_ofOutput (o : Output) : (ofOutput o).Shows o :=
  have h : ((blank o.id).follow o).Shows o := shows_follow rfl rfl
  { h with }

end Screen

namespace Model

/-- The names of the screens, in order. -/
def ids (m : Model) : List OutputId := m.screens.map Screen.id

/-- Every output has at most one screen, and every screen knows its display. -/
structure WellFormed (m : Model) : Prop where
  /-- No output has two screens. -/
  nodup : m.ids.Nodup
  /-- Every screen knows its display. -/
  known : ∀ s ∈ m.screens, s.Known

variable {m : Model} {id : OutputId} {s t : Screen}

/-- A screen that is found is among the screens. -/
theorem mem_of_screen? (h : m.screen? id = some s) : s ∈ m.screens := List.mem_of_find?_eq_some h

/-- A screen that is found has the name that was looked for. -/
theorem id_of_screen? (h : m.screen? id = some s) : s.id = id := by
  simpa only [decide_eq_true_eq] using List.find?_some h

/-- No screen is found exactly if none has the name. -/
theorem screen?_eq_none : m.screen? id = none ↔ id ∉ m.ids := by
  simp only [screen?, ids, List.find?_eq_none, decide_eq_true_eq, List.mem_map, not_exists, not_and]

/-- A screen is found exactly if one has the name. -/
theorem isSome_screen? : (m.screen? id).isSome = true ↔ id ∈ m.ids := by
  rw [← not_iff_not, ← screen?_eq_none, Option.not_isSome_iff_eq_none]

/-- Screens with one name are one screen if names do not repeat. -/
theorem eq_of_id_eq (hn : m.ids.Nodup) (hs : s ∈ m.screens) (ht : t ∈ m.screens)
    (h : s.id = t.id) : s = t :=
  List.inj_on_of_nodup_map hn hs ht h

/-- Where names differ, each screen is found under its own. -/
theorem screen?_of_mem (hn : m.ids.Nodup) (hs : s ∈ m.screens) : m.screen? s.id = some s := by
  cases h : m.screen? s.id with
  | none => exact absurd (List.mem_map_of_mem hs) (screen?_eq_none.mp h)
  | some t => rw [eq_of_id_eq hn (mem_of_screen? h) hs (id_of_screen? h)]

private theorem map_id_replaceFirst (s : Screen) (l : List Screen) :
    (replaceFirst s l).map Screen.id = l.map Screen.id := by
  induction l with
  | nil => rfl
  | cons t l ih =>
    by_cases h : t.id = s.id
    · simp only [replaceFirst, h, ite_true, List.map_cons]
    · simp only [replaceFirst, h, ite_false, List.map_cons, ih]

/-- Without repetition, replacing the first screen with a name is replacing every one. -/
theorem replaceFirst_eq_map {l : List Screen} (hn : (l.map Screen.id).Nodup) :
    replaceFirst s l = l.map fun t => if t.id = s.id then s else t := by
  induction l with
  | nil => rfl
  | cons t l ih =>
    rw [List.map_cons, List.nodup_cons] at hn
    by_cases h : t.id = s.id
    · have hl : l.map (fun t => if t.id = s.id then s else t) = l := by
        conv_rhs => rw [← List.map_id l]
        apply List.map_congr_left
        intro u hu
        have hne : u.id ≠ s.id := fun hus => hn.1 (h.trans hus.symm ▸ List.mem_map_of_mem hu)
        simp only [hne, ite_false, id_eq]
      simp only [replaceFirst, h, ite_true, List.map_cons, hl]
    · simp only [replaceFirst, h, ite_false, List.map_cons, ih hn.2]

/-- Announcing changes leaves the screens alone. -/
@[simp] theorem push_screens (m : Model) (id : OutputId) (origin : Origin) (changes : List Change) :
    (m.push id origin changes).screens = m.screens := rfl

section Update

variable {origin : Origin} {f : Screen → Screen × List Change}

/-- An update keeps the names. -/
theorem ids_update : (m.update id origin f).ids = m.ids := by
  unfold update
  cases h : m.screen? id with
  | none => rfl
  | some s => simp only [put, ids, push_screens, map_id_replaceFirst]

/-- Without repetition, an update is a map over the screens. -/
theorem screens_update (hn : m.ids.Nodup) (hf : ∀ s, (f s).1.id = s.id) :
    (m.update id origin f).screens = m.screens.map fun s => if s.id = id then (f s).1 else s := by
  unfold update
  cases h : m.screen? id with
  | none =>
    conv_lhs => rw [← List.map_id m.screens]
    apply List.map_congr_left
    intro s hs
    have hne : s.id ≠ id := fun he => screen?_eq_none.mp h (he ▸ List.mem_map_of_mem hs)
    simp only [hne, ite_false, id_eq]
  | some t =>
    have hid := id_of_screen? h
    simp only [put, push_screens, replaceFirst_eq_map hn, hf, hid]
    apply List.map_congr_left
    intro s hs
    by_cases he : s.id = id
    · rw [if_pos he, if_pos he, eq_of_id_eq hn hs (mem_of_screen? h) (he.trans hid.symm)]
    · simp only [he, ite_false]

/-- An update tells no observer yet. -/
theorem inboxes_update : (m.update id origin f).inboxes = m.inboxes := by
  unfold update
  cases m.screen? id <;> rfl

/-- An update keeps the model well formed if the new screen keeps its name and knows its display. -/
theorem wellFormed_update (hf : ∀ s, (f s).1.id = s.id)
    (hk : ∀ s ∈ m.screens, s.id = id → (f s).1.Known) (hm : m.WellFormed) :
    (m.update id origin f).WellFormed where
  nodup := by
    rw [ids_update]
    exact hm.nodup
  known := by
    rw [screens_update hm.nodup hf]
    intro t ht
    obtain ⟨s, hs, rfl⟩ := List.mem_map.mp ht
    by_cases he : s.id = id
    · rw [if_pos he]
      exact hk s hs he
    · rw [if_neg he]
      exact hm.known s hs

/-- What an update announces: the changes that the function tells of the screen. -/
def news (m : Model) (id : OutputId) (origin : Origin) (f : Screen → Screen × List Change) :
    List Notification :=
  (m.screen? id).elim [] fun s => (f s).2.map fun change => ⟨(f s).1.id, change, origin⟩

/-- An update puts its announcements at the end of the queue. -/
theorem queue_update : (m.update id origin f).queue = m.queue ++ m.news id origin f := by
  unfold update news
  cases m.screen? id with
  | none => simp only [Option.elim_none, List.append_nil]
  | some s => rfl

/-- An update of a screen that is found announces the changes told of it. -/
theorem news_of_screen? (h : m.screen? id = some s) :
    m.news id origin f = (f s).2.map fun change => ⟨(f s).1.id, change, origin⟩ := by
  rw [news, h, Option.elim_some]

/-- An update announces changes of its own origin. -/
theorem origin_of_mem_news {n : Notification} (h : n ∈ m.news id origin f) : n.origin = origin := by
  cases hs : m.screen? id with
  | none => simp only [news, hs, Option.elim_none, List.not_mem_nil] at h
  | some s =>
    rw [news_of_screen? hs] at h
    obtain ⟨change, _, rfl⟩ := List.mem_map.mp h
    rfl

/-- An update that keeps names announces changes of its own output. -/
theorem output_of_mem_news {n : Notification} (hf : ∀ s, (f s).1.id = s.id)
    (h : n ∈ m.news id origin f) : n.output = id := by
  cases hs : m.screen? id with
  | none => simp only [news, hs, Option.elim_none, List.not_mem_nil] at h
  | some s =>
    rw [news_of_screen? hs] at h
    obtain ⟨change, _, rfl⟩ := List.mem_map.mp h
    exact (hf s).trans (id_of_screen? hs)

end Update

section Absorb

variable {o : Output} {l : List Output} {c : Configuration}

/-- An output with a screen is absorbed by that screen. -/
theorem absorbOutput_of_mem (h : o.id ∈ m.ids) :
    m.absorbOutput o = m.update o.id .hardware fun s => s.absorb o := by
  obtain ⟨s, hs⟩ := Option.isSome_iff_exists.mp (isSome_screen?.mpr h)
  simp only [absorbOutput, hs]

/-- An output without a screen gets one behind the others. -/
theorem absorbOutput_of_not_mem (h : o.id ∉ m.ids) :
    m.absorbOutput o = { m with screens := m.screens ++ [.ofOutput o] } := by
  simp only [absorbOutput, screen?_eq_none.mpr h]

/-- What outputs leave behind is what the others leave behind once the first is taken over. -/
theorem absorbOutputs_cons (m : Model) (o : Output) (l : List Output) :
    (m.absorbOutputs (o :: l)).1 = ((m.absorbOutput o).absorbOutputs l).1 := rfl

/-- The first output is added if it has no screen; the rest then meets a model that has one. -/
theorem added_cons (m : Model) (o : Output) (l : List Output) :
    (m.absorbOutputs (o :: l)).2 =
      if (m.screen? o.id).isSome then ((m.absorbOutput o).absorbOutputs l).2
      else o.id :: ((m.absorbOutput o).absorbOutputs l).2 := rfl

/-- An output that is taken over has a screen, and no other screen comes or goes. -/
theorem ids_absorbOutput (m : Model) (o : Output) :
    (m.absorbOutput o).ids = if o.id ∈ m.ids then m.ids else m.ids ++ [o.id] := by
  by_cases h : o.id ∈ m.ids
  · rw [absorbOutput_of_mem h, ids_update, if_pos h]
  · rw [absorbOutput_of_not_mem h, if_neg h]
    simp only [ids, List.map_append, List.map_cons, List.map_nil, Screen.ofOutput_id]

/-- After an output was absorbed there is a screen for it, beside those there were. -/
theorem mem_ids_absorbOutput : id ∈ (m.absorbOutput o).ids ↔ id ∈ m.ids ∨ id = o.id := by
  rw [ids_absorbOutput]
  by_cases h : o.id ∈ m.ids
  · rw [if_pos h]
    exact ⟨Or.inl, fun hid => hid.elim (fun hm => hm) fun he => he ▸ h⟩
  · rw [if_neg h, List.mem_append, List.mem_singleton]

/-- Absorbing an output keeps a model well formed. -/
theorem wellFormed_absorbOutput (hm : m.WellFormed) (o : Output) :
    (m.absorbOutput o).WellFormed := by
  by_cases h : o.id ∈ m.ids
  · rw [absorbOutput_of_mem h]
    refine wellFormed_update (fun s => s.follow_id o) ?_ hm
    exact fun s hs he => (Screen.shows_follow he (hm.known s hs)).known
  · have hids := ids_absorbOutput m o
    rw [if_neg h] at hids
    refine ⟨?_, ?_⟩
    · rw [hids, List.nodup_append]
      exact ⟨hm.nodup, List.nodup_singleton _, fun a ha b hb => by
        rintro rfl
        exact h (List.mem_singleton.mp hb ▸ ha)⟩
    · rw [absorbOutput_of_not_mem h]
      intro t ht
      rcases List.mem_append.mp ht with ht | ht
      · exact hm.known t ht
      · rw [List.mem_singleton.mp ht]
        exact (Screen.shows_ofOutput o).known

private theorem wellFormed_absorbOutputs (hm : m.WellFormed) (l : List Output) :
    (m.absorbOutputs l).1.WellFormed := by
  induction l generalizing m with
  | nil => exact hm
  | cons o l ih => exact ih (wellFormed_absorbOutput hm o)

/-- Outputs without repeated names bring their screens in line, and those without a screen get one
behind the others. -/
theorem screens_absorbOutputs (hn : m.ids.Nodup) (hl : (l.map Output.id).Nodup) :
    (m.absorbOutputs l).1.screens =
      m.screens.map (fun s => (l.find? fun o => o.id = s.id).elim s s.follow) ++
        (l.filter fun o => o.id ∉ m.ids).map Screen.ofOutput := by
  induction l generalizing m with
  | nil =>
    simp only [absorbOutputs, List.find?_nil, Option.elim_none, List.map_id', List.filter_nil,
      List.map_nil, List.append_nil]
  | cons o l ih =>
    rw [List.map_cons, List.nodup_cons] at hl
    have hrest : ∀ k, k = o.id → l.find? (fun p => p.id = k) = none := by
      rintro k rfl
      simp only [List.find?_eq_none, decide_eq_true_eq]
      exact fun p hp he => hl.1 (he ▸ List.mem_map_of_mem hp)
    by_cases h : o.id ∈ m.ids
    · have hids : (m.absorbOutput o).ids = m.ids := by rw [ids_absorbOutput, if_pos h]
      have hscreens : (m.absorbOutput o).screens =
          m.screens.map fun s => if s.id = o.id then s.follow o else s := by
        rw [absorbOutput_of_mem h, screens_update hn fun s => s.follow_id o]
        rfl
      rw [absorbOutputs_cons, ih (hids ▸ hn) hl.2, hids, hscreens, List.map_map]
      congr 1
      · apply List.map_congr_left
        intro s _
        by_cases he : s.id = o.id
        · simp only [Function.comp_apply, he, ite_true, Screen.follow_id, hrest o.id rfl,
            Option.elim_none, decide_true, List.find?_cons_of_pos, Option.elim_some]
        · have hne : o.id ≠ s.id := fun hs => he hs.symm
          simp only [Function.comp_apply, he, ite_false, hne, decide_false, Bool.false_eq_true,
            not_false_eq_true, List.find?_cons_of_neg]
      · rw [List.filter_cons_of_neg (by simpa only [decide_eq_true_eq, not_not] using h)]
    · have hids : (m.absorbOutput o).ids = m.ids ++ [o.id] := by rw [ids_absorbOutput, if_neg h]
      have hscreens : (m.absorbOutput o).screens = m.screens ++ [.ofOutput o] := by
        rw [absorbOutput_of_not_mem h]
      have hnodup : (m.absorbOutput o).ids.Nodup := by
        rw [hids, List.nodup_append]
        exact ⟨hn, List.nodup_singleton _, fun a ha b hb => by
          rintro rfl
          exact h (List.mem_singleton.mp hb ▸ ha)⟩
      have hfresh :
          (l.filter fun p => p.id ∉ m.ids ++ [o.id]) = l.filter fun p => p.id ∉ m.ids := by
        apply List.filter_congr
        intro p hp
        have hne : p.id ≠ o.id := fun he => hl.1 (he ▸ List.mem_map_of_mem hp)
        simp only [List.mem_append, List.mem_singleton, hne, or_false]
      rw [absorbOutputs_cons, ih hnodup hl.2, hids, hscreens, hfresh, List.map_append,
        List.append_assoc, List.filter_cons_of_pos (by simpa only [decide_eq_true_eq] using h),
        List.map_cons]
      congr 1
      · apply List.map_congr_left
        intro s hs
        have hne : o.id ≠ s.id := fun he => h (he ▸ List.mem_map_of_mem hs)
        rw [List.find?_cons_of_neg (by simpa only [decide_eq_true_eq] using hne)]
      · simp only [List.map_cons, List.map_nil, hrest _ (Screen.ofOutput_id o), Option.elim_none,
          List.singleton_append]

/-- Whatever an output makes of its screen is announced as coming from the hardware. -/
theorem queue_absorbOutput (m : Model) (o : Output) :
    ∃ news : List Notification, (m.absorbOutput o).queue = m.queue ++ news ∧
      ∀ n ∈ news, n.origin = .hardware := by
  by_cases h : o.id ∈ m.ids
  · rw [absorbOutput_of_mem h]
    exact ⟨_, queue_update, fun n hn => origin_of_mem_news hn⟩
  · rw [absorbOutput_of_not_mem h]
    exact ⟨[], (List.append_nil _).symm, fun n hn => absurd hn List.not_mem_nil⟩

/-- Absorbing outputs announces changes of the hardware only, behind what is queued already. -/
theorem queue_absorbOutputs (m : Model) (l : List Output) :
    ∃ news : List Notification, (m.absorbOutputs l).1.queue = m.queue ++ news ∧
      ∀ n ∈ news, n.origin = .hardware := by
  induction l generalizing m with
  | nil => exact ⟨[], (List.append_nil _).symm, fun n hn => absurd hn List.not_mem_nil⟩
  | cons o l ih =>
    obtain ⟨first, hfirst, hf⟩ := queue_absorbOutput m o
    obtain ⟨news, hnews, hn⟩ := ih (m.absorbOutput o)
    refine ⟨first ++ news, ?_, fun n hmem => (List.mem_append.mp hmem).elim (hf n) (hn n)⟩
    rw [absorbOutputs_cons, hnews, hfirst, List.append_assoc]

private theorem inboxes_absorbOutputs (m : Model) (l : List Output) :
    (m.absorbOutputs l).1.inboxes = m.inboxes := by
  induction l generalizing m with
  | nil => rfl
  | cons o l ih =>
    rw [absorbOutputs_cons, ih]
    by_cases h : o.id ∈ m.ids
    · rw [absorbOutput_of_mem h, inboxes_update]
    · rw [absorbOutput_of_not_mem h]

/-- No output is new twice, and none is that had a screen. -/
theorem nodup_added_absorbOutputs (m : Model) (l : List Output) :
    (m.absorbOutputs l).2.Nodup ∧ ∀ id ∈ (m.absorbOutputs l).2, id ∉ m.ids := by
  induction l generalizing m with
  | nil => exact ⟨List.nodup_nil, fun id hid => absurd hid List.not_mem_nil⟩
  | cons o l ih =>
    obtain ⟨hnodup, hnew⟩ := ih (m.absorbOutput o)
    have hold : ∀ id ∈ ((m.absorbOutput o).absorbOutputs l).2, id ∉ m.ids ∧ id ≠ o.id :=
      fun id hid => not_or.mp fun h => hnew id hid (mem_ids_absorbOutput.mpr h)
    cases h : (m.screen? o.id).isSome with
    | true =>
      rw [added_cons, h, if_pos rfl]
      exact ⟨hnodup, fun id hid => (hold id hid).1⟩
    | false =>
      have hfresh : o.id ∉ m.ids := fun hmem => by simp [isSome_screen?.mpr hmem] at h
      rw [added_cons, h, if_neg Bool.false_ne_true]
      refine ⟨List.nodup_cons.mpr ⟨fun hid => (hold o.id hid).2 rfl, hnodup⟩, ?_⟩
      intro id hid
      rcases List.mem_cons.mp hid with rfl | hid
      · exact hfresh
      · exact (hold id hid).1

/-- The model without the screens whose outputs are gone. -/
def kept (m : Model) (c : Configuration) : Model :=
  { m with screens := m.screens.filter fun s => isConnected c s.id }

/-- The screens that are kept are those of connected outputs, in their order. -/
theorem ids_kept (m : Model) (c : Configuration) :
    (m.kept c).ids = m.ids.filter fun id => isConnected c id := by
  simp only [ids, kept, List.filter_map]
  rfl

/-- Dropping screens keeps a model well formed. -/
theorem wellFormed_kept (hm : m.WellFormed) (c : Configuration) : (m.kept c).WellFormed where
  nodup := by
    rw [ids_kept]
    exact hm.nodup.filter _
  known s hs := hm.known s (List.mem_of_mem_filter hs)

/-- A configuration is absorbed by dropping the screens without connected output and absorbing the
connected outputs one after the other. -/
theorem absorb_eq (m : Model) (c : Configuration) :
    (m.absorb c).1 = ((m.kept c).absorbOutputs (c.outputs.filter Output.connected)).1 := rfl

/-- Whatever absorbing a configuration announces comes from the hardware. -/
theorem queue_absorb (m : Model) (c : Configuration) :
    ∃ news : List Notification, (m.absorb c).1.queue = m.queue ++ news ∧
      ∀ n ∈ news, n.origin = .hardware :=
  queue_absorbOutputs (m.kept c) _

/-- Absorbing a configuration tells no observer yet. -/
@[simp] theorem inboxes_absorb (m : Model) (c : Configuration) :
    (m.absorb c).1.inboxes = m.inboxes :=
  inboxes_absorbOutputs (m.kept c) _

/-- No output is added twice. -/
theorem nodup_added (m : Model) (c : Configuration) : (m.absorb c).2.added.Nodup :=
  (nodup_added_absorbOutputs (m.kept c) _).1

/-- Absorbing a configuration keeps a model well formed. -/
theorem wellFormed_absorb (hm : m.WellFormed) (c : Configuration) : (m.absorb c).1.WellFormed :=
  wellFormed_absorbOutputs (wellFormed_kept hm c) _

/-- A name is connected if the first output with it is. -/
theorem isConnected_iff :
    isConnected c id = true ↔ ∃ o, c.output? id = some o ∧ o.connected = true := by
  simp only [isConnected, Option.any_eq_true]

/-- Absorbing a configuration without repeated names: the screens of connected outputs stay in their
order and in line with their outputs, and those of the other connected outputs follow. -/
theorem screens_absorb (hn : m.ids.Nodup) (hc : c.ids.Nodup) :
    (m.absorb c).1.screens =
      (m.screens.filter fun s => isConnected c s.id).map
          (fun s => (c.output? s.id).elim s s.follow) ++
        ((c.outputs.filter Output.connected).filter fun o => o.id ∉ m.ids).map Screen.ofOutput := by
  have hconnected : ((c.outputs.filter Output.connected).map Output.id).Nodup :=
    Configuration.nodup_connectedIds hc
  have hkept : (m.kept c).ids.Nodup := by
    rw [ids_kept]
    exact hn.filter _
  rw [absorb_eq, screens_absorbOutputs hkept hconnected]
  congr 1
  · apply List.map_congr_left
    intro s hs
    obtain ⟨o, ho, hoc⟩ := isConnected_iff.mp (List.mem_filter.mp hs).2
    have hmem : o ∈ c.outputs.filter Output.connected :=
      List.mem_filter.mpr ⟨Configuration.mem_of_output? ho, hoc⟩
    have hfind := Configuration.find?_id_of_mem hconnected hmem
    rw [Configuration.id_of_output? ho] at hfind
    rw [hfind, ho]
  · congr 1
    apply List.filter_congr
    intro o ho
    obtain ⟨hmem, hoc⟩ := List.mem_filter.mp ho
    have hid : isConnected c o.id = true :=
      isConnected_iff.mpr ⟨o, Configuration.output?_of_mem hc hmem, hoc⟩
    simp only [ids_kept, List.mem_filter, hid, and_true]

/-- Every screen shows its output after a configuration without repeated names is absorbed. -/
theorem shows_of_mem_absorb (hm : m.WellFormed) (hc : c.ids.Nodup)
    (hs : s ∈ (m.absorb c).1.screens) :
    ∃ o, c.output? s.id = some o ∧ o.connected = true ∧ s.Shows o := by
  rw [screens_absorb hm.nodup hc, List.mem_append] at hs
  rcases hs with hs | hs
  · obtain ⟨t, ht, rfl⟩ := List.mem_map.mp hs
    obtain ⟨hmem, hconn⟩ := List.mem_filter.mp ht
    obtain ⟨o, ho, hoc⟩ := isConnected_iff.mp hconn
    have hid : t.id = o.id := (Configuration.id_of_output? ho).symm
    simp only [ho, Option.elim_some, Screen.follow_id]
    exact ⟨o, rfl, hoc, Screen.shows_follow hid (hm.known t hmem)⟩
  · obtain ⟨o, ho, rfl⟩ := List.mem_map.mp hs
    obtain ⟨hmem, hoc⟩ := List.mem_filter.mp (List.mem_of_mem_filter ho)
    exact ⟨o, Configuration.output?_of_mem hc hmem, hoc, Screen.shows_ofOutput o⟩

/-- The model has one screen for each connected output after a configuration without repeated names
is absorbed. -/
theorem ids_absorb_perm (hm : m.WellFormed) (hc : c.ids.Nodup) :
    (m.absorb c).1.ids.Perm c.connectedIds := by
  rw [List.perm_ext_iff_of_nodup (wellFormed_absorb hm c).nodup
    (Configuration.nodup_connectedIds hc)]
  intro id
  constructor
  · intro hid
    obtain ⟨s, hs, rfl⟩ := List.mem_map.mp hid
    obtain ⟨o, ho, hoc, _⟩ := shows_of_mem_absorb hm hc hs
    exact (Configuration.mem_connectedIds_iff_output? hc).mpr ⟨o, ho, hoc⟩
  · intro hid
    obtain ⟨o, ho, hoc⟩ := (Configuration.mem_connectedIds_iff_output? hc).mp hid
    have hido := Configuration.id_of_output? ho
    rw [ids, screens_absorb hm.nodup hc, List.map_append, List.mem_append]
    by_cases hold : id ∈ m.ids
    · left
      obtain ⟨s, hs, rfl⟩ := List.mem_map.mp hold
      have hkept : s ∈ m.screens.filter fun s => isConnected c s.id :=
        List.mem_filter.mpr ⟨hs, isConnected_iff.mpr ⟨o, ho, hoc⟩⟩
      refine List.mem_map.mpr ⟨_, List.mem_map_of_mem hkept, ?_⟩
      simp only [ho, Option.elim_some, Screen.follow_id]
    · right
      have hnew : o ∈ (c.outputs.filter Output.connected).filter fun o => o.id ∉ m.ids :=
        List.mem_filter.mpr ⟨List.mem_filter.mpr ⟨Configuration.mem_of_output? ho, hoc⟩,
          by simpa only [decide_eq_true_eq, hido] using hold⟩
      exact List.mem_map.mpr ⟨_, List.mem_map_of_mem hnew, hido⟩

end Absorb

end Model

end Displays
