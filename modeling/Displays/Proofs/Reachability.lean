import Displays.Proofs.Processing

/-!
# Reachable models and states

A request to a screen writes at most one field and announces what it wrote; activating a screen is
such requests one after the other, and so is what the tilt sensor does. Only absorbing a
configuration writes what the hardware says. So every model that is reached from the empty one has
at most one screen for each output, and every screen knows its display.
-/

namespace Displays

/-- The fields that each origin moves on its own: the software the followed ones and the active
screen, the tilt sensor how the picture is turned. -/
def Origin.moves : Origin → Field → Bool
  | .software, .active => true
  | .software, f => f.isFollowed
  | .hardware, .orientation => true
  | .hardware, _ => false

/-- What the tilt sensor moves, the hardware need not follow. -/
theorem Origin.not_followed_of_moves {f : Field} (h : Origin.hardware.moves f = true) :
    f.isFollowed = false := by
  cases f <;> first | rfl | exact Bool.noConfusion h

/-- The screen with the new value of a field. -/
def Screen.take : Change → Screen → Screen
  | .used used, s => { s with used }
  | .scale scale, s => { s with scale }
  | .form form, s => { s with form }
  | .modeIndex index, s => { s with modeIndex := index }
  | .modes modes, s => { s with modes }
  | .power power, s => { s with power }
  | .geometry geometry, s => { s with geometry }
  | .refresh refresh, s => { s with refresh }
  | .orientation orientation, s => { s with orientation }
  | .active active, s => { s with active }
  | .identity identity, s => { s with identity }

/-- Nothing changed and nothing is told, or one field changed that may, and this is told. -/
def Screen.Moved (origin : Origin) (s : Screen) (r : Screen × List Change) : Prop :=
  r = (s, []) ∨
    ∃ change : Change, origin.moves change.field = true ∧ r = (s.take change, [change])

namespace Screen

variable {s : Screen} {r : Screen × List Change} {origin : Origin}

/-- A new value of a field keeps the name of the screen. -/
@[simp] theorem take_id (change : Change) (s : Screen) : (s.take change).id = s.id := by
  cases change <;> rfl

private theorem known_take {change : Change} (h : origin.moves change.field = true) (hs : s.Known) :
    (s.take change).Known := by
  cases change with
  | identity i => cases origin <;> simp only [Change.field, Origin.moves, Field.isFollowed,
      Bool.false_eq_true] at h
  | _ => exact hs

/-- A move keeps the name of the screen. -/
theorem moved_id (h : s.Moved origin r) : r.1.id = s.id := by
  rcases h with rfl | ⟨change, _, rfl⟩
  · rfl
  · exact take_id change s

/-- A move leaves the display as it is known. -/
theorem moved_known (h : s.Moved origin r) (hs : s.Known) : r.1.Known := by
  rcases h with rfl | ⟨change, hown, rfl⟩
  · exact hs
  · exact known_take hown hs

/-- Requesting use is a move of the software. -/
theorem moved_setUsed (used : Bool) (s : Screen) : s.Moved .software (s.setUsed used) := by
  unfold setUsed
  split
  · exact .inl rfl
  · exact .inr ⟨.used used, rfl, rfl⟩

/-- Requesting a kind of device is a move of the software. -/
theorem moved_setForm (form : FormFactor) (s : Screen) : s.Moved .software (s.setForm form) := by
  unfold setForm
  split
  · exact .inl rfl
  · exact .inr ⟨.form form, rfl, rfl⟩

/-- Making a screen active, or not, is a move of the software. -/
theorem moved_setActive (active : Bool) (s : Screen) : s.Moved .software (s.setActive active) := by
  unfold setActive
  split
  · exact .inl rfl
  · exact .inr ⟨.active active, rfl, rfl⟩

/-- Requesting a scale, if it is accepted, is a move of the software. -/
theorem moved_setScale {scale : Float} (h : s.setScale scale = .ok r) : s.Moved .software r := by
  unfold setScale at h
  split at h
  · simp only [reduceCtorEq] at h
  · split at h
    · exact .inl (Except.ok.inj h).symm
    · exact .inr ⟨.scale scale, rfl, (Except.ok.inj h).symm⟩

/-- Requesting a mode, if it is accepted, is a move of the software. -/
theorem moved_setModeIndex {index : Nat} (h : s.setModeIndex index = .ok r) :
    s.Moved .software r := by
  unfold setModeIndex at h
  split at h
  · simp only [reduceCtorEq] at h
  · split at h
    · exact .inl (Except.ok.inj h).symm
    · exact .inr ⟨.modeIndex index, rfl, (Except.ok.inj h).symm⟩

/-- Requesting a size, if it is accepted, is a move of the software. -/
theorem moved_setSize {size : Resolution} (h : s.setSize size = .ok r) : s.Moved .software r := by
  unfold setSize at h
  split at h
  · exact moved_setModeIndex h
  · simp only [reduceCtorEq] at h

/-- Tilting the device is a move of the hardware. -/
theorem moved_tilt (t : Tilt) (s : Screen) : s.Moved .hardware (s.tilt t) := by
  unfold tilt
  split
  · split
    · exact .inl rfl
    · split
      · exact .inl rfl
      · exact .inr ⟨.orientation _, rfl, rfl⟩
  · exact .inl rfl

end Screen

/-- A request to a screen. -/
inductive Mutation where
  /-- The output is to be used, or not. -/
  | used (used : Bool)
  /-- The output is to have this scale. -/
  | scale (scale : Float)
  /-- The display is of this kind. -/
  | form (form : FormFactor)
  /-- The mode of this index is to be the current one. -/
  | modeIndex (index : Nat)
  /-- The first mode of this size is to be the current one. -/
  | size (size : Resolution)
  /-- The screen is to be the active one, or not. -/
  | active (active : Bool)
  deriving Repr

namespace Mutation

/-- Makes the request. -/
def apply : Mutation → Screen → Except ConfigFault (Screen × List Change)
  | used u, s => .ok (s.setUsed u)
  | scale x, s => s.setScale x
  | form f, s => .ok (s.setForm f)
  | modeIndex i, s => s.setModeIndex i
  | size r, s => s.setSize r
  | active a, s => .ok (s.setActive a)

/-- What becomes of the screen when the request is made; nothing if it fails. -/
def attempt (u : Mutation) (s : Screen) : Screen × List Change :=
  match u.apply s with
  | .ok r => r
  | .error _ => (s, [])

/-- Every request to a screen is a move of the software, refused or not. -/
theorem moved_attempt (u : Mutation) (s : Screen) : s.Moved .software (u.attempt s) := by
  unfold attempt
  cases h : u.apply s with
  | error fault => exact .inl rfl
  | ok r =>
    cases u with
    | used u => exact Except.ok.inj h ▸ s.moved_setUsed u
    | scale x => exact Screen.moved_setScale h
    | form f => exact Except.ok.inj h ▸ s.moved_setForm f
    | modeIndex i => exact Screen.moved_setModeIndex h
    | size r => exact Screen.moved_setSize h
    | active a => exact Except.ok.inj h ▸ s.moved_setActive a

end Mutation

namespace Model

/-- Makes a request to the screen of an output, if it has one. -/
def mutate (m : Model) (id : OutputId) (u : Mutation) : Except ConfigFault Unit × Model :=
  m.tryUpdate id u.apply

variable {m m' : Model} {id : OutputId} {origin : Origin}

/-- Replacing a screen that is found by itself changes nothing. -/
theorem replaceFirst_self {l : List Screen} {s : Screen}
    (h : l.find? (fun t => t.id = s.id) = some s) : replaceFirst s l = l := by
  induction l with
  | nil => rfl
  | cons t l ih =>
    by_cases ht : t.id = s.id
    · rw [List.find?_cons_of_pos (by simpa only [decide_eq_true_eq] using ht)] at h
      simp only [replaceFirst, ite_true, Option.some.inj h]
    · rw [List.find?_cons_of_neg (by simpa only [decide_eq_true_eq] using ht)] at h
      simp only [replaceFirst, ht, ite_false, ih h]

/-- A request is an update, whether it fails or not. -/
theorem mutate_eq_update (m : Model) (id : OutputId) (u : Mutation) :
    (m.mutate id u).2 = m.update id .software u.attempt := by
  cases hs : m.screen? id with
  | none => simp only [mutate, tryUpdate, update, hs]
  | some s =>
    cases hu : u.apply s with
    | ok r => simp only [mutate, tryUpdate, update, hs, Mutation.attempt, hu]
    | error fault =>
      have hself : replaceFirst s m.screens = m.screens := by
        apply replaceFirst_self
        rw [id_of_screen? hs]
        exact hs
      simp only [mutate, tryUpdate, update, hs, Mutation.attempt, hu, put, push, hself,
        List.map_nil, List.append_nil]

/-- The models that updates of one origin lead to, each of which writes at most one field. -/
inductive Moves (origin : Origin) (m : Model) : Model → Prop where
  /-- Without an update the model is the same. -/
  | refl : Moves origin m m
  /-- A further update moves each screen that it concerns. -/
  | update {m' : Model} (id : OutputId) {f : Screen → Screen × List Change} :
      (∀ s : Screen, s.Moved origin (f s)) → Moves origin m m' →
      Moves origin m (m'.update id origin f)

/-- A request to a screen of the model makes moves of the software. -/
theorem moves_mutate (m : Model) (id : OutputId) (u : Mutation) :
    Moves .software m (m.mutate id u).2 := by
  rw [mutate_eq_update]
  exact .update id u.moved_attempt .refl

private theorem moves_updateAll {f : Screen → Screen × List Change}
    (hf : ∀ s : Screen, s.Moved origin (f s)) (m : Model) :
    Moves origin m (m.updateAll origin f) := by
  have hfold : ∀ (l : List Screen) (m' : Model), Moves origin m m' →
      Moves origin m (l.foldl (fun m s => m.update s.id origin f) m') := by
    intro l
    induction l with
    | nil => exact fun m' h => h
    | cons s l ih => exact fun m' h => ih _ (.update s.id hf h)
  exact hfold m.screens m .refl

/-- Activating a screen makes moves of the software. -/
theorem moves_activate (h : m.activate id = .ok m') : Moves .software m m' := by
  unfold activate at h
  cases hs : m.screen? id with
  | none => simp only [hs, reduceCtorEq] at h
  | some s =>
    simp only [hs, Except.ok.injEq] at h
    rw [← h]
    refine .update id (Screen.moved_setActive true) (moves_updateAll ?_ m)
    intro t
    by_cases ht : t.id = id
    · rw [if_pos ht]
      exact .inl rfl
    · rw [if_neg ht]
      exact t.moved_setActive false

/-- A move keeps a model well formed. -/
theorem wellFormed_move {f : Screen → Screen × List Change}
    (hf : ∀ s : Screen, s.Moved origin (f s)) (hm : m.WellFormed) :
    (m.update id origin f).WellFormed :=
  wellFormed_update (fun s => Screen.moved_id (hf s))
    (fun s hs _ => Screen.moved_known (hf s) (hm.known s hs)) hm

/-- Moves keep a model well formed. -/
theorem wellFormed_moves (h : Moves origin m m') (hm : m.WellFormed) : m'.WellFormed := by
  induction h with
  | refl => exact hm
  | update id hf _ ih => exact wellFormed_move hf ih

/-- Lighting the built-in panel, or not, keeps all names. -/
theorem ids_setLit (m : Model) (on : Bool) : (m.setLit on).ids = m.ids := by
  simp only [ids, setLit, List.map_map]
  apply List.map_congr_left
  intro s _
  simp only [Function.comp_apply, Screen.setLit]
  split <;> rfl

private theorem wellFormed_setLit (on : Bool) (hm : m.WellFormed) : (m.setLit on).WellFormed where
  nodup := by
    rw [ids_setLit]
    exact hm.nodup
  known := by
    intro s hs
    obtain ⟨t, ht, rfl⟩ := List.mem_map.mp hs
    have hk := hm.known t ht
    unfold Screen.setLit
    split <;> exact hk

/-- Taking note of an observation keeps a model well formed. -/
theorem wellFormed_note (o : Observation) (hm : m.WellFormed) : (o.note m).WellFormed := by
  cases o with
  | configuration c => exact wellFormed_absorb hm c
  | tilt id t => exact wellFormed_move (Screen.moved_tilt t) hm
  | lit on => exact wellFormed_setLit on hm

/-- The models that are reached from the empty one. -/
inductive Reachable : Model → Prop where
  /-- The empty model. -/
  | start : Reachable {}
  /-- An observation was noted. -/
  | note {m : Model} (o : Observation) : Reachable m → Reachable (o.note m)
  /-- A request was made to a screen. -/
  | mutate {m : Model} (id : OutputId) (u : Mutation) : Reachable m → Reachable (m.mutate id u).2
  /-- A screen was activated. -/
  | activate {m m' : Model} {id : OutputId} :
      m.activate id = .ok m' → Reachable m → Reachable m'
  /-- The queue was drained. -/
  | drain {m : Model} : Reachable m → Reachable m.drained
  /-- An observer was added. -/
  | subscribe {m : Model} : Reachable m → Reachable m.subscribe

/-- Every reachable model is well formed. -/
theorem wellFormed_of_reachable (h : Reachable m) : m.WellFormed := by
  induction h with
  | start => exact ⟨List.nodup_nil, fun s hs => absurd hs List.not_mem_nil⟩
  | note o _ ih => exact wellFormed_note o ih
  | mutate id u _ ih => exact wellFormed_moves (moves_mutate _ id u) ih
  | activate ha _ ih => exact wellFormed_moves (moves_activate ha) ih
  | drain _ ih => exact wellFormed_drained ih
  | subscribe _ ih => exact ⟨ih.nodup, ih.known⟩

end Model

namespace State

variable {H : Type} [Hardware H]

/-- The states that are reached from hardware of which nothing is known yet, whatever becomes of
the hardware meanwhile. -/
inductive Reachable : State H → Prop where
  /-- Nothing is known of the hardware. -/
  | start (h : H) : Reachable { hardware := h }
  /-- The hardware was changed from outside. -/
  | outside {s : State H} (h : H) : Reachable s → Reachable { s with hardware := h }
  /-- Options are remembered from now on, or no longer. -/
  | remember {s : State H} (storage : Option Storage) : Reachable s → Reachable { s with storage }
  /-- An observer was added. -/
  | subscribe {s : State H} : Reachable s → Reachable { s with model := s.model.subscribe }
  /-- A request was made to a screen. -/
  | mutate {s : State H} (id : OutputId) (u : Mutation) :
      Reachable s → Reachable { s with model := (s.model.mutate id u).2 }
  /-- A screen was activated. -/
  | activate {s : State H} {id : OutputId} {m : Model} :
      s.model.activate id = .ok m → Reachable s → Reachable { s with model := m }
  /-- The queue was processed. -/
  | process {s : State H} : Reachable s → Reachable s.process.2
  /-- An observation was handled. -/
  | handle {s : State H} (o : Observation) : Reachable s → Reachable (s.handle o).2
  /-- The configuration of the hardware was taken over. -/
  | sync {s : State H} : Reachable s → Reachable s.sync.2

/-- Processing drains the model and may have it absorb a configuration. -/
theorem reachable_process {s : State H} (h : s.model.Reachable) : s.process.2.model.Reachable := by
  rcases process_cases s with ⟨_, hp⟩ | ⟨_, _, _, _, hp⟩ | ⟨_, _, c, _, hp⟩
  · rw [hp]
    exact .drain h
  · rw [hp]
    exact .drain h
  · rw [hp]
    exact .drain (.note (.configuration c) (.drain h))

/-- A reachable model stays so while an observation is handled. -/
theorem reachable_handle {s : State H} (o : Observation) (h : s.model.Reachable) :
    (s.handle o).2.model.Reachable := by
  rw [handle_eq]
  simp only [model_foldl_restore]
  exact reachable_process (.note o h)

/-- A reachable model stays so while the configuration of the hardware is taken over. -/
theorem reachable_sync {s : State H} (h : s.model.Reachable) : s.sync.2.model.Reachable := by
  rcases hr : Guarded.read s.hardware with ⟨answer, hw⟩
  cases answer with
  | error fault =>
    simp only [sync, hr]
    exact h
  | ok c =>
    simp only [sync, hr]
    exact reachable_handle (.configuration c) h

/-- The model of a reachable state is reachable. -/
theorem reachable_model {s : State H} (h : s.Reachable) : s.model.Reachable := by
  induction h with
  | start h => exact .start
  | outside h _ ih => exact ih
  | remember storage _ ih => exact ih
  | subscribe _ ih => exact .subscribe ih
  | mutate id u _ ih => exact .mutate id u ih
  | activate ha _ ih => exact .activate ha ih
  | process _ ih => exact reachable_process ih
  | handle o _ ih => exact reachable_handle o ih
  | sync _ ih => exact reachable_sync ih

end State

end Displays
