import Displays.Proofs.Reachability

/-!
# What observations do to the picture

Only the tilt sensor turns a picture. Taking over a configuration leaves the picture of a screen as
it is and starts a new screen upright; the news of the built-in panel decides which screens listen
to the sensor; and a tilt turns the screen it is addressed to, if that listens.
-/

namespace Displays

/-- The tilts that tell an orientation. -/
def Tilt.upright : List Tilt := [.topUp, .topDown, .leftUp, .rightUp]

/-- The picture is turned as it has to be when the device is tilted like this. -/
def Screen.Turned (t : Tilt) (s : Screen) : Prop :=
  t.orientation? (s.native = .landscape) = some s.orientation

instance (t : Tilt) (s : Screen) : Decidable (s.Turned t) :=
  inferInstanceAs (Decidable (_ = _))

/-- A tilt tells an orientation of every device or of none. -/
theorem Tilt.mem_upright_iff {t : Tilt} (landscape : Bool) :
    t ∈ upright ↔ (t.orientation? landscape).isSome = true := by
  cases t <;> cases landscape <;> decide

namespace Screen

variable {s : Screen} {t u : Tilt}

/-- A new screen is turned as if the device stood upright. -/
theorem turned_ofOutput (o : Output) : (ofOutput o).Turned .topUp := by
  simp only [Turned, ofOutput, Tilt.orientation?]
  split <;> rfl

/-- A tilt leaves everything but how the picture is turned. -/
theorem tilt_eq (t : Tilt) (s : Screen) :
    ∃ turned, (s.tilt t).1 = { s with orientation := turned } := by
  unfold tilt
  split
  · split
    · exact ⟨s.orientation, rfl⟩
    · split
      · exact ⟨s.orientation, rfl⟩
      · exact ⟨_, rfl⟩
  · exact ⟨s.orientation, rfl⟩

/-- Tilting the device keeps the names of screens. -/
@[simp] theorem tilt_id (t : Tilt) (s : Screen) : (s.tilt t).1.id = s.id := by
  obtain ⟨turned, h⟩ := tilt_eq t s
  rw [h]

/-- A tilt that tells an orientation turns the screens that listen. -/
theorem turned_of_listening (hs : s.sensor = true) (ht : t ∈ Tilt.upright) :
    (s.tilt t).1.Turned t := by
  obtain ⟨turned, hturned⟩ :=
    Option.isSome_iff_exists.mp ((Tilt.mem_upright_iff (s.native = .landscape)).mp ht)
  by_cases he : s.orientation = turned
  · simp only [tilt, hs, ite_true, hturned, he, Turned]
  · simp only [tilt, hs, ite_true, hturned, he, ite_false, Turned]

/-- A screen stays turned if it does not listen, or to no other tilt that tells an orientation. -/
theorem turned_tilt (hs : s.Turned t) (h : s.sensor = true → u ∈ Tilt.upright → u = t) :
    (s.tilt u).1.Turned t := by
  cases hsensor : s.sensor with
  | false => simpa only [tilt, hsensor, Bool.false_eq_true, ite_false] using hs
  | true =>
    by_cases hu : u ∈ Tilt.upright
    · rw [h hsensor hu]
      exact turned_of_listening hsensor (h hsensor hu ▸ hu)
    · have hnone : u.orientation? (s.native = .landscape) = none :=
        Option.not_isSome_iff_eq_none.mp fun hsome => hu ((Tilt.mem_upright_iff _).mpr hsome)
      simpa only [tilt, hsensor, ite_true, hnone] using hs

/-- Lighting the built-in panel, or not, keeps the names of screens. -/
@[simp] theorem setLit_id (lit : Bool) (s : Screen) : (s.setLit lit).id = s.id := by
  unfold setLit
  split <;> rfl

/-- Lighting the built-in panel, or not, turns no picture. -/
@[simp] theorem turned_setLit {lit : Bool} : (s.setLit lit).Turned t ↔ s.Turned t := by
  unfold setLit
  split <;> exact Iff.rfl

end Screen

namespace Model

variable {m : Model} {id : OutputId} {c : Configuration} {P : Screen → Prop}

private theorem mem_replaceFirst {s t : Screen} {l : List Screen} (h : t ∈ replaceFirst s l) :
    t = s ∨ t ∈ l := by
  induction l with
  | nil => exact absurd h List.not_mem_nil
  | cons u l ih =>
    simp only [replaceFirst] at h
    split at h
    · exact (List.mem_cons.mp h).imp_right (List.mem_cons_of_mem u)
    · rcases List.mem_cons.mp h with rfl | h
      · exact .inr List.mem_cons_self
      · exact (ih h).imp_right (List.mem_cons_of_mem u)

/-- What holds of all screens holds after an update if it holds of the new screen. -/
theorem forall_update {origin : Origin} {f : Screen → Screen × List Change}
    (h : ∀ s ∈ m.screens, P s) (hf : ∀ s ∈ m.screens, s.id = id → P (f s).1) :
    ∀ s ∈ (m.update id origin f).screens, P s := by
  cases hs : m.screen? id with
  | none => simpa only [update, hs] using h
  | some s =>
    simp only [update, hs, put, push_screens]
    intro t ht
    rcases mem_replaceFirst ht with rfl | ht
    · exact hf s (mem_of_screen? hs) (id_of_screen? hs)
    · exact h t ht

/-- What holds of every screen and of the new ones, and is kept by following an output, holds after
outputs were absorbed. -/
theorem forall_absorbOutputs {l : List Output} (hfollow : ∀ s, ∀ o ∈ l, P s → P (s.follow o))
    (h : ∀ s ∈ m.screens, P s) (hnew : ∀ o ∈ l, o.id ∉ m.ids → P (.ofOutput o)) :
    ∀ s ∈ (m.absorbOutputs l).1.screens, P s := by
  induction l generalizing m with
  | nil => exact h
  | cons o l ih =>
    refine ih (fun s p hp => hfollow s p (List.mem_cons_of_mem o hp)) ?_ fun p hp hid =>
      hnew p (List.mem_cons_of_mem o hp) fun hmem => hid (mem_ids_absorbOutput.mpr (.inl hmem))
    by_cases ho : o.id ∈ m.ids
    · rw [absorbOutput_of_mem ho]
      exact forall_update h fun s hs _ => hfollow s o List.mem_cons_self (h s hs)
    · rw [absorbOutput_of_not_mem ho]
      intro s hs
      rcases List.mem_append.mp hs with hs | hs
      · exact h s hs
      · rw [List.mem_singleton.mp hs]
        exact hnew o List.mem_cons_self ho

/-- What holds of the screens that stay, once they take over their outputs, too, and of the new
ones, holds of all screens after a configuration was absorbed. -/
theorem forall_absorb (hfollow : ∀ s, ∀ o ∈ c.outputs, P s → P (s.follow o))
    (h : ∀ s ∈ m.screens, isConnected c s.id = true → P s)
    (hnew : ∀ o ∈ c.outputs, (isConnected c o.id = true → o.id ∉ m.ids) → P (.ofOutput o)) :
    ∀ s ∈ (m.absorb c).1.screens, P s := by
  refine forall_absorbOutputs (m := m.kept c)
    (fun s o ho => hfollow s o (List.mem_filter.mp ho).1) ?_ ?_
  · intro s hs
    obtain ⟨hs, hc⟩ := List.mem_filter.mp hs
    exact h s hs hc
  · intro o hmem ho
    rw [ids_kept, List.mem_filter] at ho
    exact hnew o (List.mem_filter.mp hmem).1 fun hc hmem => ho ⟨hmem, hc⟩

private theorem mem_ids_absorbOutputs_iff {l : List Output} :
    id ∈ (m.absorbOutputs l).1.ids ↔ id ∈ m.ids ∨ id ∈ l.map Output.id := by
  induction l generalizing m with
  | nil => simp only [absorbOutputs, List.map_nil, List.not_mem_nil, or_false]
  | cons o l ih =>
    rw [absorbOutputs_cons, ih, mem_ids_absorbOutput, List.map_cons, List.mem_cons, or_assoc]

/-- A model that absorbed a configuration has screens for the connected outputs and no others. -/
theorem mem_ids_absorb_iff : id ∈ (m.absorb c).1.ids ↔ id ∈ c.connectedIds := by
  rw [absorb_eq, mem_ids_absorbOutputs_iff, ids_kept, List.mem_filter]
  constructor
  · rintro (⟨_, hc⟩ | h)
    · obtain ⟨o, ho, hc⟩ := isConnected_iff.mp hc
      exact Configuration.mem_connectedIds.mpr
        ⟨o, Configuration.mem_of_output? ho, hc, Configuration.id_of_output? ho⟩
    · exact h
  · exact Or.inr

/-- The screens are of the place that the name of their output tells. -/
def Located (m : Model) : Prop :=
  ∀ s ∈ m.screens, s.location = .ofOutput s.id

private theorem located_setLit (lit : Bool) (h : m.Located) : (m.setLit lit).Located := by
  intro s hs
  obtain ⟨t, ht, rfl⟩ := List.mem_map.mp hs
  unfold Screen.setLit
  split <;> exact h t ht

/-- Moves keep the screens at their places. -/
theorem located_moves {m' : Model} {origin : Origin} (h : Moves origin m m') (hm : m.Located) :
    m'.Located := by
  induction h with
  | refl => exact hm
  | update id hf _ ih =>
    refine forall_update ih fun s hs _ => ?_
    rcases hf s with hf | ⟨change, _, hf⟩
    · rw [hf]
      exact ih s hs
    · rw [hf]
      cases change <;> exact ih s hs

/-- Taking note of an observation keeps the screens at their places. -/
theorem located_note (o : Observation) (hm : m.Located) : (o.note m).Located := by
  cases o with
  | configuration c =>
    exact forall_absorb (fun _ _ _ h => h) (fun s hs _ => hm s hs) fun _ _ _ => rfl
  | tilt id t => exact located_moves (.update id (Screen.moved_tilt t) .refl) hm
  | lit lit => exact located_setLit lit hm

/-- The screens of a reachable model are where their names tell. -/
theorem located_of_reachable (h : Reachable m) : m.Located := by
  induction h with
  | start => exact fun s hs => absurd hs List.not_mem_nil
  | note o _ ih => exact located_note o ih
  | mutate id u _ ih => exact located_moves (moves_mutate _ id u) ih
  | activate ha _ ih => exact located_moves (moves_activate ha) ih
  | drain _ ih => exact ih
  | subscribe _ ih => exact ih

end Model

end Displays
