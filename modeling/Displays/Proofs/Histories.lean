import Mathlib.Data.List.Induction
import Displays.Proofs.Sensor
import Displays.Proofs.Setting

/-!
# Histories of a model

What was done to a model from the first, step by step: configurations were absorbed and other
observations noted, requests were made to screens, screens were activated, and the queue was
drained. Whatever the steps, and whether they failed or not, the model has one screen for each name
of a connected output of the configuration that was absorbed last, and no other screens; names that
repeat in a configuration or that are both connected and not make no difference to this.
-/

namespace Displays

/-- The change that a request asks for, if the screen can make it. -/
def Mutation.Asks (s : Screen) : Mutation → Change → Prop
  | used u, change => change = .used u
  | scale x, change => change = .scale x
  | form f, change => change = .form f
  | modeIndex i, change => i < s.modes.length ∧ change = .modeIndex i
  | size _, change => ∃ i < s.modes.length, change = .modeIndex i
  | active a, change => change = .active a

/-- A request changes nothing, or what it asks for. -/
theorem Mutation.attempt_cases (u : Mutation) (s : Screen) :
    u.attempt s = (s, []) ∨
      ∃ change, u.Asks s change ∧ u.attempt s = (s.take change, [change]) := by
  have hindex : ∀ {i : Nat} {r : Screen × List Change}, s.setModeIndex i = .ok r →
      r = (s, []) ∨ i < s.modes.length ∧ r = (s.take (.modeIndex i), [.modeIndex i]) := by
    intro i r h
    unfold Screen.setModeIndex at h
    split at h
    · cases h
    · rename_i hlt
      split at h
      · exact .inl (Except.ok.inj h).symm
      · exact .inr ⟨Nat.lt_of_not_le hlt, (Except.ok.inj h).symm⟩
  cases h : u.apply s with
  | error fault => exact .inl (by simp only [attempt, h])
  | ok r =>
    have hr : u.attempt s = r := by simp only [attempt, h]
    rw [hr]
    cases u with
    | used b =>
      rw [← Except.ok.inj h, Screen.setUsed]
      split
      · exact .inl rfl
      · exact .inr ⟨_, rfl, rfl⟩
    | form f =>
      rw [← Except.ok.inj h, Screen.setForm]
      split
      · exact .inl rfl
      · exact .inr ⟨_, rfl, rfl⟩
    | active a =>
      rw [← Except.ok.inj h, Screen.setActive]
      split
      · exact .inl rfl
      · exact .inr ⟨_, rfl, rfl⟩
    | scale x =>
      simp only [apply, Screen.setScale] at h
      split at h
      · cases h
      · split at h
        · exact .inl (Except.ok.inj h).symm
        · exact .inr ⟨_, rfl, (Except.ok.inj h).symm⟩
    | modeIndex i =>
      rcases hindex h with hr | ⟨hi, hr⟩
      · exact .inl hr
      · exact .inr ⟨_, ⟨hi, rfl⟩, hr⟩
    | size r =>
      simp only [apply, Screen.setSize] at h
      split at h
      · rcases hindex h with hr | ⟨hi, hr⟩
        · exact .inl hr
        · exact .inr ⟨_, ⟨_, hi, rfl⟩, hr⟩
      · cases h

namespace Model

/-- What can be done to a model. -/
inductive Step where
  /-- An observation is noted. -/
  | note (o : Observation)
  /-- A request is made to the screen of an output. -/
  | mutate (id : OutputId) (u : Mutation)
  /-- The screen of an output is to become the only active one. -/
  | activate (id : OutputId)
  /-- The queue is drained. -/
  | drain
  /-- An observer is added. -/
  | subscribe
  deriving Repr

/-- The model after a step; a step that fails leaves it as it is. -/
def step (m : Model) : Step → Model
  | .note o => o.note m
  | .mutate id u => (m.mutate id u).2
  | .activate id => (m.activate id).toOption.getD m
  | .drain => m.drained
  | .subscribe => m.subscribe

/-- The model after steps that begin with an empty one. -/
def after (steps : List Step) : Model :=
  steps.foldl step {}

/-- The configuration that is known once it was another one before a step. -/
def Step.known (c : Configuration) : Step → Configuration
  | .note (.configuration d) => d
  | _ => c

/-- The configuration that was absorbed last; without outputs if none was. -/
def lastAbsorbed (steps : List Step) : Configuration :=
  steps.foldl Step.known {}

/-- The configuration that a step absorbs, if it absorbs one. -/
def Step.absorbed? : Step → Option Configuration
  | .note (.configuration c) => some c
  | _ => none

/-- The configurations that were absorbed, in order. -/
def absorbed (steps : List Step) : List Configuration :=
  steps.filterMap Step.absorbed?

/-- The step that absorbs a configuration is the one that notes it. -/
theorem Step.absorbed?_eq_some {a : Step} {c : Configuration} :
    a.absorbed? = some c ↔ a = .note (.configuration c) := by
  constructor
  · intro h
    cases a with
    | note o =>
      cases o with
      | configuration d => rw [Option.some.inj h]
      | _ => cases h
    | _ => cases h
  · rintro rfl
    rfl

/-- The configuration known after a step is the one it absorbs, or else the one known before. -/
theorem Step.known_eq (c : Configuration) (a : Step) : a.known c = a.absorbed?.getD c := by
  cases a with
  | note o => cases o <;> rfl
  | _ => rfl

variable {m : Model} {steps : List Step} {id : OutputId}

/-- A further step goes on from the model that the steps before it led to. -/
theorem after_concat (steps : List Step) (a : Step) : after (steps ++ [a]) = (after steps).step a :=
  List.foldl_concat ..

/-- A further step replaces the configuration that was absorbed last if it absorbs one. -/
theorem lastAbsorbed_concat (steps : List Step) (a : Step) :
    lastAbsorbed (steps ++ [a]) = a.known (lastAbsorbed steps) :=
  List.foldl_concat ..

/-- A screen that is not there cannot be activated. -/
theorem activate_of_not_mem (h : id ∉ m.ids) : m.activate id = .error (.unknownOutput id) := by
  simp only [activate, screen?_eq_none.mpr h]

/-- Activating a screen either fails and changes nothing, or succeeds. -/
theorem step_activate_cases (m : Model) (id : OutputId) :
    m.step (.activate id) = m ∨ ∃ m', m.activate id = .ok m' ∧ m.step (.activate id) = m' := by
  cases h : m.activate id with
  | error fault => exact .inl (by simp only [step, h, Except.toOption, Option.getD_none])
  | ok m' => exact .inr ⟨m', rfl, by simp only [step, h, Except.toOption, Option.getD_some]⟩

private theorem reachable_step (hm : m.Reachable) (a : Step) : (m.step a).Reachable := by
  cases a with
  | note o => exact .note o hm
  | mutate id u => exact .mutate id u hm
  | activate id =>
    rcases step_activate_cases m id with h | ⟨m', hm', h⟩
    · rw [h]
      exact hm
    · rw [h]
      exact .activate hm' hm
  | drain => exact .drain hm
  | subscribe => exact .subscribe hm

/-- What steps lead to from the empty model is reachable. -/
theorem reachable_after (steps : List Step) : (after steps).Reachable := by
  induction steps using List.reverseRecOn with
  | nil => exact .start
  | append_singleton steps a ih =>
    rw [after_concat]
    exact reachable_step ih a

/-- Only a step that absorbs a configuration changes which outputs have screens, and in which
order. -/
theorem ids_step {a : Step} (ha : a.absorbed? = none) : (m.step a).ids = m.ids := by
  cases a with
  | note o =>
    cases o with
    | configuration d => cases ha
    | tilt k t => exact ids_update
    | lit lit => exact ids_setLit m lit
  | mutate k u => exact ids_mutate m k u
  | activate k =>
    rcases step_activate_cases m k with h | ⟨m', hm', h⟩
    · rw [h]
    · rw [h, ids_activate hm']
  | drain => rfl
  | subscribe => rfl

/-- A step keeps the screens those of the connected outputs that are known. -/
theorem mem_ids_step {c : Configuration} (hm : ∀ id, id ∈ m.ids ↔ id ∈ c.connectedIds) (a : Step) :
    id ∈ (m.step a).ids ↔ id ∈ (a.known c).connectedIds := by
  rw [Step.known_eq]
  cases ha : a.absorbed? with
  | none =>
    rw [ids_step ha]
    exact hm id
  | some d =>
    obtain rfl := Step.absorbed?_eq_some.mp ha
    exact mem_ids_absorb_iff

/-- The screens are those of the outputs that were connected in the configuration absorbed last. -/
theorem mem_ids_after : id ∈ (after steps).ids ↔ id ∈ (lastAbsorbed steps).connectedIds := by
  induction steps using List.reverseRecOn generalizing id with
  | nil => exact Iff.rfl
  | append_singleton steps a ih =>
    rw [after_concat, lastAbsorbed_concat]
    exact mem_ids_step (fun _ => ih) a

end Model

end Displays
