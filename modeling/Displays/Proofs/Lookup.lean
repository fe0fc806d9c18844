import Mathlib.Data.List.Nodup
import Displays.Configuration

/-!
# Looking outputs up

The first output with a name is the only one if names do not repeat. Changing the first output with
a name changes what is found under that name and nothing else, as long as the change keeps names.
-/

namespace Displays

/-- A connected output that shows a picture in its only mode. -/
def Output.plain (id : OutputId) : Output where
  id
  connected := true
  used := true
  topLeft := ⟨0, 0⟩
  modeIndex := 0
  modes := [⟨⟨1920, 1080⟩, 60000⟩]
  power := .on
  scale := 1
  form := .monitor
  size := ⟨0, 0⟩
  edid := none

namespace Configuration

/-- The names of the outputs, in order. -/
def ids (c : Configuration) : List OutputId := c.outputs.map Output.id

/-- The names of the connected outputs, in order. -/
def connectedIds (c : Configuration) : List OutputId :=
  (c.outputs.filter Output.connected).map Output.id

variable {c : Configuration} {id : OutputId} {o : Output}

/-- An output that is found is among the outputs. -/
theorem mem_of_output? (h : c.output? id = some o) : o ∈ c.outputs := List.mem_of_find?_eq_some h

/-- An output that is found has the name that was looked for. -/
theorem id_of_output? (h : c.output? id = some o) : o.id = id := by
  simpa only [decide_eq_true_eq] using List.find?_some h

/-- Without repetition, an output is found among outputs exactly under its own name. -/
theorem find?_id_of_mem {l : List Output} (hn : (l.map Output.id).Nodup) (h : o ∈ l) :
    l.find? (fun p => p.id = o.id) = some o := by
  induction l with
  | nil => simp only [List.not_mem_nil] at h
  | cons p l ih =>
    rw [List.map_cons, List.nodup_cons] at hn
    by_cases hp : p.id = o.id
    · rcases List.mem_cons.mp h with rfl | hl
      · simp only [decide_true, List.find?_cons_of_pos]
      · exact absurd (hp ▸ List.mem_map_of_mem hl) hn.1
    · rcases List.mem_cons.mp h with rfl | hl
      · exact absurd rfl hp
      · rw [List.find?_cons_of_neg (by simpa only [decide_eq_true_eq] using hp)]
        exact ih hn.2 hl

/-- Without repetition, every output is found under its name. -/
theorem output?_of_mem (hn : c.ids.Nodup) (h : o ∈ c.outputs) : c.output? o.id = some o :=
  find?_id_of_mem hn h

/-- The connected names are those of connected outputs. -/
theorem mem_connectedIds :
    id ∈ c.connectedIds ↔ ∃ o ∈ c.outputs, o.connected = true ∧ o.id = id := by
  simp only [connectedIds, List.mem_map, List.mem_filter, and_assoc]

/-- Without repetition, the connected names are those whose first output is connected. -/
theorem mem_connectedIds_iff_output? (hn : c.ids.Nodup) :
    id ∈ c.connectedIds ↔ ∃ o, c.output? id = some o ∧ o.connected = true := by
  rw [mem_connectedIds]
  constructor
  · rintro ⟨o, ho, hc, rfl⟩
    exact ⟨o, output?_of_mem hn ho, hc⟩
  · rintro ⟨o, ho, hc⟩
    exact ⟨o, mem_of_output? ho, hc, id_of_output? ho⟩

/-- No connected name stands twice if no name does. -/
theorem nodup_connectedIds (hn : c.ids.Nodup) : c.connectedIds.Nodup :=
  hn.sublist ((List.filter_sublist (l := c.outputs)).map Output.id)

/-- Whatever a change keeps of an output, it keeps of the list of outputs. -/
theorem map_modifyFirst {α : Type} (p : Output → Bool) {f : Output → Output} (g : Output → α)
    (hg : ∀ o, g (f o) = g o) (l : List Output) : (modifyFirst p f l).map g = l.map g := by
  induction l with
  | nil => rfl
  | cons o l ih =>
    by_cases hp : p o = true
    · simp only [modifyFirst, hp, ite_true, List.map_cons, hg]
    · simp only [modifyFirst, hp, Bool.false_eq_true, ite_false, List.map_cons, ih]

/-- A change that keeps names changes what is found under the one name only. -/
theorem find?_modifyFirst {f : Output → Output} (hf : ∀ o, (f o).id = o.id) (id k : OutputId)
    (l : List Output) :
    (modifyFirst (fun o => o.id = id) f l).find? (fun o => o.id = k) =
      if k = id then (l.find? fun o => o.id = k).map f else l.find? fun o => o.id = k := by
  induction l with
  | nil => simp only [modifyFirst, List.find?_nil, Option.map_none, ite_self]
  | cons o l ih =>
    by_cases ho : o.id = id
    · by_cases hk : k = id
      · simp [modifyFirst, ho, hk, hf]
      · have hne : id ≠ k := fun h => hk h.symm
        simp [modifyFirst, ho, hk, hf, hne]
    · by_cases hk : o.id = k
      · have hne : k ≠ id := fun h => ho (hk.trans h)
        simp [modifyFirst, hk, hne]
      · simp only [modifyFirst, ho, decide_false, Bool.false_eq_true, ite_false, hk,
          not_false_eq_true, List.find?_cons_of_neg, ih]

/-- A change that keeps names changes what is found under the one name only. -/
theorem output?_modify {f : Output → Output} (hf : ∀ o, (f o).id = o.id) (c : Configuration)
    (id k : OutputId) :
    (c.modify id f).output? k = if k = id then (c.output? k).map f else c.output? k :=
  find?_modifyFirst hf id k c.outputs

/-- Changing an output that keeps its name keeps all names. -/
theorem ids_modify {f : Output → Output} (hf : ∀ o, (f o).id = o.id) (c : Configuration)
    (id : OutputId) : (c.modify id f).ids = c.ids :=
  map_modifyFirst _ Output.id hf c.outputs

/-- The connected names depend on the name of each output and whether it is connected. -/
theorem connectedIds_eq_filterMap (c : Configuration) :
    c.connectedIds =
      (c.outputs.map fun o => (o.id, o.connected)).filterMap fun e =>
        if e.2 then some e.1 else none := by
  rw [connectedIds, List.filterMap_map, ← List.filterMap_eq_filter, List.map_filterMap]
  congr 1
  funext o
  cases h : o.connected <;> simp [Option.guard, h]

/-- A change that keeps names and connections keeps the connected names. -/
theorem connectedIds_modify {f : Output → Output} (hf : ∀ o, (f o).id = o.id)
    (hc : ∀ o, (f o).connected = o.connected) (c : Configuration) (id : OutputId) :
    (c.modify id f).connectedIds = c.connectedIds := by
  have hg : ∀ o, ((f o).id, (f o).connected) = (o.id, o.connected) := fun o =>
    Prod.ext (hf o) (hc o)
  rw [connectedIds_eq_filterMap, connectedIds_eq_filterMap, modify,
    map_modifyFirst _ (fun o => (o.id, o.connected)) hg]

/-- Changing the output that is found under a name leaves what stands before and behind it. -/
theorem modify_split (h : c.output? id = some o) :
    ∃ before after, c.outputs = before ++ o :: after ∧
      ∀ f, c.modify id f = ⟨before ++ f o :: after⟩ := by
  obtain ⟨l⟩ := c
  simp only [output?] at h
  simp only [modify, Configuration.mk.injEq]
  induction l with
  | nil => simp only [List.find?_nil, reduceCtorEq] at h
  | cons p l ih =>
    by_cases hp : p.id = id
    · rw [List.find?_cons_of_pos (by simpa only [decide_eq_true_eq] using hp)] at h
      obtain rfl := Option.some.inj h
      exact ⟨[], l, rfl, fun f => by simp only [modifyFirst, hp, decide_true, ite_true,
        List.nil_append]⟩
    · rw [List.find?_cons_of_neg (by simpa only [decide_eq_true_eq] using hp)] at h
      obtain ⟨before, after, rfl, hmodify⟩ := ih h
      exact ⟨p :: before, after, rfl, fun f => by simp only [modifyFirst, hp, decide_false,
        Bool.false_eq_true, ite_false, hmodify, List.cons_append]⟩

/-- Replacing the first output with a name by what a function makes of it is changing it by the
function. -/
theorem modify_const {f : Output → Output} (h : c.output? id = some o) :
    (c.modify id fun _ => f o) = c.modify id f := by
  obtain ⟨before, after, _, hmodify⟩ := modify_split h
  rw [hmodify, hmodify]

/-- Changing an output twice, the first time keeping names, is one change. -/
theorem modify_modify {f g : Output → Output} (hf : ∀ o, (f o).id = o.id) :
    (c.modify id f).modify id g = c.modify id fun o => g (f o) := by
  obtain ⟨l⟩ := c
  refine congrArg mk ?_
  induction l with
  | nil => rfl
  | cons o l ih =>
    by_cases ho : o.id = id
    · simp only [modify, modifyFirst, hf, ho, decide_true, ite_true]
    · simp only [modify] at ih
      simp only [modify, modifyFirst, ho, decide_false, Bool.false_eq_true, ite_false, ih]

/-- Changing nothing of an output leaves the configuration as it is. -/
theorem modify_self : (c.modify id fun o => o) = c := by
  obtain ⟨l⟩ := c
  refine congrArg mk ?_
  induction l with
  | nil => rfl
  | cons o l ih => simp only [modifyFirst, ih, ite_self]

end Configuration

end Displays
