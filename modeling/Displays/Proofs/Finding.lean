import Displays.Proofs.Absorption

/-!
# The screen that is found under a name

Requests and observations reach a screen by its name, and of screens with one name they reach the
first. So what an operation does is told by what is then found under each name, whether names repeat
among the screens or not: an update changes what is found under its name, and absorbing a
configuration without repeated names leaves under each connected name the screen that was there,
brought in line with its output, or a new one.
-/

namespace Displays.Model

variable {m : Model} {id k : OutputId} {o : Output} {l : List Output} {c : Configuration}

private theorem find?_replaceFirst (s : Screen) (k : OutputId) (l : List Screen) :
    (replaceFirst s l).find? (fun t => t.id = k) =
      if k = s.id then (l.find? fun t => t.id = k).map fun _ => s
      else l.find? fun t => t.id = k := by
  induction l with
  | nil => simp only [replaceFirst, List.find?_nil, Option.map_none, ite_self]
  | cons t l ih =>
    by_cases ht : t.id = s.id
    · by_cases hk : k = s.id
      · simp [replaceFirst, ht, hk]
      · have hne : s.id ≠ k := fun h => hk h.symm
        simp [replaceFirst, ht, hk, hne]
    · by_cases hk : t.id = k
      · have hne : k ≠ s.id := fun h => ht (hk.trans h)
        simp [replaceFirst, hk, hne]
      · simp only [replaceFirst, ht, ite_false, hk, decide_false, Bool.false_eq_true,
          not_false_eq_true, List.find?_cons_of_neg, ih]

/-- An update that keeps names changes what is found under its own name. -/
theorem screen?_update {origin : Origin} {f : Screen → Screen × List Change}
    (hf : ∀ s, (f s).1.id = s.id) :
    (m.update id origin f).screen? k =
      if k = id then (m.screen? k).map fun s => (f s).1 else m.screen? k := by
  cases hs : m.screen? id with
  | none =>
    simp only [update, hs]
    by_cases hk : k = id
    · rw [if_pos hk, hk, hs, Option.map_none]
    · rw [if_neg hk]
  | some s =>
    have hid : (f s).1.id = id := (hf s).trans (id_of_screen? hs)
    have hfind : (m.update id origin f).screen? k =
        if k = id then (m.screen? k).map fun _ => (f s).1 else m.screen? k := by
      have hupdate : m.update id origin f = m.put origin (f s).1 (f s).2 := by
        simp only [update, hs]
      rw [hupdate, screen?, put, push_screens, find?_replaceFirst, hid]
      rfl
    rw [hfind]
    by_cases hk : k = id
    · rw [if_pos hk, if_pos hk, hk, hs, Option.map_some, Option.map_some]
    · rw [if_neg hk, if_neg hk]

/-- The screen that an output has once it is taken over. -/
def screenOf (m : Model) (o : Output) : Screen :=
  (m.screen? o.id).elim (.ofOutput o) fun s => s.follow o

/-- The screen that an output has once it is taken over is a new one, or the one that was there and
follows it. -/
theorem screenOf_cases (m : Model) (o : Output) :
    (m.screen? o.id = none ∧ m.screenOf o = .ofOutput o) ∨
      ∃ s, m.screen? o.id = some s ∧ m.screenOf o = s.follow o := by
  cases hs : m.screen? o.id with
  | none => exact .inl ⟨rfl, by rw [screenOf, hs, Option.elim_none]⟩
  | some s => exact .inr ⟨s, rfl, by rw [screenOf, hs, Option.elim_some]⟩

/-- Absorbing an output changes what is found under its name only. -/
theorem screen?_absorbOutput (m : Model) (o : Output) (k : OutputId) :
    (m.absorbOutput o).screen? k = if k = o.id then some (m.screenOf o) else m.screen? k := by
  cases hs : m.screen? o.id with
  | some s =>
    rw [absorbOutput_of_mem (isSome_screen?.mp (hs ▸ rfl)), screen?_update fun s => s.follow_id o]
    by_cases hk : k = o.id
    · rw [if_pos hk, if_pos hk, hk, hs, screenOf, hs]
      rfl
    · rw [if_neg hk, if_neg hk]
  | none =>
    rw [absorbOutput_of_not_mem (screen?_eq_none.mp hs), screenOf, hs]
    simp only [screen?, List.find?_append, List.find?_cons, List.find?_nil, Screen.ofOutput_id]
    by_cases hk : k = o.id
    · subst hk
      rw [screen?] at hs
      simp only [hs, ite_true, decide_true, Option.none_or, Option.elim_none]
    · have hne : o.id ≠ k := fun h => hk h.symm
      simp only [hk, hne, decide_false, ite_false, Option.or_none]

/-- Absorbing outputs leaves what is found under other names. -/
theorem screen?_absorbOutputs_of_not_mem (h : k ∉ l.map Output.id) :
    (m.absorbOutputs l).1.screen? k = m.screen? k := by
  induction l generalizing m with
  | nil => rfl
  | cons o l ih =>
    rw [List.map_cons, List.mem_cons, not_or] at h
    rw [absorbOutputs_cons, ih h.2, screen?_absorbOutput, if_neg h.1]

/-- Of outputs without repeated names, each leaves its own screen. -/
theorem screen?_absorbOutputs (hl : (l.map Output.id).Nodup) (ho : o ∈ l) :
    (m.absorbOutputs l).1.screen? o.id = some (m.screenOf o) := by
  induction l generalizing m with
  | nil => exact absurd ho List.not_mem_nil
  | cons p l ih =>
    rw [List.map_cons, List.nodup_cons] at hl
    rw [absorbOutputs_cons]
    rcases List.mem_cons.mp ho with rfl | ho
    · rw [screen?_absorbOutputs_of_not_mem hl.1, screen?_absorbOutput, if_pos rfl]
    · have hne : o.id ≠ p.id := fun h => hl.1 (h ▸ List.mem_map_of_mem ho)
      rw [ih hl.2 ho, screenOf, screen?_absorbOutput, if_neg hne, screenOf]

/-- Under a connected name the same screen is found once the other ones are dropped. -/
theorem screen?_kept (h : isConnected c k = true) : (m.kept c).screen? k = m.screen? k := by
  simp only [screen?, kept, List.find?_filter]
  congr 1
  funext s
  by_cases hs : s.id = k
  · simp only [hs, h, and_self, decide_true]
  · simp only [hs, decide_false, Bool.false_eq_true, and_false]

/-- Where no name repeats, the names of connected outputs are connected. -/
theorem isConnected_of_mem (hc : c.ids.Nodup) (ho : o ∈ c.outputs) (hoc : o.connected = true) :
    isConnected c o.id = true :=
  isConnected_iff.mpr ⟨o, Configuration.output?_of_mem hc ho, hoc⟩

/-- Once a configuration without repeated names is absorbed, each connected output has its
screen. -/
theorem screen?_absorb (hc : c.ids.Nodup) (ho : o ∈ c.outputs) (hoc : o.connected = true) :
    (m.absorb c).1.screen? o.id = some (m.screenOf o) := by
  have hmem : o ∈ c.outputs.filter Output.connected := List.mem_filter.mpr ⟨ho, hoc⟩
  rw [absorb_eq, screen?_absorbOutputs (Configuration.nodup_connectedIds hc) hmem, screenOf,
    screen?_kept (isConnected_of_mem hc ho hoc), screenOf]

end Displays.Model
