import Mathlib.Data.List.Forall2
import Displays.Proofs.Following

/-!
# Revised configurations

A configuration is revised under some names by giving other settings to connected outputs that have
one of these names. Everything else stays as it is: how many outputs there are, in which order, and
of each output its name, connection, modes, extent and EDID. Both ways to write a request into a
configuration are revisions, a notification under the name of its output and a list of settings
under the names in the list.
-/

namespace Displays

/-- The settings of an output. -/
def Output.settings (o : Output) : Settings :=
  ⟨o.used, o.topLeft, o.modeIndex, o.power, o.scale, o.form⟩

/-- The second output is the first one, with other settings at most if it is connected and has one
of these names. -/
def Output.Revised (names : List OutputId) (o p : Output) : Prop :=
  p = o ∨ o.connected = true ∧ o.id ∈ names ∧ ∃ s : Settings, p = s.apply o

/-- The outputs of the second configuration are those of the first one, in order, with other
settings at most where they are connected and have one of these names. -/
def Configuration.Revised (names : List OutputId) (c d : Configuration) : Prop :=
  List.Forall₂ (Output.Revised names) c.outputs d.outputs

namespace Output

variable {names : List OutputId} {o p q : Output}

/-- A change of a followed field gives an output other settings. -/
theorem write_eq_apply (change : Change) (o : Output) :
    change.write o = (change.write o).settings.apply o := by
  cases change <;> rfl

/-- An output revised twice is revised. -/
theorem Revised.trans (hop : o.Revised names p) (hpq : p.Revised names q) : o.Revised names q := by
  rcases hop with rfl | ⟨hc, hid, s, rfl⟩
  · exact hpq
  · rcases hpq with rfl | ⟨_, _, t, rfl⟩
    · exact .inr ⟨hc, hid, s, rfl⟩
    · exact .inr ⟨hc, hid, t, rfl⟩

/-- An output is revised alike if there are more names. -/
theorem Revised.mono {more : List OutputId} (hsub : ∀ id ∈ names, id ∈ more)
    (h : o.Revised names p) : o.Revised more p := by
  rcases h with rfl | ⟨hc, hid, hs⟩
  · exact .inl rfl
  · exact .inr ⟨hc, hsub o.id hid, hs⟩

end Output

namespace Configuration

variable {names : List OutputId} {c d e : Configuration} {id : OutputId}

/-- A configuration is a revision of itself. -/
theorem Revised.refl (names : List OutputId) (c : Configuration) : c.Revised names c :=
  List.forall₂_same.mpr fun _ _ => .inl rfl

private theorem forall₂_revised_trans {l k m : List Output}
    (hlk : List.Forall₂ (Output.Revised names) l k)
    (hkm : List.Forall₂ (Output.Revised names) k m) :
    List.Forall₂ (Output.Revised names) l m := by
  induction hlk generalizing m with
  | nil => exact hkm
  | cons hop _ ih =>
    obtain ⟨q, rest, hpq, hrest, rfl⟩ := List.forall₂_cons_left_iff.mp hkm
    exact .cons (hop.trans hpq) (ih hrest)

/-- A configuration revised twice is revised. -/
theorem Revised.trans (hcd : c.Revised names d) (hde : d.Revised names e) : c.Revised names e :=
  forall₂_revised_trans hcd hde

/-- A configuration is revised alike if there are more names. -/
theorem Revised.mono {more : List OutputId} (hsub : ∀ id ∈ names, id ∈ more)
    (h : c.Revised names d) : c.Revised more d :=
  h.imp fun _ _ ho => ho.mono hsub

/-- Giving other settings to the first output with a name is a revision if it is connected. -/
theorem revised_modify {o : Output} {f : Output → Output} (ho : c.output? id = some o)
    (hc : o.connected = true) (hf : ∀ p, ∃ s : Settings, f p = s.apply p) :
    c.Revised [id] (c.modify id f) := by
  obtain ⟨before, after, houtputs, hmodify⟩ := modify_split ho
  have hid : o.id ∈ [id] := id_of_output? ho ▸ List.mem_singleton_self o.id
  rw [Revised, houtputs, hmodify]
  exact List.rel_append (Revised.refl [id] ⟨before⟩)
    (.cons (.inr ⟨hc, hid, hf o⟩) (Revised.refl [id] ⟨after⟩))

/-- A request that is written in is a revision under the name of its output. -/
theorem revised_request {s : Settings} (h : c.request id s = .ok d) : c.Revised [id] d := by
  simp only [request] at h
  cases ho : c.output? id with
  | none => simp only [ho, reduceCtorEq] at h
  | some o =>
    by_cases hc : o.connected = true
    · simp only [ho, hc, ite_true, Except.ok.injEq] at h
      rw [← h]
      exact revised_modify ho hc fun p => ⟨s, rfl⟩
    · simp only [ho, hc, Bool.false_eq_true, ite_false, reduceCtorEq] at h

/-- Requests that are written in one after the other are a revision under their names. -/
theorem revised_requestAll {entries : List (OutputId × Settings)}
    (h : c.requestAll entries = .ok d) : c.Revised (entries.map Prod.fst) d := by
  induction entries generalizing c with
  | nil =>
    rw [← Except.ok.inj h]
    exact Revised.refl [] c
  | cons entry entries ih =>
    obtain ⟨id, s⟩ := entry
    cases hfirst : c.request id s with
    | error fault => simp only [requestAll, hfirst, reduceCtorEq] at h
    | ok e =>
      simp only [requestAll, hfirst] at h
      have hone : c.Revised (id :: entries.map Prod.fst) e :=
        (revised_request hfirst).mono fun k hk => List.mem_singleton.mp hk ▸ List.mem_cons_self
      exact hone.trans ((ih h).mono fun k hk => List.mem_cons_of_mem id hk)

end Configuration

/-- A notification that is due is a revision under the name of its output. -/
theorem Notification.revised_applied {n : Notification} {c : Configuration} (h : n.Due c) :
    c.Revised [n.output] (n.applied c) := by
  obtain ⟨_, o, ho, hc⟩ := h
  exact Configuration.revised_modify ho hc fun p => ⟨_, Output.write_eq_apply n.change p⟩

end Displays
