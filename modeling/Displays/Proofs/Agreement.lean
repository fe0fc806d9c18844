import Displays.Proofs.Reachability
import Displays.Proofs.Scale

/-!
# Agreement of screens and outputs

A screen agrees with its output field by field. It does so with every output that compares as equal,
and where configurations compare as equal, so do the outputs of one name. Taking a new value of a
field concerns the agreement in this field only, and so does writing one into an output.
-/

namespace Displays

/-- The screen agrees with the output in a field, if the two have it in common; in the scale it does
so up to rounding, and in the geometry by the position. -/
def Screen.Agrees (s : Screen) (o : Output) : Field → Prop
  | .used => s.used = o.used
  | .scale => s.scale = o.scale ∨ scaleEq s.scale o.scale = true
  | .form => s.form = o.form
  | .modeIndex => s.modeIndex = o.modeIndex
  | .modes => s.modes = o.modes
  | .power => s.power = o.power
  | .geometry => s.geometry.topLeft = o.topLeft
  | _ => True

/-- The screen agrees in a field with the output of its name. -/
def Screen.ShownIn (s : Screen) (c : Configuration) (f : Field) : Prop :=
  ∃ o, c.output? s.id = some o ∧ s.Agrees o f

/-- Outputs that compare as equal are the same but for the scale. -/
theorem Output.eq_of_beq {o p : Output} (h : (o == p) = true) :
    { o with scale := p.scale } = p ∧ (o.scale == p.scale) = true := by
  obtain ⟨⟩ := o
  obtain ⟨⟩ := p
  change instBEqOutput.beq _ _ = true at h
  simp only [instBEqOutput.beq, Bool.and_eq_true, beq_iff_eq] at h
  obtain ⟨hid, hconnected, hused, htop, hindex, hmodes, hpower, hscale, hform, hsize, hedid⟩ := h
  simp only [hid, hconnected, hused, htop, hindex, hmodes, hpower, hform, hsize, hedid, hscale,
    and_self]

/-- Outputs that compare as equal compare alike with any other one. -/
theorem Output.beq_congr {o p : Output} (h : (o == p) = true) (q : Output) :
    (o == q) = (p == q) := by
  obtain ⟨heq, hscale⟩ := eq_of_beq h
  rw [← heq]
  obtain ⟨⟩ := o
  obtain ⟨⟩ := q
  change instBEqOutput.beq _ _ = instBEqOutput.beq _ _
  simp only [instBEqOutput.beq, Scale.beq_congr hscale]

namespace Configuration

variable {c d : Configuration} {l k : List Output} {o : Output} {id : OutputId}

/-- Configurations that compare as equal have outputs that do. -/
theorem outputs_of_beq (h : (c == d) = true) : (c.outputs == d.outputs) = true := by
  obtain ⟨l⟩ := c
  obtain ⟨k⟩ := d
  exact h

/-- Lists that compare as equal do so output by output. -/
theorem forall₂_of_beq (h : (l == k) = true) :
    List.Forall₂ (fun o p : Output => (o == p) = true) l k := by
  induction l generalizing k with
  | nil =>
    cases k with
    | nil => exact .nil
    | cons p k => simp only [BEq.beq, List.beq, Bool.false_eq_true] at h
  | cons o l ih =>
    cases k with
    | nil => simp only [BEq.beq, List.beq, Bool.false_eq_true] at h
    | cons p k =>
      obtain ⟨ho, hl⟩ := Bool.and_eq_true_iff.mp (show ((o == p) && (l == k)) = true from h)
      exact .cons ho (ih hl)

/-- Configurations that compare as equal compare alike with any other one. -/
theorem beq_congr (h : (c == d) = true) (e : Configuration) : (c == e) = (d == e) := by
  obtain ⟨l⟩ := c
  obtain ⟨k⟩ := d
  obtain ⟨m⟩ := e
  have hall : List.Forall₂ (fun o p : Output => (o == p) = true) l k :=
    forall₂_of_beq (outputs_of_beq h)
  change (l == m) = (k == m)
  clear h
  induction hall generalizing m with
  | nil => rfl
  | cons ho _ ih =>
    cases m with
    | nil => rfl
    | cons q m => exact congrArg₂ (· && ·) (Output.beq_congr ho q) (ih m)

/-- Whatever does not depend on the scale is the same in lists that compare as equal. -/
theorem map_of_beq {α : Type} (g : Output → α) (hg : ∀ o x, g { o with scale := x } = g o)
    (h : (l == k) = true) : l.map g = k.map g := by
  replace h := forall₂_of_beq h
  induction h with
  | nil => rfl
  | @cons o p _ _ ho _ ih =>
    have hp := hg o p.scale
    rw [(Output.eq_of_beq ho).1] at hp
    rw [List.map_cons, List.map_cons, ih, hp]

/-- In lists that compare as equal, a search that does not depend on the scale finds outputs that
compare as equal, or nothing in either. -/
theorem rel_find?_of_beq {q : Output → Bool} (hq : ∀ o x, q { o with scale := x } = q o)
    (h : (l == k) = true) :
    Option.Rel (fun o p : Output => (o == p) = true) (l.find? q) (k.find? q) := by
  replace h := forall₂_of_beq h
  induction h with
  | nil => exact .none
  | @cons o p _ _ ho _ ih =>
    have hp := hq o p.scale
    rw [(Output.eq_of_beq ho).1] at hp
    cases hqo : q o with
    | true =>
      rw [List.find?_cons_of_pos hqo, List.find?_cons_of_pos (hp.trans hqo)]
      exact .some ho
    | false =>
      rw [List.find?_cons_of_neg (ne_true_of_eq_false hqo),
        List.find?_cons_of_neg (ne_true_of_eq_false (hp.trans hqo))]
      exact ih

/-- Configurations that compare as equal have the same connected outputs. -/
theorem connectedIds_of_beq (h : (c == d) = true) : c.connectedIds = d.connectedIds := by
  have hmap := map_of_beq (fun o => (o.id, o.connected)) (fun _ _ => rfl) (outputs_of_beq h)
  rw [connectedIds_eq_filterMap, connectedIds_eq_filterMap, hmap]

end Configuration

namespace Screen

variable {s : Screen} {o p : Output} {c d : Configuration} {f : Field} {change : Change}

/-- A screen that shows an output agrees with it in every field. -/
theorem Shows.agrees (h : s.Shows o) (f : Field) : s.Agrees o f := by
  cases f with
  | used => exact h.used
  | scale => exact h.scale
  | form => exact h.form
  | modeIndex => exact h.modeIndex
  | modes => exact h.modes
  | power => exact h.power
  | geometry => exact congrArg Rect.topLeft h.geometry
  | _ => trivial

/-- A screen that agrees with an output agrees with every one that compares as equal to it. -/
theorem agrees_of_beq (h : (o == p) = true) (hs : s.Agrees o f) : s.Agrees p f := by
  obtain ⟨heq, hscale⟩ := Output.eq_of_beq h
  rw [← heq]
  cases f with
  | scale => exact Scale.holds_of_beq hscale hs
  | _ => exact hs

/-- What is shown in a configuration is shown in all that compare as equal. -/
theorem shownIn_of_beq (h : (c == d) = true) (hs : s.ShownIn c f) : s.ShownIn d f := by
  obtain ⟨o, ho, hag⟩ := hs
  have hrel : Option.Rel (fun o p : Output => (o == p) = true) (c.output? s.id) (d.output? s.id) :=
    Configuration.rel_find?_of_beq (fun _ _ => rfl) (Configuration.outputs_of_beq h)
  rw [ho] at hrel
  cases hp : d.output? s.id with
  | none =>
    rw [hp] at hrel
    cases hrel
  | some p =>
    rw [hp] at hrel
    obtain ⟨hop⟩ := hrel
    exact ⟨p, hp, agrees_of_beq hop hag⟩

/-- A new value of one field leaves the agreement in the others. -/
theorem agrees_take_of_ne (h : change.field ≠ f) : (s.take change).Agrees o f ↔ s.Agrees o f := by
  cases change <;> cases f <;> first | exact absurd rfl h | exact Iff.rfl

/-- A new value of a field that the hardware need not follow leaves every agreement. -/
theorem agrees_take_of_not_followed {origin : Origin} (hm : origin.moves change.field = true)
    (hf : change.field.isFollowed = false) : (s.take change).Agrees o f ↔ s.Agrees o f := by
  by_cases h : change.field = f
  · subst h
    cases change <;> cases origin <;>
      first | exact Iff.rfl | exact Bool.noConfusion hf | exact Bool.noConfusion hm
  · exact agrees_take_of_ne h

/-- Writing one field into an output leaves the agreement in the others. -/
theorem agrees_write_of_ne (h : change.field ≠ f) : s.Agrees (change.write o) f ↔ s.Agrees o f := by
  cases change <;> cases f <;> first | exact absurd rfl h | exact Iff.rfl

/-- A screen that took a value agrees with an output into which this was written. -/
theorem agrees_take_write (hf : change.field.isFollowed = true) :
    (s.take change).Agrees (change.write o) change.field := by
  cases change with
  | scale x => exact .inl rfl
  | _ => first | rfl | exact Bool.noConfusion hf

end Screen

end Displays
