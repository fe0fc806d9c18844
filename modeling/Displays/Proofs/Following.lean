import Displays.Hardware.Guarded
import Displays.Proofs.Lookup

/-!
# What the hardware is asked to follow

A notification is a request if it tells of a software change of a followed field: whether the screen
is used, its scale, its kind or its mode. A request is due in a configuration that has its output
connected; it is then carried out by one submission, of that configuration with the one field of the
one output replaced. Every other notification leaves the hardware unasked, but for the reading that
finds an output gone.
-/

namespace Displays

/-- The fields whose software changes the hardware has to follow. -/
def Field.isFollowed : Field → Bool
  | .used | .scale | .form | .modeIndex => true
  | _ => false

/-- The output with the new value of a followed field; other changes do not concern it. -/
def Change.write : Change → Output → Output
  | .used u, o => { o with used := u }
  | .scale x, o => { o with scale := x }
  | .form f, o => { o with form := f }
  | .modeIndex i, o => { o with modeIndex := i }
  | _, o => o

namespace Change

/-- Writing a change into an output keeps its name. -/
@[simp] theorem write_id (change : Change) (o : Output) : (change.write o).id = o.id := by
  cases change <;> rfl

/-- Writing a change into an output keeps it connected, or not. -/
@[simp] theorem write_connected (change : Change) (o : Output) :
    (change.write o).connected = o.connected := by
  cases change <;> rfl

/-- A change that the hardware need not follow is not written. -/
theorem write_of_not_followed {change : Change} (h : change.field.isFollowed = false)
    (o : Output) : change.write o = o := by
  cases change <;> first | rfl | exact Bool.noConfusion h

end Change

/-- The software asks the hardware for something. -/
def Notification.isRequest (n : Notification) : Bool :=
  n.origin = .software && n.change.field.isFollowed

namespace Notification

variable {n : Notification} {c : Configuration}

/-- The notification is a request, and its output is connected in this configuration. -/
def Due (n : Notification) (c : Configuration) : Prop :=
  n.isRequest = true ∧ ∃ o, c.output? n.output = some o ∧ o.connected = true

/-- The configuration with the new value in the first output that the notification names. -/
def applied (n : Notification) (c : Configuration) : Configuration :=
  c.modify n.output n.change.write

/-- A request comes from the software and concerns a followed field. -/
theorem isRequest_iff :
    n.isRequest = true ↔ n.origin = .software ∧ n.change.field.isFollowed = true := by
  simp only [isRequest, Bool.and_eq_true, decide_eq_true_eq]

/-- What the hardware tells is no request. -/
theorem isRequest_of_hardware (h : n.origin = .hardware) : n.isRequest = false := by
  simp only [isRequest, h, reduceCtorEq, decide_false, Bool.false_and]

/-- What the hardware tells is never due. -/
theorem not_due_of_hardware (h : n.origin = .hardware) : ¬ n.Due c := fun hd => by
  rw [Due, isRequest_of_hardware h] at hd
  exact Bool.noConfusion hd.1

/-- Applying a notification keeps all names. -/
theorem ids_applied (n : Notification) (c : Configuration) : (n.applied c).ids = c.ids :=
  Configuration.ids_modify n.change.write_id c n.output

/-- Applying a notification keeps what is connected. -/
theorem connectedIds_applied (n : Notification) (c : Configuration) :
    (n.applied c).connectedIds = c.connectedIds :=
  Configuration.connectedIds_modify n.change.write_id n.change.write_connected c n.output

end Notification

namespace Guarded

private theorem patch?_eq (change : Change) (o : Output) :
    patch? change o = if change.field.isFollowed then some (change.write o) else none := by
  cases change <;> rfl

/-- A change is patched in exactly when it is of a followed field of a connected output. -/
theorem patched?_of_due {n : Notification} {c : Configuration} (h : n.Due c) :
    patched? c n.output n.change = some (n.applied c) := by
  obtain ⟨hr, o, ho, hc⟩ := h
  have hf := (Notification.isRequest_iff.mp hr).2
  simp only [patched?, ho, Option.bind_eq_bind, Option.bind_some, hc, ite_true, patch?_eq, hf,
    Notification.applied, Configuration.modify_const ho, Option.pure_def]

private theorem patched?_of_not_due {n : Notification} {c : Configuration}
    (hs : n.origin = .software)
    (h : ¬ n.Due c) : patched? c n.output n.change = none := by
  cases ho : c.output? n.output with
  | none => simp only [patched?, ho, Option.bind_eq_bind, Option.bind_none]
  | some o =>
    by_cases hc : o.connected = true
    · have hf : n.change.field.isFollowed = false := by
        rw [← Bool.not_eq_true]
        intro hf
        exact h ⟨Notification.isRequest_iff.mpr ⟨hs, hf⟩, o, ho, hc⟩
      simp only [patched?, ho, Option.bind_eq_bind, Option.bind_some, hc, ite_true, patch?_eq, hf,
        Bool.false_eq_true, ite_false, Option.bind_none]
    · simp only [patched?, ho, Option.bind_eq_bind, Option.bind_some, hc, Bool.false_eq_true,
        ite_false]

variable {H : Type} [Hardware H]

/-- What becomes of a notification: one from the hardware is passed over; for any other the hardware
is read, and only a request that is due is submitted. -/
theorem follow_cases (n : Notification) (h : H) :
    (n.origin = .hardware ∧ follow n h = (.ok (), h)) ∨
    (n.origin = .software ∧ ∃ fault, (Hardware.read h).1 = .error fault ∧
      follow n h = (.error (.unavailable fault), (Hardware.read h).2)) ∨
    (n.origin = .software ∧ ∃ c, (Hardware.read h).1 = .ok c ∧ ¬ n.Due c ∧
      follow n h = (.ok (), (Hardware.read h).2)) ∨
    (∃ c, (Hardware.read h).1 = .ok c ∧ n.Due c ∧
      follow n h = submit (n.applied c) (Hardware.read h).2) := by
  cases ho : n.origin with
  | hardware => exact .inl ⟨rfl, by simp only [follow, ho]⟩
  | software =>
    right
    rcases hr : Hardware.read h with ⟨answer, h'⟩
    cases answer with
    | error fault => exact .inl ⟨rfl, fault, rfl, by simp only [follow, ho, read, hr]⟩
    | ok c =>
      right
      by_cases hd : n.Due c
      · exact .inr ⟨c, rfl, hd, by simp only [follow, ho, read, hr, patched?_of_due hd]⟩
      · exact .inl ⟨rfl, c, rfl, hd,
          by simp only [follow, ho, read, hr, patched?_of_not_due ho hd]⟩

/-- What becomes of a configuration that is to be submitted. -/
theorem submit_cases (c : Configuration) (h : H) :
    (∃ defect, c.defect? = some defect ∧ submit c h = (.error (.invalid defect), h)) ∨
    (c.defect? = none ∧ (Hardware.submit c h).1 = .ok () ∧
      submit c h = (.ok (), (Hardware.submit c h).2)) ∨
    (c.defect? = none ∧ ∃ fault, (Hardware.submit c h).1 = .error fault ∧
      submit c h = (.error (.rejected fault), (Hardware.submit c h).2)) := by
  cases hd : c.defect? with
  | some defect => exact .inl ⟨defect, rfl, by simp only [submit, hd]⟩
  | none =>
    right
    rcases hs : Hardware.submit c h with ⟨answer, h'⟩
    cases answer with
    | ok u => exact .inl ⟨rfl, rfl, by simp only [submit, hd, hs]⟩
    | error fault => exact .inr ⟨rfl, fault, rfl, by simp only [submit, hd, hs]⟩

/-- A notification from the hardware is passed over. -/
theorem follow_of_hardware {n : Notification} (hn : n.origin = .hardware) (h : H) :
    follow n h = (.ok (), h) := by
  simp only [follow, hn]

end Guarded

end Displays
