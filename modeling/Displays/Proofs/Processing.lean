import Displays.State
import Displays.Proofs.Absorption
import Displays.Proofs.Following

/-!
# Processing the queue

Delivering notifications tells the observers of each and has the hardware follow each, and does
nothing else; so a drain is what the hardware makes of the queue, one notification after the other,
beside a model whose queue has gone to the inboxes. A queue from the hardware is drained without the
hardware being asked for anything. Hence processing ends in one of three ways: nothing failed; the
first fault is reported by a model that could not be resynchronised; or it is reported by one that
absorbed what the hardware then said.
-/

namespace Displays

variable {H : Type} [Hardware H]

namespace Guarded

/-- The hardware follows notifications in order; the faults are listed in order. -/
def followAll : List Notification → H → List ConfigFault × H
  | [], h => ([], h)
  | n :: rest, h =>
    match follow n h with
    | (.ok (), h) => followAll rest h
    | (.error fault, h) => (fault :: (followAll rest h).1, (followAll rest h).2)

/-- What is left after a notification and the rest of the queue is what the rest leaves. -/
theorem followAll_cons (n : Notification) (q : List Notification) (h : H) :
    (followAll (n :: q) h).2 = (followAll q (follow n h).2).2 := by
  rcases hf : follow n h with ⟨answer, h'⟩
  cases answer <;> simp only [followAll, hf]

/-- If nothing fails, the first notification does not and the rest does not after it. -/
theorem followAll_cons_eq_nil {n : Notification} {q : List Notification} {h : H}
    (hok : (followAll (n :: q) h).1 = []) :
    (follow n h).1 = .ok () ∧ (followAll q (follow n h).2).1 = [] := by
  rcases hf : follow n h with ⟨answer, h'⟩
  cases answer with
  | ok u =>
    simp only [followAll, hf] at hok
    exact ⟨rfl, hok⟩
  | error fault => simp only [followAll, hf, reduceCtorEq] at hok

/-- Notifications from the hardware are passed over, wherever they stand in the queue. -/
theorem followAll_filter (q : List Notification) (h : H) :
    followAll (q.filter fun n => n.origin = .software) h = followAll q h := by
  induction q generalizing h with
  | nil => rfl
  | cons n q ih =>
    cases ho : n.origin with
    | hardware =>
      rw [List.filter_cons_of_neg (by simp only [ho, reduceCtorEq, decide_false, Bool.false_eq_true,
        not_false_eq_true]), ih]
      simp only [followAll, follow_of_hardware ho]
    | software =>
      rw [List.filter_cons_of_pos (by simp only [ho, decide_true])]
      simp only [followAll, ih]

/-- A queue from the hardware does not concern the hardware. -/
theorem followAll_of_hardware {q : List Notification} (hq : ∀ n ∈ q, n.origin = .hardware) (h : H) :
    followAll q h = ([], h) := by
  have hnil : (q.filter fun n => n.origin = .software) = [] := by
    rw [List.filter_eq_nil_iff]
    intro n hn
    simp only [hq n hn, reduceCtorEq, decide_false, Bool.false_eq_true, not_false_eq_true]
  rw [← followAll_filter, hnil, followAll]

end Guarded

/-- The model whose observers were told of some more notifications. -/
def Model.toldAll (q : List Notification) (m : Model) : Model :=
  { m with inboxes := m.inboxes.map (· ++ q) }

/-- The model once its queue was told to the observers. -/
def Model.drained (m : Model) : Model :=
  { m with queue := [], inboxes := m.inboxes.map (· ++ m.queue) }

namespace Model

private theorem toldAll_nil (m : Model) : m.toldAll [] = m := by
  simp only [toldAll, List.append_nil, List.map_id']

private theorem toldAll_tell (n : Notification) (q : List Notification) (m : Model) :
    (m.tell n).toldAll q = m.toldAll (n :: q) := by
  simp only [toldAll, tell, List.map_map, Model.mk.injEq, true_and]
  exact List.map_congr_left fun inbox _ => List.append_assoc inbox [n] q

/-- A drained model has an empty queue. -/
@[simp] theorem drained_queue (m : Model) : m.drained.queue = [] := rfl

/-- Draining the queue keeps a model well formed. -/
theorem wellFormed_drained {m : Model} (hm : m.WellFormed) : m.drained.WellFormed :=
  ⟨hm.nodup, hm.known⟩

/-- A drained model announces only what comes from the hardware when it absorbs a configuration. -/
theorem queue_absorb_drained (m : Model) (c : Configuration) :
    ∀ n ∈ (m.drained.absorb c).1.queue, n.origin = .hardware := by
  obtain ⟨news, hq, hnews⟩ := queue_absorb m.drained c
  rw [hq, drained_queue, List.nil_append]
  exact hnews

end Model

/-- The model once it took note of an observation. -/
def Observation.note (o : Observation) (m : Model) : Model :=
  match o with
  | configuration c => (m.absorb c).1
  | tilt id t => m.update id .hardware (Screen.tilt t)
  | lit on => m.setLit on

/-- The outputs to which an observation gives a screen. -/
def Observation.added (o : Observation) (m : Model) : List OutputId :=
  match o with
  | configuration c => (m.absorb c).2.added
  | tilt _ _ => []
  | lit _ => []

namespace Observation

/-- An observation adds no output twice. -/
theorem nodup_added (o : Observation) (m : Model) : (o.added m).Nodup := by
  cases o with
  | configuration c => exact m.nodup_added c
  | tilt id t => exact List.nodup_nil
  | lit on => exact List.nodup_nil

/-- Whatever an observation announces comes from the hardware. -/
theorem queue_note (o : Observation) (m : Model) :
    ∃ news : List Notification, (o.note m).queue = m.queue ++ news ∧
      ∀ n ∈ news, n.origin = .hardware := by
  cases o with
  | configuration c => exact m.queue_absorb c
  | tilt id t => exact ⟨_, Model.queue_update, fun n hn => Model.origin_of_mem_news hn⟩
  | lit on => exact ⟨[], (List.append_nil _).symm, fun n hn => absurd hn List.not_mem_nil⟩

end Observation

namespace State

/-- Delivering tells the observers of each notification and has the hardware follow each. -/
theorem deliverAll_snd (first : Option ConfigFault) (q : List Notification) (s : State H) :
    (s.deliverAll first q).2 =
      { s with
        model := s.model.toldAll q
        hardware := (Guarded.followAll q s.hardware).2 } := by
  induction q generalizing first s with
  | nil => simp only [deliverAll, Guarded.followAll, Model.toldAll_nil]
  | cons n q ih =>
    rcases hf : Guarded.follow n s.hardware with ⟨answer, h⟩
    cases answer <;>
      simp only [deliverAll, deliver, hf, ih, Guarded.followAll, Model.toldAll_tell]

/-- The first fault of a delivery is that of the first notification that fails. -/
theorem deliverAll_fst (first : Option ConfigFault) (q : List Notification) (s : State H) :
    (s.deliverAll first q).1 = first.or (Guarded.followAll q s.hardware).1.head? := by
  induction q generalizing first s with
  | nil => simp only [deliverAll, Guarded.followAll, List.head?_nil, Option.or_none]
  | cons n q ih =>
    rcases hf : Guarded.follow n s.hardware with ⟨answer, h⟩
    cases answer with
    | ok u => simp only [deliverAll, deliver, hf, ih, Guarded.followAll]
    | error fault =>
      simp only [deliverAll, deliver, hf, ih, Guarded.followAll, List.head?_cons]
      cases first <;> rfl

/-- A drain tells the observers everything that was queued, and its fault is the first that
following it gives. -/
theorem drain_eq (s : State H) :
    s.drain =
      ((Guarded.followAll s.model.queue s.hardware).1.head?,
        { s with
          model := s.model.drained
          hardware := (Guarded.followAll s.model.queue s.hardware).2 }) := by
  rw [drain]
  exact Prod.ext (by rw [deliverAll_fst, Option.none_or]) (by rw [deliverAll_snd]; rfl)

/-- Draining a queue from the hardware succeeds and does not touch the hardware. -/
theorem drain_of_hardware {s : State H} (hq : ∀ n ∈ s.model.queue, n.origin = .hardware) :
    s.drain = (none, { s with model := s.model.drained }) := by
  rw [drain_eq, Guarded.followAll_of_hardware hq]
  rfl

/-- With a queue from the hardware, processing is draining. -/
theorem process_of_hardware {s : State H} (hq : ∀ n ∈ s.model.queue, n.origin = .hardware) :
    s.process = (.ok (), s.drain.2) := by
  rw [process, drain_of_hardware hq]

/-- The three ways in which processing ends. -/
theorem process_cases (s : State H) :
    ((Guarded.followAll s.model.queue s.hardware).1 = [] ∧
      s.process = (.ok (), { s with
        model := s.model.drained
        hardware := (Guarded.followAll s.model.queue s.hardware).2 })) ∨
    (∃ fault, (Guarded.followAll s.model.queue s.hardware).1.head? = some fault ∧
      ∃ cause, (Hardware.read (Guarded.followAll s.model.queue s.hardware).2).1 = .error cause ∧
      s.process = (.error fault, { s with
        model := s.model.drained
        hardware := (Hardware.read (Guarded.followAll s.model.queue s.hardware).2).2 })) ∨
    (∃ fault, (Guarded.followAll s.model.queue s.hardware).1.head? = some fault ∧
      ∃ c, (Hardware.read (Guarded.followAll s.model.queue s.hardware).2).1 = .ok c ∧
      s.process = (.error fault, { s with
        model := (s.model.drained.absorb c).1.drained
        hardware := (Hardware.read (Guarded.followAll s.model.queue s.hardware).2).2 })) := by
  rcases hf : Guarded.followAll s.model.queue s.hardware with ⟨faults, h⟩
  cases faults with
  | nil => exact .inl ⟨rfl, by simp only [process, drain_eq, hf, List.head?_nil]⟩
  | cons fault faults =>
    right
    rcases hr : Hardware.read h with ⟨answer, h'⟩
    cases answer with
    | error cause =>
      left
      refine ⟨fault, rfl, cause, rfl, ?_⟩
      simp only [process, drain_eq s, hf, List.head?_cons, resync, Guarded.read, hr]
    | ok c =>
      right
      refine ⟨fault, rfl, c, rfl, ?_⟩
      simp only [process, drain_eq s, hf, List.head?_cons, resync, Guarded.read, hr]
      rw [drain_of_hardware (s.model.queue_absorb_drained c)]

/-- Processing leaves an empty queue. -/
theorem queue_process (s : State H) : s.process.2.model.queue = [] := by
  rcases process_cases s with ⟨_, h⟩ | ⟨_, _, _, _, h⟩ | ⟨_, _, _, _, h⟩ <;> rw [h] <;> rfl

/-- Handling an observation is taking note of it, processing what it announces and restoring the
options of the displays that are new. -/
theorem handle_eq (o : Observation) (s : State H) :
    s.handle o =
      (({ s with model := o.note s.model } : State H).process.1,
        (o.added s.model).foldl (fun s id => s.restore id)
          ({ s with model := o.note s.model } : State H).process.2) := by
  cases o <;> rfl

/-- Where nothing is remembered, nothing is restored. -/
theorem restore_of_storage_none {s : State H} (hs : s.storage = none) (id : OutputId) :
    s.restore id = s := by
  simp only [restore, remembered?, hs, Option.bind_eq_bind, Option.bind_none]

/-- Where nothing is remembered, nothing is restored. -/
theorem foldl_restore_of_storage_none {s : State H} (hs : s.storage = none) (ids : List OutputId) :
    ids.foldl (fun s id => s.restore id) s = s := by
  induction ids with
  | nil => rfl
  | cons id ids ih => rw [List.foldl_cons, restore_of_storage_none hs, ih]

/-- Processing leaves alone what is remembered. -/
theorem storage_process (s : State H) : s.process.2.storage = s.storage := by
  rcases process_cases s with ⟨_, h⟩ | ⟨_, _, _, _, h⟩ | ⟨_, _, _, _, h⟩ <;> rw [h]

private theorem model_restore (id : OutputId) (s : State H) : (s.restore id).model = s.model := by
  unfold restore
  cases s.remembered? id <;> rfl

/-- Restoring options asks the hardware and leaves the model alone. -/
theorem model_foldl_restore (ids : List OutputId) (s : State H) :
    (ids.foldl (fun s id => s.restore id) s).model = s.model := by
  induction ids generalizing s with
  | nil => rfl
  | cons id ids ih => rw [List.foldl_cons, ih, model_restore]

/-- If nothing waits, handling an observation is taking note of it. -/
theorem model_handle {s : State H} (hq : s.model.queue = []) (o : Observation) :
    (s.handle o).2.model = (o.note s.model).drained := by
  have hnews : ∀ n ∈ (o.note s.model).queue, n.origin = .hardware := by
    obtain ⟨news, hnote, hhw⟩ := o.queue_note s.model
    rw [hnote, hq, List.nil_append]
    exact hhw
  rw [handle_eq, model_foldl_restore, process_of_hardware hnews, drain_of_hardware hnews]

/-- Every observation leaves an empty queue. -/
theorem queue_handle (s : State H) (o : Observation) : (s.handle o).2.model.queue = [] := by
  rw [handle_eq, model_foldl_restore, queue_process]

/-- Observations may be handled in two lots. -/
theorem handleAll_append (l k : List Observation) (s : State H) :
    s.handleAll (l ++ k) = (s.handleAll l).handleAll k := by
  induction l generalizing s with
  | nil => rfl
  | cons o l ih => exact ih _

end State

end Displays
