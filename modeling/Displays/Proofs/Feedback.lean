import Displays.Hardware.Held
import Displays.Proofs.Submissions

/-!
# No feedback

What the hardware is observed to do is not asked of it again. Handling an observation announces
changes of the hardware only, and these are passed over when they are processed, also by a
resynchronisation. So an observation leads to submissions only by restoring the options of displays
that are new, which takes at most one for each.
-/

namespace Displays

namespace State

variable {H : Type} [Hardware H]

/-- Restoring the options of a display takes at most one submission. -/
theorem submissions_restore (id : OutputId) (s : State (Recorded H)) :
    ∃ l : List Submission, l.length ≤ 1 ∧
      (s.restore id).hardware.submissions = s.hardware.submissions ++ l := by
  unfold restore
  cases s.remembered? id with
  | none => exact ⟨[], Nat.zero_le 1, (List.append_nil _).symm⟩
  | some settings => exact Guarded.submissions_requestAll s.hardware [(id, settings)]

/-- What restoring the options of some displays submits, for each of them. -/
def restoring : List OutputId → State (Recorded H) → List (OutputId × List Submission)
  | [], _ => []
  | id :: ids, s =>
    (id, (s.restore id).hardware.submissions.drop s.hardware.submissions.length) ::
      restoring ids (s.restore id)

/-- Each output is restored in its turn. -/
@[simp] theorem map_fst_restoring (ids : List OutputId) (s : State (Recorded H)) :
    (s.restoring ids).map Prod.fst = ids := by
  induction ids generalizing s with
  | nil => rfl
  | cons id ids ih => simp only [restoring, List.map_cons, ih]

/-- Restoring the options of some displays takes at most one submission for each, and no other. -/
theorem submissions_restoring (ids : List OutputId) (s : State (Recorded H)) :
    (∀ e ∈ s.restoring ids, e.2.length ≤ 1) ∧
    (ids.foldl (fun s id => s.restore id) s).hardware.submissions =
      s.hardware.submissions ++ (s.restoring ids).flatMap Prod.snd := by
  induction ids generalizing s with
  | nil => exact ⟨fun e he => absurd he List.not_mem_nil, (List.append_nil _).symm⟩
  | cons id ids ih =>
    obtain ⟨l, hl, hs⟩ := submissions_restore id s
    have hdrop : (s.restore id).hardware.submissions.drop s.hardware.submissions.length = l := by
      rw [hs, List.drop_left]
    obtain ⟨hle, hrest⟩ := ih (s.restore id)
    constructor
    · intro e he
      rcases List.mem_cons.mp he with rfl | he
      · simpa only [hdrop] using hl
      · exact hle e he
    · rw [List.foldl_cons, hrest, restoring, List.flatMap_cons, hdrop, hs, List.append_assoc]

/-- The second state is the first one with the options of some displays restored, which took at most
one submission for each of them and no other. -/
structure Restored (s : State (Recorded H)) (ids : List OutputId) (s' : State (Recorded H)) :
    Prop where
  /-- No display is restored twice. -/
  nodup : ids.Nodup
  /-- Each display is restored in its turn. -/
  outputs : (s.restoring ids).map Prod.fst = ids
  /-- Nothing else is done. -/
  state : s' = ids.foldl (fun s id => s.restore id) s
  /-- Each display takes at most one submission. -/
  once : ∀ e ∈ s.restoring ids, e.2.length ≤ 1
  /-- The submissions are those for the displays, one after the other. -/
  submissions : s'.hardware.submissions =
    s.hardware.submissions ++ (s.restoring ids).flatMap Prod.snd

/-- If no request waits in the queue, as after processing, handling an observation makes no
submission but to restore the options of the displays that are new, at most one for each. What
processing submits depends on what the software announced only, and resynchronising adds nothing. -/
theorem handle_feeds_nothing_back :
    (∀ (s : State (Recorded H)) (o : Observation), (∀ n ∈ s.model.queue, n.isRequest = false) →
      (∃ t : State (Recorded H), t.hardware.submissions = s.hardware.submissions ∧
        Restored t (o.added s.model) (s.handle o).2) ∧
      (s.storage = none → (s.handle o).2.hardware.submissions = s.hardware.submissions)) ∧
    (∀ s : State (Recorded H), s.process.2.model.queue = [] ∧
      s.process.2.hardware.submissions = s.drain.2.hardware.submissions ∧
      s.drain.2.hardware = (Guarded.followAll
        (s.model.queue.filter fun n => n.origin = .software) s.hardware).2) := by
  constructor
  · intro s o hq
    let noted : State (Recorded H) := { s with model := o.note s.model }
    have hnoted : ∀ n ∈ noted.model.queue, n.isRequest = false := by
      obtain ⟨news, hnews, hhw⟩ := o.queue_note s.model
      intro n hn
      rw [hnews, List.mem_append] at hn
      rcases hn with hn | hn
      · exact hq n hn
      · exact Notification.isRequest_of_hardware (hhw n hn)
    have hsub : noted.process.2.hardware.submissions = s.hardware.submissions := by
      rw [submissions_process, submissions_drain noted hnoted]
    have hstate : (s.handle o).2 =
        (o.added s.model).foldl (fun s id => s.restore id) noted.process.2 := by
      rw [handle_eq]
    obtain ⟨honce, hrestoring⟩ := submissions_restoring (o.added s.model) noted.process.2
    refine ⟨⟨noted.process.2, hsub, o.nodup_added s.model, map_fst_restoring _ _, hstate, honce,
      ?_⟩, ?_⟩
    · rw [hstate, hrestoring]
    · intro hs
      have hnone : noted.process.2.storage = none := by rw [storage_process, hs]
      rw [hstate, foldl_restore_of_storage_none hnone, hsub]
  · intro s
    refine ⟨queue_process s, submissions_process s, ?_⟩
    rw [Guarded.followAll_filter, drain_eq]

/-- A change that the hardware need not follow may wait while an output appears. -/
theorem handle_feeds_nothing_back_active :
    let s : State (Recorded Held) :=
      { model := { queue := [⟨"HDMI-1", .active true, .software⟩] }
        hardware := { hardware := { configuration := ⟨[.plain "HDMI-1"]⟩ } } }
    (∀ n ∈ s.model.queue, n.isRequest = false) ∧
    (s.handle (.configuration ⟨[.plain "HDMI-1"]⟩)).2.hardware.submissions = [] := by
  intro s
  have hq : ∀ n ∈ s.model.queue, n.isRequest = false := by decide
  exact ⟨hq, (handle_feeds_nothing_back.1 s (.configuration ⟨[.plain "HDMI-1"]⟩) hq).2 rfl⟩

end State

end Displays
