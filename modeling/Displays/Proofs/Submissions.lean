import Displays.Proofs.Processing

/-!
# The log of submissions

Hardware with a log tells what was submitted to it and how it answered. A reading is no submission,
a guarded request makes at most one, and following notifications makes none unless one of them is a
request.
-/

namespace Displays

/-- A configuration that was submitted, and the answer. -/
abbrev Submission := Configuration × Except HardwareFault Unit

/-- The submission, if the call is one. -/
def Call.submission? : Call → Option Submission
  | read _ => none
  | submit c answer => some (c, answer)

/-- The submissions, oldest first. -/
def Recorded.submissions {H : Type} (r : Recorded H) : List Submission :=
  r.calls.filterMap Call.submission?

variable {H : Type} [Hardware H]

namespace Recorded

variable (r : Recorded H) (c : Configuration)

/-- A reading is no submission. -/
@[simp] theorem submissions_read : (Hardware.read r).2.submissions = r.submissions := by
  change (r.calls ++ [Call.read _]).filterMap Call.submission? = _
  simp only [List.filterMap_append, List.filterMap_cons, Call.submission?, List.filterMap_nil,
    List.append_nil, submissions]

/-- A submission is logged with its answer. -/
theorem submissions_submit :
    (Hardware.submit c r).2.submissions = r.submissions ++ [(c, (Hardware.submit c r).1)] := by
  change (r.calls ++ [Call.submit c _]).filterMap Call.submission? = _
  simp only [List.filterMap_append, List.filterMap_cons, Call.submission?, List.filterMap_nil,
    submissions]
  rfl

end Recorded

namespace Guarded

variable (r : Recorded H)

/-- Submitting under guard makes at most one submission. -/
theorem submissions_submit (c : Configuration) :
    ∃ l : List Submission, l.length ≤ 1 ∧ (submit c r).2.submissions = r.submissions ++ l := by
  rcases submit_cases c r with ⟨_, _, h⟩ | ⟨_, _, h⟩ | ⟨_, _, _, h⟩
  · exact ⟨[], Nat.zero_le 1, by rw [h, List.append_nil]⟩
  · exact ⟨[_], Nat.le_refl 1, by rw [h, Recorded.submissions_submit]⟩
  · exact ⟨[_], Nat.le_refl 1, by rw [h, Recorded.submissions_submit]⟩

/-- A request makes at most one submission. -/
theorem submissions_requestAll (entries : List (OutputId × Settings)) :
    ∃ l : List Submission, l.length ≤ 1 ∧
      (requestAll entries r).2.submissions = r.submissions ++ l := by
  have hread := r.submissions_read
  rcases hr : Hardware.read r with ⟨answer, r'⟩
  rw [hr] at hread
  cases answer with
  | error fault =>
    exact ⟨[], Nat.zero_le 1, by simp only [requestAll, read, hr, hread, List.append_nil]⟩
  | ok c =>
    cases hc : c.requestAll entries with
    | error fault =>
      exact ⟨[], Nat.zero_le 1, by simp only [requestAll, read, hr, hc, hread, List.append_nil]⟩
    | ok c' =>
      obtain ⟨l, hl, hsub⟩ := submissions_submit r' c'
      exact ⟨l, hl, by simp only [requestAll, read, hr, hc, hsub, hread]⟩

/-- What is no request makes no submission. -/
theorem submissions_follow {n : Notification} (hn : n.isRequest = false) :
    (follow n r).2.submissions = r.submissions := by
  rcases follow_cases n r with ⟨_, h⟩ | ⟨_, _, _, h⟩ | ⟨_, _, _, _, h⟩ | ⟨_, _, hd, _⟩
  · rw [h]
  · rw [h, Recorded.submissions_read]
  · rw [h, Recorded.submissions_read]
  · exact absurd hd.1 (by simp only [hn, Bool.false_eq_true, not_false_eq_true])

/-- Following a queue without requests makes no submission. -/
theorem submissions_followAll {q : List Notification} (hq : ∀ n ∈ q, n.isRequest = false) :
    (followAll q r).2.submissions = r.submissions := by
  induction q generalizing r with
  | nil => rfl
  | cons n q ih =>
    have hn := submissions_follow r (hq n List.mem_cons_self)
    have hrest := fun r => ih r fun m hm => hq m (List.mem_cons_of_mem n hm)
    rcases hf : follow n r with ⟨answer, r'⟩
    rw [hf] at hn
    cases answer with
    | ok u => simp only [followAll, hf, hrest, hn]
    | error fault => simp only [followAll, hf, hrest, hn]

end Guarded

namespace State

variable (s : State (Recorded H))

/-- Draining a queue without requests submits nothing. -/
theorem submissions_drain (hq : ∀ n ∈ s.model.queue, n.isRequest = false) :
    s.drain.2.hardware.submissions = s.hardware.submissions := by
  rw [drain_eq]
  exact Guarded.submissions_followAll s.hardware hq

/-- Processing submits what draining submits: the resynchronisation submits nothing. -/
theorem submissions_process :
    s.process.2.hardware.submissions = s.drain.2.hardware.submissions := by
  rw [drain_eq]
  rcases process_cases s with ⟨_, h⟩ | ⟨_, _, _, _, h⟩ | ⟨_, _, _, _, h⟩
  · rw [h]
  · rw [h, Recorded.submissions_read]
  · rw [h, Recorded.submissions_read]

end State

end Displays
