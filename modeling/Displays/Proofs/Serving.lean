import Displays.Proofs.Holding
import Displays.Proofs.Submissions

/-!
# Serving a queue

Hardware that holds a configuration and can be read serves the requests of a queue in order: each
request that is due in the configuration held at that moment, and valid there, is submitted once,
with its one field replaced in its one output. A request that fails is passed by. Processing a queue
is serving it, telling everybody of it, and reporting the first fault.
-/

namespace Displays

/-- From the first configuration on, a queue is served with these submissions and these faults, and
the second configuration is held in the end. -/
inductive Served : Configuration → List Notification → List Submission → List ConfigFault →
    Configuration → Prop where
  /-- An empty queue leaves the configuration as it is. -/
  | done (c : Configuration) : Served c [] [] [] c
  /-- A notification that is not due is passed over. -/
  | passed {c d : Configuration} {n : Notification} {q : List Notification}
      {log : List Submission} {faults : List ConfigFault} :
      ¬ n.Due c → Served c q log faults d → Served c (n :: q) log faults d
  /-- A request that makes the configuration invalid is not submitted. -/
  | invalid {c d : Configuration} {n : Notification} {q : List Notification}
      {log : List Submission} {faults : List ConfigFault} {defect : Defect} :
      n.Due c → (n.applied c).defect? = some defect → Served c q log faults d →
      Served c (n :: q) log (.invalid defect :: faults) d
  /-- A valid request that is accepted is held from then on. -/
  | accepted {c d : Configuration} {n : Notification} {q : List Notification}
      {log : List Submission} {faults : List ConfigFault} :
      n.Due c → (n.applied c).defect? = none → Served (n.applied c) q log faults d →
      Served c (n :: q) ((n.applied c, .ok ()) :: log) faults d
  /-- A valid request that is refused leaves the configuration as it is. -/
  | refused {c d : Configuration} {n : Notification} {q : List Notification}
      {log : List Submission} {faults : List ConfigFault} {fault : HardwareFault} :
      n.Due c → (n.applied c).defect? = none → Served c q log faults d →
      Served c (n :: q) ((n.applied c, .error fault) :: log) (.rejected fault :: faults) d

variable {H : Type} [Hardware H] [Holding H] [Readable H]

open Holding (held)

namespace Guarded

/-- Following a queue is serving it. -/
theorem served_followAll (q : List Notification) (r : Recorded H) :
    ∃ log, Served (held r) q log (followAll q r).1 (held (followAll q r).2) ∧
      (followAll q r).2.submissions = r.submissions ++ log := by
  induction q generalizing r with
  | nil => exact ⟨[], .done _, (List.append_nil _).symm⟩
  | cons n q ih =>
    have hread := read_held r
    have hheld : held (Hardware.read r).2 = held r := Holding.held_read r
    have hlog := r.submissions_read
    rcases follow_cases n r with ⟨ho, h⟩ | ⟨_, fault, hf, _⟩ | ⟨_, c, hc, hd, h⟩ | ⟨c, hc, hd, h⟩
    · obtain ⟨log, hs, hl⟩ := ih r
      simp only [followAll, h]
      exact ⟨log, .passed (Notification.not_due_of_hardware ho) hs, hl⟩
    · rw [hread] at hf
      simp only [reduceCtorEq] at hf
    · obtain rfl := Except.ok.inj (hread.symm.trans hc)
      obtain ⟨log, hs, hl⟩ := ih (Hardware.read r).2
      rw [hheld] at hs
      simp only [followAll, h]
      exact ⟨log, .passed hd hs, by rw [hl, hlog]⟩
    · obtain rfl := Except.ok.inj (hread.symm.trans hc)
      generalize hr : (Hardware.read r).2 = r' at h hheld hlog
      rcases submit_cases (n.applied (held r)) r' with
        ⟨defect, hdef, hsub⟩ | ⟨hdef, hok, hsub⟩ | ⟨hdef, fault, herr, hsub⟩
      · obtain ⟨log, hs, hl⟩ := ih r'
        rw [hheld] at hs
        simp only [followAll, h, hsub]
        exact ⟨log, .invalid hd hdef hs, by rw [hl, hlog]⟩
      · obtain ⟨log, hs, hl⟩ := ih (Hardware.submit (n.applied (held r)) r').2
        rw [Holding.held_accepted _ _ hok] at hs
        simp only [followAll, h, hsub]
        refine ⟨_, .accepted hd hdef hs, ?_⟩
        rw [hl, Recorded.submissions_submit, hok, hlog, List.append_assoc, List.singleton_append]
      · obtain ⟨log, hs, hl⟩ := ih (Hardware.submit (n.applied (held r)) r').2
        rw [Holding.held_refused _ _ _ herr, hheld] at hs
        simp only [followAll, h, hsub]
        refine ⟨_, .refused hd hdef hs, ?_⟩
        rw [hl, Recorded.submissions_submit, herr, hlog, List.append_assoc, List.singleton_append]

end Guarded

namespace State

/-- Processing serves the queue, tells every observer of each notification in order and then of what
a resynchronisation found, and reports the first fault. -/
theorem process_serves (s : State (Recorded H)) :
    ∃ log faults d, Served (held s.hardware) s.model.queue log faults d ∧
      s.process.2.hardware.submissions = s.hardware.submissions ++ log ∧
      held s.process.2.hardware = d ∧
      s.process.1 = faults.head?.elim (.ok ()) .error ∧
      s.process.2.model.queue = [] ∧
      ∃ echo : List Notification,
        s.process.2.model.inboxes = s.model.inboxes.map (· ++ (s.model.queue ++ echo)) ∧
        (∀ n ∈ echo, n.origin = .hardware) ∧
        echo = if faults = [] then [] else (s.model.drained.absorb d).1.queue := by
  obtain ⟨log, hserved, hlog⟩ := Guarded.served_followAll s.model.queue s.hardware
  refine ⟨log, _, _, hserved, ?_⟩
  rcases process_cases s with ⟨hnone, h⟩ | ⟨fault, _, cause, hc, _⟩ | ⟨fault, hf, c, hc, h⟩
  · rw [h, hnone]
    refine ⟨hlog, rfl, rfl, rfl, [], ?_, fun n hn => absurd hn List.not_mem_nil, rfl⟩
    simp only [List.append_nil, Model.drained]
  · rw [read_held] at hc
    simp only [reduceCtorEq] at hc
  · have hd := Holding.eq_held _ c hc
    have hfaults : (Guarded.followAll s.model.queue s.hardware).1 ≠ [] := fun he => by
      simp only [he, List.head?_nil, reduceCtorEq] at hf
    rw [h, hf, if_neg hfaults]
    refine ⟨?_, ?_, rfl, rfl, (s.model.drained.absorb c).1.queue, ?_,
      s.model.queue_absorb_drained c, by rw [hd]⟩
    · rw [Recorded.submissions_read, hlog]
    · exact Holding.held_read _
    · simp only [Model.drained, Model.inboxes_absorb, List.map_map, Function.comp_def,
        List.append_assoc]

/-- Two requests to hardware that rejects the first submission. -/
theorem process_serves_rejection :
    let h : Held :=
      { configuration := ⟨[.plain "HDMI-1"]⟩, rejection := some ⟨"busy", 0, some 1⟩ }
    let s : State (Recorded Plugged) :=
      { model := { queue := [⟨"HDMI-1", .scale 2, .software⟩, ⟨"HDMI-1", .used false, .software⟩] }
        hardware := { hardware := ⟨h, rfl⟩ } }
    ∃ log faults d, Served (held s.hardware) s.model.queue log faults d ∧
      s.process.2.hardware.submissions = log ∧ held s.process.2.hardware = d := by
  intro h s
  obtain ⟨log, faults, d, hserved, hlog, hd, _⟩ := process_serves s
  exact ⟨log, faults, d, hserved, hlog, hd⟩

end State

end Displays
