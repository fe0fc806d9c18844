import Displays.Proofs.Resynchronisation
import Displays.Proofs.Revision

/-!
# Orderly calls

Calls are orderly if each submission directly follows a reading, is a valid revision of what was
read, and revises it under names that are allowed. Whatever goes through the guard is orderly under
its own names: those of a list of settings, or the name of the output of a request that is followed.
So is everything that a state does of itself, under the names of the requests in its queue and of
the outputs whose options it restores.
-/

namespace Displays

/-- Each submission directly follows the reading of a configuration that it revises under allowed
names, and is valid. -/
inductive Orderly (Allowed : List OutputId → Prop) : List Call → Prop where
  /-- No calls are orderly. -/
  | done : Orderly Allowed []
  /-- A reading may come at any time. -/
  | read (answer : Except HardwareFault Configuration) {calls : List Call} :
      Orderly Allowed calls → Orderly Allowed (.read answer :: calls)
  /-- A submission comes right behind the reading that it revises. -/
  | submit {c d : Configuration} {names : List OutputId} (answer : Except HardwareFault Unit)
      {calls : List Call} :
      Allowed names → c.Revised names d → d.defect? = none → Orderly Allowed calls →
      Orderly Allowed (.read (.ok c) :: .submit d answer :: calls)

section

variable {Allowed More : List OutputId → Prop} {calls later : List Call}

/-- Orderly calls behind orderly calls are orderly. -/
theorem Orderly.append (h : Orderly Allowed calls) (hl : Orderly Allowed later) :
    Orderly Allowed (calls ++ later) := by
  induction h with
  | done => exact hl
  | read answer _ ih => exact .read answer ih
  | submit answer ha hr hv _ ih => exact .submit answer ha hr hv ih

/-- Calls stay orderly if more names are allowed. -/
theorem Orderly.mono (hsub : ∀ names, Allowed names → More names) (h : Orderly Allowed calls) :
    Orderly More calls := by
  induction h with
  | done => exact .done
  | read answer _ ih => exact .read answer ih
  | submit answer ha hr hv _ ih => exact .submit answer (hsub _ ha) hr hv ih

/-- Any submission among orderly calls is valid and revises what was read just before. -/
theorem Orderly.of_submit (h : Orderly Allowed calls) {earlier later : List Call}
    {d : Configuration} {answer : Except HardwareFault Unit}
    (hsplit : calls = earlier ++ .submit d answer :: later) :
    d.defect? = none ∧
    ∃ c names before, earlier = before ++ [.read (.ok c)] ∧ Allowed names ∧ c.Revised names d := by
  induction h generalizing earlier with
  | done =>
    exact absurd hsplit.symm (List.append_ne_nil_of_right_ne_nil _ (List.cons_ne_nil _ _))
  | read answer' _ ih =>
    rcases List.cons_eq_append_iff.mp hsplit with ⟨_, h⟩ | ⟨earlier, rfl, h⟩
    · exact absurd (List.cons.inj h).1 (by simp only [reduceCtorEq, not_false_eq_true])
    · obtain ⟨hd, c, names, before, rfl, hc⟩ := ih h
      exact ⟨hd, c, names, .read answer' :: before, rfl, hc⟩
  | @submit c d' names answer' calls ha hr hv _ ih =>
    rcases List.cons_eq_append_iff.mp hsplit with ⟨_, h⟩ | ⟨rest, rfl, hrest⟩
    · exact absurd (List.cons.inj h).1 (by simp only [reduceCtorEq, not_false_eq_true])
    · rcases List.cons_eq_append_iff.mp hrest with ⟨rfl, h⟩ | ⟨rest, rfl, htail⟩
      · obtain ⟨rfl, _⟩ := Call.submit.inj (List.cons.inj h).1
        exact ⟨hv, c, names, [], rfl, ha, hr⟩
      · obtain ⟨hd, c', names', before, rfl, hc'⟩ := ih htail
        exact ⟨hd, c', names', .read (.ok c) :: .submit d' answer' :: before, rfl, hc'⟩

end

variable {H : Type}

/-- The second log is the first one with some orderly calls behind it. -/
def Recorded.Proceeds (Allowed : List OutputId → Prop) (r r' : Recorded H) : Prop :=
  ∃ calls, r'.calls = r.calls ++ calls ∧ Orderly Allowed calls

namespace Recorded

variable {Allowed More : List OutputId → Prop} {r r' r'' : Recorded H}

/-- A log proceeds by no calls. -/
theorem Proceeds.refl (Allowed : List OutputId → Prop) (r : Recorded H) : r.Proceeds Allowed r :=
  ⟨[], (List.append_nil r.calls).symm, .done⟩

/-- A log that proceeds twice proceeds by the calls of both steps. -/
theorem Proceeds.trans (h : r.Proceeds Allowed r') (h' : r'.Proceeds Allowed r'') :
    r.Proceeds Allowed r'' := by
  obtain ⟨calls, hcalls, ho⟩ := h
  obtain ⟨later, hlater, hl⟩ := h'
  exact ⟨calls ++ later, by rw [hlater, hcalls, List.append_assoc], ho.append hl⟩

/-- A log proceeds alike if more names are allowed. -/
theorem Proceeds.mono (hsub : ∀ names, Allowed names → More names)
    (h : r.Proceeds Allowed r') : r.Proceeds More r' := by
  obtain ⟨calls, hcalls, ho⟩ := h
  exact ⟨calls, hcalls, ho.mono hsub⟩

end Recorded

variable [Hardware H]

/-- A reading is an orderly call whatever is allowed. -/
theorem Recorded.proceeds_read (Allowed : List OutputId → Prop) (r : Recorded H) :
    r.Proceeds Allowed (Hardware.read r).2 :=
  ⟨[.read _], State.calls_read r, .read _ .done⟩

namespace Guarded

open Recorded (Proceeds)

variable {c d : Configuration} {names : List OutputId}

/-- Submitting a revision of what was just read is orderly, whether it is valid or not. -/
theorem proceeds_submit {r : Recorded H} (hread : (Hardware.read r).1 = .ok c)
    (hrev : c.Revised names d) : r.Proceeds (· = names) (submit d (Hardware.read r).2).2 := by
  have hcalls : (Hardware.read r).2.calls = r.calls ++ [.read (.ok c)] := by
    rw [State.calls_read, hread]
  have hsubmit : ∀ r' : Recorded H, r'.calls = r.calls ++ [.read (.ok c)] → d.defect? = none →
      r.Proceeds (· = names) (Hardware.submit d r').2 := by
    intro r' hr' hvalid
    refine ⟨[.read (.ok c), .submit d (Hardware.submit d r').1], ?_,
      .submit _ rfl hrev hvalid .done⟩
    change r'.calls ++ [Call.submit d _] = _
    rw [hr', List.append_assoc]
    rfl
  rcases submit_cases d (Hardware.read r).2 with ⟨_, _, h⟩ | ⟨hvalid, _, h⟩ | ⟨hvalid, _, _, h⟩
  · rw [h]
    exact Recorded.proceeds_read _ r
  · rw [h]
    exact hsubmit _ hcalls hvalid
  · rw [h]
    exact hsubmit _ hcalls hvalid

/-- A list of settings is requested under the names in it. -/
theorem proceeds_requestAll (entries : List (OutputId × Settings)) (r : Recorded H) :
    r.Proceeds (· = entries.map Prod.fst) (requestAll entries r).2 := by
  rcases hr : Hardware.read r with ⟨answer, r'⟩
  have hread := Recorded.proceeds_read (· = entries.map Prod.fst) r
  rw [hr] at hread
  cases answer with
  | error fault => simpa only [requestAll, read, hr] using hread
  | ok c =>
    cases hc : c.requestAll entries with
    | error fault => simpa only [requestAll, read, hr, hc] using hread
    | ok d =>
      have hsub := proceeds_submit (r := r) (by rw [hr]) (Configuration.revised_requestAll hc)
      simpa only [requestAll, read, hr, hc] using hsub

/-- A notification is followed under the name of its output, and only if it is a request. -/
theorem proceeds_follow (n : Notification) (r : Recorded H) :
    r.Proceeds (fun names => n.isRequest = true ∧ names = [n.output]) (follow n r).2 := by
  rcases follow_cases n r with ⟨_, h⟩ | ⟨_, _, _, h⟩ | ⟨_, _, _, _, h⟩ | ⟨c, hc, hd, h⟩
  · rw [h]
    exact Recorded.Proceeds.refl _ r
  · rw [h]
    exact Recorded.proceeds_read _ r
  · rw [h]
    exact Recorded.proceeds_read _ r
  · rw [h]
    have hsub := proceeds_submit hc (Notification.revised_applied hd)
    exact hsub.mono fun names hnames => ⟨hd.1, hnames⟩

end Guarded

/-- The names are that of an output for which a request waits in the queue. -/
def Model.Requested (m : Model) (names : List OutputId) : Prop :=
  ∃ n ∈ m.queue, n.isRequest = true ∧ names = [n.output]

namespace State

/-- A queue is followed under the names of the requests in it. -/
theorem proceeds_followAll (q : List Notification) (r : Recorded H) :
    r.Proceeds (fun names => ∃ n ∈ q, n.isRequest = true ∧ names = [n.output])
      (Guarded.followAll q r).2 := by
  induction q generalizing r with
  | nil => exact Recorded.Proceeds.refl _ r
  | cons n q ih =>
    rw [Guarded.followAll_cons]
    have hfirst := (Guarded.proceeds_follow n r).mono fun names hnames =>
      (⟨n, List.mem_cons_self, hnames⟩ : ∃ m ∈ n :: q, m.isRequest = true ∧ names = [m.output])
    exact hfirst.trans ((ih _).mono fun names ⟨m, hm, hnames⟩ =>
      ⟨m, List.mem_cons_of_mem n hm, hnames⟩)

/-- Processing submits under the names of the requests in the queue. -/
theorem proceeds_process (s : State (Recorded H)) :
    s.hardware.Proceeds s.model.Requested s.process.2.hardware := by
  have hq := proceeds_followAll s.model.queue s.hardware
  rcases process_cases s with ⟨_, h⟩ | ⟨_, _, _, _, h⟩ | ⟨_, _, _, _, h⟩
  · rw [h]
    exact hq
  · rw [h]
    exact hq.trans (Recorded.proceeds_read _ _)
  · rw [h]
    exact hq.trans (Recorded.proceeds_read _ _)

/-- Restoring the options of a display revises its output only. -/
theorem proceeds_restore (id : OutputId) (s : State (Recorded H)) :
    s.hardware.Proceeds (· = [id]) (s.restore id).hardware := by
  unfold restore
  cases s.remembered? id with
  | none => exact Recorded.Proceeds.refl _ _
  | some settings => exact Guarded.proceeds_requestAll [(id, settings)] s.hardware

/-- Restoring options submits under the name of one output after the other. -/
theorem proceeds_foldl_restore (ids : List OutputId) (s : State (Recorded H)) :
    s.hardware.Proceeds (fun names => ∃ id ∈ ids, names = [id])
      (ids.foldl (fun s id => s.restore id) s).hardware := by
  induction ids generalizing s with
  | nil => exact Recorded.Proceeds.refl _ _
  | cons id ids ih =>
    rw [List.foldl_cons]
    have hfirst := (proceeds_restore id s).mono fun names hnames =>
      (⟨id, List.mem_cons_self, hnames⟩ : ∃ k ∈ id :: ids, names = [k])
    exact hfirst.trans ((ih _).mono fun names ⟨k, hk, hnames⟩ =>
      ⟨k, List.mem_cons_of_mem id hk, hnames⟩)

/-- What comes from the hardware adds no request to a queue. -/
theorem requested_note (o : Observation) (m : Model) (names : List OutputId) :
    (o.note m).Requested names ↔ m.Requested names := by
  obtain ⟨news, hq, hnews⟩ := o.queue_note m
  constructor
  · rintro ⟨n, hn, hr, hnames⟩
    rw [hq, List.mem_append] at hn
    rcases hn with hn | hn
    · exact ⟨n, hn, hr, hnames⟩
    · rw [Notification.isRequest_of_hardware (hnews n hn)] at hr
      exact Bool.noConfusion hr
  · rintro ⟨n, hn, hr, hnames⟩
    exact ⟨n, by rw [hq]; exact List.mem_append_left news hn, hr, hnames⟩

/-- Handling an observation submits under the names of the requests in the queue and of the outputs
that the observation connects. -/
theorem proceeds_handle (o : Observation) (s : State (Recorded H)) :
    s.hardware.Proceeds
      (fun names => s.model.Requested names ∨ ∃ id ∈ o.added s.model, names = [id])
      (s.handle o).2.hardware := by
  rw [handle_eq]
  have hprocess := proceeds_process ({ s with model := o.note s.model } : State (Recorded H))
  have hrestore := proceeds_foldl_restore (o.added s.model)
    ({ s with model := o.note s.model } : State (Recorded H)).process.2
  exact (hprocess.mono fun names h => .inl ((requested_note o s.model names).mp h)).trans
    (hrestore.mono fun _ h => .inr h)

end State

/-- The names are that of an output that gets a screen by one of the configurations read. -/
def Model.Connected (m : Model) (calls : List Call) (names : List OutputId) : Prop :=
  ∃ c id, Call.read (.ok c) ∈ calls ∧ id ∈ (m.absorb c).2.added ∧ names = [id]

namespace State

/-- Taking over the configuration of the hardware submits under the names of the requests in the
queue and of the outputs that it connects. -/
theorem calls_sync (s : State (Recorded H)) :
    ∃ calls, s.sync.2.hardware.calls = s.hardware.calls ++ calls ∧
      Orderly (fun names => s.model.Requested names ∨ s.model.Connected calls names) calls := by
  have hcalls := calls_read s.hardware
  rcases hr : Hardware.read s.hardware with ⟨answer, r⟩
  rw [hr] at hcalls
  cases answer with
  | error fault =>
    refine ⟨[.read (.error fault)], ?_, .read _ .done⟩
    simpa only [sync, Guarded.read, hr] using hcalls
  | ok c =>
    obtain ⟨calls, hlater, ho⟩ :=
      proceeds_handle (.configuration c) ({ s with hardware := r } : State (Recorded H))
    have hsync : s.sync = ({ s with hardware := r } : State (Recorded H)).handle
        (.configuration c) := by
      simp only [sync, Guarded.read, hr, handle]
    refine ⟨.read (.ok c) :: calls, ?_, .read _ (ho.mono fun names hnames => ?_)⟩
    · change r.calls = s.hardware.calls ++ [.read (.ok c)] at hcalls
      change _ = r.calls ++ calls at hlater
      rw [hsync, hlater, hcalls, List.append_assoc, List.singleton_append]
    · rcases hnames with h | ⟨id, hid, hnames⟩
      · exact .inl h
      · exact .inr ⟨c, id, List.mem_cons_self, hid, hnames⟩

end State

end Displays
