import Displays.Proofs.Setting

/-!
# Runs

A run is any operations one after the other: requests to the screens and to the hardware, processing
the queue, handling what was observed, taking over what the hardware says, and anything that becomes
of the hardware meanwhile. Nothing unsafe is ever submitted in a run: each submission is a valid
configuration that directly follows the one it revises, and other settings are given only to
connected outputs that have the name of what the operation is about.
-/

namespace Displays

/-- What can be done with the state of the displays, and what can become of the hardware. -/
inductive Operation (H : Type) where
  /-- The hardware is changed from outside. -/
  | outside (h : H)
  /-- Options are remembered here from now on, or no longer. -/
  | remember (storage : Option Storage)
  /-- An observer is added. -/
  | subscribe
  /-- A request is made to the screen of an output. -/
  | mutate (id : OutputId) (u : Mutation)
  /-- The screen of an output becomes the active one. -/
  | activate (id : OutputId)
  /-- The queue is processed. -/
  | process
  /-- An observation is handled. -/
  | handle (o : Observation)
  /-- The configuration of the hardware is taken over. -/
  | sync
  /-- Settings of one output are requested. -/
  | request (id : OutputId) (s : Settings)
  /-- Settings of several outputs are requested. -/
  | requestAll (entries : List (OutputId × Settings))
  /-- The settings of an output are changed by a command. -/
  | set (r : SetRequest)

/-- The names under which an operation may submit: of requests in the queue, of the outputs that it
was asked to change, and of those that it connects. -/
def Operation.Names {H : Type} (m : Model) (calls : List Call) :
    Operation H → List OutputId → Prop
  | outside _, _ | remember _, _ | subscribe, _ | mutate .., _ | activate _, _ => False
  | process, names => m.Requested names
  | handle o, names => m.Requested names ∨ ∃ id ∈ o.added m, names = [id]
  | sync, names => m.Requested names ∨ m.Connected calls names
  | request id _, names => names = [id]
  | requestAll entries, names => names = entries.map Prod.fst
  | set r, names => m.Requested names ∨ names = [r.output] ∨ m.Connected calls names

/-- An operation of a run, with the model before it and the calls that it made. -/
structure Entry (H : Type) where
  /-- The model before the operation. -/
  before : Model
  /-- The operation. -/
  operation : Operation H
  /-- The calls, oldest first. -/
  calls : List Call

variable {H : Type} [Hardware H]

namespace State

/-- Performs an operation. -/
def operate (s : State (Recorded H)) : Operation H → State (Recorded H)
  | .outside h => { s with hardware := { s.hardware with hardware := h } }
  | .remember storage => { s with storage }
  | .subscribe => { s with model := s.model.subscribe }
  | .mutate id u => { s with model := (s.model.mutate id u).2 }
  | .activate id => { s with model := (s.model.activate id).toOption.getD s.model }
  | .process => s.process.2
  | .handle o => (s.handle o).2
  | .sync => s.sync.2
  | .request id settings => { s with hardware := (Guarded.request id settings s.hardware).2 }
  | .requestAll entries => { s with hardware := (Guarded.requestAll entries s.hardware).2 }
  | .set r => (s.set r).2

/-- Performs operations one after the other. -/
def operateAll : List (Operation H) → State (Recorded H) → State (Recorded H)
  | [], s => s
  | op :: ops, s => operateAll ops (s.operate op)

/-- What was done and which calls it made. -/
def history : List (Operation H) → State (Recorded H) → List (Entry H)
  | [], _ => []
  | op :: ops, s =>
    ⟨s.model, op, (s.operate op).hardware.calls.drop s.hardware.calls.length⟩ ::
      history ops (s.operate op)

/-- What an operation submits is orderly under its names. -/
theorem calls_operate (op : Operation H) (s : State (Recorded H)) :
    ∃ calls, (s.operate op).hardware.calls = s.hardware.calls ++ calls ∧
      Orderly (op.Names s.model calls) calls := by
  cases op with
  | process => exact proceeds_process s
  | handle o => exact proceeds_handle o s
  | sync => exact calls_sync s
  | request id settings => exact Guarded.proceeds_requestAll [(id, settings)] s.hardware
  | requestAll entries => exact Guarded.proceeds_requestAll entries s.hardware
  | set r => exact calls_set r s
  | _ => exact ⟨[], (List.append_nil _).symm, .done⟩

/-- The calls of a run are those of its operations, and orderly for each. -/
theorem calls_operateAll (ops : List (Operation H)) (s : State (Recorded H)) :
    (operateAll ops s).hardware.calls =
      s.hardware.calls ++ (history ops s).flatMap Entry.calls ∧
    ∀ e ∈ history ops s, Orderly (e.operation.Names e.before e.calls) e.calls := by
  induction ops generalizing s with
  | nil => exact ⟨(List.append_nil _).symm, fun e he => absurd he List.not_mem_nil⟩
  | cons op ops ih =>
    obtain ⟨calls, hcalls, ho⟩ := calls_operate op s
    have hdrop : (s.operate op).hardware.calls.drop s.hardware.calls.length = calls := by
      rw [hcalls, List.drop_left]
    obtain ⟨hrest, horderly⟩ := ih (s.operate op)
    constructor
    · rw [operateAll, hrest, history, List.flatMap_cons, hdrop, hcalls, List.append_assoc]
    · intro e he
      rcases List.mem_cons.mp he with rfl | he
      · simpa only [hdrop] using ho
      · exact horderly e he

/-- Nothing unsafe is submitted: whatever an operation of a run submits is valid, and revises the
configuration that it read just before under names of the operation. -/
theorem submissions_safe (ops : List (Operation H)) (s : State (Recorded H)) :
    (operateAll ops s).hardware.calls =
      s.hardware.calls ++ (history ops s).flatMap Entry.calls ∧
    ∀ e ∈ history ops s, ∀ earlier d answer later,
      e.calls = earlier ++ Call.submit d answer :: later →
      d.defect? = none ∧
      ∃ c names before, earlier = before ++ [.read (.ok c)] ∧
        e.operation.Names e.before e.calls names ∧ c.Revised names d := by
  obtain ⟨hcalls, horderly⟩ := calls_operateAll ops s
  exact ⟨hcalls, fun e he _ _ _ _ hsplit => (horderly e he).of_submit hsplit⟩

/-- A scale that was requested is submitted as the queue is processed. -/
theorem submissions_safe_scale :
    let c : Configuration := ⟨[.plain "HDMI-1", .plain "DP-1"]⟩
    let d : Configuration := ⟨[{ Output.plain "HDMI-1" with scale := 2 }, .plain "DP-1"]⟩
    let s : State (Recorded Held) :=
      { model := { queue := [⟨"HDMI-1", .scale 2, .software⟩] }
        hardware := { hardware := { configuration := c } } }
    ∃ e ∈ history [.process, .sync] s,
      e.calls = [.read (.ok c)] ++ Call.submit d (.ok ()) :: [] ∧ d.defect? = none ∧
      ∃ names, e.operation.Names e.before e.calls names ∧ c.Revised names d := by
  intro c d s
  have he : (⟨s.model, .process, [.read (.ok c), .submit d (.ok ())]⟩ : Entry Held) ∈
      history [.process, .sync] s := List.mem_cons.mpr (.inl rfl)
  obtain ⟨hvalid, c', names, before, hread, hnames, hrevised⟩ :=
    (submissions_safe [.process, .sync] s).2 _ he [.read (.ok c)] d (.ok ()) [] rfl
  have hc : c = c' := by
    have hlast := congrArg List.getLast? hread
    rw [List.getLast?_singleton, List.getLast?_append_of_ne_nil _ (List.cons_ne_nil _ _),
      List.getLast?_singleton] at hlast
    exact Except.ok.inj (Call.read.inj (Option.some.inj hlast))
  exact ⟨_, he, rfl, hvalid, names, hnames, hc ▸ hrevised⟩

end State

end Displays
