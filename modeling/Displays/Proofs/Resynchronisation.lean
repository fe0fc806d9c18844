import Displays.Hardware.Held
import Displays.Proofs.Reachability

/-!
# Resynchronisation

After a request failed, the model is as the hardware says, whichever requests were accepted before
or after: the resynchronisation reads the hardware once, absorbs what it says and asks for nothing.
-/

namespace Displays

variable {H : Type} [Hardware H]

/-- The model has one screen for each connected output and every screen shows its output. -/
structure Model.Mirrors (m : Model) (c : Configuration) : Prop where
  /-- There is one screen for each connected output. -/
  ids : m.ids.Perm c.connectedIds
  /-- Every screen shows its output. -/
  shows : ∀ s ∈ m.screens, ∃ o, c.output? s.id = some o ∧ o.connected = true ∧ s.Shows o

/-- A model that absorbed a configuration without repeated names mirrors it. -/
theorem Model.mirrors_absorb {m : Model} {c : Configuration} (hm : m.WellFormed)
    (hc : c.ids.Nodup) : (m.absorb c).1.Mirrors c :=
  ⟨ids_absorb_perm hm hc, fun _ hs => shows_of_mem_absorb hm hc hs⟩

namespace State

/-- The state with another queue. -/
def withQueue (q : List Notification) (s : State H) : State H :=
  { s with model := { s.model with queue := q } }

/-- A reading is logged with its answer. -/
theorem calls_read (r : Recorded H) :
    (Hardware.read r).2.calls = r.calls ++ [.read (Hardware.read r).1] := rfl

/-- A failed process resynchronises: if the hardware can be read once the queue is drained, the
model mirrors what it says, nothing waits, and the reading is the only further call. -/
theorem process_resynchronises {s : State (Recorded H)} (hs : s.Reachable)
    (q : List Notification) {fault : ConfigFault} {c : Configuration}
    (hfault : (s.withQueue q).process.1 = .error fault)
    (hread : (Hardware.read (s.withQueue q).drain.2.hardware).1 = .ok c) (hc : c.ids.Nodup) :
    (s.withQueue q).process.2.model.queue = [] ∧
    (s.withQueue q).process.2.model.Mirrors c ∧
    (s.withQueue q).process.2.hardware.calls =
      (s.withQueue q).drain.2.hardware.calls ++ [.read (.ok c)] := by
  generalize hsq : s.withQueue q = t at hfault hread ⊢
  have hm : t.model.drained.WellFormed := by
    have hwf := Model.wellFormed_of_reachable (reachable_model hs)
    rw [← hsq]
    exact ⟨hwf.nodup, hwf.known⟩
  rw [drain_eq] at hread ⊢
  rcases process_cases t with ⟨_, h⟩ | ⟨_, _, cause, hcause, _⟩ | ⟨_, _, c', hc', h⟩
  · rw [h] at hfault
    simp only [reduceCtorEq] at hfault
  · rw [hread] at hcause
    simp only [reduceCtorEq] at hcause
  · obtain rfl := Except.ok.inj (hread.symm.trans hc')
    rw [h]
    have hmirrors := Model.mirrors_absorb hm hc
    refine ⟨rfl, ⟨hmirrors.ids, hmirrors.shows⟩, ?_⟩
    rw [calls_read, hread]

/-- The hardware accepts the first of two requests and rejects the second. -/
theorem process_resynchronises_rejection :
    let h : Held :=
      { configuration := ⟨[.plain "HDMI-1"]⟩, rejection := some ⟨"busy", 1, none⟩ }
    let s : State (Recorded Held) := { hardware := { hardware := h } }
    let q : List Notification :=
      [⟨"HDMI-1", .scale 2, .software⟩, ⟨"HDMI-1", .used false, .software⟩]
    let c : Configuration := ⟨[{ Output.plain "HDMI-1" with scale := 2 }]⟩
    (s.withQueue q).process.1 = .error (.rejected (.unsupported (.stated "busy"))) ∧
    (s.withQueue q).process.2.model.queue = [] ∧ (s.withQueue q).process.2.model.Mirrors c := by
  intro h s q c
  have hs : s.Reachable := .start _
  have hfault :
      (s.withQueue q).process.1 = .error (.rejected (.unsupported (.stated "busy"))) := rfl
  have hread : (Hardware.read (s.withQueue q).drain.2.hardware).1 = .ok c := rfl
  have hc : c.ids.Nodup := List.nodup_singleton "HDMI-1"
  obtain ⟨hq, hmirrors, _⟩ := process_resynchronises hs q hfault hread hc
  exact ⟨hfault, hq, hmirrors⟩

end State

end Displays
