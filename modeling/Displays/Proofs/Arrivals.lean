import Displays.Proofs.Finding
import Displays.Proofs.Reachability

/-!
# Screens that come and go

Absorbing a configuration without repeated names tells exactly which screens went and which came:
those whose outputs are no longer connected, in the order of the screens, and those of connected
outputs that had none, in the order of the configuration. The screens that stay keep their order in
front of the new ones, and what they have of their own: which one is active, how the pictures are
turned and which of them follow the sensor. Nothing is announced of a screen that comes or goes.
-/

namespace Displays

/-- The screen is the earlier one in all that is no output's to say. -/
structure Screen.Continues (t s : Screen) : Prop where
  /-- It has the same name. -/
  id : t.id = s.id
  /-- It is the active one just if it was before. -/
  active : t.active = s.active
  /-- It is of the same shape. -/
  native : t.native = s.native
  /-- Its picture is turned the same way. -/
  orientation : t.orientation = s.orientation
  /-- It follows the sensor just if it did before. -/
  sensor : t.sensor = s.sensor

/-- The screen is upright, not the active one, and follows the sensor just if it is built in. -/
structure Screen.IsNew (t : Screen) : Prop where
  /-- It is not the active one. -/
  active : t.active = false
  /-- It is upright. -/
  orientation : t.orientation = t.native
  /-- It follows the sensor just if it is built in. -/
  sensor : t.sensor = true ↔ t.location = .internal

namespace Screen

/-- A screen that follows its output keeps what is its own. -/
theorem continues_follow (s : Screen) (o : Output) : (s.follow o).Continues s :=
  ⟨rfl, rfl, rfl, rfl, rfl⟩

/-- The screen of a new output is new. -/
theorem isNew_ofOutput (o : Output) : (ofOutput o).IsNew :=
  ⟨rfl, rfl, decide_eq_true_iff⟩

end Screen

namespace Model

variable {m : Model} {c : Configuration} {l : List Output} {id : OutputId} {o : Output}

/-- Without repetition, the names whose first output is connected are the connected ones. -/
theorem isConnected_eq (hc : c.ids.Nodup) (id : OutputId) :
    isConnected c id = decide (id ∈ c.connectedIds) := by
  rw [Bool.eq_iff_iff, isConnected_iff, decide_eq_true_iff,
    Configuration.mem_connectedIds_iff_output? hc]

/-- Of outputs without repeated names, those that had no screen are new. -/
theorem added_absorbOutputs (hl : (l.map Output.id).Nodup) (m : Model) :
    (m.absorbOutputs l).2 = (l.map Output.id).filter fun id => id ∉ m.ids := by
  induction l generalizing m with
  | nil => rfl
  | cons o l ih =>
    obtain ⟨ho, hl⟩ := List.nodup_cons.mp hl
    have hrest : ((l.map Output.id).filter fun id => id ∉ (m.absorbOutput o).ids) =
        (l.map Output.id).filter fun id => id ∉ m.ids := by
      refine List.filter_congr fun id hid => ?_
      have hne : id ≠ o.id := fun h => ho (h ▸ hid)
      simp only [mem_ids_absorbOutput, hne, or_false]
    rw [added_cons, ih hl, hrest, List.map_cons]
    by_cases h : o.id ∈ m.ids
    · rw [if_pos (isSome_screen?.mpr h), List.filter_cons_of_neg (by simpa using h)]
    · rw [if_neg fun hs => h (isSome_screen?.mp hs), List.filter_cons_of_pos (by simpa using h)]

/-- Absorbing an output announces changes of its own screen only, if it had one. -/
theorem output_of_queue_absorbOutput (m : Model) (o : Output) :
    ∃ news : List Notification, (m.absorbOutput o).queue = m.queue ++ news ∧
      ∀ n ∈ news, n.output = o.id ∧ o.id ∈ m.ids := by
  by_cases h : o.id ∈ m.ids
  · rw [absorbOutput_of_mem h]
    exact ⟨_, queue_update,
      fun n hn => ⟨output_of_mem_news (fun s => s.follow_id o) hn, h⟩⟩
  · rw [absorbOutput_of_not_mem h]
    exact ⟨[], (List.append_nil _).symm, fun n hn => absurd hn List.not_mem_nil⟩

/-- Outputs without repeated names announce only what becomes of screens that were there. -/
theorem output_of_queue_absorbOutputs (hl : (l.map Output.id).Nodup) (m : Model) :
    ∃ news : List Notification, (m.absorbOutputs l).1.queue = m.queue ++ news ∧
      ∀ n ∈ news, n.output ∈ m.ids ∧ n.output ∈ l.map Output.id := by
  induction l generalizing m with
  | nil => exact ⟨[], (List.append_nil _).symm, fun n hn => absurd hn List.not_mem_nil⟩
  | cons o l ih =>
    obtain ⟨ho, hl⟩ := List.nodup_cons.mp hl
    obtain ⟨first, hfirst, hf⟩ := output_of_queue_absorbOutput m o
    obtain ⟨news, hnews, hn⟩ := ih hl (m.absorbOutput o)
    refine ⟨first ++ news, ?_, fun n hmem => ?_⟩
    · rw [absorbOutputs_cons, hnews, hfirst, List.append_assoc]
    · rw [List.map_cons, List.mem_cons]
      rcases List.mem_append.mp hmem with hmem | hmem
      · obtain ⟨hid, hold⟩ := hf n hmem
        exact ⟨hid ▸ hold, .inl hid⟩
      · obtain ⟨hold, hlater⟩ := hn n hmem
        have hne : n.output ≠ o.id := fun h => ho (h ▸ hlater)
        exact ⟨(mem_ids_absorbOutput.mp hold).resolve_right hne, .inr hlater⟩

/-- The screens that go are those of outputs that are not connected, in the order of the screens. -/
theorem removed_absorb (m : Model) (hc : c.ids.Nodup) :
    (m.absorb c).2.removed = m.ids.filter fun id => id ∉ c.connectedIds := by
  have hgone : (m.absorb c).2.removed = m.ids.filter fun id => !isConnected c id := by
    rw [ids, List.filter_map]
    rfl
  rw [hgone]
  exact List.filter_congr fun id _ => by rw [isConnected_eq hc, decide_not]

private theorem ids_kept_eq (m : Model) (hc : c.ids.Nodup) :
    (m.kept c).ids = m.ids.filter fun id => id ∈ c.connectedIds := by
  rw [ids_kept]
  exact List.filter_congr fun id _ => isConnected_eq hc id

/-- The screens that come are those of connected outputs that had none, in the order of the
configuration. -/
theorem added_absorb (m : Model) (hc : c.ids.Nodup) :
    (m.absorb c).2.added = c.connectedIds.filter fun id => id ∉ m.ids := by
  change ((m.kept c).absorbOutputs _).2 = _
  rw [added_absorbOutputs (Configuration.nodup_connectedIds hc), ids_kept_eq m hc]
  refine List.filter_congr fun id hid => ?_
  have hconnected : id ∈ c.connectedIds := hid
  simp only [List.mem_filter, hconnected, decide_true, and_true]

/-- The screens of outputs that are still connected stay in their order, and new ones of the other
connected outputs follow. -/
theorem exists_screens_absorb (hn : m.ids.Nodup) (hc : c.ids.Nodup) :
    ∃ kept new, (m.absorb c).1.screens = kept ++ new ∧
      List.Forall₂ Screen.Continues kept (m.screens.filter fun s => s.id ∈ c.connectedIds) ∧
      new.map Screen.id = (m.absorb c).2.added ∧ ∀ t ∈ new, t.IsNew := by
  have hkept : (m.screens.filter fun s => isConnected c s.id) =
      m.screens.filter fun s => s.id ∈ c.connectedIds :=
    List.filter_congr fun s _ => isConnected_eq hc s.id
  refine ⟨_, _, screens_absorb hn hc, ?_, ?_, fun t ht => ?_⟩
  · rw [hkept, List.forall₂_map_left_iff, List.forall₂_same]
    intro s _
    cases c.output? s.id with
    | none => exact ⟨rfl, rfl, rfl, rfl, rfl⟩
    | some o => exact s.continues_follow o
  · rw [added_absorb m hc, List.map_map, Configuration.connectedIds, List.filter_map]
    rfl
  · obtain ⟨o, _, rfl⟩ := List.mem_map.mp ht
    exact Screen.isNew_ofOutput o

/-- The names of the screens that stay, in their order, and then those of the other connected
outputs. -/
theorem ids_absorb (hn : m.ids.Nodup) (hc : c.ids.Nodup) :
    (m.absorb c).1.ids = (m.ids.filter fun id => id ∈ c.connectedIds) ++
      c.connectedIds.filter fun id => id ∉ m.ids := by
  obtain ⟨kept, new, hscreens, hkept, hnew, -⟩ := exists_screens_absorb hn hc
  have hids : kept.map Screen.id = m.ids.filter fun id => id ∈ c.connectedIds := by
    have hsame : List.Forall₂ (fun t s : Screen => t.id = s.id) kept
        (m.screens.filter fun s => s.id ∈ c.connectedIds) := hkept.imp fun _ _ h => h.id
    rw [ids, List.filter_map, ← List.forall₂_eq_eq_eq, List.forall₂_map_left_iff,
      List.forall₂_map_right_iff]
    exact hsame
  rw [ids, hscreens, List.map_append, hids, hnew, added_absorb m hc]

/-- Absorbing a configuration without repeated names removes exactly the screens whose outputs are
not connected and adds one for exactly the connected outputs that had none, in these orders. The
screens that stay come first, in their order and with what they have of their own; the new ones
follow. What is announced is of no screen that comes or goes. -/
theorem absorb_tells_difference (hm : m.Reachable) (hc : c.ids.Nodup) :
    let delta := (m.absorb c).2
    delta.removed = (m.ids.filter fun id => id ∉ c.connectedIds) ∧
    delta.added = (c.connectedIds.filter fun id => id ∉ m.ids) ∧
    delta.removed.Disjoint delta.added ∧
    (∃ kept new, (m.absorb c).1.screens = kept ++ new ∧
      List.Forall₂ Screen.Continues kept (m.screens.filter fun s => s.id ∈ c.connectedIds) ∧
      new.map Screen.id = delta.added ∧ ∀ t ∈ new, t.IsNew) ∧
    ∃ news, (m.absorb c).1.queue = m.queue ++ news ∧
      ∀ n ∈ news, n.output ∉ delta.removed ∧ n.output ∉ delta.added := by
  intro delta
  have hremoved : delta.removed = m.ids.filter fun id => id ∉ c.connectedIds := removed_absorb m hc
  have hadded : delta.added = c.connectedIds.filter fun id => id ∉ m.ids := added_absorb m hc
  have hgone : ∀ id ∈ delta.removed, id ∈ m.ids ∧ id ∉ c.connectedIds := by
    intro id hid
    rw [hremoved, List.mem_filter, decide_eq_true_iff] at hid
    exact hid
  have hnew : ∀ id ∈ delta.added, id ∈ c.connectedIds ∧ id ∉ m.ids := by
    intro id hid
    rw [hadded, List.mem_filter, decide_eq_true_iff] at hid
    exact hid
  obtain ⟨news, hqueue, hnews⟩ :=
    output_of_queue_absorbOutputs (Configuration.nodup_connectedIds hc) (m.kept c)
  refine ⟨hremoved, hadded, fun id hr ha => (hnew id ha).2 (hgone id hr).1,
    exists_screens_absorb (wellFormed_of_reachable hm).nodup hc, news, hqueue, fun n hn => ?_⟩
  obtain ⟨hold, hconnected⟩ := hnews n hn
  rw [ids_kept, List.mem_filter] at hold
  exact ⟨fun hr => (hgone _ hr).2 hconnected, fun ha => (hnew _ ha).2 hold.1⟩

/-- One screen is unplugged, one is no longer listed, and one comes in front of the one that stays,
which is the active one and is turned; only this one is announced, as it moves. -/
theorem absorb_tells_difference_swapped :
    let before : Configuration := ⟨[.plain "HDMI-1", .plain "eDP-1", .plain "DP-1"]⟩
    let after : Configuration :=
      ⟨[.plain "VGA-1", { Output.plain "DP-1" with connected := false },
        { Output.plain "eDP-1" with topLeft := ⟨1920, 0⟩ }]⟩
    let m := ((Observation.note (.tilt "eDP-1" .leftUp) (({} : Model).absorb before).1).mutate
      "eDP-1" (.active true)).2.drained
    (m.absorb after).2 = ⟨["VGA-1"], ["HDMI-1", "DP-1"]⟩ ∧
    (∃ kept new, (m.absorb after).1.screens = kept ++ new ∧
      List.Forall₂ Screen.Continues kept (m.screens.filter fun s => s.id = "eDP-1") ∧
      new.map Screen.id = ["VGA-1"]) ∧
    (m.screens.filter fun s => s.id = "eDP-1").map (fun s => (s.active, s.orientation)) =
      [(true, .invertedPortrait)] ∧
    (m.absorb after).1.queue =
      [⟨"eDP-1", .geometry ⟨⟨1920, 0⟩, ⟨1920, 1080⟩⟩, .hardware⟩] := by
  intro before after m
  have hm : m.Reachable := .drain (.mutate _ _ (.note _ (.note (.configuration before) .start)))
  have hc : after.ids.Nodup := by decide
  obtain ⟨hremoved, hadded, -, ⟨kept, new, hscreens, hkept, hnew, -⟩, -⟩ :=
    absorb_tells_difference hm hc
  have hstay : (m.screens.filter fun s => s.id ∈ after.connectedIds) =
      m.screens.filter fun s => s.id = "eDP-1" := by decide +kernel
  refine ⟨?_, ⟨kept, new, hscreens, hstay ▸ hkept, hnew.trans (hadded.trans ?_)⟩, ?_, ?_⟩
  · have hids : m.ids = ["HDMI-1", "eDP-1", "DP-1"] := by decide +kernel
    rw [hids] at hremoved hadded
    change (⟨(m.absorb after).2.added, (m.absorb after).2.removed⟩ : Delta) = _
    rw [hremoved, hadded]
    rfl
  · decide +kernel
  · decide +kernel
  · decide +kernel

end Model

end Displays
