import Displays.Proofs.Finding
import Displays.Proofs.Magnitude
import Displays.Proofs.Sensor

/-!
# Absorbing a configuration again

A screen that was brought in line with its output is in line with it, so absorbing the same
configuration again adds and removes nothing and changes no screen. It announces nothing either, but
for one case: a scale that is not even equal to itself is announced each time. There is one
exception to that, too. A screen whose scale is an infinity keeps it when it meets the opposite
infinity, to which it is equal up to rounding, and announces nothing from the start.
-/

namespace Displays

namespace Screen

variable {s : Screen} {o : Output}

/-- Scales that are kept or taken over are equal up to rounding to that of the output, if this is
equal to itself. -/
theorem scaleEq_follow (s : Screen) (o : Output) :
    scaleEq (s.follow o).scale o.scale = (scaleEq s.scale o.scale || scaleEq o.scale o.scale) := by
  cases h : scaleEq s.scale o.scale with
  | true => simp only [follow, h, ite_true, Bool.true_or]
  | false => simp only [follow, h, Bool.false_eq_true, ite_false, Bool.false_or]

/-- A screen in line with its output stays as it is. -/
theorem follow_follow (s : Screen) (o : Output) : (s.follow o).follow o = s.follow o := by
  cases h : scaleEq s.scale o.scale with
  | true => simp only [follow, h, ite_true]
  | false => simp only [follow, h, Bool.false_eq_true, ite_false, ite_self, ite_true]

/-- The screen of a new output is in line with it. -/
theorem follow_ofOutput (o : Output) : (ofOutput o).follow o = ofOutput o := by
  simp only [ofOutput, follow, ite_true, Screen.mk.injEq, true_and, and_true]
  split
  · rfl
  · exact ite_self _

/-- A screen that stays as it is announces at most its scale. -/
theorem differences_of_follow (h : s.follow o = s) :
    s.differences o = changeIf (scaleEq s.scale o.scale = false) (.scale o.scale) := by
  obtain ⟨t, rfl⟩ : ∃ t : Screen, s = t.follow o := ⟨s, h.symm⟩
  simp only [differences, follow, changeIf, ne_eq, not_true_eq_false, ite_false, false_and,
    List.nil_append, List.append_nil]

end Screen

namespace Model

variable {m : Model} {o : Output} {l : List Output} {c : Configuration}

/-- The outputs to whose scales those of their screens are not equal up to rounding. -/
def unsettled (m : Model) (l : List Output) : List Output :=
  l.filter fun o => (m.screen? o.id).any fun s => !scaleEq s.scale o.scale

/-- The news that the scale of an output is that of the hardware. -/
def scaleNews (o : Output) : Notification := ⟨o.id, .scale o.scale, .hardware⟩

/-- Every screen has a connected output, and every connected output has a screen that is in line
with it. -/
structure Settled (m : Model) (c : Configuration) : Prop where
  /-- Every screen has a connected output. -/
  connected : ∀ s ∈ m.screens, isConnected c s.id = true
  /-- Every connected output has a screen that is in line with it. -/
  inLine : ∀ o ∈ c.outputs, o.connected = true → ∃ s, m.screen? o.id = some s ∧ s.follow o = s

/-- An output whose screen is in line with it changes the queue only. -/
theorem absorbOutput_of_inLine {s : Screen} (hs : m.screen? o.id = some s) (h : s.follow o = s) :
    m.absorbOutput o = { m with queue := m.queue ++ (m.unsettled [o]).map scaleNews } := by
  have hself : replaceFirst s m.screens = m.screens :=
    replaceFirst_self (by rw [id_of_screen? hs]; exact hs)
  have hput : m.absorbOutput o = m.put .hardware s (s.differences o) := by
    simp only [absorbOutput, update, Screen.absorb, hs, h]
  rw [hput, Screen.differences_of_follow h, put, hself, push, id_of_screen? hs]
  cases hscale : scaleEq s.scale o.scale with
  | true =>
    simp only [changeIf, unsettled, hs, hscale, Option.any_some, Bool.not_true, Bool.false_eq_true,
      Bool.true_eq_false, ite_false, not_false_eq_true, List.filter_cons_of_neg, List.filter_nil,
      List.map_nil]
  | false =>
    simp only [changeIf, unsettled, hs, hscale, Option.any_some, Bool.not_false, ite_true,
      List.filter_cons_of_pos, List.filter_nil, List.map_cons, List.map_nil, scaleNews]

/-- Outputs whose screens are in line with them change the queue only. -/
theorem absorbOutputs_of_inLine (h : ∀ o ∈ l, ∃ s, m.screen? o.id = some s ∧ s.follow o = s) :
    m.absorbOutputs l =
      ({ m with queue := m.queue ++ (m.unsettled l).map scaleNews }, []) := by
  induction l generalizing m with
  | nil => simp only [absorbOutputs, unsettled, List.filter_nil, List.map_nil, List.append_nil]
  | cons o l ih =>
    obtain ⟨s, hs, hfollow⟩ := h o List.mem_cons_self
    have hunsettled : m.unsettled (o :: l) = m.unsettled [o] ++ m.unsettled l := by
      rw [unsettled, unsettled, unsettled, ← List.filter_append, List.singleton_append]
    have hrest := ih (m := { m with queue := m.queue ++ (m.unsettled [o]).map scaleNews })
      fun p hp => h p (List.mem_cons_of_mem o hp)
    simp only [absorbOutputs, absorbOutput_of_inLine hs hfollow, hrest, hs, Option.isSome_some,
      ite_true, hunsettled, List.map_append, List.append_assoc]
    rfl

/-- A settled model absorbs its configuration by announcing the scales that are not settled. -/
theorem absorb_of_settled (h : m.Settled c) :
    m.absorb c =
      ({ m with queue :=
          m.queue ++ (m.unsettled (c.outputs.filter Output.connected)).map scaleNews },
        ⟨[], []⟩) := by
  have hkept : (m.screens.filter fun s => isConnected c s.id) = m.screens :=
    List.filter_eq_self.mpr h.connected
  have hgone : (m.screens.filter fun s => !isConnected c s.id) = [] := by
    refine List.filter_eq_nil_iff.mpr fun s hs => ?_
    simp only [h.connected s hs, Bool.not_true, Bool.false_eq_true, not_false_eq_true]
  have houtputs := absorbOutputs_of_inLine (m := m) (l := c.outputs.filter Output.connected)
    fun o ho => h.inLine o (List.mem_filter.mp ho).1 (List.mem_filter.mp ho).2
  simp only [absorb, hkept, hgone, houtputs, List.map_nil]

/-- A model is settled once it absorbed a configuration without repeated names. -/
theorem settled_absorb (m : Model) (hc : c.ids.Nodup) : (m.absorb c).1.Settled c where
  connected s hs := by
    have hid : s.id ∈ (m.absorb c).1.ids := List.mem_map_of_mem hs
    rw [mem_ids_absorb_iff, Configuration.mem_connectedIds] at hid
    obtain ⟨o, ho, hoc, heq⟩ := hid
    exact heq ▸ isConnected_of_mem hc ho hoc
  inLine o ho hoc := by
    refine ⟨m.screenOf o, screen?_absorb hc ho hoc, ?_⟩
    rcases m.screenOf_cases o with ⟨_, h⟩ | ⟨s, _, h⟩
    · rw [h, Screen.follow_ofOutput]
    · rw [h, s.follow_follow]

/-- The screen of the output has the infinity opposite to its scale. -/
def opposes (m : Model) (o : Output) : Bool :=
  (m.screen? o.id).any fun s => s.scale.isInf && o.scale = -s.scale

/-- The scale of the screen of an output that was taken over is equal up to rounding to that of the
output if this is finite, or if the screen had the opposite infinity. -/
theorem scaleEq_screenOf (m : Model) (o : Output) :
    scaleEq (m.screenOf o).scale o.scale = (scaleEq o.scale o.scale || m.opposes o) := by
  have hfollow : ∀ s : Screen, scaleEq (s.follow o).scale o.scale =
      (scaleEq o.scale o.scale || (s.scale.isInf && o.scale = -s.scale)) := by
    intro s
    rw [Screen.scaleEq_follow, Bool.or_comm]
    cases hself : scaleEq o.scale o.scale with
    | true => rfl
    | false =>
      have hfinite : o.scale.isFinite = false := by
        rw [← Bool.not_eq_true, ← Scale.scaleEq_self_iff, hself]
        exact Bool.false_ne_true
      rw [Bool.false_or, Bool.false_or, Bool.eq_iff_iff, Scale.scaleEq_iff_of_not_isFinite hfinite,
        Bool.and_eq_true, decide_eq_true_eq]
  cases hs : m.screen? o.id with
  | some s => simp only [screenOf, opposes, hs, Option.elim_some, hfollow, Option.any_some]
  | none =>
    have hone : (1 : Float).isInf = false := by decide
    have hblank : (Screen.blank o.id).scale = 1 := rfl
    simp only [screenOf, opposes, hs, Option.elim_none, Option.any_none]
    exact (hfollow (.blank o.id)).trans (by rw [hblank, hone, Bool.false_and])

/-- What each further absorption of a configuration announces: the scale of every connected output
that is not equal to itself, unless the screen had the opposite infinity. -/
def restless (m : Model) (c : Configuration) : List Notification :=
  (c.outputs.filter fun o => o.connected && (!scaleEq o.scale o.scale && !m.opposes o)).map
    scaleNews

private theorem unsettled_absorb (m : Model) (hc : c.ids.Nodup) :
    ((m.absorb c).1.unsettled (c.outputs.filter Output.connected)).map scaleNews =
      m.restless c := by
  rw [restless, unsettled, List.filter_filter]
  congr 1
  apply List.filter_congr
  intro o ho
  cases hoc : o.connected with
  | false => simp only [Bool.and_false, Bool.false_and]
  | true =>
    rw [screen?_absorb hc ho hoc, Option.any_some, scaleEq_screenOf, Bool.not_or, Bool.and_true,
      Bool.true_and]

/-- Absorbing a configuration without repeated names again, any number of times, adds and removes
nothing and leaves the model as it is. If some scales are not equal to themselves, which are those
that are not finite, each time announces exactly one change of scale for each connected output with
such a scale, unless its screen had the opposite infinity to begin with, and nothing else. -/
theorem absorb_again (m : Model) (hc : c.ids.Nodup) :
    (∀ x : Float, scaleEq x x = true ↔ x.isFinite = true) ∧
    ((∀ o ∈ c.outputs, scaleEq o.scale o.scale = true) →
      (m.absorb c).1.absorb c = ((m.absorb c).1, ⟨[], []⟩)) ∧
    ∀ n : Nat, let k := (fun k : Model => (k.absorb c).1)^[n + 1] m
      k.absorb c = ({ k with queue := k.queue ++ m.restless c }, ⟨[], []⟩) := by
  -- Absorbing again changes the queue only, on which nothing that is announced depends.
  have hagain : ∀ q : List Notification, ({ (m.absorb c).1 with queue := q } : Model).absorb c =
      ({ (m.absorb c).1 with queue := q ++ m.restless c }, ⟨[], []⟩) := by
    intro q
    have hsettled := settled_absorb m hc
    rw [absorb_of_settled (m := { (m.absorb c).1 with queue := q })
      ⟨hsettled.connected, hsettled.inLine⟩, ← unsettled_absorb m hc]
    rfl
  refine ⟨fun x => Scale.scaleEq_self_iff, fun hself => ?_, fun n => ?_⟩
  · have hnone : m.restless c = [] := by
      rw [restless, List.map_eq_nil_iff, List.filter_eq_nil_iff]
      intro o ho
      simp only [hself o ho, Bool.not_true, Bool.false_and, Bool.and_false, Bool.false_eq_true,
        not_false_eq_true]
    have hqueue := hagain (m.absorb c).1.queue
    rwa [hnone, List.append_nil] at hqueue
  · have hqueue : ∃ q, (fun k : Model => (k.absorb c).1)^[n + 1] m =
        { (m.absorb c).1 with queue := q } := by
      induction n with
      | zero => exact ⟨(m.absorb c).1.queue, rfl⟩
      | succ n ih =>
        obtain ⟨q, hq⟩ := ih
        rw [Function.iterate_succ_apply', hq, hagain]
        exact ⟨_, rfl⟩
    obtain ⟨q, hq⟩ := hqueue
    dsimp only
    rw [hq, hagain]

/-- Of two outputs, the one whose scale is no number announces it at every repetition; neither does
once the scales are numbers. -/
theorem absorb_again_nan :
    let c : Configuration := ⟨[{ Output.plain "HDMI-1" with scale := 0 / 0 }, .plain "DP-1"]⟩
    let d : Configuration := ⟨[.plain "HDMI-1", .plain "DP-1"]⟩
    let m := (({} : Model).absorb c).1
    let n : Notification := ⟨"HDMI-1", .scale (0 / 0), .hardware⟩
    c.ids.Nodup ∧ (m.absorb c).1.absorb c = ({ m with queue := [n, n] }, ⟨[], []⟩) ∧
      d.ids.Nodup ∧ (m.absorb d).1.absorb d = ((m.absorb d).1, ⟨[], []⟩) := by
  intro c d m n
  have hc : c.ids.Nodup := by decide
  have hd : d.ids.Nodup := by decide
  obtain ⟨-, -, hagain⟩ := absorb_again {} hc
  obtain ⟨-, hquiet, -⟩ := absorb_again m hd
  exact ⟨hc, (hagain 1).trans (by decide +kernel), hd, hquiet (by decide +kernel)⟩

/-- A screen whose scale is the negative infinity meets the positive one: the scale is not equal to
itself, and yet nothing is announced. -/
theorem opposite_infinity_settles :
    let low : Configuration := ⟨[{ Output.plain "HDMI-1" with scale := -1 / 0 }]⟩
    let high : Configuration := ⟨[{ Output.plain "HDMI-1" with scale := 1 / 0 }]⟩
    let m := (({} : Model).absorb low).1
    m.Reachable ∧ high.ids.Nodup ∧
      (∃ o ∈ high.outputs, o.connected = true ∧ scaleEq o.scale o.scale = false) ∧
      (m.absorb high).1.absorb high = ((m.absorb high).1, ⟨[], []⟩) := by
  intro low high m
  exact ⟨.note (.configuration low) .start, by decide, ⟨_, List.mem_singleton_self _, rfl,
    by decide +kernel⟩, by decide +kernel⟩

end Model

end Displays
