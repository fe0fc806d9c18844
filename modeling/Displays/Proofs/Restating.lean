import Displays.Proofs.Resynchronisation
import Displays.Proofs.Sequencing

/-!
# Requesting what is shown

A model that absorbed a configuration shows its connected outputs, so requesting the settings of all
its screens at once requests what the hardware has. What is then submitted is the configuration that
was read, where only scales may be off by a rounding and outputs that are not connected are the same
altogether. It is not submitted only if it is not valid, and no screen is for an unknown output.
-/

namespace Displays

/-- The output is the other one again, but for its scale, which is equal up to rounding; one that is
not connected is the same. -/
structure Output.Restates (p o : Output) : Prop where
  /-- All but the scale is the same. -/
  others : { p with scale := o.scale } = o
  /-- The scale is the same, or equal up to rounding. -/
  scale : p.scale = o.scale ∨ scaleEq p.scale o.scale = true
  /-- An output that is not connected is the same altogether. -/
  unplugged : o.connected = false → p = o

private theorem Output.restates_self (o : Output) : o.Restates o := ⟨rfl, .inl rfl, fun _ => rfl⟩

/-- The settings of a screen change no more of the output that it shows than the scale. -/
theorem Screen.Shows.apply_settings {s : Screen} {o : Output} (h : s.Shows o) :
    s.settings.apply o = { o with scale := s.scale } := by
  have htop : s.geometry.topLeft = o.topLeft := congrArg Rect.topLeft h.geometry
  rw [Screen.settings, Settings.apply, h.used, htop, h.modeIndex, h.power, h.form]

/-- The settings of a screen that shows an output, written into it, restate it. -/
theorem Screen.Shows.restates {s : Screen} {o : Output} (h : s.Shows o)
    (hconnected : o.connected = true) : (s.settings.apply o).Restates o := by
  rw [h.apply_settings]
  exact ⟨rfl, h.scale, fun hc => Bool.noConfusion (hconnected.symm.trans hc)⟩

/-- Where names do not repeat, every output is the first with its name. -/
theorem Configuration.merged_of_nodup {c : Configuration} (hc : c.ids.Nodup)
    (entries : List (OutputId × Settings)) :
    c.merged entries = ⟨c.outputs.map (Output.settle entries)⟩ := by
  refine congrArg Configuration.mk (List.ext_getElem? fun i => ?_)
  rw [List.getElem?_mapIdx, List.getElem?_map]
  cases ho : c.outputs[i]? with
  | none => rfl
  | some o =>
    obtain ⟨hi, rfl⟩ := List.getElem?_eq_some_iff.mp ho
    have hlt : i < c.ids.length := by rwa [ids, List.length_map]
    have hfirst : c.ids.idxOf c.outputs[i].id = i := by
      rw [show c.outputs[i].id = c.ids[i] from (List.getElem_map Output.id).symm]
      exact hc.idxOf_getElem i hlt
    rw [Option.map_some, Option.map_some, if_pos hfirst]

namespace Model

variable {m : Model} {c : Configuration} {o : Output}

/-- The settings of a model request of each output what its screen says. -/
theorem lastSettings_settings (hn : m.ids.Nodup) (id : OutputId) :
    lastSettings m.settings id = (m.screen? id).map Screen.settings := by
  have hnames : m.settings.map Prod.fst = m.ids := by
    rw [settings, List.map_map]
    rfl
  cases hs : m.screen? id with
  | none =>
    rw [lastSettings_of_not_mem (hnames ▸ screen?_eq_none.mp hs)]
    rfl
  | some s =>
    have hmem : (s.id, s.settings) ∈ m.settings := List.mem_map_of_mem (mem_of_screen? hs)
    have hlast := lastSettings_of_mem (hnames ▸ hn) hmem
    rwa [id_of_screen? hs] at hlast

/-- What a model that mirrors a configuration requests of an output is what the output has. -/
theorem restates_settle (hn : m.ids.Nodup) (hc : c.ids.Nodup) (h : m.Mirrors c)
    (ho : o ∈ c.outputs) : (o.settle m.settings).Restates o := by
  rw [Output.settle, lastSettings_settings hn]
  cases hs : m.screen? o.id with
  | none => exact o.restates_self
  | some s =>
    obtain ⟨p, hp, hconnected, hshows⟩ := h.shows s (mem_of_screen? hs)
    rw [id_of_screen? hs, Configuration.output?_of_mem hc ho] at hp
    obtain rfl := Option.some.inj hp
    exact hshows.restates hconnected

/-- The settings of a model that mirrors a configuration are for connected outputs. -/
theorem plugged_of_mem_settings (h : m.Mirrors c) : ∀ e ∈ m.settings, c.Plugged e.1 := by
  intro e he
  obtain ⟨s, hs, rfl⟩ := List.mem_map.mp he
  obtain ⟨o, ho, hconnected, -⟩ := h.shows s hs
  exact ⟨o, ho, hconnected⟩

end Model

namespace Guarded

variable {H : Type} [Hardware H] {m : Model} {c : Configuration}

/-- If a model absorbed a configuration without repeated names, whatever it was before, and the
hardware still has this configuration, requesting the settings of all screens is requesting the
configuration again, with scales that are equal up to rounding. If this is not valid, the request
fails for that and nothing is submitted; otherwise it is submitted, once, and the hardware
decides. -/
theorem requestAll_of_shown (hm : m.Reachable) (hc : c.ids.Nodup) (r : Recorded H)
    (hread : (Hardware.read r).1 = .ok c) :
    let settings := (m.absorb c).1.settings
    ∃ d : Configuration, List.Forall₂ Output.Restates d.outputs c.outputs ∧
      (∀ defect, d.defect? = some defect →
        (requestAll settings r).1 = .error (.invalid defect) ∧
        (requestAll settings r).2.submissions = r.submissions) ∧
      (d.defect? = none →
        let answer := (Hardware.submit d (Hardware.read r).2).1
        (requestAll settings r).1 = answer.mapError .rejected ∧
        (requestAll settings r).2.submissions = r.submissions ++ [(d, answer)]) := by
  intro settings
  have hwell := Model.wellFormed_of_reachable hm
  have hn : (m.absorb c).1.ids.Nodup := (Model.wellFormed_absorb hwell c).nodup
  have hmirrors := Model.mirrors_absorb hwell hc
  have hrequest : requestAll settings r = submit (c.merged settings) (Hardware.read r).2 := by
    rw [requestAll_of_read (Prod.ext hread rfl),
      Configuration.requestAll_of_plugged (Model.plugged_of_mem_settings hmirrors)]
    rfl
  refine ⟨c.merged settings, ?_, fun defect hdefect => ?_, fun hvalid => ?_⟩
  · rw [Configuration.merged_of_nodup hc, List.forall₂_map_left_iff, List.forall₂_same]
    exact fun o ho => Model.restates_settle hn hc hmirrors ho
  · rw [hrequest, ← r.submissions_read]
    simp only [submit, hdefect, and_self]
  · rw [hrequest, ← r.submissions_read]
    exact submit_of_valid hvalid _

/-- A model that is ahead of the hardware in one output and off by a rounding in the other writes
back what the hardware has, but for the rounding. It fails if an output that is unplugged is still
used, which it does not change. -/
theorem requestAll_of_shown_ahead :
    let mode : Mode := ⟨⟨1280, 720⟩, 60000⟩
    let panel : Output :=
      { Output.plain "eDP-1" with modes := [mode, ⟨⟨1920, 1080⟩, 60000⟩], topLeft := ⟨1920, 0⟩ }
    let old : Output := { Output.plain "HDMI-1" with scale := 2 }
    let new : Output := { old with scale := 2 + 1 / 100000, form := .tv }
    let gone : Output := { Output.plain "DP-1" with connected := false }
    let m := ((({} : Model).absorb ⟨[panel, old, .plain "DP-1"]⟩).1.mutate "eDP-1"
      (.modeIndex 1)).2
    let c (used : Bool) : Configuration := ⟨[new, panel, { gone with used }]⟩
    let r (used : Bool) : Recorded Held := { hardware := { configuration := c used } }
    let settings (used : Bool) := (m.absorb (c used)).1.settings
    (∃ d : Configuration, List.Forall₂ Output.Restates d.outputs (c false).outputs ∧
      (requestAll (settings false) (r false)).2.submissions = [(d, .ok ())]) ∧
    (requestAll (settings false) (r false)).2.hardware.configuration.outputs.map Output.scale =
      [2, 1, 1] ∧
    (requestAll (settings true) (r true)).2.submissions = [] := by
  intro mode panel old new gone m c r settings
  have hm : m.Reachable :=
    .mutate _ _ (.note (.configuration ⟨[panel, old, .plain "DP-1"]⟩) .start)
  have hc : ∀ used, (c used).ids.Nodup := by decide
  refine ⟨?_, by decide +kernel, ?_⟩
  · obtain ⟨d, hrestates, hinvalid, hvalid⟩ := requestAll_of_shown hm (hc false) (r false) rfl
    have hok : (requestAll (settings false) (r false)).1 = .ok () := by decide +kernel
    refine ⟨d, hrestates, ?_⟩
    cases hdefect : d.defect? with
    | some defect =>
      have hfailed : (requestAll (settings false) (r false)).1 = _ := (hinvalid defect hdefect).1
      rw [hok] at hfailed
      cases hfailed
    | none => exact (hvalid hdefect).2
  · obtain ⟨d, -, hinvalid, hvalid⟩ := requestAll_of_shown hm (hc true) (r true) rfl
    have hfailed : (requestAll (settings true) (r true)).1 =
        .error (.invalid (.disconnected "DP-1")) := by decide +kernel
    cases hdefect : d.defect? with
    | some defect => exact (hinvalid defect hdefect).2
    | none =>
      have hanswer : (requestAll (settings true) (r true)).1 = _ := (hvalid hdefect).1
      rw [hfailed] at hanswer
      exact absurd hanswer nofun

end Guarded

end Displays
