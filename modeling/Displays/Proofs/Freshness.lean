import Displays.Proofs.Finding
import Displays.Proofs.Sensor

/-!
# What a model keeps of its past

A model that followed the hardware for long and a new one that sees it for the first time have the
same screens once they absorbed the same configuration, and the screens say the same of their
outputs. Only the identity is not taken over from the output at every absorption, but when the EDID
changed; that it is nevertheless the one that the EDID tells is what every model keeps up from the
first. Only the scale may differ, as far as rounding goes.
-/

namespace Displays

/-- The screens say the same of the same output, but for the scale. -/
structure Screen.Alike (s t : Screen) : Prop where
  /-- They have one name. -/
  id : s.id = t.id
  /-- They are at the same place. -/
  location : s.location = t.location
  /-- Both are used, or neither is. -/
  used : s.used = t.used
  /-- They offer the same modes. -/
  modes : s.modes = t.modes
  /-- They have the same mode as the current one. -/
  modeIndex : s.modeIndex = t.modeIndex
  /-- They have the same power mode. -/
  power : s.power = t.power
  /-- Their pictures are at the same place and of the same size. -/
  geometry : s.geometry = t.geometry
  /-- They have the same refresh rate. -/
  refresh : s.refresh = t.refresh
  /-- They are of the same kind. -/
  form : s.form = t.form
  /-- The displays are of the same size. -/
  size : s.size = t.size
  /-- They have the same EDID. -/
  edid : s.edid = t.edid
  /-- They know the display as the same one. -/
  identity : s.identity = t.identity

/-- Screens in the same place that show the same output are alike. -/
theorem Screen.Shows.alike {s t : Screen} {o : Output} (hs : s.Shows o) (ht : t.Shows o)
    (hlocation : s.location = t.location) : s.Alike t where
  id := hs.id.trans ht.id.symm
  location := hlocation
  used := hs.used.trans ht.used.symm
  modes := hs.modes.trans ht.modes.symm
  modeIndex := hs.modeIndex.trans ht.modeIndex.symm
  power := hs.power.trans ht.power.symm
  geometry := hs.geometry.trans ht.geometry.symm
  refresh := hs.refresh.trans ht.refresh.symm
  form := hs.form.trans ht.form.symm
  size := hs.size.trans ht.size.symm
  edid := hs.edid.trans ht.edid.symm
  identity := hs.identity.trans ht.identity.symm

namespace Model

variable {m : Model} {c : Configuration}

/-- The screen of an output that was taken over shows it. -/
theorem shows_screenOf (hm : m.WellFormed) (o : Output) : (m.screenOf o).Shows o := by
  rcases m.screenOf_cases o with ⟨_, h⟩ | ⟨s, hs, h⟩
  · rw [h]
    exact Screen.shows_ofOutput o
  · rw [h]
    exact Screen.shows_follow (id_of_screen? hs) (hm.known s (mem_of_screen? hs))

private theorem location_screenOf (hm : m.Located) (o : Output) :
    (m.screenOf o).location = .ofOutput o.id := by
  rcases m.screenOf_cases o with ⟨_, h⟩ | ⟨s, hs, h⟩
  · rw [h]
    rfl
  · rw [h]
    exact (hm s (mem_of_screen? hs)).trans (congrArg Location.ofOutput (id_of_screen? hs))

/-- The screens of a new model are those of the connected outputs, in their order. -/
theorem screens_absorb_empty (hc : c.ids.Nodup) :
    (({} : Model).absorb c).1.screens =
      (c.outputs.filter Output.connected).map Screen.ofOutput := by
  have hnew : ((c.outputs.filter Output.connected).filter fun o => o.id ∉ ({} : Model).ids) =
      c.outputs.filter Output.connected :=
    List.filter_eq_self.mpr fun _ _ => decide_eq_true List.not_mem_nil
  have hempty : ({} : Model).ids.Nodup := List.nodup_nil
  rw [screens_absorb hempty hc, hnew]
  rfl

/-- Once a configuration without repeated names is absorbed, whatever came before, the model has the
screens of its connected outputs, and each is like that of a new model. It says of the display what
the EDID tells; it shows the mode in force, at the position of the output, or nothing without one;
and its scale is that of the output up to rounding, as it is in the new model. -/
theorem absorb_as_fresh (hm : m.Reachable) (hc : c.ids.Nodup) :
    let fresh := (({} : Model).absorb c).1
    (m.absorb c).1.ids.Perm c.connectedIds ∧ fresh.ids = c.connectedIds ∧
      ∀ o ∈ c.outputs, o.connected = true → ∃ s t,
        (m.absorb c).1.screen? o.id = some s ∧ fresh.screen? o.id = some t ∧ s.Alike t ∧
        s.identity = o.edid.bind Edid.identity? ∧
        s.geometry = ⟨o.topLeft, (o.mode?.map Mode.resolution).getD ⟨0, 0⟩⟩ ∧
        s.refresh = (o.mode?.map Mode.refresh).getD 0 ∧
        (s.scale = o.scale ∨ scaleEq s.scale o.scale = true) ∧
        (t.scale = o.scale ∨ scaleEq t.scale o.scale = true) := by
  intro fresh
  have hwell := wellFormed_of_reachable hm
  have hempty := wellFormed_of_reachable .start
  refine ⟨ids_absorb_perm hwell hc, ?_, fun o ho hoc => ?_⟩
  · rw [ids, screens_absorb_empty hc, List.map_map]
    rfl
  · have hs := shows_screenOf hwell o
    have ht := shows_screenOf hempty o
    have hlocation : (m.screenOf o).location = (({} : Model).screenOf o).location := by
      rw [location_screenOf (located_of_reachable hm),
        location_screenOf (located_of_reachable .start)]
    refine ⟨m.screenOf o, ({} : Model).screenOf o, screen?_absorb hc ho hoc,
      screen?_absorb hc ho hoc, hs.alike ht hlocation, hs.identity, ?_, ?_, hs.scale, ht.scale⟩
    · rw [hs.geometry, Output.geometry]
      cases o.mode? <;> rfl
    · rw [hs.refresh, Output.refresh]
      cases o.mode? <;> rfl

/-- A screen that was requested another mode, turned and made the active one, and whose EDID is now
unreadable, is like a new one; of its past it keeps the scale, which is off by a rounding. -/
theorem absorb_as_fresh_after_requests :
    let mode : Mode := ⟨⟨1280, 720⟩, 60000⟩
    let before : Output :=
      { Output.plain "eDP-1" with modes := [mode, ⟨⟨1920, 1080⟩, 60000⟩], scale := 2 }
    let after : Output := { before with modes := [mode], scale := 2 + 1 / 100000, edid := some [0] }
    let m := (({} : Model).absorb ⟨[before]⟩).1
    let moved := Observation.note (.tilt "eDP-1" .leftUp) (m.mutate "eDP-1" (.modeIndex 1)).2
    let used := (moved.mutate "eDP-1" (.active true)).2
    let fresh := (({} : Model).absorb ⟨[after]⟩).1
    ∃ s t, (used.absorb ⟨[after]⟩).1.screen? "eDP-1" = some s ∧
      fresh.screen? "eDP-1" = some t ∧ s.Alike t ∧ s.identity = none ∧
      s.geometry = ⟨⟨0, 0⟩, ⟨1280, 720⟩⟩ ∧ s.refresh = 60000 ∧ s.scale ≠ t.scale := by
  intro mode before after m moved used fresh
  have hused : used.Reachable :=
    .mutate _ _ (.note _ (.mutate _ _ (.note (.configuration ⟨[before]⟩) .start)))
  have hids : (⟨[after]⟩ : Configuration).ids.Nodup := by decide
  obtain ⟨-, -, hscreens⟩ := absorb_as_fresh hused hids
  obtain ⟨s, t, hs, ht, halike, hidentity, hgeometry, hrefresh, -⟩ :=
    hscreens after (List.mem_singleton_self after) rfl
  refine ⟨s, t, hs, ht, halike, hidentity.trans (by decide +kernel), hgeometry, hrefresh, ?_⟩
  have hne : ((used.absorb ⟨[after]⟩).1.screen? "eDP-1").map Screen.scale ≠
      (fresh.screen? "eDP-1").map Screen.scale := by decide +kernel
  rw [show (used.absorb ⟨[after]⟩).1.screen? "eDP-1" = some s from hs,
    show fresh.screen? "eDP-1" = some t from ht] at hne
  exact fun h => hne (congrArg some h)

end Model

end Displays
