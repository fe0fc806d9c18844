import Displays.Proofs.Batches
import Displays.Proofs.Numbering
import Displays.Proofs.Wording

/-!
# What backends can express

Each backend has ways out for requests that it cannot put into words or into the tables of a server:
an output without mode is switched off or enabled without one, and coordinates and indices out of
range are refused. None of them is taken for a valid configuration, but for an index of a mode that
the server no longer offers.
-/

namespace Displays

/-- The outputs that are connected or to be used. -/
def Configuration.listed (c : Configuration) : List Output :=
  c.outputs.filter fun o => o.connected || o.used

/-- In a valid configuration the outputs that are listed are the connected ones. -/
theorem Configuration.listed_of_valid {c : Configuration} (h : ∀ o ∈ c.outputs, o.Valid) :
    c.listed = c.outputs.filter Output.connected := by
  refine List.filter_congr fun o ho => ?_
  cases hu : o.used with
  | false => exact Bool.or_false _
  | true => rw [(h o ho).connected hu, Bool.true_or]

namespace Xrandr

variable {o : Output} {c : Configuration} {ws : List String}

/-- The group of words asks for a picture on an output that is to be used, with a mode, a rate, a
position and a scale, and for any other one to be off. -/
structure Asks (o : Output) (group : List String) : Prop where
  /-- An output that is to be used is not switched off. -/
  used : o.used = true → ∃ mode rate place factor,
    group = ["--output", o.id, "--mode", mode, "--rate", rate, "--pos", place, "--scale", factor] ∧
      "--off" ∉ group.drop 2
  /-- An output that is not to be used is switched off. -/
  unused : o.used = false → group = ["--output", o.id, "--off"]

private theorem ne_off_of_mem {c : Char} {s : String} (h : c ∈ s.toList)
    (hc : "--off".toList.contains c = false) : "--off" ≠ s := by
  rintro rfl
  rw [List.contains_iff_mem.mpr h] at hc
  cases hc

/-- The group of a valid output asks for what is to be shown. -/
theorem asks_words (ho : o.Valid) : Asks o (demand o).words := by
  have hwords : (demand o).words = "--output" :: o.id :: stateWords o := by
    rw [stateWords_eq]
    rfl
  rw [hwords]
  constructor
  · intro hu
    obtain ⟨m, hm, -⟩ := ho.fits hu
    have hstate : stateWords o = modeWords m ++ placeWords o.topLeft ++ scaleWords o.scale := by
      simp only [stateWords, hu, hm]
    rw [hstate]
    refine ⟨_, _, _, _, rfl, ?_⟩
    -- The values have an x or a point in them, which the word that switches off has not.
    have hby : ∀ a b : String, "--off" ≠ a ++ "x" ++ b := fun a b => by
      refine ne_off_of_mem (c := 'x') ?_ (by decide)
      rw [toList_by]
      exact List.mem_append_right _ List.mem_cons_self
    have hpoint : ∀ a b : String, "--off" ≠ a ++ "." ++ b := fun a b => by
      refine ne_off_of_mem (c := '.') ?_ (by decide)
      rw [String.toList_append, String.toList_append]
      exact List.mem_append_left _ (List.mem_append_right _ (List.mem_singleton_self _))
    have hcons : ∀ {s : String} {l : List String}, "--off" ≠ s → "--off" ∉ l → "--off" ∉ s :: l :=
      List.not_mem_cons_of_ne_of_not_mem
    exact hcons (by decide) (hcons (hby _ _) (hcons (by decide) (hcons (hpoint _ _)
      (hcons (by decide) (hcons (hby _ _) (hcons (by decide) (hcons (hby _ _)
        List.not_mem_nil)))))))
  · intro hu
    rw [stateWords, hu]

/-- Where a valid configuration is not refused, the words are a group for each output that is
listed. -/
theorem exists_groups (hc : ∀ o ∈ c.outputs, o.Valid) (h : words c = .ok ws) :
    ∃ groups, ws = groups.flatten ∧ List.Forall₂ Asks c.listed groups := by
  refine ⟨c.listed.map fun o => (demand o).words, ?_, ?_⟩
  · rw [words_eq_of_ok (fun o ho => (hc o ho).connected) h, demands,
      Configuration.listed_of_valid hc, List.flatMap_def, List.map_map]
    rfl
  · rw [List.forall₂_map_right_iff, List.forall₂_same]
    exact fun o ho => asks_words (hc o (List.mem_filter.mp ho).1)

end Xrandr

namespace Sway

variable {o : Output} {c : Configuration} {ws : List String}

/-- The command enables an output that is to be used, with its mode, and disables any other one. -/
structure Asks (o : Output) (command : String) : Prop where
  /-- An output that is to be used is enabled with its mode. -/
  used : o.used = true → command = enable o ∧
    ∃ m front back, o.mode? = some m ∧ command = front ++ modePart m ++ back
  /-- An output that is not to be used is disabled. -/
  unused : o.used = false → command = disable o.id

/-- A command that enables an output has its mode in it, if there is one. -/
theorem exists_enable_eq (o : Output) :
    ∃ front back, enable o = front ++ (o.mode?.map modePart).getD "" ++ back := by
  let front := "output \"" ++ o.id ++ "\" enable position " ++ toString o.topLeft.x ++ " " ++
    toString o.topLeft.y ++ " "
  let power := " power " ++ if o.power = .on then "on" else "off"
  refine ⟨front ++ ("scale " ++ Decimal.plainText o.scale), power, ?_⟩
  change front ++ ("scale " ++ Decimal.plainText o.scale ++ (o.mode?.map modePart).getD "" ++
    " power " ++ if o.power = .on then "on" else "off") = _
  simp only [power, String.append_assoc]

/-- The command for a valid output asks for its mode. -/
theorem asks_command {command : String} (ho : o.Valid) (h : command? o = .ok (some command)) :
    Asks o command := by
  rw [command?] at h
  split_ifs at h with hconnected hused
  · cases h
  · obtain rfl := Option.some.inj (Except.ok.inj h)
    exact ⟨fun hu => absurd (hu.symm.trans hused) Bool.noConfusion, fun _ => rfl⟩
  · obtain rfl := Option.some.inj (Except.ok.inj h)
    refine ⟨fun hu => ⟨rfl, ?_⟩, fun hu => absurd hu hused⟩
    obtain ⟨m, hm, -⟩ := ho.fits hu
    obtain ⟨front, back, heq⟩ := exists_enable_eq o
    exact ⟨m, front, back, hm, by rw [heq, hm, Option.map_some, Option.getD_some]⟩

/-- Where a valid configuration is not refused, there is a command for each output that is listed,
and the words are one message of them, if any. -/
theorem exists_commands (hc : ∀ o ∈ c.outputs, o.Valid) (h : words c = .ok ws) :
    ∃ cs, ws = (if cs.isEmpty then [] else ["; ".intercalate cs]) ∧
      List.Forall₂ Asks c.listed cs := by
  obtain ⟨cs, hcs, h⟩ := exists_of_bind_eq_ok h
  refine ⟨cs, (Except.ok.inj h).symm, ?_⟩
  have hlisted : ∀ o ∈ c.listed, o.Valid := fun o ho => hc o (List.mem_filter.mp ho).1
  rw [Configuration.listed_of_valid hc] at hlisted ⊢
  have hcommands := forall₂_commands hcs
  exact (List.forall₂_and_left _ _).mpr ⟨hlisted, hcommands⟩ |>.imp fun _ _ ⟨ho, h⟩ =>
    asks_command ho h

end Sway

namespace Randr

open Decimal (Bounds)

variable {c : Configuration} {modes : Table ModeInfo} {crtcs : Table Crtc} {o : Connector}
  {id : Nat} {fault : HardwareFault} {outputs : List (Nat × Connector)}

/-- Setting up a CRTC for an output fails for the sake of its mode, its CRTC or its place. -/
theorem exists_of_assign_eq_error (h : assign c modes crtcs id o = .error fault) :
    ∃ r, requested? c o = some r ∧ r.used = true ∧
      (chosenMode modes o r = .error fault ∨ chosenCrtc crtcs id o r = .error fault ∨
        coordinate r r.topLeft.x = .error fault ∨ coordinate r r.topLeft.y = .error fault) := by
  rw [assign] at h
  cases hr : requested? c o with
  | none =>
    rw [hr] at h
    cases h
  | some r =>
    refine ⟨r, rfl, ?_⟩
    simp only [hr] at h
    cases hu : r.used with
    | false =>
      rw [if_pos hu] at h
      cases h
    | true =>
      rw [hu, if_neg (by decide)] at h
      refine ⟨rfl, ?_⟩
      obtain hmode | ⟨mode, -, h⟩ := of_bind_eq_error h
      · exact .inl hmode
      · obtain hcrtc | ⟨crtc, -, h⟩ := of_bind_eq_error h
        · exact .inr (.inl hcrtc)
        · obtain hx | ⟨x, -, h⟩ := of_bind_eq_error h
          · exact .inr (.inr (.inl hx))
          · obtain hy | ⟨y, -, h⟩ := of_bind_eq_error h
            · exact .inr (.inr (.inr hy))
            · cases h

/-- A coordinate that fits into sixteen bits is accepted. -/
theorem coordinate_eq_ok {r : Output} {value : Int} (hleast : -32768 ≤ value)
    (hgreatest : value ≤ 32767) : coordinate r value = .ok value :=
  if_pos ⟨hleast, hgreatest⟩

/-- The modes of an output cannot be told if one of their ids is unknown, and for no other
reason. -/
theorem exists_of_admissible_eq_error {l : List Nat} (h : admissible modes l = .error fault) :
    ∃ mode, fault = .garbled (.unknownMode mode) := by
  induction l with
  | nil => cases h
  | cons id l ih =>
    rw [admissible] at h
    split at h
    · exact ⟨id, (Except.error.inj h).symm⟩
    · split at h
      · rename_i hl
        obtain rfl := Except.error.inj h
        exact ih hl
      · cases h

/-- A mode cannot be chosen if an id is unknown, or fewer modes are offered than the index needs. -/
theorem fault_of_chosenMode {r : Output} (h : chosenMode modes o r = .error fault) :
    (∃ mode, fault = .garbled (.unknownMode mode)) ∨
    fault = .unsupported (.noMode r.id r.modeIndex) ∧
      ∃ ids, admissible modes o.modes = .ok ids ∧ ids.length ≤ r.modeIndex := by
  rw [chosenMode] at h
  split at h
  · rename_i hids
    obtain rfl := Except.error.inj h
    exact .inl (exists_of_admissible_eq_error hids)
  · rename_i ids hids
    split at h
    · cases h
    · rename_i hnone
      exact .inr ⟨(Except.error.inj h).symm, ids, hids, List.getElem?_eq_none_iff.mp hnone⟩

/-- A CRTC cannot be chosen if none is free. -/
theorem fault_of_chosenCrtc {r : Output} (h : chosenCrtc crtcs id o r = .error fault) :
    fault = .unsupported (.noFreeCrtc r.id) := by
  rw [chosenCrtc] at h
  split at h
  · cases h
  · split at h
    · cases h
    · exact (Except.error.inj h).symm

/-- Setting up the CRTCs for a valid configuration fails only where a mode is not known, no CRTC is
free for an output, or the server offers fewer modes for an output than the configuration lists. -/
theorem fault_of_updateCrtcs (hc : ∀ o ∈ c.outputs, o.Valid)
    (h : updateCrtcs c modes outputs crtcs = .error fault) :
    ∃ e ∈ outputs, ∃ r, requested? c e.2 = some r ∧ r.used = true ∧
      ((∃ mode, fault = .garbled (.unknownMode mode)) ∨
        fault = .unsupported (.noFreeCrtc r.id) ∨
        fault = .unsupported (.noMode r.id r.modeIndex) ∧
          ∃ ids, admissible modes e.2.modes = .ok ids ∧ ids.length < r.modes.length) := by
  rw [updateCrtcs_eq] at h
  obtain ⟨before, e, after, t, rfl, -, hfault⟩ := exists_of_assignAll_error h
  refine ⟨e, List.mem_append_right _ List.mem_cons_self, ?_⟩
  obtain ⟨r, hr, hu, hcases⟩ := exists_of_assign_eq_error hfault
  refine ⟨r, hr, hu, ?_⟩
  obtain ⟨m, hm, hleft, hright, htop, hbottom⟩ :=
    (hc r (Configuration.mem_of_output? hr)).fits hu
  obtain hmode | hcrtc | hx | hy := hcases
  · refine (fault_of_chosenMode hmode).imp_right fun ⟨hnone, ids, hids, hlength⟩ =>
      .inr ⟨hnone, ids, hids, Nat.lt_of_le_of_lt hlength ?_⟩
    exact (List.getElem?_eq_some_iff.mp hm).1
  · exact .inr (.inl (fault_of_chosenCrtc hcrtc))
  · cases (coordinate_eq_ok hleft (by omega)).symm.trans hx
  · cases (coordinate_eq_ok htop (by omega)).symm.trans hy

end Randr

/-- A configuration is valid exactly if each output by itself is, and what is valid can be
expressed. Where xrandr and sway do not refuse it, every output to be used is asked to show its
mode. A server refuses it neither for a place nor, if it offers as many modes of each output as the
configuration lists, for the index of a mode. -/
theorem expressible_of_valid :
    (∀ c : Configuration, c.defect? = none ↔ ∀ o ∈ c.outputs, o.Valid) ∧
    (∀ c ws, c.defect? = none → Xrandr.words c = .ok ws →
      ∃ groups, ws = groups.flatten ∧ List.Forall₂ Xrandr.Asks c.listed groups) ∧
    (∀ c ws, c.defect? = none → Sway.words c = .ok ws →
      ∃ cs, ws = (if cs.isEmpty then [] else ["; ".intercalate cs]) ∧
        List.Forall₂ Sway.Asks c.listed cs) ∧
    ∀ c modes outputs crtcs fault, c.defect? = none →
      Randr.updateCrtcs c modes outputs crtcs = .error fault →
      (∀ id value, fault ≠ .unsupported (.position id value)) ∧
      ∀ id index, fault = .unsupported (.noMode id index) →
        ∃ e ∈ outputs, ∃ r ids, Randr.requested? c e.2 = some r ∧ r.used = true ∧ r.id = id ∧
          r.modeIndex = index ∧ Randr.admissible modes e.2.modes = .ok ids ∧
          ids.length < r.modes.length := by
  refine ⟨fun _ => Configuration.defect?_eq_none_iff, fun c ws hc h => ?_, fun c ws hc h => ?_,
    fun c modes outputs crtcs fault hc h => ?_⟩
  · exact Xrandr.exists_groups (Configuration.defect?_eq_none_iff.mp hc) h
  · exact Sway.exists_commands (Configuration.defect?_eq_none_iff.mp hc) h
  · obtain ⟨e, he, r, hr, hu, hfault⟩ :=
      Randr.fault_of_updateCrtcs (Configuration.defect?_eq_none_iff.mp hc) h
    obtain ⟨mode, rfl⟩ | rfl | ⟨rfl, ids, hids, hlength⟩ := hfault
    · exact ⟨fun _ _ => nofun, fun _ _ => nofun⟩
    · exact ⟨fun _ _ => nofun, fun _ _ => nofun⟩
    · refine ⟨fun _ _ => nofun, ?_⟩
      rintro _ _ ⟨⟩
      exact ⟨e, he, r, ids, hr, hu, rfl, rfl, hids, hlength⟩

namespace Scenes

/-- An output that is to be used with the second of its modes, and one that is to be dark. -/
def halved : Configuration :=
  ⟨[{ Output.plain "eDP-1" with
      modes := [⟨⟨1920, 1080⟩, 60000⟩, ⟨⟨960, 540⟩, 59990⟩], modeIndex := 1 },
    { Output.plain "DP-1" with used := false }]⟩

/-- The server offers the first of the modes only. -/
theorem expressible_of_valid_halved :
    halved.defect? = none ∧
    (∃ ws groups, Xrandr.words halved = .ok ws ∧ ws = groups.flatten ∧
      List.Forall₂ Xrandr.Asks halved.listed groups) ∧
    (∃ ws cs, Sway.words halved = .ok ws ∧
      ws = (if cs.isEmpty then [] else ["; ".intercalate cs]) ∧
      List.Forall₂ Sway.Asks halved.listed cs) ∧
    Randr.updateCrtcs halved Randr.Scenes.oneMode Randr.Scenes.twins
        (Randr.Scenes.twinCrtcs 0) = .error (.unsupported (.noMode "eDP-1" 1)) ∧
    ∃ e ∈ Randr.Scenes.twins, ∃ r ids, Randr.requested? halved e.2 = some r ∧
      Randr.admissible Randr.Scenes.oneMode e.2.modes = .ok ids ∧ ids.length < r.modes.length := by
  obtain ⟨-, hxrandr, hsway, hrandr⟩ := expressible_of_valid
  have hvalid : halved.defect? = none := by decide +kernel
  have hruns : (do
      let ws ← Xrandr.words halved
      let ws' ← Sway.words halved
      return (ws.length, ws'.length)) = .ok (13, 1) := by decide +kernel
  obtain ⟨ws, hws, hruns⟩ := exists_of_bind_eq_ok hruns
  obtain ⟨ws', hws', -⟩ := exists_of_bind_eq_ok hruns
  have hset : Randr.updateCrtcs halved Randr.Scenes.oneMode Randr.Scenes.twins
      (Randr.Scenes.twinCrtcs 0) = .error (.unsupported (.noMode "eDP-1" 1)) := by decide +kernel
  obtain ⟨groups, hgroups⟩ := hxrandr _ _ hvalid hws
  obtain ⟨cs, hcs⟩ := hsway _ _ hvalid hws'
  obtain ⟨e, he, r, ids, hr, -, -, -, hids, hlength⟩ := (hrandr _ _ _ _ _ hvalid hset).2 _ _ rfl
  exact ⟨hvalid, ⟨ws, groups, hws, hgroups⟩, ⟨ws', cs, hws', hcs⟩, hset, e, he, r, ids, hr, hids,
    hlength⟩

end Scenes

end Displays
