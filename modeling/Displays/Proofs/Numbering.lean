import Displays.Proofs.Visiting
import Displays.Proofs.WriteBack

/-!
# The numbering of modes

An output is read with the modes that it offers, those among its own without double scan, and the
index of a mode is requested among the same ones. Both number the ids of the modes alike, for every
id that is offered has a mode. So an index selects the mode that was read under it, and the index
that was read selects the id that it was read from. An index beyond the modes that were read is
refused.
-/

namespace Displays.Randr

/-- Exactly one CRTC drives the output with this id, and it has this mode. -/
def DrivenWith (t : Table Crtc) (id mode : Nat) : Prop :=
  ∃ k crtc, t.get? k = some crtc ∧ id ∈ crtc.outputs ∧ crtc.mode = mode ∧
    ∀ k', drives t k' id = true → k' = k

section Reading

variable {modes : Table ModeInfo} {crtcs : Table Crtc} {o : Connector} {r : Output}
  {edid : Option (List UInt8)} {ids : List Nat}

/-- The ids of the modes that are offered can be told once all ids are known. -/
theorem exists_admissible {l : List Nat} (h : ∀ id ∈ l, (modes.get? id).isSome = true) :
    ∃ ids, admissible modes l = .ok ids := by
  induction l with
  | nil => exact ⟨[], rfl⟩
  | cons id l ih =>
    obtain ⟨hid, hl⟩ := List.forall_mem_cons.mp h
    obtain ⟨m, hm⟩ := Option.isSome_iff_exists.mp hid
    obtain ⟨ids, hids⟩ := ih hl
    exact ⟨_, by rw [admissible, hm, hids]⟩

/-- Modes have the indices of their ids if each id has a mode. -/
theorem getElem?_filterMap_get? (h : ∀ id ∈ ids, (modes.get? id).isSome = true) (i : Nat) :
    (ids.filterMap modes.get?)[i]? = ids[i]?.bind modes.get? := by
  induction ids generalizing i with
  | nil => rfl
  | cons id ids ih =>
    obtain ⟨hid, hids⟩ := List.forall_mem_cons.mp h
    obtain ⟨m, hm⟩ := Option.isSome_iff_exists.mp hid
    rw [List.filterMap_cons_some hm]
    cases i with
    | zero => exact hm.symm
    | succ i => exact ih hids i

/-- What is read under an index is the mode of the id with this index among those that are
offered. -/
theorem getElem?_modes_of_toOutput (hids : admissible modes o.modes = .ok ids)
    (h : o.toOutput modes crtcs edid = .ok r) (i : Nat) :
    r.modes[i]? = (ids[i]?.bind modes.get?).map ModeInfo.toMode := by
  rw [Connector.toOutput, hids] at h
  rw [← Except.ok.inj h, List.getElem?_map, getElem?_filterMap_get?]
  intro id hid
  obtain ⟨_, m, hm, _⟩ := (mem_admissible_iff hids).mp hid
  exact Option.isSome_of_eq_some hm

/-- An index that no mode has is not that of an id. -/
theorem getElem?_eq_none_of_toOutput (hids : admissible modes o.modes = .ok ids)
    (h : o.toOutput modes crtcs edid = .ok r) {i : Nat} (hi : r.modes.length ≤ i) :
    ids[i]? = none := by
  have hnone := getElem?_modes_of_toOutput hids h i
  rw [List.getElem?_eq_none hi] at hnone
  cases hid : ids[i]? with
  | none => rfl
  | some id =>
    obtain ⟨_, m, hm, _⟩ := (mem_admissible_iff hids).mp (List.mem_of_getElem? hid)
    rw [hid, Option.bind_some, hm] at hnone
    cases hnone

end Reading

section Writing

variable {c : Configuration} {modes : Table ModeInfo} {crtcs new t : Table Crtc}
  {outputs l : List (Nat × Connector)} {e : Nat × Connector} {x : Output} {ids : List Nat}
  {fault : HardwareFault}

/-- The configuration mentions no other output of the server than this one. -/
def MentionsOnly (c : Configuration) (outputs : List (Nat × Connector)) (e : Nat × Connector) :
    Prop :=
  ∀ e' ∈ outputs, e' ≠ e → requested? c e'.2 = none

/-- Where names do not repeat, a configuration of outputs with one name mentions one output only. -/
theorem mentionsOnly_of_nodup (hnames : (outputs.map fun e => e.2.id).Nodup) (he : e ∈ outputs)
    (hc : ∀ p ∈ c.outputs, p.id = e.2.id) : MentionsOnly c outputs e := by
  intro e' he' hne
  cases hr : requested? c e'.2 with
  | none => rfl
  | some r =>
    have hid : e'.2.id = e.2.id :=
      (Configuration.id_of_output? hr).symm.trans (hc r (Configuration.mem_of_output? hr))
    exact absurd (List.inj_on_of_nodup_map hnames he' he hid) hne

/-- An output that is to be used is the only one that is mentioned. -/
theorem MentionsOnly.eq_of_isUsed (h : MentionsOnly c outputs e) {e' : Nat × Connector}
    (he' : e' ∈ outputs) (hu : isUsed c e'.2 = true) : e' = e := by
  by_contra hne
  rw [isUsed, h e' he' hne, Option.any_none] at hu
  exact Bool.noConfusion hu

/-- An index that no mode has is refused. -/
theorem assign_of_getElem?_eq_none (hx : requested? c e.2 = some x) (hu : x.used = true)
    (hids : admissible modes e.2.modes = .ok ids) (hnone : ids[x.modeIndex]? = none)
    (t : Table Crtc) :
    assign c modes t e.1 e.2 = .error (.unsupported (.noMode x.id x.modeIndex)) := by
  have hchosen : chosenMode modes e.2 x = .error (.unsupported (.noMode x.id x.modeIndex)) := by
    simp only [chosenMode, hids, hnone]
  simp only [assign, hx, hu, Bool.true_eq_false, ite_false, hchosen]
  rfl

/-- A round in which only one output is to be used fails if this one does. -/
theorem MentionsOnly.assignAll_eq_error (h : MentionsOnly c l e) (he : e ∈ l)
    (hfault : ∀ t, assign c modes t e.1 e.2 = .error fault) (t : Table Crtc) :
    assignAll c modes t l = .error fault := by
  induction l with
  | nil => cases he
  | cons e' l ih =>
    by_cases heq : e' = e
    · subst heq
      exact assignAll_cons_error (hfault t)
    · have hpass : assign c modes t e'.1 e'.2 = .ok t := by
        rw [assign, h e' List.mem_cons_self heq]
      rw [assignAll_cons_ok hpass]
      exact ih (fun d hd => h d (List.mem_cons_of_mem e' hd))
        ((List.mem_cons.mp he).resolve_left (Ne.symm heq))

/-- The only output that is mentioned is driven in the end with the id under the requested index. -/
theorem MentionsOnly.exists_drivenWith (honly : MentionsOnly c outputs e)
    (hs : Consistent modes outputs crtcs) (he : e ∈ outputs) (hx : requested? c e.2 = some x)
    (hu : x.used = true) (hids : admissible modes e.2.modes = .ok ids)
    (h : updateCrtcs c modes outputs crtcs = .ok new) :
    ∃ mode, ids[x.modeIndex]? = some mode ∧ DrivenWith new e.1 mode := by
  have hused : isUsed c e.2 = true := by rw [isUsed, hx, Option.any_some, hu]
  obtain ⟨k, crtc, last, hcrtc, hmem, hlast, hsuits⟩ := hs.exists_suits_last h he hused
  -- No other output is to be used, so this one is the last of those that share its CRTC.
  obtain ⟨hlast, hlastUsed, _⟩ := mem_sharing.mp (List.mem_of_getLast? hlast)
  rw [honly.eq_of_isUsed hlast hlastUsed] at hsuits
  obtain ⟨r, ids', hr, _, hids', hmode, _⟩ := hsuits.1
  obtain rfl := Option.some.inj (hx.symm.trans hr)
  obtain rfl := Except.ok.inj (hids.symm.trans hids')
  have hk : drives new k e.1 = true := drives_iff.mpr ⟨crtc, hcrtc, hmem⟩
  exact ⟨crtc.mode, hmode, k, crtc, hcrtc, hmem, rfl,
    fun k' hk' => hs.toWired.drives_unique h he hused hk' hk⟩

/-- Reading and writing number the modes of an output alike, if its ids are known. A configuration
that has only this output used, where it succeeds, has it driven with one of its ids: one without
double scan whose mode was read under the requested index. An index beyond the modes that were read
is refused. The index that was read while a CRTC with a mode that is offered drove the output is
that of this very id. -/
theorem programs_what_was_read (hknown : ∀ id ∈ e.2.modes, (modes.get? id).isSome = true)
    (before : Table Crtc) (edid : Option (List UInt8)) :
    ∃ r, e.2.toOutput modes before edid = .ok r ∧
      ∀ c outputs crtcs x, Consistent modes outputs crtcs → e ∈ outputs →
        MentionsOnly c outputs e → requested? c e.2 = some x → x.used = true →
        (∀ mode, r.modes[x.modeIndex]? = some mode →
          ∀ new, updateCrtcs c modes outputs crtcs = .ok new →
            ∃ id m, DrivenWith new e.1 id ∧ id ∈ e.2.modes ∧ modes.get? id = some m ∧
              m.toMode = mode ∧ m.isAdmissible = true) ∧
        (r.modes.length ≤ x.modeIndex →
          updateCrtcs c modes outputs crtcs =
            .error (.unsupported (.noMode e.2.id x.modeIndex))) ∧
        ∀ crtc, before.get? e.2.crtc = some crtc → crtc.mode ≠ 0 → e.2.Offers modes crtc.mode →
          r.modeIndex < r.modes.length ∧
          (x.modeIndex = r.modeIndex →
            ∀ new, updateCrtcs c modes outputs crtcs = .ok new →
              DrivenWith new e.1 crtc.mode) := by
  obtain ⟨ids, hids⟩ := exists_admissible hknown
  obtain ⟨r, hr⟩ : ∃ r, e.2.toOutput modes before edid = .ok r := ⟨_, by
    rw [Connector.toOutput, hids]⟩
  refine ⟨r, hr, fun c outputs crtcs x hs he honly hx hu => ⟨fun mode hmode new h => ?_,
    fun hlength => ?_, fun crtc hcrtc hlit hoffers => ?_⟩⟩
  · obtain ⟨id, hid, hdriven⟩ := honly.exists_drivenWith hs he hx hu hids h
    obtain ⟨hmem, m, hm, hadmissible⟩ :=
      (mem_admissible_iff hids).mp (List.mem_of_getElem? hid)
    rw [getElem?_modes_of_toOutput hids hr, hid, Option.bind_some, hm, Option.map_some] at hmode
    exact ⟨id, m, hdriven, hmem, hm, Option.some.inj hmode, hadmissible⟩
  · have hname : x.id = e.2.id := Configuration.id_of_output? hx
    rw [updateCrtcs_eq, ← hname]
    exact honly.assignAll_eq_error he (assign_of_getElem?_eq_none hx hu hids
      (getElem?_eq_none_of_toOutput hids hr hlength)) _
  · obtain ⟨_, _, ids', hids', hindex⟩ := toOutput_of_lit hcrtc hlit hr
    obtain rfl := Except.ok.inj (hids.symm.trans hids')
    have hfound : ids[r.modeIndex]? = some crtc.mode := hindex ▸ getElem?_of_offers hids hoffers
    refine ⟨Nat.lt_of_not_le fun hle => ?_, fun hsame new h => ?_⟩
    · cases hfound.symm.trans (getElem?_eq_none_of_toOutput hids hr hle)
    · obtain ⟨id, hid, hdriven⟩ := honly.exists_drivenWith hs he hx hu hids h
      rw [hsame, hfound] at hid
      rwa [Option.some.inj hid]

end Writing

namespace Scenes

/-- A server with an output that has ids twice and a mode with double scan among its own. -/
def repeating : Server where
  modes := ⟨[(1, ⟨1920, 1080, 148500000, 2200, 1125, 0⟩), (2, ⟨320, 200, 12587500, 400, 449, 32⟩),
    (3, ⟨1280, 720, 74250000, 1650, 750, 0⟩)], by simp⟩
  outputs := [
    (10, driven "eDP-1".toUTF8.toList 20 [1, 2, 3, 1, 3]),
    (11, driven "HDMI-1".toUTF8.toList 21 [1])]
  crtcs := ⟨[(20, ⟨0, 0, 3, upright, [10]⟩), (21, ⟨1280, 0, 1, upright, [11]⟩)], by simp⟩

/-- The output is to be used with the mode of this index. -/
def withMode (modeIndex : Nat) : Configuration :=
  ⟨[{ Output.plain "eDP-1" with modeIndex }]⟩

/-- The server with the repeated ids is consistent. -/
theorem consistent_repeating :
    Consistent repeating.modes repeating.outputs repeating.crtcs :=
  ⟨.of_entries (by decide) (by decide) (by decide) rfl, by decide⟩

/-- Of the four modes that are read the third one is the first id again. There is no fifth one, and
the one that was read as current has the third id. -/
theorem programs_what_was_read_repeating :
    let e := (10, driven "eDP-1".toUTF8.toList 20 [1, 2, 3, 1, 3])
    let set i := updateCrtcs (withMode i) repeating.modes repeating.outputs repeating.crtcs
    (∀ id ∈ e.2.modes, (repeating.modes.get? id).isSome = true) ∧
    (repeating.outputs.map fun e => e.2.id).Nodup ∧
    ∃ r, e.2.toOutput repeating.modes repeating.crtcs none = .ok r ∧
      r.modes.length = 4 ∧ r.modeIndex = 1 ∧
      (∃ new id, set 2 = .ok new ∧ DrivenWith new 10 id ∧ id ∈ e.2.modes) ∧
      set 4 = .error (.unsupported (.noMode "eDP-1" 4)) ∧
      ∃ new, set 1 = .ok new ∧ DrivenWith new 10 3 := by
  intro e set
  have hknown : ∀ id ∈ e.2.modes, (repeating.modes.get? id).isSome = true := by decide
  have hnames : (repeating.outputs.map fun e => e.2.id).Nodup := by decide +kernel
  have hname : "eDP-1" = e.2.id := by decide +kernel
  have honly : ∀ i, MentionsOnly (withMode i) repeating.outputs e := fun i =>
    mentionsOnly_of_nodup hnames List.mem_cons_self fun p hp => by
      rw [List.mem_singleton.mp hp]
      exact hname
  have hrequested : ∀ i,
      requested? (withMode i) e.2 = some { Output.plain "eDP-1" with modeIndex := i } := by
    intro i
    rw [requested?, ← hname]
    rfl
  have hread : (e.2.toOutput repeating.modes repeating.crtcs none).toOption.any (fun r =>
      decide (r.modeIndex = 1 ∧ r.modes =
        [⟨⟨1920, 1080⟩, 60000⟩, ⟨⟨1280, 720⟩, 60000⟩, ⟨⟨1920, 1080⟩, 60000⟩,
          ⟨⟨1280, 720⟩, 60000⟩])) = true := by decide +kernel
  obtain ⟨r, hr, hset⟩ := programs_what_was_read hknown repeating.crtcs none
  rw [hr] at hread
  obtain ⟨hindex, hmodes⟩ := of_decide_eq_true hread
  have hset i := hset (withMode i) repeating.outputs repeating.crtcs _ consistent_repeating
    List.mem_cons_self (honly i) (hrequested i) rfl
  have hthird : set 2 = .ok ⟨[(20, ⟨0, 0, 1, upright, [10]⟩), (21, ⟨1280, 0, 1, upright, [11]⟩)],
    by simp⟩ := by decide +kernel
  have hsecond : set 1 = .ok ⟨[(20, ⟨0, 0, 3, upright, [10]⟩), (21, ⟨1280, 0, 1, upright, [11]⟩)],
    by simp⟩ := by decide +kernel
  obtain ⟨id, m, hdriven, hid, _⟩ := (hset 2).1 ⟨⟨1920, 1080⟩, 60000⟩ (by rw [hmodes]; rfl) _ hthird
  have hfifth := (hset 4).2.1 (by rw [hmodes]; decide)
  obtain ⟨_, hcurrent⟩ := (hset 1).2.2 ⟨0, 0, 3, upright, [10]⟩ rfl (by decide)
    ⟨by decide, _, rfl, rfl⟩
  rw [← hname] at hfifth
  exact ⟨hknown, hnames, r, hr, by rw [hmodes]; rfl, hindex, ⟨_, id, hthird, hdriven, hid⟩, hfifth,
    _, hsecond, hcurrent hindex.symm _ hsecond⟩

end Scenes

end Displays.Randr
