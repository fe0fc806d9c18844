import Displays.Proofs.Sharing

/-!
# Who drives an output

Setting up the CRTCs of a server whose tables agree leaves the CRTC table in order, in whichever
order the outputs are visited. An output to be used is driven by one CRTC, the one that drove it
before or one that was free, can drive it and now drives it alone. An output not to be used is
driven by none, and one that the configuration does not mention by what drove it before. No CRTC
lists an output twice, and one has a mode exactly if it drives outputs.
-/

namespace Displays.Randr

/-- The CRTC lists the output with this id at most once. -/
def Crtc.Once (id : Nat) (crtc : Crtc) : Prop :=
  crtc.outputs.count id ≤ 1

/-- The outputs of a server are driven as the configuration requests. -/
structure Allocated (c : Configuration) (outputs : List (Nat × Connector)) (old new : Table Crtc) :
    Prop where
  /-- One CRTC drives an output to be used: the one that did before, or one of those that can, which
  then drives it alone. -/
  used : ∀ e ∈ outputs, isUsed c e.2 = true →
    ∃ k crtc, new.get? k = some crtc ∧ e.1 ∈ crtc.outputs ∧
      (∀ k', drives new k' e.1 = true → k' = k) ∧
      (drives old k e.1 = true ∨ k ∈ e.2.crtcs ∧ crtc.outputs = [e.1])
  /-- None drives an output not to be used. -/
  unused : ∀ e ∈ outputs, ∀ r, requested? c e.2 = some r → r.used = false →
    ∀ k, drives new k e.1 = false
  /-- What drives an output that is not mentioned is what did before. -/
  unmentioned : ∀ e ∈ outputs, requested? c e.2 = none → ∀ k, drives new k e.1 = drives old k e.1
  /-- No CRTC lists an output twice. -/
  once : ∀ e ∈ outputs, Each (Crtc.Once e.1) new
  /-- A CRTC has a mode exactly if it drives outputs. -/
  lit : Each Crtc.Lit new

section Release

variable {c : Configuration} {modes : Table ModeInfo} {crtcs : Table Crtc}
  {outputs : List (Nat × Connector)} {P : Crtc → Prop} {id : Nat} {crtc : Crtc}

/-- What holds of every CRTC and is kept by a change holds after changing one. -/
theorem Each.modify {f : Crtc → Crtc} (h : Each P crtcs) (hf : ∀ crtc, P crtc → P (f crtc))
    (k : Nat) : Each P (crtcs.modify k f) := by
  intro j crtc hj
  rw [Table.get?_modify] at hj
  obtain ⟨old, hold, rfl⟩ := Option.map_eq_some_iff.mp hj
  have hP := h j old hold
  by_cases hk : j = k
  · rw [if_pos hk]
    exact hf old hP
  · rwa [if_neg hk]

/-- What a release keeps of every CRTC, a round of releases keeps of the table. -/
theorem Each.releaseAll (h : Each P crtcs) (hP : ∀ id crtc, P crtc → P (crtc.release id))
    (c : Configuration) (outputs : List (Nat × Connector)) :
    Each P (releaseAll c outputs crtcs) := by
  induction outputs generalizing crtcs with
  | nil => exact h
  | cons e outputs ih =>
    change Each P (Randr.releaseAll c outputs (release c crtcs e.1 e.2))
    refine ih ?_
    rw [release_eq]
    by_cases hr : releases c e = true
    · rw [if_pos hr]
      exact h.modify (hP e.1) e.2.crtc
    · rwa [if_neg hr]

/-- A CRTC that has released its last output is off. -/
theorem Crtc.Lit.release (h : crtc.Lit) (id : Nat) : (crtc.release id).Lit := by
  by_cases hnil : (crtc.release id).outputs = []
  · have hmode : (crtc.release id).mode = 0 := if_pos hnil
    exact ⟨fun h => absurd hmode h, fun h => absurd hnil h⟩
  · have hmode : (crtc.release id).mode = crtc.mode := if_neg hnil
    have hne : crtc.outputs ≠ [] := by
      intro h0
      rw [Crtc.release, h0] at hnil
      exact hnil rfl
    exact ⟨fun _ => hnil, fun _ => hmode ▸ h.mpr hne⟩

private theorem Crtc.Once.release (h : crtc.Once id) (id' : Nat) : (crtc.release id').Once id :=
  Nat.le_trans (List.filter_sublist.count_le id) h

end Release

section Round

variable {c : Configuration} {modes : Table ModeInfo} {start t crtcs new : Table Crtc}
  {outputs visited l : List (Nat × Connector)} {e : Nat × Connector} {o : Connector} {crtc : Crtc}
  {k id mode : Nat} {place : Point}

/-- The modes that an output offers are those among its own that are known and without double
scan. -/
theorem mem_admissible_iff {ids l : List Nat} (h : admissible modes l = .ok ids) :
    id ∈ ids ↔ id ∈ l ∧ ∃ m, modes.get? id = some m ∧ m.isAdmissible = true := by
  induction l generalizing ids with
  | nil =>
    obtain rfl := Except.ok.inj h
    simp only [List.not_mem_nil, false_and]
  | cons k l ih =>
    rw [admissible] at h
    cases hm : modes.get? k with
    | none =>
      rw [hm] at h
      cases h
    | some m =>
      rw [hm] at h
      cases hl : admissible modes l with
      | error fault =>
        rw [hl] at h
        cases h
      | ok ids' =>
        simp only [hl] at h
        obtain rfl := Except.ok.inj h
        have hids := ih hl
        by_cases ha : m.isAdmissible = true
        · rw [if_pos ha, List.mem_cons, List.mem_cons, hids]
          constructor
          · rintro (rfl | h)
            · exact ⟨.inl rfl, m, hm, ha⟩
            · exact ⟨.inr h.1, h.2⟩
          · rintro ⟨rfl | h, hex⟩
            · exact .inl rfl
            · exact .inr ⟨h, hex⟩
        · rw [if_neg ha, List.mem_cons, hids]
          refine ⟨fun h => ⟨.inr h.1, h.2⟩, ?_⟩
          rintro ⟨rfl | h, m', hm', ha'⟩
          · obtain rfl := Option.some.inj (hm.symm.trans hm')
            exact absurd ha' ha
          · exact ⟨h, m', hm', ha'⟩

/-- A mode that is wanted of an output is known. -/
theorem mode_ne_zero_of_wants (h0 : modes.get? 0 = none) (h : o.Wants c modes mode place) :
    mode ≠ 0 := by
  obtain ⟨r, ids, _, _, hids, hmode, _⟩ := h
  obtain ⟨_, m, hm, _⟩ := (mem_admissible_iff hids).mp (List.mem_of_getElem? hmode)
  rintro rfl
  cases h0.symm.trans hm

namespace Visited

/-- What stands in the table is as it was at the start, or was set up for a visited output: for one
of those it drove already, or for one that it drives alone. -/
theorem cases_of_get? (hv : Visited c modes start visited t) (h : t.get? k = some crtc) :
    start.get? k = some crtc ∨
    ∃ e ∈ visited, crtc.Suits c modes e.2 ∧
      ((∃ old, start.get? k = some old ∧ old.outputs ≠ [] ∧ crtc.outputs = old.outputs) ∨
        crtc.outputs = [e.1]) := by
  cases hs : start.get? k with
  | none => cases (hv.missing k hs).symm.trans h
  | some old =>
    by_cases hold : old.outputs = []
    · rcases hv.free k old hs hold with h' | ⟨e, he, _, _, crtc', h', hout, hsuits⟩
      · exact .inl (h'.symm.trans h)
      · obtain rfl := Option.some.inj (h'.symm.trans h)
        exact .inr ⟨e, he, hsuits, .inr hout⟩
    · obtain ⟨crtc', h', hout, hsame, hsuits⟩ := hv.kept k old hs hold
      obtain rfl := Option.some.inj (h'.symm.trans h)
      cases hlast : lastKeeper? c start visited k with
      | none => exact .inl (congrArg some (hsame hlast).symm)
      | some e =>
        have he := (List.mem_filter.mp (List.mem_of_getLast? hlast)).1
        exact .inr ⟨e, he, hsuits e hlast, .inl ⟨old, rfl, hold, hout⟩⟩

/-- A round keeps the CRTCs such that one has a mode exactly if it drives outputs. -/
theorem lit (hv : Visited c modes start visited t) (h0 : modes.get? 0 = none)
    (h : Each Crtc.Lit start) : Each Crtc.Lit t := by
  intro k crtc hk
  rcases hv.cases_of_get? hk with hs | ⟨e, _, hsuits, hout⟩
  · exact h k crtc hs
  · have hmode : crtc.mode ≠ 0 := mode_ne_zero_of_wants h0 hsuits.1
    have hne : crtc.outputs ≠ [] := by
      rcases hout with ⟨old, _, hold, hout⟩ | hout
      · rwa [hout]
      · rw [hout]
        exact List.cons_ne_nil e.1 []
    exact ⟨fun _ => hne, fun _ => hmode⟩

/-- A round keeps the CRTCs such that none lists the output twice. -/
theorem once_listed (hv : Visited c modes start visited t) (h : Each (Crtc.Once id) start) :
    Each (Crtc.Once id) t := by
  intro k crtc hk
  rcases hv.cases_of_get? hk with hs | ⟨e, _, _, ⟨old, hs, _, hout⟩ | hout⟩
  · exact h k crtc hs
  · rw [Crtc.Once, hout]
    exact h k old hs
  · rw [Crtc.Once, hout]
    exact List.count_le_length

end Visited

namespace Wired

/-- The CRTC that drives an output to be used in the end. -/
theorem exists_owner (hs : Wired modes outputs crtcs)
    (h : updateCrtcs c modes outputs crtcs = .ok new) (he : e ∈ outputs)
    (hu : isUsed c e.2 = true) :
    ∃ k crtc, new.get? k = some crtc ∧ e.1 ∈ crtc.outputs ∧
      (drives crtcs k e.1 = true ∨ k ∈ e.2.crtcs ∧ crtc.outputs = [e.1]) := by
  have hv := visited_updateCrtcs hs.distinct h
  by_cases h0 : e.2.crtc = 0
  · have htakes := (takes_releaseAll hs.distinct he crtcs).trans ((hs.takes_iff he).mpr ⟨hu, h0⟩)
    obtain ⟨k, hk, hd⟩ := hv.taken e he htakes
    obtain ⟨e', he', hid, _, hmem, crtc, hcrtc, hout, _⟩ := hv.exists_of_drives_free hk hd
    obtain rfl := eq_of_fst_eq hs.distinct he he' hid
    exact ⟨k, crtc, hcrtc, hout ▸ List.mem_singleton_self e'.1, .inr ⟨hmem, hout⟩⟩
  · have hd : drives crtcs e.2.crtc e.1 = true := (hs.named e he _).mpr ⟨rfl, h0⟩
    have hd' := (drives_releaseAll_of_isUsed hs.distinct he hu crtcs e.2.crtc).trans hd
    obtain ⟨old, hold, hmem⟩ := drives_iff.mp hd'
    obtain ⟨crtc, hcrtc, hout, _⟩ := hv.kept _ old hold (List.ne_nil_of_mem hmem)
    exact ⟨e.2.crtc, crtc, hcrtc, hout ▸ hmem, .inl hd⟩

/-- What drives an output that is not to be used is what did before, unless it was released. -/
theorem drives_of_not_isUsed (hs : Wired modes outputs crtcs)
    (h : updateCrtcs c modes outputs crtcs = .ok new) (he : e ∈ outputs)
    (hu : isUsed c e.2 = false) :
    drives new k e.1 = true ↔ drives crtcs k e.1 = true ∧ releases c e = false := by
  have hv := visited_updateCrtcs hs.distinct h
  have hnot : ∀ e' ∈ outputs, e'.1 = e.1 → takes c (releaseAll c outputs crtcs) e' = false := by
    intro e' he' hid
    rw [eq_of_fst_eq hs.distinct he he' hid, takes, hu, Bool.false_and]
  rw [hv.drives_eq_of_not_takes hnot, drives_releaseAll]
  refine and_congr_right fun hd => ?_
  have hk := ((hs.named e he k).mp hd).1
  constructor
  · intro hall
    exact Bool.eq_false_iff.mpr fun hr => hall e he ⟨hr, rfl, hk.symm⟩
  · rintro hr e' he' ⟨hr', hid, _⟩
    rw [eq_of_fst_eq hs.distinct he he' hid, hr] at hr'
    exact Bool.noConfusion hr'

end Wired

/-- Where the tables of a server agree and no CRTC lists an output twice, setting up the CRTCs for a
configuration has the outputs driven as it requests. -/
theorem allocated_of_updateCrtcs (hs : Wired modes outputs crtcs)
    (honce : ∀ e ∈ outputs, Each (Crtc.Once e.1) crtcs)
    (h : updateCrtcs c modes outputs crtcs = .ok new) : Allocated c outputs crtcs new := by
  have hv := visited_updateCrtcs hs.distinct h
  constructor
  · intro e he hu
    obtain ⟨k, crtc, hcrtc, hmem, howner⟩ := hs.exists_owner h he hu
    have hk : drives new k e.1 = true := drives_iff.mpr ⟨crtc, hcrtc, hmem⟩
    exact ⟨k, crtc, hcrtc, hmem, fun k' hk' => hs.drives_unique h he hu hk' hk, howner⟩
  · intro e he r hr hunused k
    have hu : isUsed c e.2 = false := by rw [isUsed, hr, Option.any_some, hunused]
    rw [← Bool.not_eq_true, hs.drives_of_not_isUsed h he hu]
    rintro ⟨hd, hnot⟩
    -- What drives the output has an id other than zero, so that the output has released it.
    obtain ⟨rfl, h0⟩ := (hs.named e he k).mp hd
    simp only [releases, hr, Option.any_some, hunused, Bool.not_false, Bool.true_and,
      bne_eq_false_iff_eq] at hnot
    exact h0 hnot
  · intro e he hr k
    have hu : isUsed c e.2 = false := by rw [isUsed, hr, Option.any_none]
    have hnot : releases c e = false := by rw [releases, hr, Option.any_none, Bool.false_and]
    rw [Bool.eq_iff_iff, hs.drives_of_not_isUsed h he hu, and_iff_left hnot]
  · intro e he
    exact hv.once_listed ((honce e he).releaseAll (fun id' _ h => h.release id') c outputs)
  · exact hv.lit hs.mode_ne_zero (hs.lit.releaseAll (fun id _ h => h.release id) c outputs)

end Round

namespace Scenes

/-- The configuration has the second of the twins unused and a third output used; it does not
mention the first one. -/
def handedOver : Configuration :=
  ⟨[{ Output.plain "HDMI-1" with used := false }, .plain "DP-1"]⟩

/-- The twins, and an output that is dark. -/
def threesome : List (Nat × Connector) := twins ++ [(12, { twin "DP-1" with crtc := 0 })]

/-- The tables of the three outputs agree. -/
theorem wired_threesome : Wired oneMode threesome (twinCrtcs 0) :=
  .of_entries (by decide) (by decide) (by decide) rfl

private theorem once_twinCrtcs : ∀ e ∈ threesome, Each (Crtc.Once e.1) (twinCrtcs 0) := by
  intro e _ k crtc h
  simp only [Table.get?_eq_some_iff, twinCrtcs, List.mem_cons, Prod.mk.injEq, List.not_mem_nil,
    or_false] at h
  rcases h with ⟨_, rfl⟩ | ⟨_, rfl⟩
  · exact List.nodup_iff_count_le_one.mp (by decide) e.1
  · exact Nat.zero_le 1

/-- The first twin keeps the CRTC alone, and the third output takes the free one. -/
theorem allocated_of_handedOver :
    Wired oneMode threesome (twinCrtcs 0) ∧
    (∀ e ∈ threesome, Each (Crtc.Once e.1) (twinCrtcs 0)) ∧
    ∃ new, updateCrtcs handedOver oneMode threesome (twinCrtcs 0) = .ok new ∧
      new.entries =
        [(20, ⟨0, 0, 1, upright, [10]⟩), (21, ⟨0, 0, 1, upright, [12]⟩)] ∧
      Allocated handedOver threesome (twinCrtcs 0) new := by
  have hset : updateCrtcs handedOver oneMode threesome (twinCrtcs 0) =
      .ok ⟨[(20, ⟨0, 0, 1, upright, [10]⟩), (21, ⟨0, 0, 1, upright, [12]⟩)], by simp⟩ := by
    decide +kernel
  exact ⟨wired_threesome, once_twinCrtcs, _, hset, rfl,
    allocated_of_updateCrtcs wired_threesome once_twinCrtcs hset⟩

end Scenes

end Displays.Randr
