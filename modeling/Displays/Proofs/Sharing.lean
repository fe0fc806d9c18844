import Displays.Proofs.Wiring

/-!
# Outputs that share a CRTC

In a consistent server several outputs may be driven by one CRTC and show the same part of the
screen. Each of them keeps the CRTC when it is set up again, so the CRTC has in the end what is
wanted of the last of them in the order of visiting. An output that shares its CRTC with none that
is to be used, or only with such that want the same, is shown as the configuration requests it; one
that shares it with an output visited later is shown as that one, and nothing fails.
-/

namespace Displays.Randr

/-- The server is consistent: its tables agree, and no output has the id zero either. -/
structure Consistent (modes : Table ModeInfo) (outputs : List (Nat × Connector))
    (crtcs : Table Crtc) : Prop extends Wired modes outputs crtcs where
  /-- No output has the id zero. -/
  output_ne_zero : ∀ e ∈ outputs, e.1 ≠ 0

/-- The outputs to be used that share the CRTC of an output, itself among them, in the order of
visiting. -/
def sharing (c : Configuration) (outputs : List (Nat × Connector)) (e : Nat × Connector) :
    List (Nat × Connector) :=
  outputs.filter fun e' =>
    isUsed c e'.2 && (e'.1 == e.1 || e'.2.crtc != 0 && e'.2.crtc == e.2.crtc)

variable {c : Configuration} {modes : Table ModeInfo} {crtcs new : Table Crtc}
  {outputs : List (Nat × Connector)} {e e' : Nat × Connector}

/-- The outputs that share a CRTC are those to be used that name it, and the output itself. -/
theorem mem_sharing : e' ∈ sharing c outputs e ↔
    e' ∈ outputs ∧ isUsed c e'.2 = true ∧ (e'.1 = e.1 ∨ e'.2.crtc ≠ 0 ∧ e'.2.crtc = e.2.crtc) := by
  simp only [sharing, List.mem_filter, Bool.and_eq_true, Bool.or_eq_true, beq_iff_eq, bne_iff_ne]

/-- An output to be used shares with itself at least, so there is a last one. -/
theorem exists_last_sharing (he : e ∈ outputs) (hu : isUsed c e.2 = true) :
    ∃ last, (sharing c outputs e).getLast? = some last := by
  have hmem : e ∈ sharing c outputs e := mem_sharing.mpr ⟨he, hu, .inl rfl⟩
  exact Option.isSome_iff_exists.mp (List.getLast?_isSome.mpr (List.ne_nil_of_mem hmem))

namespace Consistent

/-- The outputs that keep the CRTC of an output are those that share it. -/
theorem lastKeeper?_eq (hs : Consistent modes outputs crtcs) (he : e ∈ outputs)
    (h0 : e.2.crtc ≠ 0) :
    lastKeeper? c (releaseAll c outputs crtcs) outputs e.2.crtc =
      (sharing c outputs e).getLast? := by
  refine congrArg List.getLast? (List.filter_congr fun e' he' => ?_)
  rw [Bool.eq_iff_iff, keeps_releaseAll hs.distinct he', Bool.and_eq_true, hs.toWired.keeps_iff he',
    beq_iff_eq, Bool.and_eq_true, Bool.or_eq_true, Bool.and_eq_true, beq_iff_eq, bne_iff_ne,
    beq_iff_eq]
  constructor
  · rintro ⟨⟨hu, h0'⟩, hk⟩
    exact ⟨hu, .inr ⟨h0', hk⟩⟩
  · rintro ⟨hu, h | h⟩
    · rw [eq_of_fst_eq hs.distinct he he' h] at hu ⊢
      exact ⟨⟨hu, h0⟩, rfl⟩
    · exact ⟨⟨hu, h.1⟩, h.2⟩

/-- An output that names no CRTC shares none. -/
theorem eq_of_mem_sharing (hs : Consistent modes outputs crtcs) (he : e ∈ outputs)
    (h0 : e.2.crtc = 0) (he' : e' ∈ sharing c outputs e) : e' = e := by
  obtain ⟨hmem, _, h | h⟩ := mem_sharing.mp he'
  · exact eq_of_fst_eq hs.distinct he hmem h
  · exact absurd (h.2.trans h0) h.1

/-- The CRTC that drives an output to be used in the end: it suits the last of the outputs that
share the CRTC of this one. -/
theorem exists_suits_last (hs : Consistent modes outputs crtcs)
    (h : updateCrtcs c modes outputs crtcs = .ok new) (he : e ∈ outputs)
    (hu : isUsed c e.2 = true) :
    ∃ k crtc last, new.get? k = some crtc ∧ e.1 ∈ crtc.outputs ∧
      (sharing c outputs e).getLast? = some last ∧ crtc.Suits c modes last.2 := by
  have hv := visited_updateCrtcs hs.distinct h
  obtain ⟨last, hlast⟩ := exists_last_sharing he hu
  by_cases h0 : e.2.crtc = 0
  · have htakes :=
      (takes_releaseAll hs.distinct he crtcs).trans ((hs.toWired.takes_iff he).mpr ⟨hu, h0⟩)
    obtain ⟨k, hk, hd⟩ := hv.taken e he htakes
    obtain ⟨e', he', hid, _, _, crtc, hcrtc, hout, hsuits⟩ := hv.exists_of_drives_free hk hd
    rw [eq_of_fst_eq hs.distinct he he' hid] at hsuits
    rw [← hs.eq_of_mem_sharing he h0 (List.mem_of_getLast? hlast)] at hsuits
    exact ⟨k, crtc, last, hcrtc, hout ▸ List.mem_singleton_self e.1, hlast, hsuits⟩
  · have hkeeps :=
      (keeps_releaseAll hs.distinct he crtcs).trans ((hs.toWired.keeps_iff he).mpr ⟨hu, h0⟩)
    obtain ⟨old, hold, hmem⟩ := drives_iff.mp (Bool.and_eq_true_iff.mp hkeeps).2
    obtain ⟨crtc, hcrtc, hout, _, hsuits⟩ := hv.kept _ old hold (List.ne_nil_of_mem hmem)
    exact ⟨e.2.crtc, crtc, last, hcrtc, hout ▸ hmem, hlast,
      hsuits last ((hs.lastKeeper?_eq he h0).trans hlast)⟩

end Consistent

/-- In a consistent server, every output to be used is driven by one CRTC in the end, which is
upright and has the mode and the place that are wanted of the last visited of the outputs to be used
that share the CRTC of this one. They are what is wanted of the output itself if the outputs that
share its CRTC want nothing else. -/
theorem suits_last_of_sharing (hs : Consistent modes outputs crtcs)
    (h : updateCrtcs c modes outputs crtcs = .ok new) (he : e ∈ outputs)
    (hu : isUsed c e.2 = true) :
    ∃ k crtc, new.get? k = some crtc ∧ e.1 ∈ crtc.outputs ∧
      (∀ k', drives new k' e.1 = true → k' = k) ∧
      (∃ last, (sharing c outputs e).getLast? = some last ∧ crtc.Suits c modes last.2) ∧
      ((∀ e' ∈ sharing c outputs e, ∀ mode place,
          e'.2.Wants c modes mode place → e.2.Wants c modes mode place) →
        crtc.Suits c modes e.2) := by
  obtain ⟨k, crtc, last, hcrtc, hmem, hlast, hsuits⟩ := hs.exists_suits_last h he hu
  have hk : drives new k e.1 = true := drives_iff.mpr ⟨crtc, hcrtc, hmem⟩
  refine ⟨k, crtc, hcrtc, hmem, fun k' hk' => hs.toWired.drives_unique h he hu hk' hk,
    ⟨last, hlast, hsuits⟩, fun hagree => ⟨?_, hsuits.2⟩⟩
  exact hagree last (List.mem_of_getLast? hlast) _ _ hsuits.1

namespace Scenes

/-- The only mode. -/
def oneMode : Table ModeInfo := ⟨[(1, ⟨1920, 1080, 148500000, 2200, 1125, 0⟩)], by decide⟩

/-- An output that shows what one CRTC scans out and could be driven by another one. -/
def twin (name : String) : Connector where
  name := name.toUTF8.toList
  connected := true
  crtc := 20
  crtcs := [20, 21]
  modes := [1]
  size := ⟨0, 0⟩

/-- Two outputs that show the same part of the screen. -/
def twins : List (Nat × Connector) := [(10, twin "eDP-1"), (11, twin "HDMI-1")]

/-- A CRTC at this column that drives the two outputs, and a free one. -/
def twinCrtcs (x : Int) : Table Crtc :=
  ⟨[(20, ⟨x, 0, 1, upright, [10, 11]⟩), (21, ⟨0, 0, 0, upright, []⟩)], by simp⟩

/-- The second output is to lie to the right of the first one. -/
def apart : Configuration :=
  ⟨[.plain "eDP-1", { Output.plain "HDMI-1" with topLeft := ⟨1920, 0⟩ }]⟩

private theorem drives_twinCrtcs {x : Int} {k id : Nat} :
    drives (twinCrtcs x) k id = true ↔ k = 20 ∧ (id = 10 ∨ id = 11) := by
  simp only [drives_iff, Table.get?_eq_some_iff, twinCrtcs, List.mem_cons, Prod.mk.injEq,
    List.not_mem_nil, or_false]
  constructor
  · rintro ⟨_, ⟨rfl, rfl⟩ | ⟨rfl, rfl⟩, hid⟩
    · exact ⟨rfl, by simpa using hid⟩
    · exact absurd hid List.not_mem_nil
  · rintro ⟨rfl, hid⟩
    exact ⟨_, .inl ⟨rfl, rfl⟩, by simpa using hid⟩

/-- The server with the two outputs on one CRTC is consistent. -/
theorem consistent_twins : Consistent oneMode twins (twinCrtcs 0) where
  distinct := by decide
  named := by
    intro e he k
    rw [drives_twinCrtcs]
    rcases List.mem_pair.mp he with rfl | rfl <;> simp [twin] <;> omega
  lit := by
    intro k crtc h
    simp only [Table.get?_eq_some_iff, twinCrtcs, List.mem_cons, Prod.mk.injEq, List.not_mem_nil,
      or_false] at h
    rcases h with ⟨_, rfl⟩ | ⟨_, rfl⟩ <;> decide
  mode_ne_zero := rfl
  crtc_ne_zero := rfl
  output_ne_zero := by decide

/-- The first of the two outputs, the second one being visited later, is shown as the second one. -/
theorem suits_last_of_twins :
    Consistent oneMode twins (twinCrtcs 0) ∧
    updateCrtcs apart oneMode twins (twinCrtcs 0) = .ok (twinCrtcs 1920) ∧
    isUsed apart (twin "eDP-1") = true ∧
    ∃ k crtc, (twinCrtcs 1920).get? k = some crtc ∧ 10 ∈ crtc.outputs ∧
      (∃ last, (sharing apart twins (10, twin "eDP-1")).getLast? = some last ∧
        crtc.Suits apart oneMode last.2) := by
  have hset : updateCrtcs apart oneMode twins (twinCrtcs 0) = .ok (twinCrtcs 1920) := by
    decide +kernel
  have hu : isUsed apart (twin "eDP-1") = true := by decide +kernel
  obtain ⟨k, crtc, hcrtc, hmem, _, hlast, _⟩ :=
    suits_last_of_sharing consistent_twins hset List.mem_cons_self hu
  exact ⟨consistent_twins, hset, hu, k, crtc, hcrtc, hmem, hlast⟩

/-- A CRTC suits an output only where the output is requested to lie. -/
theorem not_suits_of_place {o : Connector} {crtc : Crtc} (place : Point)
    (ho : (requested? c o).map Output.topLeft = some place) (hx : crtc.x ≠ place.x) :
    ¬ crtc.Suits c modes o := by
  rintro ⟨⟨r, _, hr, _, _, _, hplace, _⟩, _⟩
  rw [hr, Option.map_some, hplace, Option.some.injEq] at ho
  exact hx (congrArg Point.x ho)

/-- Outputs that share a CRTC cannot be set apart: the CRTC is set up for both of them, without a
fault, and in whichever order they are visited, one of them does not lie where it is requested. -/
theorem twins_not_set_apart :
    Consistent oneMode twins (twinCrtcs 0) ∧
    (updateCrtcs apart oneMode twins (twinCrtcs 0) = .ok (twinCrtcs 1920) ∧
      isUsed apart (twin "eDP-1") = true ∧
      ∀ k crtc, (twinCrtcs 1920).get? k = some crtc → 10 ∈ crtc.outputs →
        ¬ crtc.Suits apart oneMode (twin "eDP-1")) ∧
    (updateCrtcs apart oneMode twins.reverse (twinCrtcs 0) = .ok (twinCrtcs 0) ∧
      isUsed apart (twin "HDMI-1") = true ∧
      ∀ k crtc, (twinCrtcs 0).get? k = some crtc → 11 ∈ crtc.outputs →
        ¬ crtc.Suits apart oneMode (twin "HDMI-1")) := by
  have hplace : ∀ x k crtc id,
      (twinCrtcs x).get? k = some crtc → id ∈ crtc.outputs → crtc.x = x := by
    intro x k crtc id h hid
    simp only [Table.get?_eq_some_iff, twinCrtcs, List.mem_cons, Prod.mk.injEq, List.not_mem_nil,
      or_false] at h
    rcases h with ⟨_, rfl⟩ | ⟨_, rfl⟩
    · rfl
    · exact absurd hid List.not_mem_nil
  refine ⟨consistent_twins, ⟨by decide +kernel, by decide +kernel, ?_⟩,
    by decide +kernel, by decide +kernel, ?_⟩
  · intro k crtc hcrtc hid
    refine not_suits_of_place ⟨0, 0⟩ (by decide +kernel) ?_
    rw [hplace _ k crtc 10 hcrtc hid]
    decide
  · intro k crtc hcrtc hid
    refine not_suits_of_place ⟨1920, 0⟩ (by decide +kernel) ?_
    rw [hplace _ k crtc 11 hcrtc hid]
    decide

end Scenes

end Displays.Randr
