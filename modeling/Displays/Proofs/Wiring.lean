import Displays.Proofs.Allocation

/-!
# Tables that agree

The outputs of a server name the CRTCs that drive them, and the CRTCs list the outputs they drive.
Where the two agree, what an output names decides whether it keeps a CRTC or has to take one, and in
the end no output to be used is driven by two.
-/

namespace Displays.Randr

/-- Every CRTC of the table is so. -/
def Each (P : Crtc → Prop) (t : Table Crtc) : Prop :=
  ∀ k crtc, t.get? k = some crtc → P crtc

/-- The CRTC has a mode exactly if it drives outputs. -/
def Crtc.Lit (crtc : Crtc) : Prop :=
  crtc.mode ≠ 0 ↔ crtc.outputs ≠ []

instance (crtc : Crtc) : Decidable crtc.Lit :=
  inferInstanceAs (Decidable (crtc.mode ≠ 0 ↔ crtc.outputs ≠ []))

/-- The tables agree: an output is driven by the CRTC that it names and by no other one, zero
standing for none; a CRTC has a mode exactly if it drives outputs; no mode and no CRTC has the id
zero. -/
structure Wired (modes : Table ModeInfo) (outputs : List (Nat × Connector)) (crtcs : Table Crtc) :
    Prop where
  /-- Each output stands once. -/
  distinct : (outputs.map Prod.fst).Nodup
  /-- The CRTC that an output names is the one that drives it. -/
  named : ∀ e ∈ outputs, ∀ k, drives crtcs k e.1 = true ↔ k = e.2.crtc ∧ k ≠ 0
  /-- A CRTC has a mode exactly if it drives outputs. -/
  lit : Each Crtc.Lit crtcs
  /-- No mode has the id zero. -/
  mode_ne_zero : modes.get? 0 = none
  /-- No CRTC has the id zero. -/
  crtc_ne_zero : crtcs.get? 0 = none

namespace Wired

variable {c : Configuration} {modes : Table ModeInfo} {crtcs new : Table Crtc}
  {outputs l : List (Nat × Connector)} {e : Nat × Connector} {k k' : Nat}

/-- The order of the outputs does not matter. -/
theorem perm (hs : Wired modes outputs crtcs) (hl : l.Perm outputs) : Wired modes l crtcs where
  distinct := (hl.map Prod.fst).nodup_iff.mpr hs.distinct
  named e he := hs.named e (hl.mem_iff.mp he)
  lit := hs.lit
  mode_ne_zero := hs.mode_ne_zero
  crtc_ne_zero := hs.crtc_ne_zero

/-- Whether tables agree can be told from their entries. -/
theorem of_entries (hd : (outputs.map Prod.fst).Nodup)
    (hnamed : ∀ e ∈ outputs, (e.2.crtc = 0 ∨ e.2.crtc ∈ crtcs.ids) ∧
      ∀ p ∈ crtcs.entries, e.1 ∈ p.2.outputs ↔ p.1 = e.2.crtc)
    (hlit : ∀ p ∈ crtcs.entries, p.1 ≠ 0 ∧ (p.2.mode ≠ 0 ↔ p.2.outputs ≠ []))
    (h0 : modes.get? 0 = none) : Wired modes outputs crtcs where
  distinct := hd
  named e he k := by
    obtain ⟨hmem, hall⟩ := hnamed e he
    simp only [drives_iff, Table.get?_eq_some_iff]
    constructor
    · rintro ⟨crtc, hk, hid⟩
      exact ⟨(hall (k, crtc) hk).mp hid, (hlit (k, crtc) hk).1⟩
    · rintro ⟨rfl, hne⟩
      obtain ⟨⟨_, crtc⟩, hk, rfl⟩ := List.mem_map.mp (hmem.resolve_left hne)
      exact ⟨crtc, hk, (hall _ hk).mpr rfl⟩
  lit k crtc hk := (hlit (k, crtc) ((Table.get?_eq_some_iff crtcs).mp hk)).2
  mode_ne_zero := h0
  crtc_ne_zero := by
    cases h : crtcs.get? 0 with
    | none => rfl
    | some crtc => exact absurd rfl (hlit (0, crtc) ((Table.get?_eq_some_iff crtcs).mp h)).1

/-- An output keeps a CRTC exactly if it is to be used and names one. -/
theorem keeps_iff (hs : Wired modes outputs crtcs) (he : e ∈ outputs) :
    keeps c crtcs e = true ↔ isUsed c e.2 = true ∧ e.2.crtc ≠ 0 := by
  rw [keeps, Bool.and_eq_true, hs.named e he]
  exact ⟨fun h => ⟨h.1, h.2.2⟩, fun h => ⟨h.1, rfl, h.2⟩⟩

/-- An output has to take a CRTC exactly if it is to be used and names none. -/
theorem takes_iff (hs : Wired modes outputs crtcs) (he : e ∈ outputs) :
    takes c crtcs e = true ↔ isUsed c e.2 = true ∧ e.2.crtc = 0 := by
  have hd := hs.named e he e.2.crtc
  rw [takes, Bool.and_eq_true, Bool.not_eq_true', ← Bool.not_eq_true, hd]
  exact and_congr_right fun _ => ⟨fun h => not_not.mp fun h0 => h ⟨rfl, h0⟩, fun h h' => h'.2 h⟩

/-- In the end only one CRTC drives an output that is to be used. -/
theorem drives_unique (hs : Wired modes outputs crtcs)
    (h : updateCrtcs c modes outputs crtcs = .ok new) (he : e ∈ outputs) (hu : isUsed c e.2 = true)
    (hk : drives new k e.1 = true) (hk' : drives new k' e.1 = true) : k = k' := by
  have hv := visited_updateCrtcs hs.distinct h
  have hstart : ∀ j, drives new j e.1 = true →
      j = e.2.crtc ∧ j ≠ 0 ∨ isFree (releaseAll c outputs crtcs) j = true := by
    intro j hj
    refine (hv.drives_cases hj).imp_left fun hd => ?_
    rw [drives_releaseAll_of_isUsed hs.distinct he hu] at hd
    exact (hs.named e he j).mp hd
  have hzero : ∀ j, drives new j e.1 = true → isFree (releaseAll c outputs crtcs) j = true →
      e.2.crtc = 0 := by
    intro j hj hfree
    obtain ⟨e', he', hid, htakes, _⟩ := hv.exists_of_drives_free hfree hj
    rw [takes_releaseAll hs.distinct he', eq_of_fst_eq hs.distinct he he' hid] at htakes
    exact ((hs.takes_iff he).mp htakes).2
  rcases hstart k hk with ⟨rfl, h0⟩ | hfree <;> rcases hstart k' hk' with ⟨rfl, h0'⟩ | hfree'
  · rfl
  · exact absurd (hzero k' hk' hfree') h0
  · exact absurd (hzero k hk hfree) h0'
  · exact hv.once e he k k' hfree hfree' hk hk'

end Wired

end Displays.Randr
