import Displays.Randr.Planning

/-!
# Layouts

The CRTCs that are on make up a layout, which the screen has to hold. A layout that begins at the
origin stays where it is, whatever its modes are and however far it reaches. Any other one is moved
there, which takes that its modes are known and that it reaches no further than the greatest extent;
a screen can hold what was moved.
-/

namespace Displays.Randr

open Decimal (Bounds)

/-- The rectangle that a CRTC scans out, empty if its mode is unknown. -/
def Crtc.picture (modes : Table ModeInfo) (crtc : Crtc) : Rect where
  topLeft := ⟨crtc.x, crtc.y⟩
  size :=
    ⟨(modes.get? crtc.mode).elim 0 ModeInfo.width, (modes.get? crtc.mode).elim 0 ModeInfo.height⟩

/-- The column at which the picture of a CRTC ends. -/
def Crtc.right (modes : Table ModeInfo) (crtc : Crtc) : Int :=
  crtc.x + (crtc.picture modes).size.width

/-- The row at which the picture of a CRTC ends. -/
def Crtc.bottom (modes : Table ModeInfo) (crtc : Crtc) : Int :=
  crtc.y + (crtc.picture modes).size.height

/-- The layout begins at this point: its coordinates are the least of those of the CRTCs. -/
def Begins (l : List Crtc) (p : Point) : Prop :=
  (l.map Crtc.x).min? = some p.x ∧ (l.map Crtc.y).min? = some p.y

/-- The layout ends at this point: its coordinates are the greatest that the CRTCs reach. -/
def Ends (modes : Table ModeInfo) (l : List Crtc) (p : Point) : Prop :=
  (l.map (Crtc.right modes)).max? = some p.x ∧ (l.map (Crtc.bottom modes)).max? = some p.y

/-- The modes of the CRTCs are known. -/
def Known (modes : Table ModeInfo) (l : List Crtc) : Prop :=
  ∀ crtc ∈ l, ∃ m, modes.get? crtc.mode = some m

/-- The CRTC so much further to the left and to the top. -/
def Crtc.moved (p : Point) (crtc : Crtc) : Crtc :=
  { crtc with x := crtc.x - p.x, y := crtc.y - p.y }

/-- The CRTCs, those that are on so much further to the left and to the top. -/
def movedAll (p : Point) (crtcs : Table Crtc) : Table Crtc :=
  crtcs.mapIds fun _ crtc => if crtc.mode = 0 then crtc else crtc.moved p

variable {modes : Table ModeInfo} {crtcs : Table Crtc} {l : List Crtc} {crtc : Crtc} {p q : Point}

section Coordinates

/-- A layout with CRTCs begins somewhere. -/
theorem exists_begins (h : l ≠ []) : ∃ p, Begins l p := by
  cases hx : (l.map Crtc.x).min? with
  | none => exact absurd (List.map_eq_nil_iff.mp (List.min?_eq_none_iff.mp hx)) h
  | some x =>
    cases hy : (l.map Crtc.y).min? with
    | none => exact absurd (List.map_eq_nil_iff.mp (List.min?_eq_none_iff.mp hy)) h
    | some y => exact ⟨⟨x, y⟩, hx, hy⟩

/-- A layout with CRTCs ends somewhere. -/
theorem exists_ends (modes : Table ModeInfo) (h : l ≠ []) : ∃ p, Ends modes l p := by
  cases hx : (l.map (Crtc.right modes)).max? with
  | none => exact absurd (List.map_eq_nil_iff.mp (List.max?_eq_none_iff.mp hx)) h
  | some x =>
    cases hy : (l.map (Crtc.bottom modes)).max? with
    | none => exact absurd (List.map_eq_nil_iff.mp (List.max?_eq_none_iff.mp hy)) h
    | some y => exact ⟨⟨x, y⟩, hx, hy⟩

/-- No CRTC lies before the beginning of the layout, and one lies there in each direction. -/
theorem begins_iff :
    Begins l p ↔ (∃ crtc ∈ l, crtc.x = p.x) ∧ (∃ crtc ∈ l, crtc.y = p.y) ∧
      ∀ crtc ∈ l, p.x ≤ crtc.x ∧ p.y ≤ crtc.y := by
  simp only [Begins, List.min?_eq_some_iff, List.mem_map, forall_exists_index, and_imp,
    forall_apply_eq_imp_iff₂]
  constructor
  · rintro ⟨⟨hx, hxs⟩, ⟨hy, hys⟩⟩
    exact ⟨hx, hy, fun crtc hmem => ⟨hxs crtc hmem, hys crtc hmem⟩⟩
  · rintro ⟨hx, hy, hle⟩
    exact ⟨⟨hx, fun crtc hmem => (hle crtc hmem).1⟩, ⟨hy, fun crtc hmem => (hle crtc hmem).2⟩⟩

/-- A layout begins at one point only. -/
theorem Begins.unique (h : Begins l p) (h' : Begins l q) : p = q := by
  obtain ⟨hx, hy⟩ := h
  obtain ⟨hx', hy'⟩ := h'
  exact (Point.mk.injEq ..).mpr
    ⟨Option.some.inj (hx.symm.trans hx'), Option.some.inj (hy.symm.trans hy')⟩

/-- A CRTC reaches the end of the layout in each direction. -/
theorem Ends.exists_eq (h : Ends modes l q) :
    (∃ crtc ∈ l, crtc.right modes = q.x) ∧ ∃ crtc ∈ l, crtc.bottom modes = q.y :=
  ⟨List.mem_map.mp (List.max?_eq_some_iff.mp h.1).1,
    List.mem_map.mp (List.max?_eq_some_iff.mp h.2).1⟩

/-- No CRTC reaches further than the end of the layout. -/
theorem Ends.le (h : Ends modes l q) :
    ∀ crtc ∈ l, crtc.right modes ≤ q.x ∧ crtc.bottom modes ≤ q.y := fun _ hmem =>
  ⟨(List.max?_eq_some_iff.mp h.1).2 _ (List.mem_map_of_mem hmem),
    (List.max?_eq_some_iff.mp h.2).2 _ (List.mem_map_of_mem hmem)⟩

/-- A picture does not end before it begins. -/
theorem Crtc.le_end (modes : Table ModeInfo) (crtc : Crtc) :
    crtc.x ≤ crtc.right modes ∧ crtc.y ≤ crtc.bottom modes :=
  ⟨Int.le_add_of_nonneg_right (Int.natCast_nonneg _),
    Int.le_add_of_nonneg_right (Int.natCast_nonneg _)⟩

/-- A layout does not end before it begins. -/
theorem Begins.le_ends (hp : Begins l p) (hq : Ends modes l q) : p.x ≤ q.x ∧ p.y ≤ q.y := by
  obtain ⟨⟨a, ha, hqx⟩, ⟨b, hb, hqy⟩⟩ := hq.exists_eq
  obtain ⟨_, _, hle⟩ := begins_iff.mp hp
  have hpx := (hle a ha).1
  have hpy := (hle b hb).2
  have hx := (a.le_end modes).1
  have hy := (b.le_end modes).2
  omega

end Coordinates

section Moving

/-- Moving a CRTC to the left moves its right end as far. -/
theorem Crtc.right_moved (modes : Table ModeInfo) (p : Point) (crtc : Crtc) :
    (crtc.moved p).right modes = crtc.right modes - p.x := by
  simp only [right, picture, moved]
  omega

/-- Moving a CRTC to the top moves its lower end as far. -/
theorem Crtc.bottom_moved (modes : Table ModeInfo) (p : Point) (crtc : Crtc) :
    (crtc.moved p).bottom modes = crtc.bottom modes - p.y := by
  simp only [bottom, picture, moved]
  omega

/-- A layout that is moved begins so much further to the left and to the top. -/
theorem Begins.moved_by (h : Begins l p) (q : Point) :
    Begins (l.map (Crtc.moved q)) ⟨p.x - q.x, p.y - q.y⟩ := by
  obtain ⟨⟨a, ha, hx⟩, ⟨b, hb, hy⟩, hle⟩ := begins_iff.mp h
  refine begins_iff.mpr ⟨⟨_, List.mem_map_of_mem ha, ?_⟩, ⟨_, List.mem_map_of_mem hb, ?_⟩, ?_⟩
  · simp only [Crtc.moved, hx]
  · simp only [Crtc.moved, hy]
  · intro crtc hmem
    obtain ⟨old, hold, rfl⟩ := List.mem_map.mp hmem
    exact ⟨Int.sub_le_sub_right (hle old hold).1 q.x, Int.sub_le_sub_right (hle old hold).2 q.y⟩

/-- A layout that is moved by its beginning begins at the origin. -/
theorem Begins.moved (h : Begins l p) : Begins (l.map (Crtc.moved p)) ⟨0, 0⟩ := by
  have hp := h.moved_by p
  rwa [Int.sub_self, Int.sub_self] at hp

/-- A CRTC can be moved if its mode is known and it does not reach too far. -/
theorem shiftFault?_eq_none_iff :
    shiftFault? modes p.x p.y crtc = none ↔
      (∃ m, modes.get? crtc.mode = some m) ∧ crtc.right modes - p.x ≤ greatestExtent ∧
        crtc.bottom modes - p.y ≤ greatestExtent := by
  rw [shiftFault?, Crtc.right, Crtc.bottom, Crtc.picture]
  cases modes.get? crtc.mode with
  | none => simp only [reduceCtorEq, exists_false, false_and]
  | some m =>
    simp only [ite_eq_left_iff, reduceCtorEq, imp_false, Decidable.not_not, Option.some.injEq,
      exists_eq', true_and, Option.elim_some]
    omega

/-- The CRTCs that are on after a move are those that were, moved. -/
theorem enabled_movedAll (p : Point) (crtcs : Table Crtc) :
    enabled (movedAll p crtcs) = (enabled crtcs).map (Crtc.moved p) := by
  have hmode : ∀ crtc : Crtc, (if crtc.mode = 0 then crtc else crtc.moved p).mode = crtc.mode := by
    intro crtc
    by_cases h : crtc.mode = 0
    · rw [if_pos h]
    · rw [if_neg h]
      rfl
  simp only [enabled, Table.values, movedAll, Table.mapIds, List.map_map, List.filter_map,
    Function.comp_def, hmode]
  refine List.map_congr_left fun e he => if_neg ?_
  exact of_decide_eq_true (List.mem_filter.mp he).2

/-- How a layout comes to the origin: one without CRTCs or that begins there already is left as it
is; any other one fails with what keeps a CRTC from being moved, or is moved. -/
theorem normalizeOrigin_cases (modes : Table ModeInfo) (crtcs : Table Crtc) :
    (enabled crtcs = [] ∧ normalizeOrigin modes crtcs = .ok crtcs) ∨
    (Begins (enabled crtcs) ⟨0, 0⟩ ∧ normalizeOrigin modes crtcs = .ok crtcs) ∨
    ∃ p, Begins (enabled crtcs) p ∧ p ≠ ⟨0, 0⟩ ∧
      ((∃ crtc ∈ enabled crtcs, ∃ fault, shiftFault? modes p.x p.y crtc = some fault ∧
          normalizeOrigin modes crtcs = .error fault) ∨
        ((∀ crtc ∈ enabled crtcs, shiftFault? modes p.x p.y crtc = none) ∧
          normalizeOrigin modes crtcs = .ok (movedAll p crtcs))) := by
  rw [normalizeOrigin]
  by_cases hnil : enabled crtcs = []
  · refine .inl ⟨hnil, ?_⟩
    rw [hnil]
    rfl
  · obtain ⟨p, hp⟩ := exists_begins hnil
    right
    rw [hp.1, hp.2]
    by_cases h0 : p.x = 0 ∧ p.y = 0
    · obtain rfl : p = ⟨0, 0⟩ := Point.mk.injEq .. ▸ h0
      exact .inl ⟨hp, rfl⟩
    · refine .inr ⟨p, hp, fun h => h0 (by rw [h]; exact ⟨rfl, rfl⟩), ?_⟩
      simp only [h0, ite_false]
      cases hf : (enabled crtcs).findSome? (shiftFault? modes p.x p.y) with
      | some fault =>
        obtain ⟨crtc, hmem, hfault⟩ := List.exists_of_findSome?_eq_some hf
        exact .inl ⟨crtc, hmem, fault, hfault, rfl⟩
      | none => exact .inr ⟨List.findSome?_eq_none_iff.mp hf, rfl⟩

end Moving

section Screen

/-- The numbers that sixteen bits without sign hold. -/
theorem mem_unsigned_sixteen {n : Int} : n ∈ Bounds.unsigned 16 ↔ 0 ≤ n ∧ n ≤ 65535 := Iff.rfl

private theorem mapM_area_of_known (h : Known modes l) :
    l.mapM (area modes) = .ok (l.map (Crtc.picture modes)) := by
  induction l with
  | nil => rfl
  | cons crtc l ih =>
    obtain ⟨⟨m, hm⟩, h⟩ := List.forall_mem_cons.mp h
    rw [List.mapM_cons, ih h, area, hm]
    simp only [List.map_cons, Crtc.picture, hm, Option.elim_some]
    rfl

private theorem mapM_area_of_not_known (h : ¬ Known modes l) :
    ∃ crtc ∈ l, modes.get? crtc.mode = none ∧
      l.mapM (area modes) = .error (.garbled (.unknownMode crtc.mode)) := by
  induction l with
  | nil => exact absurd (fun _ hmem => absurd hmem List.not_mem_nil) h
  | cons crtc l ih =>
    rw [List.mapM_cons, area]
    cases hm : modes.get? crtc.mode with
    | none => exact ⟨crtc, List.mem_cons_self, hm, rfl⟩
    | some m =>
      obtain ⟨crtc', hmem, hm', hfault⟩ :=
        ih fun hl => h (List.forall_mem_cons.mpr ⟨⟨m, hm⟩, hl⟩)
      refine ⟨crtc', List.mem_cons_of_mem crtc hmem, hm', ?_⟩
      rw [hfault]
      rfl

/-- The screen of a layout of known modes is as large as the layout, if that fits sixteen bits. -/
theorem screenSize_of_known (outputs : Table Connector) (hknown : Known modes (enabled crtcs))
    (hp : Begins (enabled crtcs) p) (hq : Ends modes (enabled crtcs) q) :
    if q.x - p.x ∈ Bounds.unsigned 16 ∧ q.y - p.y ∈ Bounds.unsigned 16 then
      ∃ physical, screenSize modes outputs crtcs =
        .ok (some ⟨(q.x - p.x).toNat, (q.y - p.y).toNat, physical⟩)
    else screenSize modes outputs crtcs = .error (.unsupported .screenTooLarge) := by
  have hleft : (((enabled crtcs).map (Crtc.picture modes)).map fun a => a.topLeft.x).min? =
      some p.x := by
    rw [List.map_map]
    exact hp.1
  have htop : (((enabled crtcs).map (Crtc.picture modes)).map fun a => a.topLeft.y).min? =
      some p.y := by
    rw [List.map_map]
    exact hp.2
  have hright : (((enabled crtcs).map (Crtc.picture modes)).map fun a =>
      a.topLeft.x + Int.ofNat a.size.width).max? = some q.x := by
    rw [List.map_map]
    exact hq.1
  have hbottom : (((enabled crtcs).map (Crtc.picture modes)).map fun a =>
      a.topLeft.y + Int.ofNat a.size.height).max? = some q.y := by
    rw [List.map_map]
    exact hq.2
  rw [screenSize, mapM_area_of_known hknown]
  simp only [bind, Except.bind, hleft, htop, hright, hbottom]
  by_cases hfits : q.x - p.x ∈ Bounds.unsigned 16 ∧ q.y - p.y ∈ Bounds.unsigned 16
  · simp only [if_pos hfits]
    exact ⟨_, rfl⟩
  · simp only [if_neg hfits]
    rfl

/-- What keeps a layout from being held by a screen: a mode that is unknown, or a size that does not
fit sixteen bits. -/
theorem of_screenSize_error {outputs : Table Connector} {fault : HardwareFault}
    (h : screenSize modes outputs crtcs = .error fault) :
    (∃ crtc ∈ enabled crtcs, modes.get? crtc.mode = none ∧
      fault = .garbled (.unknownMode crtc.mode)) ∨
    fault = .unsupported .screenTooLarge ∧ Known modes (enabled crtcs) ∧
      ∃ p q, Begins (enabled crtcs) p ∧ Ends modes (enabled crtcs) q ∧
        (65535 < q.x - p.x ∨ 65535 < q.y - p.y) := by
  by_cases hknown : Known modes (enabled crtcs)
  · right
    by_cases hnil : enabled crtcs = []
    · rw [screenSize, hnil] at h
      cases h
    · obtain ⟨p, hp⟩ := exists_begins hnil
      obtain ⟨q, hq⟩ := exists_ends modes hnil
      have hsize := screenSize_of_known outputs hknown hp hq
      by_cases hfits : q.x - p.x ∈ Bounds.unsigned 16 ∧ q.y - p.y ∈ Bounds.unsigned 16
      · rw [if_pos hfits] at hsize
        obtain ⟨_, hsize⟩ := hsize
        cases hsize.symm.trans h
      · rw [if_neg hfits] at hsize
        refine ⟨Except.error.inj (h.symm.trans hsize), hknown, p, q, hp, hq, ?_⟩
        obtain ⟨hx, hy⟩ := hp.le_ends hq
        rw [mem_unsigned_sixteen, mem_unsigned_sixteen] at hfits
        omega
  · obtain ⟨crtc, hmem, hm, hfault⟩ := mapM_area_of_not_known hknown
    rw [screenSize, hfault] at h
    exact .inl ⟨crtc, hmem, hm, (Except.error.inj h).symm⟩

/-- A screen can hold a layout that was moved to the origin. -/
theorem screenSize_movedAll (outputs : Table Connector) (hp : Begins (enabled crtcs) p)
    (hmoves : ∀ crtc ∈ enabled crtcs, shiftFault? modes p.x p.y crtc = none) :
    ∃ size, screenSize modes outputs (movedAll p crtcs) = .ok size := by
  cases h : screenSize modes outputs (movedAll p crtcs) with
  | ok size => exact ⟨size, rfl⟩
  | error fault =>
    exfalso
    rcases of_screenSize_error h with ⟨crtc, hmem, hm, _⟩ | ⟨_, _, p', q, hp', hq, hlarge⟩
    · rw [enabled_movedAll] at hmem
      obtain ⟨old, hold, rfl⟩ := List.mem_map.mp hmem
      obtain ⟨⟨m, hm'⟩, _⟩ := shiftFault?_eq_none_iff.mp (hmoves old hold)
      cases hm.symm.trans hm'
    · rw [enabled_movedAll] at hp' hq
      obtain rfl := hp'.unique hp.moved
      obtain ⟨⟨_, ha, hx⟩, ⟨_, hb, hy⟩⟩ := hq.exists_eq
      obtain ⟨a, hold, rfl⟩ := List.mem_map.mp ha
      obtain ⟨b, hold', rfl⟩ := List.mem_map.mp hb
      have hax := (shiftFault?_eq_none_iff.mp (hmoves a hold)).2.1
      have hby := (shiftFault?_eq_none_iff.mp (hmoves b hold')).2.2
      rw [Crtc.right_moved] at hx
      rw [Crtc.bottom_moved] at hy
      simp only [greatestExtent] at hax hby hlarge
      omega

end Screen

end Displays.Randr
