import Displays.Proofs.Layout

/-!
# Layouts at the origin

A layout of known modes that ends within the greatest extent can be brought to the origin exactly if
it spans no more than the greatest extent. It is moved there as a whole, so that where it lay before
does not matter and there is nothing left to move; and the screen that holds it then is the smallest
one that does.
-/

namespace Displays.Randr

open Decimal (Bounds)

/-- The CRTCs have known modes and end within the greatest extent. -/
def Within (modes : Table ModeInfo) (l : List Crtc) : Prop :=
  ∀ crtc ∈ l, (∃ m, modes.get? crtc.mode = some m) ∧ crtc.right modes ≤ greatestExtent ∧
    crtc.bottom modes ≤ greatestExtent

instance (modes : Table ModeInfo) (l : List Crtc) : Decidable (Within modes l) :=
  decidable_of_iff (∀ crtc ∈ l, (modes.get? crtc.mode).isSome = true ∧
      crtc.right modes ≤ greatestExtent ∧ crtc.bottom modes ≤ greatestExtent) (by
    simp only [Option.isSome_iff_exists]
    rfl)

/-- From where it begins to where it ends, the layout spans no more than the greatest extent. -/
def Compact (modes : Table ModeInfo) (l : List Crtc) : Prop :=
  ∀ p q, Begins l p → Ends modes l q →
    q.x - p.x ≤ greatestExtent ∧ q.y - p.y ≤ greatestExtent

/-- A screen of this width and height holds what the CRTCs show. -/
def Holds (modes : Table ModeInfo) (l : List Crtc) (width height : Nat) : Prop :=
  ∀ crtc ∈ l, 0 ≤ crtc.x ∧ crtc.right modes ≤ width ∧ 0 ≤ crtc.y ∧ crtc.bottom modes ≤ height

/-- What has become of CRTCs that were brought to the origin. -/
structure AtOrigin (modes : Table ModeInfo) (outputs : Table Connector) (old new : Table Crtc) :
    Prop where
  /-- Those that are on have been moved alike. -/
  moved : ∃ p, new = movedAll p old
  /-- The layout begins at the origin. -/
  begins : enabled new ≠ [] → Begins (enabled new) ⟨0, 0⟩
  /-- There is nothing left to move. -/
  again : normalizeOrigin modes new = .ok new
  /-- Nothing takes no screen. -/
  dark : enabled new = [] → screenSize modes outputs new = .ok none
  /-- Anything else takes a screen that holds it, the smallest one in each direction. -/
  lit : enabled new ≠ [] → ∃ size, screenSize modes outputs new = .ok (some size) ∧
    ∀ width height, Holds modes (enabled new) width height ↔
      size.width ≤ width ∧ size.height ≤ height

variable {modes : Table ModeInfo} {crtcs new : Table Crtc} {l : List Crtc} {p q : Point}

section Moving

private theorem movedAll_zero (crtcs : Table Crtc) : movedAll ⟨0, 0⟩ crtcs = crtcs := by
  refine Table.ext ((List.map_congr_left fun e _ => ?_).trans (List.map_id _))
  simp only [Crtc.moved, Int.sub_zero, ite_self, id_eq]

private theorem movedAll_movedAll (p q : Point) (crtcs : Table Crtc) :
    movedAll q (movedAll p crtcs) = movedAll ⟨p.x + q.x, p.y + q.y⟩ crtcs := by
  refine Table.ext ?_
  simp only [movedAll, Table.mapIds, List.map_map]
  refine List.map_congr_left fun e _ => ?_
  by_cases h : e.2.mode = 0
  · simp only [Function.comp_apply, h, ite_true]
  · simp only [Function.comp_apply, h, ite_false, Crtc.moved, Int.sub_sub]

/-- Where nothing is on, nothing is moved. -/
theorem movedAll_of_enabled_eq_nil (h : enabled crtcs = []) (p : Point) :
    movedAll p crtcs = crtcs := by
  refine Table.ext ((List.map_congr_left fun e he => ?_).trans (List.map_id _))
  have hoff := List.filter_eq_nil_iff.mp h e.2 (List.mem_map_of_mem he)
  simp only [ne_eq, decide_not, Bool.not_eq_true', decide_eq_false_iff_not,
    Decidable.not_not] at hoff
  simp only [hoff, ite_true, id_eq]

end Moving

section Compactness

/-- A layout is compact if none of its CRTCs reaches too far from where it begins. -/
theorem compact_iff (hp : Begins l p) :
    Compact modes l ↔ ∀ crtc ∈ l,
      crtc.right modes - p.x ≤ greatestExtent ∧ crtc.bottom modes - p.y ≤ greatestExtent := by
  constructor
  · intro h crtc hmem
    obtain ⟨q, hq⟩ := exists_ends modes (List.ne_nil_of_mem hmem)
    obtain ⟨hx, hy⟩ := h p q hp hq
    obtain ⟨hright, hbottom⟩ := hq.le crtc hmem
    omega
  · intro h p' q hp' hq
    obtain rfl := hp'.unique hp
    obtain ⟨⟨a, ha, hx⟩, ⟨b, hb, hy⟩⟩ := hq.exists_eq
    have hright := (h a ha).1
    have hbottom := (h b hb).2
    omega

private theorem compact_nil : Compact modes [] := by
  rintro p q ⟨hp, _⟩
  cases hp

/-- A layout spans the same when it is moved. -/
theorem compact_map_moved (p : Point) : Compact modes (l.map (Crtc.moved p)) ↔ Compact modes l := by
  by_cases hnil : l = []
  · rw [hnil, List.map_nil]
  · obtain ⟨b, hb⟩ := exists_begins hnil
    rw [compact_iff hb, compact_iff (hb.moved_by p), List.forall_mem_map]
    refine forall₂_congr fun crtc _ => ?_
    simp only [Crtc.right_moved, Crtc.bottom_moved]
    omega

/-- A CRTC of a known mode cannot be moved only if it reaches too far. -/
theorem shiftFault?_eq_some {crtc : Crtc} {fault : HardwareFault}
    (hm : ∃ m, modes.get? crtc.mode = some m) (h : shiftFault? modes p.x p.y crtc = some fault) :
    fault = .unsupported .layoutTooLarge := by
  obtain ⟨m, hm⟩ := hm
  simp only [shiftFault?, hm, Option.ite_none_left_eq_some, Option.some.injEq] at h
  exact h.2.symm

/-- A compact layout is moved to the origin. -/
theorem normalizeOrigin_of_compact (hwithin : Within modes (enabled crtcs))
    (hp : Begins (enabled crtcs) p) (hcompact : Compact modes (enabled crtcs)) :
    normalizeOrigin modes crtcs = .ok (movedAll p crtcs) := by
  rcases normalizeOrigin_cases modes crtcs with ⟨hnil, _⟩ | ⟨hbegins, hsame⟩ |
    ⟨p', hp', _, ⟨crtc, hmem, fault, hfault, _⟩ | ⟨_, hmoved⟩⟩
  · rw [hnil] at hp
    cases hp.1
  · obtain rfl := hp.unique hbegins
    rw [hsame, movedAll_zero]
  · obtain rfl := hp.unique hp'
    have hfits := (compact_iff hp).mp hcompact crtc hmem
    cases hfault.symm.trans (shiftFault?_eq_none_iff.mpr ⟨(hwithin crtc hmem).1, hfits⟩)
  · rwa [hp.unique hp']

/-- A layout that spans too much is refused. -/
theorem normalizeOrigin_of_not_compact (hwithin : Within modes (enabled crtcs))
    (hcompact : ¬ Compact modes (enabled crtcs)) :
    normalizeOrigin modes crtcs = .error (.unsupported .layoutTooLarge) := by
  rcases normalizeOrigin_cases modes crtcs with ⟨hnil, _⟩ | ⟨hbegins, _⟩ |
    ⟨p, hp, _, ⟨crtc, hmem, fault, hfault, herror⟩ | ⟨hmoves, _⟩⟩
  · exact absurd (hnil ▸ compact_nil) hcompact
  · refine absurd ((compact_iff hbegins).mpr fun crtc hmem => ?_) hcompact
    simpa only [Int.sub_zero] using (hwithin crtc hmem).2
  · rw [herror, shiftFault?_eq_some (hwithin crtc hmem).1 hfault]
  · refine absurd ((compact_iff hp).mpr fun crtc hmem => ?_) hcompact
    exact (shiftFault?_eq_none_iff.mp (hmoves crtc hmem)).2

/-- Where a layout lies does not matter. -/
theorem normalizeOrigin_movedAll (hwithin : Within modes (enabled crtcs))
    (hmoved : Within modes (enabled (movedAll p crtcs))) :
    normalizeOrigin modes (movedAll p crtcs) = normalizeOrigin modes crtcs := by
  by_cases hnil : enabled crtcs = []
  · rw [movedAll_of_enabled_eq_nil hnil]
  have hcompact_iff :
      Compact modes (enabled (movedAll p crtcs)) ↔ Compact modes (enabled crtcs) := by
    rw [enabled_movedAll, compact_map_moved]
  by_cases hcompact : Compact modes (enabled crtcs)
  · obtain ⟨b, hb⟩ := exists_begins hnil
    have hb' : Begins (enabled (movedAll p crtcs)) ⟨b.x - p.x, b.y - p.y⟩ := by
      rw [enabled_movedAll]
      exact hb.moved_by p
    have hx : p.x + (b.x - p.x) = b.x := by omega
    have hy : p.y + (b.y - p.y) = b.y := by omega
    rw [normalizeOrigin_of_compact hwithin hb hcompact,
      normalizeOrigin_of_compact hmoved hb' (hcompact_iff.mpr hcompact), movedAll_movedAll, hx, hy]
  · rw [normalizeOrigin_of_not_compact hwithin hcompact,
      normalizeOrigin_of_not_compact hmoved (hcompact ∘ hcompact_iff.mp)]

end Compactness

section Screen

/-- A layout at the origin is held by the screens that reach as far as it does. -/
theorem holds_iff {width height : Nat} (hp : Begins l ⟨0, 0⟩) (hq : Ends modes l q) :
    Holds modes l width height ↔ q.x ≤ width ∧ q.y ≤ height := by
  obtain ⟨_, _, hle⟩ := begins_iff.mp hp
  constructor
  · intro h
    obtain ⟨⟨a, ha, hx⟩, ⟨b, hb, hy⟩⟩ := hq.exists_eq
    exact ⟨hx ▸ (h a ha).2.1, hy ▸ (h b hb).2.2.2⟩
  · rintro ⟨hx, hy⟩ crtc hmem
    obtain ⟨hright, hbottom⟩ := hq.le crtc hmem
    exact ⟨(hle crtc hmem).1, Int.le_trans hright hx, (hle crtc hmem).2, Int.le_trans hbottom hy⟩

/-- The screen of a layout at the origin that ends within the greatest extent. -/
theorem screenSize_of_begins (outputs : Table Connector) (hwithin : Within modes (enabled crtcs))
    (hp : Begins (enabled crtcs) ⟨0, 0⟩) :
    ∃ size, screenSize modes outputs crtcs = .ok (some size) ∧
      ∀ width height, Holds modes (enabled crtcs) width height ↔
        size.width ≤ width ∧ size.height ≤ height := by
  have hnil : enabled crtcs ≠ [] := by
    intro hnil
    rw [hnil] at hp
    cases hp.1
  obtain ⟨q, hq⟩ := exists_ends modes hnil
  obtain ⟨hx0, hy0⟩ := hp.le_ends hq
  obtain ⟨⟨a, ha, hx⟩, ⟨b, hb, hy⟩⟩ := hq.exists_eq
  have hright := (hwithin a ha).2.1
  have hbottom := (hwithin b hb).2.2
  have hsize := screenSize_of_known outputs (fun crtc hmem => (hwithin crtc hmem).1) hp hq
  rw [if_pos] at hsize
  · obtain ⟨physical, hsize⟩ := hsize
    refine ⟨_, hsize, fun width height => ?_⟩
    rw [holds_iff hp hq]
    simp only [Int.sub_zero, Int.toNat_le]
  · simp only [mem_unsigned_sixteen, greatestExtent] at hright hbottom hx0 hy0 ⊢
    omega

/-- A compact layout that was moved by where it begins. -/
theorem atOrigin_movedAll (outputs : Table Connector) (hwithin : Within modes (enabled crtcs))
    (hp : Begins (enabled crtcs) p) (hcompact : Compact modes (enabled crtcs)) :
    AtOrigin modes outputs crtcs (movedAll p crtcs) := by
  have hbegins : Begins (enabled (movedAll p crtcs)) ⟨0, 0⟩ := by
    rw [enabled_movedAll]
    exact hp.moved
  have hwithin' : Within modes (enabled (movedAll p crtcs)) := by
    rw [enabled_movedAll]
    intro crtc hmem
    obtain ⟨old, hold, rfl⟩ := List.mem_map.mp hmem
    rw [Crtc.right_moved, Crtc.bottom_moved]
    exact ⟨(hwithin old hold).1, (compact_iff hp).mp hcompact old hold⟩
  have hcompact' : Compact modes (enabled (movedAll p crtcs)) := by
    rw [enabled_movedAll, compact_map_moved]
    exact hcompact
  have hne : enabled (movedAll p crtcs) ≠ [] := by
    intro hnil
    rw [hnil] at hbegins
    cases hbegins.1
  constructor
  · exact ⟨p, rfl⟩
  · exact fun _ => hbegins
  · rw [normalizeOrigin_of_compact hwithin' hbegins hcompact', movedAll_zero]
  · exact fun hnil => absurd hnil hne
  · exact fun _ => screenSize_of_begins outputs hwithin' hbegins

/-- Nothing that is on is at the origin already. -/
theorem atOrigin_of_enabled_eq_nil (outputs : Table Connector) (hnil : enabled crtcs = []) :
    normalizeOrigin modes crtcs = .ok crtcs ∧ AtOrigin modes outputs crtcs crtcs := by
  have hsame : normalizeOrigin modes crtcs = .ok crtcs := by
    rw [normalizeOrigin, hnil]
    rfl
  refine ⟨hsame, ⟨⟨0, 0⟩, (movedAll_zero crtcs).symm⟩, fun h => absurd hnil h, hsame, fun _ => ?_,
    fun h => absurd hnil h⟩
  rw [screenSize, hnil]
  rfl

/-- CRTCs of known modes that end within the greatest extent can be brought to the origin exactly if
they span no more than it, wherever they lie; the screen then holds them and is no larger than it
has to be. -/
theorem normalizeOrigin_within (hwithin : Within modes (enabled crtcs)) :
    ((∃ new, normalizeOrigin modes crtcs = .ok new) ↔ Compact modes (enabled crtcs)) ∧
    (∀ new, normalizeOrigin modes crtcs = .ok new →
      ∀ outputs, AtOrigin modes outputs crtcs new) ∧
    ∀ p, Within modes (enabled (movedAll p crtcs)) →
      normalizeOrigin modes (movedAll p crtcs) = normalizeOrigin modes crtcs := by
  refine ⟨⟨fun ⟨new, h⟩ => ?_, fun hcompact => ?_⟩, fun new h outputs => ?_,
    fun p hmoved => normalizeOrigin_movedAll hwithin hmoved⟩
  · by_cases hcompact : Compact modes (enabled crtcs)
    · exact hcompact
    · cases h.symm.trans (normalizeOrigin_of_not_compact hwithin hcompact)
  · by_cases hnil : enabled crtcs = []
    · exact ⟨crtcs, (atOrigin_of_enabled_eq_nil ∅ hnil).1⟩
    · obtain ⟨p, hp⟩ := exists_begins hnil
      exact ⟨_, normalizeOrigin_of_compact hwithin hp hcompact⟩
  · by_cases hnil : enabled crtcs = []
    · obtain ⟨hsame, horigin⟩ : normalizeOrigin modes crtcs = .ok crtcs ∧
          AtOrigin modes outputs crtcs crtcs := atOrigin_of_enabled_eq_nil outputs hnil
      obtain rfl := Except.ok.inj (h.symm.trans hsame)
      exact horigin
    · obtain ⟨p, hp⟩ := exists_begins hnil
      by_cases hcompact : Compact modes (enabled crtcs)
      · have hmoved := normalizeOrigin_of_compact hwithin hp hcompact
        obtain rfl := Except.ok.inj (h.symm.trans hmoved)
        exact atOrigin_movedAll outputs hwithin hp hcompact
      · cases h.symm.trans (normalizeOrigin_of_not_compact hwithin hcompact)

end Screen

namespace Scenes

/-- A large and a small mode. -/
def twoModes : Table ModeInfo :=
  ⟨[(1, ⟨1920, 1080, 148500000, 2200, 1125, 0⟩), (2, ⟨1280, 720, 74250000, 1650, 750, 0⟩)], by simp⟩

/-- A CRTC at the origin, one above it to the left, and one that is off. -/
def leftward : Table Crtc :=
  ⟨[(20, ⟨0, 0, 1, upright, [10]⟩), (21, ⟨-1280, -100, 2, upright, [11]⟩),
    (22, ⟨5, 5, 0, upright, []⟩)], by simp⟩

/-- The layout comes to the same place from where it lies and from further away. -/
theorem normalizeOrigin_within_leftward :
    Within twoModes (enabled leftward) ∧ Within twoModes (enabled (movedAll ⟨30, 7⟩ leftward)) ∧
    ∃ new, normalizeOrigin twoModes leftward = .ok new ∧
      (new.get? 20).map Crtc.x = some 1280 ∧ AtOrigin twoModes ∅ leftward new ∧
      normalizeOrigin twoModes (movedAll ⟨30, 7⟩ leftward) = .ok new := by
  have hwithin : Within twoModes (enabled leftward) := by decide
  have hmoved : Within twoModes (enabled (movedAll ⟨30, 7⟩ leftward)) := by decide
  have hset : normalizeOrigin twoModes leftward =
      .ok ⟨[(20, ⟨1280, 100, 1, upright, [10]⟩), (21, ⟨0, 0, 2, upright, [11]⟩),
        (22, ⟨5, 5, 0, upright, []⟩)], by simp⟩ := by rfl
  obtain ⟨_, horigin, hsame⟩ := normalizeOrigin_within hwithin
  exact ⟨hwithin, hmoved, _, hset, by decide, horigin _ hset ∅, (hsame _ hmoved).trans hset⟩

end Scenes

end Displays.Randr
