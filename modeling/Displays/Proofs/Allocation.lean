import Displays.Proofs.Lookup
import Displays.Randr.Planning

/-!
# Setting up CRTCs

What a visit to an output does to the CRTCs, and from it what a whole round of visits does. An
output that is to be used keeps the CRTC that drives it, or else takes one that drives nothing. So a
CRTC that drives outputs when the round begins drives the same ones when it ends, set up for the
last visited of those that keep it. A CRTC that drives nothing is left as it is or taken by one
output, which it then drives alone.
-/

namespace Displays.Randr

open Decimal (Bounds)

/-- The CRTC with this id drives the output with this id. -/
def drives (crtcs : Table Crtc) (k id : Nat) : Bool :=
  (crtcs.get? k).any fun crtc => id ∈ crtc.outputs

/-- The configuration has the output used. -/
def isUsed (c : Configuration) (o : Connector) : Bool :=
  (requested? c o).any Output.used

/-- The output is to be used, and its CRTC drives it. -/
def keeps (c : Configuration) (crtcs : Table Crtc) (e : Nat × Connector) : Bool :=
  isUsed c e.2 && drives crtcs e.2.crtc e.1

/-- The output is to be used, and has no CRTC that drives it. -/
def takes (c : Configuration) (crtcs : Table Crtc) (e : Nat × Connector) : Bool :=
  isUsed c e.2 && !drives crtcs e.2.crtc e.1

/-- The configuration has the output used, with an index that stands for this mode among those the
output offers, and at this place, which fits the server. -/
def Connector.Wants (c : Configuration) (modes : Table ModeInfo) (o : Connector) (mode : Nat)
    (place : Point) : Prop :=
  ∃ r ids, requested? c o = some r ∧ r.used = true ∧ admissible modes o.modes = .ok ids ∧
    ids[r.modeIndex]? = some mode ∧ r.topLeft = place ∧
    place.x ∈ Bounds.signed 16 ∧ place.y ∈ Bounds.signed 16

/-- The CRTC is upright and has the mode and the place that are wanted of the output. -/
def Crtc.Suits (c : Configuration) (modes : Table ModeInfo) (o : Connector) (crtc : Crtc) : Prop :=
  o.Wants c modes crtc.mode ⟨crtc.x, crtc.y⟩ ∧ crtc.rotation = upright

section Visit

variable {c : Configuration} {modes : Table ModeInfo} {crtcs : Table Crtc} {e : Nat × Connector}
  {o : Connector} {mode mode' k id : Nat} {place place' : Point} {crtc : Crtc}

/-- A CRTC drives an output exactly if it is there and lists it. -/
theorem drives_iff :
    drives crtcs k id = true ↔ ∃ crtc, crtcs.get? k = some crtc ∧ id ∈ crtc.outputs := by
  simp only [drives, Option.any_eq_true, decide_eq_true_eq]

/-- A CRTC is free exactly if it is there and lists no output. -/
theorem isFree_iff :
    isFree crtcs k = true ↔ ∃ crtc, crtcs.get? k = some crtc ∧ crtc.outputs = [] := by
  simp only [isFree, Option.any_eq_true, List.isEmpty_iff]

/-- What is wanted of an output is wanted of one to be used. -/
theorem isUsed_of_wants (h : o.Wants c modes mode place) : isUsed c o = true := by
  obtain ⟨r, _, hr, hu, _⟩ := h
  simp only [isUsed, hr, Option.any_some, hu]

/-- What is wanted of an output is determined. -/
theorem wants_unique (h : o.Wants c modes mode place) (h' : o.Wants c modes mode' place') :
    mode = mode' ∧ place = place' := by
  obtain ⟨r, ids, hr, _, hids, hmode, hplace, _⟩ := h
  obtain ⟨r', ids', hr', _, hids', hmode', hplace', _⟩ := h'
  obtain rfl := Option.some.inj (hr.symm.trans hr')
  obtain rfl := Except.ok.inj (hids.symm.trans hids')
  exact ⟨Option.some.inj (hmode.symm.trans hmode'), hplace.symm.trans hplace'⟩

/-- Which CRTC is to drive an output: the one that does, or else the first free one that can. -/
theorem chosenCrtc_eq (crtcs : Table Crtc) (id : Nat) (o : Connector) (r : Output) :
    chosenCrtc crtcs id o r =
      if drives crtcs o.crtc id = true then .ok o.crtc
      else
        match o.crtcs.find? (isFree crtcs) with
        | some k => .ok k
        | none => .error (.unsupported (.noFreeCrtc r.id)) := rfl

/-- Where something is wanted of an output, it only takes a CRTC to set up. -/
theorem assign_of_wants {r : Output} (hr : requested? c o = some r)
    (h : o.Wants c modes mode place) :
    assign c modes crtcs id o =
      (chosenCrtc crtcs id o r).map fun k =>
        crtcs.modify k (Crtc.drive id mode place.x place.y) := by
  obtain ⟨r', ids, hr', hu, hids, hmode, rfl, hx, hy⟩ := h
  obtain rfl := Option.some.inj (hr.symm.trans hr')
  have hchosen : chosenMode modes o r = .ok mode := by simp only [chosenMode, hids, hmode]
  simp only [assign, hr, hu, Bool.true_eq_false, ite_false, hchosen, coordinate, hx, hy, ite_true]
  cases chosenCrtc crtcs id o r <;> rfl

private theorem exists_of_chosenMode {r : Output} (h : chosenMode modes o r = .ok mode) :
    ∃ ids, admissible modes o.modes = .ok ids ∧ ids[r.modeIndex]? = some mode := by
  rw [chosenMode] at h
  split at h
  · cases h
  · rename_i ids hids
    split at h
    · rename_i hmode
      exact ⟨ids, hids, hmode.trans (congrArg some (Except.ok.inj h))⟩
    · cases h

private theorem mem_of_coordinate {r : Output} {value x : Int} (h : coordinate r value = .ok x) :
    value ∈ Bounds.signed 16 := by
  by_contra hnot
  rw [coordinate, if_neg hnot] at h
  cases h

/-- An output can be set up only if something is wanted of it that the server can do. -/
theorem wants_of_assign {t : Table Crtc} (hu : isUsed c o = true)
    (h : assign c modes crtcs id o = .ok t) : ∃ mode place, o.Wants c modes mode place := by
  simp only [isUsed, Option.any_eq_true] at hu
  obtain ⟨r, hr, hu⟩ := hu
  simp only [assign, hr, hu, Bool.true_eq_false, ite_false] at h
  obtain ⟨mode, hmode, h⟩ := exists_of_bind_eq_ok h
  obtain ⟨_, _, h⟩ := exists_of_bind_eq_ok h
  obtain ⟨_, hx, h⟩ := exists_of_bind_eq_ok h
  obtain ⟨_, hy, _⟩ := exists_of_bind_eq_ok h
  obtain ⟨ids, hids, hmode⟩ := exists_of_chosenMode hmode
  exact ⟨mode, r.topLeft, r, ids, hr, hu, hids, hmode, rfl, mem_of_coordinate hx,
    mem_of_coordinate hy⟩

/-- A visit to an output: one that is not to be used changes nothing; one of which nothing is wanted
that the server can do fails; any other is driven by the CRTC that it keeps or takes, and fails only
if it finds none to take. -/
theorem assign_cases (c : Configuration) (modes : Table ModeInfo) (crtcs : Table Crtc)
    (e : Nat × Connector) :
    (isUsed c e.2 = false ∧ assign c modes crtcs e.1 e.2 = .ok crtcs) ∨
    (isUsed c e.2 = true ∧ (∀ mode place, ¬ e.2.Wants c modes mode place) ∧
      ∃ fault, assign c modes crtcs e.1 e.2 = .error fault) ∨
    (∃ mode place, e.2.Wants c modes mode place ∧ takes c crtcs e = true ∧
      e.2.crtcs.find? (isFree crtcs) = none ∧
      assign c modes crtcs e.1 e.2 = .error (.unsupported (.noFreeCrtc e.2.id))) ∨
    ∃ mode place k, e.2.Wants c modes mode place ∧
      (keeps c crtcs e = true ∧ k = e.2.crtc ∨
        takes c crtcs e = true ∧ e.2.crtcs.find? (isFree crtcs) = some k) ∧
      assign c modes crtcs e.1 e.2 =
        .ok (crtcs.modify k (Crtc.drive e.1 mode place.x place.y)) := by
  cases hu : isUsed c e.2 with
  | false =>
    refine .inl ⟨rfl, ?_⟩
    cases hr : requested? c e.2 with
    | none => simp only [assign, hr]
    | some r =>
      simp only [isUsed, hr, Option.any_some] at hu
      simp only [assign, hr, hu, ite_true]
  | true =>
    right
    by_cases hw : ∃ mode place, e.2.Wants c modes mode place
    · right
      obtain ⟨mode, place, hw⟩ := hw
      have hid := hw
      obtain ⟨r, _, hr, _⟩ := hid
      have hname : r.id = e.2.id := Configuration.id_of_output? hr
      rw [assign_of_wants hr hw, chosenCrtc_eq]
      by_cases hd : drives crtcs e.2.crtc e.1 = true
      · refine .inr ⟨mode, place, e.2.crtc, hw, .inl ⟨?_, rfl⟩, ?_⟩
        · simp only [keeps, hu, hd, Bool.and_self]
        · rw [if_pos hd]
          rfl
      · have htakes : takes c crtcs e = true := by
          simp only [takes, hu, hd, Bool.not_false, Bool.and_self]
        rw [if_neg hd]
        cases hk : e.2.crtcs.find? (isFree crtcs) with
        | none => exact .inl ⟨mode, place, hw, htakes, rfl, by rw [hname]; rfl⟩
        | some k => exact .inr ⟨mode, place, k, hw, .inr ⟨htakes, rfl⟩, rfl⟩
    · refine .inl ⟨rfl, fun mode place h => hw ⟨mode, place, h⟩, ?_⟩
      cases ha : assign c modes crtcs e.1 e.2 with
      | error fault => exact ⟨fault, rfl⟩
      | ok t => exact absurd (wants_of_assign hu ha) hw

end Visit

namespace Table

variable {α : Type} (t : Table α) (f : α → α) {id k : Nat}

/-- Changing a CRTC changes what is looked up under its id. -/
theorem get?_modify_self : (t.modify id f).get? id = (t.get? id).map f := by
  simp only [get?_modify, ite_true]

/-- Changing a CRTC leaves the other ones alone. -/
theorem get?_modify_of_ne (h : k ≠ id) : (t.modify id f).get? k = t.get? k := by
  simp only [get?_modify, h, ite_false, Option.map_id']

/-- The object with an id is the one that stands with it. -/
theorem get?_eq_some_iff {a : α} : t.get? id = some a ↔ (id, a) ∈ t.entries := by
  obtain ⟨l, hl⟩ := t
  simp only [get?]
  induction l with
  | nil => simp only [List.lookup_nil, reduceCtorEq, List.not_mem_nil]
  | cons e l ih =>
    obtain ⟨k, b⟩ := e
    obtain ⟨hlt, hl⟩ := List.pairwise_cons.mp hl
    by_cases hk : id = k
    · subst hk
      simp only [List.lookup_cons_self, Option.some.injEq, List.mem_cons, Prod.mk.injEq, true_and]
      exact ⟨fun h => .inl h.symm, fun h =>
        (h.resolve_right fun h => Nat.lt_irrefl id (hlt (id, a) h)).symm⟩
    · simp only [List.lookup_cons, beq_false_of_ne hk, ih hl, List.mem_cons, Prod.mk.injEq, hk,
        false_and, false_or]

end Table

section Drive

variable {c : Configuration} {modes : Table ModeInfo} {t : Table Crtc} {o : Connector}
  {id id' k k₀ mode : Nat} {place : Point}

private theorem drives_modify_of_ne {f : Crtc → Crtc} (h : k ≠ k₀) :
    drives (t.modify k₀ f) k id = drives t k id := by
  rw [drives, drives, Table.get?_modify_of_ne t f h]

/-- A CRTC that drives an output is not free. -/
theorem not_isFree_of_drives (h : drives t k id = true) : isFree t k = false := by
  rw [← Bool.not_eq_true, isFree_iff]
  rintro ⟨crtc, hcrtc, hnil⟩
  obtain ⟨crtc', hcrtc', hmem⟩ := drives_iff.mp h
  obtain rfl := Option.some.inj (hcrtc.symm.trans hcrtc')
  exact List.ne_nil_of_mem hmem hnil

/-- A free CRTC that is set up for an output drives this one only, and suits it. -/
theorem exists_drive_of_isFree (hk : isFree t k = true) (hw : o.Wants c modes mode place)
    (id : Nat) :
    ∃ crtc, (t.modify k (Crtc.drive id mode place.x place.y)).get? k = some crtc ∧
      crtc.outputs = [id] ∧ crtc.Suits c modes o := by
  obtain ⟨old, hold, hnil⟩ := isFree_iff.mp hk
  refine ⟨Crtc.drive id mode place.x place.y old, ?_, ?_, hw, rfl⟩
  · rw [Table.get?_modify_self, hold, Option.map_some]
  · simp only [Crtc.drive, hnil, List.not_mem_nil, ite_false, List.nil_append]

/-- What drives outputs once a free CRTC is set up for one. -/
theorem drives_drive_iff (hk₀ : isFree t k₀ = true) (hw : o.Wants c modes mode place) :
    drives (t.modify k₀ (Crtc.drive id mode place.x place.y)) k id' = true ↔
      k = k₀ ∧ id' = id ∨ k ≠ k₀ ∧ drives t k id' = true := by
  by_cases hk : k = k₀
  · subst hk
    obtain ⟨crtc, hcrtc, hout, _⟩ := exists_drive_of_isFree hk₀ hw id
    rw [drives_iff]
    constructor
    · rintro ⟨crtc', hcrtc', hmem⟩
      obtain rfl := Option.some.inj (hcrtc.symm.trans hcrtc')
      exact .inl ⟨rfl, List.mem_singleton.mp (hout ▸ hmem)⟩
    · rintro (⟨_, rfl⟩ | ⟨hne, _⟩)
      · exact ⟨crtc, hcrtc, hout ▸ List.mem_singleton_self id'⟩
      · exact absurd rfl hne
  · rw [drives_modify_of_ne hk]
    exact ⟨fun h => .inr ⟨hk, h⟩, fun h => h.elim (fun h => absurd h.1 hk) And.right⟩

end Drive

/-- The last of the visited outputs that keep a CRTC. -/
def lastKeeper? (c : Configuration) (start : Table Crtc) (visited : List (Nat × Connector))
    (k : Nat) : Option (Nat × Connector) :=
  (visited.filter fun e => keeps c start e && e.2.crtc == k).getLast?

/-- What has become of the CRTCs since the start of a round once these outputs were visited. -/
structure Visited (c : Configuration) (modes : Table ModeInfo) (start : Table Crtc)
    (visited : List (Nat × Connector)) (t : Table Crtc) : Prop where
  /-- No CRTC is added. -/
  missing : ∀ k, start.get? k = none → t.get? k = none
  /-- What drove outputs drives the same ones, set up for the last of those that keep it. -/
  kept : ∀ k crtc, start.get? k = some crtc → crtc.outputs ≠ [] →
    ∃ crtc', t.get? k = some crtc' ∧ crtc'.outputs = crtc.outputs ∧
      (lastKeeper? c start visited k = none → crtc' = crtc) ∧
      ∀ e, lastKeeper? c start visited k = some e → crtc'.Suits c modes e.2
  /-- What drove nothing is as it was, or drives an output that has taken it. -/
  free : ∀ k crtc, start.get? k = some crtc → crtc.outputs = [] →
    t.get? k = some crtc ∨
    ∃ e ∈ visited, takes c start e = true ∧ k ∈ e.2.crtcs ∧
      ∃ crtc', t.get? k = some crtc' ∧ crtc'.outputs = [e.1] ∧ crtc'.Suits c modes e.2
  /-- An output that has to take a CRTC has taken one. -/
  taken : ∀ e ∈ visited, takes c start e = true →
    ∃ k, isFree start k = true ∧ drives t k e.1 = true
  /-- It has taken no other one. -/
  once : ∀ e ∈ visited, ∀ k k', isFree start k = true → isFree start k' = true →
    drives t k e.1 = true → drives t k' e.1 = true → k = k'

namespace Visited

variable {c : Configuration} {modes : Table ModeInfo} {start t t' : Table Crtc}
  {visited l : List (Nat × Connector)} {e : Nat × Connector} {k : Nat} {mode : Nat} {place : Point}

/-- An output that is visited last is the last keeper of the CRTC that it keeps. -/
theorem lastKeeper?_append (c : Configuration) (start : Table Crtc)
    (visited : List (Nat × Connector)) (e : Nat × Connector) (k : Nat) :
    lastKeeper? c start (visited ++ [e]) k =
      if keeps c start e = true ∧ e.2.crtc = k then some e else lastKeeper? c start visited k := by
  rw [lastKeeper?, List.filter_append, List.getLast?_append]
  by_cases h : keeps c start e = true ∧ e.2.crtc = k
  · rw [if_pos h, List.filter_cons_of_pos, List.filter_nil]
    · rfl
    · simpa only [Bool.and_eq_true, beq_iff_eq] using h
  · rw [if_neg h, List.filter_cons_of_neg, List.filter_nil]
    · rfl
    · simpa only [Bool.and_eq_true, beq_iff_eq] using h

/-- Without repetition, an output that is still to be visited was not visited. -/
theorem fst_ne_of_nodup (hd : ((visited ++ e :: l).map Prod.fst).Nodup) :
    ∀ e' ∈ visited, e'.1 ≠ e.1 := by
  intro e' he'
  rw [List.map_append, List.nodup_append] at hd
  exact hd.2.2 _ (List.mem_map_of_mem he') _ (List.mem_map_of_mem List.mem_cons_self)

/-- A round that has visited no output has changed nothing. -/
theorem refl (c : Configuration) (modes : Table ModeInfo) (start : Table Crtc) :
    Visited c modes start [] start where
  missing _ h := h
  kept _ crtc h _ := ⟨crtc, h, rfl, fun _ => rfl, fun _ he => by cases he⟩
  free _ _ h _ := .inl h
  taken _ h := absurd h List.not_mem_nil
  once _ h := absurd h List.not_mem_nil

/-- Only visited outputs are driven by what drove nothing at the start. -/
theorem exists_of_drives_free (hv : Visited c modes start visited t) (hk : isFree start k = true)
    {id : Nat} (hd : drives t k id = true) :
    ∃ e ∈ visited, e.1 = id ∧ takes c start e = true ∧ k ∈ e.2.crtcs ∧
      ∃ crtc, t.get? k = some crtc ∧ crtc.outputs = [id] ∧ crtc.Suits c modes e.2 := by
  obtain ⟨crtc, hcrtc, hnil⟩ := isFree_iff.mp hk
  obtain ⟨crtc', hcrtc', hid⟩ := drives_iff.mp hd
  rcases hv.free k crtc hcrtc hnil with h | ⟨e, he, htakes, hmem, crtc'', h, hout, hsuits⟩
  · obtain rfl := Option.some.inj (h.symm.trans hcrtc')
    rw [hnil] at hid
    exact absurd hid List.not_mem_nil
  · obtain rfl := Option.some.inj (h.symm.trans hcrtc')
    rw [hout, List.mem_singleton] at hid
    subst hid
    exact ⟨e, he, rfl, htakes, hmem, crtc'', h, hout, hsuits⟩

/-- What is free was free at the start. -/
theorem isFree_start (hv : Visited c modes start visited t) (h : isFree t k = true) :
    isFree start k = true := by
  obtain ⟨crtc, hcrtc, hnil⟩ := isFree_iff.mp h
  cases hs : start.get? k with
  | none => simp only [hv.missing k hs, reduceCtorEq] at hcrtc
  | some old =>
    by_cases hold : old.outputs = []
    · exact isFree_iff.mpr ⟨old, hs, hold⟩
    · obtain ⟨crtc', h, hout, _⟩ := hv.kept k old hs hold
      obtain rfl := Option.some.inj (h.symm.trans hcrtc)
      exact absurd (hout.symm.trans hnil) hold

/-- What drives an output drove it at the start, or was free then. -/
theorem drives_cases (hv : Visited c modes start visited t) {id : Nat}
    (hd : drives t k id = true) : drives start k id = true ∨ isFree start k = true := by
  obtain ⟨crtc, hcrtc, hmem⟩ := drives_iff.mp hd
  cases hs : start.get? k with
  | none => simp only [hv.missing k hs, reduceCtorEq] at hcrtc
  | some old =>
    by_cases hold : old.outputs = []
    · exact .inr (isFree_iff.mpr ⟨old, hs, hold⟩)
    · obtain ⟨crtc', h, hout, _⟩ := hv.kept k old hs hold
      obtain rfl := Option.some.inj (h.symm.trans hcrtc)
      exact .inl (drives_iff.mpr ⟨old, hs, hout ▸ hmem⟩)

/-- An output that was not visited has taken nothing. -/
theorem not_drives_free (hv : Visited c modes start visited t) {id : Nat}
    (hnew : ∀ e ∈ visited, e.1 ≠ id) (hk : isFree start k = true) : drives t k id = false := by
  rw [← Bool.not_eq_true]
  intro hd
  obtain ⟨e, he, hid, _⟩ := hv.exists_of_drives_free hk hd
  exact hnew e he hid

/-- An output that did not have to take a CRTC is driven by what drove it at the start. -/
theorem drives_eq_of_not_takes (hv : Visited c modes start visited t) {id : Nat}
    (hnot : ∀ e ∈ visited, e.1 = id → takes c start e = false) (k : Nat) :
    drives t k id = drives start k id := by
  rw [Bool.eq_iff_iff]
  constructor
  · intro hd
    rcases hv.drives_cases hd with h | hfree
    · exact h
    · obtain ⟨e, he, hid, htakes, _⟩ := hv.exists_of_drives_free hfree hd
      rw [hnot e he hid] at htakes
      exact Bool.noConfusion htakes
  · intro hd
    obtain ⟨old, hs, hmem⟩ := drives_iff.mp hd
    obtain ⟨crtc, h, hout, _⟩ := hv.kept k old hs (List.ne_nil_of_mem hmem)
    exact drives_iff.mpr ⟨crtc, h, hout ▸ hmem⟩

/-- An output that was not visited is driven by what drove it at the start. -/
theorem drives_eq (hv : Visited c modes start visited t) {id : Nat}
    (hnew : ∀ e ∈ visited, e.1 ≠ id) (k : Nat) : drives t k id = drives start k id :=
  hv.drives_eq_of_not_takes (fun e he hid => absurd hid (hnew e he)) k

/-- Passing over an output that is not to be used. -/
theorem pass (hv : Visited c modes start visited t) (hnew : ∀ e' ∈ visited, e'.1 ≠ e.1)
    (hu : isUsed c e.2 = false) : Visited c modes start (visited ++ [e]) t where
  missing := hv.missing
  kept k crtc hs hne := by
    have hlast : lastKeeper? c start (visited ++ [e]) k = lastKeeper? c start visited k := by
      rw [lastKeeper?_append, if_neg]
      simp only [keeps, hu, Bool.false_and, Bool.false_eq_true, false_and, not_false_eq_true]
    rw [hlast]
    exact hv.kept k crtc hs hne
  free k crtc hs hnil := by
    rcases hv.free k crtc hs hnil with h | ⟨e', he', h⟩
    · exact .inl h
    · exact .inr ⟨e', List.mem_append_left _ he', h⟩
  taken e' he' htakes := by
    rcases List.mem_append.mp he' with he' | he'
    · exact hv.taken e' he' htakes
    · rw [List.mem_singleton.mp he', takes, hu, Bool.false_and] at htakes
      exact Bool.noConfusion htakes
  once e' he' k k' hk hk' hd hd' := by
    rcases List.mem_append.mp he' with he' | he'
    · exact hv.once e' he' k k' hk hk' hd hd'
    · rw [List.mem_singleton.mp he', hv.not_drives_free hnew hk] at hd
      exact Bool.noConfusion hd

/-- Setting up the CRTC that an output keeps. -/
theorem keep (hv : Visited c modes start visited t) (hnew : ∀ e' ∈ visited, e'.1 ≠ e.1)
    (hkeeps : keeps c start e = true) (hw : e.2.Wants c modes mode place) :
    Visited c modes start (visited ++ [e])
      (t.modify e.2.crtc (Crtc.drive e.1 mode place.x place.y)) := by
  obtain ⟨hu, hd⟩ := Bool.and_eq_true_iff.mp hkeeps
  obtain ⟨old, hold, hmem⟩ := drives_iff.mp hd
  -- What is free is another CRTC than the one that is kept.
  have hne : ∀ k, isFree start k = true → k ≠ e.2.crtc := by
    rintro k hk rfl
    rw [not_isFree_of_drives hd] at hk
    exact Bool.noConfusion hk
  constructor
  · intro k hs
    rw [Table.get?_modify, hv.missing k hs, Option.map_none]
  · intro k crtc hs hbusy
    obtain ⟨crtc', h, hout, hsame, hsuits⟩ := hv.kept k crtc hs hbusy
    rw [lastKeeper?_append]
    by_cases hk : e.2.crtc = k
    · subst hk
      obtain rfl := Option.some.inj (hs.symm.trans hold)
      refine ⟨Crtc.drive e.1 mode place.x place.y crtc', ?_, ?_, ?_, ?_⟩
      · rw [Table.get?_modify_self, h, Option.map_some]
      · rw [Crtc.drive, if_pos (hout ▸ hmem), hout]
      · rw [if_pos ⟨hkeeps, rfl⟩]
        exact fun h => by cases h
      · rw [if_pos ⟨hkeeps, rfl⟩]
        rintro e' ⟨rfl⟩
        exact ⟨hw, rfl⟩
    · rw [if_neg fun h => hk h.2]
      exact ⟨crtc', by rw [Table.get?_modify_of_ne _ _ (Ne.symm hk), h], hout, hsame, hsuits⟩
  · intro k crtc hs hnil
    rw [Table.get?_modify_of_ne _ _ (hne k (isFree_iff.mpr ⟨crtc, hs, hnil⟩))]
    rcases hv.free k crtc hs hnil with h | ⟨e', he', h⟩
    · exact .inl h
    · exact .inr ⟨e', List.mem_append_left _ he', h⟩
  · intro e' he' htakes
    rcases List.mem_append.mp he' with he' | he'
    · obtain ⟨k, hk, hd'⟩ := hv.taken e' he' htakes
      exact ⟨k, hk, by rw [drives_modify_of_ne (hne k hk), hd']⟩
    · rw [List.mem_singleton.mp he', takes, hd, Bool.not_true, Bool.and_false] at htakes
      exact Bool.noConfusion htakes
  · intro e' he' k k' hk hk' hd' hd''
    rw [drives_modify_of_ne (hne k hk)] at hd'
    rw [drives_modify_of_ne (hne k' hk')] at hd''
    rcases List.mem_append.mp he' with he' | he'
    · exact hv.once e' he' k k' hk hk' hd' hd''
    · rw [List.mem_singleton.mp he', hv.not_drives_free hnew hk] at hd'
      exact Bool.noConfusion hd'

/-- Setting up the CRTC that an output takes. -/
theorem take {k₀ : Nat} (hv : Visited c modes start visited t)
    (hnew : ∀ e' ∈ visited, e'.1 ≠ e.1) (htakes : takes c start e = true)
    (hk₀ : isFree t k₀ = true) (hmem : k₀ ∈ e.2.crtcs) (hw : e.2.Wants c modes mode place) :
    Visited c modes start (visited ++ [e])
      (t.modify k₀ (Crtc.drive e.1 mode place.x place.y)) := by
  have hkeeps : keeps c start e = false := by
    obtain ⟨hu, hd⟩ := Bool.and_eq_true_iff.mp htakes
    rw [keeps, hu, Bool.true_and]
    simpa only [Bool.not_eq_true'] using hd
  have hstart := hv.isFree_start hk₀
  obtain ⟨new, hafter, hout, hsuits⟩ := exists_drive_of_isFree hk₀ hw e.1
  constructor
  · intro k hs
    rw [Table.get?_modify, hv.missing k hs, Option.map_none]
  · intro k crtc hs hbusy
    have hne : k ≠ k₀ := by
      rintro rfl
      obtain ⟨_, hs', hnil⟩ := isFree_iff.mp hstart
      exact hbusy (Option.some.inj (hs.symm.trans hs') ▸ hnil)
    rw [Table.get?_modify_of_ne _ _ hne, lastKeeper?_append,
      if_neg fun h => by simp only [hkeeps, Bool.false_eq_true, false_and] at h]
    exact hv.kept k crtc hs hbusy
  · intro k crtc hs hfree
    by_cases hk : k = k₀
    · subst hk
      have he : e ∈ visited ++ [e] := List.mem_append_right _ (List.mem_singleton_self e)
      exact .inr ⟨e, he, htakes, hmem, new, hafter, hout, hsuits⟩
    · rw [Table.get?_modify_of_ne _ _ hk]
      rcases hv.free k crtc hs hfree with h | ⟨e', he', h⟩
      · exact .inl h
      · exact .inr ⟨e', List.mem_append_left _ he', h⟩
  · intro e' he' htakes'
    rcases List.mem_append.mp he' with he' | he'
    · obtain ⟨k, hk, hd⟩ := hv.taken e' he' htakes'
      have hne : k ≠ k₀ := by
        rintro rfl
        rw [not_isFree_of_drives hd] at hk₀
        exact Bool.noConfusion hk₀
      exact ⟨k, hk, (drives_drive_iff hk₀ hw).mpr (.inr ⟨hne, hd⟩)⟩
    · rw [List.mem_singleton.mp he']
      exact ⟨k₀, hstart, (drives_drive_iff hk₀ hw).mpr (.inl ⟨rfl, rfl⟩)⟩
  · intro e' he' k k' hk hk' hd hd'
    rw [drives_drive_iff hk₀ hw] at hd hd'
    rcases List.mem_append.mp he' with he' | he'
    · have hne := hnew e' he'
      simp only [hne, and_false, false_or] at hd hd'
      exact hv.once e' he' k k' hk hk' hd.2 hd'.2
    · rw [List.mem_singleton.mp he', hv.not_drives_free hnew hk] at hd
      rw [List.mem_singleton.mp he', hv.not_drives_free hnew hk'] at hd'
      simp only [and_true, Bool.false_eq_true, and_false, or_false] at hd hd'
      rw [hd, hd']

/-- A visit that succeeds. -/
theorem step (hv : Visited c modes start visited t) (hnew : ∀ e' ∈ visited, e'.1 ≠ e.1)
    (h : assign c modes t e.1 e.2 = .ok t') : Visited c modes start (visited ++ [e]) t' := by
  have hdrives := hv.drives_eq hnew e.2.crtc
  have hkeeps : keeps c t e = keeps c start e := by rw [keeps, keeps, hdrives]
  have htakes : takes c t e = takes c start e := by rw [takes, takes, hdrives]
  rcases assign_cases c modes t e with ⟨hu, ha⟩ | ⟨_, _, _, ha⟩ | ⟨_, _, _, _, _, ha⟩ |
    ⟨mode, place, k, hw, hk, ha⟩
  · obtain rfl := Except.ok.inj (ha.symm.trans h)
    exact hv.pass hnew hu
  · cases ha.symm.trans h
  · cases ha.symm.trans h
  · obtain rfl := Except.ok.inj (ha.symm.trans h)
    rcases hk with ⟨hk, rfl⟩ | ⟨hk, hfind⟩
    · exact hv.keep hnew (hkeeps ▸ hk) hw
    · have hfree : isFree t k = true := by simpa only using List.find?_some hfind
      exact hv.take hnew (htakes ▸ hk) hfree (List.mem_of_find?_eq_some hfind) hw

/-- A round of visits that succeeds. -/
theorem of_assignAll (hv : Visited c modes start visited t)
    (hd : ((visited ++ l).map Prod.fst).Nodup) (h : assignAll c modes t l = .ok t') :
    Visited c modes start (visited ++ l) t' := by
  induction l generalizing visited t with
  | nil =>
    obtain rfl := Except.ok.inj h
    rwa [List.append_nil]
  | cons e l ih =>
    rw [assignAll] at h
    cases ha : assign c modes t e.1 e.2 with
    | error fault =>
      rw [ha] at h
      cases h
    | ok t₁ =>
      rw [ha] at h
      have hnew := fst_ne_of_nodup hd
      rw [List.append_cons] at hd ⊢
      exact ih (hv.step hnew ha) hd h

end Visited

/-- The configuration has the output unused, and a CRTC is named to be released. -/
def releases (c : Configuration) (e : Nat × Connector) : Bool :=
  (requested? c e.2).any (fun r => !r.used) && e.2.crtc != 0

/-- The CRTCs once the outputs that are not to be used have released theirs. -/
def releaseAll (c : Configuration) (outputs : List (Nat × Connector)) (crtcs : Table Crtc) :
    Table Crtc :=
  outputs.foldl (fun t e => release c t e.1 e.2) crtcs

/-- Setting up the CRTCs is a round of releasing followed by a round of assigning. -/
theorem updateCrtcs_eq (c : Configuration) (modes : Table ModeInfo)
    (outputs : List (Nat × Connector)) (crtcs : Table Crtc) :
    updateCrtcs c modes outputs crtcs =
      assignAll c modes (releaseAll c outputs crtcs) outputs := rfl

section Release

variable {c : Configuration} {modes : Table ModeInfo} {crtcs new : Table Crtc}
  {outputs : List (Nat × Connector)} {e : Nat × Connector}

/-- An output that is not to be used is taken off the CRTC that it names. -/
theorem release_eq (c : Configuration) (crtcs : Table Crtc) (e : Nat × Connector) :
    release c crtcs e.1 e.2 =
      if releases c e = true then crtcs.modify e.2.crtc (Crtc.release e.1) else crtcs := by
  rw [release]
  cases hr : requested? c e.2 with
  | none => simp only [releases, hr, Option.any_none, Bool.false_and, Bool.false_eq_true, ite_false]
  | some r =>
    by_cases hu : r.used = true <;> by_cases h0 : e.2.crtc = 0 <;> simp [releases, hr, hu, h0]

/-- Releasing takes away what is released and nothing else. -/
theorem drives_release (c : Configuration) (crtcs : Table Crtc) (e : Nat × Connector) (k id : Nat) :
    drives (release c crtcs e.1 e.2) k id = true ↔
      drives crtcs k id = true ∧ ¬ (releases c e = true ∧ e.1 = id ∧ e.2.crtc = k) := by
  rw [release_eq]
  by_cases hr : releases c e = true
  · rw [if_pos hr]
    by_cases hk : k = e.2.crtc
    · subst hk
      rw [drives_iff, drives_iff, Table.get?_modify_self]
      constructor
      · rintro ⟨_, h, hid⟩
        obtain ⟨crtc, hcrtc, rfl⟩ := Option.map_eq_some_iff.mp h
        obtain ⟨hid, hne⟩ := List.mem_filter.mp hid
        exact ⟨⟨crtc, hcrtc, hid⟩, fun hn => of_decide_eq_true hne hn.2.1.symm⟩
      · rintro ⟨⟨crtc, hcrtc, hid⟩, hn⟩
        refine ⟨crtc.release e.1, by rw [hcrtc, Option.map_some], ?_⟩
        exact List.mem_filter.mpr ⟨hid, decide_eq_true fun h => hn ⟨hr, h.symm, rfl⟩⟩
    · rw [drives_modify_of_ne hk]
      exact ⟨fun h => ⟨h, fun hn => hk hn.2.2.symm⟩, And.left⟩
  · rw [if_neg hr]
    exact ⟨fun h => ⟨h, fun hn => hr hn.1⟩, And.left⟩

/-- What drives an output after the release is what did before, unless the output released it. -/
theorem drives_releaseAll (c : Configuration) (outputs : List (Nat × Connector))
    (crtcs : Table Crtc) (k id : Nat) :
    drives (releaseAll c outputs crtcs) k id = true ↔
      drives crtcs k id = true ∧
      ∀ e ∈ outputs, ¬ (releases c e = true ∧ e.1 = id ∧ e.2.crtc = k) := by
  induction outputs generalizing crtcs with
  | nil =>
    simp only [releaseAll, List.foldl_nil, List.not_mem_nil, IsEmpty.forall_iff, implies_true,
      and_true]
  | cons e outputs ih =>
    have h := ih (release c crtcs e.1 e.2)
    rw [drives_release] at h
    rw [List.forall_mem_cons, ← and_assoc]
    exact h

private theorem releases_of_isUsed (hu : isUsed c e.2 = true) : releases c e = false := by
  simp only [isUsed, Option.any_eq_true] at hu
  obtain ⟨r, hr, hu⟩ := hu
  simp only [releases, hr, Option.any_some, hu, Bool.not_true, Bool.false_and]

/-- Without repetition, entries with one id are one entry. -/
theorem eq_of_fst_eq (hd : (outputs.map Prod.fst).Nodup) {e' : Nat × Connector}
    (he : e ∈ outputs) (he' : e' ∈ outputs) (h : e'.1 = e.1) : e' = e :=
  List.inj_on_of_nodup_map hd he' he h

/-- An output that is to be used releases nothing. -/
theorem drives_releaseAll_of_isUsed (hd : (outputs.map Prod.fst).Nodup) (he : e ∈ outputs)
    (hu : isUsed c e.2 = true) (crtcs : Table Crtc) (k : Nat) :
    drives (releaseAll c outputs crtcs) k e.1 = drives crtcs k e.1 := by
  rw [Bool.eq_iff_iff, drives_releaseAll]
  refine ⟨And.left, fun h => ⟨h, ?_⟩⟩
  rintro e' he' ⟨hr, hid, _⟩
  rw [eq_of_fst_eq hd he he' hid, releases_of_isUsed hu] at hr
  exact Bool.noConfusion hr

/-- The round of releasing takes no CRTC away from an output to be used, so it keeps its own as
before. -/
theorem keeps_releaseAll (hd : (outputs.map Prod.fst).Nodup) (he : e ∈ outputs)
    (crtcs : Table Crtc) :
    keeps c (releaseAll c outputs crtcs) e = keeps c crtcs e := by
  cases hu : isUsed c e.2 with
  | false => simp only [keeps, hu, Bool.false_and]
  | true => rw [keeps, keeps, drives_releaseAll_of_isUsed hd he hu]

/-- The round of releasing does not change which outputs have to take a CRTC. -/
theorem takes_releaseAll (hd : (outputs.map Prod.fst).Nodup) (he : e ∈ outputs)
    (crtcs : Table Crtc) :
    takes c (releaseAll c outputs crtcs) e = takes c crtcs e := by
  cases hu : isUsed c e.2 with
  | false => simp only [takes, hu, Bool.false_and]
  | true => rw [takes, takes, drives_releaseAll_of_isUsed hd he hu]

/-- What has become of the CRTCs once they are as the configuration requests them. -/
theorem visited_updateCrtcs (hd : (outputs.map Prod.fst).Nodup)
    (h : updateCrtcs c modes outputs crtcs = .ok new) :
    Visited c modes (releaseAll c outputs crtcs) outputs new := by
  rw [updateCrtcs_eq] at h
  exact (Visited.refl c modes _).of_assignAll (by rwa [List.nil_append]) h

end Release

end Displays.Randr
