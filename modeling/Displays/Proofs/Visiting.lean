import Displays.Proofs.Sharing
import Mathlib.Data.Finset.Card
import Mathlib.Data.List.Perm.Basic

/-!
# The order of visiting

The outputs of a server are visited in an arbitrary order. Where no CRTC drives two outputs, the
order decides neither what is released nor what the outputs show if the visits succeed. It can
decide whether they do: an output takes the first free CRTC of those that can drive it, even if
another output, visited later, has no other one. It cannot if the outputs that take a CRTC compete
for the same ones or for none in common, for then the visits succeed exactly if no such group of
outputs exceeds what is free.
-/

namespace Displays.Randr

/-- A CRTC with this mode and place drives the output with this id. -/
def Shows (t : Table Crtc) (id mode : Nat) (place : Point) : Prop :=
  ∃ k crtc, t.get? k = some crtc ∧ id ∈ crtc.outputs ∧ crtc.mode = mode ∧
    ⟨crtc.x, crtc.y⟩ = place

/-- No CRTC drives two outputs. -/
def Alone (t : Table Crtc) : Prop :=
  ∀ k id id', drives t k id = true → drives t k id' = true → id = id'

/-- Those of some CRTCs that are free. -/
def free (t : Table Crtc) (K : Finset Nat) : Finset Nat :=
  K.filter fun k => isFree t k = true

/-- The free CRTCs that can drive an output. -/
def room (t : Table Crtc) (o : Connector) : Finset Nat :=
  free t o.crtcs.toFinset

/-- The number of outputs that have to take one of exactly these CRTCs. -/
def demand (c : Configuration) (start : Table Crtc) (l : List (Nat × Connector)) (K : Finset Nat) :
    Nat :=
  l.countP fun e => takes c start e && decide (room start e.2 = K)

/-- The outputs that have to take a CRTC have room in the same CRTCs or in none in common. -/
def Grouped (c : Configuration) (start : Table Crtc) (l : List (Nat × Connector)) : Prop :=
  ∀ e ∈ l, ∀ e' ∈ l, takes c start e = true → takes c start e' = true →
    room start e.2 = room start e'.2 ∨ Disjoint (room start e.2) (room start e'.2)

section Release

variable {c : Configuration} {outputs outputs' : List (Nat × Connector)}

private theorem Table.modify_comm {α : Type} (t : Table α) {i j : Nat} {f g : α → α}
    (h : ∀ a, f (g a) = g (f a)) : (t.modify i f).modify j g = (t.modify j g).modify i f := by
  refine Table.ext ?_
  simp only [modify, mapIds, List.map_map]
  refine List.map_congr_left fun e _ => ?_
  simp only [Function.comp_apply]
  by_cases hi : e.1 = i
  · by_cases hj : e.1 = j
    · simp only [if_pos hi, if_pos hj, h]
    · simp only [if_pos hi, if_neg hj]
  · simp only [if_neg hi]

/-- A CRTC that two outputs have released is off if it drives no other one. -/
theorem Crtc.release_release_mode (id id' : Nat) (crtc : Crtc) :
    ((crtc.release id).release id').mode =
      if ((crtc.release id).release id').outputs = [] then 0 else crtc.mode := by
  by_cases h : (crtc.release id).outputs = []
  · have h' : ((crtc.release id).release id').outputs = [] := by
      simp only [Crtc.release] at h ⊢
      rw [h, List.filter_nil]
    rw [if_pos h']
    exact if_pos h'
  · have hmode : (crtc.release id).mode = crtc.mode := if_neg h
    rw [← hmode]
    rfl

private theorem Crtc.release_comm (id id' : Nat) (crtc : Crtc) :
    (crtc.release id).release id' = (crtc.release id').release id := by
  have hout :
      ((crtc.release id).release id').outputs = ((crtc.release id').release id).outputs := by
    simp only [Crtc.release, List.filter_filter, Bool.and_comm]
  have hmode : ((crtc.release id).release id').mode = ((crtc.release id').release id).mode := by
    rw [release_release_mode, release_release_mode, hout]
  exact (Crtc.mk.injEq ..).mpr ⟨rfl, rfl, hmode, rfl, hout⟩

/-- What is released does not depend on the order of visiting. -/
theorem releaseAll_perm (c : Configuration) (hp : outputs.Perm outputs') (crtcs : Table Crtc) :
    releaseAll c outputs crtcs = releaseAll c outputs' crtcs := by
  refine hp.foldl_eq' (fun e _ e' _ t => ?_) crtcs
  simp only [release_eq]
  by_cases he : releases c e = true <;> by_cases he' : releases c e' = true <;>
    simp only [he, he', ite_true, Bool.false_eq_true, ite_false]
  exact Table.modify_comm t fun a => Crtc.release_comm e'.1 e.1 a

/-- Releasing CRTCs does not make one drive two outputs. -/
theorem Alone.releaseAll {crtcs : Table Crtc} (h : Alone crtcs) (c : Configuration)
    (outputs : List (Nat × Connector)) : Alone (releaseAll c outputs crtcs) := by
  intro k id id' hid hid'
  rw [drives_releaseAll] at hid hid'
  exact h k id id' hid.1 hid'.1

end Release

namespace Visited

variable {c : Configuration} {modes : Table ModeInfo} {start t : Table Crtc}
  {visited : List (Nat × Connector)} {e : Nat × Connector} {k id mode : Nat} {place : Point}

private theorem of_lastKeeper?_eq_some (h : lastKeeper? c start visited k = some e) :
    e ∈ visited ∧ keeps c start e = true ∧ e.2.crtc = k := by
  obtain ⟨he, hk⟩ := List.mem_filter.mp (List.mem_of_getLast? h)
  rw [Bool.and_eq_true, beq_iff_eq] at hk
  exact ⟨he, hk⟩

private theorem lastKeeper?_eq_none_iff :
    lastKeeper? c start visited k = none ↔
      ∀ e ∈ visited, ¬ (keeps c start e = true ∧ e.2.crtc = k) := by
  simp only [lastKeeper?, List.getLast?_eq_none_iff, List.filter_eq_nil_iff, Bool.and_eq_true,
    beq_iff_eq]

/-- An output that was not visited has to take a CRTC if it had to at the start. -/
theorem takes_eq (hv : Visited c modes start visited t) (hnew : ∀ e' ∈ visited, e'.1 ≠ e.1) :
    takes c t e = takes c start e := by
  rw [takes, takes, hv.drives_eq hnew]

/-- An output of which something is wanted is shown so. -/
theorem shows_of_wants (hv : Visited c modes start visited t) (hd : (visited.map Prod.fst).Nodup)
    (halone : Alone start) (he : e ∈ visited) (hw : e.2.Wants c modes mode place) :
    Shows t e.1 mode place := by
  have hshows : ∀ k crtc, t.get? k = some crtc → e.1 ∈ crtc.outputs → crtc.Suits c modes e.2 →
      Shows t e.1 mode place := by
    intro k crtc hcrtc hmem hsuits
    obtain ⟨rfl, rfl⟩ := wants_unique hw hsuits.1
    exact ⟨k, crtc, hcrtc, hmem, rfl, rfl⟩
  by_cases hdrives : drives start e.2.crtc e.1 = true
  · obtain ⟨old, hold, hmem⟩ := drives_iff.mp hdrives
    obtain ⟨crtc, hcrtc, hout, _, hsuits⟩ := hv.kept _ old hold (List.ne_nil_of_mem hmem)
    have hkeeps : keeps c start e = true := by
      simp only [keeps, isUsed_of_wants hw, hdrives, Bool.and_self]
    cases hlast : lastKeeper? c start visited e.2.crtc with
    | none => exact absurd ⟨hkeeps, rfl⟩ (lastKeeper?_eq_none_iff.mp hlast e he)
    | some last =>
      -- Only this output keeps the CRTC, for no other one is driven by it.
      obtain ⟨hmem', hkeeps', hk⟩ := of_lastKeeper?_eq_some hlast
      have hdrives' := (Bool.and_eq_true_iff.mp hkeeps').2
      rw [hk] at hdrives'
      obtain rfl := eq_of_fst_eq hd he hmem' (halone _ _ _ hdrives' hdrives)
      exact hshows _ crtc hcrtc (hout ▸ hmem) (hsuits last hlast)
  · have htakes : takes c start e = true := by
      simp only [takes, isUsed_of_wants hw, hdrives, Bool.not_false, Bool.and_self]
    obtain ⟨k, hk, hdk⟩ := hv.taken e he htakes
    obtain ⟨e', he', hid, _, _, crtc, hcrtc, hout, hsuits⟩ := hv.exists_of_drives_free hk hdk
    rw [eq_of_fst_eq hd he he' hid] at hsuits
    exact hshows k crtc hcrtc (hout ▸ List.mem_singleton_self e.1) hsuits

/-- What is shown is what is wanted of the visited outputs, and what CRTCs that none of them keeps
showed before. -/
theorem shows_iff (hv : Visited c modes start visited t) (hd : (visited.map Prod.fst).Nodup)
    (halone : Alone start) :
    Shows t id mode place ↔
      (∃ e ∈ visited, e.1 = id ∧ e.2.Wants c modes mode place) ∨
      ∃ k crtc, start.get? k = some crtc ∧ id ∈ crtc.outputs ∧ crtc.mode = mode ∧
        ⟨crtc.x, crtc.y⟩ = place ∧ ∀ e ∈ visited, ¬ (keeps c start e = true ∧ e.2.crtc = k) := by
  constructor
  · rintro ⟨k, crtc, hcrtc, hmem, rfl, rfl⟩
    have hdrives : drives t k id = true := drives_iff.mpr ⟨crtc, hcrtc, hmem⟩
    rcases hv.drives_cases hdrives with hbusy | hfree
    · obtain ⟨old, hold, hmem'⟩ := drives_iff.mp hbusy
      obtain ⟨crtc', hcrtc', _, hsame, hsuits⟩ := hv.kept k old hold (List.ne_nil_of_mem hmem')
      obtain rfl := Option.some.inj (hcrtc.symm.trans hcrtc')
      cases hlast : lastKeeper? c start visited k with
      | none =>
        obtain rfl := hsame hlast
        exact .inr ⟨k, crtc, hold, hmem, rfl, rfl, lastKeeper?_eq_none_iff.mp hlast⟩
      | some last =>
        obtain ⟨hl, hkeeps, rfl⟩ := of_lastKeeper?_eq_some hlast
        have hid := halone _ _ _ (Bool.and_eq_true_iff.mp hkeeps).2 hbusy
        exact .inl ⟨last, hl, hid, (hsuits last hlast).1⟩
    · obtain ⟨e, he, hid, _, _, crtc', hcrtc', _, hsuits⟩ := hv.exists_of_drives_free hfree hdrives
      obtain rfl := Option.some.inj (hcrtc.symm.trans hcrtc')
      exact .inl ⟨e, he, hid, hsuits.1⟩
  · rintro (⟨e, he, rfl, hw⟩ | ⟨k, crtc, hcrtc, hmem, rfl, rfl, hnone⟩)
    · exact hv.shows_of_wants hd halone he hw
    · obtain ⟨crtc', hcrtc', _, hsame, _⟩ := hv.kept k crtc hcrtc (List.ne_nil_of_mem hmem)
      obtain rfl := hsame (lastKeeper?_eq_none_iff.mpr hnone)
      exact ⟨k, crtc', hcrtc', hmem, rfl, rfl⟩

end Visited

section Round

variable {c : Configuration} {modes : Table ModeInfo} {start t t' : Table Crtc}
  {l l' outputs outputs' : List (Nat × Connector)} {e : Nat × Connector} {fault : HardwareFault}

/-- If the first output gets its CRTC, the rest of the round goes on from there. -/
theorem assignAll_cons_ok (ha : assign c modes t e.1 e.2 = .ok t') :
    assignAll c modes t (e :: l) = assignAll c modes t' l := by
  rw [assignAll, ha]

/-- If the first output gets no CRTC, the round ends with its fault. -/
theorem assignAll_cons_error (ha : assign c modes t e.1 e.2 = .error fault) :
    assignAll c modes t (e :: l) = .error fault := by
  rw [assignAll, ha]

/-- A round fails with the first visit that does. -/
theorem exists_of_assignAll_error (h : assignAll c modes t l = .error fault) :
    ∃ before e after t', l = before ++ e :: after ∧ assignAll c modes t before = .ok t' ∧
      assign c modes t' e.1 e.2 = .error fault := by
  induction l generalizing t with
  | nil => cases h
  | cons e l ih =>
    cases ha : assign c modes t e.1 e.2 with
    | error fault' =>
      obtain rfl := Except.error.inj ((assignAll_cons_error ha).symm.trans h)
      exact ⟨[], e, l, t, rfl, rfl, ha⟩
    | ok t₁ =>
      rw [assignAll_cons_ok ha] at h
      obtain ⟨before, e', after, t', rfl, hbefore, hfault⟩ := ih h
      exact ⟨e :: before, e', after, t', rfl, by rw [assignAll_cons_ok ha, hbefore], hfault⟩

/-- A round succeeds only if something is wanted of every output to be used. -/
theorem wants_of_assignAll (h : assignAll c modes t l = .ok t') (he : e ∈ l)
    (hu : isUsed c e.2 = true) : ∃ mode place, e.2.Wants c modes mode place := by
  induction l generalizing t with
  | nil => cases he
  | cons e₀ l ih =>
    cases ha : assign c modes t e₀.1 e₀.2 with
    | error fault => cases (assignAll_cons_error ha).symm.trans h
    | ok t₁ =>
      rcases List.mem_cons.mp he with rfl | he
      · exact wants_of_assign hu ha
      · exact ih (assignAll_cons_ok ha ▸ h) he

/-- Where something is wanted of every output to be used, a round fails only with an output that has
to take a CRTC and finds none. -/
theorem fault_of_assignAll (hd : (l.map Prod.fst).Nodup)
    (hw : ∀ e ∈ l, isUsed c e.2 = true → ∃ mode place, e.2.Wants c modes mode place)
    (h : assignAll c modes start l = .error fault) :
    ∃ e ∈ l, takes c start e = true ∧ fault = .unsupported (.noFreeCrtc e.2.id) := by
  obtain ⟨before, e, after, t, rfl, hbefore, hfault⟩ := exists_of_assignAll_error h
  have he : e ∈ before ++ e :: after := List.mem_append_right _ List.mem_cons_self
  have hbefore_nodup : (before.map Prod.fst).Nodup :=
    hd.sublist ((List.sublist_append_left before _).map Prod.fst)
  have hv : Visited c modes start before t :=
    (Visited.refl c modes start).of_assignAll (by rwa [List.nil_append]) hbefore
  have htakes : takes c t e = takes c start e := hv.takes_eq (Visited.fst_ne_of_nodup hd)
  refine ⟨e, he, ?_⟩
  rcases assign_cases c modes t e with ⟨_, ha⟩ | ⟨hu, hnone, _⟩ | ⟨_, _, _, ht, _, ha⟩ |
    ⟨_, _, _, _, _, ha⟩
  · cases ha.symm.trans hfault
  · obtain ⟨mode, place, hw⟩ := hw e he hu
    exact absurd hw (hnone mode place)
  · exact ⟨htakes ▸ ht, (Except.error.inj (ha.symm.trans hfault)).symm⟩
  · cases ha.symm.trans hfault

end Round

section Supply

variable {c : Configuration} {modes : Table ModeInfo} {start t : Table Crtc}
  {visited l outputs outputs' : List (Nat × Connector)} {e : Nat × Connector} {j k : Nat}
  {K : Finset Nat}

private theorem mem_free : k ∈ free t K ↔ k ∈ K ∧ isFree t k = true := by
  rw [free, Finset.mem_filter]

private theorem mem_room {o : Connector} : k ∈ room t o ↔ k ∈ o.crtcs ∧ isFree t k = true := by
  rw [room, mem_free, List.mem_toFinset]

/-- Setting up a CRTC for an output leaves the other ones that are free. -/
theorem free_drive (t : Table Crtc) (K : Finset Nat) (k id mode : Nat) (x y : Int) :
    free (t.modify k (Crtc.drive id mode x y)) K = (free t K).erase k := by
  ext j
  rw [Finset.mem_erase, mem_free, mem_free]
  by_cases hj : j = k
  · subst hj
    refine ⟨fun h => ?_, fun h => absurd rfl h.1⟩
    obtain ⟨crtc, hcrtc, hnil⟩ := isFree_iff.mp h.2
    rw [Table.get?_modify_self] at hcrtc
    obtain ⟨old, _, rfl⟩ := Option.map_eq_some_iff.mp hcrtc
    by_cases hmem : id ∈ old.outputs
    · rw [Crtc.drive, if_pos hmem] at hnil
      exact absurd hnil (List.ne_nil_of_mem hmem)
    · rw [Crtc.drive, if_neg hmem] at hnil
      exact absurd hnil (List.append_ne_nil_of_right_ne_nil _ (List.cons_ne_nil id []))
  · have hsame : isFree (t.modify k (Crtc.drive id mode x y)) j = isFree t j := by
      rw [isFree, isFree, Table.get?_modify_of_ne _ _ hj]
    rw [hsame]
    exact ⟨fun h => ⟨hj, h⟩, And.right⟩

/-- Setting up a CRTC that drives an output leaves what is free. -/
theorem free_drive_of_drives {id : Nat} (h : drives t k id = true) (K : Finset Nat) (id' mode : Nat)
    (x y : Int) : free (t.modify k (Crtc.drive id' mode x y)) K = free t K := by
  rw [free_drive, Finset.erase_eq_of_notMem]
  intro hk
  rw [mem_free, not_isFree_of_drives h] at hk
  exact Bool.noConfusion hk.2

private theorem demand_cons_of_not_takes (h : takes c start e = false) (K : Finset Nat) :
    demand c start (e :: l) K = demand c start l K :=
  List.countP_cons_of_neg (by simp only [h, Bool.false_and, Bool.false_eq_true, not_false_eq_true])

private theorem demand_cons_room (h : takes c start e = true) :
    demand c start (e :: l) (room start e.2) = demand c start l (room start e.2) + 1 :=
  List.countP_cons_of_pos (by simp only [h, decide_true, Bool.and_self])

private theorem demand_cons_of_ne (h : room start e.2 ≠ K) :
    demand c start (e :: l) K = demand c start l K :=
  List.countP_cons_of_neg (by simp only [h, decide_false, Bool.and_false, Bool.false_eq_true,
    not_false_eq_true])

/-- An output that takes a CRTC in which it has room lessens demand and supply alike. -/
theorem demand_cons_le_iff (hg : Grouped c start (e :: l)) (htakes : takes c start e = true)
    (hk : k ∈ room start e.2) (hfree : isFree t k = true) (K : Finset Nat) :
    demand c start (e :: l) K ≤ (free t K).card ↔
      demand c start l K ≤ ((free t K).erase k).card := by
  by_cases hK : room start e.2 = K
  · subst hK
    have hcard := Finset.card_erase_add_one (mem_free.mpr ⟨hk, hfree⟩)
    rw [demand_cons_room htakes, ← hcard, Nat.add_le_add_iff_right]
  · rw [demand_cons_of_ne hK]
    by_cases hn : demand c start l K = 0
    · simp only [hn, Nat.zero_le]
    · -- Some other output has room in exactly these CRTCs, so that this one has none in them.
      obtain ⟨e', he', h'⟩ := List.countP_pos_iff.mp (Nat.pos_of_ne_zero hn)
      rw [Bool.and_eq_true, decide_eq_true_eq] at h'
      obtain ⟨htakes', rfl⟩ := h'
      have hdisj := hg e List.mem_cons_self e' (List.mem_cons_of_mem e he') htakes htakes'
      have hk' : k ∉ free t (room start e'.2) := fun h =>
        Finset.disjoint_left.mp (hdisj.resolve_left hK) hk (mem_free.mp h).1
      rw [Finset.erase_eq_of_notMem hk']

/-- An output that finds no CRTC to take is in demand of what is not there. -/
theorem card_lt_demand_cons (htakes : takes c start e = true)
    (hnone : e.2.crtcs.find? (isFree t) = none) :
    (free t (room start e.2)).card < demand c start (e :: l) (room start e.2) := by
  have hempty : free t (room start e.2) = ∅ := by
    refine Finset.eq_empty_of_forall_notMem fun k hk => ?_
    obtain ⟨hk, hfree⟩ := mem_free.mp hk
    exact List.find?_eq_none.mp hnone k (mem_room.mp hk).1 hfree
  rw [demand_cons_room htakes, hempty, Finset.card_empty]
  exact Nat.succ_pos _

/-- A visit that succeeds leaves demand met if it was. -/
theorem demand_le_iff_of_assign {t' : Table Crtc} (hv : Visited c modes start visited t)
    (hnew : ∀ e' ∈ visited, e'.1 ≠ e.1) (hg : Grouped c start (e :: l))
    (ha : assign c modes t e.1 e.2 = .ok t') (K : Finset Nat) :
    demand c start (e :: l) K ≤ (free t K).card ↔ demand c start l K ≤ (free t' K).card := by
  have htakes := hv.takes_eq hnew
  rcases assign_cases c modes t e with ⟨hu, h⟩ | ⟨_, _, _, h⟩ | ⟨_, _, _, _, _, h⟩ |
    ⟨mode, place, k, _, hk, h⟩
  · obtain rfl := Except.ok.inj (h.symm.trans ha)
    rw [demand_cons_of_not_takes (by rw [takes, hu, Bool.false_and])]
  · cases h.symm.trans ha
  · cases h.symm.trans ha
  · obtain rfl := Except.ok.inj (h.symm.trans ha)
    rcases hk with ⟨hkeeps, rfl⟩ | ⟨ht, hfind⟩
    · have hdrives := (Bool.and_eq_true_iff.mp hkeeps).2
      have hnot : takes c start e = false := by
        rw [← htakes, takes, hdrives, Bool.not_true, Bool.and_false]
      rw [demand_cons_of_not_takes hnot, free_drive_of_drives hdrives]
    · have hfree : isFree t k = true := by simpa only using List.find?_some hfind
      have hk := mem_room.mpr ⟨List.mem_of_find?_eq_some hfind, hv.isFree_start hfree⟩
      rw [free_drive]
      exact demand_cons_le_iff hg (htakes ▸ ht) hk hfree K

/-- A round succeeds exactly if something is wanted of every output to be used, and no group of
outputs that have to take a CRTC is larger than the number of those that are free for it. -/
theorem assignAll_isOk_iff (hv : Visited c modes start visited t)
    (hd : ((visited ++ l).map Prod.fst).Nodup) (hg : Grouped c start l) :
    (∃ t', assignAll c modes t l = .ok t') ↔
      (∀ e ∈ l, isUsed c e.2 = true → ∃ mode place, e.2.Wants c modes mode place) ∧
      ∀ K, demand c start l K ≤ (free t K).card := by
  induction l generalizing visited t with
  | nil =>
    exact ⟨fun _ => ⟨fun _ he => absurd he List.not_mem_nil, fun _ => Nat.zero_le _⟩,
      fun _ => ⟨t, rfl⟩⟩
  | cons e l ih =>
    have hnew := Visited.fst_ne_of_nodup hd
    cases ha : assign c modes t e.1 e.2 with
    | ok t₁ =>
      rw [List.append_cons] at hd
      have hg' : Grouped c start l := fun e₁ h₁ e₂ h₂ =>
        hg e₁ (List.mem_cons_of_mem e h₁) e₂ (List.mem_cons_of_mem e h₂)
      rw [assignAll_cons_ok ha, ih (hv.step hnew ha) hd hg', List.forall_mem_cons,
        and_iff_right (wants_of_assign · ha)]
      exact and_congr_right fun _ =>
        forall_congr' fun K => (demand_le_iff_of_assign hv hnew hg ha K).symm
    | error fault =>
      rw [assignAll_cons_error ha]
      refine ⟨fun ⟨_, h⟩ => (by cases h), fun ⟨hw, hdemand⟩ => ?_⟩
      rcases assign_cases c modes t e with ⟨_, h⟩ | ⟨hu, hnone, _⟩ | ⟨_, _, _, ht, hnone, _⟩ |
        ⟨_, _, _, _, _, h⟩
      · cases h.symm.trans ha
      · obtain ⟨mode, place, hw⟩ := hw e List.mem_cons_self hu
        exact absurd hw (hnone mode place)
      · have hlt := card_lt_demand_cons (l := l) (hv.takes_eq hnew ▸ ht) hnone
        exact absurd (hdemand _) (Nat.not_le_of_lt hlt)
      · cases h.symm.trans ha

end Supply

section Order

variable {c : Configuration} {modes : Table ModeInfo} {crtcs new new' : Table Crtc}
  {outputs outputs' : List (Nat × Connector)}

/-- The demand does not depend on the order of the outputs. -/
theorem demand_perm {start : Table Crtc} (hp : outputs.Perm outputs') (K : Finset Nat) :
    demand c start outputs K = demand c start outputs' K :=
  hp.countP_eq _

/-- In whichever order the outputs are visited, they show the same if the visits succeed. -/
theorem shows_congr (hd : (outputs.map Prod.fst).Nodup) (halone : Alone crtcs)
    (hp : outputs.Perm outputs') (h : updateCrtcs c modes outputs crtcs = .ok new)
    (h' : updateCrtcs c modes outputs' crtcs = .ok new') (id mode : Nat) (place : Point) :
    Shows new id mode place ↔ Shows new' id mode place := by
  have hd' := (hp.map Prod.fst).nodup_iff.mp hd
  have hv' := visited_updateCrtcs hd' h'
  rw [← releaseAll_perm c hp] at hv'
  rw [(visited_updateCrtcs hd h).shows_iff hd (halone.releaseAll c outputs),
    hv'.shows_iff hd' (halone.releaseAll c outputs)]
  simp only [hp.mem_iff]

/-- Where the outputs fall into groups by the CRTCs they have room in, they are set up exactly if
something is wanted of each one to be used and no group has more outputs than free CRTCs. -/
theorem updateCrtcs_isOk_iff (hd : (outputs.map Prod.fst).Nodup)
    (hg : Grouped c (releaseAll c outputs crtcs) outputs) :
    (∃ new, updateCrtcs c modes outputs crtcs = .ok new) ↔
      (∀ e ∈ outputs, isUsed c e.2 = true → ∃ mode place, e.2.Wants c modes mode place) ∧
      ∀ K, demand c (releaseAll c outputs crtcs) outputs K ≤
        (free (releaseAll c outputs crtcs) K).card :=
  assignAll_isOk_iff (Visited.refl c modes _) (by rwa [List.nil_append]) hg

/-- What depends on the order in which the outputs are visited, if no CRTC drives two of them. In
whichever order, the visits that succeed show every output to be used as is wanted of it, and leave
the same outputs shown alike. Where they succeed in one order and fail in another, they fail for
want of a free CRTC, with an output that has to take one. That cannot be if the outputs that have to
take one have room in the same CRTCs or in none in common. -/
theorem updateCrtcs_of_perm (hd : (outputs.map Prod.fst).Nodup) (halone : Alone crtcs)
    (hp : outputs.Perm outputs') :
    (∀ new, updateCrtcs c modes outputs crtcs = .ok new →
      (∀ e ∈ outputs, isUsed c e.2 = true →
        ∃ mode place, e.2.Wants c modes mode place ∧ Shows new e.1 mode place) ∧
      (∀ new', updateCrtcs c modes outputs' crtcs = .ok new' →
        ∀ id mode place, Shows new id mode place ↔ Shows new' id mode place) ∧
      ∀ fault, updateCrtcs c modes outputs' crtcs = .error fault →
        ∃ e ∈ outputs, takes c crtcs e = true ∧ fault = .unsupported (.noFreeCrtc e.2.id)) ∧
    (Grouped c (releaseAll c outputs crtcs) outputs →
      ((∃ new, updateCrtcs c modes outputs crtcs = .ok new) ↔
        ∃ new', updateCrtcs c modes outputs' crtcs = .ok new')) := by
  have hd' := (hp.map Prod.fst).nodup_iff.mp hd
  have hrelease := releaseAll_perm c hp crtcs
  constructor
  · intro new hnew
    have hw : ∀ e ∈ outputs, isUsed c e.2 = true → ∃ mode place, e.2.Wants c modes mode place :=
      fun e he hu => wants_of_assignAll hnew he hu
    refine ⟨fun e he hu => ?_, fun new' hnew' => shows_congr hd halone hp hnew hnew',
      fun fault hfault => ?_⟩
    · obtain ⟨mode, place, hw⟩ := hw e he hu
      have hv := visited_updateCrtcs hd hnew
      exact ⟨mode, place, hw, hv.shows_of_wants hd (halone.releaseAll c outputs) he hw⟩
    · have hw' := fun e he => hw e (hp.mem_iff.mpr he)
      obtain ⟨e, he, htakes, hfault⟩ := fault_of_assignAll hd' hw' hfault
      exact ⟨e, hp.mem_iff.mpr he, takes_releaseAll hd' he crtcs ▸ htakes, hfault⟩
  · intro hg
    have hg' : Grouped c (releaseAll c outputs' crtcs) outputs' := by
      rw [← hrelease]
      exact fun e he e' he' => hg e (hp.mem_iff.mpr he) e' (hp.mem_iff.mpr he')
    rw [updateCrtcs_isOk_iff hd hg, updateCrtcs_isOk_iff hd' hg', ← hrelease]
    simp only [hp.mem_iff, demand_perm hp]

end Order

namespace Scenes

/-- An output that either of two CRTCs can drive, and one that only the first of them can. -/
def flexible : Nat × Connector := (10, { twin "DP-1" with crtc := 0 })

@[inherit_doc flexible]
def rigid : Nat × Connector := (11, { twin "DP-2" with crtc := 0, crtcs := [20] })

/-- The two CRTCs, which drive nothing. -/
def idle : Table Crtc :=
  ⟨[(20, ⟨0, 0, 0, upright, []⟩), (21, ⟨0, 0, 0, upright, []⟩)], by simp⟩

/-- Both outputs are to be used. -/
def both : Configuration :=
  ⟨[.plain "DP-1", .plain "DP-2"]⟩

private theorem alone_idle : Alone idle := by
  intro k id id' h
  obtain ⟨crtc, hcrtc, hmem⟩ := drives_iff.mp h
  simp only [Table.get?_eq_some_iff, idle, List.mem_cons, Prod.mk.injEq, List.not_mem_nil,
    or_false] at hcrtc
  rcases hcrtc with ⟨_, rfl⟩ | ⟨_, rfl⟩ <;> cases hmem

/-- The output that finds no CRTC has to take one. -/
theorem updateCrtcs_of_flexible_first :
    ([rigid, flexible].map Prod.fst).Nodup ∧ Alone idle ∧ [rigid, flexible].Perm [flexible, rigid] ∧
    ∃ e ∈ [rigid, flexible], takes both idle e = true ∧
      updateCrtcs both oneMode [flexible, rigid] idle =
        .error (.unsupported (.noFreeCrtc e.2.id)) := by
  have hd : ([rigid, flexible].map Prod.fst).Nodup := by decide
  have hp : [rigid, flexible].Perm [flexible, rigid] := .swap flexible rigid []
  have hnew : updateCrtcs both oneMode [rigid, flexible] idle =
      .ok ⟨[(20, ⟨0, 0, 1, upright, [11]⟩), (21, ⟨0, 0, 1, upright, [10]⟩)], by simp⟩ := by
    decide +kernel
  have hfault : updateCrtcs both oneMode [flexible, rigid] idle =
      .error (.unsupported (.noFreeCrtc "DP-2")) := by
    decide +kernel
  obtain ⟨e, he, htakes, h⟩ := ((updateCrtcs_of_perm hd alone_idle hp).1 _ hnew).2.2 _ hfault
  exact ⟨hd, alone_idle, hp, e, he, htakes, h ▸ hfault⟩

/-- The order of visiting decides whether both outputs can be used. -/
theorem order_decides :
    Alone idle ∧ ([flexible, rigid].map Prod.fst).Nodup ∧
    updateCrtcs both oneMode [flexible, rigid] idle =
      .error (.unsupported (.noFreeCrtc "DP-2")) ∧
    updateCrtcs both oneMode [rigid, flexible] idle =
      .ok ⟨[(20, ⟨0, 0, 1, upright, [11]⟩), (21, ⟨0, 0, 1, upright, [10]⟩)], by simp⟩ :=
  ⟨alone_idle, by decide, by decide +kernel, by decide +kernel⟩

end Scenes

end Displays.Randr
