import Displays.Proofs.Arrivals
import Displays.Proofs.Histories

/-!
# The order of the screens

Screens stand in the order of seniority: the longer an output has been connected without a break,
the further in front stands its screen, and screens of outputs that were connected at once stand as
the configuration listed them then. Later configurations do not move them. So the screens are in the
order of the hardware exactly as long as the hardware lists its outputs by seniority, too; once it
lists two outputs the other way round, or a new one in front of an old one, they are not.
-/

namespace Displays

/-- For how many configurations in a row an output has been connected up to now. -/
def tenure (cs : List Configuration) (id : OutputId) : Nat :=
  (cs.reverse.takeWhile fun c => id ∈ c.connectedIds).length

/-- The first output has been connected for longer than the second, or they were connected at once
by a configuration that listed the first in front of the second. -/
def Outranks (cs : List Configuration) (a b : OutputId) : Prop :=
  tenure cs b < tenure cs a ∨ tenure cs a = tenure cs b ∧
    ∃ c ∈ cs[cs.length - tenure cs a]?, c.connectedIds.idxOf a < c.connectedIds.idxOf b

instance (cs : List Configuration) (a b : OutputId) : Decidable (Outranks cs a b) :=
  inferInstanceAs (Decidable (_ ∨ _ ∧ ∃ c ∈ cs[cs.length - tenure cs a]?, _))

section Outranks

variable {cs : List Configuration} {c : Configuration} {a b : OutputId}

/-- A further configuration prolongs the tenure of what it has connected and ends that of everything
else. -/
theorem tenure_concat (cs : List Configuration) (c : Configuration) (a : OutputId) :
    tenure (cs ++ [c]) a = if a ∈ c.connectedIds then tenure cs a + 1 else 0 := by
  rw [tenure, List.reverse_append, List.reverse_singleton, List.singleton_append,
    List.takeWhile_cons]
  by_cases h : a ∈ c.connectedIds
  · rw [if_pos (decide_eq_true h), if_pos h, List.length_cons, tenure]
  · rw [if_neg (by simpa using h), if_neg h, List.length_nil]

private theorem tenure_le (cs : List Configuration) (a : OutputId) : tenure cs a ≤ cs.length := by
  have hle := (cs.reverse.takeWhile_sublist fun c => a ∈ c.connectedIds).length_le
  rwa [List.length_reverse] at hle

/-- Neither of two outputs outranks the other if that one does. -/
theorem Outranks.asymm (h : Outranks cs a b) : ¬ Outranks cs b a := by
  rintro (hlt | ⟨heq, d, hd, hidx⟩)
  · rcases h with h | ⟨h, -⟩ <;> omega
  · rcases h with h | ⟨-, e, he, h⟩
    · omega
    · rw [heq] at hd
      obtain rfl := Option.some.inj (hd.symm.trans he)
      omega

/-- The rank of outputs that stay connected does not change. -/
theorem Outranks.concat (h : Outranks cs a b) (ha : a ∈ c.connectedIds) (hb : b ∈ c.connectedIds)
    (hold : 0 < tenure cs a) : Outranks (cs ++ [c]) a b := by
  have hle := tenure_le cs a
  rw [Outranks, tenure_concat, tenure_concat, if_pos ha, if_pos hb]
  rcases h with h | ⟨h, d, hd, hidx⟩
  · exact .inl (Nat.succ_lt_succ h)
  · refine .inr ⟨congrArg Nat.succ h, d, ?_, hidx⟩
    have hsame : (cs ++ [c]).length - (tenure cs a + 1) = cs.length - tenure cs a := by
      rw [List.length_append, List.length_singleton]
      omega
    rw [hsame, List.getElem?_append_left (by omega)]
    exact hd

/-- Outputs that are connected at once rank as they are listed. -/
theorem outranks_of_new (ha : a ∈ c.connectedIds) (hb : b ∈ c.connectedIds)
    (hna : tenure cs a = 0) (hnb : tenure cs b = 0)
    (h : c.connectedIds.idxOf a < c.connectedIds.idxOf b) : Outranks (cs ++ [c]) a b := by
  rw [Outranks, tenure_concat, tenure_concat, if_pos ha, if_pos hb, hna, hnb]
  refine .inr ⟨rfl, c, ?_, h⟩
  rw [List.length_append, List.length_singleton, Nat.zero_add, Nat.add_sub_cancel,
    List.getElem?_concat_length]
  rfl

/-- Different names of a list are first found in their order. -/
theorem pairwise_idxOf_lt {l : List OutputId} (hl : l.Nodup) :
    l.Pairwise fun a b => l.idxOf a < l.idxOf b := by
  rw [List.pairwise_iff_getElem]
  intro i j hi hj hij
  rw [hl.idxOf_getElem i hi, hl.idxOf_getElem j hj]
  exact hij

/-- Where the names stand by rank and are those that are connected, they stand by rank after the
next configuration, those that stay in front of those that are new. -/
theorem pairwise_outranks_concat {l : List OutputId} (hl : l.Pairwise (Outranks cs))
    (hmem : ∀ id, id ∈ l ↔ 0 < tenure cs id) (hc : c.ids.Nodup) :
    ((l.filter fun id => id ∈ c.connectedIds) ++
      c.connectedIds.filter fun id => id ∉ l).Pairwise (Outranks (cs ++ [c])) := by
  have hnew : ∀ id, id ∉ l → tenure cs id = 0 := fun id h =>
    Nat.eq_zero_of_not_pos fun hpos => h ((hmem id).mpr hpos)
  -- Names that stay keep their rank, new ones rank as they are listed, and any that stays outranks
  -- any new one.
  refine List.pairwise_append.mpr ⟨?_, ?_, fun a ha b hb => ?_⟩
  · refine (hl.filter _).imp_of_mem fun {a b} ha hb hab => ?_
    obtain ⟨hal, hac⟩ := List.mem_filter.mp ha
    exact hab.concat (of_decide_eq_true hac) (of_decide_eq_true (List.mem_filter.mp hb).2)
      ((hmem a).mp hal)
  · have hlisted := pairwise_idxOf_lt (Configuration.nodup_connectedIds hc)
    refine (hlisted.filter _).imp_of_mem fun {a b} ha hb hab => ?_
    obtain ⟨hac, hal⟩ := List.mem_filter.mp ha
    obtain ⟨hbc, hbl⟩ := List.mem_filter.mp hb
    exact outranks_of_new hac hbc (hnew a (of_decide_eq_true hal)) (hnew b (of_decide_eq_true hbl))
      hab
  · obtain ⟨hal, hac⟩ := List.mem_filter.mp ha
    obtain ⟨hbc, hbl⟩ := List.mem_filter.mp hb
    left
    rw [tenure_concat, tenure_concat, if_pos hbc, if_pos (of_decide_eq_true hac),
      hnew b (of_decide_eq_true hbl)]
    exact Nat.succ_lt_succ ((hmem a).mp hal)

end Outranks

namespace Model

variable {steps : List Step}

/-- A further step adds the configuration that it absorbs, if it absorbs one. -/
theorem absorbed_concat (steps : List Step) (a : Step) :
    absorbed (steps ++ [a]) = absorbed steps ++ a.absorbed?.toList := by
  rw [absorbed, List.filterMap_append, absorbed]
  cases h : a.absorbed? <;> simp [h]

/-- An output is connected in the configuration absorbed last if it has been so for at least one. -/
theorem mem_connectedIds_lastAbsorbed (steps : List Step) (id : OutputId) :
    id ∈ (lastAbsorbed steps).connectedIds ↔ 0 < tenure (absorbed steps) id := by
  induction steps using List.reverseRecOn with
  | nil => exact ⟨fun h => absurd h List.not_mem_nil, fun h => absurd h (Nat.lt_irrefl 0)⟩
  | append_singleton steps a ih =>
    rw [lastAbsorbed_concat, absorbed_concat, Step.known_eq]
    cases a.absorbed? with
    | none =>
      rw [Option.getD_none, Option.toList_none, List.append_nil]
      exact ih
    | some c =>
      rw [Option.getD_some, Option.toList_some, tenure_concat]
      split <;> simp [*]

private theorem nodup_lastAbsorbed (h : ∀ c ∈ absorbed steps, c.ids.Nodup) :
    (lastAbsorbed steps).ids.Nodup := by
  induction steps using List.reverseRecOn with
  | nil => exact List.nodup_nil
  | append_singleton steps a ih =>
    rw [absorbed_concat] at h
    rw [lastAbsorbed_concat, Step.known_eq]
    cases ha : a.absorbed? with
    | none => exact ih fun c hc => h c (List.mem_append_left _ hc)
    | some c => exact h c (List.mem_append_right _ (by rw [ha]; exact List.mem_singleton_self c))

/-- Whatever was done to a model, its screens stand by seniority. -/
theorem pairwise_outranks_after (h : ∀ c ∈ absorbed steps, c.ids.Nodup) :
    (after steps).ids.Pairwise (Outranks (absorbed steps)) := by
  induction steps using List.reverseRecOn with
  | nil => exact .nil
  | append_singleton steps a ih =>
    have hbefore := ih fun c hc => h c (absorbed_concat steps a ▸ List.mem_append_left _ hc)
    have hn := (wellFormed_of_reachable (reachable_after steps)).nodup
    rw [after_concat, absorbed_concat]
    cases ha : a.absorbed? with
    | none =>
      rw [ids_step ha, Option.toList_none, List.append_nil]
      exact hbefore
    | some c =>
      have hc : c.ids.Nodup := h c (by rw [absorbed_concat, ha]; simp)
      obtain rfl := Step.absorbed?_eq_some.mp ha
      change ((after steps).absorb c).1.ids.Pairwise _
      rw [ids_absorb hn hc]
      exact pairwise_outranks_concat hbefore
        (fun id => mem_ids_after.trans (mem_connectedIds_lastAbsorbed steps id)) hc

/-- Whatever was done to a model that absorbed only configurations without repeated names, it has
the screens of the outputs that are connected in the last of them, and these stand by seniority. So
they are in the order of the hardware exactly if the hardware lists its outputs by seniority. -/
theorem screens_by_seniority (h : ∀ c ∈ absorbed steps, c.ids.Nodup) :
    let listed := (lastAbsorbed steps).connectedIds
    (after steps).ids.Perm listed ∧
    (after steps).ids.Pairwise (Outranks (absorbed steps)) ∧
    ((after steps).ids = listed ↔ listed.Pairwise (Outranks (absorbed steps))) := by
  intro listed
  have hn := (wellFormed_of_reachable (reachable_after steps)).nodup
  have hlisted : listed.Nodup := Configuration.nodup_connectedIds (nodup_lastAbsorbed h)
  have hperm : (after steps).ids.Perm listed :=
    (List.perm_ext_iff_of_nodup hn hlisted).mpr fun _ => mem_ids_after
  have hpairwise := pairwise_outranks_after h
  refine ⟨hperm, hpairwise, fun heq => heq ▸ hpairwise, fun hby => ?_⟩
  exact List.Perm.eq_of_pairwise (fun _ _ _ _ hab hba => absurd hba hab.asymm) hpairwise hby hperm

/-- An output that is unplugged and connected again comes after one that stayed, also where it was
listed first before. Requests in between make no difference. -/
theorem screens_by_seniority_replugged :
    let both : Configuration := ⟨[.plain "eDP-1", .plain "HDMI-1"]⟩
    let one : Configuration := ⟨[{ Output.plain "eDP-1" with connected := false }, .plain "HDMI-1"]⟩
    let again : Configuration := ⟨[.plain "HDMI-1", .plain "DP-1", .plain "eDP-1"]⟩
    let steps : List Step := [.note (.configuration both), .activate "eDP-1",
      .note (.configuration one), .mutate "HDMI-1" (.used false), .note (.configuration again)]
    (after steps).ids = ["HDMI-1", "DP-1", "eDP-1"] := by
  intro both one again steps
  have hnodup : ∀ c ∈ absorbed steps, c.ids.Nodup := by decide +kernel
  obtain ⟨-, -, horder⟩ := screens_by_seniority hnodup
  exact horder.mpr (by decide +kernel)

/-- A configuration that lists two connected outputs the other way round leaves their screens as
they were, and a new output that is listed first comes last. -/
theorem screens_not_as_listed :
    let before : Configuration := ⟨[.plain "eDP-1", .plain "HDMI-1"]⟩
    let swapped : Configuration := ⟨[.plain "HDMI-1", .plain "eDP-1"]⟩
    let more : Configuration := ⟨[.plain "DP-1", .plain "eDP-1", .plain "HDMI-1"]⟩
    before.ids.Nodup ∧ swapped.ids.Nodup ∧ more.ids.Nodup ∧
    (after [.note (.configuration before), .note (.configuration swapped)]).ids ≠
      swapped.connectedIds ∧
    (after [.note (.configuration before), .note (.configuration more)]).ids ≠
      more.connectedIds := by
  decide +kernel

end Model

end Displays
