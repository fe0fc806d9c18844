import Displays.Storage

/-!
# Entries

Putting options under an id changes what stands under that id and nothing else, and keeps the
entries in the order of their ids. Entries that are in order are not changed by reading them as a
list.
-/

namespace Displays

namespace Entries

/-- The first entry with an id is the one that is looked up. -/
theorem lookup_cons (k id : String) (o : Options) (entries : Entries) :
    List.lookup k ((id, o) :: entries) = if k = id then some o else entries.lookup k := by
  rw [List.lookup_cons]
  by_cases hk : k = id
  · rw [if_pos hk, hk, beq_self_eq_true]
  · rw [if_neg hk, beq_false_of_ne hk]

/-- Putting options under an id changes what stands under it and nothing else. -/
theorem lookup_insert (entries : Entries) (id k : String) (o : Options) :
    (entries.insert id o).lookup k = if k = id then some o else entries.lookup k := by
  induction entries with
  | nil => exact lookup_cons k id o []
  | cons entry rest ih =>
    obtain ⟨key, v⟩ := entry
    by_cases hlt : id < key
    · rw [insert, if_pos hlt, lookup_cons]
    · by_cases heq : id = key
      · rw [insert, if_neg hlt, if_pos heq, lookup_cons, lookup_cons, heq]
        split <;> rfl
      · rw [insert, if_neg hlt, if_neg heq, lookup_cons, lookup_cons, ih]
        by_cases hk : k = key
        · have hne : k ≠ id := fun h => heq (h.symm.trans hk)
          rw [if_pos hk, if_neg hne, if_pos hk]
        · rw [if_neg hk, if_neg hk]

/-- Putting options under several ids in turn leaves the last ones under each id. -/
theorem lookup_foldl_insert (l : List (String × Options)) (entries : Entries) (k : String) :
    (l.foldl (fun entries (id, o) => entries.insert id o) entries).lookup k =
      (l.reverse.lookup k).or (entries.lookup k) := by
  induction l generalizing entries with
  | nil => rfl
  | cons entry l ih =>
    obtain ⟨id, o⟩ := entry
    rw [List.foldl_cons, ih, lookup_insert, List.reverse_cons, List.lookup_append, lookup_cons,
      List.lookup_nil, Option.or_assoc]
    congr 1
    split <;> rfl

/-- The ids stand in their order, each once. -/
def Sorted (entries : Entries) : Prop :=
  entries.Pairwise fun a b => a.1 < b.1

variable {entries : Entries} {id : String} {o : Options} {e : String × Options}

private theorem mem_of_mem_insert (h : e ∈ entries.insert id o) : e = (id, o) ∨ e ∈ entries := by
  induction entries with
  | nil => exact .inl (List.mem_singleton.mp h)
  | cons entry rest ih =>
    obtain ⟨key, v⟩ := entry
    rw [insert] at h
    split at h
    · exact List.mem_cons.mp h
    split at h
    · exact (List.mem_cons.mp h).imp_right (List.mem_cons_of_mem _)
    · rcases List.mem_cons.mp h with rfl | h
      · exact .inr List.mem_cons_self
      · exact (ih h).imp_right (List.mem_cons_of_mem _)

/-- Entries that are put in one by one are those and the ones that were there. -/
theorem mem_of_mem_foldl_insert {l : List (String × Options)}
    (h : e ∈ l.foldl (fun entries (id, o) => entries.insert id o) entries) :
    e ∈ l ∨ e ∈ entries := by
  induction l generalizing entries with
  | nil => exact .inr h
  | cons entry l ih =>
    rcases ih h with he | he
    · exact .inl (List.mem_cons_of_mem entry he)
    · rcases mem_of_mem_insert he with rfl | he
      · exact .inl List.mem_cons_self
      · exact .inr he

/-- The entries of a list are in the list. -/
theorem mem_of_mem_ofList {l : List (String × Options)} (h : e ∈ ofList l) : e ∈ l :=
  (mem_of_mem_foldl_insert h).resolve_right List.not_mem_nil

/-- Putting options under an id keeps the order. -/
theorem Sorted.insert (h : entries.Sorted) (id : String) (o : Options) :
    (entries.insert id o).Sorted := by
  induction entries with
  | nil => exact List.pairwise_singleton _ _
  | cons entry rest ih =>
    obtain ⟨key, v⟩ := entry
    obtain ⟨hbefore, hrest⟩ := List.pairwise_cons.mp h
    rw [Entries.insert]
    split
    · next hlt =>
      refine List.pairwise_cons.mpr ⟨fun e he => ?_, h⟩
      rcases List.mem_cons.mp he with rfl | he
      · exact hlt
      · exact String.lt_trans hlt (hbefore e he)
    split
    · next heq =>
      rw [heq]
      exact List.pairwise_cons.mpr ⟨hbefore, hrest⟩
    · next hlt hne =>
      refine List.pairwise_cons.mpr ⟨fun e he => ?_, ih hrest⟩
      rcases mem_of_mem_insert he with rfl | he
      · grind
      · exact hbefore e he

/-- Putting in entries one by one keeps the order. -/
theorem Sorted.foldl_insert (h : entries.Sorted) (l : List (String × Options)) :
    Sorted (l.foldl (fun entries (id, o) => entries.insert id o) entries) := by
  induction l generalizing entries with
  | nil => exact h
  | cons entry l ih => exact ih (h.insert entry.1 entry.2)

/-- Entries that are read from a list are in order. -/
theorem sorted_ofList (l : List (String × Options)) : (ofList l).Sorted :=
  Sorted.foldl_insert List.Pairwise.nil l

/-- Options under an id beyond all others are put at the end. -/
theorem insert_of_forall_lt (h : ∀ e ∈ entries, e.1 < id) :
    entries.insert id o = entries ++ [(id, o)] := by
  induction entries with
  | nil => rfl
  | cons entry rest ih =>
    obtain ⟨key, v⟩ := entry
    obtain ⟨hkey, hrest⟩ := List.forall_mem_cons.mp h
    have hne : id ≠ key := fun heq => String.lt_irrefl key (heq ▸ hkey)
    rw [insert, if_neg (String.lt_asymm hkey), if_neg hne, ih hrest, List.cons_append]

/-- Entries that are in order behind those that are there are put at the end, one by one. -/
theorem foldl_insert_of_sorted {l : List (String × Options)} (h : Sorted (entries ++ l)) :
    l.foldl (fun entries (id, o) => entries.insert id o) entries = entries ++ l := by
  induction l generalizing entries with
  | nil => exact (List.append_nil entries).symm
  | cons entry l ih =>
    obtain ⟨key, v⟩ := entry
    have hbefore : ∀ e ∈ entries, e.1 < key := fun e he =>
      (List.pairwise_append.mp h).2.2 e he (key, v) List.mem_cons_self
    have happend : entries ++ (key, v) :: l = entries ++ [(key, v)] ++ l := by
      rw [List.append_assoc, List.singleton_append]
    rw [List.foldl_cons]
    dsimp only
    rw [insert_of_forall_lt hbefore, happend]
    exact ih (happend ▸ h)

/-- Entries that are in order are the entries of their list. -/
theorem ofList_of_sorted (h : entries.Sorted) : ofList entries = entries :=
  foldl_insert_of_sorted h

/-- What stands among entries in order is found under its id. -/
theorem Sorted.lookup_of_mem (h : entries.Sorted) (he : e ∈ entries) :
    entries.lookup e.1 = some e.2 := by
  obtain ⟨before, after, rfl⟩ := List.append_of_mem he
  refine List.lookup_eq_some_iff.mpr ⟨before, after, rfl, fun p hp => ?_⟩
  have hlt : p.1 < e.1 := (List.pairwise_append.mp h).2.2 p hp e List.mem_cons_self
  exact bne_iff_ne.mpr fun heq => String.lt_irrefl p.1 (heq ▸ hlt)

/-- What stands under an id is an entry. -/
theorem mem_of_lookup (h : entries.lookup id = some o) : (id, o) ∈ entries := by
  obtain ⟨before, after, rfl, -⟩ := List.lookup_eq_some_iff.mp h
  exact List.mem_append_right before List.mem_cons_self

end Entries

/-- Saving changes the options under the one id, also where writing fails. -/
theorem Storage.load?_save (s : Storage) (id k : String) (o : Options) (file : File) :
    (s.save id o file).2.1.load? k = if k = id then some o else s.load? k := by
  have hentries : (s.save id o file).2.1.entries = s.entries.insert id o := by
    rw [save]
    split <;> rfl
  rw [load?, hentries, Entries.lookup_insert, load?]

end Displays
