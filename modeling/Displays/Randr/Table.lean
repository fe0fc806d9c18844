/-!
# Tables

The objects of an X server by their ids. A table keeps its entries in the order of their ids, each
id once, so that two tables are equal exactly if they answer every question alike, whatever the
order in which they were filled.
-/

namespace Displays.Randr

variable {α : Type}

/-- Objects by id, in the order of the ids. -/
@[ext] structure Table (α : Type) where
  /-- The entries. -/
  entries : List (Nat × α)
  /-- The ids ascend. -/
  sorted : entries.Pairwise fun a b => a.1 < b.1
  deriving DecidableEq, Repr

namespace Table

/-- The table without entries. -/
def empty : Table α := ⟨[], .nil⟩

instance : EmptyCollection (Table α) := ⟨empty⟩

/-- The object with this id. -/
def get? (t : Table α) (id : Nat) : Option α :=
  t.entries.lookup id

/-- The ids. -/
def ids (t : Table α) : List Nat :=
  t.entries.map Prod.fst

/-- The objects. -/
def values (t : Table α) : List α :=
  t.entries.map Prod.snd

/-- Puts an object into sorted entries, in place of the one with its id. -/
def insertEntry (id : Nat) (a : α) : List (Nat × α) → List (Nat × α)
  | [] => [(id, a)]
  | (k, b) :: rest =>
    if id < k then (id, a) :: (k, b) :: rest
    else if id = k then (id, a) :: rest
    else (k, b) :: insertEntry id a rest

private theorem mem_insertEntry {id : Nat} {a : α} {l : List (Nat × α)} {e : Nat × α}
    (h : e ∈ insertEntry id a l) : e = (id, a) ∨ e ∈ l := by
  induction l with
  | nil => simpa [insertEntry] using h
  | cons p rest ih =>
    obtain ⟨k, b⟩ := p
    simp only [insertEntry] at h
    split at h
    · simpa using h
    · split at h
      · rcases List.mem_cons.1 h with h | h
        · exact Or.inl h
        · exact Or.inr (List.mem_cons_of_mem _ h)
      · rcases List.mem_cons.1 h with h | h
        · exact Or.inr (h ▸ List.mem_cons_self)
        · exact (ih h).imp_right (List.mem_cons_of_mem _)

/-- Inserting an entry keeps the ids ascending. -/
theorem pairwise_insertEntry {id : Nat} {a : α} {l : List (Nat × α)}
    (h : l.Pairwise fun a b => a.1 < b.1) :
    (insertEntry id a l).Pairwise fun a b => a.1 < b.1 := by
  induction l with
  | nil => simp [insertEntry]
  | cons p rest ih =>
    obtain ⟨hp, hrest⟩ := List.pairwise_cons.1 h
    simp only [insertEntry]
    split
    · rename_i hlt
      refine List.pairwise_cons.2 ⟨?_, h⟩
      intro e he
      rcases List.mem_cons.1 he with rfl | he
      · exact hlt
      · exact Nat.lt_trans hlt (hp e he)
    · split
      · rename_i heq
        exact List.pairwise_cons.2 ⟨fun e he => heq ▸ hp e he, hrest⟩
      · refine List.pairwise_cons.2 ⟨?_, ih hrest⟩
        intro e he
        rcases mem_insertEntry he with rfl | he
        · omega
        · exact hp e he

/-- The table with an object under its id. -/
def insert (t : Table α) (id : Nat) (a : α) : Table α :=
  ⟨insertEntry id a t.entries, pairwise_insertEntry t.sorted⟩

/-- The table of a list of objects; of those with one id the last one counts. -/
def ofList (l : List (Nat × α)) : Table α :=
  l.foldl (fun t e => t.insert e.1 e.2) ∅

/-- Changes every object. -/
def mapIds (t : Table α) (f : Nat → α → α) : Table α where
  entries := t.entries.map fun e => (e.1, f e.1 e.2)
  sorted := by
    rw [List.pairwise_map]
    exact t.sorted

/-- Changes the object with this id, if there is one. -/
def modify (t : Table α) (id : Nat) (f : α → α) : Table α :=
  t.mapIds fun k a => if k = id then f a else a

private theorem lookup_map (f : Nat → α → α) (id : Nat) (l : List (Nat × α)) :
    (l.map fun e => (e.1, f e.1 e.2)).lookup id = (l.lookup id).map (f id) := by
  induction l with
  | nil => rfl
  | cons e rest ih =>
    obtain ⟨k, b⟩ := e
    by_cases h : id = k
    · subst h
      simp
    · simp [List.lookup_cons, beq_false_of_ne h, ih]

/-- Changing every entry changes the one that is looked up. -/
@[simp] theorem get?_mapIds (t : Table α) (f : Nat → α → α) (id : Nat) :
    (t.mapIds f).get? id = (t.get? id).map (f id) :=
  lookup_map f id t.entries

/-- Changing one entry changes the one of this id and no other. -/
theorem get?_modify (t : Table α) (id k : Nat) (f : α → α) :
    (t.modify id f).get? k = (t.get? k).map fun a => if k = id then f a else a := by
  simp [modify]

/-- Changing every entry keeps the ids. -/
@[simp] theorem ids_mapIds (t : Table α) (f : Nat → α → α) : (t.mapIds f).ids = t.ids := by
  simp [ids, mapIds]

end Table

end Displays.Randr
