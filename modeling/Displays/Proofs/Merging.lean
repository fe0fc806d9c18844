import Displays.Proofs.Submissions

/-!
# Requests that are carried out as a whole

Settings of several outputs are requested at once. What is submitted is what was read, where the
first output with each name has the settings that the last entry for this name requests; the order
of the entries and what earlier entries for the name request do not matter. Everything is submitted
at once or nothing is: the first name that no connected output answers to refuses the whole request,
and then anything that is wrong with the merged configuration.
-/

namespace Displays

/-- The settings that the last entry for a name requests. -/
def lastSettings (entries : List (OutputId × Settings)) (id : OutputId) : Option Settings :=
  entries.reverse.lookup id

/-- The last settings for a name are in the later entries, or else in the first one. -/
theorem lastSettings_cons (id k : OutputId) (s : Settings)
    (entries : List (OutputId × Settings)) :
    lastSettings ((id, s) :: entries) k =
      (lastSettings entries k).or (if k = id then some s else none) := by
  rw [lastSettings, List.reverse_cons, List.lookup_append, lastSettings]
  by_cases hk : k = id
  · simp only [hk, List.lookup_cons, beq_self_eq_true, ite_true]
  · simp only [hk, List.lookup_cons, beq_false_of_ne hk, List.lookup_nil, ite_false]

/-- The output with the settings that are requested last for its name, if any are. -/
def Output.settle (entries : List (OutputId × Settings)) (o : Output) : Output :=
  (lastSettings entries o.id).elim o fun s => s.apply o

/-- Later settings replace earlier ones altogether. -/
theorem Output.settle_apply (entries : List (OutputId × Settings)) (s : Settings) (o : Output) :
    (s.apply o).settle entries = o.settle ((o.id, s) :: entries) := by
  rw [settle, settle, lastSettings_cons]
  change (lastSettings entries o.id).elim _ _ = _
  cases lastSettings entries o.id with
  | none => simp only [Option.elim_none, ite_true, Option.none_or, Option.elim_some]
  | some t => rfl

/-- An entry for another name does not concern an output. -/
theorem Output.settle_of_ne {entries : List (OutputId × Settings)} {id : OutputId} {s : Settings}
    {o : Output} (h : o.id ≠ id) : o.settle ((id, s) :: entries) = o.settle entries := by
  simp only [settle, lastSettings_cons, h, ite_false, Option.or_none]

namespace Configuration

/-- The first output with this name is connected. -/
def Plugged (c : Configuration) (id : OutputId) : Prop :=
  ∃ o, c.output? id = some o ∧ o.connected = true

/-- The configuration where the first output with each name has the settings that are requested last
for this name. -/
def merged (c : Configuration) (entries : List (OutputId × Settings)) : Configuration :=
  ⟨c.outputs.mapIdx fun i o => if c.ids.idxOf o.id = i then o.settle entries else o⟩

variable {c : Configuration} {o : Output} {id k : OutputId} {s : Settings}
  {entries earlier later : List (OutputId × Settings)}

private theorem getElem?_modifyFirst (f : Output → Output) (id : OutputId) (l : List Output)
    (i : Nat) :
    (modifyFirst (fun o => o.id = id) f l)[i]? =
      (l[i]?).map fun o => if (l.map Output.id).idxOf id = i then f o else o := by
  induction l generalizing i with
  | nil => rfl
  | cons o l ih =>
    by_cases ho : o.id = id
    · cases i <;> simp [modifyFirst, ho, List.idxOf_cons_self]
    · cases i with
      | zero => simp [modifyFirst, ho, List.idxOf_cons_ne]
      | succ i => simp [modifyFirst, ho, List.idxOf_cons_ne, ih]

/-- Changing the first output with a name changes what stands where the name stands first. -/
theorem getElem?_modify (c : Configuration) (id : OutputId) (f : Output → Output) (i : Nat) :
    (c.modify id f).outputs[i]? =
      (c.outputs[i]?).map fun o => if c.ids.idxOf id = i then f o else o :=
  getElem?_modifyFirst f id c.outputs i

/-- Where a name stands first, an output has this name. -/
theorem id_of_idxOf_eq {i : Nat} (ho : c.outputs[i]? = some o) (hi : c.ids.idxOf id = i) :
    o.id = id := by
  have hlt : c.ids.idxOf id < c.ids.length := by
    rw [hi, ids, List.length_map]
    exact (List.getElem?_eq_some_iff.mp ho).1
  have hget : c.ids[c.ids.idxOf id]? = some o.id := by
    rw [hi, ids, List.getElem?_map, ho, Option.map_some]
  rw [List.getElem?_eq_getElem hlt, List.getElem_idxOf] at hget
  exact (Option.some.inj hget).symm

/-- New settings of an output connect and disconnect nothing. -/
theorem plugged_modify : (c.modify id s.apply).Plugged k ↔ c.Plugged k := by
  rw [Plugged, Plugged, output?_modify (f := s.apply) fun _ => rfl]
  by_cases hk : k = id
  · rw [if_pos hk]
    constructor
    · rintro ⟨_, h, hc⟩
      obtain ⟨o, ho, rfl⟩ := Option.map_eq_some_iff.mp h
      exact ⟨o, ho, hc⟩
    · rintro ⟨o, ho, hc⟩
      exact ⟨s.apply o, by rw [ho, Option.map_some], hc⟩
  · rw [if_neg hk]

/-- Nothing is merged into a configuration by no entries. -/
theorem merged_nil (c : Configuration) : c.merged [] = c := by
  refine congrArg Configuration.mk (List.ext_getElem? fun i => ?_)
  have hsettle : ∀ o : Output, o.settle [] = o := fun _ => rfl
  simp only [List.getElem?_mapIdx, hsettle, ite_self, Option.map_id']

/-- Writing the first entry in and merging the others into the result merges them all. -/
theorem merged_modify (c : Configuration) (id : OutputId) (s : Settings)
    (entries : List (OutputId × Settings)) :
    (c.modify id s.apply).merged entries = c.merged ((id, s) :: entries) := by
  have hids : (c.modify id s.apply).ids = c.ids := ids_modify (f := s.apply) (fun _ => rfl) c id
  refine congrArg Configuration.mk (List.ext_getElem? fun i => ?_)
  rw [List.getElem?_mapIdx, List.getElem?_mapIdx, getElem?_modify, hids]
  cases ho : c.outputs[i]? with
  | none => rfl
  | some o =>
    simp only [Option.map_some, Option.some.injEq]
    by_cases hid : o.id = id
    · subst hid
      by_cases hi : c.ids.idxOf o.id = i
      · rw [if_pos hi, if_pos hi]
        exact (if_pos hi).trans (Output.settle_apply entries s o)
      · simp only [if_neg hi]
    · have hi : c.ids.idxOf id ≠ i := fun hi => hid (id_of_idxOf_eq ho hi)
      rw [if_neg hi, Output.settle_of_ne hid]

/-- A request for a connected output writes its settings. -/
theorem request_of_plugged (h : c.Plugged id) : c.request id s = .ok (c.modify id s.apply) := by
  obtain ⟨o, ho, hc⟩ := h
  simp only [request, ho, hc, ite_true]

/-- A request for an output that is not connected is refused. -/
theorem request_of_not_plugged (h : ¬ c.Plugged id) :
    c.request id s = .error (.unknownOutput id) := by
  cases ho : c.output? id with
  | none => simp only [request, ho]
  | some o =>
    have hc : o.connected = false := by
      rw [← Bool.not_eq_true]
      exact fun hc => h ⟨o, ho, hc⟩
    simp only [request, ho, hc, Bool.false_eq_true, ite_false]

/-- Entries for connected outputs are merged. -/
theorem requestAll_of_plugged (h : ∀ e ∈ entries, c.Plugged e.1) :
    c.requestAll entries = .ok (c.merged entries) := by
  induction entries generalizing c with
  | nil => rw [requestAll, merged_nil]
  | cons e entries ih =>
    obtain ⟨id, s⟩ := e
    rw [requestAll, request_of_plugged (h (id, s) List.mem_cons_self), ← merged_modify]
    exact ih fun e he => plugged_modify.mpr (h e (List.mem_cons_of_mem _ he))

/-- The first entry whose output is not connected refuses them all. -/
theorem requestAll_of_not_plugged (hearlier : ∀ e ∈ earlier, c.Plugged e.1)
    (hid : ¬ c.Plugged id) :
    c.requestAll (earlier ++ (id, s) :: later) = .error (.unknownOutput id) := by
  induction earlier generalizing c with
  | nil => rw [List.nil_append, requestAll, request_of_not_plugged hid]
  | cons e earlier ih =>
    obtain ⟨k, t⟩ := e
    rw [List.cons_append, requestAll, request_of_plugged (hearlier (k, t) List.mem_cons_self)]
    exact ih (fun e he => plugged_modify.mpr (hearlier e (List.mem_cons_of_mem _ he)))
      fun h => hid (plugged_modify.mp h)

end Configuration

namespace Guarded

variable {H : Type} [Hardware H]

/-- Without a reading nothing is requested. -/
theorem requestAll_of_unread {h h' : H} {fault : HardwareFault}
    (hread : Hardware.read h = (.error fault, h')) (entries : List (OutputId × Settings)) :
    requestAll entries h = (.error (.unavailable fault), h') := by
  simp only [requestAll, read, hread]

/-- What was read gets the requested settings and is submitted, unless one of them is refused. -/
theorem requestAll_of_read {h h' : H} {c : Configuration}
    (hread : Hardware.read h = (.ok c, h')) (entries : List (OutputId × Settings)) :
    requestAll entries h =
      match c.requestAll entries with
      | .error fault => (.error fault, h')
      | .ok d => submit d h' := by
  cases hc : c.requestAll entries <;> simp only [requestAll, read, hread, hc]

/-- A valid configuration is submitted once, and the hardware decides. -/
theorem submit_of_valid {c : Configuration} (hvalid : c.defect? = none) (r : Recorded H) :
    (submit c r).1 = (Hardware.submit c r).1.mapError .rejected ∧
    (submit c r).2.submissions = r.submissions ++ [(c, (Hardware.submit c r).1)] := by
  rcases submit_cases c r with ⟨_, hd, _⟩ | ⟨_, hok, h⟩ | ⟨_, fault, herr, h⟩
  · rw [hvalid] at hd
    exact absurd hd (by simp only [reduceCtorEq, not_false_eq_true])
  · rw [h, Recorded.submissions_submit, hok]
    exact ⟨rfl, rfl⟩
  · rw [h, Recorded.submissions_submit, herr]
    exact ⟨rfl, rfl⟩

/-- A request of several outputs is all or nothing. Nothing is submitted if the hardware cannot be
read, or else if an entry is for an output that is not connected, or else if the merged
configuration is not valid; the fault is that of the reading, of the first such entry, or of the
merged configuration. Otherwise the merged configuration is submitted, once, and the hardware
decides. -/
theorem requestAll_all_or_nothing (entries : List (OutputId × Settings)) (r : Recorded H) :
    (∃ made : List Submission, made.length ≤ 1 ∧
      (requestAll entries r).2.submissions = r.submissions ++ made) ∧
    (∀ fault, (Hardware.read r).1 = .error fault →
      (requestAll entries r).1 = .error (.unavailable fault) ∧
      (requestAll entries r).2.submissions = r.submissions) ∧
    ∀ c, (Hardware.read r).1 = .ok c →
      (∀ earlier id s later, entries = earlier ++ (id, s) :: later →
        (∀ e ∈ earlier, c.Plugged e.1) → ¬ c.Plugged id →
        (requestAll entries r).1 = .error (.unknownOutput id) ∧
        (requestAll entries r).2.submissions = r.submissions) ∧
      ((∀ e ∈ entries, c.Plugged e.1) →
        (∀ defect, (c.merged entries).defect? = some defect →
          (requestAll entries r).1 = .error (.invalid defect) ∧
          (requestAll entries r).2.submissions = r.submissions) ∧
        ((c.merged entries).defect? = none →
          let answer := (Hardware.submit (c.merged entries) (Hardware.read r).2).1
          (requestAll entries r).1 = answer.mapError .rejected ∧
          (requestAll entries r).2.submissions =
            r.submissions ++ [(c.merged entries, answer)])) := by
  have hsubmissions := r.submissions_read
  refine ⟨submissions_requestAll r entries, ?_, ?_⟩
  · intro fault hfault
    rw [requestAll_of_unread (Prod.ext hfault rfl)]
    exact ⟨rfl, hsubmissions⟩
  · intro c hc
    rw [requestAll_of_read (Prod.ext hc rfl)]
    refine ⟨?_, fun hall => ⟨?_, ?_⟩⟩
    · rintro earlier id s later rfl hearlier hid
      rw [Configuration.requestAll_of_not_plugged hearlier hid]
      exact ⟨rfl, hsubmissions⟩
    · intro defect hdefect
      rw [Configuration.requestAll_of_plugged hall]
      simp only [submit, hdefect]
      exact ⟨trivial, hsubmissions⟩
    · intro hvalid
      rw [Configuration.requestAll_of_plugged hall, ← hsubmissions]
      exact submit_of_valid hvalid _

end Guarded

end Displays
