import Displays.Proofs.Activation

/-!
# What is changed about an output

A request to change an output names new values for some of its fields. Made to its screen, it is
refused if the scale is not finite and positive, the mode index is out of range or no mode has the
size. Otherwise the screen has the named values afterwards, and what it announced leads an output
that agreed with it to these values: only a scale that is equal up to rounding is passed over.
-/

namespace Displays

/-- The output with the values that changes tell one after the other. -/
def Change.writeAll (changes : List Change) (o : Output) : Output :=
  changes.foldl (fun o change => change.write o) o

private theorem Change.writeAll_append (a b : List Change) (o : Output) :
    writeAll (a ++ b) o = writeAll b (writeAll a o) := List.foldl_append

/-- Changes keep the name of an output. -/
theorem Change.writeAll_id (changes : List Change) (o : Output) :
    (writeAll changes o).id = o.id := by
  induction changes generalizing o with
  | nil => rfl
  | cons change changes ih => exact (ih _).trans (change.write_id o)

/-- Changes keep an output connected, or not. -/
theorem Change.writeAll_connected (changes : List Change) (o : Output) :
    (writeAll changes o).connected = o.connected := by
  induction changes generalizing o with
  | nil => rfl
  | cons change changes ih => exact (ih _).trans (change.write_connected o)

namespace Mutation

/-- Makes requests to a screen one after the other, up to the first that fails, and lists the
changes of all. -/
def applyAll : List Mutation → Screen → Except ConfigFault (Screen × List Change)
  | [], s => .ok (s, [])
  | u :: us, s =>
    match u.apply s with
    | .error fault => .error fault
    | .ok (t, changes) => (applyAll us t).map fun r => (r.1, changes ++ r.2)

variable {s t : Screen} {us vs : List Mutation} {changes : List Change}

/-- If requests succeed, the first does, and the others do on the screen that it leaves. -/
theorem applyAll_cons_eq_ok {u : Mutation} (h : applyAll (u :: us) s = .ok (t, changes)) :
    ∃ r a b, u.apply s = .ok (r, a) ∧ applyAll us r = .ok (t, b) ∧ changes = a ++ b := by
  rw [applyAll] at h
  cases hu : u.apply s with
  | error fault =>
    rw [hu] at h
    cases h
  | ok p =>
    rw [hu] at h
    dsimp only at h
    cases hus : applyAll us p.1 with
    | error fault =>
      rw [hus] at h
      cases h
    | ok q =>
      rw [hus] at h
      cases h
      exact ⟨p.1, p.2, q.2, rfl, hus, rfl⟩

/-- If requests succeed, so do the first of them, and the others on the screen that these leave. -/
theorem applyAll_append_eq_ok (h : applyAll (us ++ vs) s = .ok (t, changes)) :
    ∃ r a b, applyAll us s = .ok (r, a) ∧ applyAll vs r = .ok (t, b) ∧ changes = a ++ b := by
  induction us generalizing s changes with
  | nil => exact ⟨s, [], changes, rfl, h, rfl⟩
  | cons u us ih =>
    obtain ⟨p, a, b, hu, hrest, rfl⟩ := applyAll_cons_eq_ok h
    obtain ⟨r, c, d, hus, hvs, rfl⟩ := ih hrest
    refine ⟨r, a ++ c, d, ?_, hvs, (List.append_assoc a c d).symm⟩
    rw [applyAll, hu]
    dsimp only
    rw [hus]
    rfl

/-- A request that is made or not. -/
theorem applyAll_option_eq_ok {α : Type} {x : Option α} {g : α → Mutation}
    (h : applyAll (x.toList.map g) s = .ok (t, changes)) :
    x = none ∧ t = s ∧ changes = [] ∨ ∃ a, x = some a ∧ (g a).apply s = .ok (t, changes) := by
  cases x with
  | none =>
    cases h
    exact .inl ⟨rfl, rfl, rfl⟩
  | some a =>
    obtain ⟨r, b, c, hu, hnil, rfl⟩ := applyAll_cons_eq_ok h
    cases hnil
    rw [List.append_nil]
    exact .inr ⟨a, rfl, hu⟩

end Mutation

/-- A change that an output has already may be told or not. -/
theorem Change.writeAll_changeIf {p : Prop} [Decidable p] {change : Change} {o : Output}
    (h : ¬ p → change.write o = o) : writeAll (changeIf p change) o = change.write o := by
  by_cases hp : p
  · rw [changeIf, if_pos hp]
    rfl
  · rw [changeIf, if_neg hp, h hp]
    rfl

namespace Model

/-- Activating a screen leaves it to each screen whether it is the one. -/
theorem screen?_activated (m : Model) (id k : OutputId) :
    (m.activated id).screen? k = (m.screen? k).map fun s => { s with active := s.id = id } :=
  List.find?_map

/-- The hardware need not follow the news of which screen is active. -/
theorem exists_queue_activated (m : Model) (id : OutputId) :
    ∃ news, (m.activated id).queue = m.queue ++ news ∧ ∀ n ∈ news, n.isRequest = false := by
  refine ⟨_, List.append_assoc _ _ _, fun n hn => ?_⟩
  rcases List.mem_append.mp hn with hn | hn
  · obtain ⟨k, -, rfl⟩ := List.mem_map.mp hn
    rfl
  · split at hn
    · exact absurd hn List.not_mem_nil
    · rw [List.mem_singleton.mp hn]
      rfl

end Model

/-! ## What a request does to a screen -/

namespace Screen

variable {s t : Screen} {changes : List Change}

private theorem setUsed_eq (used : Bool) (s : Screen) :
    s.setUsed used = ({ s with used }, changeIf (s.used ≠ used) (.used used)) := by
  by_cases h : s.used = used
  · rw [setUsed, if_pos h, changeIf, if_neg (not_not_intro h), ← h]
  · rw [setUsed, if_neg h, changeIf, if_pos h]

private theorem setForm_eq (form : FormFactor) (s : Screen) :
    s.setForm form = ({ s with form }, changeIf (s.form ≠ form) (.form form)) := by
  by_cases h : s.form = form
  · rw [setForm, if_pos h, changeIf, if_neg (not_not_intro h), ← h]
  · rw [setForm, if_neg h, changeIf, if_pos h]

/-- A request for a scale that succeeds was for a finite positive one, which the screen then has up
to rounding. -/
theorem setScale_eq_ok {x : Float} (h : s.setScale x = .ok (t, changes)) :
    isPositiveScale x = true ∧
    t = { s with scale := if scaleEq s.scale x then s.scale else x } ∧
    changes = if scaleEq s.scale x then [] else [.scale x] := by
  unfold setScale at h
  split at h
  · cases h
  · rename_i hx
    refine ⟨Bool.not_eq_false _ ▸ hx, ?_⟩
    by_cases heq : scaleEq s.scale x = true
    · rw [if_pos heq] at h ⊢
      cases h
      rw [if_pos heq]
      exact ⟨rfl, rfl⟩
    · rw [if_neg heq] at h ⊢
      cases h
      rw [if_neg heq]
      exact ⟨rfl, rfl⟩

/-- A request for a mode that succeeds was for an index in range, which the screen then has. -/
theorem setModeIndex_eq_ok {i : Nat} (h : s.setModeIndex i = .ok (t, changes)) :
    i < s.modes.length ∧ t = { s with modeIndex := i } ∧
    changes = changeIf (s.modeIndex ≠ i) (.modeIndex i) := by
  unfold setModeIndex at h
  split at h
  · cases h
  · rename_i hi
    refine ⟨Nat.lt_of_not_le hi, ?_⟩
    by_cases heq : s.modeIndex = i
    · rw [if_pos heq] at h
      cases h
      rw [changeIf, if_neg (not_not_intro heq), ← heq]
      exact ⟨rfl, rfl⟩
    · rw [if_neg heq] at h
      cases h
      rw [changeIf, if_pos heq]
      exact ⟨rfl, rfl⟩

/-- A request for a size that succeeds is one for the first mode of the size. -/
theorem setSize_eq_ok {z : Resolution} (h : s.setSize z = .ok (t, changes)) :
    ∃ i, (s.modes.findIdx? fun m => m.resolution = z) = some i ∧
      s.setModeIndex i = .ok (t, changes) := by
  unfold setSize at h
  split at h
  · rename_i i hi
    exact ⟨i, hi, h⟩
  · cases h

end Screen

/-! ## What the optional requests do -/

namespace SetRequest

/-- The request names nothing that a screen with these modes refuses. -/
structure Fits (r : SetRequest) (modes : List Mode) : Prop where
  /-- The scale is finite and positive. -/
  scale : ∀ x ∈ r.scale, isPositiveScale x = true
  /-- The index is in range. -/
  modeIndex : ∀ i ∈ r.modeIndex, i < modes.length
  /-- There is a mode of the size. -/
  size : ∀ z ∈ r.size, ∃ m ∈ modes, m.resolution = z

/-- The index that the request names among these modes: that of the first mode of the size, if it
names a size. -/
def index? (r : SetRequest) (modes : List Mode) : Option Nat :=
  (r.size.bind fun z => modes.findIdx? fun m => m.resolution = z).or r.modeIndex

/-- The scale in place of an old one: the one that the request names, unless this is equal to the
scale of the screen up to rounding. -/
def rescaled (r : SetRequest) (s : Screen) (old : Float) : Float :=
  r.scale.elim old fun x => if scaleEq s.scale x then old else x

/-- The screen with what the request names for it. -/
def amend (r : SetRequest) (s : Screen) : Screen :=
  { s with
    used := r.used.getD s.used
    scale := r.rescaled s s.scale
    modeIndex := (r.index? s.modes).getD s.modeIndex
    form := r.form.getD s.form
    active := s.active || r.activate }

/-- The output with what the request names and its screen announces. -/
def carry (r : SetRequest) (s : Screen) (o : Output) : Output :=
  { o with
    used := r.used.getD o.used
    scale := r.rescaled s o.scale
    modeIndex := (r.index? s.modes).getD o.modeIndex
    form := r.form.getD o.form }

/-- The requests that are made to the screen, in order. -/
def mutations (r : SetRequest) : List Mutation :=
  r.used.toList.map .used ++ r.scale.toList.map .scale ++ r.modeIndex.toList.map .modeIndex ++
    r.size.toList.map .size ++ r.form.toList.map .form

private theorem steps_eq (r : SetRequest) : r.steps = r.mutations.map Mutation.apply := by
  simp only [steps, mutations, List.map_append, List.map_map]
  rfl

variable {r : SetRequest} {s t : Screen} {changes : List Change}

/-- The request for use, if there is one, sets what it names. -/
theorem applyAll_used {x : Option Bool}
    (h : Mutation.applyAll (x.toList.map .used) s = .ok (t, changes)) :
    t = { s with used := x.getD s.used } ∧
    ∀ o : Output, s.used = o.used →
      Change.writeAll changes o = { o with used := x.getD o.used } := by
  rcases Mutation.applyAll_option_eq_ok h with ⟨rfl, rfl, rfl⟩ | ⟨u, rfl, hu⟩
  · exact ⟨rfl, fun _ _ => rfl⟩
  · rw [Mutation.apply, Screen.setUsed_eq] at hu
    cases hu
    refine ⟨rfl, fun o ho => Change.writeAll_changeIf fun hp => ?_⟩
    rw [← not_not.mp hp, ho]
    rfl

/-- The request for a kind of device, if there is one, sets what it names. -/
theorem applyAll_form {x : Option FormFactor}
    (h : Mutation.applyAll (x.toList.map .form) s = .ok (t, changes)) :
    t = { s with form := x.getD s.form } ∧
    ∀ o : Output, s.form = o.form →
      Change.writeAll changes o = { o with form := x.getD o.form } := by
  rcases Mutation.applyAll_option_eq_ok h with ⟨rfl, rfl, rfl⟩ | ⟨f, rfl, hf⟩
  · exact ⟨rfl, fun _ _ => rfl⟩
  · rw [Mutation.apply, Screen.setForm_eq] at hf
    cases hf
    refine ⟨rfl, fun o ho => Change.writeAll_changeIf fun hp => ?_⟩
    rw [← not_not.mp hp, ho]
    rfl

/-- The request for a scale, if there is one and it succeeds, sets what it names up to rounding. -/
theorem applyAll_scale (h : Mutation.applyAll (r.scale.toList.map .scale) s = .ok (t, changes)) :
    (∀ x ∈ r.scale, isPositiveScale x = true) ∧ t = { s with scale := r.rescaled s s.scale } ∧
    ∀ o : Output, Change.writeAll changes o = { o with scale := r.rescaled s o.scale } := by
  unfold rescaled
  rcases Mutation.applyAll_option_eq_ok h with ⟨hnone, rfl, rfl⟩ | ⟨x, hsome, hx⟩
  · rw [hnone]
    exact ⟨fun x hx => (Option.not_mem_none x hx).elim, rfl, fun _ => rfl⟩
  · obtain ⟨hpositive, rfl, rfl⟩ := Screen.setScale_eq_ok hx
    rw [hsome]
    refine ⟨fun y hy => Option.some.inj hy ▸ hpositive, rfl, fun o => ?_⟩
    rw [Option.elim_some]
    split <;> rfl

/-- A mode that is asked for by its index, which may come from a size. -/
theorem setModeIndex_leads {i : Nat} (h : s.setModeIndex i = .ok (t, changes)) :
    t = { s with modeIndex := i } ∧
    ∀ o : Output, s.modeIndex = o.modeIndex →
      Change.writeAll changes o = { o with modeIndex := i } := by
  obtain ⟨-, rfl, rfl⟩ := Screen.setModeIndex_eq_ok h
  refine ⟨rfl, fun o ho => Change.writeAll_changeIf fun hp => ?_⟩
  rw [← not_not.mp hp, ho]
  rfl

/-- The request for a mode, if there is one and it succeeds, sets what it names. -/
theorem applyAll_modeIndex {x : Option Nat}
    (h : Mutation.applyAll (x.toList.map .modeIndex) s = .ok (t, changes)) :
    (∀ i ∈ x, i < s.modes.length) ∧ t = { s with modeIndex := x.getD s.modeIndex } ∧
    ∀ o : Output, s.modeIndex = o.modeIndex →
      Change.writeAll changes o = { o with modeIndex := x.getD o.modeIndex } := by
  rcases Mutation.applyAll_option_eq_ok h with ⟨rfl, rfl, rfl⟩ | ⟨i, rfl, hi⟩
  · exact ⟨fun i hi => (Option.not_mem_none i hi).elim, rfl, fun _ _ => rfl⟩
  · have hlt := (Screen.setModeIndex_eq_ok hi).1
    exact ⟨fun k hk => Option.some.inj hk ▸ hlt, setModeIndex_leads hi⟩

/-- The request for a size, if there is one and it succeeds, sets the first mode of the size. -/
theorem applyAll_size {x : Option Resolution}
    (h : Mutation.applyAll (x.toList.map .size) s = .ok (t, changes)) :
    let found := x.bind fun z => s.modes.findIdx? fun m => m.resolution = z
    (∀ z ∈ x, ∃ m ∈ s.modes, m.resolution = z) ∧
    t = { s with modeIndex := found.getD s.modeIndex } ∧
    ∀ o : Output, s.modeIndex = o.modeIndex →
      Change.writeAll changes o = { o with modeIndex := found.getD o.modeIndex } := by
  rcases Mutation.applyAll_option_eq_ok h with ⟨rfl, rfl, rfl⟩ | ⟨z, rfl, hz⟩
  · exact ⟨fun z hz => (Option.not_mem_none z hz).elim, rfl, fun _ _ => rfl⟩
  · obtain ⟨i, hfound, hi⟩ := Screen.setSize_eq_ok hz
    obtain ⟨hlt, hm, -⟩ := List.findIdx?_eq_some_iff_getElem.mp hfound
    rw [Option.bind_some, hfound]
    refine ⟨fun y hy => ?_, setModeIndex_leads hi⟩
    exact ⟨s.modes[i], List.getElem_mem hlt, Option.some.inj hy ▸ of_decide_eq_true hm⟩

/-- If a screen makes all requests, they fit it, and it has what they name; which screen is active
is not asked of it. So has an output that agreed with it, once it followed what it told. -/
theorem applyAll_mutations (h : Mutation.applyAll r.mutations s = .ok (t, changes)) :
    r.Fits s.modes ∧ t = { r.amend s with active := s.active } ∧
    ∀ o : Output, s.used = o.used → s.modeIndex = o.modeIndex → s.form = o.form →
      Change.writeAll changes o = r.carry s o := by
  obtain ⟨s₄, _, e, h₄, hform, rfl⟩ := Mutation.applyAll_append_eq_ok h
  obtain ⟨s₃, _, d, h₃, hsize, rfl⟩ := Mutation.applyAll_append_eq_ok h₄
  obtain ⟨s₂, _, c, h₂, hindex, rfl⟩ := Mutation.applyAll_append_eq_ok h₃
  obtain ⟨s₁, a, b, hused, hscale, rfl⟩ := Mutation.applyAll_append_eq_ok h₂
  obtain ⟨rfl, ha⟩ := applyAll_used hused
  obtain ⟨hpositive, rfl, hb⟩ := applyAll_scale hscale
  obtain ⟨hrange, rfl, hc⟩ := applyAll_modeIndex hindex
  obtain ⟨hfound, rfl, hd⟩ := applyAll_size hsize
  obtain ⟨rfl, he⟩ := applyAll_form hform
  refine ⟨⟨hpositive, hrange, hfound⟩, ?_, fun o ho hi hf => ?_⟩
  · rw [amend, index?, Option.getD_or]
    rfl
  · -- Each request finds in the output what the screen had of it, for the others write elsewhere.
    simp only [Change.writeAll_append]
    rw [ha o ho, hb, hc, hd, he]
    · rw [carry, index?, Option.getD_or]
      rfl
    · exact hf
    · exact congrArg r.modeIndex.getD hi
    · exact hi

/-! ## What the requests do to the model -/

/-- The news of changes that the software made to the screen of an output. -/
def requested (id : OutputId) (changes : List Change) : List Notification :=
  changes.map fun change => ⟨id, change, .software⟩

variable {m : Model} {id : OutputId}

/-- If requests are made to the model, the one screen makes them all, and what it tells is
queued. -/
theorem update_eq_ok {us : List Mutation} (hs : m.screen? id = some s)
    (h : (update id (us.map Mutation.apply) m).1 = .ok ()) :
    ∃ t changes, Mutation.applyAll us s = .ok (t, changes) ∧
      (update id (us.map Mutation.apply) m).2.screen? id = some t ∧
      (update id (us.map Mutation.apply) m).2.queue = m.queue ++ requested id changes := by
  induction us generalizing m s with
  | nil => exact ⟨s, [], rfl, hs, (List.append_nil _).symm⟩
  | cons u us ih =>
    have hid : ∀ s, (u.attempt s).1.id = s.id := fun s => Screen.moved_id (u.moved_attempt s)
    have hmodel := Model.mutate_eq_update m id u
    cases hu : u.apply s with
    | error fault =>
      have hstep : m.tryUpdate id u.apply = (.error fault, m) := by
        simp only [Model.tryUpdate, hs, hu]
      simp only [List.map_cons, update, hstep, reduceCtorEq] at h
    | ok first =>
      obtain ⟨s₁, a⟩ := first
      have hattempt : u.attempt s = (s₁, a) := by simp only [Mutation.attempt, hu]
      have hid₁ : s₁.id = id := by
        rw [← Model.id_of_screen? hs, ← hid s, hattempt]
      have hstep : m.tryUpdate id u.apply = (.ok (), (m.mutate id u).2) := by
        simp only [Model.mutate, Model.tryUpdate, hs, hu]
      have hs₁ : (m.mutate id u).2.screen? id = some s₁ := by
        rw [hmodel, Model.screen?_update hid, if_pos rfl, hs, Option.map_some, hattempt]
      have hqueue : (m.mutate id u).2.queue = m.queue ++ requested id a := by
        rw [hmodel, Model.queue_update, Model.news_of_screen? hs, hattempt, hid₁, requested]
      simp only [List.map_cons, update, hstep] at h ⊢
      obtain ⟨t, b, hrest, hfound, hq⟩ := ih hs₁ h
      refine ⟨t, a ++ b, ?_, hfound, ?_⟩
      · rw [Mutation.applyAll, hu]
        dsimp only
        rw [hrest]
        rfl
      · rw [hq, hqueue, requested, requested, requested, List.map_append, List.append_assoc]

/-- If a request is made to the model, it fits the screen of its output, the screen has what it
names and is the active one if it says so, and what the hardware has to follow of the news leads the
output there. -/
theorem apply_eq_ok (hn : m.ids.Nodup) (hs : m.screen? r.output = some s)
    (h : (r.apply m).1 = .ok ()) :
    r.Fits s.modes ∧
    (r.apply m).2.screen? r.output = some (r.amend s) ∧
    ∃ changes others, (r.apply m).2.queue = m.queue ++ requested r.output changes ++ others ∧
      (∀ n ∈ others, n.isRequest = false) ∧
      ∀ o : Output, s.used = o.used → s.modeIndex = o.modeIndex → s.form = o.form →
        Change.writeAll changes o = r.carry s o := by
  have hids : (update r.output r.steps m).2.ids = m.ids :=
    (update_keeps r.output (fun f hf => exists_mutation hf) m).1
  rcases hu : update r.output r.steps m with ⟨answer, m₁⟩
  rw [hu] at hids
  cases answer with
  | error fault => simp only [apply, hu, reduceCtorEq] at h
  | ok u =>
    rw [steps_eq] at hu
    obtain ⟨t, changes, hall, hfound, hqueue⟩ := update_eq_ok hs (congrArg Prod.fst hu)
    rw [hu] at hfound hqueue
    rw [← steps_eq] at hu
    obtain ⟨hfits, rfl, hwrite⟩ := applyAll_mutations hall
    refine ⟨hfits, ?_⟩
    cases ha : r.activate with
    | false =>
      have happly : (r.apply m).2 = m₁ := by
        simp only [apply, hu, ha, Bool.false_eq_true, ite_false]
      have hamend : { r.amend s with active := s.active } = r.amend s := by
        rw [amend, ha, Bool.or_false]
      rw [hamend] at hfound
      rw [happly]
      exact ⟨hfound, changes, [], by rw [hqueue, List.append_nil],
        fun n hn => absurd hn List.not_mem_nil, hwrite⟩
    | true =>
      have hmem : r.output ∈ m₁.ids := Model.isSome_screen?.mp (hfound ▸ rfl)
      have happly : (r.apply m).2 = m₁.activated r.output := by
        simp only [apply, hu, ha, ite_true, Model.activate_eq (hids ▸ hn) hmem]
      obtain ⟨others, hactivated, hothers⟩ := Model.exists_queue_activated m₁ r.output
      have hid : s.id = r.output := Model.id_of_screen? hs
      rw [happly, Model.screen?_activated, hfound, hactivated, hqueue]
      refine ⟨?_, changes, others, rfl, hothers, hwrite⟩
      rw [Option.map_some, amend, ha, Bool.or_true, decide_eq_true hid]

end SetRequest

end Displays
