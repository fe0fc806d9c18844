import Displays.Command.Basic
import Displays.Proofs.Orderly

/-!
# Setting an output

Changing the settings of an output makes requests to its screen, processes them, may request a
position, and takes over what the hardware made of it. The requests concern the one output: no other
one is announced for the hardware to follow, and no screen comes or goes before the end. So whatever
is submitted goes under the name of the output, or is left over from before, or restores the options
of an output that the hardware is found to have connected in the end.
-/

namespace Displays

namespace Model

variable {m m' : Model} {id : OutputId} {names : List OutputId}

/-- An update announces requests of its own output only. -/
theorem requested_update {origin : Origin} {f : Screen → Screen × List Change}
    (hf : ∀ s, (f s).1.id = s.id) (h : (m.update id origin f).Requested names) :
    m.Requested names ∨ names = [id] := by
  obtain ⟨n, hn, hr, rfl⟩ := h
  rw [queue_update, List.mem_append] at hn
  rcases hn with hn | hn
  · exact .inl ⟨n, hn, hr, rfl⟩
  · exact .inr (by rw [output_of_mem_news hf hn])

/-- An update of what the hardware need not follow announces no request. -/
theorem requested_update_of_not_followed {origin : Origin} {f : Screen → Screen × List Change}
    (hf : ∀ s, ∀ change ∈ (f s).2, change.field.isFollowed = false)
    (h : (m.update id origin f).Requested names) : m.Requested names := by
  obtain ⟨n, hn, hr, hnames⟩ := h
  rw [queue_update, List.mem_append] at hn
  rcases hn with hn | hn
  · exact ⟨n, hn, hr, hnames⟩
  · have hfollowed := (Notification.isRequest_iff.mp hr).2
    cases hs : m.screen? id with
    | none => simp only [news, hs, Option.elim_none, List.not_mem_nil] at hn
    | some s =>
      rw [news_of_screen? hs] at hn
      obtain ⟨change, hchange, rfl⟩ := List.mem_map.mp hn
      rw [hf s change hchange] at hfollowed
      exact Bool.noConfusion hfollowed

private theorem not_followed_setActive (active : Bool) (s : Screen) :
    ∀ change ∈ (s.setActive active).2, change.field.isFollowed = false := by
  intro change hchange
  unfold Screen.setActive at hchange
  split at hchange
  · exact absurd hchange List.not_mem_nil
  · rw [List.mem_singleton.mp hchange]
    rfl

/-- Updating every screen keeps all names. -/
theorem ids_updateAll {origin : Origin} {f : Screen → Screen × List Change} :
    (m.updateAll origin f).ids = m.ids := by
  have hfold : ∀ (l : List Screen) (m : Model),
      (l.foldl (fun m s => m.update s.id origin f) m).ids = m.ids := by
    intro l
    induction l with
    | nil => exact fun _ => rfl
    | cons s l ih => exact fun m => (ih _).trans ids_update
  exact hfold m.screens m

private theorem requested_updateAll_of_not_followed {origin : Origin}
    {f : Screen → Screen × List Change}
    (hf : ∀ s, ∀ change ∈ (f s).2, change.field.isFollowed = false)
    (h : (m.updateAll origin f).Requested names) : m.Requested names := by
  have hfold : ∀ (l : List Screen) (m : Model),
      (l.foldl (fun m s => m.update s.id origin f) m).Requested names → m.Requested names := by
    intro l
    induction l with
    | nil => exact fun _ h => h
    | cons s l ih => exact fun m h => requested_update_of_not_followed hf (ih _ h)
  exact hfold m.screens m h

/-- Activating a screen keeps all names. -/
theorem ids_activate (h : m.activate id = .ok m') : m'.ids = m.ids := by
  unfold activate at h
  cases hs : m.screen? id with
  | none => simp only [hs, reduceCtorEq] at h
  | some s =>
    simp only [hs, Except.ok.injEq] at h
    rw [← h, ids_update, ids_updateAll]

/-- Activating a screen announces no request. -/
theorem requested_activate (h : m.activate id = .ok m') (hr : m'.Requested names) :
    m.Requested names := by
  unfold activate at h
  cases hs : m.screen? id with
  | none => simp only [hs, reduceCtorEq] at h
  | some s =>
    simp only [hs, Except.ok.injEq] at h
    rw [← h] at hr
    refine requested_updateAll_of_not_followed ?_
      (requested_update_of_not_followed (not_followed_setActive true) hr)
    intro t change hchange
    by_cases ht : t.id = id
    · rw [if_pos ht] at hchange
      exact absurd hchange List.not_mem_nil
    · rw [if_neg ht] at hchange
      exact not_followed_setActive false t change hchange

/-- A request to a screen keeps all names. -/
theorem ids_mutate (m : Model) (id : OutputId) (u : Mutation) : (m.mutate id u).2.ids = m.ids := by
  rw [mutate_eq_update, ids_update]

private theorem requested_mutate {u : Mutation} (h : (m.mutate id u).2.Requested names) :
    m.Requested names ∨ names = [id] := by
  rw [mutate_eq_update] at h
  exact requested_update (fun s => Screen.moved_id (u.moved_attempt s)) h

/-- Which outputs a configuration gives a screen depends on which outputs have one. -/
theorem added_congr (h : m.ids = m'.ids) (c : Configuration) :
    (m.absorb c).2.added = (m'.absorb c).2.added := by
  have houtputs : ∀ (l : List Output) (m m' : Model), m.ids = m'.ids →
      (m.absorbOutputs l).2 = (m'.absorbOutputs l).2 := by
    intro l
    induction l with
    | nil => exact fun _ _ _ => rfl
    | cons o l ih =>
      intro m m' h
      have hrest := ih (m.absorbOutput o) (m'.absorbOutput o)
        (by rw [ids_absorbOutput, ids_absorbOutput, h])
      have hsame : (m.screen? o.id).isSome = (m'.screen? o.id).isSome := by
        rw [Bool.eq_iff_iff, isSome_screen?, isSome_screen?, h]
      simp only [absorbOutputs, hrest, hsame]
  exact houtputs _ (m.kept c) (m'.kept c) (by rw [ids_kept, ids_kept, h])

end Model

namespace SetRequest

variable {r : SetRequest} {m : Model} {names : List OutputId}

/-- Every step is a request to the screen. -/
theorem exists_mutation {f : Screen → Except ConfigFault (Screen × List Change)}
    (hf : f ∈ r.steps) : ∃ u : Mutation, f = u.apply := by
  simp only [steps, List.mem_append, List.mem_map] at hf
  rcases hf with (((⟨u, _, rfl⟩ | ⟨x, _, rfl⟩) | ⟨i, _, rfl⟩) | ⟨z, _, rfl⟩) | ⟨k, _, rfl⟩
  · exact ⟨.used u, rfl⟩
  · exact ⟨.scale x, rfl⟩
  · exact ⟨.modeIndex i, rfl⟩
  · exact ⟨.size z, rfl⟩
  · exact ⟨.form k, rfl⟩

/-- Requests to the screen of one output keep the screens and announce requests of this output. -/
theorem update_keeps (id : OutputId) {l : List (Screen → Except ConfigFault (Screen × List Change))}
    (hl : ∀ f ∈ l, ∃ u : Mutation, f = u.apply) (m : Model) :
    (update id l m).2.ids = m.ids ∧
    ∀ names, (update id l m).2.Requested names → m.Requested names ∨ names = [id] := by
  induction l generalizing m with
  | nil => exact ⟨rfl, fun _ h => .inl h⟩
  | cons f l ih =>
    obtain ⟨u, rfl⟩ := hl f List.mem_cons_self
    have hids := Model.ids_mutate m id u
    have hrequested : ∀ names, (m.mutate id u).2.Requested names → m.Requested names ∨
        names = [id] := fun _ h => Model.requested_mutate h
    rcases hm : m.mutate id u with ⟨answer, m'⟩
    rw [hm] at hids hrequested
    have hstep : m.tryUpdate id u.apply = (answer, m') := hm
    cases answer with
    | error fault =>
      simp only [update, hstep]
      exact ⟨hids, hrequested⟩
    | ok v =>
      simp only [update, hstep]
      obtain ⟨hids', hrequested'⟩ := ih (fun g hg => hl g (List.mem_cons_of_mem _ hg)) m'
      refine ⟨hids'.trans hids, fun names h => ?_⟩
      rcases hrequested' names h with h | h
      · exact hrequested names h
      · exact .inr h

/-- Making all requests keeps the screens and announces requests of the one output. -/
theorem apply_keeps (r : SetRequest) (m : Model) :
    (r.apply m).2.ids = m.ids ∧
    ∀ names, (r.apply m).2.Requested names → m.Requested names ∨ names = [r.output] := by
  obtain ⟨hids, hrequested⟩ := update_keeps r.output (fun f hf => exists_mutation hf) m
  rcases hu : update r.output r.steps m with ⟨answer, m'⟩
  rw [hu] at hids hrequested
  cases answer with
  | error fault =>
    simp only [apply, hu]
    exact ⟨hids, hrequested⟩
  | ok v =>
    by_cases ha : r.activate = true
    · cases hm : m'.activate r.output with
      | error fault =>
        simp only [apply, hu, ha, hm, ite_true]
        exact ⟨hids, hrequested⟩
      | ok m'' =>
        simp only [apply, hu, ha, hm, ite_true]
        exact ⟨(Model.ids_activate hm).trans hids, fun names h =>
          hrequested names (Model.requested_activate hm h)⟩
    · simp only [apply, hu, ha, Bool.false_eq_true, ite_false]
      exact ⟨hids, hrequested⟩

end SetRequest

namespace State

variable {H : Type} [Hardware H]

/-- The state once the requests to the screen were made. -/
def asked (r : SetRequest) (s : State H) : State H :=
  { s with model := (r.apply s.model).2 }

/-- How far setting an output goes: to the missing screen, to the request that fails, to the fault
of the hardware that follows, to the position that is not accepted, or to the end. -/
theorem set_cases (r : SetRequest) (s : State H) :
    (s.set r = (.error (.noOutput r.output), s)) ∨
    (∃ fault, (r.apply s.model).1 = .error fault ∧
      s.set r = (.error (.config fault), s.asked r)) ∨
    (∃ fault, (s.asked r).process.1 = .error fault ∧
      s.set r = (.error (.config fault), (s.asked r).process.2)) ∨
    ((s.asked r).process.1 = .ok () ∧ r.position = none ∧
      s.set r = (s.asked r).process.2.confirm r.output) ∨
    (∃ position fault, (s.asked r).process.1 = .ok () ∧ r.position = some position ∧
      ((s.asked r).process.2.place r.output position).1 = .error fault ∧
      s.set r = (.error fault, ((s.asked r).process.2.place r.output position).2)) ∨
    (∃ position, (s.asked r).process.1 = .ok () ∧ r.position = some position ∧
      ((s.asked r).process.2.place r.output position).1 = .ok () ∧
      s.set r = ((s.asked r).process.2.place r.output position).2.confirm r.output) := by
  cases hs : s.model.screen? r.output with
  | none => exact .inl (by simp only [set, hs])
  | some screen =>
    right
    rcases ha : r.apply s.model with ⟨answer, m⟩
    have hasked : s.asked r = { s with model := m } := by simp only [asked, ha]
    cases answer with
    | error fault => exact .inl ⟨fault, rfl, by simp only [set, hs, ha, hasked]⟩
    | ok u =>
      right
      rcases hp : (s.asked r).process with ⟨answer, t⟩
      rw [hasked] at hp
      cases answer with
      | error fault => exact .inl ⟨fault, rfl, by simp only [set, hs, ha, hp]⟩
      | ok u =>
        right
        cases hpos : r.position with
        | none => exact .inl ⟨rfl, rfl, by simp only [set, hs, ha, hp, hpos]⟩
        | some position =>
          right
          rcases hplace : t.place r.output position with ⟨answer, t'⟩
          cases answer with
          | error fault =>
            exact .inl ⟨position, fault, rfl, rfl, by rw [hplace],
              by simp only [set, hs, ha, hp, hpos, hplace]⟩
          | ok u =>
            exact .inr ⟨position, rfl, rfl, by rw [hplace],
              by simp only [set, hs, ha, hp, hpos, hplace]⟩

/-- Processing that succeeds only drains the model. -/
theorem model_process_of_ok {s : State H} (h : s.process.1 = .ok ()) :
    s.process.2.model = s.model.drained := by
  rcases process_cases s with ⟨_, hp⟩ | ⟨_, _, _, _, hp⟩ | ⟨_, _, _, _, hp⟩
  · rw [hp]
  · rw [hp] at h
    exact absurd h (by simp only [reduceCtorEq, not_false_eq_true])
  · rw [hp] at h
    exact absurd h (by simp only [reduceCtorEq, not_false_eq_true])

/-- Placing an output asks the hardware and leaves the model alone. -/
theorem model_place (id : OutputId) (position : Point) (s : State H) :
    (s.place id position).2.model = s.model := by
  unfold place
  split
  · rfl
  · split <;> rfl

/-- Confirming an output leaves the state that taking over the configuration leaves. -/
theorem confirm_snd (id : OutputId) (s : State H) : (s.confirm id).2 = s.sync.2 := by
  rcases hs : s.sync with ⟨answer, t⟩
  cases answer <;> simp only [confirm, hs]

/-- A position is requested under the name of the output. -/
theorem proceeds_place (id : OutputId) (position : Point) (s : State (Recorded H)) :
    s.hardware.Proceeds (· = [id]) (s.place id position).2.hardware := by
  cases hs : s.model.screen? id with
  | none =>
    simp only [place, hs]
    exact Recorded.Proceeds.refl _ _
  | some screen =>
    have hrequest : s.hardware.Proceeds (· = [id]) (Guarded.requestAll
        [(id, { screen.settings with topLeft := position })] s.hardware).2 :=
      Guarded.proceeds_requestAll _ s.hardware
    rcases hg : Guarded.request id { screen.settings with topLeft := position } s.hardware with
      ⟨answer, r⟩
    rw [Guarded.request] at hg
    rw [hg] at hrequest
    cases answer <;> simpa only [place, hs, Guarded.request, hg] using hrequest

/-- Setting an output submits under the names of the requests in the queue, of the output, and of
the outputs that the hardware is found to have connected in the end. -/
theorem calls_set (r : SetRequest) (s : State (Recorded H)) :
    ∃ calls, (s.set r).2.hardware.calls = s.hardware.calls ++ calls ∧
      Orderly (fun names => s.model.Requested names ∨ names = [r.output] ∨
        s.model.Connected calls names) calls := by
  let Asked : List OutputId → Prop := fun names => s.model.Requested names ∨ names = [r.output]
  obtain ⟨hids, hrequested⟩ := r.apply_keeps s.model
  have hprocess : s.hardware.Proceeds Asked (s.asked r).process.2.hardware :=
    (proceeds_process (s.asked r)).mono hrequested
  have hend : ∀ t : State (Recorded H), s.hardware.Proceeds Asked t.hardware →
      ∃ calls, t.hardware.calls = s.hardware.calls ++ calls ∧
        Orderly (fun names => s.model.Requested names ∨ names = [r.output] ∨
          s.model.Connected calls names) calls := by
    rintro t ⟨calls, hcalls, ho⟩
    exact ⟨calls, hcalls, ho.mono fun names h => h.imp_right .inl⟩
  -- The queue is empty and the screens are the same by then, so the outputs that get a screen in
  -- the end are those that would have got it in the beginning.
  have hconfirm : ∀ t : State (Recorded H), (s.asked r).process.1 = .ok () →
      t.model = (s.asked r).process.2.model → s.hardware.Proceeds Asked t.hardware →
      ∃ calls, (t.confirm r.output).2.hardware.calls = s.hardware.calls ++ calls ∧
        Orderly (fun names => s.model.Requested names ∨ names = [r.output] ∨
          s.model.Connected calls names) calls := by
    rintro t hok ht ⟨calls, hcalls, ho⟩
    rw [model_process_of_ok hok] at ht
    obtain ⟨later, hlater, hl⟩ := calls_sync t
    refine ⟨calls ++ later, by rw [confirm_snd, hlater, hcalls, List.append_assoc], ?_⟩
    refine (ho.mono fun names h => h.imp_right .inl).append (hl.mono fun names hnames => ?_)
    rcases hnames with ⟨n, hn, _⟩ | ⟨c, id, hc, hid, hnames⟩
    · rw [ht] at hn
      exact absurd hn List.not_mem_nil
    · have hsame : t.model.ids = s.model.ids := by
        rw [ht]
        exact hids
      have hadded := Model.added_congr hsame c
      exact .inr (.inr ⟨c, id, List.mem_append_right calls hc, hadded ▸ hid, hnames⟩)
  have hplace : ∀ position, s.hardware.Proceeds Asked
      ((s.asked r).process.2.place r.output position).2.hardware := fun position =>
    hprocess.trans ((proceeds_place r.output position _).mono fun _ h => .inr h)
  rcases set_cases r s with h | ⟨_, _, h⟩ | ⟨_, _, h⟩ | ⟨hok, _, h⟩ | ⟨position, _, _, _, _, h⟩ |
    ⟨position, hok, _, _, h⟩
  · rw [h]
    exact hend s (Recorded.Proceeds.refl _ _)
  · rw [h]
    exact hend (s.asked r) (Recorded.Proceeds.refl _ _)
  · rw [h]
    exact hend _ hprocess
  · rw [h]
    exact hconfirm _ hok rfl hprocess
  · rw [h]
    exact hend _ (hplace position)
  · rw [h]
    exact hconfirm _ hok (model_place r.output position _) (hplace position)

end State

end Displays
