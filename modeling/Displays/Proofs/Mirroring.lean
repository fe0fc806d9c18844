import Displays.Proofs.Finding
import Displays.Proofs.Magnitude
import Displays.Proofs.Sensor

/-!
# Mirroring a screen

Whoever keeps a copy of the fields that notifications tell of and makes every change that is told
has the fields of the screen at any time. None of the news is idle: each tells another value than
the copy has. Whatever a request, a tilt or an observation changes, it tells field by field, and a
request that fails tells nothing because it changes nothing.

The scales that are taken over have to be finite. An infinite one is told whenever it is taken over,
though the screen has it already.
-/

namespace Displays

/-- The fields of a screen that notifications tell of. -/
@[ext]
structure View where
  /-- Whether the output is used. -/
  used : Bool
  /-- The scale. -/
  scale : Float
  /-- The kind of device. -/
  form : FormFactor
  /-- The index of the current mode. -/
  modeIndex : Nat
  /-- The modes on offer. -/
  modes : List Mode
  /-- The power mode. -/
  power : PowerMode
  /-- The place and the size of the picture. -/
  geometry : Rect
  /-- The refresh rate. -/
  refresh : Nat
  /-- How the picture is turned. -/
  orientation : Orientation
  /-- Whether the screen is the active one. -/
  active : Bool
  /-- The identity of the display, if it is known. -/
  identity : Option Identity
  deriving DecidableEq, Repr

/-- What can be told of the screen. -/
def Screen.view (s : Screen) : View where
  used := s.used
  scale := s.scale
  form := s.form
  modeIndex := s.modeIndex
  modes := s.modes
  power := s.power
  geometry := s.geometry
  refresh := s.refresh
  orientation := s.orientation
  active := s.active
  identity := s.identity

namespace View

/-- The view with the new value of a field. -/
def take : View → Change → View
  | v, .used used => { v with used }
  | v, .scale scale => { v with scale }
  | v, .form form => { v with form }
  | v, .modeIndex modeIndex => { v with modeIndex }
  | v, .modes modes => { v with modes }
  | v, .power power => { v with power }
  | v, .geometry geometry => { v with geometry }
  | v, .refresh refresh => { v with refresh }
  | v, .orientation orientation => { v with orientation }
  | v, .active active => { v with active }
  | v, .identity identity => { v with identity }

/-- The view after changes were told one after the other. -/
def takeAll (v : View) (changes : List Change) : View :=
  changes.foldl take v

/-- The change tells another value than the view has; of scales, that they compare as unequal. -/
def Differs (v : View) : Change → Prop
  | .used used => v.used ≠ used
  | .scale scale => (v.scale == scale) = false
  | .form form => v.form ≠ form
  | .modeIndex index => v.modeIndex ≠ index
  | .modes modes => v.modes ≠ modes
  | .power power => v.power ≠ power
  | .geometry geometry => v.geometry ≠ geometry
  | .refresh refresh => v.refresh ≠ refresh
  | .orientation orientation => v.orientation ≠ orientation
  | .active active => v.active ≠ active
  | .identity identity => v.identity ≠ identity

/-- Each change tells another value than the view has when its turn comes. -/
def AllDiffer : View → List Change → Prop
  | _, [] => True
  | v, change :: changes => v.Differs change ∧ (v.take change).AllDiffer changes

variable {v : View} {c d : Change} {l k : List Change}

private theorem takeAll_append (v : View) (l k : List Change) :
    v.takeAll (l ++ k) = (v.takeAll l).takeAll k := List.foldl_append

/-- Changes that all differ, and then others that do, all differ. -/
theorem allDiffer_append (hl : v.AllDiffer l) (hk : (v.takeAll l).AllDiffer k) :
    v.AllDiffer (l ++ k) := by
  induction l generalizing v with
  | nil => exact hk
  | cons c l ih => exact ⟨hl.1, ih hl.2 hk⟩

/-- Taking a change leaves the other fields. -/
theorem differs_take (h : c.field ≠ d.field) : (v.take c).Differs d ↔ v.Differs d := by
  cases c <;> cases d <;> first | exact Iff.rfl | exact absurd rfl h

/-- Changes of different fields do not get in each other's way. -/
theorem allDiffer_of_nodup (hn : (l.map Change.field).Nodup) (h : ∀ c ∈ l, v.Differs c) :
    v.AllDiffer l := by
  induction l generalizing v with
  | nil => trivial
  | cons c l ih =>
    rw [List.map_cons, List.nodup_cons] at hn
    refine ⟨h c List.mem_cons_self, ih hn.2 fun d hd => ?_⟩
    have hne : c.field ≠ d.field := fun hf => hn.1 (hf ▸ List.mem_map_of_mem hd)
    exact (differs_take hne).mpr (h d (List.mem_cons_of_mem c hd))

private theorem takeAll_changeIf (v : View) (p : Prop) [Decidable p] (c : Change) :
    v.takeAll (changeIf p c) = if p then v.take c else v := by
  unfold changeIf
  split <;> rfl

end View

/-- What becomes of a screen and what is told go together: the name is kept, whoever knows the
screen before knows it afterwards, every change tells another value, and no field is told of
twice. -/
structure Screen.Tells (s : Screen) (r : Screen × List Change) : Prop where
  /-- The name stays. -/
  id : r.1.id = s.id
  /-- Making the changes that are told leads from the one view to the other. -/
  view : r.1.view = s.view.takeAll r.2
  /-- Each change tells another value than there was when its turn comes. -/
  differ : s.view.AllDiffer r.2
  /-- No field is told of twice. -/
  once : (r.2.map Change.field).Nodup

private theorem mem_changeIf {p : Prop} [Decidable p] {c d : Change} :
    c ∈ changeIf p d ↔ p ∧ c = d := by
  unfold changeIf
  by_cases h : p
  · simp only [h, ite_true, List.mem_singleton, true_and]
  · simp only [h, ite_false, List.not_mem_nil, false_and]

private theorem sublist_changeIf (p : Prop) [Decidable p] (c : Change) :
    (changeIf p c).Sublist [c] := by
  unfold changeIf
  split
  · exact List.Sublist.refl _
  · exact List.nil_sublist _

namespace Screen

variable {s t : Screen} {r : Screen × List Change} {o : Output}

/-- The view of a screen with a new value has this value. -/
theorem view_take (s : Screen) (change : Change) : (s.take change).view = s.view.take change := by
  cases change <;> rfl

/-- Nothing is told of a screen whose view stays. -/
theorem tells_nothing (hid : t.id = s.id) (h : t.view = s.view) : s.Tells (t, []) :=
  ⟨hid, h, trivial, List.nodup_nil⟩

/-- A single change that tells another value. -/
theorem tells_change (change : Change) (h : s.view.Differs change) :
    s.Tells (s.take change, [change]) :=
  ⟨take_id change s, view_take s change, ⟨h, trivial⟩, List.nodup_singleton _⟩

/-- A change that is made unless it would tell nothing new. -/
theorem tells_unless {p : Prop} [Decidable p] (change : Change)
    (h : ¬ p → s.view.Differs change) :
    s.Tells (if p then (s, []) else (s.take change, [change])) := by
  split
  · exact tells_nothing rfl rfl
  · exact tells_change change (h ‹_›)

/-! ## Requests -/

/-- Requesting use tells what it changes. -/
theorem tells_setUsed (used : Bool) (s : Screen) : s.Tells (s.setUsed used) :=
  tells_unless (.used used) fun h => h

/-- Requesting a kind of device tells what it changes. -/
theorem tells_setForm (form : FormFactor) (s : Screen) : s.Tells (s.setForm form) :=
  tells_unless (.form form) fun h => h

/-- Making a screen active, or not, tells what it changes. -/
theorem tells_setActive (active : Bool) (s : Screen) : s.Tells (s.setActive active) :=
  tells_unless (.active active) fun h => h

/-- A scale that may be requested is finite. -/
theorem isFinite_of_isPositiveScale {x : Float} (h : isPositiveScale x = true) :
    x.isFinite = true := by
  simp only [isPositiveScale, Bool.and_eq_true] at h
  exact h.1

/-- Requesting a scale, if it is accepted, tells what it changes. -/
theorem tells_setScale {scale : Float} (h : s.setScale scale = .ok r) : s.Tells r := by
  unfold setScale at h
  split at h
  · simp only [reduceCtorEq] at h
  · rename_i hpositive
    have hfinite := isFinite_of_isPositiveScale (Bool.not_eq_false _ ▸ hpositive)
    split at h
    · obtain rfl := Except.ok.inj h
      exact tells_nothing rfl rfl
    · rename_i hscale
      obtain rfl := Except.ok.inj h
      exact tells_change (.scale scale)
        (Scale.beq_eq_false hfinite (Bool.not_eq_true _ ▸ hscale))

/-- Requesting a mode, if it is accepted, tells what it changes. -/
theorem tells_setModeIndex {index : Nat} (h : s.setModeIndex index = .ok r) : s.Tells r := by
  unfold setModeIndex at h
  split at h
  · simp only [reduceCtorEq] at h
  · split at h
    · obtain rfl := Except.ok.inj h
      exact tells_nothing rfl rfl
    · obtain rfl := Except.ok.inj h
      exact tells_change (.modeIndex index) ‹_›

/-- Requesting a size, if it is accepted, tells what it changes. -/
theorem tells_setSize {size : Resolution} (h : s.setSize size = .ok r) : s.Tells r := by
  unfold setSize at h
  split at h
  · exact tells_setModeIndex h
  · simp only [reduceCtorEq] at h

/-! ## Observations -/

/-- Tilting the device tells how it turns the picture. -/
theorem tells_tilt (t : Tilt) (s : Screen) : s.Tells (s.tilt t) := by
  unfold tilt
  split
  · split
    · exact tells_nothing rfl rfl
    · exact tells_unless (.orientation _) fun h => h
  · exact tells_nothing rfl rfl

/-- Lighting the built-in panel, or not, changes nothing that is told. -/
theorem tells_setLit (lit : Bool) (s : Screen) : s.Tells (s.setLit lit, []) := by
  unfold setLit
  split <;> exact tells_nothing rfl rfl

/-- The fields that an output has in common with its screen, in the order in which they are told. -/
def observedFields : List Field :=
  [.used, .modes, .modeIndex, .power, .geometry, .refresh, .form, .scale, .identity]

/-- The differences from an output concern each field once, in their order. -/
theorem fields_differences (s : Screen) (o : Output) :
    ((s.differences o).map Change.field).Sublist observedFields := by
  have hchanges : (s.differences o).Sublist
      ([Change.used o.used] ++ [Change.modes o.modes] ++ [Change.modeIndex o.modeIndex] ++
        [Change.power o.power] ++ [Change.geometry o.geometry] ++ [Change.refresh o.refresh] ++
        [Change.form o.form] ++ [Change.scale o.scale] ++ [Change.identity o.identity?]) := by
    unfold differences
    iterate 8 apply List.Sublist.append
    all_goals exact sublist_changeIf _ _
  exact hchanges.map Change.field

private theorem differs_of_mem_differences (ho : o.scale.isFinite = true) {c : Change}
    (hc : c ∈ s.differences o) : s.view.Differs c := by
  simp only [differences, List.mem_append, mem_changeIf] at hc
  rcases hc with (((((((⟨h, rfl⟩ | ⟨h, rfl⟩) | ⟨h, rfl⟩) | ⟨h, rfl⟩) | ⟨h, rfl⟩) | ⟨h, rfl⟩) |
    ⟨h, rfl⟩) | ⟨h, rfl⟩) | ⟨⟨-, h⟩, rfl⟩
  case inl.inr => exact Scale.beq_eq_false ho h
  all_goals exact h

private theorem ite_ne_self {α : Type} [DecidableEq α] (a b : α) :
    (if a ≠ b then b else a) = b := by
  by_cases h : a = b
  · rw [if_neg (not_not_intro h), h]
  · rw [if_pos h]

/-- The changes that bring a screen in line with its output do so for whoever is told. -/
theorem view_follow (s : Screen) (o : Output) :
    (s.follow o).view = s.view.takeAll (s.differences o) := by
  simp only [differences, View.takeAll_append, View.takeAll_changeIf]
  -- Of the nine changes, only the one of the field itself shows in a field.
  ext1 <;> simp only [apply_ite View.used, apply_ite View.scale, apply_ite View.form,
    apply_ite View.modeIndex, apply_ite View.modes, apply_ite View.power, apply_ite View.geometry,
    apply_ite View.refresh, apply_ite View.orientation, apply_ite View.active,
    apply_ite View.identity, View.take, ite_self, view, follow, ite_ne_self]
  case scale =>
    cases scaleEq s.scale o.scale <;> rfl
  case identity =>
    by_cases hedid : s.edid = o.edid
    · simp only [hedid, ite_true, ne_eq, not_true_eq_false, false_and, ite_false]
    · simp only [hedid, ite_false, ne_eq, not_false_eq_true, true_and, ite_not]
      split
      · exact Eq.symm ‹_›
      · rfl

/-- Absorbing an output with a finite scale tells what it changes. -/
theorem tells_absorb (ho : o.scale.isFinite = true) (s : Screen) : s.Tells (s.absorb o) where
  id := s.follow_id o
  view := view_follow s o
  differ := View.allDiffer_of_nodup ((by decide : observedFields.Nodup).sublist
    (fields_differences s o)) fun _ hc => differs_of_mem_differences ho hc
  once := (by decide : observedFields.Nodup).sublist (fields_differences s o)

end Screen

/-- Every request to a screen tells what it changes, refused or not. -/
theorem Mutation.tells_attempt (u : Mutation) (s : Screen) : s.Tells (u.attempt s) := by
  unfold attempt
  cases h : u.apply s with
  | error fault => exact Screen.tells_nothing rfl rfl
  | ok r =>
    cases u with
    | used u => exact Except.ok.inj h ▸ s.tells_setUsed u
    | scale x => exact Screen.tells_setScale h
    | form f => exact Except.ok.inj h ▸ s.tells_setForm f
    | modeIndex i => exact Screen.tells_setModeIndex h
    | size r => exact Screen.tells_setSize h
    | active a => exact Except.ok.inj h ▸ s.tells_setActive a

/-- What can happen to a screen. -/
inductive Happening where
  /-- The software makes a request. -/
  | request (u : Mutation)
  /-- The hardware reports of the output. -/
  | absorb (o : Output)
  /-- The device is tilted. -/
  | tilt (t : Tilt)
  /-- The built-in panel is lit, or goes dark. -/
  | lit (lit : Bool)
  deriving Repr

/-- If the hardware reports of the output, it does so with a finite scale. -/
def Happening.IsFinite : Happening → Prop
  | absorb o => o.scale.isFinite = true
  | _ => True

instance : DecidablePred Happening.IsFinite
  | .absorb o => inferInstanceAs (Decidable (o.scale.isFinite = true))
  | .request _ | .tilt _ | .lit _ => .isTrue trivial

namespace Model

variable {m : Model} {id : OutputId} {s : Screen}

/-- Lets something happen to the screen of an output. -/
def perform (m : Model) (id : OutputId) : Happening → Except ConfigFault Unit × Model
  | .request u => m.mutate id u
  | .absorb o => (.ok (), m.update id .hardware fun s => s.absorb o)
  | .tilt t => (.ok (), m.update id .hardware (Screen.tilt t))
  | .lit lit => (.ok (), m.setLit lit)

/-- Lets one thing after the other happen to the screen of an output, whatever fails. -/
def performAll (m : Model) (id : OutputId) (es : List Happening) : Model :=
  es.foldl (fun k e => (k.perform id e).2) m

/-- From the first to the second model, the screen of an output became another one, and the news
that were queued tell so: they are of this output, the changes lead a copy of the fields from what
they were to what they are, and each tells another value than the copy has when its turn comes. -/
structure Told (m k : Model) (id : OutputId) (s t : Screen) (news : List Notification) : Prop where
  /-- The screen that the output had. -/
  before : m.screen? id = some s
  /-- The screen that the output has. -/
  after : k.screen? id = some t
  /-- The news are queued behind what waits already. -/
  queue : k.queue = m.queue ++ news
  /-- The news are of this output. -/
  output : ∀ n ∈ news, n.output = id
  /-- The news lead from the one view to the other. -/
  view : t.view = s.view.takeAll (news.map Notification.change)
  /-- Each tells another value than there was when its turn comes. -/
  differ : s.view.AllDiffer (news.map Notification.change)

/-- Nothing is told if the view of the screen stays. -/
theorem told_nothing {k : Model} {t : Screen} (hs : m.screen? id = some s)
    (ht : k.screen? id = some t) (hqueue : k.queue = m.queue) (hview : t.view = s.view) :
    Told m k id s t [] :=
  ⟨hs, ht, hqueue.trans (List.append_nil _).symm, fun _ hn => absurd hn List.not_mem_nil, hview,
    trivial⟩

/-- What is told of a screen in two lots is told in one. -/
theorem told_trans {k l : Model} {t u : Screen} {first rest : List Notification}
    (h : Told m k id s t first) (h' : Told k l id t u rest) :
    Told m l id s u (first ++ rest) where
  before := h.before
  after := h'.after
  queue := by rw [h'.queue, h.queue, List.append_assoc]
  output n hn := (List.mem_append.mp hn).elim (h.output n) (h'.output n)
  view := by rw [h'.view, h.view, List.map_append, View.takeAll_append]
  differ := by
    rw [List.map_append]
    exact View.allDiffer_append h.differ (h.view ▸ h'.differ)

/-- An update by what tells its changes tells them, and no field twice. -/
theorem told_update (hs : m.screen? id = some s) (origin : Origin)
    {f : Screen → Screen × List Change} (hf : ∀ s : Screen, s.Tells (f s)) :
    ∃ t news, Told m (m.update id origin f) id s t news ∧
      ((news.map Notification.change).map Change.field).Nodup := by
  have hchange : ((f s).2.map fun change => (⟨(f s).1.id, change, origin⟩ : Notification)).map
      Notification.change = (f s).2 := by
    rw [List.map_map]
    exact List.map_id _
  refine ⟨(f s).1, m.news id origin f, ⟨hs, ?_, queue_update, ?_, ?_, ?_⟩, ?_⟩
  · rw [screen?_update fun s => (hf s).id, if_pos rfl, hs, Option.map_some]
  · exact fun n hn => output_of_mem_news (fun s => (hf s).id) hn
  · rw [news_of_screen? hs, hchange]
    exact (hf s).view
  · rw [news_of_screen? hs, hchange]
    exact (hf s).differ
  · rw [news_of_screen? hs, hchange]
    exact (hf s).once

private theorem screen?_setLit (m : Model) (lit : Bool) (id : OutputId) :
    (m.setLit lit).screen? id = (m.screen? id).map (Screen.setLit lit) := by
  simp only [screen?, setLit, List.find?_map, Function.comp_def, Screen.setLit_id]

/-- Whatever happens to a screen is told, and no field twice. -/
theorem told_perform (hs : m.screen? id = some s) {e : Happening} (he : e.IsFinite) :
    ∃ t news, Told m (m.perform id e).2 id s t news ∧
      ((news.map Notification.change).map Change.field).Nodup := by
  cases e with
  | request u =>
    have hupdate : (m.perform id (.request u)).2 = m.update id .software u.attempt :=
      mutate_eq_update m id u
    rw [hupdate]
    exact told_update hs .software u.tells_attempt
  | absorb o => exact told_update hs .hardware (Screen.tells_absorb he)
  | tilt t => exact told_update hs .hardware (Screen.tells_tilt t)
  | lit lit =>
    have hafter : (m.setLit lit).screen? id = some (s.setLit lit) := by
      rw [screen?_setLit, hs, Option.map_some]
    exact ⟨s.setLit lit, [], told_nothing hs hafter rfl (s.tells_setLit lit).view, List.nodup_nil⟩

/-- What fails changes nothing. -/
theorem perform_of_error {e : Happening} {fault : ConfigFault}
    (h : (m.perform id e).1 = .error fault) : (m.perform id e).2 = m := by
  cases e with
  | request u =>
    simp only [perform, mutate, tryUpdate] at h ⊢
    cases hs : m.screen? id with
    | none => rfl
    | some s =>
      cases hu : u.apply s with
      | ok r => simp only [hs, hu, reduceCtorEq] at h
      | error fault => simp only [hu]
  | _ => cases h

/-- Whatever happens to a screen, one thing after the other, the news tell what it changes. -/
theorem told_performAll (hs : m.screen? id = some s) {es : List Happening}
    (hes : ∀ e ∈ es, e.IsFinite) : ∃ t news, Told m (m.performAll id es) id s t news := by
  induction es generalizing m s with
  | nil => exact ⟨s, [], told_nothing hs hs rfl rfl⟩
  | cons e es ih =>
    obtain ⟨t, first, hfirst, -⟩ := told_perform hs (hes e List.mem_cons_self)
    obtain ⟨u, rest, hrest⟩ := ih hfirst.after fun p hp => hes p (List.mem_cons_of_mem e hp)
    exact ⟨u, first ++ rest, told_trans hfirst hrest⟩

/-- Whatever happens to a screen, one thing after the other, its news tell it all, and none of them
is idle. Each time no field is told twice; what fails changes nothing, and so it tells nothing. -/
theorem mirrored_by_news (hs : m.screen? id = some s) {es : List Happening}
    (hes : ∀ e ∈ es, e.IsFinite) :
    (∃ t news, Told m (m.performAll id es) id s t news) ∧
    ∀ before e after, es = before ++ e :: after →
      let k := m.performAll id before
      (∃ t u pushed, Told k (k.perform id e).2 id t u pushed ∧
        ((pushed.map Notification.change).map Change.field).Nodup) ∧
      ∀ fault, (k.perform id e).1 = .error fault → (k.perform id e).2 = k := by
  refine ⟨told_performAll hs hes, ?_⟩
  rintro before e after rfl
  obtain ⟨t, _, htold⟩ := told_performAll hs fun p hp => hes p (List.mem_append_left _ hp)
  obtain ⟨u, pushed, hpushed, honce⟩ := told_perform htold.after
    (hes e (List.mem_append_right _ List.mem_cons_self))
  exact ⟨⟨t, u, pushed, hpushed, honce⟩, fun fault => perform_of_error⟩

/-- The built-in panel is switched off, asked for a mode and a scale that it cannot have, found to
be on with another scale, turned, and turned again in the dark. Five changes are told. -/
theorem mirrored_by_news_panel :
    let s : Screen := .ofOutput (.plain "eDP-1")
    let m : Model := { screens := [s] }
    let es : List Happening :=
      [.request (.used false), .request (.modeIndex 1), .request (.scale 0),
        .absorb { Output.plain "eDP-1" with scale := 2, form := .tv }, .tilt .leftUp, .lit false,
        .tilt .topUp]
    let changes : List Change :=
      [.used false, .used true, .form .tv, .scale 2, .orientation .invertedPortrait]
    (m.performAll "eDP-1" es).queue.map Notification.change = changes ∧
    s.view.AllDiffer changes ∧
    ∃ t, (m.performAll "eDP-1" es).screen? "eDP-1" = some t ∧ t.view = s.view.takeAll changes := by
  intro s m es changes
  have hs : m.screen? "eDP-1" = some s := rfl
  have hes : ∀ e ∈ es, e.IsFinite := by decide +kernel
  obtain ⟨⟨t, news, htold⟩, -⟩ := mirrored_by_news hs hes
  have hnews : news.map Notification.change = changes := by
    rw [← List.nil_append news]
    exact (congrArg _ htold.queue.symm).trans (by decide +kernel)
  rw [htold.queue, List.map_append, hnews]
  exact ⟨rfl, hnews ▸ htold.differ, t, htold.after, hnews ▸ htold.view⟩

end Model

end Displays
