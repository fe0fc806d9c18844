import Displays.Proofs.Requests
import Displays.Proofs.Resynchronisation

/-!
# How a model follows a configuration

Between two configurations that it takes over, a model follows the last one: what a screen has in
common with its output it has from there, or somebody asks for it, or the hardware has taken it over
meanwhile. This is what moving a screen keeps and what processing the requests keeps, as long as
nothing but these requests changes the hardware.
-/

namespace Displays

namespace Screen

/-- The screen has the value of the last request for the field. -/
def Asked (s : Screen) (q : List Notification) (f : Field) : Prop :=
  ∃ change, lastRequest s.id f q = some change ∧ s.take change = s

/-- In a field the screen agrees with the base, or waits for what it was asked, or follows what the
hardware holds, if this is known: its output is not connected there, or it agrees with it. -/
def Follows (s : Screen) (base : Configuration) (held? : Option Configuration)
    (q : List Notification) (f : Field) : Prop :=
  s.ShownIn base f ∨ s.Asked q f ∨
    ∃ c ∈ held?, s.id ∉ c.connectedIds ∨ lastRequest s.id f q = none ∧ s.ShownIn c f

variable {s t : Screen} {f : Field} {q r : List Notification} {base : Configuration}
  {held? : Option Configuration}

/-- Taking a value twice is taking it once. -/
theorem take_take (change : Change) (s : Screen) : (s.take change).take change = s.take change := by
  cases change <;> rfl

/-- Values of different fields may be taken in either order. -/
theorem take_comm {a b : Change} (h : a.field ≠ b.field) (s : Screen) :
    (s.take a).take b = (s.take b).take a := by
  cases a <;> cases b <;> first | exact absurd rfl h | rfl

/-- A screen that keeps its name, its agreement in a field and the request for it follows on. -/
theorem follows_of_kept (hid : t.id = s.id) (hag : ∀ o, s.Agrees o f → t.Agrees o f)
    (hlast : lastRequest s.id f r = lastRequest s.id f q)
    (htake : ∀ change, lastRequest s.id f q = some change → s.take change = s → t.take change = t)
    (h : s.Follows base held? q f) : t.Follows base held? r f := by
  have hshown : ∀ c, s.ShownIn c f → t.ShownIn c f := by
    rintro c ⟨o, ho, hagrees⟩
    exact ⟨o, by rw [hid]; exact ho, hag o hagrees⟩
  rcases h with hbase | ⟨change, hchange, htaken⟩ | ⟨c, hc, hout | ⟨hnone, hin⟩⟩
  · exact .inl (hshown base hbase)
  · exact .inr (.inl ⟨change, by rw [hid, hlast, hchange], htake change hchange htaken⟩)
  · exact .inr (.inr ⟨c, hc, .inl (by rw [hid]; exact hout)⟩)
  · exact .inr (.inr ⟨c, hc, .inr ⟨by rw [hid, hlast, hnone], hshown c hin⟩⟩)

/-- Moving a screen and announcing this keeps it following. -/
theorem follows_move {origin : Origin} {m : Screen × List Change} (hm : s.Moved origin m)
    (h : s.Follows base held? q f) :
    m.1.Follows base held? (q ++ m.2.map fun change => ⟨m.1.id, change, origin⟩) f := by
  rcases hm with rfl | ⟨change, hmoves, rfl⟩
  · simpa only [List.map_nil, List.append_nil] using h
  · simp only [List.map_cons, List.map_nil, take_id]
    by_cases hasks : (⟨s.id, change, origin⟩ : Notification).asks s.id f = true
    · right
      left
      refine ⟨change, ?_, take_take change s⟩
      rw [take_id, lastRequest_append, lastRequest, if_pos hasks]
      rfl
    · have hlast : lastRequest s.id f (q ++ [⟨s.id, change, origin⟩]) = lastRequest s.id f q := by
        rw [lastRequest_append, lastRequest, if_neg hasks]
        rfl
      by_cases hf : change.field = f
      · have hfollowed : change.field.isFollowed = false := by
          cases origin with
          | hardware => exact Origin.not_followed_of_moves hmoves
          | software =>
            rw [← Bool.not_eq_true]
            intro hfollowed
            exact hasks (asks_iff.mpr ⟨Notification.isRequest_iff.mpr ⟨rfl, hfollowed⟩, rfl, hf⟩)
        refine follows_of_kept (take_id change s)
          (fun o => (agrees_take_of_not_followed hmoves hfollowed).mpr) hlast ?_ h
        intro c hc _
        have hf' := (field_of_lastRequest hc).2
        rw [← hf, hfollowed] at hf'
        exact Bool.noConfusion hf'
      · refine follows_of_kept (take_id change s) (fun o => (agrees_take_of_ne hf).mpr) hlast ?_ h
        intro c hc htaken
        have hne : change.field ≠ c.field := by rw [(field_of_lastRequest hc).1]; exact hf
        rw [take_comm hne, htaken]

private theorem take_setLit (change : Change) (on : Bool) (s : Screen) :
    (s.take change).setLit on = (s.setLit on).take change := by
  by_cases hl : s.location = .internal
  · cases change <;> simp only [setLit, take, hl, ite_true]
  · cases change <;> simp only [setLit, take, hl, ite_false]

/-- Lighting the built-in panel, or not, keeps a screen following. -/
theorem follows_setLit (on : Bool) (h : s.Follows base held? q f) :
    (s.setLit on).Follows base held? q f := by
  have hid : (s.setLit on).id = s.id := by unfold setLit; split <;> rfl
  refine follows_of_kept hid ?_ rfl ?_ h
  · intro o hag
    unfold setLit
    split
    · cases f <;> exact hag
    · exact hag
  · intro change _ htaken
    rw [← take_setLit, htaken]

end Screen

namespace Model

/-- The model has a screen for each output that is connected in the base, or in what the hardware
holds if this is known, and every screen follows in every field. -/
structure Follows (m : Model) (base : Configuration) (held? : Option Configuration) : Prop where
  /-- There is one screen for each output that is connected in the one or the other. -/
  ids : m.ids.Perm base.connectedIds ∨ ∃ c ∈ held?, m.ids.Perm c.connectedIds
  /-- Every screen follows in every field. -/
  fields : ∀ s ∈ m.screens, ∀ f, s.Follows base held? m.queue f

variable {m m' : Model} {base c : Configuration} {held? : Option Configuration} {origin : Origin}

private theorem lastRequest_append_of_ne {id : OutputId} {f : Field} {q news : List Notification}
    (hnews : ∀ n ∈ news, n.output ≠ id) : lastRequest id f (q ++ news) = lastRequest id f q := by
  have hnone : lastRequest id f news = none := by
    induction news with
    | nil => rfl
    | cons n news ih =>
      have hn : ¬ n.asks id f = true := fun ha => hnews n List.mem_cons_self (asks_iff.mp ha).2.1
      rw [lastRequest, ih fun k hk => hnews k (List.mem_cons_of_mem n hk), if_neg hn]
      rfl
  rw [lastRequest_append, hnone, Option.none_or]

/-- An update that moves the screen of one output keeps the model following. -/
theorem follows_update {id : OutputId} {g : Screen → Screen × List Change}
    (hg : ∀ s : Screen, s.Moved origin (g s)) (hm : m.WellFormed) (h : m.Follows base held?) :
    (m.update id origin g).Follows base held? where
  ids := by
    rw [ids_update]
    exact h.ids
  fields := by
    rw [screens_update hm.nodup fun s => Screen.moved_id (hg s), queue_update]
    intro s hs f
    obtain ⟨t, ht, rfl⟩ := List.mem_map.mp hs
    have hfollows := h.fields t ht f
    by_cases hid : t.id = id
    · have hfind : m.screen? id = some t := hid ▸ screen?_of_mem hm.nodup ht
      rw [if_pos hid, news_of_screen? hfind]
      exact Screen.follows_move (hg t) hfollows
    · rw [if_neg hid]
      refine Screen.follows_of_kept rfl (fun _ hag => hag) ?_ (fun _ _ htaken => htaken) hfollows
      apply lastRequest_append_of_ne
      intro n hn he
      rw [output_of_mem_news (fun u => Screen.moved_id (hg u)) hn] at he
      exact hid he.symm

/-- Moves keep a model following. -/
theorem follows_moves (h : Moves origin m m') (hm : m.WellFormed) (hf : m.Follows base held?) :
    m'.Follows base held? := by
  induction h with
  | refl => exact hf
  | update id hg hmoves ih => exact follows_update hg (wellFormed_moves hmoves hm) ih

/-- Lighting the built-in panel, or not, keeps a model following. -/
theorem follows_setLit (on : Bool) (h : m.Follows base held?) :
    (m.setLit on).Follows base held? where
  ids := by
    rw [ids_setLit]
    exact h.ids
  fields s hs f := by
    obtain ⟨t, ht, rfl⟩ := List.mem_map.mp hs
    exact Screen.follows_setLit on (h.fields t ht f)

/-- A model that mirrors a configuration follows it. -/
theorem follows_of_mirrors (h : m.Mirrors c) : m.Follows c none where
  ids := .inl h.ids
  fields s hs f := by
    obtain ⟨o, ho, _, hshows⟩ := h.shows s hs
    exact .inl ⟨o, ho, hshows.agrees f⟩

/-- A model without requests that mirrors what the hardware holds follows this. -/
theorem follows_held_of_mirrors (h : m.Mirrors c) (hq : m.queue = []) :
    m.Follows base (some c) where
  ids := .inr ⟨c, rfl, h.ids⟩
  fields s hs f := by
    obtain ⟨o, ho, _, hshows⟩ := h.shows s hs
    refine .inr (.inr ⟨c, rfl, .inr ⟨?_, o, ho, hshows.agrees f⟩⟩)
    rw [hq]
    rfl

/-- A model that follows a configuration without requests follows it when drained. -/
theorem follows_drained_of_no_request (hq : ∀ n ∈ m.queue, n.isRequest = false)
    (h : m.Follows base held?) : m.drained.Follows base held? where
  ids := h.ids
  fields s hs f :=
    Screen.follows_of_kept rfl (fun _ hag => hag) (lastRequest_of_no_request hq).symm
      (fun _ _ htaken => htaken) (h.fields s hs f)

variable {H : Type} [Hardware H] [Holding H]

open Holding (held)

/-- If the hardware takes over the requests of a model without a fault, the model follows once it
is drained. -/
theorem follows_drained {h : H} (hheld : ∀ c ∈ held?, c = held h) (hn : (held h).ids.Nodup)
    (hok : (Guarded.followAll m.queue h).1 = []) (hf : m.Follows base held?) :
    m.drained.Follows base (some (held (Guarded.followAll m.queue h).2)) where
  ids := by
    rcases hf.ids with hids | ⟨c, hc, hids⟩
    · exact .inl hids
    · refine .inr ⟨_, rfl, ?_⟩
      rw [Guarded.connectedIds_followAll, ← hheld c hc]
      exact hids
  fields s hs f := by
    rcases hf.fields s hs f with hbase | ⟨change, hlast, htaken⟩ | ⟨c, hc, hout | ⟨hnone, hin⟩⟩
    · exact .inl hbase
    · refine .inr (.inr ⟨_, rfl, ?_⟩)
      rcases Guarded.shownIn_followAll_of_some hn hok hlast htaken with hout | hin
      · exact .inl hout
      · exact .inr ⟨rfl, hin⟩
    · refine .inr (.inr ⟨_, rfl, .inl ?_⟩)
      rw [Guarded.connectedIds_followAll, ← hheld c hc]
      exact hout
    · rw [hheld c hc] at hin
      exact .inr (.inr ⟨_, rfl, .inr ⟨rfl, Guarded.shownIn_followAll_of_none hnone hin⟩⟩)

end Model

end Displays
