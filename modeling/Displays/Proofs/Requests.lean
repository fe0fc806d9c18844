import Displays.Proofs.Agreement
import Displays.Proofs.Holding

/-!
# What requests leave behind

Hardware that holds a configuration and follows a queue without a fault has taken over the last
request for each field of each connected output. What a screen agrees with and nobody asks to change
stays as it is, and outputs neither come nor go.
-/

namespace Displays

/-- The notification is a request for this field of this output. -/
def Notification.asks (n : Notification) (id : OutputId) (f : Field) : Bool :=
  n.isRequest && (n.output = id && n.change.field = f)

/-- The last request in a queue for a field of an output. -/
def lastRequest (id : OutputId) (f : Field) : List Notification → Option Change
  | [] => none
  | n :: q => (lastRequest id f q).or (if n.asks id f then some n.change else none)

section LastRequest

variable {id : OutputId} {f : Field} {q r : List Notification} {n : Notification} {change : Change}

/-- A notification asks for a field of an output if it is a request that names both. -/
theorem asks_iff : n.asks id f = true ↔
    n.isRequest = true ∧ n.output = id ∧ n.change.field = f := by
  simp only [Notification.asks, Bool.and_eq_true, decide_eq_true_eq]

/-- The last request is in the second part of a queue if there is one, else in the first. -/
theorem lastRequest_append :
    lastRequest id f (q ++ r) = (lastRequest id f r).or (lastRequest id f q) := by
  induction q with
  | nil => simp only [List.nil_append, lastRequest, Option.or_none]
  | cons n q ih => simp only [List.cons_append, lastRequest, ih, Option.or_assoc]

/-- A queue without requests has no last one. -/
theorem lastRequest_of_no_request (hq : ∀ n ∈ q, n.isRequest = false) :
    lastRequest id f q = none := by
  induction q with
  | nil => rfl
  | cons n q ih =>
    have hn : n.asks id f = false := by
      simp only [Notification.asks, hq n List.mem_cons_self, Bool.false_and]
    simp only [lastRequest, ih fun m hm => hq m (List.mem_cons_of_mem n hm), hn,
      Bool.false_eq_true, ite_false, Option.or_none]

/-- The last request for a field is of this field, which is one that the hardware follows. -/
theorem field_of_lastRequest (h : lastRequest id f q = some change) :
    change.field = f ∧ f.isFollowed = true := by
  induction q with
  | nil => simp only [lastRequest, reduceCtorEq] at h
  | cons n q ih =>
    cases hq : lastRequest id f q with
    | some c =>
      rw [lastRequest, hq, Option.some_or] at h
      exact ih (hq.trans h)
    | none =>
      by_cases hn : n.asks id f = true
      · rw [lastRequest, hq, Option.none_or, if_pos hn] at h
        obtain ⟨hr, _, hf⟩ := asks_iff.mp hn
        rw [← Option.some.inj h, ← hf]
        exact ⟨rfl, (Notification.isRequest_iff.mp hr).2⟩
      · rw [lastRequest, hq, Option.none_or, if_neg hn] at h
        simp only [reduceCtorEq] at h

end LastRequest

variable {H : Type} [Hardware H] [Holding H]

open Holding (held)

namespace Guarded

variable {n : Notification} {q : List Notification} {h : H} {s : Screen} {f : Field}

/-- Following a notification that is due leaves it applied, or fails and leaves everything. -/
theorem held_follow (n : Notification) (h : H) :
    held (follow n h).2 = held h ∧ ((follow n h).1 = .ok () → ¬ n.Due (held h)) ∨
    n.Due (held h) ∧ held (follow n h).2 = n.applied (held h) := by
  have hread := Holding.held_read h
  rcases follow_cases n h with ⟨ho, hf⟩ | ⟨_, fault, _, hf⟩ | ⟨_, c, hc, hd, hf⟩ | ⟨c, hc, hd, hf⟩
  · left
    rw [hf]
    exact ⟨rfl, fun _ => Notification.not_due_of_hardware ho⟩
  · left
    rw [hf]
    exact ⟨hread, fun he => by simp only [reduceCtorEq] at he⟩
  · left
    rw [hf, ← Holding.eq_held h c hc]
    exact ⟨hread.trans (Holding.eq_held h c hc).symm, fun _ => hd⟩
  · rw [hf]
    rw [Holding.eq_held h c hc] at hd ⊢
    rcases submit_cases (n.applied (held h)) (Hardware.read h).2 with
      ⟨_, _, hs⟩ | ⟨_, hok, hs⟩ | ⟨_, _, herr, hs⟩
    · left
      rw [hs]
      exact ⟨hread, fun he => by simp only [reduceCtorEq] at he⟩
    · right
      rw [hs]
      exact ⟨hd, Holding.held_accepted _ _ hok⟩
    · left
      rw [hs]
      exact ⟨(Holding.held_refused _ _ _ herr).trans hread,
        fun he => by simp only [reduceCtorEq] at he⟩

/-- Following a notification keeps the names that the hardware holds. -/
theorem ids_follow (n : Notification) (h : H) : (held (follow n h).2).ids = (held h).ids := by
  rcases held_follow n h with ⟨he, _⟩ | ⟨_, he⟩
  · rw [he]
  · rw [he, Notification.ids_applied]

/-- Following a notification keeps what is connected on the hardware. -/
theorem connectedIds_follow (n : Notification) (h : H) :
    (held (follow n h).2).connectedIds = (held h).connectedIds := by
  rcases held_follow n h with ⟨he, _⟩ | ⟨_, he⟩
  · rw [he]
  · rw [he, Notification.connectedIds_applied]

/-- Following a queue keeps the names that the hardware holds. -/
theorem ids_followAll (q : List Notification) (h : H) :
    (held (followAll q h).2).ids = (held h).ids := by
  induction q generalizing h with
  | nil => rfl
  | cons n q ih => rw [followAll_cons, ih, ids_follow]

/-- Following a queue connects and disconnects nothing. -/
theorem connectedIds_followAll (q : List Notification) (h : H) :
    (held (followAll q h).2).connectedIds = (held h).connectedIds := by
  induction q generalizing h with
  | nil => rfl
  | cons n q ih => rw [followAll_cons, ih, connectedIds_follow]

/-- A request for something else leaves the agreement in a field as it is. -/
theorem shownIn_applied (hn : n.isRequest = true) (ha : n.asks s.id f = false)
    {c : Configuration} (hs : s.ShownIn c f) : s.ShownIn (n.applied c) f := by
  obtain ⟨o, ho, hag⟩ := hs
  have hlookup := Configuration.output?_modify n.change.write_id c n.output s.id
  by_cases hid : s.id = n.output
  · have hne : n.change.field ≠ f := fun hf => by
      rw [asks_iff.mpr ⟨hn, hid.symm, hf⟩] at ha
      simp only [Bool.true_eq_false] at ha
    rw [if_pos hid, ho] at hlookup
    exact ⟨n.change.write o, hlookup, (Screen.agrees_write_of_ne hne).mpr hag⟩
  · rw [if_neg hid, ho] at hlookup
    exact ⟨o, hlookup, hag⟩

/-- What a screen agrees with stays unless a request for it is followed. -/
theorem shownIn_followAll_of_none (hnone : lastRequest s.id f q = none)
    (hs : s.ShownIn (held h) f) : s.ShownIn (held (followAll q h).2) f := by
  induction q generalizing h with
  | nil => exact hs
  | cons n q ih =>
    rw [lastRequest, Option.or_eq_none_iff] at hnone
    have ha : n.asks s.id f = false := by
      rw [← Bool.not_eq_true]
      intro ha
      simp only [ha, ite_true, reduceCtorEq, and_false] at hnone
    rw [followAll_cons]
    refine ih hnone.1 ?_
    rcases held_follow n h with ⟨he, _⟩ | ⟨hd, he⟩
    · rw [he]
      exact hs
    · rw [he]
      exact shownIn_applied hd.1 ha hs

/-- A screen that has the value of the last request for a field agrees with its output in this field
once the queue was followed without a fault, unless its output is not connected. -/
theorem shownIn_followAll_of_some {change : Change} (hn : (held h).ids.Nodup)
    (hok : (followAll q h).1 = []) (hlast : lastRequest s.id f q = some change)
    (hs : s.take change = s) :
    s.id ∉ (held (followAll q h).2).connectedIds ∨ s.ShownIn (held (followAll q h).2) f := by
  induction q generalizing h with
  | nil => simp only [lastRequest, reduceCtorEq] at hlast
  | cons n q ih =>
    obtain ⟨hfirst, hrest⟩ := followAll_cons_eq_nil hok
    rw [followAll_cons]
    have hn' : (held (follow n h).2).ids.Nodup := by rw [ids_follow]; exact hn
    -- A later request decides; if there is none, the value of this one stays to the end.
    cases hq : lastRequest s.id f q with
    | some c =>
      rw [lastRequest, hq, Option.some_or] at hlast
      exact ih hn' hrest (hq.trans hlast)
    | none =>
      rw [lastRequest, hq, Option.none_or] at hlast
      by_cases ha : n.asks s.id f = true
      · rw [if_pos ha] at hlast
        obtain ⟨hr, hid, hf⟩ := asks_iff.mp ha
        have hchange : n.change = change := Option.some.inj hlast
        rcases held_follow n h with ⟨he, hdue⟩ | ⟨hd, he⟩
        · left
          rw [connectedIds_followAll, he]
          intro hmem
          obtain ⟨o, ho, hc⟩ := (Configuration.mem_connectedIds_iff_output? hn).mp hmem
          exact hdue hfirst ⟨hr, o, by rw [hid]; exact ho, hc⟩
        · right
          refine shownIn_followAll_of_none hq ?_
          obtain ⟨_, o, ho, _⟩ := hd
          have hlookup := Configuration.output?_modify n.change.write_id (held h) n.output s.id
          rw [if_pos hid.symm, ← hid, ho] at hlookup
          have hag : (s.take n.change).Agrees (n.change.write o) n.change.field :=
            Screen.agrees_take_write (Notification.isRequest_iff.mp hr).2
          rw [he, Screen.ShownIn, ← hid]
          refine ⟨n.change.write o, hlookup, ?_⟩
          rw [hchange, hs, ← hchange, hf] at hag
          exact hag
      · rw [if_neg ha] at hlast
        simp only [reduceCtorEq] at hlast

end Guarded

end Displays
