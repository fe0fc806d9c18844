import Displays.Hardware.Held
import Displays.Proofs.Judgement
import Displays.Proofs.Merging
import Displays.Proofs.Restoration

/-!
# One request after the other

What a backend refuses, it refuses for the sake of one output, and so it is with what is wrong with
a configuration. So where nothing was wrong before, a request is answered as its own output
deserves, whatever became of requests for other outputs. Requests for different outputs may then be
made one by one and in any order: they all succeed if they do at once, and lead to the same
configuration.
-/

namespace Displays

/-! ## Judging outputs by themselves -/

/-- What the backend says to a configuration, if there is one. -/
def refusal (b : Option Backend) (c : Configuration) : Except HardwareFault Unit :=
  b.elim (.ok ()) fun b => b.check c

/-- What becomes of a submission to hardware that refuses only what its backend refuses. -/
def verdict (b : Option Backend) (c : Configuration) : Except ConfigFault Unit :=
  match c.defect? with
  | some defect => .error (.invalid defect)
  | none => (refusal b c).mapError .rejected

section Verdict

variable {b : Option Backend} {c : Configuration} {o : Output} {l before after : List Output}

/-- A backend refuses the first output that it would refuse alone. -/
theorem Backend.check_cons (b : Backend) (o : Output) (l : List Output) :
    b.check ⟨o :: l⟩ = b.check ⟨[o]⟩ >>= fun _ => b.check ⟨l⟩ := by
  cases b with
  | xrandr =>
    simp only [check, Xrandr.words, List.mapM_cons, List.mapM_nil]
    cases Xrandr.outputWords o with
    | error fault => rfl
    | ok words => cases l.mapM Xrandr.outputWords <;> rfl
  | sway =>
    simp only [check, Sway.words, Sway.commands, List.mapM_cons, List.mapM_nil]
    cases Sway.command? o with
    | error fault => rfl
    | ok command => cases l.mapM Sway.command? <;> rfl
  | randr =>
    simp only [check, Randr.checkSupported, List.findSome?_cons, List.findSome?_nil]
    cases Randr.refusal? o <;> rfl

/-- A backend judges the first output by itself and then the others. -/
theorem refusal_cons (b : Option Backend) (o : Output) (l : List Output) :
    refusal b ⟨o :: l⟩ = refusal b ⟨[o]⟩ >>= fun _ => refusal b ⟨l⟩ := by
  cases b with
  | none => rfl
  | some b => exact b.check_cons o l

/-- A backend refuses none of the outputs exactly if it refuses none by itself. -/
theorem refusal_eq_ok_iff : refusal b ⟨l⟩ = .ok () ↔ ∀ o ∈ l, refusal b ⟨[o]⟩ = .ok () := by
  induction l with
  | nil =>
    have hempty : refusal b ⟨[]⟩ = .ok () := by
      cases b with
      | none => rfl
      | some b => cases b <;> rfl
    exact ⟨fun _ _ h => absurd h List.not_mem_nil, fun _ => hempty⟩
  | cons o l ih =>
    rw [refusal_cons, List.forall_mem_cons, ← ih]
    constructor
    · intro h
      obtain ⟨⟨⟩, ho, hl⟩ := exists_of_bind_eq_ok h
      exact ⟨ho, hl⟩
    · rintro ⟨ho, hl⟩
      rw [ho]
      exact hl

/-- A submission is accepted exactly if it is valid and the backend does not refuse it. -/
theorem verdict_eq_ok : verdict b c = .ok () ↔ c.defect? = none ∧ refusal b c = .ok () := by
  rw [verdict]
  cases c.defect? with
  | some defect => simp only [reduceCtorEq, false_and]
  | none =>
    cases refusal b c with
    | error fault => simp only [Except.mapError, reduceCtorEq, and_false]
    | ok => simp only [Except.mapError, and_self]

/-- The verdict is favourable if it is on each output by itself. -/
theorem verdict_eq_ok_iff : verdict b ⟨l⟩ = .ok () ↔ ∀ o ∈ l, verdict b ⟨[o]⟩ = .ok () := by
  simp only [verdict_eq_ok, Configuration.defect?_singleton, refusal_eq_ok_iff (l := l), forall_and]
  exact and_congr_left' List.findSome?_eq_none_iff

/-- Among outputs of which a backend refuses none, it refuses the one other output or nothing. -/
theorem refusal_of_others (hbefore : refusal b ⟨before⟩ = .ok ())
    (hafter : refusal b ⟨after⟩ = .ok ()) :
    refusal b ⟨before ++ o :: after⟩ = refusal b ⟨[o]⟩ := by
  induction before with
  | nil =>
    rw [List.nil_append, refusal_cons, hafter]
    cases refusal b ⟨[o]⟩ <;> rfl
  | cons p before ih =>
    obtain ⟨hp, hbefore⟩ := List.forall_mem_cons.mp (refusal_eq_ok_iff.mp hbefore)
    rw [List.cons_append, refusal_cons, hp]
    exact ih (refusal_eq_ok_iff.mpr hbefore)

/-- Among outputs on which the verdict is favourable, it is that on the one other output. -/
theorem verdict_of_others (hbefore : verdict b ⟨before⟩ = .ok ())
    (hafter : verdict b ⟨after⟩ = .ok ()) :
    verdict b ⟨before ++ o :: after⟩ = verdict b ⟨[o]⟩ := by
  obtain ⟨hdefect, hrefusal⟩ := verdict_eq_ok.mp hbefore
  obtain ⟨hdefect', hrefusal'⟩ := verdict_eq_ok.mp hafter
  have hdefects : (⟨before ++ o :: after⟩ : Configuration).defect? =
      (⟨[o]⟩ : Configuration).defect? := by
    rw [Configuration.defect?] at hdefect hdefect' ⊢
    rw [List.findSome?_append, hdefect, Option.none_or, List.findSome?_cons, hdefect']
    rfl
  rw [verdict, verdict, hdefects, refusal_of_others hrefusal hrefusal']

/-- Changing one output of a configuration on which the verdict is favourable makes it that on the
changed output. -/
theorem verdict_modify {id : OutputId} (hc : verdict b c = .ok ()) (ho : c.output? id = some o)
    (f : Output → Output) : verdict b (c.modify id f) = verdict b ⟨[f o]⟩ := by
  obtain ⟨before, after, houtputs, hmodify⟩ := Configuration.modify_split ho
  have hall : ∀ p ∈ before ++ o :: after, verdict b ⟨[p]⟩ = .ok () := by
    rw [← houtputs]
    exact verdict_eq_ok_iff.mp hc
  rw [hmodify]
  refine verdict_of_others (verdict_eq_ok_iff.mpr fun p hp => hall p ?_)
    (verdict_eq_ok_iff.mpr fun p hp => hall p ?_)
  · exact List.mem_append_left _ hp
  · exact List.mem_append_right _ (List.mem_cons_of_mem o hp)

end Verdict

/-! ## Requests -/

section Entries

variable {entries entries' : List (OutputId × Settings)} {id : OutputId} {s : Settings}

/-- Without an entry for a name, nothing is requested for it. -/
theorem lastSettings_of_not_mem (h : id ∉ entries.map Prod.fst) :
    lastSettings entries id = none := by
  induction entries with
  | nil => rfl
  | cons e entries ih =>
    rw [List.map_cons, List.mem_cons, not_or] at h
    rw [lastSettings_cons, ih h.2, Option.none_or, if_neg h.1]

/-- Where names do not repeat, the last settings for a name are the only ones. -/
theorem lastSettings_of_mem {e : OutputId × Settings} (hn : (entries.map Prod.fst).Nodup)
    (he : e ∈ entries) : lastSettings entries e.1 = some e.2 := by
  induction entries with
  | nil => exact absurd he List.not_mem_nil
  | cons k entries ih =>
    obtain ⟨hk, hn⟩ := List.nodup_cons.mp hn
    rw [lastSettings_cons]
    rcases List.mem_cons.mp he with rfl | he
    · rw [lastSettings_of_not_mem hk, Option.none_or, if_pos rfl]
    · rw [ih hn he, Option.some_or]

/-- Where names do not repeat, the order of the entries does not matter. -/
theorem Configuration.merged_perm (hn : (entries.map Prod.fst).Nodup) (hp : entries'.Perm entries)
    (c : Configuration) : c.merged entries' = c.merged entries := by
  have hlast : ∀ id, lastSettings entries' id = lastSettings entries id := by
    intro id
    by_cases hid : id ∈ entries.map Prod.fst
    · obtain ⟨e, he, rfl⟩ := List.mem_map.mp hid
      have hn' : (entries'.map Prod.fst).Nodup := (hp.map Prod.fst).nodup_iff.mpr hn
      rw [lastSettings_of_mem hn he, lastSettings_of_mem hn' (hp.mem_iff.mpr he)]
    · have hid' : id ∉ entries'.map Prod.fst := fun h => hid ((hp.map Prod.fst).mem_iff.mp h)
      rw [lastSettings_of_not_mem hid, lastSettings_of_not_mem hid']
  simp only [merged, Output.settle, hlast]

/-- Under each name, the merged configuration has the output with the settings requested last for
it. -/
theorem Configuration.output?_merged (c : Configuration) (id : OutputId)
    (entries : List (OutputId × Settings)) :
    (c.merged entries).output? id = (c.output? id).map (Output.settle entries) := by
  induction entries generalizing c with
  | nil =>
    rw [merged_nil]
    exact Option.map_id'.symm
  | cons e entries ih =>
    rw [← merged_modify, ih, output?_modify (f := e.2.apply) fun _ => rfl]
    cases ho : c.output? id with
    | none => simp only [Option.map_none, ite_self]
    | some o =>
      obtain rfl := id_of_output? ho
      by_cases hid : o.id = e.1
      · rw [if_pos hid, Option.map_some, Option.map_some, Option.map_some, Output.settle_apply, hid]
      · rw [if_neg hid, Option.map_some, Option.map_some, Output.settle_of_ne hid]

/-- Entries that are all written in are for connected outputs. -/
theorem Configuration.plugged_of_requestAll {c d : Configuration}
    (h : c.requestAll entries = .ok d) : ∀ e ∈ entries, c.Plugged e.1 := by
  induction entries generalizing c with
  | nil => exact fun e he => absurd he List.not_mem_nil
  | cons e entries ih =>
    obtain ⟨id, s⟩ := e
    by_cases hid : c.Plugged id
    · rw [requestAll, request_of_plugged hid] at h
      exact List.forall_mem_cons.mpr ⟨hid, fun k hk => plugged_modify.mp (ih h k hk)⟩
    · rw [requestAll, request_of_not_plugged hid] at h
      cases h

end Entries

/-- The answer to a request, as far as its own output decides it. -/
def answer (b : Option Backend) (c : Configuration) (e : OutputId × Settings) :
    Except ConfigFault Unit :=
  match c.output? e.1 with
  | some o => if o.connected then verdict b ⟨[e.2.apply o]⟩ else .error (.unknownOutput e.1)
  | none => .error (.unknownOutput e.1)

/-- The requests that succeed. -/
def carriedOut (b : Option Backend) (c : Configuration) (entries : List (OutputId × Settings)) :
    List (OutputId × Settings) :=
  entries.filter fun e => answer b c e = .ok ()

section Answer

variable {b : Option Backend} {c : Configuration} {o : Output} {e : OutputId × Settings}
  {entries : List (OutputId × Settings)}

private theorem carriedOut_cons_of_ok (h : answer b c e = .ok ()) :
    carriedOut b c (e :: entries) = e :: carriedOut b c entries :=
  List.filter_cons_of_pos (decide_eq_true h)

private theorem carriedOut_cons_of_not_ok (h : answer b c e ≠ .ok ()) :
    carriedOut b c (e :: entries) = carriedOut b c entries :=
  List.filter_cons_of_neg fun hok => h (of_decide_eq_true hok)

private theorem carriedOut_congr {d : Configuration}
    (h : ∀ e ∈ entries, answer b d e = answer b c e) :
    carriedOut b d entries = carriedOut b c entries :=
  List.filter_congr fun e he => by rw [h e he]

/-- A request for a connected output is answered as its output deserves. -/
theorem answer_of_connected (ho : c.output? e.1 = some o) (hconnected : o.connected = true) :
    answer b c e = verdict b ⟨[e.2.apply o]⟩ := by
  simp only [answer, ho, hconnected, ite_true]

/-- A request for an output that is not connected is refused. -/
theorem answer_of_not_plugged (h : ¬ c.Plugged e.1) :
    answer b c e = .error (.unknownOutput e.1) := by
  rw [answer]
  split
  · rename_i o ho
    rw [if_neg fun hc => h ⟨o, ho, hc⟩]
  · rfl

/-- After a request that succeeds, the verdict is as favourable as before. -/
theorem verdict_modify_of_answer (hc : verdict b c = .ok ()) (he : answer b c e = .ok ()) :
    verdict b (c.modify e.1 e.2.apply) = .ok () := by
  by_cases hplugged : c.Plugged e.1
  · obtain ⟨o, ho, hconnected⟩ := hplugged
    rwa [verdict_modify hc ho, ← answer_of_connected ho hconnected]
  · rw [answer_of_not_plugged hplugged] at he
    cases he

/-- A request makes no difference to the answers to requests for other outputs. -/
theorem answer_modify {k : OutputId × Settings} (hid : e.1 ∉ entries.map Prod.fst)
    (hk : k ∈ entries) : answer b (c.modify e.1 e.2.apply) k = answer b c k := by
  have hne : k.1 ≠ e.1 := fun h => hid (h ▸ List.mem_map_of_mem hk)
  rw [answer, answer, Configuration.output?_modify (f := e.2.apply) fun _ => rfl, if_neg hne]

/-- Requests for different outputs that succeed by themselves can be merged. -/
theorem verdict_merged (hc : verdict b c = .ok ()) (hn : (entries.map Prod.fst).Nodup)
    (h : ∀ e ∈ entries, answer b c e = .ok ()) : verdict b (c.merged entries) = .ok () := by
  induction entries generalizing c with
  | nil => rwa [Configuration.merged_nil]
  | cons e entries ih =>
    obtain ⟨hid, hn⟩ := List.nodup_cons.mp hn
    obtain ⟨he, h⟩ := List.forall_mem_cons.mp h
    rw [← Configuration.merged_modify]
    refine ih (verdict_modify_of_answer hc he) hn fun k hk => ?_
    rw [answer_modify hid hk]
    exact h k hk

/-- What is merged of different outputs succeeds by itself, if it can be merged. -/
theorem answer_of_verdict_merged (hn : (entries.map Prod.fst).Nodup) (he : e ∈ entries)
    (hplugged : c.Plugged e.1) (h : verdict b (c.merged entries) = .ok ()) :
    answer b c e = .ok () := by
  obtain ⟨o, ho, hconnected⟩ := hplugged
  have hsettled : (c.merged entries).output? e.1 = some (e.2.apply o) := by
    rw [Configuration.output?_merged, ho, Option.map_some, Output.settle,
      Configuration.id_of_output? ho, lastSettings_of_mem hn he]
    rfl
  rw [answer_of_connected ho hconnected]
  exact verdict_eq_ok_iff.mp h _ (Configuration.mem_of_output? hsettled)

end Answer

/-- The hardware refuses what its backend refuses, and nothing else. -/
structure Held.Plain (h : Held) : Prop where
  /-- It can be read. -/
  available : h.unavailable = none
  /-- It rejects nothing. -/
  accepting : h.rejection = none

namespace Guarded

variable {h : Held} {c : Configuration} {e : OutputId × Settings}
  {entries entries' : List (OutputId × Settings)}

/-- The answers to requests that are made one after the other, whatever becomes of them. -/
def answersEach {H : Type} [Hardware H] :
    List (OutputId × Settings) → H → List (Except ConfigFault Unit)
  | [], _ => []
  | (id, s) :: entries, h => (request id s h).1 :: answersEach entries (request id s h).2

/-- Such hardware accepts what its backend accepts and then has it. -/
theorem submit_of_plain (hh : h.Plain) (c : Configuration) :
    submit c h = (verdict h.backend c,
      if verdict h.backend c = .ok () then { h with configuration := c } else h) := by
  have hsubmit : Hardware.submit c h = (refusal h.backend c,
      if refusal h.backend c = .ok () then { h with configuration := c } else h) := by
    change h.submit c = _
    rw [Held.submit, refusal]
    cases h.backend.elim (.ok ()) fun b => b.check c with
    | error fault => rfl
    | ok => simp only [Held.accept, hh.accepting, Held.hold, if_true]
  rw [submit, verdict]
  cases c.defect? with
  | some defect => rfl
  | none =>
    simp only [hsubmit]
    cases refusal h.backend c <;> rfl

/-- Such hardware can be read, which changes nothing. -/
theorem read_of_plain (hh : h.Plain) : Hardware.read h = (.ok h.configuration, h) := by
  change h.read = _
  rw [Held.read, hh.available]

/-- Where nothing was wrong, a request is answered as its own output deserves. -/
theorem request_of_plain (hh : h.Plain) (hc : verdict h.backend h.configuration = .ok ())
    (e : OutputId × Settings) :
    request e.1 e.2 h = (answer h.backend h.configuration e,
      if answer h.backend h.configuration e = .ok () then
        { h with configuration := h.configuration.modify e.1 e.2.apply }
      else h) := by
  by_cases hplugged : h.configuration.Plugged e.1
  · obtain ⟨o, ho, hconnected⟩ := hplugged
    rw [request_eq_submit (read_of_plain hh) ho hconnected, submit_of_plain hh,
      verdict_modify hc ho, answer_of_connected ho hconnected]
  · have hne : (.error (.unknownOutput e.1) : Except ConfigFault Unit) ≠ .ok () := nofun
    rw [answer_of_not_plugged hplugged, if_neg hne, request,
      requestAll_of_read (read_of_plain hh), Configuration.requestAll,
      Configuration.request_of_not_plugged hplugged]

/-- Requests for different outputs are each answered as if they were the only one, and what becomes
of the configuration is that those that succeed are merged. -/
theorem requestEach_of_plain (hh : h.Plain) (hc : verdict h.backend h.configuration = .ok ())
    (hn : (entries.map Prod.fst).Nodup) :
    answersEach entries h = entries.map (answer h.backend h.configuration) ∧
    requestEach entries h = { h with
      configuration := h.configuration.merged (carriedOut h.backend h.configuration entries) } := by
  induction entries generalizing h with
  | nil =>
    rw [List.map_nil, carriedOut, List.filter_nil, Configuration.merged_nil]
    exact ⟨rfl, rfl⟩
  | cons e entries ih =>
    obtain ⟨hid, hn⟩ := List.nodup_cons.mp hn
    simp only [answersEach, requestEach, request_of_plain hh hc e, List.map_cons]
    by_cases he : answer h.backend h.configuration e = .ok ()
    · have hsame : ∀ k ∈ entries, answer h.backend (h.configuration.modify e.1 e.2.apply) k =
          answer h.backend h.configuration k :=
        fun k hk => answer_modify hid hk
      have hrest := ih (h := { h with configuration := h.configuration.modify e.1 e.2.apply })
        ⟨hh.available, hh.accepting⟩ (verdict_modify_of_answer hc he) hn
      rw [if_pos he, hrest.1, hrest.2, carriedOut_cons_of_ok he, ← Configuration.merged_modify,
        carriedOut_congr hsame, List.map_congr_left hsame]
      exact ⟨rfl, rfl⟩
    · rw [if_neg he, carriedOut_cons_of_not_ok he, (ih hh hc hn).1, (ih hh hc hn).2]
      exact ⟨rfl, rfl⟩

/-- Requests that are made at once are merged and submitted, if their outputs are all connected. -/
theorem requestAll_of_plugged (hh : h.Plain) (h' : ∀ e ∈ entries, h.configuration.Plugged e.1) :
    requestAll entries h = submit (h.configuration.merged entries) h := by
  rw [requestAll_of_read (read_of_plain hh), Configuration.requestAll_of_plugged h']

/-- Requests for different outputs that are made at once succeed if each of them does by itself, and
are merged then; otherwise nothing happens. -/
theorem requestAll_of_plain (hh : h.Plain) (hc : verdict h.backend h.configuration = .ok ())
    (hn : (entries.map Prod.fst).Nodup) :
    ((requestAll entries h).1 = .ok () ↔
      ∀ e ∈ entries, answer h.backend h.configuration e = .ok ()) ∧
    (requestAll entries h).2 = if (requestAll entries h).1 = .ok () then
      { h with configuration := h.configuration.merged entries } else h := by
  by_cases hplugged : ∀ e ∈ entries, h.configuration.Plugged e.1
  · rw [requestAll_of_plugged hh hplugged, submit_of_plain hh]
    refine ⟨⟨fun hok e he => ?_, verdict_merged hc hn⟩, rfl⟩
    exact answer_of_verdict_merged hn he (hplugged e he) hok
  · cases hrequest : h.configuration.requestAll entries with
    | ok d => exact absurd (Configuration.plugged_of_requestAll hrequest) hplugged
    | error fault =>
      have hfailed : requestAll entries h = (.error fault, h) := by
        rw [requestAll_of_read (read_of_plain hh), hrequest]
      rw [hfailed]
      refine ⟨⟨nofun, fun hall => absurd (fun e he => ?_) hplugged⟩, rfl⟩
      by_contra he'
      have hanswer := hall e he
      rw [answer_of_not_plugged he'] at hanswer
      cases hanswer

/-- Requests for different outputs, made to hardware that refuses what its backend refuses and holds
a configuration with which nothing is wrong, succeed at once if and only if they all do one after
the other, and lead to the same configuration then. In whichever order they are made, the hardware
ends up the same, and as many succeed. -/
theorem requestAll_iff_requestEach {h : Held} {entries : List (OutputId × Settings)}
    (hplain : h.Plain) (hvalid : h.configuration.defect? = none)
    (hcheck : ∀ b ∈ h.backend, b.check h.configuration = .ok ())
    (hn : (entries.map Prod.fst).Nodup) :
    ((requestAll entries h).1 = .ok () ↔ ∀ a ∈ answersEach entries h, a = .ok ()) ∧
    ((requestAll entries h).1 = .ok () → requestEach entries h = (requestAll entries h).2) ∧
    ∀ entries', entries'.Perm entries →
      ((requestAll entries' h).1 = .ok () ↔ (requestAll entries h).1 = .ok ()) ∧
      (requestAll entries' h).2 = (requestAll entries h).2 ∧
      (answersEach entries' h).Perm (answersEach entries h) ∧
      requestEach entries' h = requestEach entries h := by
  have hc : verdict h.backend h.configuration = .ok () := by
    refine verdict_eq_ok.mpr ⟨hvalid, ?_⟩
    cases hb : h.backend with
    | none => rfl
    | some b => exact hcheck b hb
  obtain ⟨hiff, hheld⟩ := requestAll_of_plain hplain hc hn
  obtain ⟨hanswers, heach⟩ := requestEach_of_plain hplain hc hn
  refine ⟨?_, fun hok => ?_, fun entries' hp => ?_⟩
  · rw [hiff, hanswers, List.forall_mem_map]
  · rw [hheld, if_pos hok, heach, carriedOut,
      List.filter_eq_self.mpr fun e he => decide_eq_true (hiff.mp hok e he)]
  · have hn' : (entries'.map Prod.fst).Nodup := (hp.map Prod.fst).nodup_iff.mpr hn
    obtain ⟨hiff', hheld'⟩ := requestAll_of_plain hplain hc hn'
    obtain ⟨hanswers', heach'⟩ := requestEach_of_plain hplain hc hn'
    have hsame : (requestAll entries' h).1 = .ok () ↔ (requestAll entries h).1 = .ok () := by
      rw [hiff, hiff']
      exact forall_congr' fun e => imp_congr_left hp.mem_iff
    have hpassed : ((carriedOut h.backend h.configuration entries).map Prod.fst).Nodup :=
      hn.sublist (List.filter_sublist.map Prod.fst)
    refine ⟨hsame, ?_, ?_, ?_⟩
    · rw [hheld, hheld', if_congr hsame rfl rfl, Configuration.merged_perm hn hp]
    · rw [hanswers, hanswers']
      exact hp.map _
    · have hmerged : h.configuration.merged (carriedOut h.backend h.configuration entries') =
          h.configuration.merged (carriedOut h.backend h.configuration entries) :=
        Configuration.merged_perm hpassed (hp.filter _) h.configuration
      rw [heach, heach', hmerged]

/-- Whatever the backend, two requests that swap places end in the same configuration, made at once
or one by one. With a third one for an output that is not connected, nothing happens at once, and
not all succeed one by one. -/
theorem requestAll_iff_requestEach_swapped :
    let panel := Output.plain "eDP-1"
    let left : Settings := { panel.settings with topLeft := ⟨-1920, 0⟩ }
    let dark : Settings := { panel.settings with used := false }
    let idle : Output := { Output.plain "DP-1" with connected := false, used := false }
    let c : Configuration := ⟨[panel, .plain "HDMI-1", idle, .plain "HDMI-1"]⟩
    let both := [("HDMI-1", left), ("eDP-1", dark)]
    let three := [("eDP-1", dark), ("DP-1", left), ("HDMI-1", left)]
    ∀ b ∈ [none, some .xrandr, some .sway, some .randr],
      let h : Held := ⟨c, b, none, none⟩
      (∀ a ∈ answersEach both h, a = .ok ()) ∧
      requestEach both h = (requestAll both.reverse h).2 ∧
      (requestAll both h).2.configuration.outputs.map (fun o => (o.used, o.topLeft.x)) =
        [(false, 0), (true, -1920), (false, 0), (true, 0)] ∧
      ¬ ∀ a ∈ answersEach three h, a = .ok () := by
  intro panel left dark idle c both three b hb h
  have hplain : h.Plain := ⟨rfl, rfl⟩
  have hvalid : c.defect? = none := by decide +kernel
  have hchecks : ∀ b ∈ [none, some .xrandr, some .sway, some .randr], ∀ k ∈ b,
      Backend.check k c = .ok () := by
    decide +kernel
  have hruns : ∀ b ∈ [none, some .xrandr, some .sway, some .randr],
      (requestAll both (⟨c, b, none, none⟩ : Held)).1 = .ok () ∧
      (requestAll three (⟨c, b, none, none⟩ : Held)).1 ≠ .ok () ∧
      (requestAll both (⟨c, b, none, none⟩ : Held)).2.configuration.outputs.map
          (fun o => (o.used, o.topLeft.x)) =
        [(false, 0), (true, -1920), (false, 0), (true, 0)] := by
    decide +kernel
  have hboth : (both.map Prod.fst).Nodup := by decide
  have hthree : (three.map Prod.fst).Nodup := by decide
  obtain ⟨hok, hfailed, houtputs⟩ := hruns b hb
  obtain ⟨heach, hsame, hany⟩ := requestAll_iff_requestEach hplain hvalid (hchecks b hb) hboth
  obtain ⟨heach', -⟩ := requestAll_iff_requestEach hplain hvalid (hchecks b hb) hthree
  obtain ⟨-, hreversed, -⟩ := hany both.reverse both.reverse_perm
  exact ⟨heach.mp hok, (hsame hok).trans hreversed.symm, houtputs, fun h => hfailed (heach'.mpr h)⟩

end Guarded

end Displays
