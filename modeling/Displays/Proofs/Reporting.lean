import Displays.Proofs.Agreement
import Displays.Proofs.Panel

/-!
# What polls report

A watcher keeps the configuration that it sent last, which need not be the last one that it read:
the two compare as equal. So the watcher compares what it reads next as the last reading would, and
it has the same built-in panel in mind, lit or not. Therefore what is sent can be told from the
readings alone, each against the last successful ones before it.
-/

namespace Displays

namespace Reading

/-- The configuration that was read, if one was. -/
def configuration? (r : Reading) : Option Configuration :=
  r.hardware.toOption

/-- The tilt that was read, if one was. -/
def tilt? (r : Reading) : Option Tilt :=
  r.accelerometer.bind Except.toOption

/-- The configuration that was read last. -/
def lastConfiguration? (l : List Reading) : Option Configuration :=
  (l.filterMap configuration?).getLast?

/-- The tilt that was read last. -/
def lastTilt? (l : List Reading) : Option Tilt :=
  (l.filterMap tilt?).getLast?

/-- What a configuration has to tell that is read after this one: nothing unless the two differ,
and otherwise itself, directly followed by whether the built-in panel is lit if there is one and
this was different before. -/
def configurationNews (last : Option Configuration) (c : Configuration) : List Observation :=
  if last == some c then []
  else
    .configuration c ::
      if last.bind Configuration.lit? = c.lit? then [] else (c.lit?.map Observation.lit).toList

/-- What a tilt has to tell to the built-in panel that is read after this one: nothing unless the
two differ and there is a panel. -/
def tiltNews (panel : Option Output) (last : Option Tilt) (t : Tilt) : List Observation :=
  if last = some t then [] else (panel.map fun o => .tilt o.id t).toList

/-- What a reading has to tell after those before it. The built-in panel is that of the last
configuration, the one of this reading included. -/
def news (before : List Reading) (r : Reading) : List Observation :=
  r.configuration?.elim [] (configurationNews (lastConfiguration? before)) ++
    r.tilt?.elim []
      (tiltNews ((lastConfiguration? (before ++ [r])).bind Configuration.internal?)
        (lastTilt? before))

/-- What readings one after the other have to tell, after those before them. -/
def newsAll (before : List Reading) : List Reading → List Observation
  | [] => []
  | r :: rest => news before r ++ newsAll (before ++ [r]) rest

/-- A further reading replaces the configuration that was read last if it has one. -/
theorem lastConfiguration?_concat (l : List Reading) (r : Reading) :
    lastConfiguration? (l ++ [r]) = r.configuration?.or (lastConfiguration? l) := by
  rw [lastConfiguration?, List.filterMap_append, List.getLast?_append]
  cases h : r.configuration? <;> simp only [List.filterMap_cons, List.filterMap_nil, h] <;> rfl

/-- A further reading replaces the tilt that was read last if it has one. -/
theorem lastTilt?_concat (l : List Reading) (r : Reading) :
    lastTilt? (l ++ [r]) = r.tilt?.or (lastTilt? l) := by
  rw [lastTilt?, List.filterMap_append, List.getLast?_append]
  cases h : r.tilt? <;> simp only [List.filterMap_cons, List.filterMap_nil, h] <;> rfl

end Reading

open Reading

namespace Configuration

variable {c d : Configuration}

/-- Configurations that compare as equal have one built-in panel, up to its scale. -/
theorem rel_internal?_of_beq (h : (c == d) = true) :
    Option.Rel (fun o p : Output => (o == p) = true) c.internal? d.internal? :=
  rel_find?_of_beq (fun _ _ => rfl) (outputs_of_beq h)

/-- What does not depend on the scale is the same of the built-in panels of configurations that
compare as equal. -/
theorem map_internal?_of_beq {α : Type} {g : Output → α}
    (hg : ∀ o x, g { o with scale := x } = g o) (h : (c == d) = true) :
    c.internal?.map g = d.internal?.map g := by
  have hrel := rel_internal?_of_beq h
  generalize c.internal? = o?, d.internal? = p? at hrel ⊢
  cases hrel with
  | none => rfl
  | @some o p hop =>
    have hp := hg o p.scale
    rw [(Output.eq_of_beq hop).1] at hp
    exact congrArg some hp.symm

end Configuration

namespace Watcher

variable {w : Watcher} {last : Option Configuration} {before : List Reading}

/-- What the watcher knows of the hardware is as good as the configuration that was read last: it
compares alike, its built-in panel has the same name, and it is known whether that is lit. -/
structure Knows (w : Watcher) (last : Option Configuration) : Prop where
  /-- Any configuration differs from both or from neither. -/
  beq_eq : ∀ c, (w.configuration == some c) = (last == some c)
  /-- The built-in panels have one name. -/
  panel : (w.configuration.bind Configuration.internal?).map Output.id =
    (last.bind Configuration.internal?).map Output.id
  /-- The panel is lit or not as it was read. -/
  lit : w.lit = last.bind Configuration.lit?

/-- A watcher that finds what it knows knows what it finds. -/
theorem Knows.of_beq {c : Configuration} (h : w.Knows last)
    (hc : (w.configuration == some c) = true) : w.Knows (some c) := by
  obtain ⟨d, hd⟩ : ∃ d, w.configuration = some d := by
    cases hw : w.configuration with
    | none =>
      rw [hw] at hc
      cases hc
    | some d => exact ⟨d, rfl⟩
  obtain ⟨e, rfl⟩ : ∃ e, last = some e := by
    cases last with
    | none =>
      rw [h.beq_eq] at hc
      cases hc
    | some e => exact ⟨e, rfl⟩
  have hec : (e == c) = true := (h.beq_eq c).symm.trans hc
  rw [hd] at hc
  refine ⟨fun x => ?_, ?_, ?_⟩
  · rw [hd]
    exact Configuration.beq_congr hc x
  · rw [hd]
    exact Configuration.map_internal?_of_beq (fun _ _ => rfl) hc
  · rw [h.lit]
    exact Configuration.map_internal?_of_beq (fun _ _ => rfl) hec

/-- A poll of the hardware sends what there is to tell, and the watcher knows what was read. -/
theorem knows_pollHardware (h : w.Knows last) (reading : Except HardwareFault Configuration) :
    (w.pollHardware true reading).watcher.Knows (reading.toOption.or last) ∧
    (w.pollHardware true reading).sent = reading.toOption.elim [] (configurationNews last) := by
  rcases w.pollHardware_outcomes reading with
    ⟨hp, hsame⟩ | ⟨c, rfl, hnew, ⟨hlit, hp⟩ | ⟨hlit, hp⟩⟩ <;> rw [hp]
  · cases reading with
    | error fault => exact ⟨h, rfl⟩
    | ok c =>
      have hnews : configurationNews last c = [] := if_pos (h.beq_eq c ▸ hsame c rfl)
      exact ⟨h.of_beq (hsame c rfl), hnews.symm⟩
  all_goals
    change _ ∧ _ = configurationNews last c
    rw [configurationNews, ← h.beq_eq, hnew, if_neg Bool.false_ne_true, ← h.lit]
  · rw [if_pos hlit]
    exact ⟨⟨fun _ => rfl, rfl, hlit⟩, rfl⟩
  · rw [if_neg hlit]
    exact ⟨⟨fun _ => rfl, rfl, rfl⟩, rfl⟩

/-- A poll of the hardware leaves the tilt. -/
theorem tilt_pollHardware (w : Watcher) (reading : Except HardwareFault Configuration) :
    (w.pollHardware true reading).watcher.tilt = w.tilt := by
  rcases w.pollHardware_outcomes reading with ⟨hp, _⟩ | ⟨c, _, _, ⟨_, hp⟩ | ⟨_, hp⟩⟩ <;> rw [hp]

/-- A poll of the tilt that is listened to sends what there is to tell to the built-in panel. -/
theorem pollTilt_eq (w : Watcher) (reading : Except IoFault Tilt) :
    w.pollTilt true reading =
      ⟨true, reading.toOption.elim []
          (tiltNews (w.configuration.bind Configuration.internal?) w.tilt),
        { w with tilt := reading.toOption.or w.tilt }⟩ := by
  cases reading with
  | error fault => rfl
  | ok t =>
    change _ = (⟨true, tiltNews _ w.tilt t, { w with tilt := some t }⟩ : Poll)
    by_cases ht : w.tilt = some t
    · simp only [pollTilt, tiltNews, ht, ite_true]
      rw [← ht]
    · simp only [pollTilt, tiltNews, ht, ite_false]
      cases w.configuration.bind Configuration.internal? <;> rfl

/-- What there is to tell to a panel depends on its name only. -/
theorem tiltNews_congr {panel other : Option Output} (h : panel.map Output.id = other.map Output.id)
    (last : Option Tilt) (t : Tilt) : tiltNews panel last t = tiltNews other last t := by
  have hmap : ∀ o : Option Output,
      o.map (fun p => Observation.tilt p.id t) = (o.map Output.id).map (Observation.tilt · t) :=
    fun o => by cases o <;> rfl
  rw [tiltNews, tiltNews, hmap panel, hmap other, h]

/-- The watcher remembers what was read before. -/
structure Recalls (w : Watcher) (before : List Reading) : Prop where
  /-- It compares configurations as the last one that was read does. -/
  hardware : w.Knows (lastConfiguration? before)
  /-- It has the tilt that was read last. -/
  tilt : w.tilt = lastTilt? before

/-- A new watcher remembers that nothing was read. -/
theorem recalls_nil : Recalls {} [] :=
  ⟨⟨fun _ => rfl, rfl, rfl⟩, rfl⟩

/-- A poll sends what the reading has to tell, and the watcher remembers the reading. -/
theorem Recalls.poll (h : w.Recalls before) (r : Reading) :
    (w.poll true r).alive = true ∧ (w.poll true r).sent = news before r ∧
    (w.poll true r).watcher.Recalls (before ++ [r]) := by
  obtain ⟨hknows, hsent⟩ := knows_pollHardware h.hardware r.hardware
  have htilt := (w.tilt_pollHardware r.hardware).trans h.tilt
  change (w.pollHardware true r.hardware).watcher.Knows (r.configuration?.or _) at hknows
  rw [← lastConfiguration?_concat] at hknows
  cases ha : r.accelerometer with
  | none =>
    have hread : r.tilt? = none := by rw [tilt?, ha, Option.bind_none]
    rw [poll_of_none ha, news, hread, hsent]
    refine ⟨(w.pollHardware_cases r.hardware).1, (List.append_nil _).symm, hknows, ?_⟩
    rw [htilt, lastTilt?_concat, hread, Option.none_or]
  | some reading =>
    have hread : r.tilt? = reading.toOption := by rw [tilt?, ha, Option.bind_some]
    rw [poll_of_some ha, pollTilt_eq, news, hread, hsent, htilt]
    refine ⟨rfl, ?_, ⟨hknows.beq_eq, hknows.panel, hknows.lit⟩, ?_⟩
    · -- The panel that is kept need not be the one that was read last, but it has the same name.
      rw [funext (tiltNews_congr hknows.panel (lastTilt? before))]
      rfl
    · rw [lastTilt?_concat, hread]

/-- Polls one after the other send what the readings have to tell, and the watcher remembers
them. -/
theorem Recalls.pollAll (h : w.Recalls before) (l : List Reading) :
    (w.pollAll l).1 = newsAll before l ∧ (w.pollAll l).2.Recalls (before ++ l) := by
  induction l generalizing w before with
  | nil => exact ⟨rfl, (List.append_nil before).symm ▸ h⟩
  | cons r l ih =>
    obtain ⟨_, hsent, hnext⟩ := h.poll r
    obtain ⟨hlater, hlast⟩ := ih hnext
    rw [List.append_assoc] at hlast
    exact ⟨congrArg₂ (· ++ ·) hsent hlater, hlast⟩

/-- What cannot be read leaves what the watcher saw last. -/
theorem poll_keeps (w : Watcher) (r : Reading) :
    (r.configuration? = none → (w.poll true r).watcher.configuration = w.configuration ∧
      (w.poll true r).watcher.lit = w.lit) ∧
    (r.tilt? = none → (w.poll true r).watcher.tilt = w.tilt) := by
  have hkept : r.configuration? = none → w.pollHardware true r.hardware = ⟨true, [], w⟩ := by
    intro hr
    cases hh : r.hardware with
    | error fault => rfl
    | ok c =>
      rw [configuration?, hh] at hr
      cases hr
  cases ha : r.accelerometer with
  | none =>
    rw [poll_of_none ha]
    exact ⟨fun hr => hkept hr ▸ ⟨rfl, rfl⟩, fun _ => w.tilt_pollHardware r.hardware⟩
  | some reading =>
    rw [poll_of_some ha, pollTilt_eq]
    refine ⟨fun hr => hkept hr ▸ ⟨rfl, rfl⟩, fun hr => ?_⟩
    rw [tilt?, ha, Option.bind_some] at hr
    change reading.toOption.or _ = _
    rw [hr, Option.none_or, tilt_pollHardware]

/-- A watcher reports what changes, all of it and only that: what its polls send is what the
readings have to tell, each after the last successful ones before it. After any number of polls, the
next one is no exception, and what it cannot read leaves what the watcher saw last. -/
theorem reports_changes (l : List Reading) :
    (Watcher.pollAll {} l).1 = newsAll [] l ∧
    ∀ r, let w := (Watcher.pollAll {} l).2
      (w.poll true r).alive = true ∧ (w.poll true r).sent = news l r ∧
      (r.configuration? = none → (w.poll true r).watcher.configuration = w.configuration ∧
        (w.poll true r).watcher.lit = w.lit) ∧
      (r.tilt? = none → (w.poll true r).watcher.tilt = w.tilt) := by
  obtain ⟨hsent, hrecalls⟩ := recalls_nil.pollAll l
  refine ⟨hsent, fun r => ?_⟩
  obtain ⟨halive, hnews, _⟩ := hrecalls.poll r
  exact ⟨halive, hnews, poll_keeps _ r⟩

/-- The panel is seen lit and later dark. In between nothing can be read, and a poll finds all as it
was. The panel vanishes and is lit when it is back; the device is turned while it is away. -/
theorem reports_changes_panel :
    let unread : Reading := ⟨.error (.unsupported (.stated "unplugged")), some (.error .notFound)⟩
    let gone : Reading := ⟨.ok ⟨[]⟩, some (.ok .leftUp)⟩
    let l : List Reading :=
      [.panel .on .topUp, unread, .panel .on .topUp, .panel .off .rightUp, gone]
    let panel (power : PowerMode) : Observation :=
      .configuration ⟨[{ Output.plain "eDP-1" with power }]⟩
    unread.configuration? = none ∧ unread.tilt? = none ∧
    (((Watcher.pollAll {} l).1 ++ ((Watcher.pollAll {} l).2.poll true (.panel .on .leftUp)).sent) ==
      [panel .on, .lit true, .tilt "eDP-1" .topUp, panel .off, .lit false, .tilt "eDP-1" .rightUp,
        .configuration ⟨[]⟩, panel .on, .lit true]) = true ∧
    ((Watcher.pollAll {} l).2.poll true unread).watcher.tilt = some .leftUp := by
  intro unread gone l panel
  obtain ⟨hsent, hnext⟩ := reports_changes l
  refine ⟨rfl, rfl, ?_, ?_⟩
  · rw [hsent, (hnext _).2.1]
    decide +kernel
  · rw [(hnext unread).2.2.2 rfl]
    decide +kernel

end Watcher

end Displays
