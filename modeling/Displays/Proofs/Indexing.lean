import Displays.Proofs.Activation
import Displays.Proofs.Drafts
import Displays.Proofs.Reopening
import Displays.Proofs.WriteBack
import Displays.Sway.Report

/-!
# Current modes

The index of the current mode is that of a mode, or zero where there are no modes. Each reader sees
to it in its own way: one marks the mode before it is added to the others, one searches the modes
for the mode itself, and one searches the ids of the modes that are offered, each of which has a
mode. A screen takes over modes and index together, and a request for an index is judged by the
modes that the screen has then, so that its index is in range at any time.
-/

namespace Displays

/-- The index is that of one of the modes, or zero if there are none. -/
def Indexes (modes : List Mode) (index : Nat) : Prop :=
  index < modes.length ∨ index = 0 ∧ modes = []

instance (modes : List Mode) (index : Nat) : Decidable (Indexes modes index) :=
  inferInstanceAs (Decidable (_ ∨ _))

/-- An index that is zero unless one in range was found. -/
theorem indexes_getD {modes : List Mode} {found : Option Nat} (h : ∀ i ∈ found, i < modes.length) :
    Indexes modes (found.getD 0) := by
  cases found with
  | none =>
    cases modes with
    | nil => exact .inr ⟨rfl, rfl⟩
    | cons mode modes => exact .inl (Nat.zero_lt_succ _)
  | some i => exact .inl (h i rfl)

/-- All outputs have the index of one of their modes, or zero if they have none. -/
def Configuration.Indexed (c : Configuration) : Prop :=
  ∀ o ∈ c.outputs, Indexes o.modes o.modeIndex

instance (c : Configuration) : Decidable c.Indexed :=
  inferInstanceAs (Decidable (∀ o ∈ c.outputs, Indexes o.modes o.modeIndex))

namespace Xrandr

namespace Draft

variable {d e : Draft}

/-- A mode that is marked as current was added. -/
def Marked (d : Draft) : Prop :=
  ∀ i ∈ d.current, i < d.output.modes.length

/-- A line that adds a mode and marks no other one leaves the mark in range. -/
theorem Marked.of_reads {line : List Char} (hd : d.Marked) (h : Reads line e d) : e.Marked := by
  intro i hi
  obtain ⟨hmodes, hcurrent⟩ | ⟨_, _, _, -, hmodes, hcurrent⟩ := h.modes_cases
  · rw [hcurrent] at hi
    rw [hmodes]
    exact hd i hi
  · rw [hmodes, List.length_append, List.length_singleton]
    obtain hcurrent | hcurrent := hcurrent
    · rw [hcurrent] at hi
      exact Nat.lt_succ_of_lt (hd i hi)
    · rw [hcurrent] at hi
      cases hi
      exact Nat.lt_succ_self _

/-- A header marks no mode. -/
theorem marked_ofHeader {header : Header} (h : ofHeader header = .ok d) : d.Marked := by
  intro i hi
  rw [(of_ofHeader h).2.1] at hi
  cases hi

/-- A completed output has the index of one of its modes if a mode that was added is marked. -/
theorem indexes_finish {o : Output} (hd : d.Marked) (h : d.finish = .ok o) :
    Indexes o.modes o.modeIndex := by
  rw [finish] at h
  split at h
  · rw [← Except.ok.inj h]
    exact indexes_getD hd
  · obtain ⟨_, _, h⟩ := exists_of_bind_eq_ok h
    rw [← Except.ok.inj h]
    exact indexes_getD hd

end Draft

/-- Whatever the lines of a report are, the modes that are marked as current were added. -/
theorem invariant_marked (ls : List (List Char)) :
    Invariant ls Draft.Marked fun o => Indexes o.modes o.modeIndex where
  header := Draft.marked_ofHeader
  line _ hd h := hd.of_reads (Draft.reads_readLine h)
  finish := Draft.indexes_finish

/-- Every report of xrandr gives indices in range. -/
theorem indexed_readBytes {bytes : List UInt8} {c : Configuration} (h : readBytes bytes = .ok c) :
    c.Indexed := by
  rw [readBytes] at h
  split at h
  · exact (invariant_marked _).forall_of_read h
  · cases h

end Xrandr

namespace Sway

open Json (Value)

variable {v : Value} {o : Output} {bytes : List UInt8} {c : Configuration}

/-- The current mode has the index at which it is listed first, if it is listed. -/
theorem indexes_output? (h : output? v = some o) : Indexes o.modes o.modeIndex := by
  obtain ⟨-, mode, hindex⟩ := of_output? h
  rw [hindex]
  refine indexes_getD fun i hi => ?_
  obtain ⟨m, -, hi⟩ := Option.bind_eq_some_iff.mp hi
  exact (List.findIdx?_eq_some_iff_getElem.mp hi).1

/-- Every output of a report was read as one. -/
theorem exists_of_mem_readBytes (h : readBytes bytes = .ok c) (ho : o ∈ c.outputs) :
    ∃ items v, Value.read? bytes = some (.array items) ∧ v ∈ items ∧ output? v = some o := by
  rw [readBytes] at h
  split at h
  · rename_i outputs houtputs
    obtain ⟨v, hv, houtputs⟩ := Option.bind_eq_some_iff.mp houtputs
    obtain rfl := Except.ok.inj h
    cases v with
    | array items =>
      obtain ⟨item, hitem, hread⟩ := exists_of_mem_mapM houtputs ho
      exact ⟨items, item, hv, hitem, hread⟩
    | _ => cases houtputs
  · cases h

/-- Every report of sway gives indices in range. -/
theorem indexed_readBytes (h : readBytes bytes = .ok c) : c.Indexed := by
  intro o ho
  obtain ⟨_, _, -, -, hread⟩ := exists_of_mem_readBytes h ho
  exact indexes_output? hread

end Sway

namespace Randr

variable {modes : Table ModeInfo} {crtcs : Table Crtc} {connector : Connector}
  {edid : Option (List UInt8)} {o : Output} {s : Server} {c : Configuration}

/-- Each mode that is offered is known, so the modes have the indices of their ids. -/
theorem length_filterMap_admissible {ids l : List Nat} (h : admissible modes l = .ok ids) :
    (ids.filterMap modes.get?).length = ids.length := by
  refine List.filterMap_length_eq_length.mpr fun id hid => ?_
  obtain ⟨-, m, hm, -⟩ := (mem_admissible_iff h).mp hid
  exact Option.isSome_of_eq_some hm

/-- An output of a server has the index of one of its modes. -/
theorem indexes_toOutput (h : connector.toOutput modes crtcs edid = .ok o) :
    Indexes o.modes o.modeIndex := by
  rw [Connector.toOutput] at h
  split at h
  · cases h
  · rename_i ids hids
    rw [← Except.ok.inj h]
    refine indexes_getD fun i hi => ?_
    obtain ⟨crtc, -, hi⟩ := Option.bind_eq_some_iff.mp hi
    rw [List.length_map, length_filterMap_admissible hids]
    exact (List.findIdx?_eq_some_iff_getElem.mp hi).1

end Randr

/-- The index is that of the first mode of this size. -/
def FirstOfSize (modes : List Mode) (size : Resolution) (index : Nat) : Prop :=
  ∃ mode, modes[index]? = some mode ∧ mode.resolution = size ∧
    ∀ earlier ∈ modes.take index, earlier.resolution ≠ size

/-- A request for a size selects the first mode of that size, or fails because there is none. -/
theorem Screen.setSize_cases (s : Screen) (size : Resolution) :
    (∃ index changes, FirstOfSize s.modes size index ∧
      s.setSize size = .ok ({ s with modeIndex := index }, changes)) ∨
    (∀ mode ∈ s.modes, mode.resolution ≠ size) ∧
      s.setSize size = .error (.invalid (.screenSize s.id size)) := by
  rw [setSize]
  split
  · rename_i index hindex
    obtain ⟨hlt, hmode, hearlier⟩ := List.findIdx?_eq_some_iff_getElem.mp hindex
    have hfirst : FirstOfSize s.modes size index := by
      refine ⟨_, List.getElem?_eq_getElem hlt, of_decide_eq_true hmode, fun mode hmem => ?_⟩
      obtain ⟨j, hj, rfl⟩ := List.mem_take_iff_getElem.mp hmem
      exact fun h => hearlier j (Nat.lt_of_lt_of_le hj (Nat.min_le_left _ _)) (decide_eq_true h)
    rw [setModeIndex, if_neg (Nat.not_le.mpr hlt)]
    split
    · rename_i hsame
      exact .inl ⟨index, [], hfirst, by rw [← hsame]⟩
    · exact .inl ⟨index, _, hfirst, rfl⟩
  · rename_i hnone
    refine .inr ⟨fun mode hmem h => ?_, rfl⟩
    have hmiss := List.findIdx?_eq_none_iff.mp hnone mode hmem
    exact absurd (decide_eq_true h) (Bool.eq_false_iff.mp hmiss)

namespace Model

variable {m : Model} {id : OutputId} {s : Screen} {steps : List Step}

/-- All screens have the index of one of their modes, or zero if they have none. -/
def Indexed (m : Model) : Prop :=
  ∀ s ∈ m.screens, Indexes s.modes s.modeIndex

/-- A request asks for indices in range only. -/
theorem indexes_attempt (u : Mutation) (hs : Indexes s.modes s.modeIndex) :
    Indexes (u.attempt s).1.modes (u.attempt s).1.modeIndex := by
  rcases u.attempt_cases s with hr | ⟨change, hasks, hr⟩
  · rwa [hr]
  · rw [hr]
    cases u with
    | modeIndex i =>
      obtain ⟨hi, rfl⟩ := hasks
      exact .inl hi
    | size r =>
      obtain ⟨i, hi, rfl⟩ := hasks
      exact .inl hi
    | used b | scale x | form f | active a =>
      obtain rfl := hasks
      exact hs

/-- Taking note of an observation keeps the indices of screens in range. -/
theorem indexed_note {o : Observation} (hm : m.Indexed)
    (ho : ∀ c, o = .configuration c → c.Indexed) : (o.note m).Indexed := by
  cases o with
  | configuration c =>
    have hc := ho c rfl
    exact forall_absorb (fun _ p hp _ => hc p hp) (fun s hs _ => hm s hs) fun p hp _ => hc p hp
  | tilt id t =>
    refine forall_update hm fun s hs _ => ?_
    obtain ⟨turned, hturned⟩ := Screen.tilt_eq t s
    rw [hturned]
    exact hm s hs
  | lit lit =>
    intro s hs
    obtain ⟨t, ht, rfl⟩ := List.mem_map.mp hs
    unfold Screen.setLit
    split <;> exact hm t ht

/-- A step keeps the indices of screens in range. -/
theorem indexed_step {a : Step} (hm : m.Indexed) (hn : m.ids.Nodup)
    (ha : ∀ c, a = .note (.configuration c) → c.Indexed) : (m.step a).Indexed := by
  cases a with
  | note o => exact indexed_note hm fun c hc => ha c (congrArg Step.note hc)
  | mutate id u =>
    change (m.mutate id u).2.Indexed
    rw [mutate_eq_update]
    exact forall_update hm fun s hs _ => indexes_attempt u (hm s hs)
  | activate id =>
    by_cases hid : id ∈ m.ids
    · rw [step, activate_eq hn hid]
      intro s hs
      obtain ⟨t, ht, rfl⟩ := List.mem_map.mp hs
      exact hm t ht
    · rw [step, activate_of_not_mem hid]
      exact hm
  | drain => exact hm
  | subscribe => exact hm

/-- Whatever was done to a model that absorbed such configurations only, its indices are in range.
-/
theorem indexed_after (h : ∀ c, Step.note (.configuration c) ∈ steps → c.Indexed) :
    (after steps).Indexed := by
  induction steps using List.reverseRecOn with
  | nil => exact fun s hs => absurd hs List.not_mem_nil
  | append_singleton steps a ih =>
    rw [after_concat]
    have hn := (wellFormed_of_reachable (reachable_after steps)).nodup
    refine indexed_step (ih fun c hc => h c (List.mem_append_left _ hc)) hn fun c hc => h c ?_
    exact hc ▸ List.mem_append_right _ (List.mem_singleton_self a)

/-- The screen of an output can be asked for the sizes of its modes and no others, and takes the
first mode of that size. -/
theorem mutate_size (hs : m.screen? id = some s) (size : Resolution) :
    ((m.mutate id (.size size)).1 = .ok () ↔ ∃ mode ∈ s.modes, mode.resolution = size) ∧
    ((m.mutate id (.size size)).1 = .ok () → ∃ index, FirstOfSize s.modes size index ∧
      (m.mutate id (.size size)).2.screen? id = some { s with modeIndex := index }) := by
  have hresult : (m.mutate id (.size size)).1 = (s.setSize size).map fun _ => () := by
    simp only [mutate, tryUpdate, hs, Mutation.apply]
    cases s.setSize size <;> rfl
  rcases s.setSize_cases size with ⟨index, changes, hfirst, hsize⟩ | ⟨hnone, hsize⟩
  · rw [hresult, hsize]
    have hmem : ∃ mode ∈ s.modes, mode.resolution = size := by
      obtain ⟨mode, hmode, hresolution, -⟩ := hfirst
      exact ⟨mode, List.mem_of_getElem? hmode, hresolution⟩
    refine ⟨⟨fun _ => hmem, fun _ => rfl⟩, fun _ => ⟨index, hfirst, ?_⟩⟩
    rw [mutate_eq_update,
      screen?_update fun t => Screen.moved_id ((Mutation.size size).moved_attempt t), if_pos rfl,
      hs]
    simp only [Option.map_some, Mutation.attempt, Mutation.apply, hsize]
  · rw [hresult, hsize]
    refine ⟨⟨fun h => ?_, ?_⟩, fun h => ?_⟩
    · cases h
    · rintro ⟨mode, hmem, h⟩
      exact absurd h (hnone mode hmem)
    · cases h

end Model

/-- What is read has indices of current modes that are in range, and so has a model that absorbed
nothing else, whatever was asked of it. A screen can be asked for a size if one of its modes has it,
and then takes the first such mode. -/
theorem current_modes_in_range :
    (∀ bytes c, Xrandr.readBytes bytes = .ok c → c.Indexed) ∧
    (∀ bytes c, Sway.readBytes bytes = .ok c → c.Indexed) ∧
    (∀ (connector : Randr.Connector) modes crtcs edid o,
      connector.toOutput modes crtcs edid = .ok o → Indexes o.modes o.modeIndex) ∧
    ∀ steps, (∀ c, Model.Step.note (.configuration c) ∈ steps → c.Indexed) →
      let m := Model.after steps
      (∀ s ∈ m.screens, Indexes s.modes s.modeIndex) ∧
      ∀ id s size, m.screen? id = some s →
        ((m.mutate id (.size size)).1 = .ok () ↔ ∃ mode ∈ s.modes, mode.resolution = size) ∧
        ((m.mutate id (.size size)).1 = .ok () → ∃ index, FirstOfSize s.modes size index ∧
          (m.mutate id (.size size)).2.screen? id = some { s with modeIndex := index }) :=
  ⟨fun _ _ h => Xrandr.indexed_readBytes h, fun _ _ h => Sway.indexed_readBytes h,
    fun _ _ _ _ _ h => Randr.indexes_toOutput h,
    fun _ h => ⟨Model.indexed_after h, fun _ _ size hs => Model.mutate_size hs size⟩⟩

namespace Scenes

open Text (unlines)

/-- The report of a connected output with these modes below it. -/
def report (modes : List String) : List UInt8 :=
  Text.Utf8.encode (unlines ("DP-1 connected 800x600+0+0".toList :: modes.map String.toList))

/-- The lines of a mode of 800 columns. -/
def narrow : List String :=
  ["  800x600 (0x49) 40.000MHz +preferred", "        h: width   800 start  840",
    "        v: height  600 start  601 clock  60.32Hz"]

/-- The lines of a mode of 1024 columns, the current one. -/
def broad : List String :=
  ["  1024x768 (0x4c) 65.000MHz *current", "        h: width  1024 start 1048",
    "        v: height  768 start  771 clock  60.00Hz"]

/-- The sizes that a screen offers. -/
def sizes (s : Screen) : List Resolution :=
  s.modes.map Mode.resolution

/-- The sizes on offer and the index of the current mode of each screen. -/
def offers (m : Model) : List (List Resolution × Nat) :=
  m.screens.map fun s => (sizes s, s.modeIndex)

/-- The output is plugged in, and its screen is asked for the last of three modes and for one beyond
it. -/
def asked (c : Configuration) : List Model.Step :=
  [.note (.configuration c), .mutate "DP-1" (.modeIndex 2), .mutate "DP-1" (.modeIndex 3)]

/-- After that, the output is read again. -/
def shrunk (c d : Configuration) : List Model.Step :=
  asked c ++ [.note (.configuration d)]

/-- A screen that was asked for the last of three modes has the index of its only mode when the
others are gone, and the first of two modes of a size when it is asked for that size. -/
theorem current_modes_in_range_shrunk :
    ∃ c d, Xrandr.readBytes (report (broad ++ narrow ++ narrow)) = .ok c ∧
      Xrandr.readBytes (report narrow) = .ok d ∧
      offers (.after (asked c)) = [([⟨1024, 768⟩, ⟨800, 600⟩, ⟨800, 600⟩], 2)] ∧
      offers (.after (shrunk c d)) = [([⟨800, 600⟩], 0)] ∧
      (∀ s ∈ (Model.after (shrunk c d)).screens, Indexes s.modes s.modeIndex) ∧
      offers ((Model.after (asked c)).mutate "DP-1" (.size ⟨800, 600⟩)).2 =
        [([⟨1024, 768⟩, ⟨800, 600⟩, ⟨800, 600⟩], 1)] ∧
      ((Model.after (asked c)).mutate "DP-1" (.size ⟨800, 600⟩)).1 = .ok () := by
  have hruns : (do
      let c ← Xrandr.readBytes (report (broad ++ narrow ++ narrow))
      let d ← Xrandr.readBytes (report narrow)
      let m := Model.after (asked c)
      return ((m.screen? "DP-1").map sizes, [offers m, offers (.after (shrunk c d)),
        offers (m.mutate "DP-1" (.size ⟨800, 600⟩)).2])) =
      .ok (some [⟨1024, 768⟩, ⟨800, 600⟩, ⟨800, 600⟩],
        [[([⟨1024, 768⟩, ⟨800, 600⟩, ⟨800, 600⟩], 2)], [([⟨800, 600⟩], 0)],
          [([⟨1024, 768⟩, ⟨800, 600⟩, ⟨800, 600⟩], 1)]]) := by
    decide +kernel
  obtain ⟨c, hc, hruns⟩ := exists_of_bind_eq_ok hruns
  obtain ⟨d, hd, hruns⟩ := exists_of_bind_eq_ok hruns
  obtain ⟨hscreen, hruns⟩ := Prod.mk.inj (Except.ok.inj hruns)
  obtain ⟨hasked, hruns⟩ := List.cons.inj hruns
  obtain ⟨hshrunk, hruns⟩ := List.cons.inj hruns
  obtain ⟨hsized, -⟩ := List.cons.inj hruns
  obtain ⟨s, hs, hsizes⟩ := Option.map_eq_some_iff.mp hscreen
  obtain ⟨hxrandr, -, -, hafter⟩ := current_modes_in_range
  have hc' := hxrandr _ _ hc
  have hd' := hxrandr _ _ hd
  have hnarrow : ∃ mode ∈ s.modes, mode.resolution = ⟨800, 600⟩ := by
    change s.modes.map Mode.resolution = _ at hsizes
    rw [← List.mem_map, hsizes]
    decide
  refine ⟨c, d, hc, hd, hasked, hshrunk, (hafter _ ?_).1, hsized,
    ((hafter _ ?_).2 "DP-1" s ⟨800, 600⟩ hs).1.mpr hnarrow⟩
  · simpa [shrunk, asked] using ⟨hc', hd'⟩
  · simpa [asked] using hc'

end Scenes

end Displays
