import Displays.Proofs.Layout
import Displays.Proofs.Lookup
import Displays.Randr.Submission

/-!
# Refused submissions

A submission that the server itself grants can still be refused: what the configuration requests is
not supported, or no plan can be made, or the screen cannot hold the layout. The last is found out
only after the CRTCs that change were switched off. It happens to no layout that planning has moved
to the origin, for a screen can hold it; so a refused submission leaves the server as it was, unless
the layout begins at the origin by itself and reaches too far or has a mode that is unknown.
-/

namespace Displays.Randr

namespace Server

variable {s : Server} {order : List (Nat × Connector)} {c : Configuration} {new : Table Crtc}
  {fault : HardwareFault}

/-- A server that fails no request grants any number of them. -/
theorem performAll_of_failing_none (hs : s.failing = none) (requests : List Request) :
    ∃ s', s.performAll requests = (.ok (), s') ∧ s'.failing = none ∧
      s'.log = s.log ++ requests := by
  induction requests generalizing s with
  | nil => exact ⟨s, rfl, hs, (List.append_nil _).symm⟩
  | cons r requests ih =>
    have hask : ({ s with log := s.log ++ [r] } : Server).ask r.kind = .ok () := by
      simp only [ask, hs, reduceCtorEq, ite_false]
    have hgranted : ∀ t : Server, (t.granted r).failing = t.failing ∧
        (t.granted r).log = t.log := by
      intro t
      cases r <;> exact ⟨rfl, rfl⟩
    obtain ⟨hfailing, hlog⟩ := hgranted { s with log := s.log ++ [r] }
    obtain ⟨s', hs', hfailing', hlog'⟩ := ih (hfailing.trans hs)
    refine ⟨s', ?_, hfailing', ?_⟩
    · rw [performAll, perform]
      simp only [hask]
      exact hs'
    · rw [hlog', hlog, List.append_assoc, List.singleton_append]

/-- A plan fails to be carried out only when the screen cannot hold it, after the CRTCs that change
were switched off. -/
theorem carryOut_error (hs : s.failing = none) (h : (s.carryOut new).1 = .error fault) :
    screenSize s.modes (.ofList s.outputs) new = .error fault ∧
      (s.carryOut new).2.log = s.log ++ disabling s.crtcs new := by
  obtain ⟨s', hs', hfailing, hlog⟩ := performAll_of_failing_none hs (disabling s.crtcs new)
  rw [carryOut, hs'] at h ⊢
  cases hsize : screenSize s.modes (.ofList s.outputs) new with
  | error fault' =>
    simp only [hsize] at h ⊢
    exact ⟨congrArg Except.error (Except.error.inj h), hlog⟩
  | ok size =>
    have hok : ∀ requests, (s'.performAll requests).1 ≠ .error fault := by
      intro requests
      obtain ⟨_, hs'', _⟩ := performAll_of_failing_none hfailing requests
      simp only [hs'', ne_eq, reduceCtorEq, not_false_eq_true]
    cases size with
    | none =>
      simp only [hsize] at h
      exact absurd h (hok _)
    | some size =>
      simp only [hsize] at h
      exact absurd h (hok _)

/-- A submission is refused before anything is requested, or carries out a plan. -/
theorem submit_cases (order : List (Nat × Connector)) (c : Configuration) (s : Server) :
    (∃ fault, s.submit order c = (.error fault, s)) ∨
    ∃ new, s.plan order c = .ok new ∧ s.submit order c = s.carryOut new := by
  rw [submit]
  cases checkSupported c with
  | error fault => exact .inl ⟨fault, rfl⟩
  | ok =>
    cases s.survey with
    | error fault => exact .inl ⟨fault, rfl⟩
    | ok =>
      cases s.plan order c with
      | error fault => exact .inl ⟨fault, rfl⟩
      | ok new => exact .inr ⟨new, rfl, rfl⟩

/-- A plan is the CRTCs as they are requested, brought to the origin. -/
theorem exists_of_plan (h : s.plan order c = .ok new) :
    ∃ crtcs, updateCrtcs c s.modes order s.crtcs = .ok crtcs ∧
      normalizeOrigin s.modes crtcs = .ok new := by
  rw [plan] at h
  cases hcrtcs : updateCrtcs c s.modes order s.crtcs with
  | error fault =>
    rw [hcrtcs] at h
    cases h
  | ok crtcs =>
    rw [hcrtcs] at h
    exact ⟨crtcs, rfl, h⟩

end Server

section Screen

variable {modes : Table ModeInfo} {outputs : Table Connector} {crtcs new : Table Crtc}
  {fault : HardwareFault}

/-- What a screen cannot hold although it was brought to the origin began there by itself. -/
theorem of_normalizeOrigin_screenSize_error (hn : normalizeOrigin modes crtcs = .ok new)
    (h : screenSize modes outputs new = .error fault) :
    new = crtcs ∧ Begins (enabled new) ⟨0, 0⟩ := by
  rcases normalizeOrigin_cases modes crtcs with ⟨hnil, hsame⟩ | ⟨hbegins, hsame⟩ |
    ⟨p, hp, _, ⟨_, _, _, _, hfault⟩ | ⟨hmoves, hmoved⟩⟩
  · obtain rfl := Except.ok.inj (hsame.symm.trans hn)
    rw [screenSize, hnil] at h
    cases h
  · obtain rfl := Except.ok.inj (hsame.symm.trans hn)
    exact ⟨rfl, hbegins⟩
  · cases hfault.symm.trans hn
  · obtain rfl := Except.ok.inj (hmoved.symm.trans hn)
    obtain ⟨_, hsize⟩ := screenSize_movedAll outputs hp hmoves
    cases hsize.symm.trans h

/-- What a screen cannot hold of a layout that begins at the origin. -/
theorem of_begins_screenSize_error (hbegins : Begins (enabled new) ⟨0, 0⟩)
    (h : screenSize modes outputs new = .error fault) :
    (∃ crtc ∈ enabled new, modes.get? crtc.mode = none ∧
      fault = .garbled (.unknownMode crtc.mode)) ∨
    fault = .unsupported .screenTooLarge ∧
      ∃ crtc ∈ enabled new, 65535 < crtc.right modes ∨ 65535 < crtc.bottom modes := by
  refine (of_screenSize_error h).imp_right ?_
  rintro ⟨hfault, _, p, q, hp, hq, hlarge⟩
  obtain rfl := hp.unique hbegins
  obtain ⟨⟨a, ha, hx⟩, ⟨b, hb, hy⟩⟩ := hq.exists_eq
  refine ⟨hfault, ?_⟩
  rcases hlarge with hlarge | hlarge
  · exact ⟨a, ha, .inl (by rw [hx]; simpa only [Int.sub_zero] using hlarge)⟩
  · exact ⟨b, hb, .inr (by rw [hy]; simpa only [Int.sub_zero] using hlarge)⟩

end Screen

namespace Server

variable {s : Server} {order : List (Nat × Connector)} {c : Configuration}
  {fault : HardwareFault}

/-- In whichever order the outputs are visited, a refused submission leaves a server that fails no
request as it was, unless the layout begins at the origin as it is requested, and a CRTC of it has a
mode that is unknown or reaches further than sixteen bits. Then the CRTCs that change have been
switched off, and nothing else was requested. -/
theorem unchanged_or_late_of_submit_error (hs : s.failing = none)
    (h : (s.submit order c).1 = .error fault) :
    (s.submit order c).2 = s ∨
    ∃ new, updateCrtcs c s.modes order s.crtcs = .ok new ∧
      Begins (enabled new) ⟨0, 0⟩ ∧
      ((∃ crtc ∈ enabled new, s.modes.get? crtc.mode = none ∧
          fault = .garbled (.unknownMode crtc.mode)) ∨
        fault = .unsupported .screenTooLarge ∧
          ∃ crtc ∈ enabled new, 65535 < crtc.right s.modes ∨ 65535 < crtc.bottom s.modes) ∧
      (s.submit order c).2.log = s.log ++ disabling s.crtcs new := by
  rcases submit_cases order c s with ⟨_, hsame⟩ | ⟨new, hplan, hcarry⟩
  · exact .inl (congrArg Prod.snd hsame)
  · rw [hcarry] at h ⊢
    obtain ⟨hsize, hlog⟩ := carryOut_error hs h
    obtain ⟨crtcs, hcrtcs, hn⟩ := exists_of_plan hplan
    obtain ⟨rfl, hbegins⟩ := of_normalizeOrigin_screenSize_error hn hsize
    exact .inr ⟨new, hcrtcs, hbegins, of_begins_screenSize_error hbegins hsize, hlog⟩

end Server

namespace Scenes

/-- A server with two CRTCs that are on, the second one behind the first one and with a very wide
mode. The first output offers a smaller mode than it has. -/
def wide : Server where
  modes := ⟨[(1, ⟨1920, 1080, 148500000, 2200, 1125, 0⟩), (2, ⟨1280, 720, 74250000, 1650, 750, 0⟩),
    (3, ⟨65535, 1080, 148500000, 2200, 1125, 0⟩)], by simp⟩
  outputs := [
    (10, { name := "eDP-1".toUTF8.toList, connected := true, crtc := 20, crtcs := [20],
           modes := [2, 1], size := ⟨0, 0⟩ }),
    (11, { name := "HDMI-1".toUTF8.toList, connected := true, crtc := 21, crtcs := [21],
           modes := [3], size := ⟨0, 0⟩ })]
  crtcs := ⟨[(20, ⟨0, 0, 1, upright, [10]⟩), (21, ⟨1920, 0, 3, upright, [11]⟩)], by simp⟩

/-- The first output is to have its first mode. -/
def smaller : Configuration := ⟨[.plain "eDP-1"]⟩

/-- The smaller mode leaves the layout where it is, at the origin. -/
theorem unchanged_or_late_of_submit_smaller :
    wide.failing = none ∧
    (wide.submit wide.outputs smaller).1 = .error (.unsupported .screenTooLarge) ∧
    ∃ new, updateCrtcs smaller wide.modes wide.outputs wide.crtcs = .ok new ∧
      Begins (enabled new) ⟨0, 0⟩ ∧
      (wide.submit wide.outputs smaller).2.log = wide.log ++ disabling wide.crtcs new := by
  have hfault : (wide.submit wide.outputs smaller).1 = .error (.unsupported .screenTooLarge) := by
    decide +kernel
  have hlog : (wide.submit wide.outputs smaller).2.log ≠ wide.log := by decide +kernel
  rcases Server.unchanged_or_late_of_submit_error rfl hfault with h | ⟨new, hnew, hbegins, _, h⟩
  · exact absurd (congrArg Server.log h) hlog
  · exact ⟨rfl, hfault, new, hnew, hbegins, h⟩

/-- The screen cannot hold the layout, which is found out when a CRTC is off already, whichever of
the two outputs is visited first. -/
theorem submit_smaller_late : smaller.defect? = none ∧ wide.failing = none ∧
    ∀ order ∈ [wide.outputs, wide.outputs.reverse],
      (wide.submit order smaller).1 = .error (.unsupported .screenTooLarge) ∧
      (wide.submit order smaller).2.log = [.setCrtc 20 .off] := by
  decide +kernel

end Scenes

end Displays.Randr
