import Displays.Hardware.Held

/-!
# Hardware that holds one configuration

Reading such hardware answers the configuration that it holds, if it answers; an accepted submission
replaces that configuration, and a refused one leaves it. Which submissions are accepted is left
open. A log does not change what is held.
-/

namespace Displays

/-- Hardware that holds one configuration. -/
class Holding (H : Type) [Hardware H] where
  /-- The configuration. -/
  held : H → Configuration
  /-- What is read is what is held. -/
  eq_held : ∀ h c, (Hardware.read h).1 = .ok c → c = held h
  /-- A reading leaves what is held. -/
  held_read : ∀ h, held (Hardware.read h).2 = held h
  /-- An accepted submission is held from then on. -/
  held_accepted : ∀ c h, (Hardware.submit c h).1 = .ok () → held (Hardware.submit c h).2 = c
  /-- A refused submission leaves what is held. -/
  held_refused : ∀ c h fault, (Hardware.submit c h).1 = .error fault →
    held (Hardware.submit c h).2 = held h

/-- Hardware that can always be read. -/
class Readable (H : Type) [Hardware H] : Prop where
  /-- A reading succeeds. -/
  readable : ∀ h : H, ∃ c, (Hardware.read h).1 = .ok c

/-- Reading answers what is held. -/
theorem read_held {H : Type} [Hardware H] [Holding H] [Readable H] (h : H) :
    (Hardware.read h).1 = .ok (Holding.held h) := by
  obtain ⟨c, hc⟩ := Readable.readable h
  rw [hc, Holding.eq_held h c hc]

namespace Held

private theorem configuration_read (h : Held) : h.read.2.configuration = h.configuration := by
  unfold read
  split <;> rfl

private theorem eq_of_read {h : Held} {c : Configuration} (hr : h.read.1 = .ok c) :
    c = h.configuration := by
  unfold read at hr
  split at hr
  · exact (Except.ok.inj hr).symm
  · exact (Except.ok.inj hr).symm
  · simp only [reduceCtorEq] at hr

/-- Hardware that is available answers the configuration it has. -/
theorem read_of_available {h : Held} (ha : h.unavailable = none) :
    h.read.1 = .ok h.configuration := by
  simp only [read, ha]

private theorem unavailable_read {h : Held} (ha : h.unavailable = none) :
    h.read.2.unavailable = h.unavailable := by
  simp only [read, ha]

/-- A submission is accepted and held, or refused and dropped. The availability stays. -/
theorem submit_cases (c : Configuration) (h : Held) :
    ((h.submit c).1 = .ok () ∧ (h.submit c).2.configuration = c ∨
      (∃ fault, (h.submit c).1 = .error fault) ∧
        (h.submit c).2.configuration = h.configuration) ∧
    (h.submit c).2.unavailable = h.unavailable := by
  unfold submit
  cases h.backend.elim (.ok ()) fun b => b.check c with
  | error fault => exact ⟨.inr ⟨⟨fault, rfl⟩, rfl⟩, rfl⟩
  | ok u =>
    dsimp only [accept]
    split
    · exact ⟨.inl ⟨rfl, rfl⟩, rfl⟩
    · split
      · exact ⟨.inl ⟨rfl, rfl⟩, rfl⟩
      · exact ⟨.inr ⟨⟨_, rfl⟩, rfl⟩, rfl⟩
      · exact ⟨.inl ⟨rfl, rfl⟩, rfl⟩
      · exact ⟨.inr ⟨⟨_, rfl⟩, rfl⟩, rfl⟩

private theorem configuration_of_accepted {c : Configuration} {h : Held}
    (ha : (h.submit c).1 = .ok ()) :
    (h.submit c).2.configuration = c := by
  rcases (submit_cases c h).1 with ⟨_, hc⟩ | ⟨⟨fault, hf⟩, _⟩
  · exact hc
  · rw [hf] at ha
    simp only [reduceCtorEq] at ha

private theorem configuration_of_refused {c : Configuration} {h : Held} {fault : HardwareFault}
    (hr : (h.submit c).1 = .error fault) : (h.submit c).2.configuration = h.configuration := by
  rcases (submit_cases c h).1 with ⟨ha, _⟩ | ⟨_, hc⟩
  · rw [ha] at hr
    simp only [reduceCtorEq] at hr
  · exact hc

instance : Holding Held where
  held := configuration
  eq_held _ _ := eq_of_read
  held_read := configuration_read
  held_accepted _ _ := configuration_of_accepted
  held_refused _ _ _ := configuration_of_refused

end Held

/-- Hardware that is never unavailable. -/
abbrev Plugged := { h : Held // h.unavailable = none }

namespace Plugged

instance : Hardware Plugged where
  read h := (h.1.read.1, ⟨h.1.read.2, (Held.unavailable_read h.2).trans h.2⟩)
  submit c h := ((h.1.submit c).1, ⟨(h.1.submit c).2, (Held.submit_cases c h.1).2.trans h.2⟩)

instance : Holding Plugged where
  held h := h.1.configuration
  eq_held _ _ := Held.eq_of_read
  held_read h := Held.configuration_read h.1
  held_accepted _ _ := Held.configuration_of_accepted
  held_refused _ _ _ := Held.configuration_of_refused

instance : Readable Plugged where
  readable h := ⟨h.1.configuration, Held.read_of_available h.2⟩

end Plugged

namespace Recorded

variable {H : Type} [Hardware H]

instance [Holding H] : Holding (Recorded H) where
  held r := Holding.held r.hardware
  eq_held r c hr := Holding.eq_held r.hardware c hr
  held_read r := Holding.held_read r.hardware
  held_accepted c r ha := Holding.held_accepted c r.hardware ha
  held_refused c r fault hr := Holding.held_refused c r.hardware fault hr

instance [Readable H] : Readable (Recorded H) where
  readable r := Readable.readable r.hardware

end Recorded

end Displays
