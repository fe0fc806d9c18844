import Displays.Hardware.Held
import Displays.Proofs.Revision

/-!
# Judging requests

A request is judged on the whole configuration, with everything that the hardware reported of the
other outputs. Where nothing is wrong with a connected output before or after the request, what is
left to be wrong is an output that is not connected: one that is still used, say, though it was
unplugged. The request is refused exactly if there is such an output, and for its sake.
-/

namespace Displays

namespace Configuration

/-- The outputs that are not connected. -/
def unplugged (c : Configuration) : Configuration :=
  ⟨c.outputs.filter fun o => !o.connected⟩

/-- A configuration of one output is as defective as the output. -/
theorem defect?_singleton (o : Output) : (⟨[o]⟩ : Configuration).defect? = o.defect? := by
  simp only [defect?, List.findSome?_cons, List.findSome?_nil]
  cases o.defect? <;> rfl

/-- If nothing is wrong with a connected output, what is wrong is wrong with the others. -/
theorem defect?_eq_unplugged {c : Configuration}
    (h : ∀ o ∈ c.outputs, o.connected = true → o.defect? = none) :
    c.defect? = c.unplugged.defect? := by
  obtain ⟨l⟩ := c
  simp only [defect?, unplugged]
  induction l with
  | nil => rfl
  | cons o l ih =>
    have hrest := ih fun p hp => h p (List.mem_cons_of_mem o hp)
    cases hc : o.connected with
    | true =>
      rw [List.findSome?_cons, h o List.mem_cons_self hc, hrest, List.filter_cons_of_neg]
      simp only [hc, Bool.not_true, Bool.false_eq_true, not_false_eq_true]
    | false =>
      rw [List.findSome?_cons, hrest, List.filter_cons_of_pos, List.findSome?_cons]
      simp only [hc, Bool.not_false]

/-- If nothing is wrong with a connected output, before or after it is changed, what is wrong then
is wrong with the outputs that are not connected. -/
theorem defect?_modify {c : Configuration} {id : OutputId} {f : Output → Output} {o : Output}
    (h : ∀ o ∈ c.outputs, o.connected = true → o.defect? = none) (ho : c.output? id = some o)
    (hc : o.connected = true) (hf : (f o).connected = true) (hfo : (f o).defect? = none) :
    (c.modify id f).defect? = c.unplugged.defect? := by
  obtain ⟨before, after, houtputs, hmodify⟩ := modify_split ho
  have hsame : (c.modify id f).unplugged = c.unplugged := by
    simp only [unplugged, hmodify, houtputs, List.filter_append, List.filter_cons, hc, hf,
      Bool.not_true, Bool.false_eq_true, ite_false]
  rw [← hsame]
  refine defect?_eq_unplugged fun p hp hpc => ?_
  rw [hmodify, List.mem_append, List.mem_cons] at hp
  rcases hp with hp | rfl | hp
  · exact h p (houtputs ▸ List.mem_append_left _ hp) hpc
  · exact hfo
  · exact h p (houtputs ▸ List.mem_append_right _ (List.mem_cons_of_mem o hp)) hpc

end Configuration

namespace Guarded

variable {H : Type} [Hardware H] {h h' : H} {c : Configuration} {id : OutputId} {o : Output}
  {s : Settings}

/-- A request to a connected output is a submission of what was read with the settings. -/
theorem request_eq_submit (hread : Hardware.read h = (.ok c, h')) (ho : c.output? id = some o)
    (hc : o.connected = true) :
    request id s h = submit (c.modify id s.apply) h' := by
  simp only [request, requestAll, read, hread, Configuration.requestAll, Configuration.request, ho,
    hc, ite_true]

/-- If each connected output is valid by itself, and so is the output of the request with its new
settings, the request is not invalid unless an output that is not connected is; in that case the
request fails with the defect of the first such output, and nothing is submitted. -/
theorem request_judged_by_unplugged (hread : Hardware.read h = (.ok c, h'))
    (hvalid : ∀ p ∈ c.outputs, p.connected = true → (⟨[p]⟩ : Configuration).defect? = none)
    (ho : c.output? id = some o) (hc : o.connected = true)
    (hpatched : (⟨[s.apply o]⟩ : Configuration).defect? = none) :
    ((∀ p ∈ c.outputs, p.connected = false → (⟨[p]⟩ : Configuration).defect? = none) →
      ∀ defect, (request id s h).1 ≠ .error (.invalid defect)) ∧
    ∀ defect, c.unplugged.defect? = some defect →
      request id s h = (.error (.invalid defect), h') := by
  simp only [Configuration.defect?_singleton] at hvalid hpatched ⊢
  have hdefect : (c.modify id s.apply).defect? = c.unplugged.defect? :=
    Configuration.defect?_modify hvalid ho hc hc hpatched
  rw [request_eq_submit hread ho hc]
  constructor
  · intro hunplugged defect
    have hnone : c.unplugged.defect? = none := by
      refine List.findSome?_eq_none_iff.mpr fun p hp => ?_
      obtain ⟨hp, hpc⟩ := List.mem_filter.mp hp
      exact hunplugged p hp (by simpa only [Bool.not_eq_true'] using hpc)
    rcases submit_cases (c.modify id s.apply) h' with ⟨d, hd, _⟩ | ⟨_, _, h⟩ | ⟨_, _, _, h⟩
    · rw [hdefect, hnone] at hd
      exact absurd hd (by simp only [reduceCtorEq, not_false_eq_true])
    · simp only [h, ne_eq, reduceCtorEq, not_false_eq_true]
    · simp only [h, ne_eq, Except.error.injEq, reduceCtorEq, not_false_eq_true]
  · intro defect hd
    simp only [submit, hdefect, hd]

/-- Of an output that is not connected, the mode index is judged if it offers modes. -/
theorem request_judged_by_unplugged_index :
    let s : Settings := { (Output.plain "eDP-1").settings with scale := 2 }
    let idle : Output := { Output.plain "HDMI-1" with connected := false, used := false }
    let off : Held := { configuration := ⟨[.plain "eDP-1", idle]⟩ }
    let stale : Held := { configuration := ⟨[.plain "eDP-1", { idle with modeIndex := 1 }]⟩ }
    (∀ defect, (request "eDP-1" s off).1 ≠ .error (.invalid defect)) ∧
    request "eDP-1" s stale = (.error (.invalid (.modeIndex "HDMI-1" 1 1)), stale) := by
  intro s idle off stale
  have hvalid : ∀ unplugged : Output, unplugged.connected = false →
      ∀ p ∈ [.plain "eDP-1", unplugged], p.connected = true →
        (⟨[p]⟩ : Configuration).defect? = none := by
    intro unplugged hu p hp hpc
    rcases List.mem_pair.mp hp with rfl | rfl
    · decide +kernel
    · exact absurd hpc (by simp only [hu, Bool.false_eq_true, not_false_eq_true])
  have hpatched : (⟨[s.apply (.plain "eDP-1")]⟩ : Configuration).defect? = none := by
    decide +kernel
  constructor
  · refine (request_judged_by_unplugged (h := off) rfl (hvalid idle rfl) rfl rfl hpatched).1 ?_
    intro p hp _
    rcases List.mem_pair.mp hp with rfl | rfl <;> decide +kernel
  · exact (request_judged_by_unplugged (h := stale) rfl
      (hvalid { idle with modeIndex := 1 } rfl) rfl rfl hpatched).2 _ (by decide +kernel)

/-- A request that is valid by itself is refused because another output is unplugged but still
used, and where a name repeats, because the first output with the name has fewer modes. -/
theorem request_refused_by_others :
    let panel := Output.plain "eDP-1"
    let scaled : Settings := { panel.settings with scale := 2 }
    let unplugged : Output := { Output.plain "HDMI-1" with connected := false }
    let twin : Output := { panel with modes := panel.modes ++ panel.modes }
    let second : Settings := { panel.settings with modeIndex := 1 }
    ((⟨[panel]⟩ : Configuration).defect? = none ∧
      (⟨[scaled.apply panel]⟩ : Configuration).defect? = none ∧
      (request "eDP-1" scaled ({ configuration := ⟨[panel, unplugged]⟩ } : Held)).1 =
        .error (.invalid (.disconnected "HDMI-1"))) ∧
    ((⟨[twin]⟩ : Configuration).defect? = none ∧
      (⟨[second.apply twin]⟩ : Configuration).defect? = none ∧
      (request "eDP-1" second ({ configuration := ⟨[panel, twin]⟩ } : Held)).1 =
        .error (.invalid (.modeIndex "eDP-1" 1 1))) := by
  decide +kernel

end Guarded

end Displays
