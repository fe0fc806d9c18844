import Displays.Proofs.Drafts

/-!
# Reports behind each other

Outputs that are read stay as they are, and a header completes the output before it whatever state
that one is in. So a report behind a report adds its outputs to those of the first, or fails as it
would alone; and the first faulty line of both decides the fault.
-/

namespace Displays.Xrandr

open Displays.Text

/-- The text begins with the header of an output. -/
def Opens (s : List Char) : Prop :=
  (lines s).head?.any (fun line => (header? line).isSome) = true

instance (s : List Char) : Decidable (Opens s) :=
  inferInstanceAs (Decidable (_ = _))

/-- A text that begins with a header has a first line, and this is one. -/
theorem Opens.exists_lines {s : List Char} (h : Opens s) :
    ∃ line rest header, lines s = line :: rest ∧ header? line = some header := by
  rw [Opens] at h
  cases hlines : lines s with
  | nil =>
    rw [hlines] at h
    cases h
  | cons line rest =>
    rw [hlines] at h
    obtain ⟨header, hheader⟩ := Option.isSome_iff_exists.mp h
    exact ⟨line, rest, header, rfl, hheader⟩

namespace Reader

variable {r : Reader} {line : List Char} {outputs : List Output}

/-- The reader that has read these outputs before. -/
def after (outputs : List Output) (r : Reader) : Reader :=
  { r with outputs := outputs ++ r.outputs }

private theorem finish_after (outputs : List Output) (r : Reader) :
    (r.after outputs).finish = r.finish.map (outputs ++ ·) := by
  rw [finish, finish]
  cases hd : r.draft with
  | none =>
    simp only [after, hd]
    rfl
  | some d =>
    simp only [after, hd]
    cases d.finish with
    | error g => rfl
    | ok o => exact congrArg Except.ok (List.append_assoc outputs r.outputs [o])

/-- A line is read alike whatever outputs were read before. -/
theorem readLine_after (outputs : List Output) (r : Reader) (line : List Char) :
    (r.after outputs).readLine line = (r.readLine line).map (after outputs) := by
  cases hline : header? line with
  | some header =>
    simp only [readLine, hline, finish_after]
    cases Draft.ofHeader header with
    | error g => rfl
    | ok d => cases r.finish <;> rfl
  | none =>
    obtain ⟨read, draft⟩ := r
    cases draft with
    | none =>
      simp only [readLine, hline, after]
      rfl
    | some d =>
      simp only [readLine, hline, after]
      cases d.readLine line <;> rfl

/-- Outputs that were read before do not concern the lines behind them. -/
theorem foldlM_after (outputs : List Output) (r : Reader) (ls : List (List Char)) :
    ls.foldlM readLine (r.after outputs) = (ls.foldlM readLine r).map (after outputs) := by
  induction ls generalizing r with
  | nil => rfl
  | cons l ls ih =>
    rw [List.foldlM_cons, List.foldlM_cons, readLine_after]
    cases r.readLine l with
    | error g => rfl
    | ok r' => exact ih r'

/-- A header completes the output before it and is read as if it were the first line. -/
theorem readLine_of_header {header : Header} (hline : header? line = some header)
    (h : r.finish = .ok outputs) :
    r.readLine line = (readLine {} line).map (after outputs) := by
  simp only [readLine, hline, h]
  cases Draft.ofHeader header with
  | error g => rfl
  | ok d =>
    exact congrArg (fun l => Except.ok (⟨l, some d⟩ : Reader)) (List.append_nil outputs).symm

/-- Lines that begin with a header are read as if they were the first ones. -/
theorem foldlM_of_header {header : Header} (hline : header? line = some header)
    (h : r.finish = .ok outputs) (ls : List (List Char)) :
    (line :: ls).foldlM readLine r = ((line :: ls).foldlM readLine {}).map (after outputs) := by
  rw [List.foldlM_cons, List.foldlM_cons, readLine_of_header hline h]
  cases readLine {} line with
  | error g => rfl
  | ok r' => exact foldlM_after outputs r' ls

end Reader

/-- Lines that begin with a header add their outputs to those of the lines before. -/
theorem readLines_append {header : Header} {line : List Char} (hline : header? line = some header)
    (ls rest : List (List Char)) :
    readLines (ls ++ line :: rest) = do
      let outputs ← readLines ls
      let more ← readLines (line :: rest)
      return outputs ++ more := by
  simp only [readLines, List.foldlM_append]
  cases hls : ls.foldlM Reader.readLine {} with
  | error g => rfl
  | ok r =>
    obtain ⟨outputs, houtputs⟩ := (Reader.coded_foldlM Reader.coded_start hls).exists_finish
    change ((line :: rest).foldlM Reader.readLine r >>= Reader.finish) =
      (r.finish >>= fun outputs => do
        let more ← (line :: rest).foldlM Reader.readLine {} >>= Reader.finish
        return outputs ++ more)
    rw [Reader.foldlM_of_header hline houtputs, houtputs]
    cases (line :: rest).foldlM Reader.readLine {} with
    | error g => rfl
    | ok r' =>
      change (r'.after outputs).finish = (r'.finish >>= fun more => return outputs ++ more)
      rw [Reader.finish_after]
      cases r'.finish <;> rfl

/-- A report behind another one, which ends with its last line, adds its outputs; the first fault
of both is the fault of the whole. -/
theorem read_append {s t : List Char} (hs : Ended s) (ht : Opens t) :
    read (s ++ t) = do
      let c ← read s
      let d ← read t
      return ⟨c.outputs ++ d.outputs⟩ := by
  obtain ⟨line, rest, header, hlines, hline⟩ := ht.exists_lines
  have hread := readLines_append hline (lines s) rest
  rw [read, read, read, lines_append hs, hlines, hread]
  cases readLines (lines s) with
  | error g => rfl
  | ok outputs => cases readLines (line :: rest) <;> rfl

/-- Neither an EDID nor a mode that breaks off reaches over into the next report. -/
theorem read_append_cut :
    let s := "DP-1 connected (normal)\n  64x48 (0x1) 1.0MHz\n h: width 64 \n\tEDID: \n".toList
    let t := "VGA-1 disconnected (normal)\n v: height 48 clock 1.00Hz\n".toList
    Ended s ∧ Opens t ∧ read (s ++ t) = do
      let c ← read s
      let d ← read t
      return ⟨c.outputs ++ d.outputs⟩ := by
  intro s t
  have hs : Ended s := by decide +kernel
  have ht : Opens t := by decide +kernel
  exact ⟨hs, ht, read_append hs ht⟩

end Displays.Xrandr
