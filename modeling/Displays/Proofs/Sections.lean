import Displays.Proofs.Composition

/-!
# Sections without a header

A section may begin with a line that is not recognised as a header, such as that of an output whose
state is not known. Its title ends an EDID and says nothing else, and the lines below it are read as
lines of the output before the section. So such a section changes no other output, nor that one in
what its header says; and it changes nothing at all if its lines say nothing.
-/

namespace Displays.Xrandr

open Displays.Text

/-- The text is a section of whole lines, the first of which stands out and is no header. -/
structure Foreign (s : List Char) : Prop where
  /-- All lines are ended. -/
  ended : Ended s
  /-- The section has a title. -/
  ne_nil : lines s ≠ []
  /-- The title is not indented. -/
  title_outdented : (lines s).head?.any (fun line => line.head?.any (!isBlank ·)) = true
  /-- The title is no header. -/
  header?_title : ∀ title ∈ (lines s).head?, header? title = none
  /-- The other lines are indented. -/
  body_indented : ∀ line ∈ (lines s).tail, line.head?.any isBlank = true

/-- The line tells nothing about an output. -/
structure Silent (line : List Char) : Prop where
  /-- The line opens no EDID. -/
  isEdidStart_eq : isEdidStart line = false
  /-- The line has no transformation. -/
  transform?_eq : transform? line = none
  /-- The line opens no mode. -/
  mode?_eq : mode? line = none
  /-- The line has no horizontal timing. -/
  width?_eq : width? line = none
  /-- The line has no vertical timing. -/
  height?_eq : height? line = none

/-- One output is the other with what lines below a header may add. -/
structure Adds (o' o : Output) : Prop where
  /-- What the header says stays. -/
  output_eq : o' = { o with
    modes := o'.modes, modeIndex := o'.modeIndex, scale := o'.scale, edid := o'.edid }
  /-- Modes are added behind those that are known. -/
  modes_prefix : o.modes <+: o'.modes

variable {line title : List Char} {body : List (List Char)} {s t u : List Char}

/-- A line that is not indented tells nothing about an output. -/
theorem silent_of_stops (h : Stops isBlank line) : Silent line where
  isEdidStart_eq := by rw [isEdidStart, blanks?_of_stops h]; rfl
  transform?_eq := by rw [transform?, blanks?_of_stops h]; rfl
  mode?_eq := by rw [mode?, blanks?_of_stops h]; rfl
  width?_eq := by rw [width?, blanks?_of_stops h]; rfl
  height?_eq := by rw [height?, blanks?_of_stops h]; rfl

namespace Draft

variable {d e : Draft}

private theorem readOther_of_silent (h : Silent line) (d : Draft) : d.readOther line = .ok d := by
  simp only [readOther, h.isEdidStart_eq, h.transform?_eq, h.mode?_eq, h.width?_eq, h.height?_eq,
    Bool.false_eq_true, ite_false]

/-- A line that is not indented ends an EDID and does nothing else. -/
theorem readLine_of_stops (h : Stops isBlank line) (d : Draft) :
    d.readLine line = .ok { d with inEdid := false } := by
  have hdata : edidData? line = none := by rw [edidData?, blanks?_of_stops h]; rfl
  have hother := readOther_of_silent (silent_of_stops h) { d with inEdid := false }
  exact (readLine_of_edidData?_eq_none (d := d) hdata d.inEdid).trans hother

/-- Lines that tell nothing change no output. -/
theorem foldlM_of_silent (h : ∀ line ∈ body, Silent line) (hd : d.inEdid = false) :
    body.foldlM readLine d = .ok d := by
  induction body with
  | nil => rfl
  | cons l ls ih =>
    obtain ⟨hl, hls⟩ := List.forall_mem_cons.mp h
    have hread : d.readLine l = .ok d := by
      rw [readLine, hd, if_neg Bool.false_ne_true, readOther_of_silent hl]
    rw [List.foldlM_cons, hread]
    exact ih hls

/-- What is completed later has more modes, and is the same in what the header says. -/
theorem adds_finish {o o' : Output} (hd : d.Coded) (h : e.Extends d) (ho : d.finish = .ok o)
    (ho' : e.finish = .ok o') : Adds o' o := by
  obtain ⟨bytes', _, hhex'⟩ := hd.of_extends h
  obtain ⟨bytes, _, hhex⟩ := hd
  rw [finish_of_hex_eq hhex] at ho
  rw [finish_of_hex_eq hhex'] at ho'
  obtain rfl := Except.ok.inj ho
  obtain rfl := Except.ok.inj ho'
  refine ⟨?_, h.modes_prefix⟩
  rw [h.output_eq]

end Draft

namespace Reader

variable {r r' : Reader} {outputs outputs' : List Output}

/-- Lines that are no headers change nothing if there is no output to which they may belong. -/
theorem foldlM_of_draft_eq_none (h : ∀ line ∈ body, header? line = none) (outputs : List Output) :
    body.foldlM readLine ⟨outputs, none⟩ = .ok ⟨outputs, none⟩ := by
  induction body with
  | nil => rfl
  | cons l ls ih =>
    obtain ⟨hl, hls⟩ := List.forall_mem_cons.mp h
    rw [List.foldlM_cons, readLine, hl]
    exact ih hls

/-- A section without a header either leaves all outputs or adds to the last one. -/
theorem finish_section (hr : r.Coded) (hheader : ∀ line ∈ title :: body, header? line = none)
    (hr' : (title :: body).foldlM readLine r = .ok r') (h : r.finish = .ok outputs)
    (h' : r'.finish = .ok outputs') :
    outputs' = outputs ∨ ∃ own o o', outputs = own ++ [o] ∧ outputs' = own ++ [o'] ∧ Adds o' o := by
  obtain ⟨own, draft⟩ := r
  cases draft with
  | none =>
    rw [foldlM_of_draft_eq_none hheader] at hr'
    obtain rfl := Except.ok.inj hr'
    exact .inl (Except.ok.inj (h'.symm.trans h))
  | some d =>
    rw [foldlM_readLine hheader] at hr'
    cases he : (title :: body).foldlM Draft.readLine d with
    | error g =>
      rw [he] at hr'
      cases hr'
    | ok e =>
      rw [he] at hr'
      obtain rfl := Except.ok.inj hr'
      obtain ⟨o, ho, h⟩ := exists_of_bind_eq_ok h
      obtain ⟨o', ho', h'⟩ := exists_of_bind_eq_ok h'
      have hadds := Draft.adds_finish (hr d rfl) (Draft.extends_foldlM he) ho ho'
      exact .inr ⟨own, o, o', (Except.ok.inj h).symm, (Except.ok.inj h').symm, hadds⟩

/-- A section that tells nothing leaves what there is to complete. -/
theorem finish_silent (htitle : Stops isBlank title)
    (hheader : ∀ line ∈ title :: body, header? line = none) (hbody : ∀ line ∈ body, Silent line)
    (r : Reader) : (title :: body).foldlM readLine r >>= finish = r.finish := by
  obtain ⟨outputs, draft⟩ := r
  cases draft with
  | none =>
    rw [foldlM_of_draft_eq_none hheader]
    rfl
  | some d =>
    have hdraft : (title :: body).foldlM Draft.readLine d = .ok { d with inEdid := false } := by
      rw [List.foldlM_cons, Draft.readLine_of_stops htitle]
      exact Draft.foldlM_of_silent hbody rfl
    rw [foldlM_readLine hheader, hdraft]
    rfl

end Reader

/-- The lines of a section are its title and indented lines. -/
theorem Foreign.exists_lines (h : Foreign t) :
    ∃ title body, lines t = title :: body ∧ Stops isBlank title ∧
      ∀ line ∈ title :: body, header? line = none := by
  obtain ⟨title, body, hlines⟩ := List.exists_cons_of_ne_nil h.ne_nil
  have houtdented := h.title_outdented
  have hheader := h.header?_title
  have hindented := h.body_indented
  rw [hlines] at houtdented hheader hindented
  refine ⟨title, body, hlines, ?_, List.forall_mem_cons.mpr
    ⟨hheader title rfl, fun line hl => header?_eq_none (hindented line hl)⟩⟩
  cases title with
  | nil => rfl
  | cons c title => exact (Bool.not_eq_true' _).mp houtdented

/-- The lines of a text with a section in it are those of its parts. -/
theorem lines_section (hs : Ended s) (ht : Foreign t) (u : List Char) :
    lines (s ++ t ++ u) = lines s ++ lines t ++ lines u := by
  rw [List.append_assoc, lines_append hs, lines_append ht.ended, List.append_assoc]

/-- A section of which no line tells anything changes nothing. -/
theorem readLines_silent (htitle : Stops isBlank title)
    (hheader : ∀ line ∈ title :: body, header? line = none) (hbody : ∀ line ∈ body, Silent line)
    (ls : List (List Char)) : readLines (ls ++ title :: body) = readLines ls := by
  simp only [readLines, List.foldlM_append]
  cases ls.foldlM Reader.readLine {} with
  | error g => rfl
  | ok r => exact Reader.finish_silent htitle hheader hbody r

/-- A section changes at most the last output before it, and that one by what lines below a header
may add. -/
theorem readLines_section {ls : List (List Char)} {outputs outputs' : List Output}
    (hheader : ∀ line ∈ title :: body, header? line = none) (h : readLines ls = .ok outputs)
    (h' : readLines (ls ++ title :: body) = .ok outputs') :
    outputs' = outputs ∨ ∃ own o o', outputs = own ++ [o] ∧ outputs' = own ++ [o'] ∧ Adds o' o := by
  obtain ⟨r, hr, hfinish⟩ := exists_of_bind_eq_ok h
  obtain ⟨r', hr', hfinish'⟩ := exists_of_bind_eq_ok h'
  rw [List.foldlM_append, hr] at hr'
  exact Reader.finish_section (Reader.coded_foldlM Reader.coded_start hr) hheader hr' hfinish
    hfinish'

/-- What stands behind some lines, if it begins with a header, is read apart from them. -/
theorem readLines_append_lines (hu : u = [] ∨ Opens u) (ls : List (List Char)) :
    readLines (ls ++ lines u) = do
      let outputs ← readLines ls
      let more ← readLines (lines u)
      return outputs ++ more := by
  rcases hu with rfl | hu
  · rw [lines_nil, List.append_nil]
    cases readLines ls with
    | error g => rfl
    | ok outputs => exact congrArg Except.ok (List.append_nil outputs).symm
  · obtain ⟨line, rest, header, hlines, hline⟩ := hu.exists_lines
    rw [hlines, readLines_append hline]

/-- What is read of a text is what is read of its lines. -/
theorem read_eq_ok_iff {c : Configuration} :
    read s = .ok c ↔ readLines (lines s) = .ok c.outputs := by
  rw [read]
  cases readLines (lines s) with
  | error g => simp only [reduceCtorEq]
  | ok outputs =>
    simp only [Except.ok.injEq]
    exact ⟨fun h => by rw [← h], fun h => by rw [h]⟩

/-- A report with a section that has no header reads as without it where the section tells nothing.
Otherwise the two readings differ in the last output before the section at most, and there in the
modes, which begin alike, the current one of them, the scale and the EDID. -/
theorem read_section (hs : Ended s) (ht : Foreign t) (hu : u = [] ∨ Opens u) :
    ((∀ line ∈ (lines t).tail, Silent line) → read (s ++ t ++ u) = read (s ++ u)) ∧
    ∀ c c', read (s ++ u) = .ok c → read (s ++ t ++ u) = .ok c' →
      c' = c ∨ ∃ own o o' rest, read s = .ok ⟨own ++ [o]⟩ ∧ c = ⟨own ++ o :: rest⟩ ∧
        c' = ⟨own ++ o' :: rest⟩ ∧ Adds o' o := by
  obtain ⟨title, body, hlines, htitle, hheader⟩ := ht.exists_lines
  have hwith := readLines_append_lines hu (lines s ++ title :: body)
  have hwithout := readLines_append_lines hu (lines s)
  rw [← hlines, ← lines_section hs ht] at hwith
  rw [← lines_append hs] at hwithout
  refine ⟨fun hsilent => ?_, fun c c' hc hc' => ?_⟩
  · rw [hlines] at hsilent
    rw [read, read, hwith, hwithout, hlines, readLines_silent htitle hheader hsilent]
  · rw [read_eq_ok_iff, hwithout] at hc
    rw [read_eq_ok_iff, hwith, hlines] at hc'
    obtain ⟨outputs, houtputs, hc⟩ := exists_of_bind_eq_ok hc
    obtain ⟨rest, hrest, hc⟩ := exists_of_bind_eq_ok hc
    obtain ⟨outputs', houtputs', hc'⟩ := exists_of_bind_eq_ok hc'
    rw [hrest] at hc'
    have hc := Except.ok.inj hc
    have hc' := Except.ok.inj hc'
    rcases readLines_section hheader houtputs houtputs' with
      rfl | ⟨own, o, o', rfl, rfl, hadds⟩
    · exact .inl (congrArg Configuration.mk (hc'.symm.trans hc))
    · refine .inr ⟨own, o, o', rest, read_eq_ok_iff.mpr houtputs, ?_, ?_, hadds⟩
      · rw [List.append_assoc, List.singleton_append] at hc
        exact congrArg Configuration.mk hc.symm
      · rw [List.append_assoc, List.singleton_append] at hc'
        exact congrArg Configuration.mk hc'.symm

namespace Scenes

/-- The report about an output in its only mode. -/
def plugged : List Char :=
  unlines ["DP-1 connected 1920x1080+0+0 (normal)".toList,
    "  1920x1080 (0x49) 148.500MHz *current".toList,
    "        h: width  1920 start 2008".toList,
    "        v: height 1080 start 1084 clock  60.00Hz".toList]

/-- The report about an output of which it is not known whether it is connected. -/
def unknown : List Char :=
  unlines ["VGA-1 unknown connection (normal)".toList,
    "  1024x768 (0x4c) 65.000MHz *current".toList,
    "        h: width  1024 start 1048".toList,
    "        v: height  768 start  771 clock  60.00Hz".toList]

/-- The report about an output that is not connected. -/
def unplugged : List Char :=
  unlines ["HDMI-1 disconnected (normal)".toList]

/-- The report about the output of unknown state is a section without a header. -/
theorem foreign_unknown : Foreign unknown where
  ended := by decide +kernel
  ne_nil := by decide +kernel
  title_outdented := by decide +kernel
  header?_title := by decide +kernel
  body_indented := by decide +kernel

/-- The modes of the outputs of a report, each with the index of the current one. -/
def modes (s : List Char) : Except HardwareFault (List (List Mode × Nat)) := do
  let c ← read s
  return c.outputs.map fun o => (o.modes, o.modeIndex)

/-- Without the section, the output before it has its one mode. -/
theorem modes_without :
    modes (plugged ++ unplugged) = .ok [([⟨⟨1920, 1080⟩, 60000⟩], 0), ([], 0)] := by
  decide +kernel

/-- With the section, the output before it has the mode of the section as its current one. -/
theorem modes_with :
    modes (plugged ++ unknown ++ unplugged) =
      .ok [([⟨⟨1920, 1080⟩, 60000⟩, ⟨⟨1024, 768⟩, 60000⟩], 1), ([], 0)] := by
  decide +kernel

/-- The output before a section of unknown state gets the section's mode, and as its current one. -/
theorem section_leaks :
    Ended plugged ∧ Foreign unknown ∧ Opens unplugged ∧
      modes (plugged ++ unplugged) = .ok [([⟨⟨1920, 1080⟩, 60000⟩], 0), ([], 0)] ∧
      modes (plugged ++ unknown ++ unplugged) =
        .ok [([⟨⟨1920, 1080⟩, 60000⟩, ⟨⟨1024, 768⟩, 60000⟩], 1), ([], 0)] :=
  ⟨by decide +kernel, foreign_unknown, by decide +kernel, modes_without, modes_with⟩

/-- The section of unknown state changes the output before it, and no other one. -/
theorem read_section_unknown :
    ∃ c c', read (plugged ++ unplugged) = .ok c ∧ read (plugged ++ unknown ++ unplugged) = .ok c' ∧
      ∃ own o o' rest, read plugged = .ok ⟨own ++ [o]⟩ ∧ c = ⟨own ++ o :: rest⟩ ∧
        c' = ⟨own ++ o' :: rest⟩ ∧ Adds o' o ∧ o' ≠ o := by
  obtain ⟨c, hc, hmodes⟩ := exists_of_bind_eq_ok modes_without
  obtain ⟨c', hc', hmodes'⟩ := exists_of_bind_eq_ok modes_with
  have hne : c' ≠ c := by
    rintro rfl
    have heq := Except.ok.inj (hmodes'.symm.trans hmodes)
    revert heq
    decide
  have hsection := read_section (s := plugged) (by decide +kernel) foreign_unknown
    (.inr (by decide +kernel : Opens unplugged))
  refine ⟨c, c', hc, hc', ?_⟩
  rcases hsection.2 c c' hc hc' with heq | ⟨own, o, o', rest, hown, hcown, hcown', hadds⟩
  · exact absurd heq hne
  · refine ⟨own, o, o', rest, hown, hcown, hcown', hadds, ?_⟩
    rintro rfl
    exact hne (hcown'.trans hcown.symm)

end Scenes

end Displays.Xrandr
