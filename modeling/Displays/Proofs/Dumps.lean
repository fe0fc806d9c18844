import Mathlib.Data.List.Forall2
import Displays.Proofs.Sections

/-!
# EDIDs in reports

A report is read output by output, from a header line to the next one. The EDID of an output has the
octets of all lines of octets that stand directly behind a line that opens an EDID, however often
one is opened below the header. Each of these lines has whole octets, so the digits that are
collected can always be read, and the only fault of a report is a number out of range.
-/

namespace Displays.Xrandr

open Displays.Text

/-! ## Sections -/

/-- The line is no header, so it belongs to the header above it. -/
def isBelow (line : List Char) : Bool :=
  (header? line).isNone

/-- The lines about an output. -/
structure Section where
  /-- What the header line says. -/
  header : Header
  /-- The lines up to the next header line. -/
  below : List (List Char)
  deriving DecidableEq, Repr

/-- The lines about the outputs. Lines before the first header belong to none. -/
def sections : List (List Char) → List Section
  | [] => []
  | line :: ls =>
    match header? line with
    | some header => ⟨header, ls.takeWhile isBelow⟩ :: sections ls
    | none => sections ls

/-- Reads the lines about an output. -/
def Section.read (s : Section) : Except Garble Output := do
  let d ← Draft.ofHeader s.header
  let e ← s.below.foldlM Draft.readLine d
  e.finish

variable {line : List Char} {ls : List (List Char)} {header : Header}

private theorem forall_takeWhile_isBelow (ls : List (List Char)) :
    ∀ l ∈ ls.takeWhile isBelow, header? l = none := by
  intro l hl
  have hbelow : isBelow l = true := List.mem_takeWhile_imp hl
  exact Option.isNone_iff_eq_none.mp hbelow

/-- What the lines up to the next header leave is nothing or begins with that header. -/
theorem exists_header_of_dropWhile {rest : List (List Char)}
    (h : ls.dropWhile isBelow = line :: rest) : ∃ header, header? line = some header := by
  have hhead := List.head?_dropWhile_not isBelow ls
  rw [h, List.head?_cons] at hhead
  exact Option.isSome_iff_exists.mp (Option.isNone_eq_false_iff.mp hhead)

/-- Lines before the first header are passed over. -/
theorem readLines_dropWhile (ls : List (List Char)) :
    readLines (ls.dropWhile isBelow) = readLines ls := by
  have hskip := Reader.foldlM_of_draft_eq_none (forall_takeWhile_isBelow ls) []
  conv_rhs => rw [← List.takeWhile_append_dropWhile (p := isBelow) (l := ls)]
  rw [readLines, readLines, List.foldlM_append, hskip]
  rfl

/-- A header and lines below it are read as one output. -/
theorem readLines_of_forall_below (hline : header? line = some header)
    (hbelow : ∀ l ∈ ls, header? l = none) :
    readLines (line :: ls) = (Section.read ⟨header, ls⟩).map fun o => [o] := by
  have hheader : Reader.readLine {} line =
      (Draft.ofHeader header).map fun d => ⟨[], some d⟩ := by
    simp only [Reader.readLine, hline]
    cases Draft.ofHeader header <;> rfl
  rw [readLines, List.foldlM_cons, hheader, Section.read]
  cases Draft.ofHeader header with
  | error g => rfl
  | ok d =>
    change ls.foldlM Reader.readLine ⟨[], some d⟩ >>= Reader.finish = _
    rw [Reader.foldlM_readLine hbelow]
    change _ = Except.map _ (ls.foldlM Draft.readLine d >>= Draft.finish)
    cases ls.foldlM Draft.readLine d with
    | error g => rfl
    | ok e =>
      change (e.finish >>= fun o => pure [o]) = e.finish.map _
      cases e.finish <;> rfl

/-- The lines up to the next header are read apart from those behind them. -/
theorem readLines_cons (hline : header? line = some header) (ls : List (List Char)) :
    readLines (line :: ls) = do
      let o ← Section.read ⟨header, ls.takeWhile isBelow⟩
      let more ← readLines ls
      return o :: more := by
  have hsection := readLines_of_forall_below hline (forall_takeWhile_isBelow ls)
  rw [← readLines_dropWhile ls]
  conv_lhs => rw [← List.takeWhile_append_dropWhile (p := isBelow) (l := ls), ← List.cons_append]
  -- the next header, if there is one, completes this output and is read as if it came first
  cases hrest : ls.dropWhile isBelow with
  | nil =>
    rw [List.append_nil, hsection]
    cases Section.read ⟨header, ls.takeWhile isBelow⟩ <;> rfl
  | cons l rest =>
    obtain ⟨_, hl⟩ := exists_header_of_dropWhile hrest
    rw [readLines_append hl, hsection]
    cases Section.read ⟨header, ls.takeWhile isBelow⟩ with
    | error g => rfl
    | ok o => rfl

/-- A report is read output by output. -/
theorem readLines_eq_mapM (ls : List (List Char)) :
    readLines ls = (sections ls).mapM Section.read := by
  induction ls with
  | nil => rfl
  | cons line ls ih =>
    cases hline : header? line with
    | none =>
      have hskip : readLines (line :: ls) = readLines ls := by
        simp only [readLines, List.foldlM_cons, Reader.readLine, hline]
        rfl
      rw [hskip, ih, sections, hline]
    | some header =>
      -- the lines below this header also stand before those of the next one, where they are skipped
      rw [readLines_cons hline, ih, sections, hline, List.mapM_cons]

/-- The outputs of a report are read from its sections in their order. -/
theorem forall₂_read {outputs : List Output} (h : readLines ls = .ok outputs) :
    List.Forall₂ (fun s o => s.read = .ok o) (sections ls) outputs := by
  rw [readLines_eq_mapM] at h
  generalize sections ls = l at h ⊢
  induction l generalizing outputs with
  | nil =>
    obtain rfl := Except.ok.inj h
    exact .nil
  | cons s l ih =>
    rw [List.mapM_cons] at h
    obtain ⟨o, ho, h⟩ := exists_of_bind_eq_ok h
    obtain ⟨rest, hrest, h⟩ := exists_of_bind_eq_ok h
    obtain rfl := Except.ok.inj h
    exact .cons ho (ih hrest)

/-! ## Octets -/

/-- The digits of the lines of octets that the lines begin with. -/
def leadingOctets : List (List Char) → List (List Char)
  | [] => []
  | line :: ls =>
    match edidData? line with
    | some digits => digits :: leadingOctets ls
    | none => []

/-- The digits of the lines of octets that stand directly behind a line that opens an EDID. -/
def listedOctets : List (List Char) → List (List Char)
  | [] => []
  | line :: ls => (if isEdidStart line then leadingOctets ls else []) ++ listedOctets ls

/-- A line that opens an EDID has a colon, so it has no octets. -/
theorem isEdidStart_eq_false_of_edidData? {digits : List Char} (h : edidData? line = some digits) :
    isEdidStart line = false := by
  rw [Bool.eq_false_iff]
  intro hstart
  obtain ⟨s, hopened, -⟩ := (Option.any_eq_true _ _).mp hstart
  obtain ⟨t, ht, hs⟩ := Option.bind_eq_some_iff.mp hopened
  obtain ⟨l, rfl, -⟩ := of_blanks?_eq_some ht
  obtain rfl := literal?_eq_some_iff.mp hs
  have hcolon : ':' ∈ l ++ ("EDID:".toList ++ s) := by simp
  rw [edidData?_eq_none hcolon rfl rfl] at h
  cases h

namespace Draft

variable {d e : Draft} {digits : List Char}

/-- The digits of the EDID once these lines are read as well. -/
def digitsAfter (d : Draft) (ls : List (List Char)) : List Char :=
  d.hex ++ ((if d.inEdid then leadingOctets ls else []) ++ listedOctets ls).flatten

private theorem edid_readTransform (h : d.readTransform digits = .ok e) :
    e.hex = d.hex ∧ e.inEdid = d.inEdid := by
  rw [readTransform] at h
  split at h
  · cases h
  · obtain rfl := Except.ok.inj h
    split <;> exact ⟨rfl, rfl⟩

private theorem edid_readWidth (h : d.readWidth digits = .ok e) :
    e.hex = d.hex ∧ e.inEdid = d.inEdid := by
  rw [readWidth] at h
  split at h
  · obtain rfl := Except.ok.inj h
    exact ⟨rfl, rfl⟩
  · obtain ⟨_, _, h⟩ := exists_of_bind_eq_ok h
    obtain rfl := Except.ok.inj h
    exact ⟨rfl, rfl⟩

private theorem edid_readHeight {v : Vertical} (h : d.readHeight v = .ok e) :
    e.hex = d.hex ∧ e.inEdid = d.inEdid := by
  simp only [readHeight] at h
  split at h
  · obtain ⟨_, _, h⟩ := exists_of_bind_eq_ok h
    obtain ⟨_, _, h⟩ := exists_of_bind_eq_ok h
    obtain ⟨_, _, h⟩ := exists_of_bind_eq_ok h
    obtain rfl := Except.ok.inj h
    exact ⟨rfl, rfl⟩
  · obtain rfl := Except.ok.inj h
    exact ⟨rfl, rfl⟩

/-- A line outside the octets adds none, and octets may follow if it opens an EDID. -/
theorem edid_readOther (h : d.readOther line = .ok e) :
    e.hex = d.hex ∧ e.inEdid = (isEdidStart line || d.inEdid) := by
  rw [readOther] at h
  by_cases hstart : isEdidStart line = true
  · rw [if_pos hstart] at h
    obtain rfl := Except.ok.inj h
    exact ⟨rfl, by rw [hstart, Bool.true_or]⟩
  · rw [if_neg hstart] at h
    rw [Bool.eq_false_iff.mpr hstart, Bool.false_or]
    split at h
    · exact edid_readTransform h
    · split at h
      · obtain rfl := Except.ok.inj h
        exact ⟨rfl, rfl⟩
      · split at h
        · exact edid_readWidth h
        · split at h
          · exact edid_readHeight h
          · obtain rfl := Except.ok.inj h
            exact ⟨rfl, rfl⟩

/-- A line that is no line of octets of an open EDID ends the EDID, and may open the next one. -/
theorem digitsAfter_readOther (h : readOther { d with inEdid := false } line = .ok e)
    (hnone : d.inEdid = true → edidData? line = none) (ls : List (List Char)) :
    e.digitsAfter ls = d.digitsAfter (line :: ls) := by
  obtain ⟨hhex, hedid⟩ := edid_readOther h
  have hlead : (if d.inEdid then leadingOctets (line :: ls) else []) = [] := by
    by_cases hd : d.inEdid = true
    · rw [if_pos hd, leadingOctets, hnone hd]
    · rw [if_neg hd]
  rw [digitsAfter, digitsAfter, hlead, hhex, hedid, Bool.or_false, List.nil_append, listedOctets]

/-- A line takes its digits from those to come to those that are there, so all together stay. -/
theorem digitsAfter_readLine (h : d.readLine line = .ok e) (ls : List (List Char)) :
    e.digitsAfter ls = d.digitsAfter (line :: ls) := by
  rw [readLine] at h
  by_cases hd : d.inEdid = true
  · rw [if_pos hd] at h
    cases hdata : edidData? line with
    | none =>
      rw [hdata] at h
      exact digitsAfter_readOther h (fun _ => hdata) ls
    | some digits =>
      rw [hdata] at h
      obtain rfl := Except.ok.inj h
      -- a line of octets opens no EDID, so its digits are listed once
      simp only [digitsAfter, hd, ite_true, leadingOctets, hdata, listedOctets,
        isEdidStart_eq_false_of_edidData? hdata, Bool.false_eq_true, ite_false, List.nil_append,
        List.cons_append, List.flatten_cons, List.append_assoc]
  · have hclosed : { d with inEdid := false } = d := by
      rw [← Bool.eq_false_iff.mpr hd]
    rw [if_neg hd, ← hclosed] at h
    exact digitsAfter_readOther h (absurd · hd) ls

/-- The lines below a header add their octets. -/
theorem hex_foldlM (h : ls.foldlM readLine d = .ok e) : e.hex = d.digitsAfter ls := by
  induction ls generalizing d with
  | nil =>
    obtain rfl := Except.ok.inj h
    rw [digitsAfter, leadingOctets, ite_self]
    exact (List.append_nil _).symm
  | cons line ls ih =>
    rw [List.foldlM_cons] at h
    obtain ⟨f, hline, hls⟩ := exists_of_bind_eq_ok h
    rw [ih hls, digitsAfter_readLine hline]

end Draft

/-- The EDID of the output has the octets that are listed below its header, if there are any. -/
structure Dumped (s : Section) (o : Output) : Prop where
  /-- The output is that of the header. -/
  id_eq : o.id = String.ofList s.header.name
  /-- The digits of the EDID are those listed. -/
  edid_eq_some_iff : ∀ bytes,
    o.edid = some bytes ↔ bytes ≠ [] ∧ Hex.encode bytes = (listedOctets s.below).flatten
  /-- Each line has sixteen octets. -/
  dvd_length : ∀ bytes, o.edid = some bytes → 16 ∣ bytes.length

/-- Different octets have different digits. -/
theorem encode_injective : Function.Injective Hex.encode := by
  intro bytes bytes' h
  have hread := congrArg Hex.decode? h
  rw [Hex.decode?_encode, Hex.decode?_encode] at hread
  exact Option.some.inj hread

/-- What is read about an output has the octets that are listed. -/
theorem Section.dumped_of_read (s : Section) (o : Output) (h : s.read = .ok o) : Dumped s o := by
  obtain ⟨d, hd, h⟩ := exists_of_bind_eq_ok h
  obtain ⟨e, he, h⟩ := exists_of_bind_eq_ok h
  have hextends := Draft.extends_foldlM he
  obtain ⟨bytes, hlength, hhex⟩ := (Draft.coded_ofHeader hd).of_extends hextends
  have hlisted : Hex.encode bytes = (listedOctets s.below).flatten := by
    rw [← hhex, Draft.hex_foldlM he]
    obtain ⟨_, _, rfl⟩ := Draft.exists_of_ofHeader hd
    rfl
  -- lines add no EDID but by their digits, and the header has none
  rw [Draft.finish_of_hex_eq hhex, hextends.output_eq] at h
  obtain ⟨_, _, rfl⟩ := Draft.exists_of_ofHeader hd
  obtain rfl := Except.ok.inj h
  by_cases hne : bytes = []
  · simp only [if_pos hne]
    refine ⟨rfl, fun bytes' => ?_, fun _ h => nomatch h⟩
    rw [← hlisted, encode_injective.eq_iff, hne]
    exact iff_of_false (nomatch ·) fun h => h.1 h.2
  · simp only [if_neg hne]
    refine ⟨rfl, fun bytes' => ?_, ?_⟩
    · rw [← hlisted, encode_injective.eq_iff, Option.some.injEq, eq_comm (a := bytes)]
      exact ⟨fun h => ⟨h ▸ hne, h⟩, And.right⟩
    · rintro _ ⟨⟩
      exact hlength

/-! ## Faults -/

section Faults

variable {α β : Type} {x : Except Garble α} {f : α → Except Garble β} {d : Draft}

/-- What fails, if it does, is a number out of range. -/
def FailsByNumber (x : Except Garble α) : Prop :=
  ∀ g, x = .error g → ∃ name text, g = .reportNumber name text

/-- What succeeds has no other fault. -/
theorem FailsByNumber.ok (a : α) : FailsByNumber (.ok a) :=
  fun _ h => nomatch h

/-- If two steps fail by a number only, so do both one after the other. -/
theorem FailsByNumber.bind (hx : FailsByNumber x) (hf : ∀ a, x = .ok a → FailsByNumber (f a)) :
    FailsByNumber (x >>= f) := by
  intro g h
  rcases of_bind_eq_error h with h | ⟨a, ha, h⟩
  · exact hx g h
  · exact hf a ha g h

/-- If a step fails by a number only, so it does for every member of a list. -/
theorem FailsByNumber.mapM (hf : ∀ a, FailsByNumber (f a)) (l : List α) :
    FailsByNumber (l.mapM f) := by
  induction l with
  | nil => exact .ok []
  | cons a l ih =>
    rw [List.mapM_cons]
    exact .bind (hf a) fun b _ => .bind ih fun bs _ => .ok (b :: bs)

private theorem failsByNumber_mapError {ε : Type} (x : Except ε α) (name text : String) :
    FailsByNumber (x.mapError fun _ => .reportNumber name text) := by
  cases x with
  | ok a => exact .ok a
  | error _ =>
    rintro _ ⟨⟩
    exact ⟨name, text, rfl⟩

/-- Reading a number fails by the number only. -/
theorem failsByNumber_number (name : String) (digits : List Char) :
    FailsByNumber (number name digits) :=
  failsByNumber_mapError _ name _

/-- Reading a number with sign fails by the number only. -/
theorem failsByNumber_signedNumber (name : String) (digits : List Char) :
    FailsByNumber (signedNumber name digits) :=
  failsByNumber_mapError _ name _

namespace Draft

private theorem failsByNumber_ofHeader (h : Header) : FailsByNumber (ofHeader h) := by
  rw [ofHeader]
  split
  case' h_1 =>
    refine .bind (failsByNumber_signedNumber _ _) fun _ _ =>
      .bind (failsByNumber_signedNumber _ _) fun _ _ => ?_
  all_goals
    refine .bind (.ok _) fun _ _ => ?_
    split
    case' h_1 =>
      refine .bind (failsByNumber_number _ _) fun _ _ =>
        .bind (failsByNumber_number _ _) fun _ _ => ?_
    all_goals exact .bind (.ok _) fun _ _ => .ok _

private theorem failsByNumber_readTransform (d : Draft) (digits : List Char) :
    FailsByNumber (d.readTransform digits) := by
  rw [readTransform]
  split
  · rintro _ ⟨⟩
    exact ⟨_, _, rfl⟩
  · exact .ok _

private theorem failsByNumber_readWidth (d : Draft) (digits : List Char) :
    FailsByNumber (d.readWidth digits) := by
  rw [readWidth]
  split
  · exact .ok _
  · exact .bind (failsByNumber_number _ _) fun _ _ => .ok _

private theorem failsByNumber_readHeight (d : Draft) (v : Vertical) :
    FailsByNumber (d.readHeight v) := by
  rw [readHeight]
  split
  · exact .bind (failsByNumber_number _ _) fun _ _ => .bind (failsByNumber_number _ _) fun _ _ =>
      .bind (failsByNumber_number _ _) fun _ _ => .ok _
  · exact .ok _

private theorem failsByNumber_readOther (d : Draft) (line : List Char) :
    FailsByNumber (d.readOther line) := by
  rw [readOther]
  split
  · exact .ok _
  · split
    · exact failsByNumber_readTransform d _
    · split
      · exact .ok _
      · split
        · exact failsByNumber_readWidth d _
        · split
          · exact failsByNumber_readHeight d _
          · exact .ok _

/-- A line below a header fails by a number only. -/
theorem failsByNumber_readLine (d : Draft) (line : List Char) :
    FailsByNumber (d.readLine line) := by
  rw [readLine]
  split
  · split
    · exact .ok _
    · exact failsByNumber_readOther _ line
  · exact failsByNumber_readOther d line

/-- The lines below a header fail by a number only. -/
theorem failsByNumber_foldlM (d : Draft) (ls : List (List Char)) :
    FailsByNumber (ls.foldlM readLine d) := by
  induction ls generalizing d with
  | nil => exact .ok d
  | cons line ls ih =>
    rw [List.foldlM_cons]
    exact .bind (failsByNumber_readLine d line) fun e _ => ih e

end Draft

/-- The digits that are collected can be read, so what may fail are the lines. -/
theorem Section.failsByNumber_read (s : Section) : FailsByNumber s.read := by
  refine .bind (Draft.failsByNumber_ofHeader s.header) fun d hd =>
    .bind (Draft.failsByNumber_foldlM d s.below) fun e he => ?_
  obtain ⟨bytes, -, hhex⟩ := (Draft.coded_ofHeader hd).of_extends (Draft.extends_foldlM he)
  rw [Draft.finish_of_hex_eq hhex]
  exact .ok _

/-- A report that cannot be read has a number out of range. -/
theorem exists_number_of_read_eq_error {s : List Char} {fault : HardwareFault}
    (h : read s = .error fault) : ∃ name text, fault = .garbled (.reportNumber name text) := by
  rw [read, readLines_eq_mapM] at h
  split at h
  · cases h
  · rename_i g hg
    obtain ⟨name, text, rfl⟩ := FailsByNumber.mapM Section.failsByNumber_read _ g hg
    exact ⟨name, text, (Except.error.inj h).symm⟩

end Faults

/-- Reading a report never fails over the digits of an EDID. There is one output for each header,
whose EDID has the octets of all lines of octets that stand, below that header, directly behind a
line that opens an EDID; it has no EDID if there are none. -/
theorem edids_are_listed_octets (s : List Char) :
    (∀ offset, read s ≠ .error (.garbled (.reportHex offset))) ∧
    ∀ c, read s = .ok c → List.Forall₂ Dumped (sections (lines s)) c.outputs := by
  refine ⟨fun offset h => ?_, fun c h => ?_⟩
  · obtain ⟨_, _, h⟩ := exists_number_of_read_eq_error h
    cases h
  · rw [read_eq_ok_iff] at h
    exact (forall₂_read h).imp Section.dumped_of_read

namespace Scenes

/-- A report with two EDIDs below one header. A line of octets stands behind a remark, and one
directly behind a header. -/
def twofold : List Char :=
  ("Screen 0: minimum 320 x 200\n" ++ "DP-1 connected 64x48+0+0 (normal)\n" ++
    "\tEDID: \n" ++ "\t\t00ffffffffffff000000000000000000\n" ++
    "\tBorder: 0/0/0/0\n" ++ "\t\t11111111111111111111111111111111\n" ++
    "\tEDID:\n" ++ "\t\tffeeddccbbaa99887766554433221100\n" ++
    "VGA-1 disconnected (normal)\n" ++ "\t\t22222222222222222222222222222222\n").toList

/-- Both EDIDs of an output are read as one, without the lines that belong to none. -/
theorem edids_are_listed_octets_twofold :
    (∀ offset, read twofold ≠ .error (.garbled (.reportHex offset))) ∧
    ∃ c, read twofold = .ok c ∧
      List.Forall₂ Dumped (sections (lines twofold)) c.outputs ∧
      c.outputs.map Output.id = ["DP-1", "VGA-1"] ∧
      c.outputs.map Output.edid = [some [0, 255, 255, 255, 255, 255, 255, 0, 0, 0, 0, 0, 0, 0, 0, 0,
        255, 238, 221, 204, 187, 170, 153, 136, 119, 102, 85, 68, 51, 34, 17, 0], none] := by
  have hruns : (do
      let c ← read twofold
      return (c.outputs.map Output.id, c.outputs.map Output.edid)) =
      .ok (["DP-1", "VGA-1"], [some [0, 255, 255, 255, 255, 255, 255, 0, 0, 0, 0, 0, 0, 0, 0, 0,
        255, 238, 221, 204, 187, 170, 153, 136, 119, 102, 85, 68, 51, 34, 17, 0], none]) := by
    decide +kernel
  obtain ⟨c, hc, hruns⟩ := exists_of_bind_eq_ok hruns
  obtain ⟨hids, hedids⟩ := Prod.mk.inj (Except.ok.inj hruns)
  obtain ⟨hfault, hlisted⟩ := edids_are_listed_octets twofold
  exact ⟨hfault, c, hc, hlisted c hc, hids, hedids⟩

end Scenes

end Displays.Xrandr
