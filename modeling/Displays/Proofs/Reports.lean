import Displays.Proofs.Recognition

/-!
# Reading back a report

A line leads a draft on by what it says, whether or not the line before it belonged to an EDID.
So the lines of an output lead from its header to the output itself, and the report of any
descriptions reads as the outputs described, in their order.
-/

namespace Displays.Xrandr

open Displays.Decimal (digitChars isDigit_of_mem_digitChars isDigit_of_mem_padded padded
  readInt_signedChars readNat_digitChars readNat_padded signedChars)
open Displays.Text

section Lines

/-- A line of two parts is a line if both parts are. -/
theorem isLine_append {l s : List Char} (hl : IsLine l) (hs : IsLine s) : IsLine (l ++ s) := by
  by_cases hne : s = []
  · rwa [hne, List.append_nil]
  · exact hs.append hne hl.1

private theorem isLine_of_isHexDigit {l : List Char} (h : ∀ c ∈ l, isHexDigit c = true) :
    IsLine l :=
  isLine_of_forall_not_isBlank fun c hc => isBlank_eq_false (h c hc)

private theorem isLine_digitChars (n : Nat) : IsLine (digitChars n) :=
  isLine_of_isHexDigit fun _ hc => isHexDigit_of_isDigit (isDigit_of_mem_digitChars hc)

private theorem isLine_signedChars (n : Int) : IsLine (signedChars n) := by
  rw [signedChars]
  split
  · exact isLine_append (l := ['-']) (by decide) (isLine_digitChars _)
  · exact isLine_digitChars _

private theorem isLine_padded (width n : Nat) : IsLine (padded width n).toList :=
  isLine_of_isHexDigit fun _ hc => isHexDigit_of_isDigit (isDigit_of_mem_padded hc)

private theorem isLine_hexDigits (n : Nat) : IsLine (hexDigits n) :=
  isLine_of_isHexDigit fun _ => isHexDigit_of_mem_hexDigits

/-- A line may have any character in front that is a line itself. -/
theorem isLine_cons {c : Char} {s : List Char} (hc : IsLine [c]) (hs : IsLine s) :
    IsLine (c :: s) :=
  isLine_append hc hs

/-- A name is part of a line. -/
theorem Name.isLine (w : Name) : IsLine w.chars :=
  isLine_of_forall_not_isBlank w.isBlank_of_mem

/-- The text is a line below a header. -/
structure IsDetail (line : List Char) : Prop where
  /-- The text is a line. -/
  isLine : IsLine line
  /-- The line is indented. -/
  indented : line.head?.any isBlank = true

/-- A remark stands below a header. -/
theorem Remark.isDetail (r : Remark) : IsDetail r.line :=
  ⟨r.isLine, r.indented⟩

/-- Indented text is a line below a header. -/
theorem Gap.isDetail (g : Gap) {s : List Char} (hs : IsLine s) (hne : s ≠ []) :
    IsDetail (g.chars ++ s) :=
  ⟨hs.append hne g.newline_not_mem, g.head?_append s⟩

/-- Blanks in front of text leave it a line. -/
theorem Gap.isLine_append (g : Gap) {s : List Char} (hs : IsLine s) (hne : s ≠ []) :
    IsLine (g.chars ++ s) :=
  hs.append hne g.newline_not_mem

/-- A number with places is part of a line. -/
theorem Fixed.isLine (f : Fixed) : IsLine f.chars :=
  isLine_append (isLine_digitChars _) (isLine_cons (by decide) (isLine_padded _ _))

/-- A picture is part of a line. -/
theorem Picture.isLine (p : Picture) : IsLine p.chars :=
  isLine_cons (by decide) (isLine_append (isLine_digitChars _) (isLine_cons (by decide)
    (isLine_append (isLine_digitChars _) (isLine_cons (by decide)
      (isLine_append (isLine_signedChars _) (isLine_cons (by decide)
        (isLine_append (isLine_signedChars _) (isLine_cons (by decide)
          (isLine_append (by decide) (isLine_append (isLine_hexDigits _) (by decide)))))))))))

/-- An extent is part of a line. -/
theorem Extent.isLine (e : Extent) : IsLine e.chars :=
  isLine_cons (by decide) (isLine_append (isLine_digitChars _) (isLine_append (by decide)
    (isLine_append (l := [' ', 'x', ' ']) (by decide)
      (isLine_append (isLine_digitChars _) (by decide)))))

/-- The header of an output is a line. -/
theorem Description.isLine_header (d : Description) : IsLine d.header := by
  have hstatus : IsLine d.status := by
    rw [status]
    split <;> decide
  have hrole : IsLine d.role := by
    rw [role]
    split <;> decide
  have hpicture : IsLine (d.picture.elim [] Picture.chars) := by
    cases d.picture with
    | none => decide
    | some p => exact p.isLine
  have hextent : IsLine (d.extent.elim [] Extent.chars) := by
    cases d.extent with
    | none => decide
    | some e => exact e.isLine
  exact isLine_append d.name.isLine (isLine_cons (by decide) (isLine_append hstatus
    (isLine_append hrole (isLine_append hpicture
      (isLine_cons (by decide) (isLine_append (by decide) hextent))))))

private theorem Description.isDetail_transform (d : Description) : IsDetail d.transform :=
  d.indent.isDetail
    (isLine_append (by decide) (d.gap.isLine_append
      (isLine_append d.factor.isLine (isLine_cons (by decide) (by decide))) (by simp)))
    (by simp)

private theorem Block.isDetail_opening (k : Block) : IsDetail k.opening :=
  k.indent.isDetail (by decide) (by decide)

/-- A line of octets stands below a header. -/
theorem Row.isDetail (r : Row) : IsDetail r.line := by
  refine r.indent.isDetail (isLine_of_isHexDigit fun _ => isHexDigit_of_mem_encode)
    (List.ne_nil_of_length_pos ?_)
  rw [length_encode, r.length_eq]
  decide

private theorem Listing.isDetail_opening (m : Listing) : IsDetail m.opening :=
  m.indent.isDetail
    (isLine_append m.name.isLine (isLine_cons (by decide) (isLine_append (by decide)
      (isLine_append (isLine_hexDigits _) (isLine_append (l := [')', ' ']) (by decide)
        (isLine_append m.clock.isLine (isLine_append (by decide)
          (isLine_cons (by decide) m.flags.isLine))))))))
    (by simp)

/-- The line of the horizontal timings stands below a header. -/
theorem Horizontal.isDetail (h : Horizontal) : IsDetail h.line :=
  h.indent.isDetail
    (isLine_append (by decide) (h.label.isLine_append
      (isLine_append (by decide) (h.gap.isLine_append
        (isLine_append (isLine_digitChars _) (isLine_cons (by decide)
          (isLine_append (by decide) h.rest.isLine))) (by simp))) (by simp)))
    (by simp)

/-- The line of the vertical timings stands below a header. -/
theorem Timing.isDetail (v : Timing) : IsDetail v.line := by
  have hclock : IsLine v.clock := v.rate.isLine_append
    (isLine_append (isLine_digitChars _) (isLine_cons (by decide)
      (isLine_append (isLine_padded _ _) (by decide)))) (by simp)
  have hbetween : IsLine ("start ".toList ++ v.between ++ ("clock".toList ++ v.clock)) := by
    refine (isLine_append (l := "clock".toList) (by decide) hclock).append (by simp) fun hn => ?_
    exact (List.mem_append.mp hn).elim (by decide) v.newline_not_mem
  exact v.indent.isDetail
    (isLine_append (by decide) (v.label.isLine_append
      (isLine_append (by decide) (v.gap.isLine_append
        (isLine_append (isLine_digitChars _) (isLine_cons (by decide) hbetween)) (by simp)))
      (by simp)))
    (by simp)

/-- All lines of an EDID stand below a header. -/
theorem Block.isDetail_of_mem (k : Block) {line : List Char} (h : line ∈ k.lines) :
    IsDetail line := by
  simp only [Block.lines, List.cons_append, List.mem_cons, List.mem_append, List.mem_map] at h
  rcases h with rfl | ⟨r, _, rfl⟩ | ⟨r, _, rfl⟩
  · exact k.isDetail_opening
  · exact r.isDetail
  · exact r.isDetail

/-- All lines of a mode stand below a header. -/
theorem Listing.isDetail_of_mem (m : Listing) {line : List Char} (h : line ∈ m.lines) :
    IsDetail line := by
  simp only [Listing.lines, List.cons_append, List.mem_cons, List.mem_append, List.mem_map] at h
  rcases h with rfl | ⟨r, _, rfl⟩ | rfl | ⟨r, _, rfl⟩ | rfl | ⟨r, _, rfl⟩
  · exact m.isDetail_opening
  · exact r.isDetail
  · exact m.horizontal.isDetail
  · exact r.isDetail
  · exact m.vertical.isDetail
  · exact r.isDetail

/-- All lines of an output but the first one are indented. -/
theorem Description.isDetail_of_mem (d : Description) {line : List Char} (h : line ∈ d.details) :
    IsDetail line := by
  simp only [details, List.cons_append, List.mem_cons, List.mem_append, List.mem_map,
    List.mem_flatMap] at h
  rcases h with ⟨r, _, rfl⟩ | rfl | ⟨r, _, rfl⟩ | h | ⟨m, _, h⟩
  · exact r.isDetail
  · exact d.isDetail_transform
  · exact r.isDetail
  · cases hedid : d.edid with
    | none =>
      rw [hedid] at h
      exact absurd h List.not_mem_nil
    | some k =>
      rw [hedid] at h
      exact k.isDetail_of_mem h
  · exact m.isDetail_of_mem h

/-- A report consists of its lines. -/
theorem lines_report (preface : List Preface) (ds : List Description) :
    Text.lines (report preface ds) =
      preface.map Preface.line ++ ds.flatMap Description.lines := by
  refine lines_unlines fun l hl => ?_
  rcases List.mem_append.mp hl with hl | hl
  · obtain ⟨p, _, rfl⟩ := List.mem_map.mp hl
    exact p.isLine
  · obtain ⟨d, _, hl⟩ := List.mem_flatMap.mp hl
    rcases List.mem_cons.mp hl with rfl | hl
    · exact d.isLine_header
    · exact (d.isDetail_of_mem hl).isLine

end Lines

section Numbers

private theorem signedNumber_signedChars (name : String) (n : Int32) :
    signedNumber name (signedChars n.toInt) = .ok n.toInt := by
  have hmem : n.toInt ∈ Decimal.Bounds.signed 32 := ⟨n.le_toInt, Int.le_sub_one_of_lt n.toInt_lt⟩
  rw [signedNumber, readInt_signedChars hmem]
  rfl

/-- Digits of a number that fits into a word are read as the number. -/
theorem number_digitChars (name : String) {n : Nat} (h : n < Nat.pow 2 32) :
    number name (digitChars n) = .ok n := by
  rw [number, readNat_digitChars h]
  rfl

private theorem number_wordChars (name : String) (n : UInt32) :
    number name (wordChars n) = .ok n.toNat :=
  number_digitChars name n.toNat_lt

private theorem number_padded (name : String) {width n : Nat} (h : n < Nat.pow 2 32) :
    number name (padded width n).toList = .ok n := by
  rw [number, readNat_padded h]
  rfl

private theorem Fixed.readFloat?_chars (f : Fixed) : Decimal.readFloat? f.chars = some f.value := by
  have hplaces : ∀ c ∈ (padded f.places f.part).toList, c.isDigit = true :=
    fun _ => isDigit_of_mem_padded
  have hread := Decimal.readFloat?_of_digits (Decimal.digitChars_ne_nil f.whole)
    (fun _ => isDigit_of_mem_digitChars) hplaces
  rw [Nat.ofDigitChars_append, Decimal.ofDigitChars_digitChars,
    Nat.ofDigitChars_eq_ofDigitChars_zero, Decimal.ofDigitChars_padded,
    Decimal.length_padded f.places_pos f.part_lt, Nat.mul_comm] at hread
  exact hread

private theorem encode_digit {n : Nat} (h : n < 16) :
    ∃ a, Utf8.encodeChar (Hex.digit n) = [a] ∧ Char.ofNat a.toNat = Hex.digit n ∧
      Hex.digit n ≠ '+' := by
  match n with
  | 0 | 1 | 2 | 3 | 4 | 5 | 6 | 7 | 8 | 9 | 10 | 11 | 12 | 13 | 14 | 15 =>
    exact ⟨_, rfl, by decide, by decide⟩
  | n + 16 => omega

private theorem hexBytes_encode (bytes : List UInt8) (offset : Nat) :
    hexBytes offset (Utf8.encode (Hex.encode bytes)) = .ok bytes := by
  induction bytes generalizing offset with
  | nil => rfl
  | cons b bytes ih =>
    have hb := b.toNat_lt
    have hhigh : b.toNat / 16 < 16 := by omega
    have hlow : b.toNat % 16 < 16 := Nat.mod_lt _ (by decide)
    obtain ⟨x, hx, hx', hplus⟩ := encode_digit hhigh
    obtain ⟨y, hy, hy', _⟩ := encode_digit hlow
    have hcons : Utf8.encode (Hex.encode (b :: bytes)) =
        x :: y :: Utf8.encode (Hex.encode bytes) := by
      change Utf8.encodeChar _ ++ (Utf8.encodeChar _ ++ _) = _
      rw [hx, hy]
      rfl
    have hvalue : UInt8.ofNat (16 * (b.toNat / 16) + b.toNat % 16) = b := by
      rw [Nat.div_add_mod, UInt8.ofNat_toNat]
    simp only [hcons, hexBytes, hx', hy', if_neg hplus, Hex.value?_digit hhigh,
      Hex.value?_digit hlow, ih, hvalue]

/-- Octets are read back from their digits. -/
theorem decodeHex_encode (bytes : List UInt8) : decodeHex (Hex.encode bytes) = .ok bytes :=
  hexBytes_encode bytes 0

end Numbers

namespace Draft

variable {d e f : Draft} {line : List Char} {ls ls' : List (List Char)}

/-- The lines lead from one draft to the other, whatever belonged to an EDID before. -/
def Leads (ls : List (List Char)) (d e : Draft) : Prop :=
  -- only octets depend on the line before them, and no part of a description begins with octets
  ∀ b, ∃ b', ls.foldlM readLine { d with inEdid := b } = .ok { e with inEdid := b' }

/-- No lines lead from a draft to itself. -/
theorem Leads.nil (d : Draft) : Leads [] d d := fun b => ⟨b, rfl⟩

/-- What lines lead to, further lines lead on from. -/
theorem Leads.append (h : Leads ls d e) (h' : Leads ls' e f) : Leads (ls ++ ls') d f := by
  intro b
  obtain ⟨b', h⟩ := h b
  obtain ⟨b'', h'⟩ := h' b'
  refine ⟨b'', ?_⟩
  rw [List.foldlM_append, h]
  exact h'

/-- A line without octets is read as if no EDID came before it. -/
theorem readLine_of_edidData?_eq_none (h : edidData? line = none) (b : Bool) :
    readLine { d with inEdid := b } line = readOther { d with inEdid := false } line := by
  cases b with
  | true => simp only [readLine, h, ite_true]
  | false => simp only [readLine, Bool.false_eq_true, ite_false]

/-- A line without octets leads on by what it says. -/
theorem Leads.of_readOther (hline : edidData? line = none)
    (h : readOther { d with inEdid := false } line = .ok { e with inEdid := false }) :
    Leads [line] d e := by
  intro b
  refine ⟨false, ?_⟩
  rw [List.foldlM_cons, readLine_of_edidData?_eq_none hline, h]
  rfl

/-- Remarks change nothing. -/
theorem Leads.remarks (rs : List Remark) (d : Draft) : Leads (rs.map Remark.line) d d := by
  induction rs with
  | nil => exact .nil d
  | cons r rs ih =>
    have hr : Leads [r.line] d d := by
      refine .of_readOther r.edidData?_eq ?_
      simp only [readOther, r.isEdidStart_eq, r.transform?_eq, r.mode?_eq, r.width?_eq,
        r.height?_eq, Bool.false_eq_true, ite_false]
    exact hr.append ih

/-- The draft with the scale that the transformation gives. -/
def scaled (d : Draft) (f : Fixed) : Draft :=
  { d with
    output := { d.output with scale := if 0 < f.value then 1 / f.value else d.output.scale } }

/-- The line of the transformation leads to the scale that it gives. -/
theorem Leads.transform (o : Description) (d : Draft) :
    Leads [o.transform] d (d.scaled o.factor) := by
  refine .of_readOther o.not_edid_transform.1 ?_
  simp only [readOther, o.not_edid_transform.2, o.transform?_transform, readTransform,
    o.factor.readFloat?_chars, Bool.false_eq_true, ite_false, scaled]
  split <;> rfl

/-- The draft with further octets. -/
def withOctets (d : Draft) (bytes : List UInt8) : Draft :=
  { d with hex := d.hex ++ Hex.encode bytes }

/-- The digits of octets are those of the one part behind those of the other. -/
theorem encode_append (l l' : List UInt8) :
    Hex.encode (l ++ l') = Hex.encode l ++ Hex.encode l' :=
  List.flatMap_append

/-- Lines of octets directly behind each other are all read. -/
theorem foldlM_rows (rows : List Row) (d : Draft) :
    (rows.map Row.line).foldlM readLine { d with inEdid := true } =
      .ok { d.withOctets (rows.flatMap Row.octets) with inEdid := true } := by
  induction rows generalizing d with
  | nil =>
    change _ = Except.ok { d with hex := d.hex ++ [], inEdid := true }
    rw [List.append_nil]
    rfl
  | cons r rows ih =>
    have hr : readLine { d with inEdid := true } r.line =
        .ok { d.withOctets r.octets with inEdid := true } := by
      simp only [readLine, r.edidData?_line, ite_true]
      rfl
    rw [List.map_cons, List.foldlM_cons, hr]
    refine (ih (d.withOctets r.octets)).trans ?_
    simp only [withOctets, List.flatMap_cons, encode_append, List.append_assoc]

/-- The lines of an EDID lead to its octets. -/
theorem Leads.block (k : Block) (d : Draft) : Leads k.lines d (d.withOctets k.octets) := by
  have hopen : ∀ b, readLine { d with inEdid := b } k.opening = .ok { d with inEdid := true } := by
    intro b
    rw [readLine_of_edidData?_eq_none k.edidData?_opening, readOther, if_pos k.isEdidStart_opening]
  have hrows : Leads (k.opening :: k.rows.map Row.line) d (d.withOctets k.octets) := by
    intro b
    refine ⟨true, ?_⟩
    rw [List.foldlM_cons, hopen]
    exact foldlM_rows k.rows d
  exact hrows.append (.remarks k.below _)

/-- The draft with a further mode. -/
def withMode (d : Draft) (m : Listing) : Draft :=
  { d with
    output := { d.output with modes := d.output.modes ++ [m.mode] }
    current := if m.isCurrent then some d.output.modes.length else d.current
    pending := none }

/-- The lines of a mode lead to the mode. -/
theorem Leads.listing (m : Listing) (d : Draft) : Leads m.lines d (d.withMode m) := by
  have hopening : Leads [m.opening] d { d with pending := some ⟨m.isCurrent, none⟩ } := by
    refine .of_readOther m.not_edid_opening.1 ?_
    simp only [readOther, m.not_edid_opening.2, m.transform?_opening, m.mode?_opening,
      Bool.false_eq_true, ite_false]
  have hwidth : Leads [m.horizontal.line] { d with pending := some ⟨m.isCurrent, none⟩ }
      { d with pending := some ⟨m.isCurrent, some m.horizontal.width.toNat⟩ } := by
    refine .of_readOther m.horizontal.not_edid_line.1 ?_
    simp only [readOther, m.horizontal.not_edid_line.2, m.horizontal.transform?_line,
      m.horizontal.mode?_line, m.horizontal.width?_line, readWidth, number_wordChars,
      Bool.false_eq_true, ite_false]
    rfl
  have hheight : Leads [m.vertical.line]
      { d with pending := some ⟨m.isCurrent, some m.horizontal.width.toNat⟩ } (d.withMode m) := by
    have hrefresh := m.vertical.refresh_lt
    have hhertz : m.vertical.hertz < Nat.pow 2 32 := by omega
    have hhundredths : m.vertical.hundredths < Nat.pow 2 32 := by omega
    refine .of_readOther m.vertical.not_edid_line.1 ?_
    simp only [readOther, m.vertical.not_edid_line.2, m.vertical.transform?_line,
      m.vertical.mode?_line, m.vertical.width?_line, m.vertical.height?_line, readHeight,
      number_wordChars, number_digitChars _ hhertz, number_padded _ hhundredths, bind, Except.bind,
      millihertz_of_lt hrefresh, Bool.false_eq_true, ite_false]
    rfl
  exact (hopening.append (.remarks m.belowOpening _)).append
    ((hwidth.append (.remarks m.belowHorizontal _)).append
      (hheight.append (.remarks m.belowVertical _)))

/-- The lines of modes lead to these modes, one after the other. -/
theorem Leads.modes (ms : List Listing) (d : Draft) :
    Leads (ms.flatMap Listing.lines) d (ms.foldl withMode d) := by
  induction ms generalizing d with
  | nil => exact .nil d
  | cons m ms ih => exact (Leads.listing m d).append (ih (d.withMode m))

/-- The draft with further modes, the one that has the flag being the current one. -/
def withModes (d : Draft) (ms : List Listing) : Draft :=
  { d with
    output := { d.output with modes := d.output.modes ++ ms.map Listing.mode }
    current :=
      ((ms.findIdx? Listing.isCurrent).map (d.output.modes.length + ·)).or d.current
    pending := none }

/-- With at most one flag among them, the last mode with the flag is the first one. -/
theorem foldl_withMode {ms : List Listing} (h : ms.countP Listing.isCurrent ≤ 1)
    (hpending : d.pending = none) : ms.foldl withMode d = d.withModes ms := by
  induction ms generalizing d with
  | nil =>
    simp only [List.foldl_nil, withModes, List.map_nil, List.append_nil, List.findIdx?_nil,
      Option.map_none, Option.none_or, ← hpending]
  | cons m ms ih =>
    cases hm : m.isCurrent with
    | true =>
      rw [List.countP_cons_of_pos hm] at h
      have hnone : ms.findIdx? Listing.isCurrent = none := by
        have hzero : ms.countP Listing.isCurrent = 0 := by omega
        exact List.findIdx?_eq_none_iff.mpr fun m' hm' =>
          Bool.eq_false_iff.mpr (List.countP_eq_zero.mp hzero m' hm')
      rw [List.foldl_cons, ih (by omega) rfl]
      simp only [withModes, withMode, hm, hnone, List.findIdx?_cons, List.map_cons,
        List.append_assoc, List.singleton_append, Option.map_none, Option.none_or,
        Option.map_some, Option.some_or, Nat.add_zero, ite_true]
    | false =>
      rw [List.countP_cons_of_neg (Bool.eq_false_iff.mp hm)] at h
      have hindex : ∀ i, d.output.modes.length + 1 + i = d.output.modes.length + (i + 1) :=
        fun i => by omega
      rw [List.foldl_cons, ih h rfl]
      simp only [withModes, withMode, hm, List.findIdx?_cons, List.map_cons, List.append_assoc,
        List.singleton_append, List.length_append, List.length_singleton, Option.map_map,
        Function.comp_def, hindex, Bool.false_eq_true, ite_false]

/-- The draft that the header of an output opens. -/
def opened (o : Description) : Draft where
  output := {
    id := String.ofList o.name.chars
    connected := o.connected
    used := o.picture.isSome
    topLeft := o.picture.elim ⟨0, 0⟩ fun p => ⟨p.x.toInt, p.y.toInt⟩
    modeIndex := 0
    modes := []
    power := .on
    scale := 1
    form := .monitor
    size := o.extent.elim ⟨0, 0⟩ fun e => ⟨e.width.toNat, e.height.toNat⟩
    edid := none }
  current := none
  pending := none
  inEdid := false
  hex := []

private theorem ofHeader_eq (o : Description) :
    ofHeader {
      name := o.name.chars
      connected := o.connected
      place := o.picture.map fun p => (signedChars p.x.toInt, signedChars p.y.toInt)
      extent := o.extent.map fun e => (wordChars e.width, wordChars e.height) } =
    .ok (opened o) := by
  rw [ofHeader, opened]
  cases o.picture with
  | none =>
    cases o.extent with
    | none => rfl
    | some e =>
      simp only [Option.map_some, number_wordChars]
      rfl
  | some p =>
    cases o.extent with
    | none =>
      simp only [Option.map_some, signedNumber_signedChars]
      rfl
    | some e =>
      simp only [Option.map_some, signedNumber_signedChars, number_wordChars]
      rfl

/-- The draft that all lines of an output lead to. -/
def completed (o : Description) : Draft :=
  (((opened o).scaled o.factor).withOctets (o.edid.elim [] Block.octets)).withModes o.modes

/-- The lines of an output lead from its header to all that is known about it. -/
theorem Leads.details (o : Description) : Leads o.details (opened o) (completed o) := by
  have hedid : ∀ d, Leads (o.edid.elim [] Block.lines) d
      (d.withOctets (o.edid.elim [] Block.octets)) := by
    intro d
    cases o.edid with
    | none =>
      have hnone : d.withOctets [] = d := by
        rw [withOctets, show Hex.encode [] = [] from rfl, List.append_nil]
      exact hnone.symm ▸ .nil d
    | some k => exact .block k d
  have hmodes := Leads.modes o.modes
    (((opened o).scaled o.factor).withOctets (o.edid.elim [] Block.octets))
  rw [foldl_withMode o.current_le rfl] at hmodes
  exact (Leads.remarks o.belowHeader _).append
    (((Leads.transform o _).append (.remarks o.belowTransform _)).append ((hedid _).append hmodes))

private theorem encode_octets_ne_nil (k : Block) : Hex.encode k.octets ≠ [] := by
  have hpos : 0 < k.octets.length := by
    rw [Block.octets]
    cases hrows : k.rows with
    | nil => exact absurd hrows k.ne_nil
    | cons r rows =>
      rw [List.flatMap_cons, List.length_append, r.length_eq]
      omega
  refine List.ne_nil_of_length_pos ?_
  rw [length_encode]
  omega

/-- What is known at the end is the output described. -/
theorem finish_completed (o : Description) (b : Bool) :
    finish { completed o with inEdid := b } = .ok o.output := by
  have hindex : (completed o).current = o.modes.findIdx? Listing.isCurrent := by
    simp only [completed, withModes, withOctets, scaled, opened, List.length_nil, Nat.zero_add,
      Option.map_id', Option.or_none]
  have hhex : (completed o).hex = Hex.encode (o.edid.elim [] Block.octets) := rfl
  have hnone : Hex.encode [] = [] := rfl
  -- the octets decide whether there is an EDID, so an EDID without octets would be lost
  simp only [finish, hhex, hindex, Description.output]
  cases o.edid with
  | none =>
    rw [Option.elim_none, if_pos hnone]
    rfl
  | some k =>
    rw [Option.elim_some, if_neg (encode_octets_ne_nil k), decodeHex_encode]
    rfl

end Draft

namespace Reader

/-- Lines that are no headers belong to the output that is being read. -/
theorem foldlM_readLine {ls : List (List Char)} (h : ∀ l ∈ ls, header? l = none)
    (outputs : List Output) (d : Draft) :
    ls.foldlM readLine ⟨outputs, some d⟩ =
      (ls.foldlM Draft.readLine d).map fun e => ⟨outputs, some e⟩ := by
  induction ls generalizing d with
  | nil => rfl
  | cons l ls ih =>
    obtain ⟨hl, hls⟩ := List.forall_mem_cons.mp h
    have hread : readLine ⟨outputs, some d⟩ l =
        (d.readLine l).map fun e => (⟨outputs, some e⟩ : Reader) := by
      simp only [readLine, hl]
      cases d.readLine l <;> rfl
    rw [List.foldlM_cons, List.foldlM_cons, hread]
    cases d.readLine l with
    | error g => rfl
    | ok e => exact ih hls e

/-- Lines before the first header change nothing. -/
theorem foldlM_preface (ps : List Preface) : (ps.map Preface.line).foldlM readLine {} = .ok {} := by
  induction ps with
  | nil => rfl
  | cons p ps ih =>
    rw [List.map_cons, List.foldlM_cons, readLine, p.header?_eq]
    exact ih

/-- The lines of an output complete the output before it and open this one. -/
theorem foldlM_lines (o : Description) {r : Reader} {outputs : List Output}
    (h : r.finish = .ok outputs) :
    ∃ r' : Reader, o.lines.foldlM readLine r = .ok r' ∧
      r'.finish = .ok (outputs ++ [o.output]) := by
  obtain ⟨b, hdetails⟩ := Draft.Leads.details o false
  have hheader : readLine r o.header = .ok ⟨outputs, some (Draft.opened o)⟩ := by
    simp only [readLine, o.header?_header, Draft.ofHeader_eq, h]
    rfl
  refine ⟨⟨outputs, some { Draft.completed o with inEdid := b }⟩, ?_, ?_⟩
  · rw [Description.lines, List.foldlM_cons, hheader]
    refine (foldlM_readLine (fun l hl => header?_eq_none (o.isDetail_of_mem hl).indented) outputs
      (Draft.opened o)).trans ?_
    exact congrArg (Except.map fun e => (⟨outputs, some e⟩ : Reader)) hdetails
  · simp only [finish, Draft.finish_completed]
    rfl

/-- The lines of further outputs add these outputs. -/
theorem foldlM_flatMap_lines (ds : List Description) {r : Reader} {outputs : List Output}
    (h : r.finish = .ok outputs) :
    ∃ r' : Reader, (ds.flatMap Description.lines).foldlM readLine r = .ok r' ∧
      r'.finish = .ok (outputs ++ ds.map Description.output) := by
  induction ds generalizing r outputs with
  | nil => exact ⟨r, rfl, by rw [h, List.map_nil, List.append_nil]⟩
  | cons o ds ih =>
    obtain ⟨r', hlines, hr'⟩ := foldlM_lines o h
    obtain ⟨r'', hrest, hr''⟩ := ih hr'
    refine ⟨r'', ?_, ?_⟩
    · rw [List.flatMap_cons, List.foldlM_append, hlines]
      exact hrest
    · rw [hr'', List.append_assoc, List.singleton_append, List.map_cons]

end Reader

/-- The report about outputs reads as these outputs, one for each description and in their order,
whatever stands before them and whatever else is remarked below their headers. -/
theorem read_report (preface : List Preface) (ds : List Description) :
    read (report preface ds) = .ok ⟨ds.map Description.output⟩ := by
  have hstart : Reader.finish {} = .ok [] := rfl
  obtain ⟨r, hlines, hfinish⟩ := Reader.foldlM_flatMap_lines ds hstart
  have hread : readLines (preface.map Preface.line ++ ds.flatMap Description.lines) =
      .ok (ds.map Description.output) := by
    rw [readLines, List.foldlM_append, Reader.foldlM_preface]
    change (ds.flatMap Description.lines).foldlM Reader.readLine {} >>= Reader.finish = _
    rw [hlines]
    exact hfinish
  rw [read, lines_report, hread]

end Displays.Xrandr
