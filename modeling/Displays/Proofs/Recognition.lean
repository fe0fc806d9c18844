import Displays.Proofs.Descriptions

/-!
# Which line is which

Every line of a report is recognised as what it was written for, with the digits that were written,
and as nothing that is tried before it. What keeps the kinds apart is a character that the other
kind has no place for, or the word behind the indentation.
-/

namespace Displays.Xrandr

open Displays.Decimal (digitChars digitChars_ne_nil isDigit_of_mem_digitChars isDigit_of_mem_padded
  length_padded padded signedChars toList_padded_ne_nil)
open Displays.Text

variable {s line : List Char} {c : Char} {n : Nat}

section Characters

/-- Decimal digits are hexadecimal ones. -/
theorem isHexDigit_of_isDigit (h : c.isDigit = true) : isHexDigit c = true := by
  rw [isHexDigit, h, Bool.true_or]

/-- The hexadecimal digits lie in two ranges. -/
theorem toNat_of_isHexDigit (h : isHexDigit c = true) :
    (48 ≤ c.toNat ∧ c.toNat ≤ 57) ∨ (97 ≤ c.toNat ∧ c.toNat ≤ 102) := by
  rw [isHexDigit, Bool.or_eq_true, Char.isDigit_iff_toNat, Bool.and_eq_true, decide_eq_true_eq,
    decide_eq_true_eq] at h
  exact h

/-- A hexadecimal digit is no blank. -/
theorem isBlank_eq_false (h : isHexDigit c = true) : isBlank c = false := by
  have hrange := toNat_of_isHexDigit h
  rw [Bool.eq_false_iff]
  intro hblank
  simp only [isBlank, Bool.or_eq_true, Bool.and_eq_true, decide_eq_true_eq, beq_iff_eq] at hblank
  omega

private theorem isHexDigit_digitChar (h : n < 16) : isHexDigit n.digitChar = true := by
  match n with
  | 0 | 1 | 2 | 3 | 4 | 5 | 6 | 7 | 8 | 9 | 10 | 11 | 12 | 13 | 14 | 15 => rfl
  | n + 16 => omega

/-- The digits of an id are hexadecimal ones. -/
theorem isHexDigit_of_mem_hexDigits (h : c ∈ hexDigits n) : isHexDigit c = true := by
  induction n using Nat.strongRecOn with
  | ind n ih =>
    rw [hexDigits] at h
    by_cases hn : n < 16
    · rw [Nat.toDigits_of_lt_base hn, List.mem_singleton] at h
      exact h ▸ isHexDigit_digitChar hn
    · rw [Nat.toDigits_of_base_le (by decide) (by omega), List.mem_append, List.mem_singleton] at h
      rcases h with h | rfl
      · exact ih (n / 16) (by omega) h
      · exact isHexDigit_digitChar (Nat.mod_lt n (by decide))

private theorem isHexDigit_digit (h : n < 16) : isHexDigit (Hex.digit n) = true := by
  match n with
  | 0 | 1 | 2 | 3 | 4 | 5 | 6 | 7 | 8 | 9 | 10 | 11 | 12 | 13 | 14 | 15 => rfl
  | n + 16 => omega

/-- Octets are written in hexadecimal digits. -/
theorem isHexDigit_of_mem_encode {bytes : List UInt8} (h : c ∈ Hex.encode bytes) :
    isHexDigit c = true := by
  obtain ⟨b, _, h⟩ := List.mem_flatMap.mp h
  have hb := b.toNat_lt
  simp only [List.mem_cons, List.not_mem_nil, or_false] at h
  rcases h with rfl | rfl
  · exact isHexDigit_digit (by omega)
  · exact isHexDigit_digit (by omega)

/-- An octet has two digits. -/
theorem length_encode (bytes : List UInt8) : (Hex.encode bytes).length = 2 * bytes.length := by
  induction bytes with
  | nil => rfl
  | cons b bytes ih =>
    change (Hex.encode bytes).length + 2 = _
    rw [ih, List.length_cons, Nat.mul_succ]

end Characters

section Scanners

/-- Blanks are taken up to the next other character. -/
theorem Gap.blanks?_append (g : Gap) (hs : Stops isBlank s) : blanks? (g.chars ++ s) = some s :=
  Text.blanks?_append g.ne_nil g.isBlank_of_mem hs

/-- Blanks begin with a blank. -/
theorem Gap.exists_cons (g : Gap) : ∃ c l, g.chars = c :: l ∧ isBlank c = true := by
  cases h : g.chars with
  | nil => exact absurd h g.ne_nil
  | cons c l => exact ⟨c, l, rfl, g.isBlank_of_mem c (h ▸ List.mem_cons_self)⟩

/-- A name is taken as one word up to the next blank. -/
theorem Name.word?_append (w : Name) (hs : Stops (!isBlank ·) s) :
    word? (w.chars ++ s) = some (w.chars, s) :=
  run?_append w.ne_nil (fun c hc => by rw [w.isBlank_of_mem c hc]; rfl) hs

/-- A name does not begin with a blank. -/
theorem Name.stops_append (w : Name) (s : List Char) : Stops isBlank (w.chars ++ s) := by
  refine Stops.append ?_ w.ne_nil s
  cases h : w.chars with
  | nil => rfl
  | cons c l => exact w.isBlank_of_mem c (h ▸ List.mem_cons_self)

/-- Digits are taken up to the next other character. -/
theorem digits?_append {l : List Char} (hne : l ≠ []) (hd : ∀ c ∈ l, c.isDigit = true)
    (hs : Stops isDecimalDigit s) : digits? (l ++ s) = some (l, s) :=
  run?_append hne (fun c hc => isDecimalDigit_of_isDigit (hd c hc)) hs

/-- A number is taken with all its digits. -/
theorem digits?_digitChars (n : Nat) (hs : Stops isDecimalDigit s) :
    digits? (digitChars n ++ s) = some (digitChars n, s) :=
  digits?_append (digitChars_ne_nil n) (fun _ => isDigit_of_mem_digitChars) hs

/-- A padded number is taken with the zeros in front. -/
theorem digits?_padded (width n : Nat) (hs : Stops isDecimalDigit s) :
    digits? ((padded width n).toList ++ s) = some ((padded width n).toList, s) :=
  digits?_append (toList_padded_ne_nil width n) (fun _ => isDigit_of_mem_padded) hs

/-- A number begins with a digit. -/
theorem exists_digitChars_eq_cons (n : Nat) :
    ∃ c l, digitChars n = c :: l ∧ c.isDigit = true := by
  cases h : digitChars n with
  | nil => exact absurd h (digitChars_ne_nil n)
  | cons c l => exact ⟨c, l, rfl, isDigit_of_mem_digitChars (n := n) (h ▸ List.mem_cons_self)⟩

/-- A number does not begin with a blank. -/
theorem stops_digitChars_append (n : Nat) (s : List Char) : Stops isBlank (digitChars n ++ s) := by
  obtain ⟨c, l, h, hc⟩ := exists_digitChars_eq_cons n
  rw [h]
  exact isBlank_eq_false (isHexDigit_of_isDigit hc)

/-- A number is taken with its sign. -/
theorem signedDigits?_signedChars (n : Int) (hs : Stops isDecimalDigit s) :
    signedDigits? (signedChars n ++ s) = some (signedChars n, s) := by
  by_cases hn : n < 0
  · rw [signedChars, if_pos hn, List.cons_append, signedDigits?, digits?_digitChars _ hs]
    rfl
  · obtain ⟨c, l, h, hc⟩ := exists_digitChars_eq_cons n.natAbs
    have hdigits := digits?_digitChars n.natAbs hs
    rw [signedChars, if_neg hn]
    rw [h] at hdigits ⊢
    rw [List.cons_append, signedDigits?, ← List.cons_append, hdigits]
    exact fun _ heq => (Decimal.ne_of_isDigit hc).2 (List.cons.inj heq).1

/-- A number with places does not begin with a blank. -/
theorem Fixed.stops_append (f : Fixed) (s : List Char) : Stops isBlank (f.chars ++ s) := by
  rw [Fixed.chars, List.append_assoc]
  exact stops_digitChars_append _ _

/-- Of a number with places, the whole part is taken first. -/
theorem Fixed.digits?_append (f : Fixed) (s : List Char) :
    digits? (f.chars ++ s) =
      some (digitChars f.whole, '.' :: ((padded f.places f.part).toList ++ s)) := by
  rw [Fixed.chars, List.append_assoc]
  exact digits?_digitChars _ rfl

/-- Blanks are taken up to a word that does not begin with one. -/
theorem Gap.blanks?_literal (g : Gap) {w : List Char} (hw : Stops isBlank w) (hne : w ≠ []) :
    blanks? (g.chars ++ (w ++ s)) = some (w ++ s) :=
  g.blanks?_append (hw.append hne s)

private theorem blanks?_space_literal {w : List Char} (hw : Stops isBlank w) (hne : w ≠ []) :
    blanks? (' ' :: (w ++ s)) = some (w ++ s) :=
  blanks?_space (hw.append hne s)

end Scanners

section Modes

/-- A word occurs in a text exactly if it stands in it without a gap. -/
theorem occurs_iff {word : List Char} : occurs word s = true ↔ word <:+: s := by
  rw [occurs, isSome_last?_iff, List.infix_iff_prefix_suffix]
  refine exists_congr fun t => ?_
  rw [Option.isSome_iff_exists, and_comm]
  refine and_congr_left fun _ => exists_congr fun r => ?_
  rw [literal?_eq_some_iff, eq_comm]

private theorem hexDigits_ne_nil (n : Nat) : hexDigits n ≠ [] :=
  Nat.toDigits_ne_nil

/-- An id is taken with all its digits. -/
theorem run?_hexDigits (n : Nat) (hs : Stops isHexDigit s) :
    run? isHexDigit (hexDigits n ++ s) = some (hexDigits n, s) :=
  run?_append (hexDigits_ne_nil n) (fun _ => isHexDigit_of_mem_hexDigits) hs

/-- The line that opens a mode is recognised, and tells whether the mode is the current one. -/
theorem Listing.mode?_opening (m : Listing) : mode? m.opening = some m.isCurrent := by
  have hcurrent : occurs "*current".toList (' ' :: m.flags.chars) = m.isCurrent := by
    rw [Bool.eq_iff_iff, occurs_iff, isCurrent_iff]
    simp only [String.reduceToList]
    rw [List.infix_cons_iff, List.cons_prefix_cons]
    exact or_iff_right fun h => absurd h.1 (by decide)
  have hplaces : Stops isDecimalDigit ("MHz".toList ++ ' ' :: m.flags.chars) :=
    Stops.append (l := "MHz".toList) (by decide) (by decide) _
  simp only [mode?, Listing.opening, Option.bind_eq_bind, Option.bind_some, Option.pure_def,
    literal?_append, m.indent.blanks?_append (m.name.stops_append _),
    m.name.word?_append (s := ' ' :: _) rfl,
    blanks?_space_literal (w := "(0x".toList) rfl (by decide),
    run?_hexDigits m.id.toNat (s := ')' :: _) rfl, literal?, ite_true,
    blanks?_space (m.clock.stops_append _), m.clock.digits?_append, digits?_padded _ _ hplaces,
    hcurrent]

end Modes

section Exclusions

/-- Of blanks around a word, a character that is neither a blank nor in the word is in what follows
the word. -/
theorem all_isBlank_eq_false {l w t : List Char} (hc : c ∈ l ++ (w ++ t))
    (hl : ∀ c ∈ l, isBlank c = true) (hb : isBlank c = false) (hw : c ∉ w) :
    t.all isBlank = false := by
  rw [List.mem_append, List.mem_append] at hc
  rcases hc with hc | hc | hc
  · rw [hl c hc] at hb
    cases hb
  · exact absurd hc hw
  · exact List.all_eq_false.mpr ⟨c, hc, Bool.eq_false_iff.mp hb⟩

/-- A line with a character that is neither a blank nor a hexadecimal digit has no octets. -/
theorem edidData?_eq_none (hc : c ∈ line) (hb : isBlank c = false) (hx : isHexDigit c = false) :
    edidData? line = none := by
  cases hs : blanks? line with
  | none => rw [edidData?, hs]; rfl
  | some s =>
    obtain ⟨l, rfl, hl⟩ := of_blanks?_eq_some hs
    cases hd : exactly? isHexDigit 32 s with
    | none =>
      simp only [edidData?, hs, hd, Option.bind_eq_bind, Option.bind_some, Option.bind_none]
    | some r =>
      obtain ⟨rfl, hdigits⟩ := of_exactly?_eq_some hd
      have hw : c ∉ r.1 := fun hm => Bool.eq_false_iff.mp hx (hdigits c hm)
      simp only [edidData?, hs, hd, all_isBlank_eq_false hc hl hb hw, Option.bind_eq_bind,
        Option.bind_some, Bool.false_eq_true, ite_false]

/-- A line with a character that is neither a blank nor one of the word opens no EDID. -/
theorem isEdidStart_eq_false (hc : c ∈ line) (hb : isBlank c = false)
    (hw : c ∉ "EDID:".toList) : isEdidStart line = false := by
  cases hs : blanks? line with
  | none => rw [isEdidStart, hs]; rfl
  | some s =>
    obtain ⟨l, rfl, hl⟩ := of_blanks?_eq_some hs
    cases hd : literal? "EDID:".toList s with
    | none =>
      simp only [isEdidStart, hs, hd, Option.bind_eq_bind, Option.bind_some, Option.any_none]
    | some t =>
      obtain rfl := literal?_eq_some_iff.mp hd
      simp only [isEdidStart, hs, hd, all_isBlank_eq_false hc hl hb hw, Option.bind_eq_bind,
        Option.bind_some, Option.any_some]

/-- A line with such a character neither opens nor continues an EDID. -/
theorem not_edid_of_mem (hc : c ∈ line) (hb : isBlank c = false) (hx : isHexDigit c = false)
    (hw : c ∉ "EDID:".toList) : edidData? line = none ∧ isEdidStart line = false :=
  ⟨edidData?_eq_none hc hb hx, isEdidStart_eq_false hc hb hw⟩

/-- An indented line is no header. -/
theorem header?_eq_none (h : line.head?.any isBlank = true) : header? line = none := by
  have hstops : Stops (!isBlank ·) line := by
    cases line with
    | nil => rfl
    | cons c line =>
      have hc : isBlank c = true := h
      rw [stops_cons, hc]
      rfl
  rw [header?, word?, run?_of_stops hstops]
  rfl

/-- What begins with blanks is indented. -/
theorem Gap.head?_append (g : Gap) (s : List Char) : (g.chars ++ s).head?.any isBlank = true := by
  obtain ⟨c, l, h, hc⟩ := g.exists_cons
  rw [h]
  exact hc

end Exclusions

section Details

/-- The line that opens an EDID is recognised. -/
theorem Block.isEdidStart_opening (b : Block) : isEdidStart b.opening = true := by
  simp only [isEdidStart, Block.opening, Option.bind_eq_bind, Option.bind_some, literal?_append,
    b.indent.blanks?_literal (w := "EDID:".toList) (by decide) (by decide)]
  rfl

/-- The line that opens an EDID has no octets. -/
theorem Block.edidData?_opening (b : Block) : edidData? b.opening = none :=
  edidData?_eq_none (c := ':') (by simp [Block.opening]) rfl rfl

/-- A line of octets is recognised with its digits. -/
theorem Row.edidData?_line (r : Row) : edidData? r.line = some (Hex.encode r.octets) := by
  have hlength : (Hex.encode r.octets).length = 32 := by
    rw [length_encode, r.length_eq]
  have hblanks : blanks? (r.indent.chars ++ Hex.encode r.octets) = some (Hex.encode r.octets) := by
    refine r.indent.blanks?_append ?_
    cases h : Hex.encode r.octets with
    | nil => rfl
    | cons c l => exact isBlank_eq_false (isHexDigit_of_mem_encode (h ▸ List.mem_cons_self))
  have hhex : ∀ c ∈ Hex.encode r.octets, isHexDigit c = true := fun _ => isHexDigit_of_mem_encode
  have hexactly := exactly?_append hhex []
  rw [hlength, List.append_nil] at hexactly
  simp only [edidData?, Row.line, hblanks, hexactly, Option.bind_eq_bind, Option.bind_some,
    List.all_nil, ite_true]

/-- The line of the transformation is recognised with its factor. -/
theorem Description.transform?_transform (d : Description) :
    transform? d.transform = some d.factor.chars := by
  simp only [transform?, Description.transform, Option.bind_eq_bind, Option.bind_some,
    Option.pure_def, d.indent.blanks?_literal (w := "Transform:".toList) (by decide) (by decide),
    literal?_append, d.gap.blanks?_append (d.factor.stops_append _), d.factor.digits?_append,
    literal?, ite_true, digits?_padded _ _ (s := ' ' :: _) rfl, blank?_cons (c := ' ') rfl]
  rfl

/-- The line of the transformation has no place in an EDID. -/
theorem Description.not_edid_transform (d : Description) :
    edidData? d.transform = none ∧ isEdidStart d.transform = false :=
  not_edid_of_mem (c := 'T') (by simp [Description.transform]) rfl rfl (by decide)

/-- The line that opens a mode has no place in an EDID. -/
theorem Listing.not_edid_opening (m : Listing) :
    edidData? m.opening = none ∧ isEdidStart m.opening = false :=
  not_edid_of_mem (c := '(') (by simp [Listing.opening]) rfl rfl (by decide)

/-- Even a mode that is named like the transformation is none: its number is no factor. -/
theorem Listing.transform?_opening (m : Listing) : transform? m.opening = none := by
  simp only [transform?, Listing.opening, Option.bind_eq_bind, Option.bind_some,
    m.indent.blanks?_append (m.name.stops_append _)]
  -- the name may begin with the word for the transformation, or be it
  cases h : literal? "Transform:".toList (m.name.chars ++ ' ' :: ("(0x".toList ++
      (hexDigits m.id.toNat ++ ')' :: ' ' :: (m.clock.chars ++
        ("MHz".toList ++ ' ' :: m.flags.chars))))) with
  | none => rfl
  | some t =>
    rw [Option.bind_some]
    have hword : ∀ c ∈ "Transform:".toList, isBlank c = false := forall_isBlank_eq_false rfl
    rcases rest_of_literal?_append hword m.name.isBlank_of_mem rfl h with rfl | ht
    · have hdigits := run?_of_stops (p := isDecimalDigit) (Stops.append (l := "(0x".toList)
        (s := hexDigits m.id.toNat ++ ')' :: ' ' :: (m.clock.chars ++
          ("MHz".toList ++ ' ' :: m.flags.chars))) (by decide) (by decide))
      rw [blanks?_space_literal (w := "(0x".toList) (by decide) (by decide), Option.bind_some,
        digits?, hdigits, Option.bind_none]
    · rw [blanks?_of_stops ht, Option.bind_none]

private theorem Gap.stops_append (g : Gap) (s : List Char) : Stops (!isBlank ·) (g.chars ++ s) := by
  obtain ⟨c, l, h, hc⟩ := g.exists_cons
  rw [h, List.cons_append, stops_cons, hc]
  rfl

/-- A line whose second word is not in parentheses opens no mode. -/
theorem mode?_eq_none (indent gap : Gap) {w : List Char} (hw : ∀ c ∈ w, isBlank c = false)
    (hne : w ≠ []) (hs : Stops isBlank s) (hopen : literal? "(0x".toList s = none) :
    mode? (indent.chars ++ (w ++ (gap.chars ++ s))) = none := by
  have hindent := indent.blanks?_append ((Name.mk w hne hw).stops_append (gap.chars ++ s))
  have hword := (Name.mk w hne hw).word?_append (gap.stops_append s)
  simp only [mode?, hindent, hword, gap.blanks?_append hs, hopen, Option.bind_eq_bind,
    Option.bind_some, Option.bind_none]

/-- A line that begins with another word has no transformation. -/
theorem transform?_eq_none (indent : Gap) {w : List Char} (hw : Stops isBlank w) (hne : w ≠ [])
    (hword : literal? "Transform:".toList (w ++ s) = none) :
    transform? (indent.chars ++ (w ++ s)) = none := by
  simp only [transform?, indent.blanks?_literal hw hne, hword, Option.bind_eq_bind,
    Option.bind_some, Option.bind_none]

/-- The line of the horizontal timings is recognised with its width. -/
theorem Horizontal.width?_line (h : Horizontal) : width? h.line = some (wordChars h.width) := by
  simp only [width?, Horizontal.line, Option.bind_eq_bind, Option.bind_some, Option.pure_def,
    h.indent.blanks?_literal (w := "h:".toList) (by decide) (by decide), literal?_append,
    h.label.blanks?_literal (w := "width".toList) (by decide) (by decide), wordChars,
    h.gap.blanks?_append (stops_digitChars_append _ _), digits?_digitChars _ (s := ' ' :: _) rfl,
    blank?_cons (c := ' ') rfl]

/-- The line of the horizontal timings has no place in an EDID. -/
theorem Horizontal.not_edid_line (h : Horizontal) :
    edidData? h.line = none ∧ isEdidStart h.line = false :=
  not_edid_of_mem (c := 'h') (by simp [Horizontal.line]) rfl rfl (by decide)

/-- The line of the horizontal timings has no transformation. -/
theorem Horizontal.transform?_line (h : Horizontal) : transform? h.line = none :=
  transform?_eq_none h.indent (w := "h:".toList) (by decide) (by decide) (by simp [literal?])

/-- The line of the horizontal timings opens no mode. -/
theorem Horizontal.mode?_line (h : Horizontal) : mode? h.line = none :=
  mode?_eq_none h.indent h.label (forall_isBlank_eq_false rfl) (by decide)
    (Stops.append (l := "width".toList) (by decide) (by decide) _) (by simp [literal?])

/-- No clock begins behind the word. -/
theorem last?_clock?_append (h : 'c' ∉ s) :
    last? clock? ("clock".toList ++ s) = clock? ("clock".toList ++ s) := by
  have hother : ∀ c s, (c == 'c') = false → clock? (c :: s) = none := by
    intro c s hc
    have hne : 'c' ≠ c := (beq_eq_false_iff_ne.mp hc).symm
    simp only [clock?, String.reduceToList, literal?, if_neg hne, Option.bind_eq_bind,
      Option.bind_none]
  have hbehind : last? clock? ('k' :: s) = none := by
    refine last?_eq_none hother rfl fun c hc => beq_eq_false_iff_ne.mpr ?_
    rintro rfl
    exact h ((List.mem_cons.mp hc).resolve_left (by decide))
  -- the word has its first letter once more within it
  have hinner : last? clock? ('c' :: 'k' :: s) = none := by
    rw [last?_cons_of_none hbehind]
    simp [clock?, literal?]
  have hlater : last? clock? ('l' :: 'o' :: 'c' :: 'k' :: s) = none :=
    (last?_append hother (l := ['l', 'o']) (by simp) _).trans hinner
  exact last?_cons_of_none hlater 'c'

private theorem Timing.not_mem_clock (v : Timing) : 'c' ∉ v.clock := by
  intro hc
  simp only [Timing.clock, List.mem_append, List.mem_cons] at hc
  rcases hc with hc | hc | hc | hc | hc
  · exact Bool.noConfusion (v.rate.isBlank_of_mem _ hc)
  · exact Bool.noConfusion (isDigit_of_mem_digitChars hc)
  · cases hc
  · exact Bool.noConfusion (isDigit_of_mem_padded hc)
  · revert hc
    decide

private theorem Timing.clock?_clock (v : Timing) :
    clock? ("clock".toList ++ v.clock) =
      some (digitChars v.hertz, (padded 2 v.hundredths).toList) := by
  have hexactly := exactly?_append (p := isDecimalDigit) (l := (padded 2 v.hundredths).toList)
    (fun _ hc => isDecimalDigit_of_isDigit (isDigit_of_mem_padded hc)) "Hz".toList
  rw [length_padded (by decide) v.hundredths.isLt] at hexactly
  simp only [Xrandr.clock?, Timing.clock, literal?_append, literal?_self,
    v.rate.blanks?_append (stops_digitChars_append _ _), digits?_digitChars _ (s := '.' :: _) rfl,
    literal?, ite_true, hexactly, Option.bind_eq_bind, Option.bind_some, Option.pure_def]

/-- The line of the vertical timings is recognised with its height and its refresh rate. -/
theorem Timing.height?_line (v : Timing) :
    height? v.line =
      some ⟨wordChars v.height, digitChars v.hertz, (padded 2 v.hundredths).toList⟩ := by
  have hclock := (last?_clock?_append v.not_mem_clock).trans v.clock?_clock
  simp only [height?, Timing.line, Option.bind_eq_bind, Option.bind_some, Option.pure_def,
    v.indent.blanks?_literal (w := "v:".toList) (by decide) (by decide), literal?_append,
    v.label.blanks?_literal (w := "height".toList) (by decide) (by decide), wordChars,
    v.gap.blanks?_append (stops_digitChars_append _ _), digits?_digitChars _ (s := ' ' :: _) rfl,
    blank?_cons (c := ' ') rfl, last?_append_of_some hclock]

/-- The line of the vertical timings has no place in an EDID. -/
theorem Timing.not_edid_line (v : Timing) :
    edidData? v.line = none ∧ isEdidStart v.line = false :=
  not_edid_of_mem (c := 'v') (by simp [Timing.line]) rfl rfl (by decide)

/-- The line of the vertical timings has no transformation. -/
theorem Timing.transform?_line (v : Timing) : transform? v.line = none :=
  transform?_eq_none v.indent (w := "v:".toList) (by decide) (by decide) (by simp [literal?])

/-- The line of the vertical timings opens no mode. -/
theorem Timing.mode?_line (v : Timing) : mode? v.line = none :=
  mode?_eq_none v.indent v.label (forall_isBlank_eq_false rfl) (by decide)
    (Stops.append (l := "height".toList) (by decide) (by decide) _) (by simp [literal?])

/-- The line of the vertical timings gives no width. -/
theorem Timing.width?_line (v : Timing) : width? v.line = none := by
  have hword : ∀ s, literal? "h:".toList ("v:".toList ++ s) = none := fun s => by simp [literal?]
  simp only [width?, Timing.line, v.indent.blanks?_literal (w := "v:".toList) (by decide)
    (by decide), hword, Option.bind_eq_bind, Option.bind_some, Option.bind_none]

end Details

section Headers

/-- The word for the state is taken as that state. -/
theorem Description.status?_status (d : Description) (s : List Char) :
    status? (d.status ++ s) = some (d.connected, s) := by
  cases hc : d.connected with
  | true =>
    rw [Description.status, hc, if_pos rfl, status?, literal?_append]
    rfl
  | false =>
    have hother : literal? "connected".toList ("disconnected".toList ++ s) = none := by
      simp [literal?]
    rw [Description.status, hc, if_neg Bool.false_ne_true, status?, hother, literal?_append]
    rfl

private theorem extent?_cons (h : isBlank c = false) (s : List Char) : extent? (c :: s) = none := by
  simp only [extent?, millimetres?, blank?_of_stops (stops_cons.mpr h), Option.bind_eq_bind,
    Option.bind_none]

private theorem millimetres?_wordChars (n : UInt32) (s : List Char) :
    millimetres? (' ' :: (wordChars n ++ ("mm".toList ++ s))) = some (wordChars n, s) := by
  have hdigits := digits?_digitChars n.toNat
    (Stops.append (p := isDecimalDigit) (l := "mm".toList) (by decide) (by decide) s)
  have hmm : literal? ['m', 'm'] ("mm".toList ++ s) = some s := by simp [literal?]
  simp only [millimetres?, blank?_cons (c := ' ') rfl, wordChars, hdigits, hmm,
    Option.bind_eq_bind, Option.bind_some, Option.pure_def]

private theorem extent?_chars (e : Extent) :
    extent? e.chars = some (wordChars e.width, wordChars e.height) := by
  have hheight := millimetres?_wordChars e.height []
  rw [List.append_nil] at hheight
  simp only [extent?, Extent.chars, millimetres?_wordChars, blank?_cons (c := ' ') rfl, hheight,
    literal?, ite_true, Option.bind_eq_bind, Option.bind_some, Option.pure_def]

private theorem isBlank_of_mem_wordChars {n : UInt32} (h : c ∈ wordChars n) : isBlank c = false :=
  isBlank_eq_false (isHexDigit_of_isDigit (isDigit_of_mem_digitChars h))

/-- An extent is found at its beginning and at no later place. -/
theorem last?_extent?_chars (e : Extent) :
    last? extent? e.chars = some (wordChars e.width, wordChars e.height) := by
  have hmm : ∀ n : UInt32, ∀ c ∈ wordChars n ++ "mm".toList, isBlank c = false := by
    intro n c hc
    rcases List.mem_append.mp hc with hc | hc
    · exact isBlank_of_mem_wordChars hc
    · exact forall_isBlank_eq_false (l := "mm".toList) rfl c hc
  have hheight : last? extent? (' ' :: (wordChars e.height ++ "mm".toList)) = none := by
    have hwords := millimetres?_wordChars e.height []
    rw [List.append_nil] at hwords
    rw [last?_cons_of_none (last?_eq_none (fun _ s hc => extent?_cons hc s) rfl (hmm e.height))]
    simp only [extent?, hwords, blank?, Option.bind_eq_bind, Option.bind_some, Option.bind_none]
  have hbetween :
      last? extent? (' ' :: 'x' :: ' ' :: (wordChars e.height ++ "mm".toList)) = none := by
    rw [last?_cons_of_none ((last?_cons_of_none hheight 'x').trans (extent?_cons rfl _))]
    rfl
  have hlater : last? extent? (wordChars e.width ++ ("mm".toList ++
      ' ' :: 'x' :: ' ' :: (wordChars e.height ++ "mm".toList))) = none := by
    rw [← List.append_assoc, last?_append (fun _ s hc => extent?_cons hc s) (hmm e.width), hbetween]
  rw [Extent.chars, last?_cons_of_none hlater]
  exact extent?_chars e

/-- The extent is found behind anything without one. -/
theorem last?_extent?_append {l : List Char} (h : last? extent? l = none) (e : Option Extent) :
    last? extent? (l ++ e.elim [] Extent.chars) =
      e.map fun e => (wordChars e.width, wordChars e.height) := by
  cases e with
  | none => rw [Option.elim_none, List.append_nil, h, Option.map_none]
  | some e => exact last?_append_of_some (last?_extent?_chars e) l

/-- The size and the position of a picture are taken, and the position is given. -/
theorem geometry?_chars (p : Picture) (s : List Char) :
    geometry? (p.chars ++ s) = some ((signedChars p.x.toInt, signedChars p.y.toInt),
      ' ' :: ("(0x".toList ++ (hexDigits p.id.toNat ++ (") normal".toList ++ s)))) := by
  simp only [Picture.chars, geometry?, List.cons_append, List.append_assoc, wordChars,
    blank?_cons (c := ' ') rfl, digits?_digitChars _ (s := 'x' :: _) rfl,
    digits?_digitChars _ (s := '+' :: _) rfl, literal?, ite_true,
    signedDigits?_signedChars _ (s := '+' :: _) rfl,
    signedDigits?_signedChars _ (s := ' ' :: _) rfl, Option.bind_eq_bind, Option.bind_some,
    Option.pure_def]

private theorem Description.digits?_trailer (d : Description) : digits? d.trailer = none :=
  run?_of_stops (Stops.append (l := "(normal left inverted right x axis y axis)".toList)
    (by decide) (by decide) _)

private theorem last?_extent?_picture (n : Nat) :
    last? extent? ("(0x".toList ++ (hexDigits n ++ (") normal".toList ++
      ' ' :: "(normal left inverted right x axis y axis)".toList))) = none := by
  have hother : ∀ c s, isBlank c = false → extent? (c :: s) = none :=
    fun _ s hc => extent?_cons hc s
  rw [last?_append hother (forall_isBlank_eq_false rfl), last?_append hother fun c hc =>
    isBlank_eq_false (isHexDigit_of_mem_hexDigits hc)]
  decide

/-- The place is taken, and what follows holds the extent. -/
theorem Description.place?_placing (d : Description) :
    ∃ s, last? extent? s = d.extent.map (fun e => (wordChars e.width, wordChars e.height)) ∧
      place? d.placing =
        some (d.picture.map fun p => (signedChars p.x.toInt, signedChars p.y.toInt), s) := by
  rw [placing]
  cases hp : d.picture with
  | none =>
    have htrailer : last? extent? "(normal left inverted right x axis y axis)".toList = none := by
      decide
    refine ⟨d.trailer, last?_extent?_append htrailer d.extent, ?_⟩
    simp only [place?, geometry?, Option.elim_none, List.nil_append, blank?_cons (c := ' ') rfl,
      d.digits?_trailer, Option.bind_eq_bind, Option.bind_some, Option.bind_none]
    rfl
  | some p =>
    have hextent := last?_extent?_append (last?_extent?_picture p.id.toNat) d.extent
    simp only [List.append_assoc, List.cons_append] at hextent
    refine ⟨_, hextent, ?_⟩
    simp only [place?, Option.elim_some, geometry?_chars, blank?_cons (c := ' ') rfl,
      Option.bind_eq_bind, Option.bind_some, Option.pure_def, Option.map_some]
    rfl

private theorem Description.literal?_trailer (d : Description) :
    literal? "primary".toList d.trailer = none := by
  change literal? "primary".toList ("(normal left inverted right x axis y axis)".toList ++ _) = none
  simp only [String.reduceToList, List.cons_append, literal?]
  rfl

/-- Neither a number nor a parenthesis is taken for the word for the primary output. -/
theorem Description.primary?_placing (d : Description) : primary? d.placing = none := by
  rw [placing]
  cases hp : d.picture with
  | none =>
    simp only [Option.elim_none, List.nil_append, primary?, blank?_cons (c := ' ') rfl,
      d.literal?_trailer, Option.bind_eq_bind, Option.bind_some]
  | some p =>
    obtain ⟨c, l, h, hc⟩ := exists_digitChars_eq_cons p.width.toNat
    have hne : ¬ 'p' = c := by
      rintro rfl
      cases hc
    simp only [Option.elim_some, Picture.chars, List.cons_append, primary?, wordChars, h,
      blank?_cons (c := ' ') rfl, Option.bind_eq_bind, Option.bind_some, String.reduceToList,
      literal?, if_neg hne]

/-- The word for the primary output does not change which position is found behind it. -/
theorem Description.place?_role (d : Description) :
    ((primary? (d.role ++ d.placing)).bind place? <|> place? (d.role ++ d.placing)) =
      place? d.placing := by
  cases hp : d.primary with
  | true =>
    have hprimary : primary? (d.role ++ d.placing) = some d.placing := by
      simp only [role, hp, ite_true, List.cons_append, primary?, blank?_cons (c := ' ') rfl,
        literal?_append, Option.bind_eq_bind, Option.bind_some]
    obtain ⟨s, _, hplace⟩ := d.place?_placing
    rw [hprimary, Option.bind_some, hplace]
    rfl
  | false =>
    rw [role, hp, if_neg Bool.false_ne_true, List.nil_append, d.primary?_placing, Option.bind_none]
    rfl

/-- The header line is recognised, with all that it says. -/
theorem Description.header?_header (d : Description) :
    header? d.header = some {
      name := d.name.chars
      connected := d.connected
      place := d.picture.map fun p => (signedChars p.x.toInt, signedChars p.y.toInt)
      extent := d.extent.map fun e => (wordChars e.width, wordChars e.height) } := by
  obtain ⟨s, hextent, hplace⟩ := d.place?_placing
  simp only [header?, Description.header, d.name.word?_append (s := ' ' :: _) rfl,
    blank?_cons (c := ' ') rfl, d.status?_status, d.place?_role, hplace, hextent,
    Option.bind_eq_bind, Option.bind_some, Option.pure_def]

end Headers

end Displays.Xrandr
