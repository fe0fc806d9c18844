import Displays.Proofs.Reports

/-!
# What lines add to an output

The lines below a header add modes behind those that are known, change the scale and add whole lines
of octets to the EDID; all else is said by the header. So the digits of an EDID are those of octets
at any time, and an output can be completed wherever its lines end.
-/

namespace Displays.Xrandr

open Displays.Text

section Octets

/-- Every hexadecimal digit is written for a number. -/
theorem exists_digit {c : Char} (h : isHexDigit c = true) : ∃ n < 16, Hex.digit n = c := by
  rcases toNat_of_isHexDigit h with ⟨hlow, hhigh⟩ | ⟨hlow, hhigh⟩
  · refine ⟨c.toNat - 48, by omega, ?_⟩
    rw [Hex.digit, if_pos (by omega), Nat.add_sub_cancel' hlow, Char.ofNat_toNat]
  · refine ⟨c.toNat - 87, by omega, ?_⟩
    rw [Hex.digit, if_neg (by omega), Nat.add_sub_cancel' (by omega), Char.ofNat_toNat]

/-- Pairs of hexadecimal digits stand for octets. -/
theorem exists_encode {n : Nat} {l : List Char} (hl : ∀ c ∈ l, isHexDigit c = true)
    (hlength : l.length = 2 * n) :
    ∃ bytes : List UInt8, bytes.length = n ∧ Hex.encode bytes = l := by
  induction n generalizing l with
  | zero =>
    refine ⟨[], rfl, ?_⟩
    rw [List.length_eq_zero_iff.mp hlength]
    rfl
  | succ n ih =>
    match l, hl, hlength with
    | a :: b :: l, hl, hlength =>
      obtain ⟨ha, hbl⟩ := List.forall_mem_cons.mp hl
      obtain ⟨hb, hrest⟩ := List.forall_mem_cons.mp hbl
      obtain ⟨x, hx, rfl⟩ := exists_digit ha
      obtain ⟨y, hy, rfl⟩ := exists_digit hb
      rw [List.length_cons, List.length_cons] at hlength
      obtain ⟨bytes, hbytes, rfl⟩ := ih hrest (by omega)
      have hvalue : (UInt8.ofNat (16 * x + y)).toNat = 16 * x + y :=
        UInt8.toNat_ofNat_of_lt' (by change _ < 256; omega)
      refine ⟨UInt8.ofNat (16 * x + y) :: bytes, by rw [List.length_cons, hbytes], ?_⟩
      change Hex.digit _ :: Hex.digit _ :: Hex.encode bytes = _
      rw [hvalue, show (16 * x + y) / 16 = x by omega, show (16 * x + y) % 16 = y by omega]

/-- A line of an EDID has the digits of sixteen octets. -/
theorem exists_encode_of_edidData? {line digits : List Char} (h : edidData? line = some digits) :
    ∃ bytes : List UInt8, bytes.length = 16 ∧ Hex.encode bytes = digits := by
  simp only [edidData?, Option.bind_eq_bind, Option.bind_eq_some_iff, Prod.exists] at h
  obtain ⟨s, _, l, t, hl, h⟩ := h
  by_cases ht : t.all isBlank = true
  · rw [if_pos ht] at h
    obtain rfl := Option.some.inj h
    exact exists_encode (of_exactly?_eq_some hl).2 (length_of_exactly?_eq_some hl)
  · rw [if_neg ht] at h
    cases h

end Octets

namespace Draft

variable {d e f : Draft} {line : List Char}

/-- The line has vertical timings with this refresh rate, in whole hertz and hundredths. -/
def Clocks (line : List Char) (hertz hundredths : Nat) : Prop :=
  ∃ v, height? line = some v ∧ number "hz" v.hertz = .ok hertz ∧
    number "centihz" v.hundredths = .ok hundredths

/-- One draft is the other once this line below a header was read. -/
structure Reads (line : List Char) (e d : Draft) : Prop where
  /-- What the header says stays. -/
  output_eq : e.output = { d.output with modes := e.output.modes, scale := e.output.scale }
  /-- The modes and the mark stay, or a mode is added with the refresh rate of the line, and may be
  the one that is marked. -/
  modes_cases :
    (e.output.modes = d.output.modes ∧ e.current = d.current) ∨
    ∃ size hertz hundredths, Clocks line hertz hundredths ∧
      e.output.modes = d.output.modes ++ [⟨size, millihertz hertz hundredths⟩] ∧
      (e.current = d.current ∨ e.current = some d.output.modes.length)
  /-- Octets are added in whole lines. -/
  hex_eq : ∃ bytes : List UInt8, 16 ∣ bytes.length ∧ e.hex = d.hex ++ Hex.encode bytes

/-- A draft that differs in its state only has nothing added. -/
theorem Reads.of_eq (houtput : e.output = d.output) (hcurrent : e.current = d.current)
    (hhex : e.hex = d.hex) : Reads line e d := by
  refine ⟨?_, .inl ⟨?_, hcurrent⟩, [], Nat.dvd_zero 16, ?_⟩
  · rw [houtput]
  · rw [houtput]
  · rw [hhex]
    exact (List.append_nil _).symm

private theorem reads_readTransform {digits : List Char} (h : d.readTransform digits = .ok e) :
    Reads line e d := by
  rw [readTransform] at h
  split at h
  · cases h
  · rename_i factor _
    obtain rfl := Except.ok.inj h
    by_cases hpos : 0 < factor
    · rw [if_pos hpos]
      exact ⟨rfl, .inl ⟨rfl, rfl⟩, [], Nat.dvd_zero 16, (List.append_nil _).symm⟩
    · rw [if_neg hpos]
      exact .of_eq rfl rfl rfl

private theorem reads_readWidth {digits : List Char} (h : d.readWidth digits = .ok e) :
    Reads line e d := by
  rw [readWidth] at h
  split at h
  · obtain rfl := Except.ok.inj h
    exact .of_eq rfl rfl rfl
  · obtain ⟨_, _, h⟩ := exists_of_bind_eq_ok h
    obtain rfl := Except.ok.inj h
    exact .of_eq rfl rfl rfl

/-- The mark is set to the index that the mode will have, and the mode is added. -/
theorem reads_readHeight {v : Vertical} (hline : height? line = some v)
    (h : d.readHeight v = .ok e) : Reads line e d := by
  simp only [readHeight] at h
  split at h
  · rename_i current width _
    obtain ⟨hertz, hhertz, h⟩ := exists_of_bind_eq_ok h
    obtain ⟨hundredths, hhundredths, h⟩ := exists_of_bind_eq_ok h
    obtain ⟨height, _, h⟩ := exists_of_bind_eq_ok h
    obtain rfl := Except.ok.inj h
    have hclocks : Clocks line hertz hundredths := ⟨v, hline, hhertz, hhundredths⟩
    refine ⟨rfl, .inr ⟨⟨width, height⟩, hertz, hundredths, hclocks, rfl, ?_⟩, [], Nat.dvd_zero 16,
      (List.append_nil _).symm⟩
    cases current with
    | false => exact .inl rfl
    | true => exact .inr rfl
  · obtain rfl := Except.ok.inj h
    exact .of_eq rfl rfl rfl

private theorem reads_readOther (h : d.readOther line = .ok e) : Reads line e d := by
  rw [readOther] at h
  split at h
  · obtain rfl := Except.ok.inj h
    exact .of_eq rfl rfl rfl
  · split at h
    · exact reads_readTransform h
    · split at h
      · obtain rfl := Except.ok.inj h
        exact .of_eq rfl rfl rfl
      · split at h
        · exact reads_readWidth h
        · split at h
          · rename_i hline
            exact reads_readHeight hline h
          · obtain rfl := Except.ok.inj h
            exact .of_eq rfl rfl rfl

/-- Reading a line below a header adds to the draft what such a line may add. -/
theorem reads_readLine (h : d.readLine line = .ok e) : Reads line e d := by
  rw [readLine] at h
  by_cases hedid : d.inEdid = true
  · rw [if_pos hedid] at h
    cases hdata : edidData? line with
    | none =>
      rw [hdata] at h
      obtain ⟨houtput, hmodes, hhex⟩ := reads_readOther h
      exact ⟨houtput, hmodes, hhex⟩
    | some digits =>
      rw [hdata] at h
      obtain rfl := Except.ok.inj h
      obtain ⟨bytes, hlength, rfl⟩ := exists_encode_of_edidData? hdata
      exact ⟨rfl, .inl ⟨rfl, rfl⟩, bytes, hlength ▸ Nat.dvd_refl 16, rfl⟩
  · rw [if_neg hedid] at h
    exact reads_readOther h

/-- One draft is the other with what lines below a header may add. -/
structure Extends (e d : Draft) : Prop where
  /-- What the header says stays. -/
  output_eq : e.output = { d.output with modes := e.output.modes, scale := e.output.scale }
  /-- Modes are added behind those that are known. -/
  modes_prefix : d.output.modes <+: e.output.modes
  /-- Octets are added in whole lines. -/
  hex_eq : ∃ bytes : List UInt8, 16 ∣ bytes.length ∧ e.hex = d.hex ++ Hex.encode bytes

/-- A draft is an extension of itself. -/
theorem Extends.refl (d : Draft) : d.Extends d :=
  ⟨rfl, List.prefix_rfl, [], Nat.dvd_zero 16, (List.append_nil _).symm⟩

/-- An extension of an extension of a draft is one of the draft. -/
theorem Extends.trans (h : f.Extends e) (h' : e.Extends d) : f.Extends d := by
  obtain ⟨bytes, hbytes, hhex⟩ := h.hex_eq
  obtain ⟨bytes', hbytes', hhex'⟩ := h'.hex_eq
  refine ⟨?_, h'.modes_prefix.trans h.modes_prefix, bytes' ++ bytes, ?_, ?_⟩
  · rw [h.output_eq, h'.output_eq]
  · rw [List.length_append]
    exact Nat.dvd_add hbytes' hbytes
  · rw [hhex, hhex', encode_append, List.append_assoc]

/-- A line below a header adds to the output. -/
theorem Reads.extends (h : Reads line e d) : e.Extends d := by
  refine ⟨h.output_eq, ?_, h.hex_eq⟩
  obtain ⟨hmodes, -⟩ | ⟨_, _, _, -, hmodes, -⟩ := h.modes_cases
  · rw [hmodes]
  · rw [hmodes]
    exact List.prefix_append _ _

/-- Lines below a header add to the output. -/
theorem extends_foldlM {ls : List (List Char)} (h : ls.foldlM readLine d = .ok e) :
    e.Extends d := by
  induction ls generalizing d with
  | nil =>
    obtain rfl := Except.ok.inj h
    exact .refl d
  | cons l ls ih =>
    rw [List.foldlM_cons] at h
    obtain ⟨f, hl, hls⟩ := exists_of_bind_eq_ok h
    exact (ih hls).trans (reads_readLine hl).extends

/-- The digits of the EDID are those of octets. -/
def Coded (d : Draft) : Prop :=
  ∃ bytes : List UInt8, 16 ∣ bytes.length ∧ d.hex = Hex.encode bytes

/-- Lines below a header leave the digits of an EDID those of octets. -/
theorem Coded.of_extends (hd : d.Coded) (h : e.Extends d) : e.Coded := by
  obtain ⟨bytes, hbytes, hhex⟩ := hd
  obtain ⟨bytes', hbytes', hhex'⟩ := h.hex_eq
  refine ⟨bytes ++ bytes', ?_, by rw [hhex', hhex, encode_append]⟩
  rw [List.length_append]
  exact Nat.dvd_add hbytes hbytes'

/-- What a header opens has no lines below it yet. -/
theorem exists_of_ofHeader {h : Header} (hd : ofHeader h = .ok d) :
    ∃ topLeft size, d = {
      output := {
        id := String.ofList h.name, connected := h.connected, used := h.place.isSome, topLeft,
        modeIndex := 0, modes := [], power := .on, scale := 1, form := .monitor, size,
        edid := none }
      current := none, pending := none, inEdid := false, hex := [] } := by
  rw [ofHeader] at hd
  split at hd
  case' h_1 =>
    obtain ⟨_, _, hd⟩ := exists_of_bind_eq_ok hd
    obtain ⟨_, _, hd⟩ := exists_of_bind_eq_ok hd
  all_goals
    obtain ⟨_, _, hd⟩ := exists_of_bind_eq_ok hd
    dsimp only at hd
    split at hd
    case' h_1 =>
      obtain ⟨_, _, hd⟩ := exists_of_bind_eq_ok hd
      obtain ⟨_, _, hd⟩ := exists_of_bind_eq_ok hd
    all_goals
      obtain ⟨_, _, hd⟩ := exists_of_bind_eq_ok hd
      exact ⟨_, _, (Except.ok.inj hd).symm⟩

/-- A header has no octets, and neither has nor marks modes. -/
theorem of_ofHeader {h : Header} (hd : ofHeader h = .ok d) :
    d.hex = [] ∧ d.current = none ∧ d.output.modes = [] := by
  obtain ⟨_, _, rfl⟩ := exists_of_ofHeader hd
  exact ⟨rfl, rfl, rfl⟩

/-- A header opens a draft without digits of an EDID. -/
theorem coded_ofHeader {h : Header} (hd : ofHeader h = .ok d) : d.Coded :=
  ⟨[], Nat.dvd_zero 16, (of_ofHeader hd).1⟩

/-- The octets of an output's EDID, of which it has none if no line of them was read. -/
theorem finish_of_hex_eq {bytes : List UInt8} (h : d.hex = Hex.encode bytes) :
    d.finish = .ok { d.output with
      modeIndex := d.current.getD 0
      edid := if bytes = [] then d.output.edid else some bytes } := by
  rw [finish, h]
  cases bytes with
  | nil => rfl
  | cons b bytes =>
    have hne : Hex.encode (b :: bytes) ≠ [] := List.cons_ne_nil _ _
    rw [if_neg hne, decodeHex_encode, if_neg (List.cons_ne_nil b bytes)]
    rfl

end Draft

/-- Whatever header and which of these lines it was read from, every draft is so, and so is the
output once it is completed. -/
structure Invariant (ls : List (List Char)) (D : Draft → Prop) (P : Output → Prop) : Prop where
  /-- The header makes a draft so. -/
  header : ∀ {h : Header} {d : Draft}, Draft.ofHeader h = .ok d → D d
  /-- Lines below the header leave it so. -/
  line : ∀ {d e : Draft} {line : List Char}, line ∈ ls → D d → d.readLine line = .ok e → D e
  /-- So it becomes such an output. -/
  finish : ∀ {d : Draft} {o : Output}, D d → d.finish = .ok o → P o

namespace Reader

variable {ls : List (List Char)} {D : Draft → Prop} {P : Output → Prop} {r r' : Reader}
  {outputs : List Output}

/-- The outputs whose lines are all read are such outputs, and the one being read is such a
draft. -/
structure Holds (D : Draft → Prop) (P : Output → Prop) (r : Reader) : Prop where
  /-- The outputs whose lines are all read. -/
  outputs : ∀ o ∈ r.outputs, P o
  /-- The output that is being read. -/
  draft : ∀ d ∈ r.draft, D d

private theorem holds_start : Holds D P {} :=
  ⟨fun _ ho => absurd ho List.not_mem_nil, fun _ hd => absurd hd (Option.not_mem_none _)⟩

/-- If everything holds of what was read so far, what holds of completed outputs holds of all that
are given in the end. -/
theorem Holds.forall_of_finish (hr : r.Holds D P) (hi : Invariant ls D P)
    (h : r.finish = .ok outputs) : ∀ o ∈ outputs, P o := by
  rw [finish] at h
  split at h
  · rw [← Except.ok.inj h]
    exact hr.outputs
  · rename_i d hd
    obtain ⟨p, hp, h⟩ := exists_of_bind_eq_ok h
    rw [← Except.ok.inj h]
    intro o ho
    rcases List.mem_append.mp ho with ho | ho
    · exact hr.outputs o ho
    · rw [List.mem_singleton.mp ho]
      exact hi.finish (hr.draft d hd) hp

/-- Reading another line keeps what holds of the outputs. -/
theorem Holds.of_readLine {line : List Char} (hr : r.Holds D P) (hi : Invariant ls D P)
    (hline : line ∈ ls) (h : r.readLine line = .ok r') : r'.Holds D P := by
  rw [readLine] at h
  split at h
  · obtain ⟨d, hd, h⟩ := exists_of_bind_eq_ok h
    obtain ⟨outputs, houtputs, h⟩ := exists_of_bind_eq_ok h
    rw [← Except.ok.inj h]
    refine ⟨hr.forall_of_finish hi houtputs, ?_⟩
    rintro e ⟨⟩
    exact hi.header hd
  · split at h
    · rwa [← Except.ok.inj h]
    · rename_i d hd
      obtain ⟨e, he, h⟩ := exists_of_bind_eq_ok h
      rw [← Except.ok.inj h]
      refine ⟨hr.outputs, ?_⟩
      rintro f ⟨⟩
      exact hi.line hline (hr.draft d hd) he

/-- What every line keeps, the lines of a report keep. -/
theorem Holds.of_foldlM {lines : List (List Char)} (hr : r.Holds D P) (hi : Invariant ls D P)
    (hsub : ∀ line ∈ lines, line ∈ ls) (h : lines.foldlM readLine r = .ok r') : r'.Holds D P := by
  induction lines generalizing r with
  | nil => rwa [← Except.ok.inj h]
  | cons line lines ih =>
    obtain ⟨hmem, hsub⟩ := List.forall_mem_cons.mp hsub
    rw [List.foldlM_cons] at h
    obtain ⟨_, hline, h⟩ := exists_of_bind_eq_ok h
    exact ih (hr.of_readLine hi hmem hline) hsub h

/-- The output that is being read can be completed. -/
def Coded (r : Reader) : Prop :=
  ∀ d ∈ r.draft, d.Coded

/-- A reader begins without any output to complete. -/
theorem coded_start : Coded {} :=
  fun _ h => nomatch h

/-- Completing an output does not fail. -/
theorem Coded.exists_finish (h : r.Coded) : ∃ outputs, r.finish = .ok outputs := by
  rw [finish]
  cases hd : r.draft with
  | none => exact ⟨_, rfl⟩
  | some d =>
    obtain ⟨bytes, _, hhex⟩ := h d hd
    simp only [Draft.finish_of_hex_eq hhex]
    exact ⟨_, rfl⟩

/-- Wherever reading has come to, the output that is being read can be completed. -/
theorem coded_foldlM (h : r.Coded) (hls : ls.foldlM readLine r = .ok r') : r'.Coded := by
  have hi : Invariant ls Draft.Coded fun _ => True :=
    ⟨Draft.coded_ofHeader, fun _ hd h => hd.of_extends (Draft.reads_readLine h).extends,
      fun _ _ => trivial⟩
  exact (Holds.of_foldlM ⟨fun _ _ => trivial, h⟩ hi (fun _ hl => hl) hls).draft

end Reader

/-- What holds of every output however it is read holds of the outputs of a report. -/
theorem Invariant.forall_of_read {D : Draft → Prop} {P : Output → Prop} {s : List Char}
    {c : Configuration} (hi : Invariant (lines s) D P) (h : read s = .ok c) :
    ∀ o ∈ c.outputs, P o := by
  rw [read] at h
  split at h
  · rename_i outputs houtputs
    obtain ⟨r, hr, houtputs⟩ := exists_of_bind_eq_ok houtputs
    rw [← Except.ok.inj h]
    exact (Reader.holds_start.of_foldlM hi (fun _ hl => hl) hr).forall_of_finish hi houtputs
  · cases h

end Displays.Xrandr
