import Mathlib.Data.List.DropRight
import Displays.Edid.Decode
import Displays.Proofs.Unescaped

/-!
# Text in descriptors

The text of a descriptor is cut at the first line feed among its octets, read as characters and
trimmed at its end. Neither cutting nor trimming depends on how the octets are read: a line feed is
read from the octet of its own only, and spaces and NULs are read as themselves even behind a
sequence that breaks off. So the text is in a form that is kept when it is encoded and decoded
again.
-/

namespace Displays

namespace Text.Utf8

variable {s : Option Pending} {b : UInt8} {bytes pad : List UInt8} {c : Char} {text : List Char}

/-- What breaks a sequence off is read afresh. -/
theorem piecesFrom_of_next?_eq_none {p : Pending} (h : p.next? b = none) (rest : List UInt8) :
    piecesFrom (some p) (b :: rest) = .invalid p.size :: piecesFrom none (b :: rest) := by
  conv_lhs => rw [piecesFrom, h]
  rfl

/-- An octet ends some pieces and leaves a sequence open or not, whatever stands behind it. -/
theorem exists_piecesFrom_cons (hs : ∀ p ∈ s, p.Wide) (b : UInt8) :
    ∃ front next, (∀ p ∈ next, p.Wide) ∧
      ∀ rest, piecesFrom s (b :: rest) = front ++ piecesFrom next rest := by
  have hfresh : ∃ front next, (∀ p ∈ next, p.Wide) ∧
      ∀ rest, piecesFrom none (b :: rest) = front ++ piecesFrom next rest := by
    cases hstart : start b with
    | piece piece =>
      refine ⟨[piece], none, wide_of_mem_none, fun rest => ?_⟩
      rw [piecesFrom, hstart, List.singleton_append]
    | pending q =>
      refine ⟨[], some q, ?_, fun rest => piecesFrom_of_pending hstart rest⟩
      rintro q ⟨⟩
      exact wide_of_start hstart
  cases s with
  | none => exact hfresh
  | some p =>
    cases hnext : p.next? b with
    | none =>
      obtain ⟨front, next, hwide, hrest⟩ := hfresh
      refine ⟨.invalid p.size :: front, next, hwide, fun rest => ?_⟩
      rw [piecesFrom_of_next?_eq_none hnext, hrest, List.cons_append]
    | some r =>
      rcases next?_of_wide (hs p rfl) hnext with ⟨c, rfl, -⟩ | ⟨q, rfl, hwide⟩
      · refine ⟨[.char c], none, wide_of_mem_none, fun rest => ?_⟩
        rw [piecesFrom, hnext, List.singleton_append]
      · refine ⟨[], some q, ?_, fun rest => ?_⟩
        · rintro q ⟨⟩
          exact hwide
        · rw [piecesFrom, hnext, List.nil_append]

/-- An octet below 128 is a character of its own. -/
theorem start_of_low (h : b.toNat < 0x80) : start b = .piece (.char (Char.ofNat b.toNat)) := by
  simp only [start, h, ite_true]

/-- An octet that is a character by itself belongs to no sequence. -/
theorem next?_of_low {p : Pending} (hp : p.Wide) (h : b.toNat < 0x80) : p.next? b = none := by
  refine if_neg fun hwithin => ?_
  have hleast := UInt8.le_iff_toNat_le.mp hwithin.1
  have hp := hp.least
  omega

/-- Octets that are characters by themselves are read as these, whatever sequence they break off. -/
theorem map_piecesFrom_low (hs : ∀ p ∈ s, p.Wide) (hpad : ∀ b ∈ pad, b.toNat < 0x80) :
    (piecesFrom s pad).map Piece.toChar =
      (piecesFrom s []).map Piece.toChar ++ pad.map fun b => Char.ofNat b.toNat := by
  have hfresh : (piecesFrom none pad).map Piece.toChar = pad.map fun b => Char.ofNat b.toNat := by
    induction pad with
    | nil => rfl
    | cons b pad ih =>
      obtain ⟨hb, hpad⟩ := List.forall_mem_cons.mp hpad
      rw [piecesFrom, start_of_low hb, List.map_cons, List.map_cons, ih hpad]
      rfl
  cases s with
  | none => exact hfresh
  | some p =>
    cases pad with
    | nil => exact (List.append_nil _).symm
    | cons b pad =>
      have hbroken := next?_of_low (hs p rfl) (hpad b List.mem_cons_self)
      rw [piecesFrom_of_next?_eq_none hbroken, List.map_cons, hfresh]
      rfl

/-- Octets below 128 are read as themselves, even behind a sequence that breaks off. -/
theorem map_piecesFrom_append (hs : ∀ p ∈ s, p.Wide) (hpad : ∀ b ∈ pad, b.toNat < 0x80)
    (bytes : List UInt8) :
    (piecesFrom s (bytes ++ pad)).map Piece.toChar =
      (piecesFrom s bytes).map Piece.toChar ++ pad.map fun b => Char.ofNat b.toNat := by
  induction bytes generalizing s with
  | nil => exact map_piecesFrom_low hs hpad
  | cons b bytes ih =>
    obtain ⟨front, next, hnext, hrest⟩ := exists_piecesFrom_cons hs b
    rw [List.cons_append, hrest, hrest, List.map_append, List.map_append, ih hnext,
      List.append_assoc]

/-- Octets that are characters by themselves are read as these behind anything. -/
theorem decodeLossy_append (hpad : ∀ b ∈ pad, b.toNat < 0x80) (bytes : List UInt8) :
    decodeLossy (bytes ++ pad) = decodeLossy bytes ++ pad.map fun b => Char.ofNat b.toNat :=
  map_piecesFrom_append wide_of_mem_none hpad bytes

/-- Text that is encoded is read back without loss. -/
theorem decodeLossy_encode (text : List Char) : decodeLossy (encode text) = text := by
  rw [decodeLossy, pieces_encode, List.map_map]
  exact List.map_id text

/-- A character of one octet is read from its octet only. -/
theorem mem_of_decodeLossy (h : c ∈ decodeLossy bytes) :
    0x80 ≤ c.toNat ∨ c.toNat.toUInt8 ∈ bytes := by
  obtain ⟨piece, hpiece, rfl⟩ := List.mem_map.mp h
  cases piece with
  | char c => exact mem_of_piecesFrom wide_of_mem_none hpiece
  | invalid | incomplete => exact .inl (Nat.le_of_ble_eq_true rfl)

/-- The octet of a character is written for that character only. -/
theorem mem_of_mem_encode (h : b ∈ encode text) (hb : b.toNat < 0x80) :
    Char.ofNat b.toNat ∈ text := by
  obtain ⟨c, hc, h⟩ := List.mem_flatMap.mp h
  by_cases hlow : c.toNat < 0x80
  · rw [encodeChar_of_lt hlow, List.mem_singleton] at h
    rw [h, toNat_toUInt8 (by omega), Char.ofNat_toNat]
    exact hc
  · have hle := UInt8.le_iff_toNat_le.mp (le_of_mem_encodeChar (Nat.not_lt.mp hlow) h)
    exact absurd hle (Nat.not_le.mpr hb)

end Text.Utf8

namespace Text

variable {p : Char → Bool} {s t : List Char}

private theorem dropEnd_append (ht : ∀ c ∈ t, p c = true) : dropEnd p (s ++ t) = dropEnd p s := by
  rw [dropEnd, List.reverse_append, List.dropWhile_append_of_pos, dropEnd]
  exact fun c hc => ht c (List.mem_reverse.mp hc)

/-- What is left does not end in a character of the kind that is dropped. -/
theorem of_mem_getLast?_dropEnd (s : List Char) : ∀ c ∈ (dropEnd p s).getLast?, p c = false := by
  intro c hc
  obtain ⟨hne, rfl⟩ := List.mem_getLast?_eq_getLast hc
  exact Bool.eq_false_iff.mpr (List.rdropWhile_last_not p s hne)

private theorem dropEnd_eq_self (h : ∀ c ∈ s.getLast?, p c = false) : dropEnd p s = s := by
  refine List.rdropWhile_eq_self_iff.mpr fun hne => ?_
  rw [h _ (List.getLast_mem_getLast? hne)]
  exact Bool.false_ne_true

private theorem mem_of_mem_dropEnd {c : Char} (h : c ∈ dropEnd p s) : c ∈ s :=
  (List.rdropWhile_prefix p s).subset h

end Text

namespace Edid

open Text

variable {payload pad : List UInt8} {text : List Char}

/-- The text has the form of a descriptor's text. -/
structure Canonical (text : List Char) : Prop where
  /-- The text is on one line. -/
  newline_not_mem : '\n' ∉ text
  /-- The text ends in neither a space nor a NUL. -/
  trimmed : ∀ c ∈ text.getLast?, c ≠ ' ' ∧ c ≠ '\x00'

/-- The octets before the first line feed. -/
def firstLine (payload : List UInt8) : List UInt8 :=
  payload.takeWhile (· ≠ 0x0a)

/-- The character is dropped at the end of a text. -/
def isPadding (c : Char) : Bool :=
  c = ' ' || c = '\x00'

/-- The text of a descriptor is its first line, read and trimmed. -/
theorem decodeText_eq (payload : List UInt8) :
    decodeText payload = dropEnd isPadding (Utf8.decodeLossy (firstLine payload)) :=
  rfl

private theorem isPadding_eq_false_iff {c : Char} : isPadding c = false ↔ c ≠ ' ' ∧ c ≠ '\x00' := by
  simp only [isPadding, Bool.or_eq_false_iff, decide_eq_false_iff_not]

private theorem newline_not_mem_firstLine (payload : List UInt8) : 0x0a ∉ firstLine payload := by
  intro h
  have hne := List.mem_takeWhile_imp h
  exact absurd hne (by decide)

private theorem firstLine_of_not_mem (h : 0x0a ∉ payload) : firstLine payload = payload := by
  refine List.takeWhile_eq_self_iff.mpr fun b hb => decide_eq_true ?_
  rintro rfl
  exact h hb

/-- The first line goes on in what follows, or has ended before. -/
theorem firstLine_append (payload more : List UInt8) :
    firstLine (payload ++ more) = firstLine payload ++ firstLine more ∨
      firstLine (payload ++ more) = firstLine payload := by
  simp only [firstLine, List.takeWhile_append]
  split_ifs with h
  · exact .inl (congrArg (· ++ _) (List.takeWhile_prefix _ |>.eq_of_length h).symm)
  · exact .inr rfl

/-- What follows the first line feed does not matter. -/
theorem firstLine_append_newline (payload rest : List UInt8) :
    firstLine (payload ++ 0x0a :: rest) = firstLine payload := by
  have hnil : firstLine (0x0a :: rest) = [] := rfl
  rcases firstLine_append payload (0x0a :: rest) with h | h
  · rw [h, hnil, List.append_nil]
  · exact h

/-- The text of every payload has the form of such a text. -/
theorem canonical_decodeText (payload : List UInt8) : Canonical (decodeText payload) where
  newline_not_mem := by
    intro h
    rcases Utf8.mem_of_decodeLossy (mem_of_mem_dropEnd h) with hle | hmem
    · exact absurd hle (by decide)
    · exact newline_not_mem_firstLine payload hmem
  trimmed c hc := isPadding_eq_false_iff.mp (of_mem_getLast?_dropEnd _ c hc)

/-- Text of the form is read back from its octets. -/
theorem decodeText_encode (h : Canonical text) : decodeText (Utf8.encode text) = text := by
  have hline : 0x0a ∉ Utf8.encode text := fun hmem =>
    h.newline_not_mem (Utf8.mem_of_mem_encode hmem (by decide))
  rw [decodeText_eq, firstLine_of_not_mem hline, Utf8.decodeLossy_encode]
  exact dropEnd_eq_self fun c hc => isPadding_eq_false_iff.mpr (h.trimmed c hc)

/-- Spaces and NULs at the end do not matter. -/
theorem decodeText_append_padding (hpad : ∀ b ∈ pad, b = 0x20 ∨ b = 0x00) (payload : List UInt8) :
    decodeText (payload ++ pad) = decodeText payload := by
  rcases firstLine_append payload pad with hline | hline
  · have hcases : ∀ b ∈ firstLine pad, b = 0x20 ∨ b = 0x00 := fun b hb =>
      hpad b (List.takeWhile_subset _ hb)
    have hlow : ∀ b ∈ firstLine pad, b.toNat < 0x80 := by
      intro b hb
      rcases hcases b hb with rfl | rfl
      · exact (by decide : 0x20 < 0x80)
      · exact (by decide : 0x00 < 0x80)
    rw [decodeText_eq, hline, Utf8.decodeLossy_append hlow, dropEnd_append, decodeText_eq]
    intro c hc
    obtain ⟨b, hb, rfl⟩ := List.mem_map.mp hc
    rcases hcases b hb with rfl | rfl
    · rfl
    · rfl
  · rw [decodeText_eq, hline, decodeText_eq]

/-- The text of a descriptor is one line without spaces or NULs at its end. It depends neither on
what follows a line feed nor on spaces and NULs that follow the payload, and what has that form
already is read as itself, so that reading the octets of the text changes nothing. -/
theorem decodeText_normalises (payload : List UInt8) :
    Canonical (decodeText payload) ∧
    (∀ rest, decodeText (payload ++ 0x0a :: rest) = decodeText payload) ∧
    (∀ pad : List UInt8, (∀ b ∈ pad, b = 0x20 ∨ b = 0x00) →
      decodeText (payload ++ pad) = decodeText payload) ∧
    (∀ text, Canonical text → decodeText (Utf8.encode text) = text) ∧
    decodeText (Utf8.encode (decodeText payload)) = decodeText payload := by
  have hcanonical := canonical_decodeText payload
  refine ⟨hcanonical, fun rest => ?_, fun pad hpad => decodeText_append_padding hpad payload,
    fun text => decodeText_encode, decodeText_encode hcanonical⟩
  rw [decodeText_eq, firstLine_append_newline, decodeText_eq]

/-- A sequence that breaks off before the padding is one ill-formed subpart, as it is at the end. -/
theorem decodeText_normalises_broken :
    decodeText [0x41, 0xe2, 0x82] = ['A', '\uFFFD'] ∧
      decodeText ([0x41, 0xe2, 0x82] ++ [0x20, 0x00]) = ['A', '\uFFFD'] ∧
      Canonical ['A', '\uFFFD'] ∧
      decodeText (Utf8.encode ['A', '\uFFFD']) = ['A', '\uFFFD'] := by
  have hbroken : decodeText [0x41, 0xe2, 0x82] = ['A', '\uFFFD'] := rfl
  obtain ⟨hcanonical, -, hpadded, hkept, -⟩ := decodeText_normalises [0x41, 0xe2, 0x82]
  rw [hbroken] at hcanonical hpadded
  exact ⟨hbroken, hpadded _ (by simp), hcanonical, hkept _ hcanonical⟩

end Edid

end Displays
