import Displays.Text.Utf8

/-!
# Reading encoded text

Text that is encoded is read back: the octets of each character are read as a sequence of their own,
whatever stands behind them.
-/

namespace Displays.Text.Utf8

/-- A number below 256 is its own octet. -/
theorem toNat_toUInt8 {n : Nat} (h : n < 0x100) : n.toUInt8.toNat = n :=
  UInt8.toNat_ofNat_of_lt' h

/-- The number of a character is no surrogate. -/
theorem toNat_cases (c : Char) : c.toNat < 0xd800 ∨ 0xe000 ≤ c.toNat ∧ c.toNat < 0x110000 := by
  rcases c.valid with h | ⟨h, h'⟩
  · exact .inl h
  · exact .inr ⟨h, h'⟩

/-- A further octet of a sequence extends what is read by six bits. -/
theorem piecesFrom_tail {p : Pending} {k : Nat} (hk : k < 0x40) (hleast : p.least.toNat ≤ 0x80 + k)
    (hgreatest : 0x80 + k ≤ p.greatest.toNat) (rest : List UInt8) :
    piecesFrom (some p) ((0x80 + k).toUInt8 :: rest) =
      match p.more with
      | 0 => .char (Char.ofNat (p.value * 0x40 + k)) :: piecesFrom none rest
      | more + 1 =>
        piecesFrom (some ⟨p.value * 0x40 + k, 0x80, 0xbf, more, p.size + 1⟩) rest := by
  have hb : (0x80 + k).toUInt8.toNat = 0x80 + k := toNat_toUInt8 (by omega)
  have hwithin : p.least ≤ (0x80 + k).toUInt8 ∧ (0x80 + k).toUInt8 ≤ p.greatest := by
    rw [UInt8.le_iff_toNat_le, UInt8.le_iff_toNat_le, hb]
    exact ⟨hleast, hgreatest⟩
  rw [piecesFrom, Pending.next?, if_pos hwithin, hb, Nat.add_sub_cancel_left]
  cases p.more <;> rfl

/-- The last octet of a sequence ends the character. -/
theorem piecesFrom_last {value size k : Nat} (hk : k < 0x40) (rest : List UInt8) :
    piecesFrom (some ⟨value, 0x80, 0xbf, 0, size⟩) ((0x80 + k).toUInt8 :: rest) =
      .char (Char.ofNat (value * 0x40 + k)) :: piecesFrom none rest :=
  piecesFrom_tail (p := ⟨value, 0x80, 0xbf, 0, size⟩) hk (by omega : 0x80 ≤ 0x80 + k)
    (by omega : 0x80 + k ≤ 0xbf) rest

/-- The octets before the last one stand for themselves. -/
theorem piecesFrom_middle {value more size k : Nat} (hk : k < 0x40) (rest : List UInt8) :
    piecesFrom (some ⟨value, 0x80, 0xbf, more + 1, size⟩) ((0x80 + k).toUInt8 :: rest) =
      piecesFrom (some ⟨value * 0x40 + k, 0x80, 0xbf, more, size + 1⟩) rest :=
  piecesFrom_tail (p := ⟨value, 0x80, 0xbf, more + 1, size⟩) hk (by omega : 0x80 ≤ 0x80 + k)
    (by omega : 0x80 + k ≤ 0xbf) rest

/-- An octet that opens a sequence is read together with what follows it. -/
theorem piecesFrom_of_pending {b : UInt8} {p : Pending} (h : start b = .pending p)
    (rest : List UInt8) : piecesFrom none (b :: rest) = piecesFrom (some p) rest := by
  rw [piecesFrom, h]

/-- A character of ASCII is encoded as itself. -/
theorem encodeChar_of_lt {c : Char} (h : c.toNat < 0x80) : encodeChar c = [c.toNat.toUInt8] :=
  if_pos h

/-- The octets of a character above those of one octet are themselves above them. -/
theorem le_of_mem_encodeChar {c : Char} (h : 0x80 ≤ c.toNat) {b : UInt8} (hb : b ∈ encodeChar c) :
    0x80 ≤ b := by
  have hscalar := toNat_cases c
  have hle : ∀ n : Nat, 0x80 ≤ n → n < 0x100 → 0x80 ≤ n.toUInt8 := by
    intro n h80 h100
    rw [UInt8.le_iff_toNat_le, toNat_toUInt8 h100]
    exact h80
  simp only [encodeChar, if_neg (Nat.not_lt.mpr h)] at hb
  generalize c.toNat = n at *
  split at hb
  · simp only [List.mem_cons, List.not_mem_nil, or_false] at hb
    rcases hb with rfl | rfl <;> exact hle _ (by omega) (by omega)
  · split at hb <;> simp only [List.mem_cons, List.not_mem_nil, or_false] at hb
    · rcases hb with rfl | rfl | rfl <;> exact hle _ (by omega) (by omega)
    · rcases hb with rfl | rfl | rfl | rfl <;> exact hle _ (by omega) (by omega)

private theorem start_one {n : Nat} (h : n < 0x80) :
    start n.toUInt8 = .piece (.char (Char.ofNat n)) := by
  have hb : n.toUInt8.toNat = n := toNat_toUInt8 (by omega)
  simp only [start, hb, h, ite_true]

private theorem start_two {k : Nat} (h : 2 ≤ k) (h' : k < 0x20) :
    start (0xc0 + k).toUInt8 = .pending ⟨k, 0x80, 0xbf, 0, 1⟩ := by
  have hb : (0xc0 + k).toUInt8.toNat = 0xc0 + k := toNat_toUInt8 (by omega)
  simp only [start, hb]
  rw [if_neg (by omega), if_neg (by omega), if_pos (by omega), Nat.add_sub_cancel_left]

/-- The first of three octets leaves room for a second one that rules out shorter sequences and
surrogates. -/
theorem exists_start_three {k l : Nat} (hk : k < 0x10) (hl : l < 0x40) (hlong : k = 0 → 0x20 ≤ l)
    (hscalar : k = 0xd → l < 0x20) :
    ∃ least greatest : UInt8, start (0xe0 + k).toUInt8 = .pending ⟨k, least, greatest, 1, 1⟩ ∧
      least.toNat ≤ 0x80 + l ∧ 0x80 + l ≤ greatest.toNat := by
  have hb : (0xe0 + k).toUInt8.toNat = 0xe0 + k := toNat_toUInt8 (by omega)
  simp only [start, hb]
  rw [if_neg (by omega), if_neg (by omega), if_neg (by omega)]
  by_cases h0 : k = 0
  · subst h0
    have hl' := hlong rfl
    exact ⟨0xa0, 0xbf, rfl, (by omega : 0xa0 ≤ 0x80 + l), (by omega : 0x80 + l ≤ 0xbf)⟩
  · by_cases hd : k = 0xd
    · subst hd
      have hl' := hscalar rfl
      exact ⟨0x80, 0x9f, rfl, (by omega : 0x80 ≤ 0x80 + l), (by omega : 0x80 + l ≤ 0x9f)⟩
    · rw [if_neg (by omega), if_neg (by omega), if_pos (by omega), Nat.add_sub_cancel_left]
      exact ⟨0x80, 0xbf, rfl, (by omega : 0x80 ≤ 0x80 + l), (by omega : 0x80 + l ≤ 0xbf)⟩

/-- The first of four octets leaves room for a second one that rules out shorter sequences and
numbers above the last character. -/
theorem exists_start_four {k l : Nat} (hk : k < 5) (hl : l < 0x40) (hlong : k = 0 → 0x10 ≤ l)
    (hscalar : k = 4 → l < 0x10) :
    ∃ least greatest : UInt8, start (0xf0 + k).toUInt8 = .pending ⟨k, least, greatest, 2, 1⟩ ∧
      least.toNat ≤ 0x80 + l ∧ 0x80 + l ≤ greatest.toNat := by
  have hb : (0xf0 + k).toUInt8.toNat = 0xf0 + k := toNat_toUInt8 (by omega)
  simp only [start, hb]
  rw [if_neg (by omega), if_neg (by omega), if_neg (by omega), if_neg (by omega),
    if_neg (by omega), if_neg (by omega)]
  by_cases h0 : k = 0
  · subst h0
    have hl' := hlong rfl
    exact ⟨0x90, 0xbf, rfl, (by omega : 0x90 ≤ 0x80 + l), (by omega : 0x80 + l ≤ 0xbf)⟩
  · by_cases h4 : k = 4
    · subst h4
      have hl' := hscalar rfl
      exact ⟨0x80, 0x8f, rfl, (by omega : 0x80 ≤ 0x80 + l), (by omega : 0x80 + l ≤ 0x8f)⟩
    · rw [if_neg (by omega), if_pos (by omega), Nat.add_sub_cancel_left]
      exact ⟨0x80, 0xbf, rfl, (by omega : 0x80 ≤ 0x80 + l), (by omega : 0x80 + l ≤ 0xbf)⟩

/-- The octets of a character are read as that character. -/
theorem piecesFrom_encodeChar (c : Char) (rest : List UInt8) :
    piecesFrom none (encodeChar c ++ rest) = .char c :: piecesFrom none rest := by
  have hscalar := toNat_cases c
  have hchar : Char.ofNat c.toNat = c := Char.ofNat_toNat c
  simp only [encodeChar]
  generalize c.toNat = n at *
  by_cases h1 : n < 0x80
  · rw [if_pos h1, List.singleton_append, piecesFrom, start_one h1, hchar]
  rw [if_neg h1]
  by_cases h2 : n < 0x800
  · have hvalue : n / 0x40 * 0x40 + n % 0x40 = n := by omega
    rw [if_pos h2, List.cons_append, List.singleton_append,
      piecesFrom_of_pending (start_two (by omega) (by omega)), piecesFrom_last (by omega), hvalue,
      hchar]
  rw [if_neg h2]
  by_cases h3 : n < 0x10000
  · have hvalue : (n / 0x1000 * 0x40 + n / 0x40 % 0x40) * 0x40 + n % 0x40 = n := by omega
    obtain ⟨least, greatest, hstart, hleast, hgreatest⟩ :=
      exists_start_three (k := n / 0x1000) (l := n / 0x40 % 0x40) (by omega) (by omega) (by omega)
        (by omega)
    rw [if_pos h3, List.cons_append, List.cons_append, List.singleton_append,
      piecesFrom_of_pending hstart, piecesFrom_tail (by omega) hleast hgreatest]
    dsimp only
    rw [piecesFrom_last (by omega), hvalue, hchar]
  · have hvalue : ((n / 0x40000 * 0x40 + n / 0x1000 % 0x40) * 0x40 + n / 0x40 % 0x40) * 0x40 +
        n % 0x40 = n := by omega
    obtain ⟨least, greatest, hstart, hleast, hgreatest⟩ :=
      exists_start_four (k := n / 0x40000) (l := n / 0x1000 % 0x40) (by omega) (by omega)
        (by omega) (by omega)
    rw [if_neg h3, List.cons_append, List.cons_append, List.cons_append, List.singleton_append,
      piecesFrom_of_pending hstart, piecesFrom_tail (by omega) hleast hgreatest]
    dsimp only
    rw [piecesFrom_middle (by omega), piecesFrom_last (by omega), hvalue, hchar]

/-- The pieces of an encoded text are its characters. -/
theorem pieces_encode (s : List Char) : pieces (encode s) = s.map .char := by
  induction s with
  | nil => rfl
  | cons c s ih =>
    rw [pieces] at ih ⊢
    rw [encode, List.flatMap_cons, piecesFrom_encodeChar, ← encode, ih, List.map_cons]

private theorem charsOf_chars (s : List Char) (offset : Nat) :
    charsOf offset (s.map .char) = .ok s := by
  induction s generalizing offset with
  | nil => rfl
  | cons c s ih => rw [List.map_cons, charsOf, ih]

/-- Encoded text is read back. -/
theorem decode?_encode (s : List Char) : decode? (encode s) = some s := by
  rw [decode?, decode, pieces_encode, charsOf_chars, Except.toOption]

end Displays.Text.Utf8
