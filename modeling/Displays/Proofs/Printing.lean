import Mathlib.Data.List.Basic
import Displays.Json.Printer
import Displays.Proofs.Escapes

/-!
# Reading printed values

A value that is printed is read back, however it is nested, as long as its strings end at their
closing quote and its numerals are written as JSON has them. Printed octets are first cut into the
tokens of the value, then the tokens are put together again.
-/

namespace Displays.Json

variable {s rest : List UInt8} {digits : List Nat}

/-! ## Numerals -/

/-- The numeral is written as JSON has it: in decimal digits, with at least one before the point and
no zero in front of others. -/
structure Numeral.Sound (n : Numeral) : Prop where
  /-- Before the point stand decimal digits. -/
  whole_lt : ∀ d ∈ n.whole, d < 10
  /-- After the point stand decimal digits. -/
  fraction_lt : ∀ d ∈ n.fraction, d < 10
  /-- Digits stand before the point. -/
  whole_ne_nil : n.whole ≠ []
  /-- A zero in front stands alone. -/
  zero_alone : ∀ d rest, n.whole ≠ 0 :: d :: rest

/-- No digit stands in front. -/
def EndsDigits (s : List UInt8) : Prop :=
  ∀ b ∈ s.head?, ¬ (0x30 ≤ b ∧ b ≤ 0x39)

/-- The octets end a value that stands before them. -/
def EndsValue (s : List UInt8) : Prop :=
  ∀ b ∈ s.head?, b = 0x0a ∨ b = 0x2c

/-- What ends a value ends a run of digits. -/
theorem EndsValue.endsDigits (h : EndsValue s) : EndsDigits s := by
  intro b hb
  rcases h b hb with rfl | rfl <;> decide

private theorem digitByte_cases {d : Nat} (h : d < 10) :
    0x30 ≤ UInt8.ofNat (0x30 + d) ∧ UInt8.ofNat (0x30 + d) ≤ 0x39 ∧
      (UInt8.ofNat (0x30 + d)).toNat - 0x30 = d := by
  match d with
  | 0 | 1 | 2 | 3 | 4 | 5 | 6 | 7 | 8 | 9 => decide
  | d + 10 => omega

private theorem spanDigits_of_endsDigits (h : EndsDigits s) : spanDigits s = ([], s) := by
  cases s with
  | nil => rfl
  | cons b s => rw [spanDigits, if_neg (h b rfl)]

/-- A run of digits is taken off as far as it goes. -/
theorem spanDigits_digitBytes (hd : ∀ d ∈ digits, d < 10) (hs : EndsDigits s) :
    spanDigits (digitBytes digits ++ s) = (digits, s) := by
  induction digits with
  | nil => exact spanDigits_of_endsDigits hs
  | cons d digits ih =>
    obtain ⟨hlt, hdigits⟩ := List.forall_mem_cons.mp hd
    obtain ⟨hleast, hgreatest, hvalue⟩ := digitByte_cases hlt
    rw [digitBytes, List.map_cons, ← digitBytes, List.cons_append, spanDigits,
      if_pos ⟨hleast, hgreatest⟩, ih hdigits, hvalue]

private theorem fraction?_digitBytes (hne : digits ≠ []) (hd : ∀ d ∈ digits, d < 10)
    (hs : EndsDigits s) :
    fraction? (0x2e :: digitBytes digits ++ s) = some (digits, s) := by
  rw [List.cons_append, fraction?, spanDigits_digitBytes hd hs]
  cases digits with
  | nil => exact absurd rfl hne
  | cons d digits => rfl

/-- Every number has a digit. -/
theorem toDigits_ne_nil (n : Nat) : toDigits n ≠ [] := by
  rw [toDigits]
  split
  · exact List.cons_ne_nil n []
  · exact List.append_ne_nil_of_right_ne_nil _ (List.cons_ne_nil _ _)

/-- The digits of a number are below ten. -/
theorem lt_of_mem_toDigits (n : Nat) : ∀ d ∈ toDigits n, d < 10 := by
  induction n using Nat.strongRecOn with
  | _ n ih =>
    rw [toDigits]
    split
    · next h => exact List.forall_mem_singleton.mpr h
    · next h =>
      refine List.forall_mem_append.mpr ⟨ih (n / 10) (by omega), ?_⟩
      exact List.forall_mem_singleton.mpr (by omega)

/-- The digits of a positive number do not begin with a zero. -/
theorem head?_toDigits_ne {n : Nat} (h : 0 < n) : (toDigits n).head? ≠ some 0 := by
  induction n using Nat.strongRecOn with
  | _ n ih =>
    rw [toDigits]
    split
    · exact fun hzero => Nat.ne_of_gt h (Option.some.inj hzero)
    · next hlt =>
      rw [List.head?_append_of_ne_nil _ (toDigits_ne_nil (n / 10))]
      exact ih (n / 10) (by omega) (by omega)

namespace Numeral

variable {n : Numeral}

/-- A numeral in decimal digits that does not begin with a zero is sound. -/
theorem Sound.of_head? (hwhole : ∀ d ∈ n.whole, d < 10) (hfraction : ∀ d ∈ n.fraction, d < 10)
    (hne : n.whole ≠ []) (hhead : n.whole.head? ≠ some 0) : n.Sound where
  whole_lt := hwhole
  fraction_lt := hfraction
  whole_ne_nil := hne
  zero_alone := fun d rest heq => hhead (by rw [heq]; rfl)

/-- A whole number is written as JSON has it. -/
theorem sound_ofInt (n : Int) : (ofInt n).Sound := by
  by_cases h : 0 < n.natAbs
  · exact .of_head? (lt_of_mem_toDigits _) (fun _ hd => absurd hd List.not_mem_nil)
      (toDigits_ne_nil _) (head?_toDigits_ne h)
  · have hzero : (ofInt n).whole = [0] := by
      rw [ofInt, Nat.eq_zero_of_not_pos h, toDigits, if_pos (by decide)]
    refine ⟨?_, fun _ hd => absurd hd List.not_mem_nil, ?_, fun d rest heq => ?_⟩
    · rw [hzero]
      exact List.forall_mem_singleton.mpr (by decide)
    · rw [hzero]
      exact List.cons_ne_nil _ _
    · rw [hzero] at heq
      cases heq

/-- The numeral of a positive decimal is sound, however the decimal is laid out. -/
theorem sound_ofScientific {x : Decimal.Scientific} (h : 0 < x.digits) (negative : Bool) :
    (ofScientific negative x).Sound := by
  have hlt := lt_of_mem_toDigits x.digits
  have hne := toDigits_ne_nil x.digits
  have hhead := head?_toDigits_ne h
  have hzeros : ∀ k, ∀ d ∈ zeros k, d < 10 := by
    intro k d hd
    rw [List.eq_of_mem_replicate hd]
    decide
  have hdrop : ∀ k, ∀ d ∈ (toDigits x.digits).drop k, d < 10 := fun k d hd =>
    hlt d (List.mem_of_mem_drop hd)
  have htake : ∀ k : Nat, 0 < k → (toDigits x.digits).take k ≠ [] ∧
      ((toDigits x.digits).take k).head? ≠ some 0 := by
    intro k hk
    rw [List.head?_take, if_neg (Nat.ne_of_gt hk)]
    exact ⟨fun hnil => (List.take_eq_nil_iff.mp hnil).elim (Nat.ne_of_gt hk) hne, hhead⟩
  simp only [ofScientific]
  split
  · refine .of_head? ?_ ?_ (List.append_ne_nil_of_left_ne_nil hne _) ?_
    · exact List.forall_mem_append.mpr ⟨hlt, hzeros _⟩
    · exact List.forall_mem_singleton.mpr (by decide)
    · rw [List.head?_append_of_ne_nil _ hne]
      exact hhead
  split
  · next hpoint =>
    obtain ⟨htakeNe, htakeHead⟩ :=
      htake ((toDigits x.digits).length + x.exponent).toNat (by omega)
    exact .of_head? (fun d hd => hlt d (List.mem_of_mem_take hd)) (hdrop _) htakeNe htakeHead
  split
  · exact ⟨List.forall_mem_singleton.mpr (by decide), List.forall_mem_append.mpr ⟨hzeros _, hlt⟩,
      List.cons_ne_nil _ _, fun d rest heq => by cases heq⟩
  · obtain ⟨htakeNe, htakeHead⟩ := htake 1 Nat.one_pos
    exact .of_head? (fun d hd => hlt d (List.mem_of_mem_take hd)) (hdrop 1) htakeNe htakeHead

end Numeral

/-- A printed exponent is read back. -/
theorem exponent?_print (e : Option Int) (hs : EndsValue s) :
    exponent? (e.elim [] exponentBytes ++ s) = some (e, s) := by
  cases e with
  | none =>
    cases s with
    | nil => rfl
    | cons b s =>
      have hb : ¬ (b = 0x65 ∨ b = 0x45) := by
        rcases hs b rfl with rfl | rfl <;> decide
      rw [Option.elim_none, List.nil_append, exponent?, if_neg hb]
  | some e =>
    have hsign : ∀ rest, exponentSign ((if e < 0 then 0x2d else 0x2b) :: rest) =
        (decide (e < 0), rest) := by
      intro rest
      by_cases he : e < 0
      · rw [if_pos he, decide_eq_true he, exponentSign]
      · rw [if_neg he, decide_eq_false he, exponentSign]
    have hspan := spanDigits_digitBytes (lt_of_mem_toDigits e.natAbs) hs.endsDigits
    have hvalue := ofDigits_toDigits e.natAbs
    rw [Option.elim_some, exponentBytes, List.cons_append, List.cons_append, exponent?,
      if_pos (.inl rfl), hsign]
    dsimp only
    rw [hspan]
    cases hdigits : toDigits e.natAbs with
    | nil => exact absurd hdigits (toDigits_ne_nil e.natAbs)
    | cons d digits =>
      have hint : (if e < 0 then -(e.natAbs : Int) else e.natAbs) = e := by
        split <;> omega
      rw [hdigits] at hvalue
      simp only [hvalue, decide_eq_true_eq, hint]

private theorem head?_exponent (e : Option Int) (hs : EndsValue s) :
    ∀ b ∈ (e.elim [] exponentBytes ++ s).head?, b ≠ 0x2e ∧ ¬ (0x30 ≤ b ∧ b ≤ 0x39) := by
  intro b hb
  cases e with
  | none => rcases hs b hb with rfl | rfl <;> decide
  | some e =>
    obtain rfl := Option.some.inj hb
    decide

/-- What is printed behind the digits before the point is no digit. -/
theorem endsDigits_decimals (digits : List Nat) (e : Option Int) (hs : EndsValue s) :
    EndsDigits ((if digits = [] then [] else 0x2e :: digitBytes digits) ++
      (e.elim [] exponentBytes ++ s)) := by
  split
  · exact fun b hb => (head?_exponent e hs b hb).2
  · intro b hb
    obtain rfl := Option.some.inj hb
    decide

/-- Printed digits behind a point are read back. -/
theorem fraction?_print (hd : ∀ d ∈ digits, d < 10) (e : Option Int) (hs : EndsValue s) :
    fraction? ((if digits = [] then [] else 0x2e :: digitBytes digits) ++
      (e.elim [] exponentBytes ++ s)) = some (digits, e.elim [] exponentBytes ++ s) := by
  have hends := head?_exponent e hs
  by_cases hnil : digits = []
  · rw [if_pos hnil, List.nil_append, hnil]
    cases hrest : e.elim [] exponentBytes ++ s with
    | nil => rfl
    | cons b rest =>
      rw [fraction?]
      exact fun _ h => (hends b (by rw [hrest]; rfl)).1 (List.cons.inj h).1
  · rw [if_neg hnil]
    exact fraction?_digitBytes hnil hd fun b hb => (hends b hb).2

/-- A printed numeral is read back, behind its sign. -/
theorem unsigned?_print {n : Numeral} (h : n.Sound) (hs : EndsValue s) :
    unsigned? n.negative (digitBytes n.whole ++ ((if n.fraction = [] then [] else
      0x2e :: digitBytes n.fraction) ++ (n.exponent.elim [] exponentBytes ++ s))) =
      some (n, s) := by
  rw [unsigned?, spanDigits_digitBytes h.whole_lt (endsDigits_decimals n.fraction n.exponent hs)]
  split
  · next heq => exact absurd (Prod.mk.inj heq).1 h.whole_ne_nil
  · next heq => exact absurd (Prod.mk.inj heq).1 (h.zero_alone _ _)
  · next heq =>
    obtain ⟨rfl, rfl⟩ := Prod.mk.inj heq
    rw [fraction?_print h.fraction_lt n.exponent hs]
    simp only [Option.bind_eq_bind, Option.bind_some, exponent?_print n.exponent hs]
    rfl

/-! ## Tokens -/

/-- A minus sign is read as part of the number behind it. -/
theorem tokens?_minus {n : Numeral} (h : unsigned? true s = some (n, rest)) :
    tokens? (0x2d :: s) = (tokens? rest).map (.number n :: ·) := by
  rw [tokens?]
  split <;> simp_all only [reduceCtorEq, Option.some.injEq, Prod.mk.injEq]

/-- A digit is read as part of the number that it opens. -/
theorem tokens?_digit {b : UInt8} {n : Numeral} (hb : 0x30 ≤ b ∧ b ≤ 0x39)
    (h : unsigned? false (b :: s) = some (n, rest)) :
    tokens? (b :: s) = (tokens? rest).map (.number n :: ·) := by
  rw [tokens?]
  · split <;> simp_all only [reduceCtorEq, Option.some.injEq, Prod.mk.injEq]
  -- a digit begins none of the other tokens
  all_goals
    intros
    subst_vars
    exact absurd hb (by decide)

/-- A quote is read together with the string that it opens. -/
theorem tokens?_quote {raw : List UInt8} (h : stringBody? s = some (raw, rest)) :
    tokens? (0x22 :: s) = (tokens? rest).map (.string raw :: ·) := by
  rw [tokens?]
  split <;> simp_all only [reduceCtorEq, Option.some.injEq, Prod.mk.injEq]

/-- A printed numeral is one token. -/
theorem tokens?_numeral {n : Numeral} (h : n.Sound) (hs : EndsValue s) :
    tokens? (n.print ++ s) = (tokens? s).map (.number n :: ·) := by
  have hread := unsigned?_print h hs
  rw [Numeral.print]
  simp only [List.append_assoc]
  cases hnegative : n.negative with
  | true =>
    rw [hnegative] at hread
    exact tokens?_minus hread
  | false =>
    rw [hnegative] at hread
    obtain ⟨d, digits, hwhole⟩ := List.exists_cons_of_ne_nil h.whole_ne_nil
    have hd := digitByte_cases (h.whole_lt d (by rw [hwhole]; exact List.mem_cons_self))
    rw [hwhole] at hread ⊢
    exact tokens?_digit ⟨hd.1, hd.2.1⟩ hread

/-- The octets are those of a string up to its closing quote. -/
def Closed (raw : List UInt8) : Prop :=
  ∀ s, stringBody? (raw ++ 0x22 :: s) = some (raw, s)

/-- Escaped text has no quote that closes it early. -/
theorem closed_escape (s : List Char) : Closed (escape s) :=
  stringBody?_escape s

/-- A printed string is cut off as one token. -/
theorem tokens?_printString {raw : List UInt8} (h : Closed raw) (s : List UInt8) :
    tokens? (printString raw ++ s) = (tokens? s).map (.string raw :: ·) := by
  rw [printString, List.append_assoc]
  exact tokens?_quote (h s)

/-- A printed name and its colon are two tokens. -/
theorem tokens?_printName {name : List UInt8} (h : Closed name) (s : List UInt8) :
    tokens? (printString name ++ 0x3a :: 0x20 :: s) =
      (tokens? s).map (.string name :: .colon :: ·) := by
  rw [tokens?_printString h, tokens?, tokens?, Option.map_map]
  rfl

/-- A line feed and the indentation behind it are no tokens. -/
theorem tokens?_newLine (indent : Nat) (s : List UInt8) :
    tokens? (newLine indent ++ s) = tokens? s := by
  rw [newLine, List.cons_append, tokens?]
  induction 2 * indent with
  | zero => rfl
  | succ k ih => rw [List.replicate_succ, List.cons_append, tokens?, ih]

mutual

/-- The tokens of a value. -/
def Value.tokens : Value → List Token
  | .null => [.null]
  | .bool b => [.bool b]
  | .number n => [.number n]
  | .string raw => [.string raw]
  | .array [] => [.openArray, .closeArray]
  | .array (v :: items) => .openArray :: v.tokens ++ itemTokens items ++ [.closeArray]
  | .object [] => [.openObject, .closeObject]
  | .object ((name, v) :: members) =>
    .openObject :: .string name :: .colon :: v.tokens ++ memberTokens members ++ [.closeObject]

/-- The tokens of the items behind the first. -/
def itemTokens : List Value → List Token
  | [] => []
  | v :: items => .comma :: v.tokens ++ itemTokens items

/-- The tokens of the members behind the first. -/
def memberTokens : List (List UInt8 × Value) → List Token
  | [] => []
  | (name, v) :: members =>
    .comma :: .string name :: .colon :: v.tokens ++ memberTokens members

end

/-- Strings end at their closing quotes, and numerals are written as JSON has them. -/
inductive Value.Sound : Value → Prop where
  /-- The empty value is sound. -/
  | null : Sound .null
  /-- Truth values are sound. -/
  | bool (b : Bool) : Sound (.bool b)
  /-- A numeral is to be sound. -/
  | number {n : Numeral} (numeral : n.Sound) : Sound (.number n)
  /-- A string is to be closed. -/
  | string {raw : List UInt8} (closed : Closed raw) : Sound (.string raw)
  /-- All items are to be sound. -/
  | array {items : List Value} (values : ∀ v ∈ items, Sound v) : Sound (.array items)
  /-- All names are to be closed, and all values sound. -/
  | object {members : List (List UInt8 × Value)} (closed : ∀ m ∈ members, Closed m.1)
    (values : ∀ m ∈ members, Sound m.2) : Sound (.object members)

private theorem endsValue_newLine (indent : Nat) (s : List UInt8) :
    EndsValue (newLine indent ++ s) := by
  intro b hb
  exact .inl (Option.some.inj hb).symm

private theorem endsValue_printItems (indent : Nat) (items : List Value) (s : List UInt8)
    (k : Nat) :
    EndsValue (printItems indent items ++ (newLine k ++ s)) := by
  cases items with
  | nil => exact endsValue_newLine k s
  | cons v items =>
    intro b hb
    rw [printItems] at hb
    exact .inr (Option.some.inj hb).symm

private theorem endsValue_printMembers (indent : Nat) (members : List (List UInt8 × Value))
    (s : List UInt8) (k : Nat) :
    EndsValue (printMembers indent members ++ (newLine k ++ s)) := by
  cases members with
  | nil => exact endsValue_newLine k s
  | cons m members =>
    intro b hb
    rw [printMembers] at hb
    exact .inr (Option.some.inj hb).symm

mutual

/-- The printed octets of a value are cut into its tokens. -/
theorem tokens?_print {v : Value} (h : v.Sound) (indent : Nat) {s : List UInt8}
    (hs : EndsValue s) :
    tokens? (v.print indent ++ s) = (tokens? s).map (v.tokens ++ ·) := by
  match v, h with
  | .null, _ | .bool true, _ | .bool false, _ =>
    rw [Value.print, Value.tokens]
    simp only [List.cons_append, List.nil_append, tokens?]
  | .number n, .number hn => exact tokens?_numeral hn hs
  | .string raw, .string hraw => exact tokens?_printString hraw s
  | .array [], _ =>
    rw [Value.print, Value.tokens]
    simp only [List.cons_append, List.nil_append, tokens?, Option.map_map]
    rfl
  | .array (v :: items), .array hvalues =>
    obtain ⟨hv, hitems⟩ := List.forall_mem_cons.mp hvalues
    rw [Value.print, Value.tokens]
    simp only [List.cons_append, List.append_assoc, List.nil_append]
    rw [tokens?, tokens?_newLine, tokens?_print hv _ (endsValue_printItems _ _ _ _),
      tokens?_printItems hitems, tokens?_newLine, tokens?]
    simp only [Option.map_map]
    rfl
  | .object [], _ =>
    rw [Value.print, Value.tokens]
    simp only [List.cons_append, List.nil_append, tokens?, Option.map_map]
    rfl
  | .object ((name, v) :: members), .object hclosed hvalues =>
    obtain ⟨hname, hnames⟩ := List.forall_mem_cons.mp hclosed
    obtain ⟨hv, hmembers⟩ := List.forall_mem_cons.mp hvalues
    rw [Value.print, Value.tokens]
    simp only [List.cons_append, List.append_assoc, List.nil_append]
    rw [tokens?, tokens?_newLine, tokens?_printName hname,
      tokens?_print hv _ (endsValue_printMembers _ _ _ _), tokens?_printMembers hnames hmembers,
      tokens?_newLine, tokens?]
    simp only [Option.map_map]
    rfl

/-- Printed items are cut into their tokens, with the commas before them. -/
theorem tokens?_printItems {items : List Value} (h : ∀ v ∈ items, v.Sound) (indent k : Nat)
    (s : List UInt8) :
    tokens? (printItems indent items ++ (newLine k ++ s)) =
      (tokens? (newLine k ++ s)).map (itemTokens items ++ ·) := by
  match items, h with
  | [], _ =>
    rw [printItems, itemTokens, List.nil_append]
    exact Option.map_id'.symm
  | v :: items, h =>
    obtain ⟨hv, hitems⟩ := List.forall_mem_cons.mp h
    rw [printItems, itemTokens]
    simp only [List.cons_append, List.append_assoc]
    rw [tokens?, tokens?_newLine, tokens?_print hv _ (endsValue_printItems _ _ _ _),
      tokens?_printItems hitems]
    simp only [Option.map_map]
    rfl

/-- Printed members are cut into their tokens, with the commas before them. -/
theorem tokens?_printMembers {members : List (List UInt8 × Value)}
    (hnames : ∀ m ∈ members, Closed m.1) (hvalues : ∀ m ∈ members, m.2.Sound) (indent k : Nat)
    (s : List UInt8) :
    tokens? (printMembers indent members ++ (newLine k ++ s)) =
      (tokens? (newLine k ++ s)).map (memberTokens members ++ ·) := by
  match members, hnames, hvalues with
  | [], _, _ =>
    rw [printMembers, memberTokens, List.nil_append]
    exact Option.map_id'.symm
  | (name, v) :: members, hnames, hvalues =>
    obtain ⟨hname, hnames⟩ := List.forall_mem_cons.mp hnames
    obtain ⟨hv, hvalues⟩ := List.forall_mem_cons.mp hvalues
    rw [printMembers, memberTokens]
    simp only [List.cons_append, List.append_assoc, List.nil_append]
    rw [tokens?, tokens?_newLine, tokens?_printName hname,
      tokens?_print hv _ (endsValue_printMembers _ _ _ _), tokens?_printMembers hnames hvalues]
    simp only [Option.map_map]
    rfl

end

/-! ## Values -/

/-- Where the first item of an array may stand, a value is read as elsewhere. -/
theorem run?_item (v : Value) (stack : List Container) (ts : List Token) :
    Reader.run? ⟨stack, .item⟩ (v.tokens ++ ts) = Reader.run? ⟨stack, .value⟩ (v.tokens ++ ts) := by
  match v with
  | .null | .bool _ | .number _ | .string _ => rfl
  | .array [] | .object [] => rfl
  | .array (_ :: _) | .object (_ :: _) => rfl

mutual

/-- The tokens of a value are put together to it. -/
theorem run?_tokens (v : Value) (stack : List Container) (ts : List Token) :
    Reader.run? ⟨stack, .value⟩ (v.tokens ++ ts) = Reader.run? (.deliver v stack) ts := by
  match v with
  | .null | .bool _ | .number _ | .string _ => rfl
  | .array [] | .object [] => rfl
  | .array (v :: items) =>
    rw [Value.tokens]
    simp only [List.cons_append, List.append_assoc, List.nil_append]
    change Reader.run? ⟨.array [] :: stack, .item⟩ _ = _
    rw [run?_item, run?_tokens v]
    exact run?_itemTokens items [v] stack ts
  | .object ((name, v) :: members) =>
    rw [Value.tokens]
    simp only [List.cons_append, List.append_assoc, List.nil_append]
    change Reader.run? ⟨.object [] name :: stack, .value⟩ _ = _
    rw [run?_tokens v]
    exact run?_memberTokens members [(name, v)] name stack ts

/-- The tokens of items put them into the array that is open. -/
theorem run?_itemTokens (items done : List Value) (stack : List Container) (ts : List Token) :
    Reader.run? ⟨.array done :: stack, .separator⟩ (itemTokens items ++ .closeArray :: ts) =
      Reader.run? (.deliver (.array (done.reverse ++ items)) stack) ts := by
  match items with
  | [] =>
    rw [List.append_nil]
    rfl
  | v :: items =>
    have hdone : (v :: done).reverse ++ items = done.reverse ++ v :: items := by
      rw [List.reverse_cons, List.append_assoc, List.singleton_append]
    rw [itemTokens, ← hdone, ← run?_itemTokens items (v :: done)]
    simp only [List.cons_append, List.append_assoc]
    exact run?_tokens v (.array done :: stack) _

/-- The tokens of members put them into the object that is open. -/
theorem run?_memberTokens (members done : List (List UInt8 × Value)) (name : List UInt8)
    (stack : List Container) (ts : List Token) :
    Reader.run? ⟨.object done name :: stack, .separator⟩
        (memberTokens members ++ .closeObject :: ts) =
      Reader.run? (.deliver (.object (done.reverse ++ members)) stack) ts := by
  match members with
  | [] =>
    rw [List.append_nil]
    rfl
  | (next, v) :: members =>
    have hdone : ((next, v) :: done).reverse ++ members = done.reverse ++ (next, v) :: members := by
      rw [List.reverse_cons, List.append_assoc, List.singleton_append]
    rw [memberTokens, ← hdone, ← run?_memberTokens members ((next, v) :: done) next]
    simp only [List.cons_append, List.append_assoc]
    exact run?_tokens v (.object done next :: stack) _

end

/-- A printed value is read back. -/
theorem read?_print {v : Value} (h : v.Sound) (indent : Nat) :
    Value.read? (v.print indent) = some v := by
  have htokens := tokens?_print h indent (s := []) fun b hb => nomatch hb
  rw [List.append_nil] at htokens
  rw [Value.read?, htokens, tokens?]
  exact run?_tokens v [] []

end Displays.Json
