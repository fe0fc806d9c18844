import Mathlib.Logic.Basic
import Mathlib.Tactic.SplitIfs
import Displays.Proofs.Numerals
import Displays.Sway.Command

/-!
# Telling commands apart

A command to sway says what is requested of an output and nothing else: each of its parts ends at a
character that the part does not contain, and the name ends at its closing quote unless it contains
one. So what was requested can be told from the command.
-/

namespace Displays.Sway

open Decimal (digitChars isDigit_of_mem_digitChars isDigit_of_mem_padded ofDigitChars_digitChars
  ofDigitChars_padded padded plainText signedChars)

/-! ## Commands -/

/-- The picture that an output is to show. -/
structure Picture where
  /-- The position. -/
  topLeft : Point
  /-- The scale, as it is printed. -/
  scale : String
  /-- The mode, if there is one. -/
  mode : Option Mode
  /-- The display is to be lit. -/
  lit : Bool
  deriving DecidableEq, Repr

/-- What is requested of an output. -/
structure Demand where
  /-- The output. -/
  id : OutputId
  /-- What it is to show; nothing if it is to be off. -/
  picture : Option Picture
  deriving DecidableEq, Repr

/-- What a command requests of its output. -/
def demand (o : Output) : Demand where
  id := o.id
  picture := if o.used then some ⟨o.topLeft, plainText o.scale, o.mode?, o.power = .on⟩ else none

/-- What a configuration requests of its connected outputs. -/
def demands (c : Configuration) : List Demand :=
  (c.outputs.filter Output.connected).map demand

/-- The end of a command, from the power mode on. -/
def powerText (lit : Bool) : List Char :=
  "power ".toList ++ if lit then "on".toList else "off".toList

/-- The end of a command, from the mode on. -/
def modeText (lit : Bool) : Option Mode → List Char
  | none => powerText lit
  | some m =>
    "mode ".toList ++ (digitChars m.resolution.width ++ 'x' :: (digitChars m.resolution.height ++
      '@' :: (digitChars (m.refresh / 1000) ++ '.' :: ((padded 3 (m.refresh % 1000)).toList ++
        'H' :: 'z' :: ' ' :: powerText lit))))

/-- The end of a command, from what is requested on. -/
def pictureText : Option Picture → List Char
  | none => "disable".toList
  | some p =>
    "enable position ".toList ++ (signedChars p.topLeft.x ++ ' ' :: (signedChars p.topLeft.y ++
      ' ' :: ("scale ".toList ++ (p.scale.toList ++ ' ' :: modeText p.lit p.mode))))

private theorem pictureText_some (p : Picture) :
    pictureText (some p) =
      "enable position ".toList ++ (signedChars p.topLeft.x ++ ' ' :: (signedChars p.topLeft.y ++
        ' ' :: ("scale ".toList ++ (p.scale.toList ++ ' ' :: modeText p.lit p.mode)))) := rfl

/-- The characters of the command that makes a demand. -/
def Demand.text (d : Demand) : List Char :=
  "output ".toList ++ '"' :: (d.id.toList ++ '"' :: ' ' :: pictureText d.picture)

/-- A natural number is printed in its digits. -/
theorem toList_toString_nat (n : Nat) : (toString n).toList = digitChars n := by
  rw [Nat.toString_eq_repr, Nat.repr]
  exact String.toList_ofList

/-- A whole number is printed in its digits, behind a minus sign if it is negative. -/
theorem toList_toString_int (n : Int) : (toString n).toList = signedChars n := by
  have hrepr : ∀ k : Nat, k.repr.toList = digitChars k := toList_toString_nat
  cases n with
  | ofNat k => exact hrepr k
  | negSucc k =>
    have hneg : Int.negSucc k < 0 := Int.negSucc_lt_zero k
    rw [Int.toString_eq_repr, Int.repr, String.toList_append, hrepr, signedChars, if_pos hneg]
    rfl

/-- The command that switches an output off is the text of this request. -/
theorem toList_disable (id : OutputId) : (disable id).toList = (⟨id, none⟩ : Demand).text := by
  have hfront : "output \"".toList = "output ".toList ++ ['"'] := rfl
  have hback : "\" disable".toList = '"' :: ' ' :: "disable".toList := rfl
  change ("output \"" ++ id ++ "\" disable").toList =
    "output ".toList ++ '"' :: (id.toList ++ '"' :: ' ' :: "disable".toList)
  simp only [String.toList_append, hfront, hback, List.append_assoc, List.cons_append,
    List.nil_append]

private theorem toList_modePart (m : Mode) (lit : Bool) :
    (modePart m).toList ++ ' ' :: powerText lit = ' ' :: modeText lit (some m) := by
  have hfront : " mode ".toList = ' ' :: "mode ".toList := rfl
  have hback : "Hz".toList = ['H', 'z'] := rfl
  have hx : "x".toList = ['x'] := rfl
  have hat : "@".toList = ['@'] := rfl
  have hpoint : ".".toList = ['.'] := rfl
  change (" mode " ++ toString m.resolution.width ++ "x" ++ toString m.resolution.height ++ "@" ++
    toString (m.refresh / 1000) ++ "." ++ padded 3 (m.refresh % 1000) ++ "Hz").toList ++
      ' ' :: powerText lit =
    ' ' :: ("mode ".toList ++ (digitChars m.resolution.width ++ 'x' ::
      (digitChars m.resolution.height ++ '@' :: (digitChars (m.refresh / 1000) ++ '.' ::
        ((padded 3 (m.refresh % 1000)).toList ++ 'H' :: 'z' :: ' ' :: powerText lit)))))
  simp only [String.toList_append, toList_toString_nat, hfront, hback, hx, hat, hpoint,
    List.append_assoc, List.cons_append, List.nil_append]

/-- The command that enables an output is the text of what is requested of it. -/
theorem toList_enable {o : Output} (ho : o.used = true) : (enable o).toList = (demand o).text := by
  have hfront : "output \"".toList = "output ".toList ++ ['"'] := rfl
  have henable : "\" enable position ".toList = '"' :: ' ' :: "enable position ".toList := rfl
  have hspace : " ".toList = [' '] := rfl
  have hpower : " power ".toList ++ (if o.power = .on then "on" else "off").toList =
      ' ' :: powerText (o.power = .on) := by
    by_cases h : o.power = .on <;> simp only [h] <;> rfl
  have hmode : ((o.mode?.map modePart).getD "").toList ++ ' ' :: powerText (o.power = .on) =
      ' ' :: modeText (o.power = .on) o.mode? := by
    cases o.mode? with
    | none => rfl
    | some m => exact toList_modePart m _
  have hpicture : (demand o).picture =
      some ⟨o.topLeft, plainText o.scale, o.mode?, o.power = .on⟩ := if_pos ho
  change (("output \"" ++ o.id ++ "\" enable position " ++ toString o.topLeft.x ++ " " ++
    toString o.topLeft.y ++ " ") ++ ("scale " ++ plainText o.scale ++
      (o.mode?.map modePart).getD "" ++ " power " ++
        if o.power = .on then "on" else "off")).toList =
    "output ".toList ++ '"' :: (o.id.toList ++ '"' :: ' ' :: pictureText (demand o).picture)
  rw [hpicture, pictureText_some]
  simp only [String.toList_append, toList_toString_int, hfront, henable, hspace, hpower, hmode,
    List.append_assoc, List.cons_append, List.nil_append]

/-! ## What ends where -/

section Words

variable {l l' s s' : List Char} {c : Char}

/-- A text is split at a character where it stands first. -/
theorem splitAt?_append (hl : c ∉ l) (s : List Char) : splitAt? c (l ++ c :: s) = some (l, s) := by
  induction l with
  | nil => exact if_pos rfl
  | cons d l ih =>
    obtain ⟨hd, hl⟩ := not_or.mp (List.mem_cons.not.mp hl)
    rw [List.cons_append, splitAt?, if_neg fun h => hd h.symm, ih hl, Option.map_some]

/-- What ends at a character that it does not contain can be told from what stands behind it. -/
theorem append_cons_inj (hl : c ∉ l) (hl' : c ∉ l') (h : l ++ c :: s = l' ++ c :: s') :
    l = l' ∧ s = s' := by
  have hsplit := (splitAt?_append hl s).symm.trans ((congrArg _ h).trans (splitAt?_append hl' s'))
  exact Prod.mk.inj (Option.some.inj hsplit)

/-- The characters belong to one word: there are no spaces, and none that mean anything in a message
are among them. -/
def IsWord (l : List Char) : Prop :=
  ∀ c ∈ l, c ≠ ' ' ∧ c ≠ '"' ∧ c ≠ ';'

instance (l : List Char) : Decidable (IsWord l) :=
  List.decidableBAll (fun c => c ≠ ' ' ∧ c ≠ '"' ∧ c ≠ ';') l

/-- Words without anything between them are one word. -/
theorem IsWord.append (hl : IsWord l) (hl' : IsWord l') : IsWord (l ++ l') :=
  List.forall_mem_append.mpr ⟨hl, hl'⟩

private theorem IsWord.cons (hc : IsWord [c]) (hl : IsWord l) : IsWord (c :: l) :=
  IsWord.append hc hl

/-- What is no digit is not among digits. -/
theorem not_mem_of_isDigit (hl : ∀ d ∈ l, d.isDigit = true) (hc : c.isDigit = false) : c ∉ l := by
  intro hmem
  rw [hl c hmem] at hc
  cases hc

/-- Digits are a word. -/
theorem isWord_of_isDigit (hl : ∀ c ∈ l, c.isDigit = true) : IsWord l := by
  intro c hc
  have hdigit := hl c hc
  refine ⟨?_, ?_, ?_⟩
  all_goals
    rintro rfl
    cases hdigit

/-- The digits of a number are a word. -/
theorem isWord_digitChars (n : Nat) : IsWord (digitChars n) :=
  isWord_of_isDigit fun _ => isDigit_of_mem_digitChars

/-- The digits of a number with its sign are a word. -/
theorem isWord_signedChars (n : Int) : IsWord (signedChars n) := by
  rw [signedChars]
  split
  · exact IsWord.cons (by decide) (isWord_digitChars _)
  · exact isWord_digitChars _

private theorem isWord_positional (x : Decimal.Scientific) : IsWord x.positional := by
  have hzeros : ∀ n, IsWord (List.replicate n '0') := by
    intro n c hc
    rw [List.eq_of_mem_replicate hc]
    decide
  rw [Decimal.Scientific.positional]
  split
  · exact (isWord_digitChars _).append (hzeros _)
  · rename_i n _
    have hpadded := (hzeros (n + 1 + 1 - (digitChars x.digits).length)).append
      (isWord_digitChars x.digits)
    refine IsWord.append (fun c hc => hpadded c (List.mem_of_mem_take hc)) (IsWord.cons ?_ ?_)
    · decide
    · exact fun c hc => hpadded c (List.mem_of_mem_drop hc)

/-- The text of a double is one word. -/
theorem isWord_plainText (x : Float) : IsWord (plainText x).toList := by
  rw [plainText]
  split
  · decide
  · split <;> decide
  · rename_i negative m q _
    rw [String.toList_ofList]
    refine IsWord.append ?_ ?_
    · split <;> decide
    · split
      · decide
      · exact isWord_positional _

/-- Different numbers have different digits. -/
theorem digitChars_inj {m n : Nat} (h : digitChars m = digitChars n) : m = n := by
  rw [← ofDigitChars_digitChars m, h, ofDigitChars_digitChars]

/-- A number that ends at no digit can be told from what stands behind it. -/
theorem digitChars_append_inj {m n : Nat} (hc : c.isDigit = false)
    (h : digitChars m ++ c :: s = digitChars n ++ c :: s') : m = n ∧ s = s' := by
  have hnot : ∀ k, c ∉ digitChars k := fun _ =>
    not_mem_of_isDigit (fun _ => isDigit_of_mem_digitChars) hc
  obtain ⟨hdigits, hrest⟩ := append_cons_inj (hnot m) (hnot n) h
  exact ⟨digitChars_inj hdigits, hrest⟩

/-- Different numbers have different digits, zeros in front or not. -/
theorem padded_inj {width m n : Nat} (h : (padded width m).toList = (padded width n).toList) :
    m = n := by
  rw [← ofDigitChars_padded width m, h, ofDigitChars_padded]

/-- Different numbers have different digits or signs. -/
theorem signedChars_inj {m n : Int} (h : signedChars m = signedChars n) : m = n := by
  have hminus : ∀ k k' : Nat, '-' :: digitChars k ≠ digitChars k' := fun k k' h =>
    not_mem_of_isDigit (fun _ => isDigit_of_mem_digitChars) rfl (h ▸ List.mem_cons_self)
  rw [signedChars, signedChars] at h
  split_ifs at h with hm hn hn
  · have habs := digitChars_inj (List.cons.inj h).2
    omega
  · exact absurd h (hminus _ _)
  · exact absurd h.symm (hminus _ _)
  · have habs := digitChars_inj h
    omega

end Words

/-! ## What a command says -/

section Telling

variable {lit lit' : Bool}

private theorem powerText_inj (h : powerText lit = powerText lit') : lit = lit' := by
  have hlength := congrArg List.length h
  cases lit <;> cases lit' <;> first | rfl | cases hlength

/-- Modes are the same if their extents and the parts of their refresh rates before and behind the
point are. -/
theorem mode_ext {m m' : Mode} (hwidth : m.resolution.width = m'.resolution.width)
    (hheight : m.resolution.height = m'.resolution.height)
    (hthousands : m.refresh / 1000 = m'.refresh / 1000)
    (hrest : m.refresh % 1000 = m'.refresh % 1000) : m = m' := by
  obtain ⟨⟨width, height⟩, refresh⟩ := m
  obtain ⟨⟨width', height'⟩, refresh'⟩ := m'
  have hrefresh : refresh = refresh' := by
    rw [← Nat.div_add_mod refresh 1000, hthousands, hrest]
    exact Nat.div_add_mod refresh' 1000
  simp only at hwidth hheight
  rw [hwidth, hheight, hrefresh]

/-- The end of a command tells the mode and whether the display is lit. -/
theorem modeText_inj {mode mode' : Option Mode} (h : modeText lit mode = modeText lit' mode') :
    lit = lit' ∧ mode = mode' := by
  have hmiss : ∀ lit lit' m, powerText lit ≠ modeText lit' (some m) := by
    intro lit lit' m h
    have hhead : some 'p' = some 'm' := congrArg List.head? h
    exact absurd hhead (by decide)
  cases mode with
  | none =>
    cases mode' with
    | none => exact ⟨powerText_inj h, rfl⟩
    | some m => exact absurd h (hmiss _ _ _)
  | some m =>
    cases mode' with
    | none => exact absurd h.symm (hmiss _ _ _)
    | some m' =>
      have hmode := List.append_cancel_left h
      obtain ⟨hwidth, h⟩ := digitChars_append_inj rfl (List.append_cancel_left h)
      obtain ⟨hheight, h⟩ := digitChars_append_inj rfl h
      obtain ⟨hthousands, h⟩ := digitChars_append_inj rfl h
      obtain ⟨hrest, h⟩ := append_cons_inj (not_mem_of_isDigit (fun _ => isDigit_of_mem_padded) rfl)
        (not_mem_of_isDigit (fun _ => isDigit_of_mem_padded) rfl) h
      have hlit := powerText_inj (List.cons.inj (List.cons.inj h).2).2
      exact ⟨hlit, congrArg some (mode_ext hwidth hheight hthousands (padded_inj hrest))⟩

private theorem picture_ext {p q : Picture} (hx : p.topLeft.x = q.topLeft.x)
    (hy : p.topLeft.y = q.topLeft.y) (hscale : p.scale = q.scale) (hmode : p.mode = q.mode)
    (hlit : p.lit = q.lit) : p = q := by
  obtain ⟨⟨x, y⟩, scale, mode, lit⟩ := p
  obtain ⟨⟨x', y'⟩, scale', mode', lit'⟩ := q
  simp only at hx hy hscale hmode hlit
  rw [hx, hy, hscale, hmode, hlit]

/-- What stands behind the name in a command tells the picture. -/
theorem pictureText_inj {p q : Option Picture} (hp : ∀ a ∈ p, IsWord a.scale.toList)
    (hq : ∀ a ∈ q, IsWord a.scale.toList) (h : pictureText p = pictureText q) : p = q := by
  have hmiss : ∀ p, pictureText none ≠ pictureText (some p) := by
    intro p h
    have hhead : some 'd' = some 'e' := congrArg List.head? h
    exact absurd hhead (by decide)
  have hspace : ∀ {l}, IsWord l → ' ' ∉ l := fun hl hmem => (hl ' ' hmem).1 rfl
  cases p with
  | none =>
    cases q with
    | none => rfl
    | some q => exact absurd h (hmiss q)
  | some p =>
    cases q with
    | none => exact absurd h.symm (hmiss p)
    | some q =>
      have hnumber : ∀ n, ' ' ∉ signedChars n := fun n => hspace (isWord_signedChars n)
      obtain ⟨hx, h⟩ := append_cons_inj (hnumber _) (hnumber _) (List.append_cancel_left h)
      obtain ⟨hy, h⟩ := append_cons_inj (hnumber _) (hnumber _) h
      obtain ⟨hscale, h⟩ := append_cons_inj (hspace (hp p rfl)) (hspace (hq q rfl))
        (List.append_cancel_left h)
      obtain ⟨hlit, hmode⟩ := modeText_inj h
      exact congrArg some (picture_ext (signedChars_inj hx) (signedChars_inj hy)
        (String.toList_injective hscale) hmode hlit)

/-- A demand can be made: its name ends at the closing quote, and its scale is one word. -/
structure Demand.Clear (d : Demand) : Prop where
  /-- There is no quote in the name. -/
  quote_notMem : '"' ∉ d.id.toList
  /-- The scale is printed as one word. -/
  isWord_scale : ∀ p ∈ d.picture, IsWord p.scale.toList

/-- What is requested of an output without a quote in its name can be told from the command. -/
theorem clear_demand {o : Output} (h : '"' ∉ o.id.toList) : (demand o).Clear := by
  refine ⟨h, fun p hp => ?_⟩
  change (if o.used = true then _ else none) = some p at hp
  split_ifs at hp
  cases hp
  exact isWord_plainText o.scale

/-- A command tells what it requests. -/
theorem Demand.text_inj {d e : Demand} (hd : d.Clear) (he : e.Clear) (h : d.text = e.text) :
    d = e := by
  obtain ⟨hid, h⟩ := append_cons_inj hd.quote_notMem he.quote_notMem
    (List.cons.inj (List.append_cancel_left h)).2
  have hpicture := pictureText_inj hd.isWord_scale he.isWord_scale (List.cons.inj h).2
  obtain ⟨id, picture⟩ := d
  obtain ⟨id', picture'⟩ := e
  have hid : id = id' := String.toList_injective hid
  simp only at hpicture
  rw [hid, hpicture]

end Telling

end Displays.Sway
