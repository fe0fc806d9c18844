import Mathlib.Data.List.Infix
import Mathlib.Data.List.TakeWhile
import Displays.Text.Scan

/-!
# Splitting and scanning

A line that is followed by a line feed is split off as it is, so long as it has no line feed itself
and does not end in a carriage return.

A scanner for a run takes all of it where the text does not go on with another character of the run,
and a scanner for fixed characters takes them where the text begins with them. Scanning to the last
occurrence of something does not depend on what stands before an occurrence, nor on characters with
which no occurrence begins.
-/

namespace Displays.Text

variable {p q : Char → Bool} {l s t w : List Char} {c : Char}

/-- The text does not begin with a character that satisfies `p`. -/
def Stops (p : Char → Bool) (s : List Char) : Prop :=
  s.head?.any p = false

instance (p : Char → Bool) (s : List Char) : Decidable (Stops p s) :=
  inferInstanceAs (Decidable (_ = _))

/-- A text stops a run exactly if its first character does not belong to the run. -/
@[simp] theorem stops_cons : Stops p (c :: s) ↔ p c = false := Iff.rfl

/-- A text that begins with a text begins as that one does. -/
theorem Stops.append (hl : Stops p l) (hne : l ≠ []) (s : List Char) : Stops p (l ++ s) := by
  cases l with
  | nil => exact absurd rfl hne
  | cons c l => exact hl

/-- The characters of a text are no blanks if they all are none. -/
theorem forall_isBlank_eq_false (h : l.all (!isBlank ·) = true) : ∀ c ∈ l, isBlank c = false :=
  fun c hc => Bool.not_eq_true' _ ▸ List.all_eq_true.mp h c hc

section Lines

/-- The text is what is left of a line without its end. -/
def IsLine (l : List Char) : Prop :=
  '\n' ∉ l ∧ l.getLast? ≠ some '\r'

instance (l : List Char) : Decidable (IsLine l) :=
  inferInstanceAs (Decidable (_ ∧ _))

private theorem isLine_of_not_mem (hn : '\n' ∉ l) (hr : '\r' ∉ l) : IsLine l :=
  ⟨hn, fun h => hr (List.mem_of_getLast? h)⟩

/-- Characters that are no blanks stand on one line. -/
theorem isLine_of_forall_not_isBlank (h : ∀ c ∈ l, isBlank c = false) : IsLine l :=
  isLine_of_not_mem (fun hm => Bool.noConfusion (h _ hm)) fun hm => Bool.noConfusion (h _ hm)

/-- A line may begin in any way without a line feed. -/
theorem IsLine.append (hs : IsLine s) (hne : s ≠ []) (hl : '\n' ∉ l) : IsLine (l ++ s) := by
  refine ⟨fun h => ?_, ?_⟩
  · exact (List.mem_append.mp h).elim hl hs.1
  · rw [List.getLast?_append_of_ne_nil l hne]
    exact hs.2

/-- A character that ends no line belongs to the first line of the rest. -/
theorem lines_cons (hn : c ≠ '\n') (hr : c = '\r' → s.head? ≠ some '\n') :
    lines (c :: s) =
      match lines s with
      | [] => [[c]]
      | line :: more => (c :: line) :: more := by
  rw [lines]
  · exact if_neg hn
  · intro rest hc hs
    exact hr hc (hs ▸ rfl)

/-- A line before a line feed is split off. -/
theorem lines_append_newline (h : IsLine l) (s : List Char) :
    lines (l ++ '\n' :: s) = l :: lines s := by
  induction l with
  | nil => exact lines_newline s
  | cons c l ih =>
    obtain ⟨hn, hr⟩ := h
    obtain ⟨hc, hl⟩ := not_or.mp (mt List.mem_cons.mpr hn)
    have hhead : c = '\r' → (l ++ '\n' :: s).head? ≠ some '\n' := by
      rintro rfl
      cases l with
      | nil => exact absurd rfl hr
      | cons d l =>
        intro hd
        exact hl (Option.some.inj hd ▸ List.mem_cons_self)
    have hline : IsLine l := by
      refine ⟨hl, ?_⟩
      cases l with
      | nil => exact Option.some_ne_none _ |>.symm
      | cons d l => rwa [List.getLast?_cons_cons] at hr
    rw [List.cons_append, lines_cons (Ne.symm hc) hhead, ih hline]

/-- A text of lines, each with a line feed behind it. -/
def unlines (ls : List (List Char)) : List Char :=
  ls.flatMap (· ++ ['\n'])

/-- What is put together of lines is split into them. -/
theorem lines_unlines {ls : List (List Char)} (h : ∀ l ∈ ls, IsLine l) :
    lines (unlines ls) = ls := by
  induction ls with
  | nil => exact lines_nil
  | cons l ls ih =>
    obtain ⟨hl, hls⟩ := List.forall_mem_cons.mp h
    have hcons : unlines (l :: ls) = l ++ '\n' :: unlines ls := by
      rw [unlines, List.flatMap_cons, List.append_assoc]
      rfl
    rw [hcons, lines_append_newline hl, ih hls]

/-- The text is empty or ends with a line feed. -/
def Ended (s : List Char) : Prop :=
  ∀ c ∈ s.getLast?, c = '\n'

instance (s : List Char) : Decidable (Ended s) :=
  Option.decidableForallMem s.getLast?

private theorem Ended.of_cons (h : Ended (c :: s)) : Ended s := by
  cases s with
  | nil => exact fun _ h => nomatch h
  | cons d s => exact fun x hx => h x (by rwa [List.getLast?_cons_cons])

/-- Of an ended text, a character other than a line feed is not the last one. -/
theorem Ended.ne_nil_of_cons (h : Ended (c :: s)) (hc : c ≠ '\n') : s ≠ [] := by
  rintro rfl
  exact hc (h c rfl)

private theorem lines_ne_nil (h : s ≠ []) : lines s ≠ [] := by
  fun_cases lines s with
  | case1 => exact absurd rfl h
  | case2 => exact List.cons_ne_nil _ _
  | case3 => exact List.cons_ne_nil _ _
  | case4 => exact List.cons_ne_nil _ _
  | case5 => exact List.cons_ne_nil _ _

/-- What stands behind an ended text does not change its lines. -/
theorem lines_append (h : Ended s) (t : List Char) : lines (s ++ t) = lines s ++ lines t := by
  fun_induction lines s with
  | case1 => rfl
  | case2 s ih =>
    rw [List.cons_append, List.cons_append, lines, ih h.of_cons.of_cons, List.cons_append]
  | case3 s hs ih =>
    rw [List.cons_append, lines_newline, ih h.of_cons, List.cons_append]
  | case4 c s hs hc hnil ih =>
    exact absurd hnil (lines_ne_nil (h.ne_nil_of_cons hc))
  | case5 c s hs hc line more hmore ih =>
    have hhead : c = '\r' → (s ++ t).head? ≠ some '\n' := by
      rintro rfl
      cases s with
      | nil => exact absurd rfl (h.ne_nil_of_cons hc)
      | cons d s =>
        intro hd
        exact hs s rfl (Option.some.inj hd ▸ rfl)
    rw [List.cons_append, lines_cons hc hhead, ih h.of_cons, hmore]
    rfl

end Lines

section Runs

private theorem takeWhile_append_of_stops (h : ∀ c ∈ l, p c = true) (hs : Stops p s) :
    (l ++ s).takeWhile p = l := by
  rw [List.takeWhile_append_of_pos h]
  cases s with
  | nil => rw [List.takeWhile_nil, List.append_nil]
  | cons c s =>
    rw [List.takeWhile_cons_of_neg (Bool.eq_false_iff.mp (stops_cons.mp hs)), List.append_nil]

private theorem dropWhile_append_of_stops (h : ∀ c ∈ l, p c = true) (hs : Stops p s) :
    (l ++ s).dropWhile p = s := by
  rw [List.dropWhile_append_of_pos h]
  cases s with
  | nil => rfl
  | cons c s => rw [List.dropWhile_cons_of_neg (Bool.eq_false_iff.mp (stops_cons.mp hs))]

/-- A run is taken up to where it stops. -/
theorem run?_append (hne : l ≠ []) (h : ∀ c ∈ l, p c = true) (hs : Stops p s) :
    run? p (l ++ s) = some (l, s) := by
  rw [run?, takeWhile_append_of_stops h hs, dropWhile_append_of_stops h hs]
  cases l with
  | nil => exact absurd rfl hne
  | cons c l => rfl

/-- No run is taken where none begins. -/
theorem run?_of_stops (hs : Stops p s) : run? p s = none := by
  have h := takeWhile_append_of_stops (l := []) (fun _ h => absurd h List.not_mem_nil) hs
  rw [List.nil_append] at h
  rw [run?, h]

/-- A blank is taken off the front. -/
theorem blank?_cons (h : isBlank c = true) (s : List Char) : blank? (c :: s) = some s := by
  rw [blank?, if_pos h]

/-- Where no blank stands in front, none is taken. -/
theorem blank?_of_stops (hs : Stops isBlank s) : blank? s = none := by
  cases s with
  | nil => rfl
  | cons c s => rw [blank?, stops_cons.mp hs, if_neg Bool.false_ne_true]

/-- Blanks are taken up to where they stop. -/
theorem blanks?_append (hne : l ≠ []) (h : ∀ c ∈ l, isBlank c = true) (hs : Stops isBlank s) :
    blanks? (l ++ s) = some s := by
  cases l with
  | nil => exact absurd rfl hne
  | cons c l =>
    obtain ⟨hc, hl⟩ := List.forall_mem_cons.mp h
    rw [List.cons_append, blanks?, blank?_cons hc, Option.map_some, dropWhile_append_of_stops hl hs]

/-- A single blank is taken. -/
theorem blanks?_space (hs : Stops isBlank s) : blanks? (' ' :: s) = some s :=
  blanks?_append (List.cons_ne_nil ' ' []) (List.all_eq_true.mp rfl) hs

/-- Where no blank stands in front, no blanks are taken. -/
theorem blanks?_of_stops (hs : Stops isBlank s) : blanks? s = none := by
  rw [blanks?, blank?_of_stops hs, Option.map_none]

/-- Exactly as many characters are taken as are asked for. -/
theorem exactly?_append (h : ∀ c ∈ l, p c = true) (s : List Char) :
    exactly? p l.length (l ++ s) = some (l, s) := by
  induction l with
  | nil => rfl
  | cons c l ih =>
    obtain ⟨hc, hl⟩ := List.forall_mem_cons.mp h
    rw [List.length_cons, List.cons_append, exactly?, if_pos hc, ih hl, Option.map_some]

/-- What is taken satisfies `p`. -/
theorem of_exactly?_eq_some {n : Nat} (h : exactly? p n s = some (l, t)) :
    s = l ++ t ∧ ∀ c ∈ l, p c = true := by
  induction n generalizing s l with
  | zero =>
    obtain ⟨rfl, rfl⟩ := (Prod.mk.injEq ..).mp (Option.some.inj h)
    exact ⟨rfl, fun _ h => absurd h List.not_mem_nil⟩
  | succ n ih =>
    cases s with
    | nil => cases h
    | cons c s =>
      rw [exactly?] at h
      by_cases hc : p c = true
      · rw [if_pos hc] at h
        obtain ⟨⟨l', t'⟩, h', heq⟩ := Option.map_eq_some_iff.mp h
        obtain ⟨rfl, rfl⟩ := (Prod.mk.injEq ..).mp heq
        obtain ⟨rfl, hl⟩ := ih h'
        exact ⟨rfl, List.forall_mem_cons.mpr ⟨hc, hl⟩⟩
      · rw [if_neg hc] at h
        cases h

/-- What is taken has the length that is asked for. -/
theorem length_of_exactly?_eq_some {n : Nat} (h : exactly? p n s = some (l, t)) :
    l.length = n := by
  induction n generalizing s l with
  | zero =>
    obtain ⟨rfl, _⟩ := (Prod.mk.injEq ..).mp (Option.some.inj h)
    rfl
  | succ n ih =>
    cases s with
    | nil => cases h
    | cons c s =>
      rw [exactly?] at h
      by_cases hc : p c = true
      · rw [if_pos hc] at h
        obtain ⟨⟨l', t'⟩, h', heq⟩ := Option.map_eq_some_iff.mp h
        obtain ⟨rfl, rfl⟩ := (Prod.mk.injEq ..).mp heq
        rw [List.length_cons, ih h']
      · rw [if_neg hc] at h
        cases h

/-- Blanks are taken off the front. -/
theorem of_blanks?_eq_some (h : blanks? s = some t) :
    ∃ l, s = l ++ t ∧ ∀ c ∈ l, isBlank c = true := by
  cases s with
  | nil => cases h
  | cons c s =>
    rw [blanks?, blank?] at h
    by_cases hc : isBlank c = true
    · rw [if_pos hc, Option.map_some, Option.some.injEq] at h
      refine ⟨c :: s.takeWhile isBlank, ?_, List.forall_mem_cons.mpr ⟨hc, fun _ hm =>
        List.mem_takeWhile_imp hm⟩⟩
      rw [← h, List.cons_append, List.takeWhile_append_dropWhile]
    · rw [if_neg hc] at h
      cases h

end Runs

section Literals

/-- Fixed characters are taken exactly where the text begins with them. -/
theorem literal?_eq_some_iff : literal? w s = some t ↔ s = w ++ t := by
  induction w generalizing s with
  | nil => rw [literal?, Option.some.injEq, List.nil_append]
  | cons c w ih =>
    cases s with
    | nil => simp only [literal?, reduceCtorEq, List.cons_append]
    | cons d s =>
      by_cases h : c = d
      · rw [literal?, if_pos h, ih, List.cons_append, List.cons.injEq, eq_comm (a := d),
          and_iff_right h]
      · rw [literal?, if_neg h, List.cons_append, List.cons.injEq]
        exact iff_of_false (fun h => by cases h) fun h' => h h'.1.symm

/-- Fixed characters are taken off the front. -/
@[simp] theorem literal?_append (w s : List Char) : literal? w (w ++ s) = some s :=
  literal?_eq_some_iff.mpr rfl

/-- Fixed characters are taken where nothing else stands. -/
@[simp] theorem literal?_self (w : List Char) : literal? w w = some [] :=
  literal?_eq_some_iff.mpr (List.append_nil w).symm

/-- What a word without blanks leaves of another one either is nothing or does not begin with a
blank. -/
theorem rest_of_literal?_append {d : Char} (hw : ∀ c ∈ w, isBlank c = false)
    (hl : ∀ c ∈ l, isBlank c = false) (hd : isBlank d = true)
    (h : literal? w (l ++ d :: s) = some t) : t = d :: s ∨ Stops isBlank t := by
  rw [literal?_eq_some_iff, List.append_eq_append_iff] at h
  rcases h with ⟨a, rfl, ha⟩ | ⟨a, rfl, rfl⟩
  · cases a with
    | nil => exact .inl ha.symm
    | cons x a =>
      obtain ⟨rfl, _⟩ := (List.cons.injEq ..).mp ha
      have hx := hw d (List.mem_append_right l List.mem_cons_self)
      rw [hd] at hx
      cases hx
  · cases a with
    | nil => exact .inl rfl
    | cons x a => exact .inr (stops_cons.mpr (hl x (List.mem_append_right w List.mem_cons_self)))

end Literals

section Last

variable {α : Type} {p? : List Char → Option α} {a : α}

private theorem last?_cons_of_some (h : last? p? s = some a) (c : Char) :
    last? p? (c :: s) = some a := by
  rw [last?, h]

/-- If nothing is found further on, what counts is the very front. -/
theorem last?_cons_of_none (h : last? p? s = none) (c : Char) :
    last? p? (c :: s) = p? (c :: s) := by
  rw [last?, h]

/-- What stands before an occurrence does not matter. -/
theorem last?_append_of_some (h : last? p? s = some a) (l : List Char) :
    last? p? (l ++ s) = some a := by
  induction l with
  | nil => exact h
  | cons c l ih => exact last?_cons_of_some ih c

/-- Characters with which no occurrence begins do not matter. -/
theorem last?_append (hp : ∀ c s, q c = false → p? (c :: s) = none) (hl : ∀ c ∈ l, q c = false)
    (s : List Char) : last? p? (l ++ s) = last? p? s := by
  induction l with
  | nil => rfl
  | cons c l ih =>
    obtain ⟨hc, hl⟩ := List.forall_mem_cons.mp hl
    rw [List.cons_append]
    cases h : last? p? s with
    | none => rw [last?_cons_of_none ((ih hl).trans h), hp c _ hc]
    | some a => exact last?_cons_of_some ((ih hl).trans h) c

/-- Nothing is found among characters with which no occurrence begins. -/
theorem last?_eq_none (hp : ∀ c s, q c = false → p? (c :: s) = none) (hnil : p? [] = none)
    (hl : ∀ c ∈ l, q c = false) : last? p? l = none := by
  rw [← List.append_nil l, last?_append hp hl]
  exact hnil

/-- Something is found exactly if it is at the front of some end of the text. -/
theorem isSome_last?_iff : (last? p? s).isSome = true ↔ ∃ t, t <:+ s ∧ (p? t).isSome = true := by
  induction s with
  | nil => simp only [last?, List.suffix_nil, exists_eq_left]
  | cons c s ih =>
    simp only [List.suffix_cons_iff, or_and_right, exists_or, exists_eq_left]
    cases h : last? p? s with
    | none =>
      rw [last?_cons_of_none h]
      rw [h] at ih
      simp only [Option.isSome_none, Bool.false_eq_true, false_iff] at ih
      rw [or_iff_left ih]
    | some a =>
      rw [last?_cons_of_some h]
      rw [h] at ih
      exact ⟨fun _ => .inr (ih.mp rfl), fun _ => rfl⟩

end Last

end Displays.Text
