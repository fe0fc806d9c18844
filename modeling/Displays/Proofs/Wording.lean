import Displays.Proofs.Messages
import Displays.Proofs.Requests
import Displays.Proofs.Validity
import Displays.Xrandr.Command

/-!
# Telling command lines apart

A command line has a group of words for each connected output, and nothing stands between the
groups. The third word of a group tells how long it is, so the groups are found one after the other,
whatever the names are. A group says the name, whether the output is used, and what it is to show up
to a hundredth of a hertz.
-/

namespace Displays.Xrandr

open Decimal (digitChars isDigit_of_mem_digitChars padded plainText signedChars)
open Sway (append_cons_inj digitChars_append_inj digitChars_inj not_mem_of_isDigit padded_inj
  signedChars_inj toList_toString_int toList_toString_nat)

/-! ## Groups of words -/

/-- The mode with its refresh rate rounded down to hundredths of a hertz. -/
def rounded (m : Mode) : Mode :=
  { m with refresh := m.refresh / 10 * 10 }

/-- What an output is to show. -/
structure Showing where
  /-- The mode, if there is one, in hundredths of a hertz. -/
  mode : Option Mode
  /-- The position. -/
  topLeft : Point
  /-- The factor by which the framebuffer grows, as it is printed. -/
  factor : String
  deriving DecidableEq, Repr

/-- What is requested of an output. -/
structure Demand where
  /-- The output. -/
  id : OutputId
  /-- What it is to show; nothing if it is not to be used. -/
  showing : Option Showing
  deriving DecidableEq, Repr

/-- What the words request of an output. -/
def demand (o : Output) : Demand where
  id := o.id
  showing :=
    if o.used then some ⟨o.mode?.map rounded, o.topLeft, plainText (1 / o.scale)⟩ else none

/-- What a configuration requests of its connected outputs. -/
def demands (c : Configuration) : List Demand :=
  (c.outputs.filter Output.connected).map demand

/-- The words that request a scale, given the factor. -/
def factorWords (factor : String) : List String :=
  ["--scale", s!"{factor}x{factor}"]

/-- The words that request a picture. -/
def Showing.words (s : Showing) : List String :=
  s.mode.elim ["--off"] fun m => modeWords m ++ placeWords s.topLeft ++ factorWords s.factor

/-- The group of words that makes a demand. -/
def Demand.words (d : Demand) : List String :=
  "--output" :: d.id :: d.showing.elim ["--off"] Showing.words

section Groups

variable {o : Output} {c : Configuration} {ws : List String}

private theorem modeWords_rounded (m : Mode) : modeWords (rounded m) = modeWords m := by
  have hhertz : m.refresh / 10 * 10 / 1000 = m.refresh / 1000 := by omega
  have hhundredths : m.refresh / 10 * 10 % 1000 / 10 = m.refresh % 1000 / 10 := by omega
  simp only [modeWords, rounded, hhertz, hhundredths]

/-- The words for an output that is listed are those of what is requested of it. -/
theorem stateWords_eq (o : Output) :
    stateWords o = (demand o).showing.elim ["--off"] Showing.words := by
  cases hu : o.used with
  | false => simp only [stateWords, demand, hu, Bool.false_eq_true, ite_false, Option.elim_none]
  | true =>
    cases hm : o.mode? with
    | none =>
      simp only [stateWords, demand, hu, hm, ite_true, Option.elim_some, Option.map_none,
        Showing.words, Option.elim_none]
    | some m =>
      simp only [stateWords, demand, hu, hm, ite_true, Option.elim_some, Option.map_some,
        Showing.words, modeWords_rounded]
      rfl

/-- The words for an output: none, or its group. -/
theorem outputWords_cases (h : outputWords o = .ok ws) :
    (o.connected = false ∧ o.used = false ∧ ws = []) ∨
    ((o.connected = true ∨ o.used = true) ∧ ws = (demand o).words) := by
  rw [outputWords] at h
  split_ifs at h with hskip
  all_goals obtain rfl := Except.ok.inj h
  · exact .inl ⟨hskip.1, hskip.2, rfl⟩
  · refine .inr ⟨?_, by rw [stateWords_eq]; rfl⟩
    rwa [not_and_or, Bool.not_eq_false, Bool.not_eq_false] at hskip

/-- The words for outputs, of which those used are connected, are the groups of what is requested of
the connected ones. -/
theorem flatten_eq_of_mapM {l : List Output} {found : List (List String)}
    (hc : ∀ o ∈ l, o.used = true → o.connected = true) (h : l.mapM outputWords = .ok found) :
    found.flatten = ((l.filter Output.connected).map demand).flatMap Demand.words := by
  induction l generalizing found with
  | nil =>
    obtain rfl := Except.ok.inj h
    rfl
  | cons o l ih =>
    obtain ⟨ho, hl⟩ := List.forall_mem_cons.mp hc
    rw [List.mapM_cons] at h
    obtain ⟨group, hgroup, h⟩ := exists_of_bind_eq_ok h
    obtain ⟨rest, hrest, h⟩ := exists_of_bind_eq_ok h
    obtain rfl := Except.ok.inj h
    rw [List.flatten_cons, ih hl hrest]
    obtain ⟨hconnected, -, rfl⟩ | ⟨hlisted, rfl⟩ := outputWords_cases hgroup
    · rw [List.filter_cons_of_neg (ne_true_of_eq_false hconnected)]
      rfl
    · rw [List.filter_cons_of_pos (hlisted.elim id ho), List.map_cons, List.flatMap_cons]

/-- Where only connected outputs are used, the words are the groups of the connected ones. -/
theorem words_eq_of_ok (hc : ∀ o ∈ c.outputs, o.used = true → o.connected = true)
    (h : words c = .ok ws) : ws = (demands c).flatMap Demand.words := by
  obtain ⟨found, hfound, h⟩ := exists_of_bind_eq_ok h
  obtain rfl := Except.ok.inj h
  exact flatten_eq_of_mapM hc hfound

end Groups

/-! ## What a group says -/

section Telling

variable {d e : Demand} {s s' : Showing} {m m' : Mode} {t t' : List String}

private theorem rounded_rounded (m : Mode) : rounded (rounded m) = rounded m := by
  have h : m.refresh / 10 * 10 / 10 * 10 = m.refresh / 10 * 10 := by omega
  simp only [rounded, h]

private theorem not_mem_signedChars {c : Char} (hc : c.isDigit = false) (hminus : c ≠ '-')
    (n : Int) :
    c ∉ signedChars n := by
  have hdigits : c ∉ digitChars n.natAbs :=
    not_mem_of_isDigit (fun _ => isDigit_of_mem_digitChars) hc
  rw [signedChars]
  split
  · exact List.not_mem_cons_of_ne_of_not_mem hminus hdigits
  · exact hdigits

/-- A text glued to another one by a cross has the characters of both around it. -/
theorem toList_by (a b : String) : (a ++ "x" ++ b).toList = a.toList ++ 'x' :: b.toList := by
  rw [String.toList_append, String.toList_append, List.append_assoc]
  rfl

/-- A mode is told by its words up to a hundredth of a hertz. -/
theorem rounded_eq_of_modeWords (h : modeWords m = modeWords m') : rounded m = rounded m' := by
  have hsize : toString m.resolution.width ++ "x" ++ toString m.resolution.height =
      toString m'.resolution.width ++ "x" ++ toString m'.resolution.height :=
    (List.cons.inj (List.cons.inj h).2).1
  have hrate : toString (m.refresh / 1000) ++ "." ++ padded 2 (m.refresh % 1000 / 10) =
      toString (m'.refresh / 1000) ++ "." ++ padded 2 (m'.refresh % 1000 / 10) :=
    (List.cons.inj (List.cons.inj (List.cons.inj (List.cons.inj h).2).2).2).1
  replace hsize := congrArg String.toList hsize
  replace hrate := congrArg String.toList hrate
  have hpoint : ".".toList = ['.'] := rfl
  simp only [toList_by, toList_toString_nat] at hsize
  simp only [String.toList_append, toList_toString_nat, hpoint, List.append_assoc,
    List.cons_append, List.nil_append] at hrate
  obtain ⟨hwidth, hheight⟩ := digitChars_append_inj rfl hsize
  obtain ⟨hhertz, hhundredths⟩ := digitChars_append_inj rfl hrate
  replace hheight := digitChars_inj hheight
  replace hhundredths := padded_inj hhundredths
  have hrefresh : m.refresh / 10 * 10 = m'.refresh / 10 * 10 := by omega
  obtain ⟨⟨width, height⟩, refresh⟩ := m
  obtain ⟨⟨width', height'⟩, refresh'⟩ := m'
  simp only at hwidth hheight hrefresh
  simp only [rounded, hwidth, hheight, hrefresh]

/-- The words for a position tell the position. -/
theorem topLeft_eq_of_placeWords {p q : Point} (h : placeWords p = placeWords q) : p = q := by
  have hplace : toString p.x ++ "x" ++ toString p.y = toString q.x ++ "x" ++ toString q.y :=
    (List.cons.inj (List.cons.inj h).2).1
  replace hplace := congrArg String.toList hplace
  simp only [toList_by, toList_toString_int] at hplace
  have hx : ∀ n, 'x' ∉ signedChars n := not_mem_signedChars rfl (by decide)
  obtain ⟨hleft, htop⟩ := append_cons_inj (hx _) (hx _) hplace
  obtain ⟨x, y⟩ := p
  obtain ⟨x', y'⟩ := q
  exact (Point.mk.injEq ..).mpr ⟨signedChars_inj hleft, signedChars_inj htop⟩

/-- The factor stands twice, so that it is half as long as its word, but for the sign between. -/
theorem factor_eq_of_factorWords {f g : String} (h : factorWords f = factorWords g) : f = g := by
  have hfactor : f ++ "x" ++ f = g ++ "x" ++ g := (List.cons.inj (List.cons.inj h).2).1
  replace hfactor := congrArg String.toList hfactor
  rw [toList_by, toList_by] at hfactor
  have hlength := congrArg List.length hfactor
  simp only [List.length_append, List.length_cons] at hlength
  exact String.toList_injective (List.append_inj_left hfactor (by omega))

/-- A demand that can be made has a mode to show, if anything, in hundredths of a hertz. -/
def Demand.Clear (d : Demand) : Prop :=
  ∀ s ∈ d.showing, ∃ m, s.mode = some (rounded m)

/-- A valid output that is used has a mode to show. -/
theorem clear_demand {o : Output} (ho : o.Valid) : (demand o).Clear := by
  intro s hs
  change (if o.used = true then _ else none) = some s at hs
  split_ifs at hs with hu
  obtain ⟨m, hm, -⟩ := ho.fits hu
  cases hs
  exact ⟨m, by rw [hm, Option.map_some]⟩

/-- The words for a picture, if there are further ones behind them, tell the picture. -/
theorem Showing.words_append_inj (hs : s.mode = some (rounded m))
    (hs' : s'.mode = some (rounded m')) (h : s.words ++ t = s'.words ++ t') :
    s = s' ∧ t = t' := by
  obtain ⟨mode, topLeft, factor⟩ := s
  obtain ⟨mode', topLeft', factor'⟩ := s'
  simp only at hs hs'
  subst hs hs'
  -- All parts have fixed numbers of words, so they are taken off from the end.
  have hwords := List.append_inj h rfl
  have hscale := List.append_inj hwords.1 rfl
  have hplace := List.append_inj hscale.1 rfl
  have hmode := rounded_eq_of_modeWords hplace.1
  rw [rounded_rounded, rounded_rounded] at hmode
  have htopLeft : topLeft = topLeft' := topLeft_eq_of_placeWords hplace.2
  have hfactor : factor = factor' := factor_eq_of_factorWords hscale.2
  exact ⟨by rw [hmode, htopLeft, hfactor], hwords.2⟩

/-- A group of words, if there are further ones behind it, tells the demand: it is told by the third
word whether anything is to be shown. -/
theorem Demand.words_append_inj (hd : d.Clear) (he : e.Clear) (h : d.words ++ t = e.words ++ t') :
    d = e ∧ t = t' := by
  obtain ⟨id, showing⟩ := d
  obtain ⟨id', showing'⟩ := e
  obtain ⟨hid, h⟩ := List.cons.inj (List.cons.inj h).2
  simp only at hid
  subst hid
  have hmiss : ∀ (s : Showing) (m : Mode) (t t' : List String), s.mode = some m →
      s.words ++ t ≠ "--off" :: t' := by
    intro s m t t' hs h
    rw [Showing.words, hs] at h
    exact absurd (List.cons.inj h).1 (by decide)
  cases showing with
  | none =>
    cases showing' with
    | none => exact ⟨rfl, (List.cons.inj h).2⟩
    | some s' =>
      obtain ⟨m', hm'⟩ := he s' rfl
      exact absurd h.symm (hmiss s' _ t' t hm')
  | some s =>
    obtain ⟨m, hm⟩ := hd s rfl
    cases showing' with
    | none => exact absurd h (hmiss s _ t t' hm)
    | some s' =>
      obtain ⟨m', hm'⟩ := he s' rfl
      obtain ⟨rfl, ht⟩ := Showing.words_append_inj hm hm' h
      exact ⟨rfl, ht⟩

/-- Groups of words one after the other tell the demands. -/
theorem flatMap_words_inj {ds es : List Demand} (hds : ∀ d ∈ ds, d.Clear)
    (hes : ∀ e ∈ es, e.Clear) (h : ds.flatMap Demand.words = es.flatMap Demand.words) :
    ds = es := by
  induction ds generalizing es with
  | nil =>
    cases es with
    | nil => rfl
    | cons e es => cases h
  | cons d ds ih =>
    cases es with
    | nil => cases h
    | cons e es =>
      obtain ⟨hd, hds⟩ := List.forall_mem_cons.mp hds
      obtain ⟨he, hes⟩ := List.forall_mem_cons.mp hes
      rw [List.flatMap_cons, List.flatMap_cons] at h
      obtain ⟨hde, hrest⟩ := Demand.words_append_inj hd he h
      rw [hde, ih hds hes hrest]

/-- Two valid configurations are requested with the same words if and only if the same is requested
of their connected outputs. -/
theorem words_eq_iff {c c' : Configuration} {ws ws' : List String} (hc : c.defect? = none)
    (hc' : c'.defect? = none) (h : words c = .ok ws) (h' : words c' = .ok ws') :
    ws = ws' ↔ demands c = demands c' := by
  have hclear : ∀ {c : Configuration}, c.defect? = none → ∀ d ∈ demands c, d.Clear := by
    intro c hc d hd
    obtain ⟨o, ho, rfl⟩ := List.mem_map.mp hd
    exact clear_demand (Configuration.defect?_eq_none_iff.mp hc o (List.mem_filter.mp ho).1)
  rw [words_eq_of_ok (fun o ho => (Configuration.defect?_eq_none_iff.mp hc o ho).connected) h,
    words_eq_of_ok (fun o ho => (Configuration.defect?_eq_none_iff.mp hc' o ho).connected) h']
  exact ⟨flatMap_words_inj (hclear hc) (hclear hc'), congrArg _⟩

end Telling

end Displays.Xrandr
