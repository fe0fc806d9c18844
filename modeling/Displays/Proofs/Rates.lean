import Displays.Proofs.Drafts
import Displays.Proofs.Wording

/-!
# Refresh rates in command lines

A command line gives the refresh rate in hertz with two digits behind the point, and so does a
report. The rate of a report is a whole number of hundredths of a hertz, which the command line
gives exactly; of any other rate the rest is cut off. But a rate that 32 bits do not hold in
thousandths of a hertz is another one once it was read, which may lie between two hundredths.
-/

namespace Displays.Xrandr

open Text (lines)
open Decimal (digitChars digitChars_ne_nil isDigit_of_mem_digitChars isDigit_of_mem_padded
  length_padded ofDigitChars_digitChars ofDigitChars_padded padded)

/-- The thousandths of a hertz that a text stands for: digits for the hertz, a point, and two digits
for the hundredths. -/
def rate? (text : String) : Option Nat :=
  (splitAt? '.' text.toList).bind fun p =>
    if p.1 ≠ [] ∧ p.2.length = 2 ∧ (p.1 ++ p.2).all Char.isDigit then
      some (1000 * Nat.ofDigitChars 10 p.1 0 + 10 * Nat.ofDigitChars 10 p.2 0)
    else none

/-- Digits with a point before the last two stand for hertz and hundredths. -/
theorem rate?_of_digits {text : String} {hertz hundredths : List Char}
    (htext : text.toList = hertz ++ '.' :: hundredths) (hne : hertz ≠ [])
    (hlength : hundredths.length = 2) (hhertz : ∀ c ∈ hertz, c.isDigit = true)
    (hhundredths : ∀ c ∈ hundredths, c.isDigit = true) :
    rate? text =
      some (1000 * Nat.ofDigitChars 10 hertz 0 + 10 * Nat.ofDigitChars 10 hundredths 0) := by
  have hdigits := List.all_eq_true.mpr (List.forall_mem_append.mpr ⟨hhertz, hhundredths⟩)
  rw [rate?, htext, Sway.splitAt?_append (Sway.not_mem_of_isDigit hhertz rfl), Option.bind_some,
    if_pos ⟨hne, hlength, hdigits⟩]

/-- The words for a mode give its refresh rate up to a hundredth of a hertz. -/
theorem exists_rate_of_modeWords (m : Mode) :
    ∃ size rate, modeWords m = ["--mode", size, "--rate", rate] ∧
      rate? rate = some (m.refresh / 10 * 10) := by
  refine ⟨_, _, rfl, ?_⟩
  change rate? (toString (m.refresh / 1000) ++ "." ++ padded 2 (m.refresh % 1000 / 10)) = _
  have htext : (toString (m.refresh / 1000) ++ "." ++ padded 2 (m.refresh % 1000 / 10)).toList =
      digitChars (m.refresh / 1000) ++ '.' :: (padded 2 (m.refresh % 1000 / 10)).toList := by
    rw [String.toList_append, String.toList_append, Sway.toList_toString_nat, List.append_assoc]
    rfl
  have hlt : m.refresh % 1000 / 10 < Nat.pow 10 2 := by
    change _ < 100
    omega
  have hvalue : 1000 * (m.refresh / 1000) + 10 * (m.refresh % 1000 / 10) = m.refresh / 10 * 10 := by
    omega
  rw [rate?_of_digits htext (digitChars_ne_nil _) (length_padded (by decide) hlt)
    (fun _ => isDigit_of_mem_digitChars) (fun _ => isDigit_of_mem_padded),
    ofDigitChars_digitChars, ofDigitChars_padded, hvalue]

/-- Each mode has the refresh rate of a line, as far as 32 bits hold it. -/
def Clocked (ls : List (List Char)) (modes : List Mode) : Prop :=
  ∀ m ∈ modes, ∃ line ∈ ls, ∃ hertz hundredths, Draft.Clocks line hertz hundredths ∧
    m.refresh = millihertz hertz hundredths

/-- Every mode of a report has the refresh rate of one of its lines. -/
theorem invariant_clocked (ls : List (List Char)) :
    Invariant ls (fun d => Clocked ls d.output.modes) fun o => Clocked ls o.modes where
  header h := by
    rw [(Draft.of_ofHeader h).2.2]
    exact fun _ hm => absurd hm List.not_mem_nil
  line hline hd h := by
    obtain ⟨hmodes, -⟩ | ⟨_, hertz, hundredths, hclocks, hmodes, -⟩ :=
      (Draft.reads_readLine h).modes_cases
    · rwa [hmodes]
    · rw [hmodes]
      refine List.forall_mem_append.mpr ⟨hd, fun m hm => ?_⟩
      rw [List.mem_singleton.mp hm]
      exact ⟨_, hline, hertz, hundredths, hclocks, rfl⟩
  finish hd h := by
    rw [Draft.finish] at h
    split at h
    · rwa [← Except.ok.inj h]
    · obtain ⟨_, _, h⟩ := exists_of_bind_eq_ok h
      rwa [← Except.ok.inj h]

/-- The words say what is requested: those of two valid configurations are the same exactly if the
same is requested of their connected outputs. Those for a mode give its refresh rate rounded down to
hundredths of a hertz. For a mode that was read from a report this is the rate as it was read and as
it stands in a line of the report, if 32 bits hold that one in thousandths of a hertz. -/
theorem words_say_what_is_requested (s : List Char) :
    (∀ c c' ws ws', c.defect? = none → c'.defect? = none → words c = .ok ws → words c' = .ok ws' →
      (ws = ws' ↔ demands c = demands c')) ∧
    (∀ m, ∃ size rate, modeWords m = ["--mode", size, "--rate", rate] ∧
      rate? rate = some (m.refresh / 10 * 10)) ∧
    ∀ c, read s = .ok c → ∀ o ∈ c.outputs, ∀ m ∈ o.modes,
      ∃ line ∈ lines s, ∃ hertz hundredths, Draft.Clocks line hertz hundredths ∧
        m.refresh = millihertz hertz hundredths ∧
        (1000 * hertz + 10 * hundredths < Nat.pow 2 32 →
          m.refresh = 1000 * hertz + 10 * hundredths ∧
          ∃ size rate, modeWords m = ["--mode", size, "--rate", rate] ∧
            rate? rate = some m.refresh) := by
  refine ⟨fun _ _ _ _ hc hc' h h' => words_eq_iff hc hc' h h', exists_rate_of_modeWords,
    fun c h o ho m hm => ?_⟩
  obtain ⟨line, hline, hertz, hundredths, hclocks, hrefresh⟩ :=
    (invariant_clocked _).forall_of_read h o ho m hm
  refine ⟨line, hline, hertz, hundredths, hclocks, hrefresh, fun hlt => ?_⟩
  have hexact : m.refresh = 1000 * hertz + 10 * hundredths :=
    hrefresh.trans (millihertz_of_lt hlt)
  -- a rate in whole hundredths of a hertz is rounded to itself
  have hrounded : m.refresh / 10 * 10 = m.refresh := by omega
  obtain ⟨size, rate, hwords, hrate⟩ := exists_rate_of_modeWords m
  rw [hrounded] at hrate
  exact ⟨hexact, size, rate, hwords, hrate⟩

namespace Scenes

/-- An output with a name that looks like an option, and this refresh rate. -/
def optional (refresh : Nat) : Configuration :=
  ⟨[{ Output.plain "--off" with modes := [⟨⟨1920, 1080⟩, refresh⟩] }, .plain "DP-1"]⟩

/-- A report of one output with one mode. -/
def single : List Char :=
  ("DP-1 connected 1920x1080+0+0 \n" ++ "  1920x1080 (0x48) 138.5MHz *current\n" ++
    "  h: width 1920 \n" ++ "  v: height 1080 clock 59.95Hz\n").toList

/-- Only one line of the report has vertical timings. -/
private theorem eq_of_clocks_single {line : List Char} {hertz hundredths : Nat}
    (hline : line ∈ lines single) (h : Draft.Clocks line hertz hundredths) :
    hertz = 59 ∧ hundredths = 95 := by
  obtain ⟨v, hv, hhertz, hhundredths⟩ := h
  have htimings := List.all_eq_true.mp (show ((lines single).all fun l =>
    (height? l).all (· = ⟨"1080".toList, "59".toList, "95".toList⟩)) = true by decide +kernel)
  have hv' := htimings line hline
  rw [hv, Option.all_some, decide_eq_true_eq] at hv'
  rw [hv'] at hhertz hhundredths
  exact ⟨(Except.ok.inj hhertz).symm, (Except.ok.inj hhundredths).symm⟩

/-- Less than a hundredth of a hertz cannot be told, and what is read is written back. -/
theorem words_say_what_is_requested_optional :
    ∃ ws ws' ws'', words (optional 60000) = .ok ws ∧ words (optional 60009) = .ok ws' ∧
      words (optional 59990) = .ok ws'' ∧ ws = ws' ∧ ws ≠ ws'' ∧
      ∃ c, read single = .ok c ∧ c.outputs.map Output.modes = [[⟨⟨1920, 1080⟩, 59950⟩]] ∧
        ∃ line ∈ lines single, ∃ hertz hundredths, Draft.Clocks line hertz hundredths ∧
          1000 * hertz + 10 * hundredths = 59950 ∧
          ∃ size rate, modeWords ⟨⟨1920, 1080⟩, 59950⟩ = ["--mode", size, "--rate", rate] ∧
            rate? rate = some 59950 := by
  have hvalid : (optional 60000).defect? = none ∧ (optional 60009).defect? = none ∧
      (optional 59990).defect? = none := by decide +kernel
  have hruns : (do
      let ws ← words (optional 60000)
      let ws' ← words (optional 60009)
      let ws'' ← words (optional 59990)
      let c ← read single
      return (ws.length, ws'.length, ws''.length, c.outputs.map Output.modes)) =
      .ok (20, 20, 20, [[⟨⟨1920, 1080⟩, 59950⟩]]) := by decide +kernel
  obtain ⟨ws, hws, hruns⟩ := exists_of_bind_eq_ok hruns
  obtain ⟨ws', hws', hruns⟩ := exists_of_bind_eq_ok hruns
  obtain ⟨ws'', hws'', hruns⟩ := exists_of_bind_eq_ok hruns
  obtain ⟨c, hc, hruns⟩ := exists_of_bind_eq_ok hruns
  have hmodes : c.outputs.map Output.modes = [[⟨⟨1920, 1080⟩, 59950⟩]] :=
    (Prod.mk.inj (Prod.mk.inj (Prod.mk.inj (Except.ok.inj hruns)).2).2).2
  have hmode : [⟨⟨1920, 1080⟩, 59950⟩] ∈ c.outputs.map Output.modes :=
    hmodes ▸ List.mem_singleton_self _
  obtain ⟨o, ho, hmode⟩ := List.mem_map.mp hmode
  obtain ⟨hwords, -, hrates⟩ := words_say_what_is_requested single
  have hsame := (hwords _ _ _ _ hvalid.1 hvalid.2.1 hws hws').mpr (by decide +kernel)
  have hother := (hwords _ _ _ _ hvalid.1 hvalid.2.2 hws hws'').not.mpr (by decide +kernel)
  obtain ⟨line, hline, hertz, hundredths, hclocks, -, hexact⟩ :=
    hrates _ hc o ho _ (hmode ▸ List.mem_singleton_self _)
  obtain ⟨rfl, rfl⟩ := eq_of_clocks_single hline hclocks
  obtain ⟨hrefresh, hrate⟩ := hexact (by decide)
  exact ⟨ws, ws', ws'', hws, hws', hws'', hsame, hother, c, hc, hmodes, line, hline, 59, 95,
    hclocks, hrefresh.symm, hrate⟩

/-- A report of one output with one mode, whose refresh rate 32 bits do not hold in thousandths of a
hertz. -/
def fast : List Char :=
  ("DP-1 connected 1920x1080+0+0 \n" ++ "  1920x1080 (0x48) 138.5MHz *current\n" ++
    "  h: width 1920 \n" ++ "  v: height 1080 clock 4294968.00Hz\n").toList

/-- Such a rate is read as another one, which the words do not give. -/
theorem rate_lost_fast :
    (do
      let c ← read fast
      return c.outputs.map Output.modes) = .ok [[⟨⟨1920, 1080⟩, 704⟩]] ∧
    modeWords ⟨⟨1920, 1080⟩, 704⟩ = ["--mode", "1920x1080", "--rate", "0.70"] ∧
    rate? "0.70" = some 700 := by
  decide +kernel

end Scenes

end Displays.Xrandr
