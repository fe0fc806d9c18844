import Displays.Proofs.Messages
import Displays.Proofs.Unescaped

/-!
# Taking a batch apart

The message that requests a configuration comes apart into one command for each connected output.
The only quotes of a command are those around its name, and there are no semicolons outside them,
whatever the name is; so a batch ends a command at each semicolon outside quotes and nowhere else,
and two messages are the same only if the same is requested.
-/

namespace Displays.Sway

/-! ## Batches -/

/-- The pieces of a batch between the semicolons outside quotes. -/
def pieces (quoted : Bool) : List Char → List (List Char)
  | [] => [[]]
  | c :: l =>
    if c = ';' ∧ quoted = false then [] :: pieces false l
    else (pieces (if c = '"' then !quoted else quoted) l).modifyHead (c :: ·)

/-- The commands of a batch, without the blanks in front of them. -/
def separate (message : String) : List String :=
  (pieces false message.toList).map fun l => String.ofList (l.dropWhile (· = ' '))

/-- No name that a configuration has for an output contains a quote. -/
def Unquoted (c : Configuration) : Prop :=
  ∀ o ∈ c.outputs, '"' ∉ o.id.toList

/-- There are no characters that mean anything in a batch. -/
def Unmarked (l : List Char) : Prop :=
  ∀ c ∈ l, c ≠ '"' ∧ c ≠ ';'

instance (l : List Char) : Decidable (Unmarked l) :=
  List.decidableBAll (fun c => c ≠ '"' ∧ c ≠ ';') l

/-- The characters stay in one piece, whatever stands behind them. -/
def Whole (l : List Char) : Prop :=
  ∀ s, pieces false (l ++ s) = (pieces false s).modifyHead (l ++ ·)

section Pieces

variable {l l' : List Char} {c : Char}

private theorem Unmarked.append (hl : Unmarked l) (hl' : Unmarked l') : Unmarked (l ++ l') :=
  List.forall_mem_append.mpr ⟨hl, hl'⟩

private theorem Unmarked.cons (hc : Unmarked [c]) (hl : Unmarked l) : Unmarked (c :: l) :=
  Unmarked.append hc hl

private theorem IsWord.unmarked (hl : IsWord l) : Unmarked l :=
  fun c hc => (hl c hc).2

/-- Two texts that stay in one piece each do so one behind the other. -/
theorem Whole.append (hl : Whole l) (hl' : Whole l') : Whole (l ++ l') := by
  intro s
  rw [List.append_assoc, hl, hl', List.modifyHead_modifyHead]
  congr 1
  funext piece
  exact (List.append_assoc l l' piece).symm

/-- What has nothing that means anything in a batch stays in one piece. -/
theorem whole_of_unmarked (hl : Unmarked l) : Whole l := by
  intro s
  induction l with
  | nil => exact (congrFun List.modifyHead_id _).symm
  | cons c l ih =>
    obtain ⟨hc, hl⟩ := List.forall_mem_cons.mp hl
    rw [List.cons_append, pieces, if_neg fun h => hc.2 h.1, if_neg hc.1, ih hl,
      List.modifyHead_modifyHead]
    rfl

/-- Up to the closing quote everything belongs to one piece. -/
theorem pieces_quoted (hl : '"' ∉ l) (s : List Char) :
    pieces true (l ++ '"' :: s) = (pieces false s).modifyHead (l ++ '"' :: ·) := by
  induction l with
  | nil => rfl
  | cons c l ih =>
    obtain ⟨hc, hl⟩ := not_or.mp (List.mem_cons.not.mp hl)
    rw [List.cons_append, pieces, if_neg nofun, if_neg fun h => hc h.symm, ih hl,
      List.modifyHead_modifyHead]
    rfl

/-- What stands in quotes stays in one piece, semicolons and all. -/
theorem whole_quoted (hl : '"' ∉ l) : Whole ('"' :: (l ++ ['"'])) := by
  intro s
  have hopen : pieces false ('"' :: (l ++ '"' :: s)) =
      (pieces true (l ++ '"' :: s)).modifyHead ('"' :: ·) := rfl
  rw [List.cons_append, List.append_assoc, List.singleton_append, hopen, pieces_quoted hl,
    List.modifyHead_modifyHead]
  congr 1
  funext piece
  simp only [Function.comp_apply, List.cons_append, List.append_assoc, List.nil_append]

/-- What stays in one piece ends at a semicolon. -/
theorem Whole.pieces_semicolon (hl : Whole l) (s : List Char) :
    pieces false (l ++ ';' :: s) = l :: pieces false s := by
  have hend : pieces false (';' :: s) = [] :: pieces false s := rfl
  rw [hl, hend, List.modifyHead_cons, List.append_nil]

end Pieces

/-! ## Commands in a batch -/

section Texts

variable {d : Demand} {ds : List Demand}

private theorem unmarked_powerText (lit : Bool) : Unmarked (powerText lit) := by
  cases lit <;> decide

private theorem unmarked_modeText (lit : Bool) (mode : Option Mode) :
    Unmarked (modeText lit mode) := by
  have hnumber : ∀ n, Unmarked (Decimal.digitChars n) := fun n => (isWord_digitChars n).unmarked
  have hpadded : ∀ n, Unmarked (Decimal.padded 3 n).toList := fun n =>
    (isWord_of_isDigit fun _ => Decimal.isDigit_of_mem_padded).unmarked
  cases mode with
  | none => exact unmarked_powerText lit
  | some m =>
    refine .append (by decide) (.append (hnumber _) (.cons (by decide) ?_))
    refine .append (hnumber _) (.cons (by decide) (.append (hnumber _) (.cons (by decide) ?_)))
    refine .append (hpadded _) (.cons (by decide) (.cons (by decide) (.cons (by decide) ?_)))
    exact unmarked_powerText lit

private theorem unmarked_pictureText {p : Option Picture} (hp : ∀ a ∈ p, IsWord a.scale.toList) :
    Unmarked (pictureText p) := by
  cases p with
  | none => decide
  | some p =>
    have hnumber : ∀ n, Unmarked (Decimal.signedChars n) := fun n => (isWord_signedChars n).unmarked
    refine .append (by decide) (.append (hnumber _) (.cons (by decide) ?_))
    refine .append (hnumber _) (.cons (by decide) (.append (by decide) ?_))
    exact .append (hp p rfl).unmarked (.cons (by decide) (unmarked_modeText _ _))

/-- A command stays in one piece, semicolons in the name or not. -/
theorem Demand.Clear.whole_text (hd : d.Clear) : Whole d.text := by
  have htext : d.text = "output ".toList ++ (('"' :: (d.id.toList ++ ['"'])) ++
      ' ' :: pictureText d.picture) := by
    change "output ".toList ++ '"' :: (d.id.toList ++ '"' :: ' ' :: pictureText d.picture) = _
    rw [List.cons_append, List.append_assoc, List.singleton_append]
  have hpicture := unmarked_pictureText hd.isWord_scale
  rw [htext]
  exact .append (whole_of_unmarked (by decide)) (.append (whole_quoted hd.quote_notMem)
    (whole_of_unmarked (.cons (by decide) hpicture)))

/-- The commands that a batch is put together from are its pieces. -/
theorem pieces_intercalate (hd : d.Clear) (hds : ∀ e ∈ ds, e.Clear) :
    pieces false ("; ".toList.intercalate (d.text :: ds.map Demand.text)) =
      d.text :: ds.map fun e => ' ' :: e.text := by
  induction ds generalizing d with
  | nil =>
    rw [List.map_nil, List.map_nil, List.intercalate_singleton]
    have hend := hd.whole_text []
    rwa [List.append_nil, pieces, List.modifyHead_cons, List.append_nil] at hend
  | cons e ds ih =>
    obtain ⟨he, hds⟩ := List.forall_mem_cons.mp hds
    -- A semicolon ends the command, and the blank behind it begins the next piece.
    have hblank : Whole [' '] := whole_of_unmarked (by decide)
    have hseparator : "; ".toList = [';', ' '] := rfl
    have hrest := hblank ("; ".toList.intercalate (e.text :: ds.map Demand.text))
    rw [ih he hds] at hrest
    rw [List.map_cons, List.intercalate_cons_cons, hseparator, List.append_assoc, List.cons_append,
      hd.whole_text.pieces_semicolon, ← hseparator, hrest]
    rfl

private theorem dropWhile_text (d : Demand) : d.text.dropWhile (· = ' ') = d.text := rfl

/-- A batch comes apart into the commands that it is put together from. -/
theorem separate_intercalate {l : List String} (hl : l ≠ [])
    (htexts : l.map String.toList = ds.map Demand.text) (hds : ∀ d ∈ ds, d.Clear) :
    separate ("; ".intercalate l) = l := by
  have hpieces : (pieces false ("; ".intercalate l).toList).map (List.dropWhile (· = ' ')) =
      l.map String.toList := by
    cases ds with
    | nil => exact absurd (List.map_eq_nil_iff.mp htexts) hl
    | cons d ds =>
      obtain ⟨hd, hds⟩ := List.forall_mem_cons.mp hds
      rw [String.toList_intercalate, htexts, List.map_cons, pieces_intercalate hd hds,
        List.map_cons, dropWhile_text, List.map_map]
      rfl
  have hseparate : separate ("; ".intercalate l) =
      ((pieces false ("; ".intercalate l).toList).map (List.dropWhile (· = ' '))).map
        String.ofList := by
    rw [List.map_map]
    rfl
  rw [hseparate, hpieces, List.map_map]
  exact (List.map_congr_left fun s _ => String.ofList_toList).trans (List.map_id l)

end Texts

/-! ## Requests -/

section Requests

variable {o : Output} {c c' : Configuration} {cs ws ws' : List String} {s : String}

/-- There is a command for each connected output, which says what is requested of it, and none for
another one. -/
theorem command?_cases {command : Option String} (h : command? o = .ok command) :
    o.connected = false ∧ command = none ∨
      o.connected = true ∧ ∃ s, command = some s ∧ s.toList = (demand o).text := by
  rw [command?] at h
  split_ifs at h with hconnected hused hform
  all_goals obtain rfl := Except.ok.inj h
  · exact .inl ⟨hconnected, rfl⟩
  · have hdemand : demand o = ⟨o.id, none⟩ := by
      rw [demand, if_neg (Bool.not_eq_true _ ▸ hused)]
    exact .inr ⟨Bool.not_eq_false _ ▸ hconnected, _, rfl, hdemand ▸ toList_disable o.id⟩
  · exact .inr ⟨Bool.not_eq_false _ ▸ hconnected, _, rfl,
      toList_enable (Bool.not_eq_false _ ▸ hused)⟩

/-- The command to an output is the text of what is requested of it. -/
theorem toList_command (h : command? o = .ok (some s)) : s.toList = (demand o).text := by
  obtain ⟨-, ⟨⟩⟩ | ⟨-, _, ⟨⟩, htext⟩ := command?_cases h
  exact htext

/-- The commands that are found for outputs are those to the connected ones, in their order. -/
theorem forall₂_of_mapM {l : List Output} {found : List (Option String)}
    (h : l.mapM command? = .ok found) :
    List.Forall₂ (fun o s => command? o = .ok (some s)) (l.filter Output.connected)
      found.reduceOption := by
  induction l generalizing found with
  | nil =>
    obtain rfl := Except.ok.inj h
    exact .nil
  | cons o l ih =>
    rw [List.mapM_cons] at h
    obtain ⟨command, hcommand, h⟩ := exists_of_bind_eq_ok h
    obtain ⟨rest, hrest, h⟩ := exists_of_bind_eq_ok h
    obtain rfl := Except.ok.inj h
    obtain ⟨hconnected, rfl⟩ | ⟨hconnected, s, rfl, -⟩ := command?_cases hcommand
    · rw [List.filter_cons_of_neg (ne_true_of_eq_false hconnected), List.reduceOption_cons_of_none]
      exact ih hrest
    · rw [List.filter_cons_of_pos hconnected, List.reduceOption_cons_of_some]
      exact .cons hcommand (ih hrest)

/-- A configuration has a command for each connected output, in their order. -/
theorem forall₂_commands (h : commands c = .ok cs) :
    List.Forall₂ (fun o s => command? o = .ok (some s)) (c.outputs.filter Output.connected) cs := by
  obtain ⟨found, hfound, h⟩ := exists_of_bind_eq_ok h
  obtain rfl := Except.ok.inj h
  exact forall₂_of_mapM hfound

/-- The commands are the texts of what is requested. -/
theorem map_toList_commands (h : commands c = .ok cs) :
    cs.map String.toList = (demands c).map Demand.text := by
  replace h := forall₂_commands h
  rw [demands, List.map_map]
  generalize c.outputs.filter Output.connected = l at h
  induction h with
  | nil => rfl
  | cons hcommand _ ih =>
    rw [List.map_cons, List.map_cons, ih, toList_command hcommand]
    rfl

/-- Where no name contains a quote, all that is requested can be told from the commands. -/
theorem clear_demands (hc : Unquoted c) : ∀ d ∈ demands c, d.Clear := by
  intro d hd
  obtain ⟨o, ho, rfl⟩ := List.mem_map.mp hd
  exact clear_demand (hc o (List.mem_filter.mp ho).1)

/-- The words that request a configuration are at most one batch, and that comes apart into the
commands. -/
theorem of_words (hc : Unquoted c) (h : words c = .ok ws) :
    ∃ cs, commands c = .ok cs ∧ ws.flatMap separate = cs ∧
      ws = if cs.isEmpty then [] else ["; ".intercalate cs] := by
  obtain ⟨cs, hcs, h⟩ := exists_of_bind_eq_ok h
  obtain rfl := Except.ok.inj h
  refine ⟨cs, hcs, ?_, rfl⟩
  cases cs with
  | nil => rfl
  | cons s cs =>
    have hbatch := separate_intercalate (List.cons_ne_nil s cs) (map_toList_commands hcs)
      (clear_demands hc)
    exact (List.flatMap_singleton separate _).trans hbatch

/-- Commands tell what they request, one by one. -/
theorem texts_inj {ds es : List Demand} (hds : ∀ d ∈ ds, d.Clear) (hes : ∀ e ∈ es, e.Clear)
    (h : ds.map Demand.text = es.map Demand.text) : ds = es := by
  induction ds generalizing es with
  | nil => exact (List.map_eq_nil_iff.mp h.symm).symm
  | cons d ds ih =>
    cases es with
    | nil => cases h
    | cons e es =>
      obtain ⟨hd, hds⟩ := List.forall_mem_cons.mp hds
      obtain ⟨he, hes⟩ := List.forall_mem_cons.mp hes
      obtain ⟨htext, hrest⟩ := List.cons.inj h
      rw [Demand.text_inj hd he htext, ih hds hes hrest]

/-- Two configurations are requested with the same words if and only if the same is requested. -/
theorem words_eq_iff (hc : Unquoted c) (hc' : Unquoted c') (h : words c = .ok ws)
    (h' : words c' = .ok ws') : ws = ws' ↔ demands c = demands c' := by
  obtain ⟨cs, hcs, hseparate, hws⟩ := of_words hc h
  obtain ⟨cs', hcs', hseparate', hws'⟩ := of_words hc' h'
  constructor
  · -- The message comes apart into its commands, which tell what is requested.
    rintro rfl
    have hsame : cs = cs' := hseparate.symm.trans hseparate'
    refine texts_inj (clear_demands hc) (clear_demands hc') ?_
    rw [← map_toList_commands hcs, ← map_toList_commands hcs', hsame]
  · intro hdemands
    have htexts : cs.map String.toList = cs'.map String.toList := by
      rw [map_toList_commands hcs, map_toList_commands hcs', hdemands]
    have hsame : cs = cs' :=
      List.map_injective_iff.mpr (fun _ _ => String.toList_injective) htexts
    rw [hws, hws', hsame]

/-- Where a name has quotes in it, one output can be requested like two. -/
example :
    let dark (id : OutputId) : Output := { Output.plain id with used := false }
    words ⟨[dark "DP-1\" disable; output \"DP-2"]⟩ = words ⟨[dark "DP-1", dark "DP-2"]⟩ := by
  decide +kernel

end Requests

/-- No name that is read from a report can end its quotes. A request without quotes in its names is
one message at most, it is the same as another one only if the same is requested, and it comes apart
into exactly one command for each connected output. -/
theorem message_says_what_is_requested :
    (∀ bytes c, readBytes bytes = .ok c →
      ∀ o ∈ c.outputs, ∀ ch ∈ o.id.toList, ch ≠ '"' ∧ ch ≠ '\\' ∧ 0x20 ≤ ch.toNat) ∧
    (∀ c c' ws ws', Unquoted c → Unquoted c' → words c = .ok ws → words c' = .ok ws' →
      (ws = ws' ↔ demands c = demands c')) ∧
    ∀ c ws, Unquoted c → words c = .ok ws →
      ws.length ≤ 1 ∧
      List.Forall₂ (fun o s => command? o = .ok (some s)) (c.outputs.filter Output.connected)
        (ws.flatMap separate) := by
  refine ⟨fun _ _ h _ ho => plain_id_of_readBytes h ho,
    fun _ _ _ _ hc hc' h h' => words_eq_iff hc hc' h h', fun c ws hc h => ?_⟩
  obtain ⟨cs, hcs, hseparate, hws⟩ := of_words hc h
  refine ⟨?_, ?_⟩
  · rw [hws]
    split <;> simp
  · rw [hseparate]
    exact forall₂_commands hcs

namespace Scenes

/-- A report of two outputs, with the fields of each in an array. The name of the first would end
its command if it stood outside quotes. -/
def named (power : String) : List UInt8 :=
  Text.Utf8.encode ("[[\"DP; exit\", true, ".toList ++ power.toList ++
    ", null, null, [0, -5], [[800, 600, 60005]], [800, 600, 60005]], ".toList ++
    "[\"eDP-1\", false, true, null, null, [0, 0], [], null]]".toList)

/-- The message that requests what the report says. -/
def batch (power : String) : String :=
  "output \"DP; exit\" enable position 0 -5 scale 1 mode 800x600@60.005Hz power " ++ power ++
    "; output \"eDP-1\" disable"

/-- The name stays in its quotes, so there are two commands, and they change with the power mode. -/
theorem message_says_what_is_requested_semicolon :
    ∃ c d, readBytes (named "true") = .ok c ∧ readBytes (named "false") = .ok d ∧
      words c = .ok [batch "on"] ∧ words d = .ok [batch "off"] ∧
      (∀ o ∈ c.outputs, ∀ ch ∈ o.id.toList, ch ≠ '"' ∧ ch ≠ '\\' ∧ 0x20 ≤ ch.toNat) ∧
      demands c ≠ demands d ∧ [batch "on"] ≠ [batch "off"] ∧
      (separate (batch "on")).length = 2 := by
  have hruns : (do
      let c ← readBytes (named "true")
      let d ← readBytes (named "false")
      return (words c, words d, demands c == demands d,
        (c.outputs.filter Output.connected).length)) =
      .ok (.ok [batch "on"], .ok [batch "off"], false, 2) := by
    decide +kernel
  obtain ⟨c, hc, hruns⟩ := exists_of_bind_eq_ok hruns
  obtain ⟨d, hd, hruns⟩ := exists_of_bind_eq_ok hruns
  obtain ⟨hws, hruns⟩ := Prod.mk.inj (Except.ok.inj hruns)
  obtain ⟨hws', hruns⟩ := Prod.mk.inj hruns
  obtain ⟨hdemands, hcount⟩ := Prod.mk.inj hruns
  obtain ⟨hread, htold, hapart⟩ := message_says_what_is_requested
  have hunquoted : Unquoted c := fun o ho hquote => (hread _ _ hc o ho _ hquote).1 rfl
  have hunquoted' : Unquoted d := fun o ho hquote => (hread _ _ hd o ho _ hquote).1 rfl
  have hiff := htold c d _ _ hunquoted hunquoted' hws hws'
  have hne := ne_of_beq_false hdemands
  have hcommands := (hapart c _ hunquoted hws).2.length_eq
  rw [hcount, List.flatMap_singleton] at hcommands
  exact ⟨c, d, hc, hd, hws, hws', hread _ _ hc, hne, hiff.not.mpr hne, hcommands.symm⟩

end Scenes

end Displays.Sway
