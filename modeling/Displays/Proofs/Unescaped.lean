import Mathlib.Tactic.SplitIfs
import Displays.Json.Decode
import Displays.Proofs.Encoding
import Displays.Proofs.Indexing

/-!
# Strings without escapes

A string of a JSON text ends at the first quote that stands for itself, and controls do not belong
to it. So a string without backslashes has neither quotes nor controls among its octets. This holds
of all strings of the value that is read, and the characters that the octets are read as have
nothing of the kind either: what is not an octet by itself lies above all of these.
-/

namespace Displays

namespace Text.Utf8

/-- All numbers from the first up to the second are those of characters of several octets. -/
def Ranged (bottom top : Nat) : Prop :=
  0x80 ≤ bottom ∧ top ≤ 0xd800 ∨ 0xe000 ≤ bottom ∧ top ≤ 0x110000

/-- A smaller range of such numbers is one. -/
theorem Ranged.mono {bottom bottom' top top' : Nat} (h : Ranged bottom top)
    (hbottom : bottom ≤ bottom') (htop : top' ≤ top) : Ranged bottom' top' := by
  rw [Ranged] at h ⊢
  omega

/-- The number that is read of a character with one more octet. -/
def Pending.extend (p : Pending) (b : UInt8) : Nat :=
  p.value * 0x40 + (b.toNat - 0x80)

/-- The character that is read is one of several octets, whatever octets may come. -/
structure Pending.Wide (p : Pending) : Prop where
  /-- The next octet is not a character by itself. -/
  least : 0x80 ≤ p.least.toNat
  /-- The character has one of these numbers. -/
  ranged : Ranged (p.extend p.least * Nat.pow 0x40 p.more)
    ((p.extend p.greatest + 1) * Nat.pow 0x40 p.more)

variable {p q : Pending} {b : UInt8} {c : Char} {bytes : List UInt8}

/-- A sequence begins with a character of one octet, with an octet that is out of place, or as one
of several octets. -/
theorem start_cases {r : Step} (h : start b = r) :
    (∃ c, r = .piece (.char c) ∧ c.toNat.toUInt8 = b) ∨ r = .piece (.invalid 1) ∨
      ∃ p, r = .pending p ∧ p.Wide := by
  rw [start] at h
  split_ifs at h with hlow
  all_goals subst h
  · have hvalid : b.toNat.isValidChar := .inl (by omega)
    refine .inl ⟨_, rfl, ?_⟩
    rw [Char.ofNat, dif_pos hvalid]
    exact UInt8.ofNat_toNat
  · exact .inr (.inl rfl)
  on_goal 8 => exact .inr (.inl rfl)
  -- What is left are the octets that begin a sequence, each with its own bounds on the next one.
  all_goals
    refine .inr (.inr ⟨_, rfl, Nat.le_of_ble_eq_true rfl, ?_⟩)
    unfold Ranged Pending.extend
    simp only [UInt8.reduceToNat, Nat.pow_eq, Nat.reducePow]
    omega

/-- An octet that opens a sequence opens one of a character of several octets. -/
theorem wide_of_start (h : start b = .pending p) : p.Wide := by
  obtain ⟨c, hc, -⟩ | hinvalid | ⟨q, hq, hwide⟩ := start_cases h
  · cases hc
  · cases hinvalid
  · exact Step.pending.inj hq ▸ hwide

private theorem toNat_of_start (h : start b = .piece (.char c)) : c.toNat.toUInt8 = b := by
  obtain ⟨d, hd, hb⟩ | hinvalid | ⟨q, hq, -⟩ := start_cases h
  · exact Piece.char.inj (Step.piece.inj hd) ▸ hb
  · cases hinvalid
  · cases hq

/-- What may come after one more octet may come after the octets before it. -/
theorem Pending.Wide.ranged_extend (hp : p.Wide) (hleast : p.least ≤ b)
    (hgreatest : b ≤ p.greatest) :
    Ranged (p.extend b * Nat.pow 0x40 p.more) ((p.extend b + 1) * Nat.pow 0x40 p.more) := by
  rw [UInt8.le_iff_toNat_le] at hleast hgreatest
  have hbottom : p.extend p.least ≤ p.extend b := by
    unfold Pending.extend
    omega
  have htop : p.extend b + 1 ≤ p.extend p.greatest + 1 := by
    unfold Pending.extend
    omega
  exact hp.ranged.mono (Nat.mul_le_mul_right _ hbottom) (Nat.mul_le_mul_right _ htop)

/-- A further octet keeps the sequence one of several octets, or ends a character of several. -/
theorem next?_of_wide {r : Step} (hp : p.Wide) (h : p.next? b = some r) :
    (∃ c, r = .piece (.char c) ∧ 0x80 ≤ c.toNat) ∨ ∃ q, r = .pending q ∧ q.Wide := by
  rw [Pending.next?] at h
  split at h
  · rename_i hwithin
    have hranged := hp.ranged_extend hwithin.1 hwithin.2
    cases hmore : p.more with
    | zero =>
      simp only [hmore, Option.some.injEq] at h
      rw [hmore] at hranged
      have hbounds : 0x80 ≤ p.extend b ∧ (p.extend b).isValidChar := by
        unfold Ranged at hranged
        simp only [Nat.pow_eq, Nat.pow_zero] at hranged
        simp only [Nat.isValidChar]
        omega
      refine .inl ⟨_, h.symm, ?_⟩
      change 0x80 ≤ (Char.ofNat (p.extend b)).toNat
      rw [Char.ofNat, dif_pos hbounds.2]
      exact hbounds.1
    | succ more =>
      simp only [hmore, Option.some.injEq] at h
      rw [hmore] at hranged
      refine .inr ⟨_, h.symm, Nat.le_of_ble_eq_true rfl, ?_⟩
      have hpow : Nat.pow 0x40 (more + 1) = 0x40 * Nat.pow 0x40 more := Nat.mul_comm _ _
      rw [hpow, ← Nat.mul_assoc, ← Nat.mul_assoc] at hranged
      refine hranged.mono (Nat.mul_le_mul_right _ ?_) (Nat.mul_le_mul_right _ ?_)
      all_goals
        unfold Pending.extend
        simp only [UInt8.reduceToNat]
        omega
  · cases h

/-- No sequence is open that would have to be wide. -/
theorem wide_of_mem_none : ∀ p ∈ (none : Option Pending), p.Wide :=
  fun p hp => absurd hp (Option.not_mem_none p)

/-- A character is among the octets by itself, or is one of several octets. -/
theorem mem_of_piecesFrom {s : Option Pending} (hs : ∀ p ∈ s, p.Wide)
    (h : .char c ∈ piecesFrom s bytes) : 0x80 ≤ c.toNat ∨ c.toNat.toUInt8 ∈ bytes := by
  induction bytes generalizing s with
  | nil => cases s <;> simp [piecesFrom] at h
  | cons b rest ih =>
    have hfresh : .char c ∈ piecesFrom none (b :: rest) →
        0x80 ≤ c.toNat ∨ c.toNat.toUInt8 ∈ b :: rest := by
      intro h
      rw [piecesFrom] at h
      split at h
      · rename_i piece hstart
        rcases List.mem_cons.mp h with rfl | h
        · exact .inr (toNat_of_start hstart ▸ List.mem_cons_self)
        · exact (ih wide_of_mem_none h).imp_right (List.mem_cons_of_mem b)
      · rename_i q hstart
        refine (ih ?_ h).imp_right (List.mem_cons_of_mem b)
        rintro q ⟨⟩
        exact wide_of_start hstart
    cases s with
    | none => exact hfresh h
    | some p =>
      rw [piecesFrom] at h
      split at h
      · rename_i piece hnext
        rcases List.mem_cons.mp h with rfl | h
        · obtain ⟨c', hc, hle⟩ | ⟨q, hq, -⟩ := next?_of_wide (hs p rfl) hnext
          · obtain rfl := Piece.char.inj (Step.piece.inj hc)
            exact .inl hle
          · cases hq
        · exact (ih wide_of_mem_none h).imp_right (List.mem_cons_of_mem b)
      · rename_i q hnext
        refine (ih ?_ h).imp_right (List.mem_cons_of_mem b)
        rintro q ⟨⟩
        obtain ⟨c', hc, -⟩ | ⟨r, hr, hwide⟩ := next?_of_wide (hs p rfl) hnext
        · cases hc
        · exact Step.pending.inj hr ▸ hwide
      · rcases List.mem_cons.mp h with h | h
        · cases h
        · exact hfresh h

private theorem mem_of_charsOf {offset : Nat} {l : List Piece} {s : List Char}
    (h : charsOf offset l = .ok s) (hc : c ∈ s) : .char c ∈ l := by
  induction l generalizing offset s with
  | nil =>
    obtain rfl := Except.ok.inj h
    cases hc
  | cons piece l ih =>
    cases piece with
    | char d =>
      rw [charsOf] at h
      split at h
      · rename_i s' hs'
        obtain rfl := Except.ok.inj h
        rcases List.mem_cons.mp hc with rfl | hc
        · exact List.mem_cons_self
        · exact List.mem_cons_of_mem _ (ih hs' hc)
      · cases h
    | invalid size => cases h
    | incomplete size => cases h

/-- A character of one octet is among the octets that are read. -/
theorem mem_of_decode? {s : List Char} (h : decode? bytes = some s) (hc : c ∈ s) :
    0x80 ≤ c.toNat ∨ c.toNat.toUInt8 ∈ bytes := by
  rw [decode?, decode] at h
  cases hs : charsOf 0 (pieces bytes) with
  | error fault =>
    rw [hs] at h
    cases h
  | ok t =>
    rw [hs] at h
    obtain rfl := Option.some.inj h
    exact mem_of_piecesFrom wide_of_mem_none (mem_of_charsOf hs hc)

end Text.Utf8

namespace Json

open Displays.Text

/-- Without backslashes, there are neither quotes nor controls between the quotes. -/
def Quoted (raw : List UInt8) : Prop :=
  0x5c ∉ raw → ∀ b ∈ raw, 0x20 ≤ b ∧ b ≠ 0x22

private theorem Quoted.cons {raw : List UInt8} {b : UInt8} (h : Quoted raw)
    (hb : 0x20 ≤ b ∧ b ≠ 0x22) :
    Quoted (b :: raw) := by
  intro hplain
  exact List.forall_mem_cons.mpr ⟨hb, h fun hmem => hplain (List.mem_cons_of_mem b hmem)⟩

/-- The octets of a string have no quotes and controls if they have no backslashes. -/
theorem quoted_of_stringBody? {s raw rest : List UInt8} (h : stringBody? s = some (raw, rest)) :
    Quoted raw := by
  fun_induction stringBody? s generalizing raw rest with
  | case1 => cases h
  | case2 rest =>
    obtain ⟨rfl, -⟩ := Prod.mk.inj (Option.some.inj h)
    exact fun _ b hb => absurd hb List.not_mem_nil
  | case3 a b c d rest ih =>
    obtain ⟨_, -, h⟩ := Option.bind_eq_some_iff.mp h
    obtain ⟨_, -, h⟩ := Option.bind_eq_some_iff.mp h
    obtain ⟨rfl, -⟩ := Prod.mk.inj (Option.some.inj h)
    exact fun hplain => absurd List.mem_cons_self hplain
  | case4 e rest _ ih =>
    obtain ⟨_, -, h⟩ := Option.bind_eq_some_iff.mp h
    obtain ⟨_, -, h⟩ := Option.bind_eq_some_iff.mp h
    obtain ⟨rfl, -⟩ := Prod.mk.inj (Option.some.inj h)
    exact fun hplain => absurd List.mem_cons_self hplain
  | case5 => cases h
  | case6 b rest hquote _ _ hin ih =>
    obtain ⟨⟨raw', rest'⟩, hbody, h⟩ := Option.bind_eq_some_iff.mp h
    obtain ⟨rfl, -⟩ := Prod.mk.inj (Option.some.inj h)
    exact (ih hbody).cons ⟨UInt8.not_lt.mp fun hlow => hin (.inl hlow), hquote⟩

/-- A string behind another token is among the tokens behind it. -/
theorem mem_of_map_cons {o : Option (List Token)} {t : Token} {raw : List UInt8} {ts : List Token}
    (h : o.map (t :: ·) = some ts) (hraw : .string raw ∈ ts) (hne : .string raw ≠ t) :
    ∃ ts', o = some ts' ∧ .string raw ∈ ts' := by
  obtain ⟨ts', hts', rfl⟩ := Option.map_eq_some_iff.mp h
  exact ⟨ts', hts', (List.mem_cons.mp hraw).resolve_left hne⟩

/-- The strings among tokens have no quotes and controls if they have no backslashes. -/
theorem quoted_of_tokens? {s raw : List UInt8} {ts : List Token} (h : tokens? s = some ts)
    (hraw : .string raw ∈ ts) : Quoted raw := by
  fun_induction tokens? s generalizing ts with
  | case1 =>
    obtain rfl := Option.some.inj h
    cases hraw
  | case5 rest ih | case6 rest ih | case7 rest ih | case8 rest ih => exact ih h hraw
  | case15 | case17 | case19 => cases h
  | case16 rest raw' after hbody _ ih =>
    obtain ⟨ts', hts', rfl⟩ := Option.map_eq_some_iff.mp h
    rcases List.mem_cons.mp hraw with hsame | hraw
    · exact Token.string.inj hsame ▸ quoted_of_stringBody? hbody
    · exact ih hts' hraw
  | case2 rest ih | case3 rest ih | case4 rest ih | case9 rest ih | case10 rest ih
  | case11 rest ih | case12 rest ih | case13 rest ih | case14 rest ih =>
    obtain ⟨ts', hts', hraw⟩ := mem_of_map_cons h hraw nofun
    exact ih hts' hraw
  | case18 | case20 =>
    rename_i ih
    obtain ⟨ts', hts', hraw⟩ := mem_of_map_cons h hraw nofun
    exact ih hts' hraw

/-- All strings of the value are without quotes and controls if they are without backslashes. -/
inductive Value.Plain : Value → Prop where
  /-- The empty value has no strings. -/
  | null : Plain .null
  /-- Truth values have no strings. -/
  | bool (b : Bool) : Plain (.bool b)
  /-- Numbers have no strings. -/
  | number (n : Numeral) : Plain (.number n)
  /-- A string is to be without quotes and controls. -/
  | string {raw : List UInt8} (quoted : Quoted raw) : Plain (.string raw)
  /-- All items are to be plain. -/
  | array {items : List Value} (values : ∀ v ∈ items, Plain v) : Plain (.array items)
  /-- All values are to be plain. -/
  | object {members : List (List UInt8 × Value)} (values : ∀ m ∈ members, Plain m.2) :
    Plain (.object members)

/-- All values that a container holds are plain. -/
def Container.Plain : Container → Prop
  | .array items => ∀ v ∈ items, v.Plain
  | .object members _ => ∀ m ∈ members, m.2.Plain

/-- All values that were read are plain. -/
structure Reader.Plain (r : Reader) : Prop where
  /-- The values of the containers. -/
  stack : ∀ k ∈ r.stack, k.Plain
  /-- The value that is complete. -/
  expected : ∀ v, r.expected = .nothing v → v.Plain

namespace Reader

variable {r r' : Reader} {stack : List Container} {t : Token} {v : Value}

/-- Delivering a plain value leaves all values plain. -/
theorem plain_deliver (hv : v.Plain) (hstack : ∀ k ∈ stack, k.Plain) : (deliver v stack).Plain := by
  cases stack with
  | nil =>
    refine ⟨fun k hk => absurd hk List.not_mem_nil, fun w hw => ?_⟩
    exact Expected.nothing.inj hw ▸ hv
  | cons k stack =>
    obtain ⟨hk, hrest⟩ := List.forall_mem_cons.mp hstack
    cases k with
    | array items =>
      exact ⟨List.forall_mem_cons.mpr ⟨List.forall_mem_cons.mpr ⟨hv, hk⟩, hrest⟩, nofun⟩
    | object members name =>
      exact ⟨List.forall_mem_cons.mpr ⟨List.forall_mem_cons.mpr ⟨hv, hk⟩, hrest⟩, nofun⟩

/-- Beginning a value leaves all values plain. -/
theorem plain_begin? (ht : ∀ raw, t = .string raw → Quoted raw) (hstack : ∀ k ∈ stack, k.Plain)
    (h : begin? stack t = some r) : r.Plain := by
  cases t with
  | null => exact Option.some.inj h ▸ plain_deliver .null hstack
  | bool b => exact Option.some.inj h ▸ plain_deliver (.bool b) hstack
  | number n => exact Option.some.inj h ▸ plain_deliver (.number n) hstack
  | string raw => exact Option.some.inj h ▸ plain_deliver (.string (ht raw rfl)) hstack
  | openArray | openObject =>
    rw [← Option.some.inj h]
    exact ⟨List.forall_mem_cons.mpr ⟨fun v hv => absurd hv List.not_mem_nil, hstack⟩, nofun⟩
  | closeArray | closeObject | colon | comma => cases h

/-- Taking a token leaves all values plain. -/
theorem plain_step? (hr : r.Plain) (ht : ∀ raw, t = .string raw → Quoted raw)
    (h : r.step? t = some r') : r'.Plain := by
  obtain ⟨stack, expected⟩ := r
  have hstack := hr.stack
  simp only [step?] at h
  split at h
  case h_1 | h_3 => exact plain_begin? ht hstack h
  case h_2 | h_10 =>
    obtain ⟨hk, hrest⟩ := List.forall_mem_cons.mp hstack
    rw [← Option.some.inj h]
    exact plain_deliver (.array fun v hv => hk v (List.mem_reverse.mp hv)) hrest
  case h_4 | h_11 =>
    obtain ⟨hk, hrest⟩ := List.forall_mem_cons.mp hstack
    rw [← Option.some.inj h]
    exact plain_deliver (.object fun m hm => hk m (List.mem_reverse.mp hm)) hrest
  case h_5 | h_6 =>
    obtain ⟨hk, hrest⟩ := List.forall_mem_cons.mp hstack
    rw [← Option.some.inj h]
    exact ⟨List.forall_mem_cons.mpr ⟨hk, hrest⟩, nofun⟩
  case h_7 | h_8 | h_9 =>
    rw [← Option.some.inj h]
    exact ⟨hstack, nofun⟩
  case h_12 => cases h

/-- Tokens whose strings are without quotes and controls make values whose strings are. -/
theorem plain_run? {ts : List Token} (hr : r.Plain) (hts : ∀ raw, .string raw ∈ ts → Quoted raw)
    (h : r.run? ts = some v) : v.Plain := by
  induction ts generalizing r with
  | nil =>
    rw [run?] at h
    split at h
    · rename_i w hw
      exact Option.some.inj h ▸ hr.expected w hw
    · cases h
  | cons t ts ih =>
    rw [run?] at h
    split at h
    · rename_i r' hr'
      have ht : ∀ raw, t = .string raw → Quoted raw := fun raw ht =>
        hts raw (ht ▸ List.mem_cons_self)
      exact ih (plain_step? hr ht hr') (fun raw hraw => hts raw (List.mem_cons_of_mem t hraw)) h
    · cases h

end Reader

/-- A value that is read is plain. -/
theorem Value.plain_of_read? {bytes : List UInt8} {v : Value} (h : read? bytes = some v) :
    v.Plain := by
  obtain ⟨ts, hts, h⟩ := Option.bind_eq_some_iff.mp h
  have hstart : Reader.Plain ⟨[], .value⟩ := ⟨fun k hk => absurd hk List.not_mem_nil, nofun⟩
  exact Reader.plain_run? hstart (fun raw hraw => quoted_of_tokens? hts hraw) h

namespace Value

variable {fields : List Field} {v w : Value} {values : List (Option Value)}

private theorem mem_of_positional? {items : List Value} (h : positional? fields items = some values)
    (hw : some w ∈ values) : w ∈ items := by
  fun_induction positional? fields items generalizing values with
  | case1 =>
    obtain rfl := Option.some.inj h
    cases hw
  | case2 | case5 => cases h
  | case3 f fields v items ih =>
    obtain ⟨values', hvalues', rfl⟩ := Option.map_eq_some_iff.mp h
    rcases List.mem_cons.mp hw with hw | hw
    · exact Option.some.inj hw ▸ List.mem_cons_self
    · exact List.mem_cons_of_mem v (ih hvalues' hw)
  | case4 f fields _ ih =>
    obtain ⟨values', hvalues', rfl⟩ := Option.map_eq_some_iff.mp h
    exact ih hvalues' ((List.mem_cons.mp hw).resolve_left nofun)

private theorem exists_of_member? {members : List (String × Value)} {name : String}
    (h : member? members name = some (some w)) : ∃ m ∈ members, m.2 = w := by
  rw [member?] at h
  split at h
  · cases h
  · rename_i m hm
    have hmem : m ∈ members.filter fun m => m.1 = name := hm ▸ List.mem_singleton_self m
    exact ⟨m, (List.mem_filter.mp hmem).1, Option.some.inj (Option.some.inj h)⟩
  · cases h

/-- The fields of a plain value are plain. -/
theorem Plain.of_fields? (hv : v.Plain) (h : v.fields? fields = some values)
    (hw : some w ∈ values) : w.Plain := by
  cases hv with
  | array hitems => exact hitems w (mem_of_positional? h hw)
  | object hmembers =>
    obtain ⟨named, hnamed, h⟩ := Option.bind_eq_some_iff.mp h
    obtain ⟨f, -, hmember⟩ := exists_of_mem_mapM h hw
    obtain ⟨m, hm, rfl⟩ := exists_of_member? hmember
    obtain ⟨m', hm', hread⟩ := exists_of_mem_mapM hnamed hm
    obtain ⟨_, -, rfl⟩ := Option.map_eq_some_iff.mp hread
    exact hmembers m' hm'
  | null | bool | number | string => cases h

/-- A text without escapes in a plain value is without quotes, backslashes and controls. -/
theorem Plain.of_plainText? (hv : v.Plain) {s : String} (h : v.plainText? = some s) :
    ∀ c ∈ s.toList, c ≠ '"' ∧ c ≠ '\\' ∧ 0x20 ≤ c.toNat := by
  cases hv with
  | @string raw hraw =>
    obtain ⟨l, hl, rfl⟩ := Option.map_eq_some_iff.mp h
    rw [Json.plainText?] at hl
    split at hl
    · cases hl
    · rename_i hplain
      have hbackslash : 0x5c ∉ raw := fun hmem => hplain (List.contains_iff_mem.mpr hmem)
      intro c hc
      rw [String.toList_ofList] at hc
      by_cases hlow : c.toNat < 0x80
      · have hmem := (Utf8.mem_of_decode? hl hc).resolve_left (Nat.not_le.mpr hlow)
        obtain ⟨hcontrol, hquote⟩ := hraw hbackslash _ hmem
        rw [UInt8.le_iff_toNat_le, Utf8.toNat_toUInt8 (by omega)] at hcontrol
        refine ⟨?_, ?_, hcontrol⟩
        · rintro rfl
          exact hquote rfl
        · rintro rfl
          exact hbackslash hmem
      · refine ⟨?_, ?_, by omega⟩ <;> rintro rfl <;> exact hlow (by decide)
  | null | bool | number | array | object => cases h

end Value

end Json

namespace Sway

/-- The names of outputs that are read are without quotes, backslashes and controls. -/
theorem plain_id_of_readBytes {bytes : List UInt8} {c : Configuration} {o : Output}
    (h : readBytes bytes = .ok c) (ho : o ∈ c.outputs) :
    ∀ ch ∈ o.id.toList, ch ≠ '"' ∧ ch ≠ '\\' ∧ 0x20 ≤ ch.toNat := by
  obtain ⟨items, v, hitems, hv, hread⟩ := exists_of_mem_readBytes h ho
  obtain ⟨⟨fields, name, values, hfields, hname⟩, -⟩ := of_output? hread
  cases Json.Value.plain_of_read? hitems with
  | array hplain => exact ((hplain v hv).of_fields? hfields List.mem_cons_self).of_plainText? hname

end Sway

end Displays
