import Displays.Proofs.Ownership
import Displays.Settings

/-!
# Writing back what was read

A configuration read from a server has of each CRTC that is on its place and, as the index of the
mode, its mode, for each of the outputs it drives. Setting up the CRTCs for this configuration, or
for it with other settings of one output, writes this back to all the others. What a configuration
cannot say is not kept: a CRTC that is set up is upright, and has another mode if its outputs do not
offer the one it had.
-/

namespace Displays.Randr

/-- The output offers the mode: it is one of its own, known and without double scan. -/
def Connector.Offers (modes : Table ModeInfo) (o : Connector) (mode : Nat) : Prop :=
  mode ∈ o.modes ∧ ∃ m, modes.get? mode = some m ∧ m.isAdmissible = true

/-- What a CRTC has become that was set up as it was read. -/
structure Rewritten (s : Server) (k : Nat) (old new : Crtc) : Prop where
  /-- It begins at the same column. -/
  x : new.x = old.x
  /-- It begins at the same row. -/
  y : new.y = old.y
  /-- It drives the same outputs. -/
  outputs : new.outputs = old.outputs
  /-- It has the same mode, if the outputs it drives offer it. -/
  mode : (∀ e ∈ s.outputs, drives s.crtcs k e.1 = true → e.2.Offers s.modes old.mode) →
    new.mode = old.mode
  /-- It is turned as it was, or upright. -/
  rotation : new.rotation = old.rotation ∨ new.rotation = upright
  /-- It is as it was, if it drives nothing. -/
  dark : old.outputs = [] → new = old

section Reading

variable {modes : Table ModeInfo} {crtcs : Table Crtc} {c : Configuration} {o : Connector}
  {r : Output} {crtc : Crtc} {edid : Option (List UInt8)} {e : Nat × Connector} {s : Server}

private theorem toOutput_id (h : o.toOutput modes crtcs edid = .ok r) : r.id = o.id := by
  rw [Connector.toOutput] at h
  cases hids : admissible modes o.modes with
  | error fault =>
    rw [hids] at h
    cases h
  | ok ids =>
    rw [hids] at h
    exact congrArg Output.id (Except.ok.inj h).symm

/-- An output is read as unused if its CRTC is off. -/
theorem toOutput_used_of_zero (h0 : crtcs.get? 0 = none) (ho : o.crtc = 0)
    (h : o.toOutput modes crtcs edid = .ok r) : r.used = false := by
  rw [Connector.toOutput] at h
  cases hids : admissible modes o.modes with
  | error fault =>
    rw [hids] at h
    cases h
  | ok ids =>
    simp only [hids, ho, h0, Option.filter_none] at h
    exact congrArg Output.used (Except.ok.inj h).symm

/-- An output whose CRTC is on is read as used, with the place of the CRTC and the index of the
mode. -/
theorem toOutput_of_lit (hcrtc : crtcs.get? o.crtc = some crtc) (hlit : crtc.mode ≠ 0)
    (h : o.toOutput modes crtcs edid = .ok r) :
    r.used = true ∧ r.topLeft = ⟨crtc.x, crtc.y⟩ ∧
      ∃ ids, admissible modes o.modes = .ok ids ∧
        r.modeIndex = (ids.idxOf? crtc.mode).getD 0 := by
  rw [Connector.toOutput] at h
  cases hids : admissible modes o.modes with
  | error fault =>
    rw [hids] at h
    cases h
  | ok ids =>
    have hfilter : (some crtc).filter (fun crtc => crtc.mode ≠ 0) = some crtc := by
      simp only [Option.filter_some, hlit, ne_eq, not_false_eq_true, decide_true, ite_true]
    rw [hids, hcrtc] at h
    simp only [hfilter] at h
    obtain rfl := Except.ok.inj h
    exact ⟨rfl, rfl, ids, rfl, rfl⟩

/-- A mode that is offered is found under the index that it was read with. -/
theorem getElem?_of_offers {ids : List Nat} (hids : admissible modes o.modes = .ok ids)
    (h : o.Offers modes crtc.mode) : ids[(ids.idxOf? crtc.mode).getD 0]? = some crtc.mode := by
  have hmem : crtc.mode ∈ ids := (mem_admissible_iff hids).mpr h
  obtain ⟨i, hi⟩ := Option.isSome_iff_exists.mp (List.isSome_idxOf?.mpr hmem)
  obtain ⟨hlt, heq, _⟩ := List.findIdx?_eq_some_iff_getElem.mp hi
  rw [hi, Option.getD_some, List.getElem?_eq_getElem hlt, eq_of_beq heq]

/-- An output is read for each one of the server, under its name. -/
theorem of_readOutputs {l : List (Nat × Connector)} {outputs : List Output}
    (h : s.readOutputs l = .ok outputs) :
    outputs.map Output.id = l.map (fun e => e.2.id) ∧
      ∀ e ∈ l, ∃ edid, ∃ r ∈ outputs, e.2.toOutput s.modes s.crtcs edid = .ok r := by
  induction l generalizing outputs with
  | nil =>
    obtain rfl := Except.ok.inj h
    exact ⟨rfl, fun e he => absurd he List.not_mem_nil⟩
  | cons e l ih =>
    obtain ⟨edid, _, h⟩ := exists_of_bind_eq_ok h
    obtain ⟨r, hr, h⟩ := exists_of_bind_eq_ok h
    obtain ⟨rest, hrest, h⟩ := exists_of_bind_eq_ok h
    obtain rfl := Except.ok.inj h
    obtain ⟨hids, hmem⟩ := ih hrest
    refine ⟨by rw [List.map_cons, List.map_cons, hids, toOutput_id hr], fun e' he' => ?_⟩
    rcases List.mem_cons.mp he' with rfl | he'
    · exact ⟨edid, r, List.mem_cons_self, hr⟩
    · obtain ⟨edid', r', hr', h'⟩ := hmem e' he'
      exact ⟨edid', r', List.mem_cons_of_mem r hr', h'⟩

/-- Where names do not repeat, what was read of an output is found under its name. -/
theorem exists_requested_of_read (hnames : (s.outputs.map fun e => e.2.id).Nodup)
    (h : s.read = .ok c) (he : e ∈ s.outputs) :
    ∃ edid r, e.2.toOutput s.modes s.crtcs edid = .ok r ∧ requested? c e.2 = some r := by
  obtain ⟨_, _, h⟩ := exists_of_bind_eq_ok h
  obtain ⟨_, _, h⟩ := exists_of_bind_eq_ok h
  obtain ⟨_, _, h⟩ := exists_of_bind_eq_ok h
  obtain ⟨_, _, h⟩ := exists_of_bind_eq_ok h
  obtain ⟨outputs, houtputs, h⟩ := exists_of_bind_eq_ok h
  obtain rfl := Except.ok.inj h
  obtain ⟨hids, hmem⟩ := of_readOutputs houtputs
  obtain ⟨edid, r, hr, htoOutput⟩ := hmem e he
  refine ⟨edid, r, htoOutput, ?_⟩
  rw [requested?, ← toOutput_id htoOutput]
  have hn : (⟨outputs⟩ : Configuration).ids.Nodup := by
    rw [Configuration.ids, hids]
    exact hnames
  exact Configuration.output?_of_mem hn hr

end Reading

section Writing

variable {s : Server} {c c' : Configuration} {new : Table Crtc} {l : List (Nat × Connector)}
  {e : Nat × Connector} {k : Nat} {crtc : Crtc}

/-- A CRTC that no output releases is left as it is by a round of releases. -/
theorem get?_releaseAll {outputs : List (Nat × Connector)} {crtcs : Table Crtc}
    (h : ∀ e ∈ outputs, releases c e = true → e.2.crtc ≠ k) :
    (releaseAll c outputs crtcs).get? k = crtcs.get? k := by
  induction outputs generalizing crtcs with
  | nil => rfl
  | cons e outputs ih =>
    obtain ⟨he, h⟩ := List.forall_mem_cons.mp h
    change (releaseAll c outputs (release c crtcs e.1 e.2)).get? k = _
    rw [ih h, release_eq]
    by_cases hr : releases c e = true
    · rw [if_pos hr, Table.get?_modify_of_ne _ _ (he hr).symm]
    · rw [if_neg hr]

/-- An output that a CRTC drives is read as used, with the place of the CRTC and the index of its
mode. -/
theorem exists_requested_of_drives (hs : Wired s.modes s.outputs s.crtcs)
    (hnames : (s.outputs.map fun e => e.2.id).Nodup) (hread : s.read = .ok c)
    (he : e ∈ s.outputs) (hk : s.crtcs.get? k = some crtc) (hd : drives s.crtcs k e.1 = true) :
    ∃ r ids, requested? c e.2 = some r ∧ r.used = true ∧ r.topLeft = ⟨crtc.x, crtc.y⟩ ∧
      admissible s.modes e.2.modes = .ok ids ∧ r.modeIndex = (ids.idxOf? crtc.mode).getD 0 := by
  obtain ⟨rfl, _⟩ := (hs.named e he k).mp hd
  obtain ⟨crtc', hk', hmem⟩ := drives_iff.mp hd
  obtain rfl := Option.some.inj (hk.symm.trans hk')
  have hlit : crtc.mode ≠ 0 := (hs.lit _ crtc hk).mpr (List.ne_nil_of_mem hmem)
  obtain ⟨edid, r, hr, hreq⟩ := exists_requested_of_read hnames hread he
  obtain ⟨hu, hplace, ids, hids, hindex⟩ := toOutput_of_lit hk hlit hr
  exact ⟨r, ids, hreq, hu, hplace, hids, hindex⟩

/-- A CRTC all of whose outputs, of before and after, are requested as they were read is set up as
it was read. -/
theorem exists_rewritten (hs : Wired s.modes s.outputs s.crtcs)
    (hnames : (s.outputs.map fun e => e.2.id).Nodup) (hread : s.read = .ok c)
    (hl : l.Perm s.outputs) (h : updateCrtcs c' s.modes l s.crtcs = .ok new)
    (hk : s.crtcs.get? k = some crtc)
    (hagree : ∀ e ∈ s.outputs, drives s.crtcs k e.1 = true ∨ drives new k e.1 = true →
      requested? c' e.2 = requested? c e.2) :
    ∃ crtc', new.get? k = some crtc' ∧ Rewritten s k crtc crtc' := by
  have hs' := hs.perm hl
  have hv := visited_updateCrtcs hs'.distinct h
  have hstart : (releaseAll c' l s.crtcs).get? k = some crtc := by
    rw [get?_releaseAll, hk]
    rintro e he hr rfl
    obtain ⟨hunused, h0⟩ := Bool.and_eq_true_iff.mp hr
    have he' := hl.mem_iff.mp he
    have hd : drives s.crtcs e.2.crtc e.1 = true :=
      (hs.named e he' _).mpr ⟨rfl, by simpa only [bne_iff_ne] using h0⟩
    obtain ⟨r, _, hr, hu, _⟩ := exists_requested_of_drives hs hnames hread he' hk hd
    rw [hagree e he' (.inl hd), hr, Option.any_some, hu] at hunused
    exact Bool.noConfusion hunused
  by_cases hnil : crtc.outputs = []
  · rcases hv.free k crtc hstart hnil with hsame | ⟨e, he, htakes, _, crtc', hk', hout, _⟩
    · exact ⟨crtc, hsame, rfl, rfl, rfl, fun _ => rfl, .inl rfl, fun _ => rfl⟩
    · -- An output that takes a CRTC was dark, so that it was read as unused.
      exfalso
      have he' := hl.mem_iff.mp he
      rw [takes_releaseAll hs'.distinct he, hs.takes_iff he'] at htakes
      have hd : drives new k e.1 = true :=
        drives_iff.mpr ⟨crtc', hk', hout ▸ List.mem_singleton_self e.1⟩
      obtain ⟨edid, r, hr, hreq⟩ := exists_requested_of_read hnames hread he'
      have hu := toOutput_used_of_zero hs.crtc_ne_zero htakes.2 hr
      rw [isUsed, hagree e he' (.inr hd), hreq, Option.any_some, hu] at htakes
      exact Bool.noConfusion htakes.1
  · obtain ⟨crtc', hk', hout, hsame, hsuits⟩ := hv.kept k crtc hstart hnil
    refine ⟨crtc', hk', ?_⟩
    cases hlast : lastKeeper? c' (releaseAll c' l s.crtcs) l k with
    | none =>
      obtain rfl := hsame hlast
      exact ⟨rfl, rfl, rfl, fun _ => rfl, .inl rfl, fun _ => rfl⟩
    | some e =>
      obtain ⟨he, hkeeps⟩ := List.mem_filter.mp (List.mem_of_getLast? hlast)
      obtain ⟨hkeeps, hek⟩ := Bool.and_eq_true_iff.mp hkeeps
      have he' := hl.mem_iff.mp he
      rw [keeps_releaseAll hs'.distinct he, hs.keeps_iff he'] at hkeeps
      have hd : drives s.crtcs k e.1 = true :=
        (hs.named e he' k).mpr ⟨(eq_of_beq hek).symm, eq_of_beq hek ▸ hkeeps.2⟩
      obtain ⟨r, ids, hr, _, hplace, hids, hindex⟩ :=
        exists_requested_of_drives hs hnames hread he' hk hd
      rw [← hagree e he' (.inl hd)] at hr
      obtain ⟨⟨r', ids', hr', _, hids', hmode, hplace', _⟩, hupright⟩ := hsuits e hlast
      obtain rfl := Option.some.inj (hr.symm.trans hr')
      obtain rfl := Except.ok.inj (hids.symm.trans hids')
      obtain ⟨hx, hy⟩ := (Point.mk.injEq ..).mp (hplace'.symm.trans hplace)
      refine ⟨hx, hy, hout, fun hoffers => ?_, .inr hupright, fun h => absurd h hnil⟩
      rw [hindex, getElem?_of_offers hids (hoffers e he' hd)] at hmode
      exact (Option.some.inj hmode).symm

/-- Setting up the CRTCs for the configuration that was read, or for it with other settings of one
output, writes back all CRTCs that do not drive this output, neither before nor after. -/
theorem rewritten_of_updateCrtcs (hs : Wired s.modes s.outputs s.crtcs)
    (hnames : (s.outputs.map fun e => e.2.id).Nodup) (hread : s.read = .ok c)
    (hl : l.Perm s.outputs) :
    (∀ id settings new,
      updateCrtcs (c.modify id (Settings.apply settings)) s.modes l s.crtcs = .ok new →
      ∀ k crtc, s.crtcs.get? k = some crtc →
        (∀ e ∈ s.outputs, e.2.id = id →
          drives s.crtcs k e.1 = false ∧ drives new k e.1 = false) →
        ∃ crtc', new.get? k = some crtc' ∧ Rewritten s k crtc crtc') ∧
    ∀ new, updateCrtcs c s.modes l s.crtcs = .ok new →
      ∀ k crtc, s.crtcs.get? k = some crtc →
        ∃ crtc', new.get? k = some crtc' ∧ Rewritten s k crtc crtc' := by
  constructor
  · intro id settings new h k crtc hk hother
    refine exists_rewritten hs hnames hread hl h hk fun e he hd => ?_
    have hne : e.2.id ≠ id := by
      intro hid
      obtain ⟨hbefore, hafter⟩ := hother e he hid
      simp only [hbefore, hafter, Bool.false_eq_true, or_self] at hd
    exact (Configuration.output?_modify (f := settings.apply) (fun _ => rfl) c id _).trans
      (if_neg hne)
  · intro new h k crtc hk
    exact exists_rewritten hs hnames hread hl h hk fun _ _ _ => rfl

end Writing

namespace Scenes

/-- An output that a CRTC drives. -/
def driven (name : List UInt8) (crtc : Nat) (modes : List Nat) : Connector where
  name
  connected := true
  crtc
  crtcs := [crtc]
  modes
  size := ⟨0, 0⟩

/-- A server with a CRTC that is turned and one of a mode with double scan, beside an ordinary
one. -/
def peculiar : Server where
  modes := ⟨[(1, ⟨1920, 1080, 148500000, 2200, 1125, 0⟩), (2, ⟨320, 200, 12587500, 400, 449, 32⟩)],
    by simp⟩
  outputs := [
    (10, driven "eDP-1".toUTF8.toList 20 [1]),
    (11, driven "HDMI-1".toUTF8.toList 21 [1]),
    (12, driven "DP-1".toUTF8.toList 22 [1, 2])]
  crtcs := ⟨[(20, ⟨0, 0, 1, upright, [10]⟩), (21, ⟨1920, 0, 1, 2, [11]⟩),
    (22, ⟨3000, 0, 2, upright, [12]⟩)], by simp⟩

/-- A server with two outputs whose names are different octets, but read as the same text. -/
def garbled : Server where
  modes := oneMode
  outputs := [(10, driven [0xff] 20 [1]), (11, driven [0xfe] 21 [1])]
  crtcs := ⟨[(20, ⟨0, 0, 1, upright, [10]⟩), (21, ⟨1920, 0, 1, upright, [11]⟩)], by simp⟩

/-- The settings of an output that is not to be used. -/
def dark : Settings := ⟨false, ⟨0, 0⟩, 0, .on, 1, .monitor⟩

/-- A reading that is checked to give a configuration of some kind gives one. -/
theorem exists_read {s : Server} {P : Configuration → Prop} [DecidablePred P]
    (h : s.read.toOption.any (fun c => decide (P c)) = true) : ∃ c, s.read = .ok c ∧ P c := by
  cases hc : s.read with
  | error fault =>
    rw [hc] at h
    cases h
  | ok c =>
    rw [hc] at h
    exact ⟨c, rfl, of_decide_eq_true h⟩

/-- The tables of the server with the turned CRTC agree. -/
theorem wired_peculiar : Wired peculiar.modes peculiar.outputs peculiar.crtcs :=
  .of_entries (by decide) (by decide) (by decide) rfl

/-- The tables of the server with the unreadable names agree. -/
theorem wired_garbled : Wired garbled.modes garbled.outputs garbled.crtcs :=
  .of_entries (by decide) (by decide) (by decide) rfl

/-- Switching off the ordinary output, which drives neither of the other CRTCs, leaves the CRTC of
the turned one on the same place. -/
theorem rewritten_of_dark :
    Wired peculiar.modes peculiar.outputs peculiar.crtcs ∧
    (peculiar.outputs.map fun e => e.2.id).Nodup ∧
    ∃ c new crtc', peculiar.read = .ok c ∧ peculiar.outputs.Perm peculiar.outputs ∧
      updateCrtcs (c.modify "eDP-1" dark.apply) peculiar.modes peculiar.outputs peculiar.crtcs =
        .ok new ∧
      peculiar.crtcs.get? 21 = some ⟨1920, 0, 1, 2, [11]⟩ ∧
      (∀ e ∈ peculiar.outputs, e.2.id = "eDP-1" →
        drives peculiar.crtcs 21 e.1 = false ∧ drives new 21 e.1 = false) ∧
      new.get? 21 = some crtc' ∧ Rewritten peculiar 21 ⟨1920, 0, 1, 2, [11]⟩ crtc' := by
  have hnames : (peculiar.outputs.map fun e => e.2.id).Nodup := by decide +kernel
  obtain ⟨c, hread, hset⟩ := exists_read (s := peculiar) (P := fun c =>
    updateCrtcs (c.modify "eDP-1" dark.apply) peculiar.modes peculiar.outputs peculiar.crtcs =
      .ok ⟨[(20, ⟨0, 0, 0, upright, []⟩), (21, ⟨1920, 0, 1, upright, [11]⟩),
        (22, ⟨3000, 0, 1, upright, [12]⟩)], by simp⟩) (by decide +kernel)
  obtain ⟨crtc', hk, hrewritten⟩ :=
    (rewritten_of_updateCrtcs wired_peculiar hnames hread (.refl _)).1 "eDP-1" dark _ hset 21
      ⟨1920, 0, 1, 2, [11]⟩ rfl (by decide +kernel)
  exact ⟨wired_peculiar, hnames, c, _, crtc', hread, .refl _, hset, rfl, by decide +kernel, hk,
    hrewritten⟩

/-- Switching off the ordinary output sets the turned CRTC upright and gives the other one another
mode; and where names read alike, writing back what was read moves an output. -/
theorem others_not_kept :
    (Wired peculiar.modes peculiar.outputs peculiar.crtcs ∧
      (peculiar.outputs.map fun e => e.2.name).Nodup ∧
      ∃ c, peculiar.read = .ok c ∧
        ∃ new, updateCrtcs (c.modify "eDP-1" dark.apply) peculiar.modes peculiar.outputs
            peculiar.crtcs = .ok new ∧
          (∀ k, k = 21 ∨ k = 22 →
            drives peculiar.crtcs k 10 = false ∧ drives new k 10 = false ∧
              new.get? k ≠ peculiar.crtcs.get? k)) ∧
    (Wired garbled.modes garbled.outputs garbled.crtcs ∧
      (garbled.outputs.map fun e => e.2.name).Nodup ∧
      ∃ c, garbled.read = .ok c ∧
        ∃ new, updateCrtcs c garbled.modes garbled.outputs garbled.crtcs = .ok new ∧
          new ≠ garbled.crtcs) := by
  refine ⟨⟨wired_peculiar, by decide +kernel, ?_⟩, wired_garbled, by decide +kernel, ?_⟩
  · obtain ⟨c, hread, hset⟩ := exists_read (s := peculiar) (P := fun c =>
      updateCrtcs (c.modify "eDP-1" dark.apply) peculiar.modes peculiar.outputs peculiar.crtcs =
        .ok ⟨[(20, ⟨0, 0, 0, upright, []⟩), (21, ⟨1920, 0, 1, upright, [11]⟩),
          (22, ⟨3000, 0, 1, upright, [12]⟩)], by simp⟩) (by decide +kernel)
    refine ⟨c, hread, _, hset, ?_⟩
    rintro k (rfl | rfl) <;> decide +kernel
  · obtain ⟨c, hread, hset⟩ := exists_read (s := garbled) (P := fun c =>
      updateCrtcs c garbled.modes garbled.outputs garbled.crtcs =
        .ok ⟨[(20, ⟨0, 0, 1, upright, [10]⟩), (21, ⟨0, 0, 1, upright, [11]⟩)], by simp⟩)
      (by decide +kernel)
    exact ⟨c, hread, _, hset, by decide +kernel⟩

end Scenes

end Displays.Randr
