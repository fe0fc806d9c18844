import Displays.Proofs.Entries
import Displays.Proofs.Records
import Displays.Proofs.Rereading

/-!
# Opening the file again

A file that was saved is opened again with the options that were saved last under each id and with
those that stood under the other ids, as long as all scales are finite. A scale that is not finite
is written as an empty value, and one such value makes the whole file unreadable.
-/

namespace Displays

open Json (Value Numeral)

/-! ## Written values -/

namespace Json.Value

/-- The value of a whole number is sound. -/
theorem sound_ofInt (n : Int) : (ofInt n).Sound :=
  .number (Numeral.sound_ofInt n)

/-- The value of a text is sound. -/
theorem sound_ofText (s : String) : (ofText s).Sound :=
  .string (closed_escape s.toList)

/-- A record is sound if its fields are. -/
theorem sound_ofMembers {members : List (String × Value)} (h : ∀ m ∈ members, m.2.Sound) :
    (ofMembers members).Sound := by
  refine .object (fun m hm => ?_) (fun m hm => ?_)
  · obtain ⟨member, -, rfl⟩ := List.mem_map.mp hm
    exact closed_escape member.1.toList
  · obtain ⟨member, hmember, rfl⟩ := List.mem_map.mp hm
    exact h member hmember

/-- A double is written as a value that is read as a double again, unless it is not finite. -/
theorem ofFloat_cases (x : Float) :
    (ofFloat x).Sound ∧
      (x.isFinite = true ∧ (∃ y, (ofFloat x).float? = some y) ∨
        x.isFinite = false ∧ (ofFloat x).float? = none) := by
  rw [ofFloat]
  rcases Numeral.ofFloat?_cases x with ⟨hfinite, n, hn, hsound, hread⟩ | ⟨hfinite, hn⟩
  · rw [hn]
    exact ⟨.number hsound, .inl ⟨hfinite, Option.isSome_iff_exists.mp hread⟩⟩
  · rw [hn]
    exact ⟨.null, .inr ⟨hfinite, rfl⟩⟩

/-- The text of a double is read like the value that is written. -/
theorem read?_print_ofFloat (x : Float) :
    (Value.read? ((ofFloat x).print 0)).bind float? = (ofFloat x).float? := by
  rw [read?_print (ofFloat_cases x).1, Option.bind_some]

end Json.Value

private theorem Point.sound_toValue (p : Point) : p.toValue.Sound :=
  Value.sound_ofMembers <| List.forall_mem_cons.mpr
    ⟨Value.sound_ofInt _, List.forall_mem_singleton.mpr (Value.sound_ofInt _)⟩

private theorem Resolution.sound_toValue (r : Resolution) : r.toValue.Sound :=
  Value.sound_ofMembers <| List.forall_mem_cons.mpr
    ⟨Value.sound_ofInt _, List.forall_mem_singleton.mpr (Value.sound_ofInt _)⟩

private theorem Mode.sound_toValue (m : Mode) : m.toValue.Sound :=
  Value.sound_ofMembers <| List.forall_mem_cons.mpr
    ⟨m.resolution.sound_toValue, List.forall_mem_singleton.mpr (Value.sound_ofInt _)⟩

/-- Options are written as a sound value. -/
theorem Options.sound_toValue (o : Options) : o.toValue.Sound := by
  refine Value.sound_ofMembers ?_
  simp only [List.forall_mem_cons]
  refine ⟨.bool o.used, o.topLeft.sound_toValue, ?_, (Value.ofFloat_cases o.scale).1,
    Value.sound_ofText _, Value.sound_ofText _, fun _ h => absurd h List.not_mem_nil⟩
  cases o.mode with
  | none => exact .null
  | some m => exact m.sound_toValue

/-! ## Entries in a file -/

/-- Written options come back as others that agree in every field but the scale, and their scale is
what the reader of numbers makes of the text that the printer writes for the scale. -/
structure Options.ComesBackAs (o o' : Options) : Prop where
  /-- The other fields agree. -/
  fields_eq : o' = { o with scale := o'.scale }
  /-- The text of the scale is read. -/
  scale_read : (Value.read? ((Value.ofFloat o.scale).print 0)).bind Value.float? = some o'.scale

/-- What is read of options that were written is what they come back as. -/
theorem Options.comesBackAs_of_ofValue? {o o' : Options} (hfits : o.Fits)
    (h : ofValue? o.toValue = some o') : o.ComesBackAs o' := by
  rw [ofValue?_toValue hfits] at h
  obtain ⟨scale, hscale, rfl⟩ := Option.map_eq_some_iff.mp h
  exact ⟨rfl, (Value.read?_print_ofFloat o.scale).trans hscale⟩

section Lists

variable {α β : Type} {f : α → Option β} {l : List α} {l' : List β}

/-- A list is mapped if each of its items is. -/
theorem isSome_mapM_iff : (l.mapM f).isSome ↔ ∀ a ∈ l, (f a).isSome := by
  induction l with
  | nil => exact ⟨fun _ _ h => absurd h List.not_mem_nil, fun _ => rfl⟩
  | cons a l ih =>
    rw [List.forall_mem_cons, ← ih, List.mapM_cons]
    cases f a with
    | none => exact ⟨(nomatch ·), fun h => nomatch h.1⟩
    | some b =>
      cases l.mapM f with
      | none => exact ⟨(nomatch ·), fun h => nomatch h.2⟩
      | some bs => exact ⟨fun _ => ⟨rfl, rfl⟩, fun _ => rfl⟩

/-- The images stand in the order of the items. -/
theorem forall₂_of_mapM (h : l.mapM f = some l') : List.Forall₂ (fun a b => f a = some b) l l' := by
  induction l generalizing l' with
  | nil =>
    obtain rfl := Option.some.inj h
    exact .nil
  | cons a l ih =>
    rw [List.mapM_cons] at h
    obtain ⟨b, hb, h⟩ := Option.bind_eq_some_iff.mp h
    obtain ⟨bs, hbs, h⟩ := Option.bind_eq_some_iff.mp h
    obtain rfl := Option.some.inj h
    exact .cons hb (ih hbs)

/-- Each result of a list comes from a member of it. -/
theorem exists_of_mem_mapM {b : β} (h : l.mapM f = some l') (hb : b ∈ l') :
    ∃ a ∈ l, f a = some b := by
  have himages := forall₂_of_mapM h
  clear h
  induction himages with
  | nil => cases hb
  | cons hf _ ih =>
    rcases List.mem_cons.mp hb with rfl | hb
    · exact ⟨_, List.mem_cons_self, hf⟩
    · obtain ⟨a, ha, hf⟩ := ih hb
      exact ⟨a, List.mem_cons_of_mem _ ha, hf⟩

end Lists

namespace Entries

variable {entries : Entries} {e : String × Options}

/-- A written file is read entry by entry. -/
theorem read?_print (entries : Entries) :
    Entries.read? entries.print =
      (entries.mapM fun e => (Options.ofValue? e.2.toValue).map fun o => (e.1, o)).map ofList := by
  have hsound : (Value.ofMembers (entries.map fun e => (e.1, e.2.toValue))).Sound := by
    refine Value.sound_ofMembers fun m hm => ?_
    obtain ⟨e, -, rfl⟩ := List.mem_map.mp hm
    exact e.2.sound_toValue
  have hprint : entries.print =
      (Value.ofMembers (entries.map fun e => (e.1, e.2.toValue))).print 0 := rfl
  rw [Entries.read?, hprint, Json.read?_print hsound, Option.bind_eq_bind, Option.bind_some,
    Value.members?_ofMembers, Option.bind_eq_bind, Option.bind_some, List.mapM_map,
    Option.map_eq_bind]
  rfl

/-- The entries stand in order, and their numbers fit into their words. -/
structure Valid (entries : Entries) : Prop where
  /-- The ids stand in their order. -/
  sorted : entries.Sorted
  /-- The numbers fit. -/
  fits : ∀ e ∈ entries, e.2.Fits

/-- The entries that are read for entries that are written. -/
def ComeBackAs (entries back : Entries) : Prop :=
  List.Forall₂ (fun e e' => e'.1 = e.1 ∧ e.2.ComesBackAs e'.2) entries back

variable {back : Entries}

/-- What stands under an id comes back under the same id. -/
theorem ComeBackAs.lookup (h : entries.ComeBackAs back) (id : String) :
    Option.Rel Options.ComesBackAs (entries.lookup id) (back.lookup id) := by
  induction h with
  | nil => exact .none
  | @cons e e' _ _ hentry _ ih =>
    obtain ⟨hid, hoptions⟩ := hentry
    rw [lookup_cons id e.1 e.2, lookup_cons id e'.1 e'.2, hid]
    split
    · exact .some hoptions
    · exact ih

/-- Entries that stand in order come back in order. -/
theorem ComeBackAs.sorted (h : entries.ComeBackAs back) (hs : entries.Sorted) : back.Sorted := by
  have hids : back.map Prod.fst = entries.map Prod.fst := by
    induction h with
    | nil => rfl
    | cons hentry _ ih =>
      rw [List.map_cons, List.map_cons, hentry.1, ih (List.pairwise_cons.mp hs).2]
  have hpairs : (entries.map Prod.fst).Pairwise (· < ·) := List.pairwise_map.mpr hs
  exact List.pairwise_map.mp (hids ▸ hpairs)

/-- If all scales are finite, the entries come back. -/
theorem Valid.exists_read?_print (h : entries.Valid)
    (hfinite : ∀ e ∈ entries, e.2.scale.isFinite = true) :
    ∃ back, Entries.read? entries.print = some back ∧ entries.ComeBackAs back := by
  have hread : ∀ e ∈ entries,
      ((Options.ofValue? e.2.toValue).map fun o => (e.1, o)).isSome := by
    intro e he
    rw [Option.isSome_map, Options.ofValue?_toValue (h.fits e he), Option.isSome_map]
    rcases (Value.ofFloat_cases e.2.scale).2 with ⟨-, y, hy⟩ | ⟨hfalse, -⟩
    · exact Option.isSome_of_eq_some hy
    · rw [hfinite e he] at hfalse
      cases hfalse
  obtain ⟨back, hback⟩ := Option.isSome_iff_exists.mp (isSome_mapM_iff.mpr hread)
  have hcome : entries.ComeBackAs back := by
    have himages := (List.forall₂_and_left _ _).mpr ⟨h.fits, forall₂_of_mapM hback⟩
    refine himages.imp fun e e' ⟨hfits, he'⟩ => ?_
    obtain ⟨o, ho, rfl⟩ := Option.map_eq_some_iff.mp he'
    exact ⟨rfl, Options.comesBackAs_of_ofValue? hfits ho⟩
  refine ⟨back, ?_, hcome⟩
  rw [read?_print, hback, Option.map_some, ofList_of_sorted (hcome.sorted h.sorted)]

/-- One scale that is not finite makes the file unreadable. -/
theorem read?_print_eq_none (he : e ∈ entries) (hfits : e.2.Fits)
    (hfinite : e.2.scale.isFinite = false) : Entries.read? entries.print = none := by
  have hnone : Options.ofValue? e.2.toValue = none := by
    rw [Options.ofValue?_toValue hfits]
    rcases (Value.ofFloat_cases e.2.scale).2 with ⟨htrue, -⟩ | ⟨-, hread⟩
    · rw [htrue] at hfinite
      cases hfinite
    · rw [hread, Option.map_none]
  rw [read?_print]
  refine Option.map_eq_none_iff.mpr (Option.not_isSome_iff_eq_none.mp fun hsome => ?_)
  have hone := isSome_mapM_iff.mp hsome e he
  rw [hnone] at hone
  cases hone

/-- Entries that are read from a file are in order and fit, and their scales are finite. -/
theorem of_read? {bytes : List UInt8} (h : Entries.read? bytes = some entries) :
    entries.Valid ∧ ∀ e ∈ entries, e.2.scale.isFinite = true := by
  obtain ⟨v, -, h⟩ := Option.bind_eq_some_iff.mp h
  obtain ⟨members, -, h⟩ := Option.bind_eq_some_iff.mp h
  obtain ⟨l, hl, h⟩ := Option.bind_eq_some_iff.mp h
  obtain rfl := Option.some.inj h
  have hread : ∀ e ∈ ofList l, e.2.Fits ∧ ∃ n : Numeral, n.float? = some e.2.scale := by
    intro e he
    obtain ⟨m, -, hm⟩ := exists_of_mem_mapM hl (mem_of_mem_ofList he)
    obtain ⟨o, ho, rfl⟩ := Option.map_eq_some_iff.mp hm
    exact Options.of_ofValue? ho
  refine ⟨⟨sorted_ofList l, fun e he => (hread e he).1⟩, fun e he => ?_⟩
  obtain ⟨n, hn⟩ := (hread e he).2
  exact n.isFinite_of_float? hn

end Entries

/-! ## Saves in turn -/

namespace Storage

/-- Saves options in turn, up to the first that fails. -/
def saveEach (s : Storage) (file : File) :
    List (String × Options) → Except StorageFault (Storage × File)
  | [] => .ok (s, file)
  | (id, o) :: saves =>
    match s.save id o file with
    | (.ok (), s, file) => s.saveEach file saves
    | (.error fault, _, _) => .error fault

variable {s s' t : Storage} {file file' : File} {id path : String} {o : Options}
  {saves : List (String × Options)}

/-- A save that succeeds leaves a file with all entries. -/
theorem save_eq_ok (h : s.save id o file = (.ok (), s', file')) :
    s' = { s with entries := s.entries.insert id o } ∧ file' = .regular s'.entries.print := by
  rw [save] at h
  dsimp only at h
  split at h
  · next bytes hwrite =>
    obtain ⟨-, h⟩ := Prod.mk.inj h
    obtain ⟨rfl, rfl⟩ := Prod.mk.inj h
    refine ⟨rfl, ?_⟩
    cases file <;> cases hwrite <;> rfl
  · cases h

/-- After saves that all succeed, the options under each id are those that were saved last or, if
there are none, those from before; and the last save has written them all. -/
theorem saveEach_eq_ok (h : s.saveEach file saves = .ok (s', file')) :
    s' = { s with
      entries := saves.foldl (fun entries (id, o) => entries.insert id o) s.entries } ∧
      (saves = [] ∧ file' = file ∨ saves ≠ [] ∧ file' = .regular s'.entries.print) := by
  induction saves generalizing s file with
  | nil =>
    obtain ⟨rfl, rfl⟩ := Prod.mk.inj (Except.ok.inj h)
    exact ⟨rfl, .inl ⟨rfl, rfl⟩⟩
  | cons save saves ih =>
    obtain ⟨id, o⟩ := save
    rw [saveEach] at h
    split at h
    · next t mid hsave =>
      obtain ⟨rfl, hmid⟩ := save_eq_ok hsave
      obtain ⟨hs', hfile'⟩ := ih h
      refine ⟨hs', .inr ⟨List.cons_ne_nil _ _, ?_⟩⟩
      rcases hfile' with ⟨rfl, rfl⟩ | ⟨-, hfile'⟩
      · rw [hmid, hs']
        rfl
      · exact hfile'
    · cases h

/-- A file is opened with the entries that its octets are read as, or not at all. -/
theorem ofFile_regular (path : String) (bytes : List UInt8) :
    ofFile path (.regular bytes) =
      match Entries.read? bytes with
      | some entries => .ok ⟨path, entries⟩
      | none => .error (.format path) := rfl

/-- A file that is opened gives its own path, and valid entries with finite scales. -/
theorem of_ofFile (h : ofFile path file = .ok s) :
    s.path = path ∧ s.entries.Valid ∧ ∀ e ∈ s.entries, e.2.scale.isFinite = true := by
  cases file with
  | missing | astray =>
    obtain rfl := Except.ok.inj h
    exact ⟨rfl, ⟨List.Pairwise.nil, fun e he => absurd he List.not_mem_nil⟩,
      fun e he => absurd he List.not_mem_nil⟩
  | directory => cases h
  | regular bytes =>
    rw [ofFile_regular] at h
    split at h
    · next entries hread =>
      obtain rfl := Except.ok.inj h
      exact ⟨rfl, Entries.of_read? hread⟩
    · cases h

/-- After saves in turn that all succeed, the options under each id are the last ones that were
saved or those from before. If the last scales that were saved are finite, the file is opened again
with these options, each as it comes back, and with the very same ones if there was no save; if one
of them is not finite, the file is not readable. -/
theorem ofFile_of_saveEach (hfits : ∀ save ∈ saves, save.2.Fits) (hopen : ofFile path file = .ok s)
    (hsaves : s.saveEach file saves = .ok (s', file')) :
    (∀ id, s'.load? id = (saves.reverse.lookup id).or (s.load? id)) ∧
    ((∀ id o, saves.reverse.lookup id = some o → o.scale.isFinite = true) →
      ∃ t, ofFile path file' = .ok t ∧ (saves = [] → t = s) ∧
        (saves ≠ [] → ∀ id, Option.Rel Options.ComesBackAs (s'.load? id) (t.load? id))) ∧
    ((∃ id o, saves.reverse.lookup id = some o ∧ o.scale.isFinite = false) →
      ofFile path file' = .error (.format path)) := by
  obtain ⟨rfl, hvalid, hfinite⟩ := of_ofFile hopen
  obtain ⟨hs', hfile'⟩ := saveEach_eq_ok hsaves
  have hentries := congrArg entries hs'
  have hload : ∀ id, s'.load? id = (saves.reverse.lookup id).or (s.load? id) := by
    intro id
    rw [load?, hentries]
    exact Entries.lookup_foldl_insert saves s.entries id
  have hvalid' : s'.entries.Valid := by
    rw [hentries]
    refine ⟨hvalid.sorted.foldl_insert saves, fun e he => ?_⟩
    rcases Entries.mem_of_mem_foldl_insert he with he | he
    · exact hfits e he
    · exact hvalid.fits e he
  refine ⟨hload, fun hlast => ?_, fun hlast => ?_⟩
  · have hfinite' : ∀ e ∈ s'.entries, e.2.scale.isFinite = true := by
      intro e he
      have hfound := (hload e.1).symm.trans (hvalid'.sorted.lookup_of_mem he)
      rcases Option.or_eq_some_iff.mp hfound with hsaved | ⟨-, hkept⟩
      · exact hlast e.1 e.2 hsaved
      · exact hfinite _ (Entries.mem_of_lookup hkept)
    rcases hfile' with ⟨rfl, rfl⟩ | ⟨hne, rfl⟩
    · exact ⟨s, hopen, fun _ => rfl, fun hne => absurd rfl hne⟩
    · obtain ⟨back, hback, hcome⟩ := hvalid'.exists_read?_print hfinite'
      refine ⟨⟨s.path, back⟩, ?_, fun hnil => absurd hnil hne, fun _ => hcome.lookup⟩
      rw [ofFile_regular, hback]
  · obtain ⟨id, o, hsaved, hinf⟩ := hlast
    rcases hfile' with ⟨rfl, -⟩ | ⟨-, rfl⟩
    · cases hsaved
    · have hfound : s'.load? id = some o := by rw [hload, hsaved, Option.some_or]
      have hmem := Entries.mem_of_lookup hfound
      rw [ofFile_regular, Entries.read?_print_eq_none hmem (hvalid'.fits _ hmem) hinf]

/-- A display whose id needs escapes is saved with a scale that is no number and with one that is.
If the number is saved last, the file is opened again with it and with the options of the other
display; otherwise it is not readable. -/
theorem ofFile_of_saveEach_escapes :
    let kept : Options := ⟨true, ⟨-5, 0⟩, some ⟨⟨1920, 1080⟩, 60000⟩, 1.5, .tv, .on⟩
    let s : Storage := ⟨"options.json", [("DP-1", kept)]⟩
    let file : File := .regular s.entries.print
    let id := "\"\\\u0001😀"
    let good : Options := { kept with mode := none, scale := 1.25 }
    let bad : Options := { kept with scale := 0.0 / 0.0 }
    (∃ s' file' t, s.saveEach file [(id, bad), (id, good)] = .ok (s', file') ∧
      ofFile "options.json" file' = .ok t ∧
      Option.Rel Options.ComesBackAs (some good) (t.load? id) ∧
      Option.Rel Options.ComesBackAs (some kept) (t.load? "DP-1")) ∧
    ∃ s' file', s.saveEach file [(id, good), (id, bad)] = .ok (s', file') ∧
      ofFile "options.json" file' = .error (.format "options.json") := by
  intro kept s file id good bad
  have hpoint : (⟨-5, 0⟩ : Point).Fits := ⟨by decide, by decide⟩
  have hmode : ∀ m ∈ kept.mode, m.Fits := by
    rintro m ⟨⟩
    exact ⟨⟨by decide, by decide⟩, by decide⟩
  have hgood : good.Fits := ⟨hpoint, fun m hm => nomatch hm⟩
  have hbad : bad.Fits := ⟨hpoint, hmode⟩
  have hopen : ofFile "options.json" file = .ok s := by
    have hread : Entries.read? s.entries.print = some s.entries := by decide +kernel
    rw [ofFile_regular, hread]
  refine ⟨?_, ?_⟩
  · obtain ⟨⟨s', file'⟩, hsaves⟩ : ∃ result, s.saveEach file [(id, bad), (id, good)] = .ok result :=
      ⟨_, rfl⟩
    obtain ⟨hload, hreopen, -⟩ := ofFile_of_saveEach (by simp [hgood, hbad]) hopen hsaves
    obtain ⟨t, ht, -, hback⟩ := hreopen fun k o hk => by
      change List.lookup k [(id, good), (id, bad)] = some o at hk
      rw [Entries.lookup_cons, Entries.lookup_cons] at hk
      split at hk
      · obtain rfl := Option.some.inj hk
        decide +kernel
      · cases hk
    have hback' := hback (List.cons_ne_nil _ _)
    have hid : s'.load? id = some good := (hload id).trans (by decide +kernel)
    have hkept : s'.load? "DP-1" = some kept := (hload "DP-1").trans (by decide +kernel)
    exact ⟨s', file', t, hsaves, ht, hid ▸ hback' id, hkept ▸ hback' "DP-1"⟩
  · obtain ⟨⟨s', file'⟩, hsaves⟩ : ∃ result, s.saveEach file [(id, good), (id, bad)] = .ok result :=
      ⟨_, rfl⟩
    obtain ⟨-, -, hformat⟩ := ofFile_of_saveEach (by simp [hgood, hbad]) hopen hsaves
    exact ⟨s', file', hsaves, hformat ⟨id, bad, by decide +kernel, by decide +kernel⟩⟩

end Storage

end Displays
