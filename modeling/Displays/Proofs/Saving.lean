import Displays.Command.Basic
import Displays.Proofs.Entries
import Displays.Proofs.Restoration

/-!
# Saving and restoring

What saving remembers of a screen is what restoring asks for: the settings of the screen, with the
index at which its mode stands when the display is connected again. Of screens with one display id
the last one counts, and what is remembered of a display without a screen stays.
-/

namespace Displays

/-- Given the modes that a display offers, the options amount to these settings with the first index
of this mode, and to nothing if the mode is not among them. -/
structure Options.Recalls (o : Options) (s : Settings) (mode : Mode) : Prop where
  /-- The options amount to nothing exactly where the mode is missing. -/
  none_iff : ∀ modes, o.toSettings? modes = none ↔ mode ∉ modes
  /-- Otherwise they amount to the settings with the first index of the mode. -/
  of_some : ∀ modes settings, o.toSettings? modes = some settings →
    modes[settings.modeIndex]? = some mode ∧
      (∀ i < settings.modeIndex, modes[i]? ≠ some mode) ∧
      settings = { s with modeIndex := settings.modeIndex }

/-- Settings that name a mode are recalled from the options that they amount to. -/
theorem Options.recalls_ofSettings {s : Settings} {modes : List Mode} {mode : Mode}
    (h : modes[s.modeIndex]? = some mode) : (ofSettings s modes).Recalls s mode := by
  have hresolve : ∀ offered, (ofSettings s modes).toSettings? offered =
      (offered.idxOf? mode).map fun index => { s with modeIndex := index } := by
    intro offered
    rw [toSettings?, ofSettings, h, Option.map_eq_bind]
    rfl
  refine ⟨fun offered => ?_, fun offered settings hsettings => ?_⟩
  · rw [hresolve, Option.map_eq_none_iff, List.idxOf?_eq_none_iff]
  · rw [hresolve] at hsettings
    obtain ⟨index, hindex, rfl⟩ := Option.map_eq_some_iff.mp hsettings
    obtain ⟨hlt, hmode, hfirst⟩ := List.idxOf?_eq_some_iff.mp hindex
    refine ⟨List.getElem?_eq_some_iff.mpr ⟨hlt, hmode⟩, fun i hi hsome => ?_, rfl⟩
    obtain ⟨_, hearlier⟩ := List.getElem?_eq_some_iff.mp hsome
    exact hfirst i hi hearlier

/-- The id of the display of a screen, if its identity is known. -/
def Screen.displayId? (s : Screen) : Option String :=
  s.identity.map Identity.displayId

variable {storage : Storage} {file : File} {printed : String} {l : List Screen}

/-- Saving screens leaves the options of a display that is none of theirs. -/
theorem load?_saveAll {id : String} (h : ∀ s ∈ l, s.displayId? ≠ some id) :
    (saveAll storage file printed l).storage.load? id = storage.load? id := by
  induction l generalizing storage file printed with
  | nil => rfl
  | cons s l ih =>
    obtain ⟨hs, hl⟩ := List.forall_mem_cons.mp h
    cases hidentity : s.identity with
    | none =>
      rw [saveAll, hidentity]
      exact ih hl
    | some identity =>
      have hne : id ≠ identity.displayId := by
        rintro rfl
        exact hs (by rw [Screen.displayId?, hidentity, Option.map_some])
      have hload := storage.load?_save identity.displayId id (.ofSettings s.settings s.modes) file
      rw [if_neg hne] at hload
      rw [saveAll, hidentity]
      rcases hsave : storage.save identity.displayId (.ofSettings s.settings s.modes) file with
        ⟨answer, storage', file'⟩
      rw [hsave] at hload
      cases answer with
      | error fault => simpa only [hsave] using hload
      | ok =>
        simp only [hsave]
        exact (ih hl).trans hload

/-- If all screens are saved, those behind some are saved after these. -/
theorem exists_saveAll_eq {before : List Screen}
    (h : (saveAll storage file printed (before ++ l)).result = .ok ()) :
    ∃ storage' file' printed',
      saveAll storage file printed (before ++ l) = saveAll storage' file' printed' l := by
  induction before generalizing storage file printed with
  | nil => exact ⟨storage, file, printed, rfl⟩
  | cons s before ih =>
    rw [List.cons_append, saveAll] at h ⊢
    cases hidentity : s.identity with
    | none =>
      simp only [hidentity] at h ⊢
      exact ih h
    | some identity =>
      simp only [hidentity] at h ⊢
      split at h
      · simp only [reduceCtorEq] at h
      · exact ih h

/-- The last screen of a display is the one whose options are remembered. -/
theorem load?_saveAll_cons {s : Screen} {identity : Identity}
    (hidentity : s.identity = some identity)
    (hl : ∀ t ∈ l, t.displayId? ≠ some identity.displayId)
    (h : (saveAll storage file printed (s :: l)).result = .ok ()) :
    (saveAll storage file printed (s :: l)).storage.load? identity.displayId =
      some (.ofSettings s.settings s.modes) := by
  have hload := storage.load?_save identity.displayId identity.displayId
    (.ofSettings s.settings s.modes) file
  rw [if_pos rfl] at hload
  rw [saveAll, hidentity] at h ⊢
  rcases hsave : storage.save identity.displayId (.ofSettings s.settings s.modes) file with
    ⟨answer, storage', file'⟩
  rw [hsave] at hload
  cases answer with
  | error fault => simp only [hsave, reduceCtorEq] at h
  | ok =>
    simp only [hsave]
    exact (load?_saveAll hl).trans hload

namespace Model

variable {m : Model}

/-- After all screens are saved, the options under a display id recall the settings of the last
screen with this id, and ids without a screen have the options they had. That names do not repeat
holds of every reachable model (`wellFormed_of_reachable`). -/
theorem recalls_of_save (hn : m.ids.Nodup) (hok : (m.save storage file).result = .ok ()) :
    (∀ before s after identity mode, m.screens = before ++ s :: after →
      s.identity = some identity → s.modes[s.modeIndex]? = some mode →
      (∀ t ∈ after, t.displayId? ≠ some identity.displayId) →
      ∃ options settings,
        (m.save storage file).storage.load? identity.displayId = some options ∧
        (m.screen? s.id).map Screen.settings = some settings ∧ options.Recalls settings mode) ∧
    ∀ id, (∀ s ∈ m.screens, s.displayId? ≠ some id) →
      (m.save storage file).storage.load? id = storage.load? id := by
  refine ⟨fun before s after identity mode hscreens hidentity hmode hafter => ?_,
    fun id hid => load?_saveAll hid⟩
  have hs : s ∈ m.screens := by
    rw [hscreens]
    exact List.mem_append_right before List.mem_cons_self
  rw [save, hscreens] at hok ⊢
  obtain ⟨storage', file', printed', hrest⟩ := exists_saveAll_eq hok
  rw [hrest] at hok ⊢
  refine ⟨.ofSettings s.settings s.modes, s.settings, load?_saveAll_cons hidentity hafter hok, ?_,
    Options.recalls_ofSettings hmode⟩
  rw [screen?_of_mem hn hs, Option.map_some]

/-- Two outputs show one display, the second in a mode that it lists twice: what is remembered of
the display are the settings of the second, and what is remembered of another display stays. -/
theorem recalls_of_save_twins :
    let first : Output := { Output.identified with scale := 2 }
    let second : Output :=
      { Output.identified with
        id := "DP-2"
        topLeft := ⟨1920, 0⟩
        modes := [⟨⟨1920, 1080⟩, 60000⟩, ⟨⟨1280, 720⟩, 60000⟩, ⟨⟨1280, 720⟩, 60000⟩]
        modeIndex := 2 }
    let m := (({} : Model).absorb ⟨[first, second]⟩).1
    let storage : Storage := ⟨"options", [("BOE-06AC-0", ⟨false, ⟨0, 0⟩, none, 1, .tv, .off⟩)]⟩
    (∃ options settings,
      (m.save storage .missing).storage.load? "???-0000-0" = some options ∧
      (m.screen? "DP-2").map Screen.settings = some settings ∧
      options.Recalls settings ⟨⟨1280, 720⟩, 60000⟩) ∧
    (m.save storage .missing).storage.load? "BOE-06AC-0" = storage.load? "BOE-06AC-0" := by
  intro first second m storage
  have hdisplay : (Screen.ofOutput second).displayId? = some "???-0000-0" := by decide +kernel
  obtain ⟨identity, hidentity, hid⟩ := Option.map_eq_some_iff.mp hdisplay
  have hok : (m.save storage .missing).result = .ok () := by decide +kernel
  obtain ⟨hrecalls, hkept⟩ := recalls_of_save (by decide +kernel : m.ids.Nodup) hok
  refine ⟨?_, hkept "BOE-06AC-0" (by decide +kernel)⟩
  rw [← hid]
  exact hrecalls [.ofOutput first] (.ofOutput second) [] identity ⟨⟨1280, 720⟩, 60000⟩
    (by decide +kernel) hidentity (by decide +kernel) (fun t ht => absurd ht List.not_mem_nil)

end Model

end Displays
