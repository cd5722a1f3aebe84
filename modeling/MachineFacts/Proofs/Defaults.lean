import Mathlib
import MachineFacts.Batch
import MachineFacts.Tree
import MachineFacts.Proofs.Encoding

/-! Settings of a path that cannot be read. Where a document tells what is missing from what is
unreadable by the cause of the failed read, settings ask first whether the path leads anywhere, so
whatever keeps a path from being followed leaves the defaults. -/

namespace MachineFacts

def pathFailures : List ReadFailure :=
  [.notFound, .notADirectory, .nameTooLong, .tooManyLinks, .nulInPath]

theorem Tree.walk_error {tree : Tree} {links : Nat} {here : Location} {node : Node}
    {parts : List Bytes} {cause : ReadFailure}
    (h : tree.walk links here node parts = .error cause) : cause ∈ pathFailures := by
  fun_induction Tree.walk tree links here node parts
  case case1 => cases h
  case case2 | case5 | case6 | case7 =>
    cases h
    decide
  case case3 ih | case4 ih | case8 ih | case9 ih => exact ih h

theorem Tree.resolve_error {tree : Tree} {cwd : Location} {path : Path} {cause : ReadFailure}
    (h : tree.resolve cwd path = .error cause) : cause ∈ pathFailures := by
  unfold Tree.resolve at h
  split at h
  · cases h
    decide
  · split at h
    · cases h
      decide
    · split at h
      · cases h
        decide
      · exact Tree.walk_error h

section

variable {tree : Tree} {cwd : Location} {path : Path}

theorem Tree.readText_of_astray {cause : ReadFailure} (h : tree.resolve cwd path = .error cause) :
    (tree.files cwd).readText path = .error cause := by
  have hread : (tree.files cwd).read path = .error cause := by
    show tree.read cwd path = _
    rw [Tree.read, h]
  rw [Files.readText, hread]

/-- What a path leads to is a text, or it is a directory, or its bytes are no text. -/
theorem Tree.readText_of_reached {place : Location} {node : Node}
    (h : tree.resolve cwd path = .ok (place, node)) :
    (∃ t, (tree.files cwd).readText path = .ok t) ∨
      ∃ cause, (cause = .isADirectory ∨ cause = .notUtf8) ∧
        (tree.files cwd).readText path = .error cause := by
  have hread : (tree.files cwd).read path = tree.read cwd path := rfl
  rw [Files.readText, hread, Tree.read, h]
  cases node with
  | file content =>
    dsimp only
    cases String.fromUTF8? content with
    | none => exact .inr ⟨_, .inr rfl, rfl⟩
    | some s => exact .inl ⟨s.toList, rfl⟩
  | directory => exact .inr ⟨_, .inl rfl, rfl⟩
  | link target => exact .inr ⟨_, .inl rfl, rfl⟩

theorem loadFrom_of_astray {cause : ReadFailure} (h : tree.resolve cwd path = .error cause) :
    Settings.loadFrom (tree.files cwd) path = .ok .default := by
  have hnot : (tree.files cwd).isPresent path = false := by
    show (tree.resolve cwd path).toBool = false
    rw [h]
    rfl
  simp [Settings.loadFrom, hnot]

theorem loadFrom_of_reached {r : Location × Node} (h : tree.resolve cwd path = .ok r) :
    Settings.loadFrom (tree.files cwd) path =
      match (tree.files cwd).readText path with
      | .error cause => .fail (.settings (.unreadable path.shown cause))
      | .ok t =>
        match Settings.ofText t with
        | .error message => .fail (.settings (.invalid path.shown message))
        | .ok s => ⟨[.settingsLoaded path.shown], .ok s⟩ := by
  have hpresent : (tree.files cwd).isPresent path = true := by
    show (tree.resolve cwd path).toBool = true
    rw [h]
    rfl
  exact if_pos hpresent

end

/-- How settings fare on the ways on which reading their path can end. -/
inductive SettingsRead (files : Files) (path : Path) : Prop where
  | astray {cause : ReadFailure} : cause ∈ pathFailures → files.readText path = .error cause →
      Settings.loadFrom files path = .ok .default → SettingsRead files path
  | unreadable {cause : ReadFailure} : cause = .isADirectory ∨ cause = .notUtf8 →
      files.readText path = .error cause →
      Settings.loadFrom files path = .fail (.settings (.unreadable path.shown cause)) →
      SettingsRead files path
  | invalid {t message : Text} : files.readText path = .ok t →
      Settings.loadFrom files path = .fail (.settings (.invalid path.shown message)) →
      SettingsRead files path
  | loaded {t : Text} {s : Settings} : files.readText path = .ok t →
      Settings.loadFrom files path = ⟨[.settingsLoaded path.shown], .ok s⟩ → SettingsRead files path

theorem Tree.settingsRead (tree : Tree) (cwd : Location) (path : Path) :
    SettingsRead (tree.files cwd) path := by
  cases hresolve : tree.resolve cwd path with
  | error cause =>
    exact .astray (Tree.resolve_error hresolve) (Tree.readText_of_astray hresolve)
      (loadFrom_of_astray hresolve)
  | ok r =>
    have hload := loadFrom_of_reached hresolve
    rcases Tree.readText_of_reached hresolve with ⟨t, hread⟩ | ⟨cause, hcause, hread⟩
    · rw [hread] at hload
      cases htext : Settings.ofText t with
      | error message => exact .invalid hread (by simpa [htext] using hload)
      | ok s => exact .loaded hread (by simpa [htext] using hload)
    · rw [hread] at hload
      exact .unreadable hcause hread hload

theorem not_mem_pathFailures {cause : ReadFailure} (h : cause = .isADirectory ∨ cause = .notUtf8) :
    cause ∉ pathFailures := by
  rcases h with rfl | rfl <;> decide

theorem loadDocument_eq_notFound_iff {files : Files} {path : Path} :
    loadDocument files path = .error (.notFound path.shown) ↔
      files.readText path = .error .notFound := by
  unfold loadDocument
  cases files.readText path with
  | ok t => simp
  | error cause => by_cases h : cause = .notFound <;> simp [h]

/-- The defaults stand in, without an event, exactly where the path cannot be followed, whatever
the reason; a document is missing only where the reason is that nothing is there. What is there
and cannot be read, a directory or bytes that are no text, is an error of the settings. -/
theorem loadFrom_eq_default_iff (tree : Tree) (cwd : Location) (path : Path) :
    let files := tree.files cwd
    (Settings.loadFrom files path = .ok .default ↔
      ∃ cause ∈ pathFailures, files.readText path = .error cause) ∧
    (loadDocument files path = .error (.notFound path.shown) ↔
      files.readText path = .error .notFound) ∧
    (∀ cause,
      (Settings.loadFrom files path).result = .error (.settings (.unreadable path.shown cause)) ↔
        files.readText path = .error cause ∧ cause ∉ pathFailures) ∧
    ∀ cause, files.readText path = .error cause →
      cause ∈ pathFailures ∨ cause = .isADirectory ∨ cause = .notUtf8 := by
  intro files
  refine and_left_comm.mp ⟨loadDocument_eq_notFound_iff, ?_⟩
  cases tree.settingsRead cwd path with
  | astray hfound hread hload =>
    rw [hload, hread]
    refine ⟨by simpa using hfound, fun cause => ?_, fun cause hcause => ?_⟩
    · constructor
      · rintro ⟨⟩
      · rintro ⟨⟨rfl⟩, hnot⟩
        exact absurd hfound hnot
    · cases hcause
      exact .inl hfound
  | unreadable hfound hread hload =>
    have hnot := not_mem_pathFailures hfound
    rw [hload, hread]
    refine ⟨by simpa [Run.ok, Run.fail] using hnot, fun cause => ?_, fun cause hcause => ?_⟩
    · constructor
      · rintro ⟨⟩
        exact ⟨rfl, hnot⟩
      · rintro ⟨⟨rfl⟩, -⟩
        rfl
    · cases hcause
      exact .inr hfound
  | invalid hread hload => simp [files, hload, hread, Run.ok, Run.fail]
  | loaded hread hload => simp [files, hload, hread, Run.ok]

def selfLinked : Tree := ⟨[([bytes settingsFile], .link (bytes settingsFile))], by decide⟩

/-- The settings of a link to itself are the defaults, though it is there and cannot be read. -/
theorem selfLinked_settings_are_defaults :
    let files := selfLinked.files []
    (∃ cause, files.readText (bytes settingsFile) = .error cause ∧ cause ≠ .notFound) ∧
      Settings.loadFrom files (bytes settingsFile) = .ok .default ∧
      loadDocument files (bytes settingsFile) ≠ .error (.notFound settingsFile) := by
  intro files
  have hread : files.readText (bytes settingsFile) = .error .tooManyLinks := by cbv
  have hload : Settings.loadFrom files (bytes settingsFile) = .ok .default := by cbv
  have hmissing := @loadDocument_eq_notFound_iff files (bytes settingsFile)
  rw [Path.shown_bytes] at hmissing
  refine ⟨⟨.tooManyLinks, hread, by decide⟩, hload, ?_⟩
  rw [Ne, hmissing, hread]
  decide

end MachineFacts
