import MachineFacts.Proofs.Body

/-! Reading the list of imports back. Its items are told apart by the blanks behind them, and a
reference to a profile ends where its blank starts. -/

namespace MachineFacts

theorem Gap.last_append (t : Text) {g : Gap} (hg : g.1 ≠ []) :
    ∀ c ∈ (t ++ g.1).getLast?, isBlank c = true := by
  intro c hc
  cases hl : g.1.getLast? with
  | none => exact absurd (List.getLast?_eq_none_iff.mp hl) hg
  | some d =>
    rw [List.getLast?_append, hl, Option.some_or, Option.mem_some_iff] at hc
    exact hc ▸ g.2 d (List.mem_of_getLast? hl)

theorem endsName_append_gap (t : Text) {g : Gap} (hg : g.1 ≠ []) : endsName (t ++ g.1) = true := by
  cases hl : (t ++ g.1).getLast? with
  | none => simp [endsName, hl]
  | some c => simp [endsName, hl, isNameChar_of_isBlank (Gap.last_append t hg c hl)]

theorem not_dot_mem_of_profile {name : Text} (h : ∀ c ∈ name, isProfileChar c = true) (g : Gap) :
    '.' ∉ name ++ g.1 := by
  intro hmem
  rcases List.mem_append.mp hmem with hmem | hmem
  · have hdot := h '.' hmem
    revert hdot
    decide
  · exact Gap.not_mem g (by decide) hmem

theorem Query.passes_profile {q : Query} (hq : q.inBlocks = false) (hne : q ≠ .imports)
    {name : Text} (hname : ∀ c ∈ name, isProfileChar c = true) {g : Gap} (hg : g.1 ≠ []) :
    q.Passes (profilePath ++ name ++ g.1) := by
  -- All other names have a dot early on, and behind `profilePath` there is none.
  have hdot := not_dot_mem_of_profile hname g
  have hnone : ∀ lead ∈ ["boot".toList, filesystemsAttribute],
      occurs (lead ++ ['.']) (profilePath ++ name ++ g.1) = false := by
    intro lead hmem
    have hpath : ∀ lead ∈ ["boot".toList, filesystemsAttribute],
        occurs (lead ++ ['.']) profilePath = false := by decide
    rw [List.append_assoc, occurs_append_of_not_mem hdot, hpath lead hmem]
  have hleads : ∀ q : Query, q.inBlocks = false → q ≠ .imports →
      ∃ lead ∈ ["boot".toList, filesystemsAttribute], lead ++ ['.'] <+: q.needle := by decide
  obtain ⟨lead, hmem, hlead⟩ := hleads q hq hne
  exact Query.passes_of_not_occurs (endsName_append_gap _ hg)
    (occurs_eq_false_of_lead (hnone lead hmem) hlead)

theorem Query.passes_imports {q : Query} (hq : q.inBlocks = false) (hne : q ≠ .imports)
    {opening : Gap} {items : List (Import × Gap)} (hs : (Statement.imports opening items).WellFormed) :
    q.Passes (importsText opening items) := by
  refine (opening.passes q).append (passes_flatMap fun i hi => ?_)
  obtain ⟨hitem, hg⟩ := hs.complete i hi
  have hparts := hs.missed q hq fun h => hne h.symm
  obtain ⟨item, g⟩ := i
  cases item with
  | profile name => exact Query.passes_profile hq hne hitem.2 hg
  | path text =>
    refine ⟨endsName_append_gap _ hg, hparts _ ?_⟩
    exact List.mem_filterMap.mpr ⟨(.path text, g), hi, rfl⟩

theorem profileNames_eq (t : Text) :
    profileNames t =
      match behind profilePath t with
      | none => []
      | some rest =>
        (if rest.takeWhile isProfileChar = [] then [] else [rest.takeWhile isProfileChar]) ++
          profileNames (rest.dropWhile isProfileChar) := by
  rw [profileNames]
  cases behind profilePath t with
  | none => rfl
  | some rest =>
    dsimp only
    cases htake : rest.takeWhile isProfileChar <;> simp

theorem profileNames_append {x : Text} (hx : occurs profilePath x = false)
    (hlast : ∀ c ∈ x.getLast?, isBlank c = true) (y : Text) :
    profileNames (x ++ y) = profileNames y := by
  have hbehind : behind profilePath (x ++ y) = behind profilePath y := by
    refine behind_append_of_not_occurs hx (fun c hc hmem => ?_) y
    have hname : ∀ c ∈ profilePath.dropLast, isBlank c = false := by decide
    have hblank := hlast c hc
    rw [hname c hmem] at hblank
    cases hblank
  rw [profileNames_eq, hbehind, ← profileNames_eq]

theorem Gap.last_isBlank (g : Gap) : ∀ c ∈ g.1.getLast?, isBlank c = true :=
  fun c hc => g.2 c (List.mem_of_getLast? hc)

theorem Gap.not_occurs_profilePath (g : Gap) : occurs profilePath g.1 = false :=
  (show IsName profilePath by decide).not_occurs fun c hc => isNameChar_of_isBlank (g.2 c hc)

theorem isProfileChar_of_isBlank {c : Char} (h : isBlank c = true) : isProfileChar c = false := by
  have hname := isNameChar_of_isBlank h
  simp only [isNameChar, Bool.or_eq_false_iff] at hname
  simp [isProfileChar, hname]

theorem profileNames_reference {name : Text} (hne : name ≠ [])
    (hname : ∀ c ∈ name, isProfileChar c = true) {g : Gap} (hg : g.1 ≠ []) (y : Text) :
    profileNames (profilePath ++ name ++ g.1 ++ y) = name :: profileNames y := by
  obtain ⟨c, rest, hgap⟩ := List.exists_cons_of_ne_nil hg
  have hc : isProfileChar c = false := isProfileChar_of_isBlank (g.2 c (by simp [hgap]))
  have htake : (name ++ (g.1 ++ y)).takeWhile isProfileChar = name := by
    rw [List.takeWhile_append_of_pos hname, hgap]
    simp [hc]
  have hdrop : (name ++ (g.1 ++ y)).dropWhile isProfileChar = g.1 ++ y := by
    rw [List.dropWhile_append_of_pos hname, hgap]
    simp [hc]
  have hbehind : behind profilePath (profilePath ++ name ++ g.1 ++ y) =
      some (name ++ (g.1 ++ y)) := by
    rw [List.append_assoc, List.append_assoc]
    exact behind_self (name ++ (g.1 ++ y))
  rw [profileNames_eq, hbehind]
  simp only [htake, hdrop, if_neg hne]
  rw [profileNames_append g.not_occurs_profilePath g.last_isBlank, List.singleton_append]

theorem profileNames_imports {items : List (Import × Gap)}
    (h : ∀ i ∈ items, i.1.WellFormed ∧ i.2.1 ≠ []) (opening : Gap) :
    profileNames (importsText opening items) = items.filterMap fun i => i.1.profile? := by
  rw [importsText, profileNames_append opening.not_occurs_profilePath opening.last_isBlank]
  induction items with
  | nil => decide +kernel
  | cons i items ih =>
    have hrest := ih fun j hj => h j (List.mem_cons_of_mem i hj)
    obtain ⟨hitem, hg⟩ := h i List.mem_cons_self
    obtain ⟨item, g⟩ := i
    rw [List.flatMap_cons]
    cases item with
    | profile name =>
      have hread := profileNames_reference hitem.1 hitem.2 hg
        (items.flatMap fun i => i.1.text ++ i.2.1)
      rw [hrest] at hread
      exact hread
    | path text =>
      have hnone : occurs profilePath (text ++ g.1) = false := by
        have hdot : '.' ∉ g.1 := Gap.not_mem g (by decide)
        exact (@occurs_append_of_not_mem profilePath.dropLast g.1 '.' hdot text).trans hitem.1
      exact (profileNames_append hnone (Gap.last_append text hg) _).trans hrest

/-- The text may stand in a list that ends at the first `];`. -/
structure Listed (t : Text) : Prop where
  unended : occurs "];" t = false
  last : ∀ c ∈ t.getLast?, isBlank c = true

theorem Listed.append {x y : Text} (hx : Listed x) (hy : Listed y) : Listed (x ++ y) := by
  constructor
  · cases hl : x.getLast? with
    | none => rw [List.getLast?_eq_none_iff.mp hl, List.nil_append, hy.unended]
    | some c =>
      have hc : c ∉ "];".toList.dropLast := by
        intro hmem
        have hblank := hx.last c hl
        rw [show c = ']' by simpa using hmem] at hblank
        revert hblank
        decide
      rw [occurs_append_of_last hl hc, hx.unended, hy.unended]
      rfl
  · intro c hc
    cases hl : y.getLast? with
    | none =>
      rw [List.getLast?_eq_none_iff.mp hl, List.append_nil] at hc
      exact hx.last c hc
    | some d =>
      rw [List.getLast?_append, hl, Option.some_or] at hc
      exact hy.last c (hl.trans hc)

theorem Gap.listed (g : Gap) : Listed g.1 := by
  refine ⟨occurs_eq_false_iff.mpr fun hin => ?_, g.last_isBlank⟩
  exact Gap.not_mem g (show isBlank ';' = false by decide) (hin.subset (by decide))

theorem Import.listed {item : Import} (h : item.WellFormed) {g : Gap} (hg : g.1 ≠ []) :
    Listed (item.text ++ g.1) := by
  refine ⟨?_, Gap.last_append _ hg⟩
  have hend : ';' ∉ g.1 := Gap.not_mem g (by decide)
  rw [show "];".toList = [']'] ++ [';'] from rfl, occurs_append_of_not_mem hend]
  cases item with
  | profile name =>
    refine occurs_eq_false_iff.mpr fun hin => ?_
    have hmem : ';' ∈ profilePath ++ name := hin.subset (by simp)
    rcases List.mem_append.mp hmem with hmem | hmem
    · revert hmem
      decide
    · have hchar := h.2 ';' hmem
      revert hchar
      decide
  | path text => exact h.2

theorem listed_imports {items : List (Import × Gap)}
    (h : ∀ i ∈ items, i.1.WellFormed ∧ i.2.1 ≠ []) (opening : Gap) :
    Listed (importsText opening items) := by
  refine opening.listed.append ?_
  induction items with
  | nil => exact ⟨rfl, by simp⟩
  | cons i items ih =>
    have hrest := ih fun j hj => h j (List.mem_cons_of_mem i hj)
    obtain ⟨hitem, hg⟩ := h i List.mem_cons_self
    rw [List.flatMap_cons]
    exact (Import.listed hitem hg).append hrest

theorem listBlock_written {items : List (Import × Gap)}
    (h : ∀ i ∈ items, i.1.WellFormed ∧ i.2.1 ≠ []) (opening : Gap) (y : Text) :
    listBlock "imports" ("imports" ++ (" = [" ++ (importsText opening items ++ ("];" ++ y)))) =
      some (importsText opening items) := by
  refine readNamed_of_start (by decide) ?_
  have hlisted := listed_imports h opening
  have hassigned : assigned '[' (" = [" ++ (importsText opening items ++ ("];" ++ y))) =
      some (importsText opening items ++ ("];" ++ y)) := rfl
  have hlast : ∀ c ∈ (importsText opening items).getLast?, c ∉ "];".toList.dropLast := by
    intro c hc hmem
    have hblank := hlisted.last c hc
    rw [show c = ']' by simpa using hmem] at hblank
    revert hblank
    decide
  have hbehind : behind "];" (importsText opening items ++ ("];" ++ y)) = some y := by
    rw [behind_append_of_not_occurs hlisted.unended hlast, behind_self]
  have hfront : front (importsText opening items ++ ("];" ++ y)) 2 y =
      importsText opening items := front_append (importsText opening items) "];" y
  simp only [readList, hassigned, hbehind, hfront]

end MachineFacts
