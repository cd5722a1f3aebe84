import MachineFacts.Block
import MachineFacts.Field
import MachineFacts.Proofs.Standing

/-! Reading two texts that are joined behind a character that continues no name. What is found
in the first one does not depend on the second, and nothing is found across the seam. -/

namespace MachineFacts

/-- Only the last character may be something else than a name character. -/
def NameLike (name : Text) : Prop := name ≠ [] ∧ ∀ c ∈ name.dropLast, isNameChar c = true

instance (name : Text) : Decidable (NameLike name) := inferInstanceAs (Decidable (_ ∧ _))

theorem IsName.nameLike {name : Text} (h : IsName name) : NameLike name :=
  ⟨h.1, fun c hc => h.2 c (List.dropLast_subset _ hc)⟩

theorem strip_append_of_last {lead x : Text} {c : Char} (hx : x.getLast? = some c)
    (hc : c ∉ lead.dropLast) (y : Text) : strip lead (x ++ y) = (strip lead x).map (· ++ y) := by
  induction lead generalizing x with
  | nil => simp [strip]
  | cons a lead ih =>
    cases x with
    | nil => simp at hx
    | cons d x =>
      by_cases had : a = d
      · subst had
        cases x with
        | nil =>
          have hac : a = c := by simpa using hx
          subst hac
          cases lead with
          | nil => simp [strip]
          | cons b lead => simp at hc
        | cons e x =>
          have hl : c ∉ lead.dropLast := fun h => hc (by
            cases lead with
            | nil => simp at h
            | cons b lead => exact List.mem_cons_of_mem _ h)
          have hi := ih (by simpa using hx) hl
          simpa only [strip, List.cons_append, if_true] using hi
      · simp [strip, had]

theorem standings_nil {name : Text} (hn : name ≠ []) (fresh : Bool) :
    standings name fresh [] = [] := by
  cases name with
  | nil => exact absurd rfl hn
  | cons a name => cases fresh <;> rfl

theorem standings_append_of_last {name x : Text} {c : Char} (hn : NameLike name)
    (hx : x.getLast? = some c) (hc : isNameChar c = false) (fresh : Bool) (y : Text) :
    standings name fresh (x ++ y) =
      (standings name fresh x).map (· ++ y) ++ standings name true y := by
  have hlead : c ∉ name.dropLast := fun h => by simp [hn.2 c h] at hc
  induction x generalizing fresh with
  | nil => simp at hx
  | cons d x ih =>
    have hs : strip name (d :: (x ++ y)) = (strip name (d :: x)).map (· ++ y) :=
      strip_append_of_last hx hlead y
    have hrest : standings name (!isNameChar d) (x ++ y) =
        (standings name (!isNameChar d) x).map (· ++ y) ++ standings name true y := by
      cases x with
      | nil =>
        have hd : d = c := by simpa using hx
        simp [standings_nil hn.1, hd, hc]
      | cons e x => exact ih (by simpa using hx) _
    simp only [List.cons_append, standings, hs, hrest]
    cases fresh <;> cases strip name (d :: x) <;> simp

theorem standings_append {name x : Text} (hn : NameLike name) (hx : endsName x = true)
    (y : Text) :
    standings name true (x ++ y) =
      (standings name true x).map (· ++ y) ++ standings name true y := by
  cases hl : x.getLast? with
  | none => simp [List.getLast?_eq_none_iff.mp hl, standings_nil hn.1]
  | some c => exact standings_append_of_last hn hl (by simpa [endsName, hl] using hx) true y

theorem strip_append_cons {c : Char} {lead : Text} (hc : c ∉ lead) (x y : Text) :
    strip lead (x ++ c :: y) = (strip lead x).map (· ++ c :: y) := by
  induction lead generalizing x with
  | nil => rfl
  | cons a lead ih =>
    have ha : a ≠ c := fun h => hc (h ▸ List.mem_cons_self)
    cases x with
    | nil => simp [strip, ha]
    | cons d x =>
      have hrest := ih (fun h => hc (List.mem_cons_of_mem a h)) x
      by_cases had : a = d
      · simpa [strip, had] using hrest
      · simp [strip, had]

/-- No name continues across a character that is not part of one. -/
theorem standings_append_cons {name : Text} {c : Char} (hn : IsName name)
    (hc : isNameChar c = false) (fresh : Bool) (x y : Text) :
    standings name fresh (x ++ c :: y) =
      (standings name fresh x).map (· ++ c :: y) ++ standings name true y := by
  have hmem : c ∉ name := fun h => by simp [hn.2 c h] at hc
  induction x generalizing fresh with
  | nil =>
    have hstrip : strip name (c :: y) = none := by
      have happ := strip_append_cons hmem [] y
      obtain ⟨a, more, rfl, -⟩ := hn.startsNarrow
      simpa [strip] using happ
    rw [standings_nil hn.1, List.nil_append, standings, hstrip, hc]
    cases fresh <;> rfl
  | cons d x ih =>
    have hstrip : strip name (d :: (x ++ c :: y)) = (strip name (d :: x)).map (· ++ c :: y) :=
      strip_append_cons hmem (d :: x) y
    simp only [List.cons_append, standings, hstrip, ih]
    cases fresh <;> cases strip name (d :: x) <;> simp

theorem findName_append {name x : Text} (hn : NameLike name) (ha : StartsNarrow name)
    (hx : endsName x = true) (y : Text) :
    findName name true (x ++ y) =
      ((findName name true x).map (· ++ y)).or (findName name true y) := by
  simp only [findName_eq_head? ha, standings_append hn hx, List.head?_append, List.head?_map]

theorem mem_standings {name t rest : Text} {fresh : Bool} (h : rest ∈ standings name fresh t) :
    ∃ before, t = before ++ (name ++ rest) := by
  induction t generalizing fresh with
  | nil =>
    have hs : strip name [] = some rest := by
      cases fresh <;> simp [standings] at h
      exact h
    exact ⟨[], (strip_eq_some_iff.mp hs).trans rfl⟩
  | cons c t ih =>
    rcases List.mem_append.mp h with h | h
    · have hs : strip name (c :: t) = some rest := by
        cases fresh <;> simp at h
        exact h
      exact ⟨[], (strip_eq_some_iff.mp hs).trans rfl⟩
    · obtain ⟨before, rfl⟩ := ih h
      exact ⟨c :: before, rfl⟩

/-- The text ends in a character that no lookup reads across. -/
def Sealed (t : Text) : Prop :=
  ∀ c ∈ t.getLast?, isNameChar c = false ∧ isBlank c = false ∧ c ≠ '='

instance (t : Text) : Decidable (Sealed t) :=
  match h : t.getLast? with
  | none => isTrue (by simp [Sealed, h])
  | some c =>
    decidable_of_iff (isNameChar c = false ∧ isBlank c = false ∧ c ≠ '=') (by simp [Sealed, h])

theorem Sealed.endsName {t : Text} (h : Sealed t) : endsName t = true := by
  cases hl : t.getLast? with
  | none => simp [MachineFacts.endsName, hl]
  | some c => simp [MachineFacts.endsName, hl, (h c hl).1]

theorem Sealed.of_append {a b : Text} (h : Sealed (a ++ b)) : Sealed b :=
  fun c hc => h c (by simp [List.getLast?_append, Option.mem_def.mp hc])

theorem Sealed.append {b : Text} (h : Sealed b) (hb : b ≠ []) (a : Text) : Sealed (a ++ b) := by
  intro c hc
  cases hl : b.getLast? with
  | none => exact absurd (List.getLast?_eq_none_iff.mp hl) hb
  | some d => exact h c (by simpa [List.getLast?_append, hl] using hc)

theorem ne_nil_of_mem_standings {name t rest : Text} {fresh : Bool} (hn : IsName name)
    (ht : Sealed t) (h : rest ∈ standings name fresh t) : rest ≠ [] := by
  rintro rfl
  obtain ⟨before, rfl⟩ := mem_standings h
  have hs := ht.of_append
  rw [List.append_nil] at hs
  have he := hs.endsName
  rw [endsName_of_isName hn] at he
  cases he

theorem behind_of_strip_append {needle x rest : Text} (h : behind needle x = some rest)
    {y r : Text} (hs : strip needle (x ++ y) = some r) : strip needle x ≠ none := by
  have hlen := behind_length h
  obtain ⟨a, ha, -⟩ | ⟨a, ha, -⟩ := List.append_eq_append_iff.mp (strip_eq_some_iff.mp hs)
  · have hnil : a = [] := by
      have := congrArg List.length ha
      rw [List.length_append] at this
      exact List.length_eq_zero_iff.mp (by omega)
    rw [strip_eq_some_iff.mpr (show x = needle ++ [] by simp [ha, hnil])]
    simp
  · rw [strip_eq_some_iff.mpr ha]
    simp

theorem behind_append_of_some {needle x rest : Text} (h : behind needle x = some rest)
    (y : Text) : behind needle (x ++ y) = some (rest ++ y) := by
  induction x with
  | nil =>
    have hn := strip_eq_some_iff.mp h
    obtain ⟨rfl, rfl⟩ := List.append_eq_nil_iff.mp hn.symm
    cases y <;> simp [behind, strip]
  | cons c x ih =>
    cases hs : strip needle (c :: x) with
    | some r =>
      have hr : r = rest := by simpa [behind, hs] using h
      have hsy : strip needle (c :: (x ++ y)) = some (r ++ y) :=
        strip_eq_some_iff.mpr (by simp [← List.append_assoc, ← strip_eq_some_iff.mp hs])
      simp [behind, hsy, hr]
    | none =>
      have hsy : strip needle (c :: (x ++ y)) = none := by
        cases he : strip needle (c :: (x ++ y)) with
        | none => rfl
        | some r => exact absurd hs (behind_of_strip_append h he)
      simpa [behind, hsy] using ih (by simpa [behind, hs] using h)

end MachineFacts
