import MachineFacts.Proofs.Assignment
import MachineFacts.Proofs.Closing

/-! Blocks and lists assigned to a name, by the shape they have in the text. A lookup comes to the
inner text of the leftmost one that is complete, and nothing in front of it gets in the way. -/

namespace MachineFacts

/-- A block is assigned at the start of the text, with blanks around the `=`. -/
def AssignsBlock (t inner : Text) : Prop :=
  Balanced inner ∧
    ∃ (a b : Gap) (rest : Text), t = a.1 ++ '=' :: (b.1 ++ '{' :: (inner ++ '}' :: rest))

/-- A list that ends at the first `];` is assigned at the start of the text. -/
def AssignsList (t inner : Text) : Prop :=
  ¬ "];".toList <:+: inner ∧
    ∃ (a b : Gap) (rest : Text), t = a.1 ++ '=' :: (b.1 ++ '[' :: (inner ++ ("];" ++ rest)))

theorem readBlock_eq_found_iff {t inner : Text} :
    readBlock t = .found inner ↔ AssignsBlock t inner := by
  constructor
  · intro h
    unfold readBlock at h
    split at h
    · cases h
    · next body ha =>
      obtain ⟨a, b, rfl⟩ := assigned_gaps ha
      split at h
      · cases h
      · next inside rest hc =>
        cases h
        obtain ⟨hbalanced, rfl⟩ := closeBlock_eq_some_iff.mp hc
        exact ⟨hbalanced, a, b, rest, rfl⟩
  · rintro ⟨hbalanced, a, b, rest, rfl⟩
    have hbrace : isBlank '{' = false := by decide
    simp only [readBlock, assigned_of_gaps hbrace, closeBlock_balanced hbalanced]

theorem behind_terminator_iff {items rest : Text} :
    behind "];" items = some rest ↔
      ∃ inner, items = inner ++ ("];" ++ rest) ∧ ¬ "];".toList <:+: inner :=
  Borderless.behind_eq_some_iff (by decide) (by decide)

theorem readList_eq_found_iff {t inner : Text} :
    readList t = .found inner ↔ AssignsList t inner := by
  have hfront : ∀ inner rest : Text, front (inner ++ ("];" ++ rest)) 2 rest = inner :=
    fun inner rest => front_append inner "];" rest
  constructor
  · intro h
    unfold readList at h
    split at h
    · cases h
    · next items ha =>
      obtain ⟨a, b, rfl⟩ := assigned_gaps ha
      split at h
      · cases h
      · next rest hb =>
        obtain ⟨inside, rfl, hnone⟩ := behind_terminator_iff.mp hb
        rw [hfront] at h
        cases h
        exact ⟨hnone, a, b, rest, rfl⟩
  · rintro ⟨hnone, a, b, rest, rfl⟩
    have hsquare : isBlank '[' = false := by decide
    have hbehind : behind "];" (inner ++ ("];" ++ rest)) = some rest :=
      behind_terminator_iff.mpr ⟨inner, rfl, hnone⟩
    simp only [readList, assigned_of_gaps hsquare, hbehind, hfront]

theorem readsShape_of_found {read : Text → Reading Text} {shape : Text → Text → Prop}
    (hfound : ∀ {t inner}, read t = .found inner ↔ shape t inner) (hends : ∀ t, read t ≠ .endless) :
    ReadsShape read shape .found := by
  intro t r
  constructor
  · rintro ⟨hread, hpresent⟩
    cases r with
    | absent => exact absurd rfl hpresent
    | found inner => exact ⟨inner, hfound.mp hread, rfl⟩
    | endless => exact absurd hread (hends t)
  · rintro ⟨inner, hshape, rfl⟩
    exact ⟨hfound.mpr hshape, by simp⟩

theorem readBlock_ne_endless (t : Text) : readBlock t ≠ .endless := by
  unfold readBlock
  split
  · simp
  · split <;> simp

theorem readNamed_leftmost {name : Text} {read : Text → Reading Text} {shape : Text → Text → Prop}
    (hfound : ∀ {t inner}, read t = .found inner ↔ shape t inner) (hends : ∀ t, read t ≠ .endless)
    (hn : IsName name) (t : Text) :
    (∀ inner, readNamed name read true t = some inner ↔ Leftmost (NamedAt name shape t) inner) ∧
    (readNamed name read true t = none ↔ ∀ before inner, ¬ NamedAt name shape t before inner) := by
  have hr := readsShape_of_found hfound hends
  constructor
  · intro inner
    rw [hr.readNamed_eq_some_iff hn]
    constructor
    · rintro ⟨b, hleft, hb⟩
      cases hb
      exact hleft
    · exact fun hleft => ⟨inner, hleft, rfl⟩
  · rw [hr.readNamed_eq_none_iff hn]
    simp

/-- A block comes from the leftmost place where the name stands on a boundary and a block that
closes is assigned to it, a list from the leftmost place with a list that ends. They are missing
only where there is no such place. -/
theorem enclosed_leftmost {name : Text} (hn : IsName name) (t : Text) :
    (∀ inner, findBlock name t = some inner ↔ Leftmost (NamedAt name AssignsBlock t) inner) ∧
    (findBlock name t = none ↔ ∀ before inner, ¬ NamedAt name AssignsBlock t before inner) ∧
    (∀ inner, listBlock name t = some inner ↔ Leftmost (NamedAt name AssignsList t) inner) ∧
    (listBlock name t = none ↔ ∀ before inner, ¬ NamedAt name AssignsList t before inner) := by
  obtain ⟨hblock, hnoBlock⟩ :=
    readNamed_leftmost readBlock_eq_found_iff readBlock_ne_endless hn t
  obtain ⟨hlist, hnoList⟩ := readNamed_leftmost readList_eq_found_iff readList_ne_endless hn t
  exact ⟨hblock, hnoBlock, hlist, hnoList⟩

/-- A name that continues another, a string, a block that never closes with one in it that does, and
a list with a bracket before its end. -/
def hardwareText : Text :=
  "my-hardware = \x7b 1 \x7d; hardware = \"\x7b\"; hardware = \x7b hardware\t= \x7b \"\x7d\" \x7d; ".toList ++
    "hardware = [ [ a ] ]]; hardware = [ b ]; hardware = \x7b 2 \x7d".toList

theorem enclosed_leftmost_hardware :
    IsName "hardware" ∧
    Leftmost (NamedAt "hardware" AssignsBlock hardwareText) " \"\x7d\" " ∧
    Leftmost (NamedAt "hardware" AssignsList hardwareText) " [ a ] ]" := by
  have hn : IsName "hardware" := by decide
  obtain ⟨hblock, -, hlist, -⟩ := enclosed_leftmost hn hardwareText
  exact ⟨hn, (hblock _).mp (by decide +kernel), (hlist _).mp (by decide +kernel)⟩

end MachineFacts
