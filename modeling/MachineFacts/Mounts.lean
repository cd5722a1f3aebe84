import MachineFacts.Field

/-! Filesystem entries by mount point, kept in ascending order of the mount points. Texts are
ordered by their characters, which is also the order of their UTF-8 bytes. -/

namespace MachineFacts

structure Entry where
  device : Option Text
  fsType : Option Text
  options : Option (List Text)
  deriving Repr, DecidableEq

/-- Each field is looked up on its own and none is required. -/
def Entry.ofBlock (block : Text) : Entry where
  device := stringField "device" block
  fsType := stringField "fsType" block
  options := stringListField "options" block

theorem text_lt_of_not_lt {a b : Text} (hne : a ≠ b) (h : ¬ a < b) : b < a := by
  by_cases hb : b < a
  · exact hb
  · exact absurd (List.le_antisymm (List.not_lt.mp hb) (List.not_lt.mp h)) hne

/-- Puts a pair in front of the first larger key, or in the place of its own key. -/
def insertEntry (mount : Text) (entry : Entry) : List (Text × Entry) → List (Text × Entry)
  | [] => [(mount, entry)]
  | e :: es =>
    if mount = e.1 then (mount, entry) :: es
    else if mount < e.1 then (mount, entry) :: e :: es
    else e :: insertEntry mount entry es

def Ascending (es : List (Text × Entry)) : Prop := es.Pairwise fun a b => a.1 < b.1

theorem mem_insertEntry {mount : Text} {entry : Entry} {es : List (Text × Entry)}
    {p : Text × Entry} (h : p ∈ insertEntry mount entry es) : p = (mount, entry) ∨ p ∈ es := by
  induction es with
  | nil => exact .inl (by simpa [insertEntry] using h)
  | cons e es ih =>
    simp only [insertEntry] at h
    split at h
    · rcases List.mem_cons.mp h with h | h
      · exact .inl h
      · exact .inr (List.mem_cons_of_mem _ h)
    · split at h
      · rcases List.mem_cons.mp h with h | h
        · exact .inl h
        · exact .inr h
      · rcases List.mem_cons.mp h with h | h
        · exact .inr (h ▸ List.mem_cons_self)
        · rcases ih h with h | h
          · exact .inl h
          · exact .inr (List.mem_cons_of_mem _ h)

theorem Ascending.insertEntry {es : List (Text × Entry)} (h : Ascending es) (mount : Text)
    (entry : Entry) : Ascending (insertEntry mount entry es) := by
  induction es with
  | nil => exact List.pairwise_singleton _ _
  | cons e es ih =>
    have he := List.pairwise_cons.mp h
    simp only [MachineFacts.insertEntry]
    split
    · next hm => exact List.pairwise_cons.mpr ⟨fun p hp => hm ▸ he.1 p hp, he.2⟩
    · next hm =>
      split
      · next hlt =>
        refine List.pairwise_cons.mpr ⟨fun p hp => ?_, h⟩
        rcases List.mem_cons.mp hp with hp | hp
        · exact hp ▸ hlt
        · exact List.lt_trans hlt (he.1 p hp)
      · next hlt =>
        refine List.pairwise_cons.mpr ⟨fun p hp => ?_, ih he.2⟩
        rcases mem_insertEntry hp with hp | hp
        · exact hp ▸ text_lt_of_not_lt hm hlt
        · exact he.1 p hp

structure Mounts where
  entries : List (Text × Entry)
  ascending : Ascending entries
  deriving Repr, DecidableEq

def Mounts.empty : Mounts := ⟨[], List.Pairwise.nil⟩

def Mounts.get? (m : Mounts) (mount : Text) : Option Entry := m.entries.lookup mount

/-- The last entry put at a mount point is the one kept. -/
def Mounts.put (m : Mounts) (mount : Text) (entry : Entry) : Mounts :=
  ⟨insertEntry mount entry m.entries, m.ascending.insertEntry mount entry⟩

def Mounts.ofList (es : List (Text × Entry)) : Mounts :=
  es.foldl (fun m e => m.put e.1 e.2) .empty

end MachineFacts
