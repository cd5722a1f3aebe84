import MachineFacts.Mounts
import MachineFacts.Proofs.Balance
import MachineFacts.Proofs.Listing

/-! Nested sets inside the block of a filesystem. The lookups of fields know no nesting, so a set
counts for what it gives itself, as long as no value is in the middle of being read at one of its
braces. -/

namespace MachineFacts

def nestedSet (b : Text) : Text := '{' :: (b ++ ['}'])

section

variable {α : Type} {name : Text} {read : Text → Reading α}

/-- The field is given by `p`, or none of its values is in the middle of being read at either
brace of a set `b` behind `p`. -/
def Apart (name : Text) (read : Text → Reading α) (p b : Text) : Prop :=
  (readNamed name read true p).isSome = true ∨ Finished name read p ∧ Finished name read b

theorem Apart.empty {p b : Text} (hn : IsName name) (h : Apart name read p b) :
    Apart name read p [] := by
  rcases h with hp | ⟨hp, -⟩
  · exact .inl hp
  · exact .inr ⟨hp, finished_nil hn⟩

theorem readNamed_nested (hn : IsName name) (hopen : Stops read '{') (hclose : Stops read '}')
    {p b : Text} (h : Apart name read p b) (s : Text) :
    readNamed name read true (p ++ (nestedSet b ++ s)) =
      (readNamed name read true p).or
        ((readNamed name read true b).or (readNamed name read true s)) := by
  have hshape : p ++ (nestedSet b ++ s) = p ++ '{' :: (b ++ '}' :: s) := by simp [nestedSet]
  rw [hshape]
  rcases h with hp | ⟨hp, hb⟩
  · rw [readNamed_append_cons hn (by decide) hopen (finished_of_isSome hn hp)]
    obtain ⟨value, hvalue⟩ := Option.isSome_iff_exists.mp hp
    rw [hvalue, Option.some_or, Option.some_or]
  · rw [readNamed_append_cons hn (by decide) hopen hp,
      readNamed_append_cons hn (by decide) hclose hb]

def Adds (name : Text) (read : Text → Reading α) (p b : Text) : Prop :=
  ∀ s, readNamed name read true (p ++ (nestedSet b ++ s)) =
    (readNamed name read true p).or
      ((readNamed name read true b).or (readNamed name read true (p ++ (nestedSet [] ++ s))))

theorem Apart.adds (hn : IsName name) (hopen : Stops read '{') (hclose : Stops read '}')
    {p b : Text} (h : Apart name read p b) : Adds name read p b := by
  intro s
  rw [readNamed_nested hn hopen hclose h, readNamed_nested hn hopen hclose (h.empty hn),
    readNamed_nil hn, Option.none_or]
  cases readNamed name read true p <;> simp

theorem Apart.readNamed_empty (hn : IsName name) (hopen : Stops read '{') (hclose : Stops read '}')
    {p b : Text} (h : Apart name read p b) :
    readNamed name read true (p ++ nestedSet []) = readNamed name read true p := by
  have hempty := readNamed_nested hn hopen hclose (h.empty hn) []
  rwa [List.append_nil, readNamed_nil hn, Option.none_or, Option.or_none] at hempty

end

theorem ListOpen.endless {name t : Text} (h : ListOpen name t) :
    Reading.first readStrings (standings name true t) = .endless := by
  obtain ⟨before, u, after, hsplit, hnone, items, ha, hl, -⟩ := h
  have habsent : ∀ v ∈ before, readStrings v = .absent := fun v hv => by
    rw [readStrings, hnone v hv]
  have hu : readStrings u = .endless := by
    rw [readStrings, Option.mem_def.mp ha]
    simp [hl]
  rw [hsplit, Reading.first_of_split habsent (by simp [hu]), hu]

theorem ListOpen.stringListField_eq_none {name t : Text} (hn : IsName name)
    (h : ListOpen name t) : stringListField name t = none := by
  rw [stringListField, readNamed_eq_first hn, h.endless]
  rfl

theorem stringListField_eq_none_of_not_mem {name t : Text} (hn : IsName name) (ht : ']' ∉ t) :
    stringListField name t = none := by
  rw [stringListField, readNamed_eq_first hn]
  cases hf : Reading.first readStrings (standings name true t) with
  | absent => rfl
  | endless => rfl
  | found value =>
    obtain ⟨before, u, after, hsplit, hu, -⟩ := Reading.first_split (by rw [hf]; simp)
    have hmem : u ∈ standings name true t := by simp [hsplit]
    obtain ⟨lead, rfl⟩ := mem_standings hmem
    rw [hf, readStrings] at hu
    cases ha : assigned '[' u with
    | none => simp [ha] at hu
    | some items =>
      cases hl : listEnd false items with
      | none => simp [ha, hl] at hu
      | some rest =>
        obtain ⟨gap, rfl⟩ := assigned_split ha
        obtain ⟨inner, rfl, -, -⟩ := listEnd_split hl
        exact absurd (by simp) ht

/-- The list of options is open, between two strings, at the opening brace of a set `b` behind
`p`, which has neither quotes nor brackets in it. -/
structure InsideOptions (p b : Text) : Prop where
  isOpen : ListOpen "options" (p ++ ['{'])
  quotes : '"' ∉ b
  brackets : ']' ∉ b

theorem endsName_brace (p : Text) : endsName (p ++ ['{']) = true := by
  rw [endsName, List.getLast?_concat]
  rfl

theorem InsideOptions.before {p b : Text} (h : InsideOptions p b) :
    stringListField "options" p = none := by
  have hn : IsName "options" := by decide
  by_cases hp : Finished "options" readStrings p
  · have hbrace := readNamed_append_cons hn (c := '{') (by decide)
      (stops_readStrings (by decide) (by decide) (by decide)) hp []
    have hnone : readNamed "options" readStrings true (p ++ ['{']) = none :=
      h.isOpen.stringListField_eq_none hn
    rw [hnone, readNamed_nil hn, Option.or_none] at hbrace
    exact hbrace.symm
  · rw [stringListField, readNamed_eq_first hn, Decidable.not_not.mp hp]
    rfl

theorem InsideOptions.adds {p b : Text} (h : InsideOptions p b) :
    Adds "options" readStrings p b := by
  have hn : IsName "options" := by decide
  intro s
  have hinsert := stringListField_insert hn (endsName_brace p) h.isOpen
    (.of_not_mem h.quotes h.brackets) ('}' :: s)
  have hp : readNamed "options" readStrings true p = none := h.before
  have hb : readNamed "options" readStrings true b = none :=
    stringListField_eq_none_of_not_mem hn h.brackets
  rw [hp, hb, Option.none_or, Option.none_or]
  simpa [nestedSet, stringListField] using hinsert

theorem InsideOptions.readNamed_empty {p b : Text} (h : InsideOptions p b) :
    readNamed "options" readStrings true (p ++ nestedSet []) =
      readNamed "options" readStrings true p := by
  have hn : IsName "options" := by decide
  have hbrace : AddsNoString ['}'] := .of_not_mem (by decide) (by decide)
  have hinsert := stringListField_insert hn (endsName_brace p) h.isOpen hbrace []
  have hp : readNamed "options" readStrings true p = none := h.before
  have hopened : readNamed "options" readStrings true (p ++ ['{']) = none :=
    h.isOpen.stringListField_eq_none hn
  rw [hp, ← hopened]
  simpa [nestedSet, stringListField] using hinsert

/-- No lookup of a field is in the middle of a value at either brace of the set `b` behind `p`,
other than the options between two of their strings. -/
structure SetApart (p b : Text) : Prop where
  device : Apart "device" readString p b
  fsType : Apart "fsType" readString p b
  options : Apart "options" readStrings p b ∨ InsideOptions p b

def Entry.or (a b : Entry) : Entry where
  device := a.device.or b.device
  fsType := a.fsType.or b.fsType
  options := a.options.or b.options

theorem Entry.or_assoc (a b c : Entry) : (a.or b).or c = a.or (b.or c) := by
  simp [Entry.or, Option.or_assoc]

theorem Entry.or_or_self (a b : Entry) : a.or (b.or a) = a.or b := by
  have hor : ∀ {α : Type} (x y : Option α), x.or (y.or x) = x.or y := by
    intro α x y
    cases x <;> simp
  simp [Entry.or, hor]

theorem stops_readString_brace {c : Char} (h : c = '{' ∨ c = '}') : Stops readString c := by
  rcases h with rfl | rfl <;> exact stops_readString (by decide) (by decide) (by decide)

theorem stops_readStrings_brace {c : Char} (h : c = '{' ∨ c = '}') : Stops readStrings c := by
  rcases h with rfl | rfl <;> exact stops_readStrings (by decide) (by decide) (by decide)

theorem Entry.ofBlock_nested {p b : Text} (h : SetApart p b) (s : Text) :
    Entry.ofBlock (p ++ (nestedSet b ++ s)) =
      (Entry.ofBlock p).or ((Entry.ofBlock b).or (Entry.ofBlock (p ++ (nestedSet [] ++ s)))) := by
  have hstring : ∀ {name : Text}, IsName name → Apart name readString p b →
      Adds name readString p b := fun hn ha =>
    ha.adds hn (stops_readString_brace (.inl rfl)) (stops_readString_brace (.inr rfl))
  have hoptions : Adds "options" readStrings p b := by
    rcases h.options with ha | ha
    · exact ha.adds (by decide) (stops_readStrings_brace (.inl rfl))
        (stops_readStrings_brace (.inr rfl))
    · exact ha.adds
  simp only [Entry.ofBlock, Entry.or, stringField, stringListField, Entry.mk.injEq]
  exact ⟨hstring (by decide) h.device s, hstring (by decide) h.fsType s, hoptions s⟩

theorem Entry.ofBlock_emptySet {p b : Text} (h : SetApart p b) :
    Entry.ofBlock (p ++ nestedSet []) = Entry.ofBlock p := by
  have hstring : ∀ {name : Text}, IsName name → Apart name readString p b →
      stringField name (p ++ nestedSet []) = stringField name p := fun hn ha =>
    ha.readNamed_empty hn (stops_readString_brace (.inl rfl)) (stops_readString_brace (.inr rfl))
  have hoptions : stringListField "options" (p ++ nestedSet []) = stringListField "options" p := by
    rcases h.options with ha | ha
    · exact ha.readNamed_empty (by decide) (stops_readStrings_brace (.inl rfl))
        (stops_readStrings_brace (.inr rfl))
    · exact ha.readNamed_empty
  simp only [Entry.ofBlock, hstring (by decide) h.device, hstring (by decide) h.fsType, hoptions]

/-- A nested set adds to the entry of its block what it gives itself, behind what the text in
front of it gives. So one can replace another exactly if both add the same there. -/
theorem ofBlock_replace_nestedSet {p b c : Text} (hb : SetApart p b) (hc : SetApart p c) :
    (∀ s, Entry.ofBlock (p ++ (nestedSet b ++ s)) =
      (Entry.ofBlock p).or ((Entry.ofBlock b).or (Entry.ofBlock (p ++ (nestedSet [] ++ s))))) ∧
    ((∀ s, Entry.ofBlock (p ++ (nestedSet b ++ s)) = Entry.ofBlock (p ++ (nestedSet c ++ s))) ↔
      (Entry.ofBlock p).or (Entry.ofBlock b) = (Entry.ofBlock p).or (Entry.ofBlock c)) := by
  refine ⟨Entry.ofBlock_nested hb, fun h => ?_, fun h s => ?_⟩
  · have hend := h []
    rw [Entry.ofBlock_nested hb, Entry.ofBlock_nested hc, List.append_nil,
      Entry.ofBlock_emptySet hb, Entry.or_or_self, Entry.or_or_self] at hend
    exact hend
  · rw [Entry.ofBlock_nested hb, Entry.ofBlock_nested hc, ← Entry.or_assoc, h, Entry.or_assoc]

theorem ofBlock_replace_nestedSet_luks :
    SetApart " device = \"/dev/mapper/root\"; luks = "
      " device = \"/dev/sda2\"; fsType = \"crypto_LUKS\"; " ∧
    SetApart " device = \"/dev/mapper/root\"; luks = "
      " fsType = \"crypto_LUKS\"; cipher = \x7b name = \"aes\"; \x7d; " ∧
    ∀ s, Entry.ofBlock (" device = \"/dev/mapper/root\"; luks = " ++
        (nestedSet " device = \"/dev/sda2\"; fsType = \"crypto_LUKS\"; " ++ s)) =
      Entry.ofBlock (" device = \"/dev/mapper/root\"; luks = " ++
        (nestedSet " fsType = \"crypto_LUKS\"; cipher = \x7b name = \"aes\"; \x7d; " ++ s)) := by
  have hb : SetApart " device = \"/dev/mapper/root\"; luks = "
      " device = \"/dev/sda2\"; fsType = \"crypto_LUKS\"; " :=
    ⟨.inl (by decide +kernel), .inr (by decide), .inl (.inr (by decide))⟩
  have hc : SetApart " device = \"/dev/mapper/root\"; luks = "
      " fsType = \"crypto_LUKS\"; cipher = \x7b name = \"aes\"; \x7d; " :=
    ⟨.inl (by decide +kernel), .inr (by decide), .inl (.inr (by decide))⟩
  exact ⟨hb, hc, (ofBlock_replace_nestedSet hb hc).2.mpr (by decide +kernel)⟩

def ClosesAll (t : Text) : Prop := closeBlock (t ++ ['}']) = some (t, [])

instance (t : Text) : Decidable (ClosesAll t) := inferInstanceAs (Decidable (_ = _))

def ReadsNested (p b c s : Text) : Prop :=
  Mode.after .code p = .code ∧ ClosesAll b ∧ ClosesAll c ∧ ClosesAll (p ++ (nestedSet b ++ s)) ∧
    Entry.ofBlock (p ++ (nestedSet b ++ s)) ≠ Entry.ofBlock (p ++ (nestedSet c ++ s))

instance (p b c s : Text) : Decidable (ReadsNested p b c s) :=
  inferInstanceAs (Decidable (_ ∧ _))

/-- A set that gives a field before the block does, one inside the list of options, one that
closes a value begun in a comment before it, and one that begins such a value. -/
theorem nested_sets_are_read :
    ReadsNested " luks = " " device = \"/dev/sdb\"; " [] "; device = \"/dev/sda\"; " ∧
    ReadsNested " options = [ " " name = \"ro\"; " [] " ]; " ∧
    ReadsNested " # device = \"\n luks = " " name = \"root\"; " [] "; fsType = \"ext4\"; " ∧
    ReadsNested " luks = " " # device = \"\n" [] "; label = \"root\"; " := by
  decide +kernel

end MachineFacts
