import MachineFacts.Proofs.Reading

/-! Looking up a name in joined texts. A lookup ends at the first reading that is not absent, so
the part in front decides it unless nothing is read there. -/

namespace MachineFacts

/-- No value that the lookup has begun to read is still open at the end of the text. -/
def Finished {α : Type} (name : Text) (read : Text → Reading α) (t : Text) : Prop :=
  Reading.first read (standings name true t) ≠ .endless

instance {α : Type} [DecidableEq α] {name : Text} {read : Text → Reading α} (t : Text) :
    Decidable (Finished name read t) :=
  inferInstanceAs (Decidable (_ ≠ _))

theorem readNamed_append {α : Type} {name d : Text} {read : Text → Reading α} (hn : IsName name)
    (hd : Sealed d) {y : Text}
    (hread : ∀ t ∈ standings name true d, read t ≠ .endless → read (t ++ y) = read t)
    (hfirst : Finished name read d) :
    readNamed name read true (d ++ y) =
      (readNamed name read true d).or (readNamed name read true y) := by
  simp only [readNamed_eq_first hn]
  rw [standings_append hn.nameLike hd.endsName, Reading.first_append,
    Reading.first_map_append hread hfirst, Reading.value?_or hfirst]

theorem undecided_of_mem_standings {name d t : Text} (hn : IsName name) (hd : Sealed d)
    (ht : t ∈ standings name true d) : undecided t = false := by
  have hne := ne_nil_of_mem_standings hn hd ht
  obtain ⟨before, rfl⟩ := mem_standings ht
  rw [← List.append_assoc] at hd
  exact undecided_of_sealed hd.of_append hne

theorem stringListField_append {name d : Text} (hn : IsName name) (hd : Sealed d)
    (hfirst : Finished name readStrings d) (y : Text) :
    stringListField name (d ++ y) = (stringListField name d).or (stringListField name y) :=
  readNamed_append hn hd
    (fun _ ht he => readStrings_append (undecided_of_mem_standings hn hd ht) he y) hfirst

theorem readList_ne_endless (t : Text) : readList t ≠ .endless := by
  unfold readList
  split
  · simp
  · split <;> simp

theorem first_readList_ne_endless (ts : List Text) : Reading.first readList ts ≠ .endless := by
  induction ts with
  | nil => simp [Reading.first]
  | cons t ts ih =>
    have ht := readList_ne_endless t
    simp only [Reading.first]
    split
    · exact ih
    · exact ht

theorem listBlock_append {name d : Text} (hn : IsName name) (hd : Sealed d)
    (hclosed : ∀ t ∈ standings name true d, ∀ items ∈ assigned '[' t,
      behind "];" items ≠ none) (y : Text) :
    listBlock name (d ++ y) = (listBlock name d).or (listBlock name y) :=
  readNamed_append hn hd
    (fun t ht _ => readList_append (undecided_of_mem_standings hn hd ht) (hclosed t ht) y)
    (first_readList_ne_endless _)

/-- An occurrence with another one behind it is not at the end of the text. -/
theorem decided_before {name a t : Text} {fresh : Bool} {before after : List Text}
    (hn : IsName name) (h : standings name fresh a = before ++ t :: after) :
    ∀ u ∈ before, undecided u = false := by
  induction before generalizing a fresh with
  | nil => simp
  | cons v before ih =>
    have hfind : findName name fresh a = some v := by
      rw [findName_eq_head? hn.startsNarrow, h]
      rfl
    have htail := standings_of_findName hn hfind
    rw [h] at htail
    have hrest := (List.cons.inj htail).2.symm
    intro u hu
    rcases List.mem_cons.mp hu with rfl | hu
    · have hmem : t ∈ standings name (endsName name) u := by simp [hrest]
      obtain ⟨gap, rfl⟩ := mem_standings hmem
      obtain ⟨c, rest, rfl, -⟩ := hn.startsNarrow
      have hc := hn.2 c List.mem_cons_self
      refine undecided_of_mem (List.mem_append_right gap List.mem_cons_self)
        (isBlank_of_isNameChar hc) ?_
      rintro rfl
      revert hc
      decide
    · exact ih hrest u hu

/-- What it reads in a text that shows an assignment or its absence, it reads in longer ones. -/
structure Settled {α : Type} (read : Text → Reading α) : Prop where
  keeps : ∀ {x : Text}, undecided x = false → read x ≠ .endless → ∀ y, read (x ++ y) = read x
  decided : ∀ {x : Text}, read x ≠ .absent → undecided x = false

theorem settled_readString : Settled readString where
  keeps hu he y := readString_append hu he y
  decided {x} h := by
    cases ha : assigned '"' x with
    | none => simp [readString, ha] at h
    | some rest => exact undecided_of_assigned ha

theorem settled_readStrings : Settled readStrings where
  keeps hu he y := readStrings_append hu he y
  decided {x} h := by
    cases ha : assigned '[' x with
    | none => simp [readStrings, ha] at h
    | some items => exact undecided_of_assigned ha

/-- A reading that has come to an end is not changed by the character or by what follows it. -/
def Stops {α : Type} (read : Text → Reading α) (c : Char) : Prop :=
  ∀ {x : Text}, read x ≠ .endless → ∀ y, read (x ++ c :: y) = read x

theorem Settled.stops {α : Type} {read : Text → Reading α} {c : Char} (hr : Settled read)
    (h : ∀ {x : Text}, undecided x = true → ∀ y, read (x ++ c :: y) = .absent) : Stops read c := by
  intro x he y
  cases hu : undecided x with
  | false => exact hr.keeps hu he (c :: y)
  | true =>
    have habsent : read x = .absent := by
      by_cases ha : read x = .absent
      · exact ha
      · simp [hr.decided ha] at hu
    rw [h hu, habsent]

theorem stops_readString {c : Char} (hb : isBlank c = false) (he : c ≠ '=') (hq : c ≠ '"') :
    Stops readString c := by
  refine settled_readString.stops fun hu y => ?_
  rw [readString, (assigned_of_undecided hu hb he hq y).2]

theorem stops_readStrings {c : Char} (hb : isBlank c = false) (he : c ≠ '=') (ho : c ≠ '[') :
    Stops readStrings c := by
  refine settled_readStrings.stops fun hu y => ?_
  rw [readStrings, (assigned_of_undecided hu hb he ho y).2]

/-- Behind no occurrence of the name anything is read, whatever follows the text. -/
def Unread {α : Type} (name : Text) (read : Text → Reading α) (t : Text) : Prop :=
  ∀ u ∈ standings name true t, ∀ y, read (u ++ y) = .absent

variable {α : Type} {name x : Text} {read : Text → Reading α}

theorem unread_of_decided (hr : Settled read)
    (h : ∀ u ∈ standings name true x, undecided u = false ∧ read u = .absent) :
    Unread name read x := by
  intro u hu y
  obtain ⟨hdec, habsent⟩ := h u hu
  rw [hr.keeps hdec (by simp [habsent]), habsent]

theorem unread_of_standings_eq_nil (h : standings name true x = []) : Unread name read x := by
  intro u hu
  simp [h] at hu

theorem standings_of_start (hn : IsName name) (rest : Text) :
    standings name true (name ++ rest) = rest :: standings name (endsName name) rest :=
  standings_of_findName hn (findName_of_start hn.1 rest)

theorem readNamed_of_start {value : α} (hn : IsName name) {rest : Text}
    (h : read rest = .found value) : readNamed name read true (name ++ rest) = some value := by
  rw [readNamed_eq_first hn, standings_of_start hn, Reading.first, h]
  rfl

theorem Unread.append {y : Text} (hn : NameLike name) (hx : endsName x = true)
    (h : Unread name read x) (hy : Unread name read y) : Unread name read (x ++ y) := by
  intro u hu z
  rw [standings_append hn hx] at hu
  rcases List.mem_append.mp hu with hu | hu
  · obtain ⟨v, hv, rfl⟩ := List.mem_map.mp hu
    rw [List.append_assoc]
    exact h v hv (y ++ z)
  · exact hy u hu z

theorem readNamed_append_of_unread (hn : IsName name) (hx : endsName x = true)
    (h : Unread name read x) (y : Text) :
    readNamed name read true (x ++ y) = readNamed name read true y := by
  have habsent : ∀ t ∈ (standings name true x).map (· ++ y), read t = .absent := by
    intro t ht
    obtain ⟨u, hu, rfl⟩ := List.mem_map.mp ht
    exact h u hu y
  simp only [readNamed_eq_first hn]
  rw [standings_append hn.nameLike hx, Reading.first_append, Reading.first_eq_absent habsent]
  rfl

theorem readNamed_append_of_split {before after : List Text} {t y : Text} (hn : IsName name)
    (hr : Settled read) (hx : endsName x = true)
    (hsplit : standings name true x = before ++ t :: after)
    (hbefore : ∀ u ∈ before, read u = .absent) (ht : read (t ++ y) ≠ .absent) :
    readNamed name read true (x ++ y) = (read (t ++ y)).value? := by
  have habsent : ∀ u ∈ before.map (· ++ y), read u = .absent := by
    intro v hv
    obtain ⟨u, hu, rfl⟩ := List.mem_map.mp hv
    rw [hr.keeps (decided_before hn hsplit u hu) (by simp [hbefore u hu]), hbefore u hu]
  rw [readNamed_eq_first hn, standings_append hn.nameLike hx, hsplit, List.map_append,
    List.map_cons, List.append_assoc, List.cons_append, Reading.first_of_split habsent ht]

theorem readNamed_append_of_some (hn : IsName name) (hr : Settled read)
    (hx : endsName x = true) {value : α} (h : readNamed name read true x = some value) (y : Text) :
    readNamed name read true (x ++ y) = some value := by
  rw [readNamed_eq_first hn] at h
  have hne : Reading.first read (standings name true x) ≠ .absent := fun he => by
    simp [he, Reading.value?] at h
  obtain ⟨before, t, after, hsplit, hfirst, hbefore⟩ := Reading.first_split hne
  have hfound : read t = .found value := by
    rw [hfirst] at h
    cases ht : read t <;> simp_all [Reading.value?]
  have hkeep : read (t ++ y) = .found value := by
    rw [hr.keeps (hr.decided (by simp [hfound])) (by simp [hfound]), hfound]
  rw [readNamed_append_of_split hn hr hx hsplit hbefore (by simp [hkeep]), hkeep]
  rfl

theorem finished_of_isSome (hn : IsName name) {t : Text}
    (h : (readNamed name read true t).isSome = true) : Finished name read t := by
  intro he
  rw [readNamed_eq_first hn, he] at h
  cases h

theorem finished_nil (hn : IsName name) : Finished name read [] := by
  rw [Finished, standings_nil hn.1]
  simp [Reading.first]

theorem readNamed_nil (hn : IsName name) : readNamed name read true [] = none := by
  rw [readNamed_eq_first hn, standings_nil hn.1]
  rfl

theorem readNamed_append_cons {c : Char} (hn : IsName name) (hc : isNameChar c = false)
    (hs : Stops read c) {x : Text} (hx : Finished name read x) (y : Text) :
    readNamed name read true (x ++ c :: y) =
      (readNamed name read true x).or (readNamed name read true y) := by
  have hfirst : Reading.first read ((standings name true x).map (· ++ c :: y)) =
      Reading.first read (standings name true x) :=
    Reading.first_map_append (fun _ _ he => hs he y) hx
  simp only [readNamed_eq_first hn]
  rw [standings_append_cons hn hc, Reading.first_append, hfirst, Reading.value?_or hx]

end MachineFacts
