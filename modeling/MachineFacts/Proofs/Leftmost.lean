import Mathlib.Data.Nat.Find
import MachineFacts.Proofs.Lookup

/-! The places at which a lookup reads, given by the texts in front of them. A lookup comes to
what is read at the leftmost place at which anything is. -/

namespace MachineFacts

/-- Whether a name may start behind this text; `fresh` says so of the empty one. -/
def opensName (fresh : Bool) (before : Text) : Bool :=
  match before.getLast? with
  | none => fresh
  | some c => !isNameChar c

theorem opensName_cons (fresh : Bool) (c : Char) (before : Text) :
    opensName fresh (c :: before) = opensName (!isNameChar c) before := by
  cases before with
  | nil => rfl
  | cons d before =>
    rw [opensName, opensName, List.getLast?_cons_cons]
    cases hl : (d :: before).getLast? with
    | none => simp at hl
    | some e => rfl

theorem mem_start_iff {name t rest : Text} {fresh : Bool} :
    rest ∈ (if fresh then (strip name t).toList else []) ↔ fresh = true ∧ t = name ++ rest := by
  cases fresh <;> simp [strip_eq_some_iff]

theorem mem_standings_iff_opensName {name t rest : Text} {fresh : Bool} :
    rest ∈ standings name fresh t ↔
      ∃ before, opensName fresh before = true ∧ t = before ++ (name ++ rest) := by
  induction t generalizing fresh with
  | nil =>
    rw [standings, mem_start_iff]
    constructor
    · rintro ⟨hf, ht⟩
      exact ⟨[], hf, ht⟩
    · rintro ⟨before, hb, ht⟩
      obtain ⟨rfl, hnil⟩ := List.append_eq_nil_iff.mp ht.symm
      exact ⟨hb, hnil.symm⟩
  | cons c t ih =>
    rw [standings, List.mem_append, mem_start_iff, ih]
    constructor
    · rintro (⟨hf, ht⟩ | ⟨before, hb, rfl⟩)
      · exact ⟨[], hf, ht⟩
      · exact ⟨c :: before, (opensName_cons fresh c before).trans hb, rfl⟩
    · rintro ⟨before, hb, ht⟩
      cases before with
      | nil => exact .inl ⟨hb, ht⟩
      | cons d before =>
        obtain ⟨rfl, rfl⟩ := List.cons.inj ht
        exact .inr ⟨before, (opensName_cons fresh c before).symm.trans hb, rfl⟩

theorem mem_standings_iff {name t rest : Text} :
    rest ∈ standings name true t ↔
      ∃ before, endsName before = true ∧ t = before ++ (name ++ rest) :=
  mem_standings_iff_opensName

theorem standings_pairwise (name : Text) (fresh : Bool) (t : Text) :
    (standings name fresh t).Pairwise fun u v => v.length < u.length := by
  induction t generalizing fresh with
  | nil => cases fresh <;> cases name <;> simp [standings, strip]
  | cons c t ih =>
    rw [standings, List.pairwise_append]
    refine ⟨?_, ih _, ?_⟩
    · cases fresh <;> cases strip name (c :: t) <;> simp
    · intro u hu v hv
      obtain ⟨-, ht⟩ := mem_start_iff.mp hu
      obtain ⟨before, rfl⟩ := mem_standings hv
      have hlen := congrArg List.length ht
      simp only [List.length_cons, List.length_append] at hlen
      omega

theorem Reading.first_eq_iff {α : Type} {read : Text → Reading α} {ts : List Text}
    (hts : ts.Pairwise fun u v => v.length < u.length) {r : Reading α} (hr : r ≠ .absent) :
    Reading.first read ts = r ↔
      ∃ u ∈ ts, read u = r ∧ ∀ v ∈ ts, read v ≠ .absent → v.length ≤ u.length := by
  induction ts with
  | nil => simp [Reading.first, hr.symm]
  | cons t ts ih =>
    obtain ⟨hlt, hts⟩ := List.pairwise_cons.mp hts
    by_cases ht : read t = .absent
    · have hskip : Reading.first read (t :: ts) = Reading.first read ts := by
        simp [Reading.first, ht]
      rw [hskip, ih hts]
      constructor
      · rintro ⟨u, hu, hread, hmax⟩
        refine ⟨u, List.mem_cons_of_mem t hu, hread, fun v hv hpresent => ?_⟩
        rcases List.mem_cons.mp hv with rfl | hv
        · exact absurd ht hpresent
        · exact hmax v hv hpresent
      · rintro ⟨u, hu, hread, hmax⟩
        rcases List.mem_cons.mp hu with rfl | hu
        · exact absurd (hread.symm.trans ht) hr
        · exact ⟨u, hu, hread, fun v hv => hmax v (List.mem_cons_of_mem t hv)⟩
    · rw [show t :: ts = [] ++ t :: ts from rfl, Reading.first_of_split (by simp) ht]
      constructor
      · intro hread
        refine ⟨t, List.mem_cons_self, hread, fun v hv _ => ?_⟩
        rcases List.mem_cons.mp hv with rfl | hv
        · exact Nat.le_refl _
        · exact Nat.le_of_lt (hlt v hv)
      · rintro ⟨u, hu, hread, hmax⟩
        rcases List.mem_cons.mp hu with rfl | hu
        · exact hread
        · have hle := hmax t List.mem_cons_self ht
          have hgt := hlt u hu
          omega

/-- What holds with the shortest text in front. -/
def Leftmost {α : Type} (At : Text → α → Prop) (a : α) : Prop :=
  ∃ before, At before a ∧ ∀ other b, At other b → before.length ≤ other.length

theorem exists_leftmost {α : Type} {At : Text → α → Prop} {before : Text} {a : α}
    (h : At before a) : ∃ b, Leftmost At b := by
  classical
  have hsome : ∃ n, ∃ front b, At front b ∧ front.length = n := ⟨_, before, a, h, rfl⟩
  obtain ⟨front, b, hb, hlen⟩ := Nat.find_spec hsome
  refine ⟨b, front, hb, fun other c ho => ?_⟩
  rw [hlen]
  exact Nat.find_min' hsome ⟨other, c, ho, rfl⟩

/-- With `before` in front of it, the name stands on a boundary in `t`, and `read` comes to `r`
behind it. -/
def ReadsAt {α : Type} (name : Text) (read : Text → Reading α) (t before : Text)
    (r : Reading α) : Prop :=
  endsName before = true ∧ ∃ rest, t = before ++ (name ++ rest) ∧ read rest = r

theorem length_le_iff_of_split {name t before other u v : Text}
    (hu : t = before ++ (name ++ u)) (hv : t = other ++ (name ++ v)) :
    before.length ≤ other.length ↔ v.length ≤ u.length := by
  have hlen := congrArg List.length (hu.symm.trans hv)
  simp only [List.length_append] at hlen
  omega

theorem Reading.value?_eq_some_iff {α : Type} {r : Reading α} {a : α} :
    r.value? = some a ↔ r = .found a := by
  cases r <;> simp [Reading.value?]

theorem first_standings_eq_iff {α : Type} {name : Text} (read : Text → Reading α) (t : Text)
    {r : Reading α} (hr : r ≠ .absent) :
    Reading.first read (standings name true t) = r ↔
      Leftmost (fun before r => ReadsAt name read t before r ∧ r ≠ .absent) r := by
  rw [Reading.first_eq_iff (standings_pairwise name true t) hr]
  constructor
  · rintro ⟨u, hu, hread, hmax⟩
    obtain ⟨before, hb, rfl⟩ := mem_standings_iff.mp hu
    refine ⟨before, ⟨⟨hb, u, rfl, hread⟩, hr⟩, ?_⟩
    rintro other r ⟨⟨ho, v, ht, rfl⟩, hpresent⟩
    have hle := hmax v (mem_standings_iff.mpr ⟨other, ho, ht⟩) hpresent
    exact (length_le_iff_of_split rfl ht).mpr hle
  · rintro ⟨before, ⟨⟨hb, u, rfl, hread⟩, -⟩, hmin⟩
    refine ⟨u, mem_standings_iff.mpr ⟨before, hb, rfl⟩, hread, fun v hv hpresent => ?_⟩
    obtain ⟨other, ho, ht⟩ := mem_standings_iff.mp hv
    have hle := hmin other (read v) ⟨⟨ho, v, ht, rfl⟩, hpresent⟩
    exact (length_le_iff_of_split rfl ht).mp hle

theorem readNamed_eq_some_iff {α : Type} {name : Text} (hn : IsName name)
    (read : Text → Reading α) (t : Text) (a : α) :
    readNamed name read true t = some a ↔
      Leftmost (fun before r => ReadsAt name read t before r ∧ r ≠ .absent) (.found a) := by
  rw [readNamed_eq_first hn, Reading.value?_eq_some_iff, first_standings_eq_iff read t (by simp)]

/-- With `before` in front of it, the name stands on a boundary in `t`, and something of the shape
follows it. -/
def NamedAt {β : Type} (name : Text) (shape : Text → β → Prop) (t before : Text) (b : β) : Prop :=
  endsName before = true ∧ ∃ rest, t = before ++ (name ++ rest) ∧ shape rest b

/-- Something is read exactly where the text has the shape, and its parts say what. -/
def ReadsShape {α β : Type} (read : Text → Reading α) (shape : Text → β → Prop)
    (result : β → Reading α) : Prop :=
  ∀ t r, (read t = r ∧ r ≠ .absent) ↔ ∃ b, shape t b ∧ result b = r

section

variable {α β : Type} {name : Text} {read : Text → Reading α} {shape : Text → β → Prop}
  {result : β → Reading α}

theorem ReadsShape.readsAt_iff (hr : ReadsShape read shape result) {t before : Text}
    {r : Reading α} :
    (ReadsAt name read t before r ∧ r ≠ .absent) ↔
      ∃ b, NamedAt name shape t before b ∧ result b = r := by
  constructor
  · rintro ⟨⟨hb, rest, ht, hread⟩, hpresent⟩
    obtain ⟨b, hshape, hresult⟩ := (hr rest r).mp ⟨hread, hpresent⟩
    exact ⟨b, ⟨hb, rest, ht, hshape⟩, hresult⟩
  · rintro ⟨b, ⟨hb, rest, ht, hshape⟩, hresult⟩
    obtain ⟨hread, hpresent⟩ := (hr rest r).mpr ⟨b, hshape, hresult⟩
    exact ⟨⟨hb, rest, ht, hread⟩, hpresent⟩

theorem ReadsShape.first_eq_iff (hr : ReadsShape read shape result) (t : Text) {r : Reading α}
    (hpresent : r ≠ .absent) :
    Reading.first read (standings name true t) = r ↔
      ∃ b, Leftmost (NamedAt name shape t) b ∧ result b = r := by
  rw [first_standings_eq_iff read t hpresent]
  simp only [Leftmost, hr.readsAt_iff]
  constructor
  · rintro ⟨before, ⟨b, hgiven, hresult⟩, hmin⟩
    exact ⟨b, ⟨before, hgiven, fun other c hc => hmin other _ ⟨c, hc, rfl⟩⟩, hresult⟩
  · rintro ⟨b, ⟨before, hgiven, hmin⟩, hresult⟩
    exact ⟨before, ⟨b, hgiven, hresult⟩, fun other _ ⟨c, hc, _⟩ => hmin other c hc⟩

theorem ReadsShape.first_eq_absent_iff (hr : ReadsShape read shape result) (t : Text) :
    Reading.first read (standings name true t) = .absent ↔
      ∀ before b, ¬ NamedAt name shape t before b := by
  constructor
  · intro habsent before b hgiven
    obtain ⟨c, hleft⟩ := exists_leftmost hgiven
    have hpresent : result c ≠ .absent := by
      obtain ⟨front, hc, -⟩ := hleft
      exact (hr.readsAt_iff.mpr ⟨c, hc, rfl⟩).2
    have hfirst := (hr.first_eq_iff t hpresent).mpr ⟨c, hleft, rfl⟩
    exact hpresent (hfirst.symm.trans habsent)
  · intro hnone
    by_contra hpresent
    obtain ⟨b, ⟨before, hgiven, -⟩, -⟩ := (hr.first_eq_iff t hpresent).mp rfl
    exact hnone before b hgiven

theorem ReadsShape.readNamed_eq_some_iff (hr : ReadsShape read shape result) (hn : IsName name)
    (t : Text) (a : α) :
    readNamed name read true t = some a ↔
      ∃ b, Leftmost (NamedAt name shape t) b ∧ result b = .found a := by
  rw [readNamed_eq_first hn, Reading.value?_eq_some_iff, hr.first_eq_iff t (by simp)]

theorem ReadsShape.readNamed_eq_none_iff (hr : ReadsShape read shape result) (hn : IsName name)
    (t : Text) :
    readNamed name read true t = none ↔
      (∀ before b, ¬ NamedAt name shape t before b) ∨
        ∃ b, Leftmost (NamedAt name shape t) b ∧ result b = .endless := by
  rw [readNamed_eq_first hn, ← hr.first_eq_absent_iff, ← hr.first_eq_iff t (by simp)]
  cases Reading.first read (standings name true t) <;> simp [Reading.value?]

end

end MachineFacts
