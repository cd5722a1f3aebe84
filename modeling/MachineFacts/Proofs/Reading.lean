import Mathlib.Data.List.TakeWhile
import MachineFacts.Proofs.Seam

/-! What a reading behind a name depends on. A reading that came to an end is the same whatever
text follows, so the first reading of a joined text is the first one of its parts. -/

namespace MachineFacts

/-- The text ends before it shows whether something is assigned. -/
def undecided (t : Text) : Bool :=
  match t.dropWhile isBlank with
  | [] => true
  | c :: value => c == '=' && value.all isBlank

theorem all_of_dropWhile_eq_nil {p : Char → Bool} {t : Text} (h : t.dropWhile p = []) :
    t.all p = true := List.all_eq_true.mpr (List.dropWhile_eq_nil_iff.mp h)

theorem undecided_of_mem {t : Text} {c : Char} (hc : c ∈ t) (hb : isBlank c = false)
    (he : c ≠ '=') : undecided t = false := by
  unfold undecided
  split
  · next h =>
    have := List.dropWhile_eq_nil_iff.mp h c hc
    simp [hb] at this
  · next d value h =>
    rw [← List.takeWhile_append_dropWhile (p := isBlank) (l := t), h] at hc
    rcases List.mem_append.mp hc with hc | hc
    · have := List.mem_takeWhile_imp hc
      simp [hb] at this
    · rcases List.mem_cons.mp hc with rfl | hc
      · simp [he]
      · have hall : value.all isBlank = false :=
          List.all_eq_false.mpr ⟨c, hc, by simp [hb]⟩
        simp [hall]

theorem undecided_of_sealed {t : Text} (h : Sealed t) (hne : t ≠ []) : undecided t = false := by
  cases hl : t.getLast? with
  | none => exact absurd (List.getLast?_eq_none_iff.mp hl) hne
  | some c => exact undecided_of_mem (List.mem_of_getLast? hl) (h c hl).2.1 (h c hl).2.2

theorem undecided_of_assigned {opener : Char} {t rest : Text} (h : assigned opener t = some rest) :
    undecided t = false := by
  unfold assigned at h
  unfold undecided
  split at h
  · next value hv =>
    rw [hv]
    show ('=' == '=' && value.all isBlank) = false
    cases hall : value.all isBlank with
    | false => rfl
    | true =>
      rw [List.dropWhile_eq_nil_iff.mpr (List.all_eq_true.mp hall)] at h
      cases h
  · cases h

theorem assigned_append {opener : Char} {x : Text} (h : undecided x = false) (y : Text) :
    assigned opener (x ++ y) = (assigned opener x).map (· ++ y) := by
  unfold undecided at h
  unfold assigned
  rw [List.dropWhile_append]
  cases hx : x.dropWhile isBlank with
  | nil => simp [hx] at h
  | cons c value =>
    simp only [List.isEmpty_cons, Bool.false_eq_true, if_false, List.cons_append]
    by_cases hc : c = '='
    · subst hc
      simp only [List.dropWhile_append]
      cases hv : value.dropWhile isBlank with
      | nil => simp [hx, all_of_dropWhile_eq_nil hv] at h
      | cons d rest => by_cases hd : d = opener <;> simp [hd]
    · split <;> simp_all

theorem assigned_of_undecided {opener c : Char} {x : Text} (h : undecided x = true)
    (hb : isBlank c = false) (he : c ≠ '=') (ho : c ≠ opener) (y : Text) :
    assigned opener x = none ∧ assigned opener (x ++ c :: y) = none := by
  have hblank : (c :: y).dropWhile isBlank = c :: y := by simp [hb]
  unfold undecided at h
  unfold assigned
  rw [List.dropWhile_append]
  cases hx : x.dropWhile isBlank with
  | nil => simp [hblank, he]
  | cons d value =>
    simp only [hx, Bool.and_eq_true, beq_iff_eq] at h
    have hvalue : value.dropWhile isBlank = [] :=
      List.dropWhile_eq_nil_iff.mpr (List.all_eq_true.mp h.2)
    simp [h.1, List.dropWhile_append, hvalue, hblank, ho]

theorem cut_append {stop : Char} {x a b : Text} (h : cut stop x = some (a, b)) (y : Text) :
    cut stop (x ++ y) = some (a, b ++ y) := by
  obtain ⟨rfl, ha⟩ := cut_eq_some_iff.mp h
  exact cut_eq_some_iff.mpr ⟨by simp, ha⟩

theorem listEnd_append {quoted : Bool} {x rest : Text} (h : listEnd quoted x = some rest)
    (y : Text) : listEnd quoted (x ++ y) = some (rest ++ y) := by
  induction x generalizing quoted with
  | nil => cases h
  | cons c x ih =>
    simp only [List.cons_append, listEnd] at h ⊢
    split
    · next hc => exact ih (by simpa [hc] using h)
    · next hc =>
      split
      · next hq => simpa [hc, hq] using h
      · next hq => exact ih (by simpa only [hc, hq, if_false] using h)

theorem Bracket.closing_append {b : Bracket} {mode : Mode} {depth : Nat} {x rest : Text}
    (h : b.closing mode depth x = some rest) (y : Text) :
    b.closing mode depth (x ++ y) = some (rest ++ y) := by
  induction x generalizing mode depth with
  | nil => cases h
  | cons c x ih =>
    simp only [List.cons_append, Bracket.closing] at h ⊢
    split
    · next hs => exact ih (by simpa only [hs] using h)
    · next hs => simpa [hs] using h
    · next hs => simp [hs] at h

theorem front_append_append (x : Text) (width : Nat) (rest y : Text) :
    front (x ++ y) width (rest ++ y) = front x width rest := by
  have hlen : (x ++ y).length - (width + (rest ++ y).length) =
      x.length - (width + rest.length) := by
    simp only [List.length_append]
    omega
  rw [front, hlen, List.take_append_of_le_length (by omega), front]

theorem closeBlock_append {x inner rest : Text} (h : closeBlock x = some (inner, rest))
    (y : Text) : closeBlock (x ++ y) = some (inner, rest ++ y) := by
  obtain ⟨r, hr, he⟩ := Option.map_eq_some_iff.mp h
  cases he
  simp [closeBlock, Bracket.closing_append hr y, front_append_append]

theorem closing_split {b : Bracket} {mode : Mode} {depth : Nat} {t rest : Text}
    (h : b.closing mode depth t = some rest) : ∃ inner, t = inner ++ b.closer :: rest := by
  induction t generalizing mode depth with
  | nil => cases h
  | cons c t ih =>
    simp only [Bracket.closing] at h
    split at h
    · obtain ⟨inner, rfl⟩ := ih h
      exact ⟨c :: inner, rfl⟩
    · next hs =>
      cases h
      refine ⟨[], ?_⟩
      simp only [Bracket.step] at hs
      split at hs
      · cases hs
      · split at hs
        · next hc => rw [hc.2, List.nil_append]
        · cases hs
    · cases h

theorem assigned_blanks {opener : Char} {t rest : Text} (h : assigned opener t = some rest) :
    ∃ a b, (∀ c ∈ a, isBlank c = true) ∧ (∀ c ∈ b, isBlank c = true) ∧
      t = a ++ '=' :: (b ++ opener :: rest) := by
  unfold assigned at h
  split at h
  · next value hv =>
    split at h
    · next c r hr =>
      split at h
      · next hc =>
        cases h
        refine ⟨t.takeWhile isBlank, value.takeWhile isBlank, fun d hd => List.mem_takeWhile_imp hd,
          fun d hd => List.mem_takeWhile_imp hd, ?_⟩
        rw [← hc, ← hr, List.takeWhile_append_dropWhile, ← hv, List.takeWhile_append_dropWhile]
      · cases h
    · cases h
  · cases h

theorem assigned_split {opener : Char} {t rest : Text} (h : assigned opener t = some rest) :
    ∃ before, t = before ++ opener :: rest := by
  obtain ⟨a, b, -, -, rfl⟩ := assigned_blanks h
  exact ⟨a ++ '=' :: b, by simp⟩

theorem closeBlock_split {t inner rest : Text} (h : closeBlock t = some (inner, rest)) :
    t = inner ++ '}' :: rest := by
  obtain ⟨r, hr, he⟩ := Option.map_eq_some_iff.mp h
  obtain ⟨a, rfl⟩ := closing_split hr
  cases he
  have hf : front (a ++ '}' :: rest) 1 rest = a := front_append a ['}'] rest
  rw [show Bracket.brace.closer = '}' from rfl, hf]

theorem readString_append {x : Text} (hu : undecided x = false)
    (he : readString x ≠ .endless) (y : Text) : readString (x ++ y) = readString x := by
  unfold readString at he ⊢
  rw [assigned_append hu]
  cases ha : assigned '"' x with
  | none => rfl
  | some rest =>
    cases hc : cut '"' rest with
    | none => simp [ha, hc] at he
    | some sides =>
      obtain ⟨value, b⟩ := sides
      cases value <;> simp [hc, cut_append hc y]

theorem readStrings_append {x : Text} (hu : undecided x = false)
    (he : readStrings x ≠ .endless) (y : Text) : readStrings (x ++ y) = readStrings x := by
  unfold readStrings at he ⊢
  rw [assigned_append hu]
  cases ha : assigned '[' x with
  | none => rfl
  | some items =>
    cases hl : listEnd false items with
    | none => simp [ha, hl] at he
    | some rest => simp only [Option.map_some, hl, listEnd_append hl y, front_append_append]

theorem readList_append {x : Text} (hu : undecided x = false)
    (he : ∀ items, assigned '[' x = some items → behind "];" items ≠ none) (y : Text) :
    readList (x ++ y) = readList x := by
  unfold readList
  rw [assigned_append hu]
  cases ha : assigned '[' x with
  | none => rfl
  | some items =>
    cases hb : behind "];" items with
    | none => exact absurd hb (he items ha)
    | some rest => simp only [Option.map_some, hb, behind_append_of_some hb y, front_append_append]

def Reading.or {α : Type} : Reading α → Reading α → Reading α
  | .absent, r => r
  | r, _ => r

theorem Reading.first_append {α : Type} (read : Text → Reading α) (ts us : List Text) :
    Reading.first read (ts ++ us) = (Reading.first read ts).or (Reading.first read us) := by
  induction ts with
  | nil => rfl
  | cons t ts ih =>
    simp only [List.cons_append, Reading.first]
    cases h : read t with
    | absent => exact ih
    | found value => rfl
    | endless => rfl

theorem Reading.first_map_append {α : Type} {read : Text → Reading α} {ts : List Text} {y : Text}
    (hread : ∀ t ∈ ts, read t ≠ .endless → read (t ++ y) = read t)
    (hfirst : Reading.first read ts ≠ .endless) :
    Reading.first read (ts.map (· ++ y)) = Reading.first read ts := by
  induction ts with
  | nil => rfl
  | cons t ts ih =>
    have ht : read t ≠ .endless := fun he => by simp [Reading.first, he] at hfirst
    simp only [List.map_cons, Reading.first, hread t List.mem_cons_self ht]
    cases h : read t with
    | absent =>
      exact ih (fun u hu => hread u (List.mem_cons_of_mem t hu))
        (by simpa [Reading.first, h] using hfirst)
    | found value => rfl
    | endless => rfl

theorem Reading.value?_or {α : Type} {r : Reading α} (h : r ≠ .endless) (s : Reading α) :
    (r.or s).value? = r.value?.or s.value? := by
  cases r with
  | absent => rfl
  | found value => rfl
  | endless => exact absurd rfl h

theorem Reading.first_eq_absent {α : Type} {read : Text → Reading α} {ts : List Text}
    (h : ∀ t ∈ ts, read t = .absent) : Reading.first read ts = .absent := by
  induction ts with
  | nil => rfl
  | cons t ts ih =>
    rw [Reading.first, h t List.mem_cons_self]
    exact ih fun u hu => h u (List.mem_cons_of_mem t hu)

theorem Reading.first_split {α : Type} {read : Text → Reading α} {ts : List Text}
    (h : Reading.first read ts ≠ .absent) :
    ∃ before t after, ts = before ++ t :: after ∧ Reading.first read ts = read t ∧
      ∀ u ∈ before, read u = .absent := by
  induction ts with
  | nil => exact absurd rfl h
  | cons t ts ih =>
    cases ht : read t with
    | absent =>
      have hfirst : Reading.first read (t :: ts) = Reading.first read ts := by
        simp [Reading.first, ht]
      obtain ⟨before, u, after, rfl, hu, hbefore⟩ := ih (hfirst ▸ h)
      refine ⟨t :: before, u, after, rfl, hfirst.trans hu, fun v hv => ?_⟩
      rcases List.mem_cons.mp hv with rfl | hv
      · exact ht
      · exact hbefore v hv
    | found value => exact ⟨[], t, ts, rfl, by simp [Reading.first, ht], by simp⟩
    | endless => exact ⟨[], t, ts, rfl, by simp [Reading.first, ht], by simp⟩

theorem Reading.first_of_split {α : Type} {read : Text → Reading α} {before after : List Text}
    {t : Text} (hbefore : ∀ u ∈ before, read u = .absent) (ht : read t ≠ .absent) :
    Reading.first read (before ++ t :: after) = read t := by
  rw [Reading.first_append, Reading.first_eq_absent hbefore, Reading.or, Reading.first]
  split
  · next h => exact absurd h ht
  · rfl

end MachineFacts
