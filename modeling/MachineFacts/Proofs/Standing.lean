import MachineFacts.Name

/-! The places where a name stands on an identifier boundary, given by the texts behind them.
Both searches by name are reads of this list: one takes its first member, the other the first
member that reads well. -/

namespace MachineFacts

/-- The texts behind the occurrences of `name` that follow no name character, from left to
right; `fresh` says so of the first character. -/
def standings (name : Text) (fresh : Bool) : Text → List Text
  | [] => if fresh then (strip name []).toList else []
  | c :: t =>
    (if fresh then (strip name (c :: t)).toList else []) ++ standings name (!isNameChar c) t

/-- Goes through the characters of the text, where another instance would go through all there
are. -/
instance (priority := high) decidableForallMemText (p : Char → Prop) [DecidablePred p]
    (t : Text) : Decidable (∀ c ∈ t, p c) := List.decidableBAll p t

/-- An attribute path without quotes or blanks in it. -/
def IsName (name : Text) : Prop := name ≠ [] ∧ ∀ c ∈ name, isNameChar c = true

instance (name : Text) : Decidable (IsName name) := inferInstanceAs (Decidable (_ ∧ _))

/-- The name does not start with a character of several bytes, which would stop a search. -/
def StartsNarrow (name : Text) : Prop := ∃ c rest, name = c :: rest ∧ c.utf8Size = 1

theorem toNat_of_isNameChar {c : Char} (h : isNameChar c = true) :
    39 ≤ c.toNat ∧ c.toNat ≤ 122 := by
  have hupper : c.isUpper = decide ('A'.val ≤ c.val ∧ c.val ≤ 'Z'.val) := rfl
  have hlower : c.isLower = (decide ('a'.val ≤ c.val) && decide (c.val ≤ 'z'.val)) := rfl
  have hdigit : c.isDigit = (decide ('0'.val ≤ c.val) && decide (c.val ≤ '9'.val)) := rfl
  have halnum : c.isAlphanum = (c.isUpper || c.isLower || c.isDigit) := rfl
  simp only [isNameChar, halnum, hupper, hlower, hdigit, Bool.or_eq_true, Bool.and_eq_true,
    decide_eq_true_eq, beq_iff_eq, UInt32.le_iff_toNat_le] at h
  rcases h with (((((h | h) | h) | rfl) | rfl) | rfl) | rfl
  · exact ⟨Nat.le_trans (by decide) h.1, Nat.le_trans h.2 (by decide)⟩
  · exact ⟨Nat.le_trans (by decide) h.1, Nat.le_trans h.2 (by decide)⟩
  · exact ⟨Nat.le_trans (by decide) h.1, Nat.le_trans h.2 (by decide)⟩
  all_goals decide

theorem of_isNameChar {p : Char → Prop}
    (h : ∀ n < 123, isNameChar (Char.ofNat n) = true → p (Char.ofNat n)) {c : Char}
    (hc : isNameChar c = true) : p c := by
  have hle := (toNat_of_isNameChar hc).2
  have hsmall := h c.toNat (by omega)
  rw [Char.ofNat_toNat] at hsmall
  exact hsmall hc

theorem utf8Size_of_isNameChar {c : Char} (h : isNameChar c = true) : c.utf8Size = 1 := by
  have hle : c.val ≤ 127 :=
    UInt32.le_iff_toNat_le.mpr (Nat.le_trans (toNat_of_isNameChar h).2 (by decide))
  exact if_pos hle

theorem isBlank_of_isNameChar {c : Char} (h : isNameChar c = true) : isBlank c = false := by
  have hn := toNat_of_isNameChar h
  simp only [isBlank, Bool.or_eq_false_iff, Bool.and_eq_false_iff, decide_eq_false_iff_not,
    beq_eq_false_iff_ne]
  omega

theorem IsName.startsNarrow {name : Text} (h : IsName name) : StartsNarrow name := by
  cases name with
  | nil => exact absurd rfl h.1
  | cons c rest => exact ⟨c, rest, rfl, utf8Size_of_isNameChar (h.2 c List.mem_cons_self)⟩

theorem findName_eq_head? {name : Text} (hn : StartsNarrow name) (fresh : Bool) (t : Text) :
    findName name fresh t = (standings name fresh t).head? := by
  induction t generalizing fresh with
  | nil => cases fresh <;> simp [findName, standings]
  | cons c t ih =>
    simp only [findName, standings]
    cases hs : strip name (c :: t) with
    | none => simp [ih]
    | some rest =>
      cases fresh with
      | true => simp
      | false =>
        obtain ⟨a, more, rfl, ha⟩ := hn
        have hc : c = a := (List.cons.inj (strip_eq_some_iff.mp hs)).1
        simp [hc, ha, ih]

theorem standings_behind_names {name a : Text} (ha : ∀ c ∈ a, isNameChar c = true) (t : Text) :
    standings name false (a ++ t) = standings name false t := by
  induction a with
  | nil => rfl
  | cons c a ih =>
    have hc := ha c List.mem_cons_self
    simpa [standings, hc] using ih fun d hd => ha d (List.mem_cons_of_mem _ hd)

theorem endsName_of_isName {name : Text} (h : IsName name) : endsName name = false := by
  cases hl : name.getLast? with
  | none => exact absurd (List.getLast?_eq_none_iff.mp hl) h.1
  | some c => simp [endsName, hl, h.2 c (List.mem_of_getLast? hl)]

theorem endsName_append_of_ne_nil (x : Text) {y : Text} (hy : y ≠ []) :
    endsName (x ++ y) = endsName y := by
  unfold endsName
  rw [List.getLast?_append]
  cases hl : y.getLast? with
  | none => exact absurd (List.getLast?_eq_none_iff.mp hl) hy
  | some c => rfl

theorem endsName_of_append {a b : Text} (h : endsName (a ++ b) = true) : endsName b = true := by
  cases b with
  | nil => rfl
  | cons c b => rwa [endsName_append_of_ne_nil a (List.cons_ne_nil c b)] at h

theorem standings_of_findName {name t rest : Text} {fresh : Bool} (hn : IsName name)
    (h : findName name fresh t = some rest) :
    standings name fresh t = rest :: standings name (endsName name) rest := by
  induction t generalizing fresh with
  | nil =>
    obtain ⟨a, more, rfl, -⟩ := hn.startsNarrow
    cases fresh <;> simp [findName, strip] at h
  | cons c t ih =>
    have hstart : ∀ {r}, strip name (c :: t) = some r → isNameChar c = true := by
      intro r hr
      obtain ⟨a, more, rfl, -⟩ := hn.startsNarrow
      exact (List.cons.inj (strip_eq_some_iff.mp hr)).1 ▸ hn.2 a List.mem_cons_self
    have hrest : ∀ {r}, strip name (c :: t) = some r →
        standings name (!isNameChar c) t = standings name (endsName name) r := by
      intro r hr
      rw [hstart hr, endsName_of_isName hn]
      obtain ⟨a, more, rfl, -⟩ := hn.startsNarrow
      obtain ⟨rfl, rfl⟩ := List.cons.inj (strip_eq_some_iff.mp hr)
      exact standings_behind_names (fun d hd => hn.2 d (List.mem_cons_of_mem _ hd)) r
    simp only [findName, standings] at h ⊢
    cases hs : strip name (c :: t) with
    | none => simpa [hs] using ih (by simpa [hs] using h)
    | some r =>
      cases fresh with
      | true =>
        have hr : r = rest := by simpa [hs] using h
        subst hr
        simp [hrest hs]
      | false =>
        have hc := utf8Size_of_isNameChar (hstart hs)
        simpa using ih (by simpa [hs, hc] using h)

theorem findName_of_start {name : Text} (hn : name ≠ []) (rest : Text) :
    findName name true (name ++ rest) = some rest := by
  cases name with
  | nil => exact absurd rfl hn
  | cons c more =>
    have hs : strip (c :: more) (c :: (more ++ rest)) = some rest := strip_append (c :: more) rest
    rw [List.cons_append, findName, hs]
    rfl

/-- Reads until something other than absence comes of it. -/
def Reading.first {α : Type} (read : Text → Reading α) : List Text → Reading α
  | [] => .absent
  | t :: ts =>
    match read t with
    | .absent => Reading.first read ts
    | reading => reading

def Reading.value? {α : Type} : Reading α → Option α
  | .found value => some value
  | .absent | .endless => none

theorem readNamed_eq_first {α : Type} {name : Text} (hn : IsName name) (read : Text → Reading α)
    (fresh : Bool) (t : Text) :
    readNamed name read fresh t = (Reading.first read (standings name fresh t)).value? := by
  induction hlen : t.length using Nat.strongRecOn generalizing fresh t with
  | _ n ih =>
    rw [readNamed]
    split
    · next hf =>
      rw [findName_eq_head? hn.startsNarrow, List.head?_eq_none_iff] at hf
      simp [hf, Reading.first, Reading.value?]
    · next rest hf =>
      have hlt := findName_length hf
      have hpos := List.length_pos_iff.mpr hn.1
      rw [standings_of_findName hn hf, Reading.first]
      split <;> simp only [*, Reading.value?]
      rw [dif_neg hn.1]
      exact ih rest.length (by omega) _ _ rfl

end MachineFacts
