import MachineFacts.Proofs.Lookup

/-! Lists of quoted strings. Their end and their strings are found by counting quotes, so a part
with all its quotes paired is read on its own, and one that has no string in it, put between two
strings, changes nothing. -/

namespace MachineFacts

def quotedAfter (quoted : Bool) (t : Text) : Bool :=
  t.foldl (fun quoted c => if c = '"' then !quoted else quoted) quoted

theorem listEnd_of_open {quoted : Bool} {x : Text} (h : listEnd quoted x = none) (y : Text) :
    listEnd quoted (x ++ y) = listEnd (quotedAfter quoted x) y := by
  induction x generalizing quoted with
  | nil => rfl
  | cons c x ih =>
    have hstep : quotedAfter quoted (c :: x) =
        quotedAfter (if c = '"' then !quoted else quoted) x := rfl
    simp only [List.cons_append, listEnd, hstep] at h ⊢
    split at h
    · next hc => simpa [hc] using ih h
    · next hc =>
      split at h
      · cases h
      · next hq => simpa only [hc, hq, if_false] using ih h

theorem quotedAfter_of_not_mem {quoted : Bool} {x : Text} (h : '"' ∉ x) :
    quotedAfter quoted x = quoted := by
  induction x with
  | nil => rfl
  | cons c x ih =>
    have hc : c ≠ '"' := fun he => h (he ▸ List.mem_cons_self)
    simpa [quotedAfter, hc] using ih fun hm => h (List.mem_cons_of_mem c hm)

theorem listEnd_of_not_mem {x : Text} (hq : '"' ∉ x) (hb : ']' ∉ x) :
    listEnd false x = none := by
  induction x with
  | nil => rfl
  | cons c x ih =>
    have hcq : c ≠ '"' := fun he => hq (he ▸ List.mem_cons_self)
    have hcb : c ≠ ']' := fun he => hb (he ▸ List.mem_cons_self)
    simpa [listEnd, hcq, hcb] using
      ih (fun hm => hq (List.mem_cons_of_mem c hm)) fun hm => hb (List.mem_cons_of_mem c hm)

/-- The end of a list is a `]` outside quotes, and no `]` in front of it is one. -/
theorem listEnd_split {quoted : Bool} {x rest : Text} (h : listEnd quoted x = some rest) :
    ∃ inner, x = inner ++ ']' :: rest ∧ quotedAfter quoted inner = false ∧
      listEnd quoted inner = none := by
  induction x generalizing quoted with
  | nil => cases h
  | cons c x ih =>
    simp only [listEnd] at h
    split at h
    · next hc =>
      obtain ⟨inner, rfl, hafter, hnone⟩ := ih h
      exact ⟨c :: inner, rfl, by simpa [quotedAfter, hc] using hafter, by simp [listEnd, hc, hnone]⟩
    · next hc =>
      split at h
      · next hend =>
        cases h
        exact ⟨[], by rw [hend.1, List.nil_append], hend.2, rfl⟩
      · next hend =>
        obtain ⟨inner, rfl, hafter, hnone⟩ := ih h
        refine ⟨c :: inner, rfl, by simpa [quotedAfter, hc] using hafter, ?_⟩
        simpa only [listEnd, hc, hend, if_false] using hnone

theorem cut_of_not_mem {stop : Char} {x : Text} (h : stop ∉ x) (y : Text) :
    cut stop (x ++ y) = (cut stop y).map fun sides => (x ++ sides.1, sides.2) := by
  induction x with
  | nil => simp
  | cons c x ih =>
    have hc : c ≠ stop := fun he => h (he ▸ List.mem_cons_self)
    have hrest := ih fun hm => h (List.mem_cons_of_mem c hm)
    simp [cut, hc, hrest, Option.map_map, Function.comp_def]

theorem quotedStrings_eq (t : Text) :
    quotedStrings t =
      match cut '"' t with
      | none => []
      | some (_, rest) =>
        match cut '"' rest with
        | none => []
        | some (token, more) => (if token = [] then [] else [token]) ++ quotedStrings more := by
  rw [quotedStrings]
  cases ho : cut '"' t with
  | none => rfl
  | some sides =>
    obtain ⟨gap, rest⟩ := sides
    dsimp only
    cases hc : cut '"' rest with
    | none => rfl
    | some pair =>
      obtain ⟨token, more⟩ := pair
      cases token <;> simp

theorem quotedStrings_of_not_mem_append {x : Text} (h : '"' ∉ x) (y : Text) :
    quotedStrings (x ++ y) = quotedStrings y := by
  rw [quotedStrings_eq, quotedStrings_eq y, cut_of_not_mem h]
  cases cut '"' y <;> rfl

theorem quotedStrings_of_not_mem {x : Text} (h : '"' ∉ x) : quotedStrings x = [] := by
  rw [quotedStrings_eq, ← List.append_nil x, cut_of_not_mem h]
  rfl

theorem quotedStrings_token {gap token : Text} (hg : '"' ∉ gap) (ht : '"' ∉ token) (y : Text) :
    quotedStrings (gap ++ '"' :: (token ++ '"' :: y)) =
      (if token = [] then [] else [token]) ++ quotedStrings y := by
  have ho : cut '"' (gap ++ '"' :: (token ++ '"' :: y)) = some (gap, token ++ '"' :: y) :=
    cut_eq_some_iff.mpr ⟨rfl, hg⟩
  have hc : cut '"' (token ++ '"' :: y) = some (token, y) := cut_eq_some_iff.mpr ⟨rfl, ht⟩
  rw [quotedStrings_eq, ho]
  simp only [hc]

theorem quotedAfter_token {quoted : Bool} {gap token : Text} (hg : '"' ∉ gap) (ht : '"' ∉ token)
    (y : Text) :
    quotedAfter quoted (gap ++ '"' :: (token ++ '"' :: y)) = quotedAfter quoted y := by
  have hgap : quotedAfter quoted gap = quoted := quotedAfter_of_not_mem hg
  have htoken : quotedAfter (!quoted) token = !quoted := quotedAfter_of_not_mem ht
  simp only [quotedAfter, List.foldl_append, List.foldl_cons] at *
  simp [hgap, htoken]

theorem listEnd_true_of_not_mem {x : Text} (h : '"' ∉ x) : listEnd true x = none := by
  induction x with
  | nil => rfl
  | cons c x ih =>
    have hc : c ≠ '"' := fun he => h (he ▸ List.mem_cons_self)
    simpa [listEnd, hc] using ih fun hm => h (List.mem_cons_of_mem c hm)

theorem listEnd_token {gap token : Text} (hg : '"' ∉ gap) (hb : ']' ∉ gap) (ht : '"' ∉ token)
    (y : Text) : listEnd false (gap ++ '"' :: (token ++ '"' :: y)) = listEnd false y := by
  rw [listEnd_of_open (listEnd_of_not_mem hg hb), quotedAfter_of_not_mem hg]
  show listEnd true (token ++ '"' :: y) = listEnd false y
  rw [listEnd_of_open (listEnd_true_of_not_mem ht), quotedAfter_of_not_mem ht]
  rfl

theorem cut_eq_none_iff {stop : Char} {t : Text} : cut stop t = none ↔ stop ∉ t := by
  induction t with
  | nil => simp [cut]
  | cons c t ih =>
    by_cases h : c = stop
    · simp [cut, h]
    · simp [cut, h, ih, Ne.symm h]

/-- A text with all its quotes paired has no quotes, or starts with a string and goes on like it. -/
theorem paired_cases {t : Text} (h : quotedAfter false t = false) :
    '"' ∉ t ∨ ∃ gap token more, '"' ∉ gap ∧ '"' ∉ token ∧
      t = gap ++ '"' :: (token ++ '"' :: more) ∧ quotedAfter false more = false := by
  cases ho : cut '"' t with
  | none => exact .inl (cut_eq_none_iff.mp ho)
  | some sides =>
    obtain ⟨gap, rest⟩ := sides
    obtain ⟨rfl, hg⟩ := cut_eq_some_iff.mp ho
    cases hc : cut '"' rest with
    | none =>
      have hrest : quotedAfter true rest = true :=
        quotedAfter_of_not_mem (cut_eq_none_iff.mp hc)
      have hgap : quotedAfter false gap = false := quotedAfter_of_not_mem hg
      simp only [quotedAfter, List.foldl_append, List.foldl_cons] at h hrest hgap
      simp [hgap, hrest] at h
    | some pair =>
      obtain ⟨token, more⟩ := pair
      obtain ⟨rfl, ht⟩ := cut_eq_some_iff.mp hc
      rw [quotedAfter_token hg ht] at h
      exact .inr ⟨gap, token, more, hg, ht, rfl, h⟩

theorem length_behind_token_lt (gap token more : Text) :
    more.length < (gap ++ '"' :: (token ++ '"' :: more)).length := by
  simp only [List.length_append, List.length_cons]
  omega

theorem quotedStrings_append {x : Text} (h : quotedAfter false x = false) (y : Text) :
    quotedStrings (x ++ y) = quotedStrings x ++ quotedStrings y := by
  induction hlen : x.length using Nat.strongRecOn generalizing x with
  | _ n ih =>
    subst hlen
    rcases paired_cases h with hx | ⟨gap, token, more, hg, ht, rfl, hmore⟩
    · rw [quotedStrings_of_not_mem hx, quotedStrings_of_not_mem_append hx, List.nil_append]
    · have hi := ih more.length (length_behind_token_lt gap token more) hmore rfl
      simp only [List.append_assoc, List.cons_append]
      rw [quotedStrings_token hg ht, quotedStrings_token hg ht, hi, List.append_assoc]

/-- A list of strings that is still open, outside its strings. -/
def BetweenItems (t : Text) : Prop :=
  ∃ items ∈ assigned '[' t, listEnd false items = none ∧ quotedAfter false items = false

/-- Read as a part of a list, the text has no string in it, and neither leaves a quote open nor
ends the list. -/
structure AddsNoString (x : Text) : Prop where
  paired : quotedAfter false x = false
  goesOn : listEnd false x = none
  silent : quotedStrings x = []

theorem AddsNoString.of_not_mem {x : Text} (hq : '"' ∉ x) (hb : ']' ∉ x) : AddsNoString x where
  paired := quotedAfter_of_not_mem hq
  goesOn := listEnd_of_not_mem hq hb
  silent := quotedStrings_of_not_mem hq

theorem readStrings_insert {t x : Text} (ht : BetweenItems t) (hx : AddsNoString x) (b : Text) :
    readStrings (t ++ (x ++ b)) = readStrings (t ++ b) := by
  obtain ⟨items, ha, hl, hafter⟩ := ht
  have hu := undecided_of_assigned ha
  have hend : ∀ y, listEnd false (items ++ y) = listEnd false y := fun y => by
    rw [listEnd_of_open hl, hafter]
  have hskip : listEnd false (x ++ b) = listEnd false b := by
    rw [listEnd_of_open hx.goesOn, hx.paired]
  simp only [readStrings, assigned_append hu, Option.mem_def.mp ha, Option.map_some, hend, hskip]
  cases hr : listEnd false b with
  | none => rfl
  | some rest =>
    obtain ⟨inner, rfl, -, -⟩ := listEnd_split hr
    have hlong : front (items ++ (x ++ (inner ++ ']' :: rest))) 1 rest = items ++ (x ++ inner) := by
      simpa using front_append (items ++ (x ++ inner)) [']'] rest
    have hshort : front (items ++ (inner ++ ']' :: rest)) 1 rest = items ++ inner := by
      simpa using front_append (items ++ inner) [']'] rest
    simp only [hlong, hshort, quotedStrings_append hafter, quotedStrings_append hx.paired,
      hx.silent, List.nil_append]

theorem readStrings_ne_absent {t items : Text} (h : assigned '[' t = some items) :
    readStrings t ≠ .absent := by
  unfold readStrings
  rw [h]
  cases hl : listEnd false items <;> simp [hl]

/-- The list that is read behind `name` is still open at the end of the text. -/
def ListOpen (name t : Text) : Prop :=
  ∃ before u after, standings name true t = before ++ u :: after ∧
    (∀ v ∈ before, assigned '[' v = none) ∧ BetweenItems u

theorem stringListField_insert {name x y : Text} (hn : IsName name) (hx : endsName x = true)
    (h : ListOpen name x) (hy : AddsNoString y) (b : Text) :
    stringListField name (x ++ (y ++ b)) = stringListField name (x ++ b) := by
  obtain ⟨before, u, after, hsplit, hnone, hopen⟩ := h
  have habsent : ∀ v ∈ before, readStrings v = .absent := by
    intro v hv
    rw [readStrings, hnone v hv]
  have hread : ∀ z, readStrings (u ++ z) ≠ .absent := by
    intro z
    obtain ⟨items, ha, -⟩ := hopen
    have hz : assigned '[' (u ++ z) = some (items ++ z) := by
      rw [assigned_append (undecided_of_assigned ha), Option.mem_def.mp ha]
      rfl
    exact readStrings_ne_absent hz
  have hdecides := fun z =>
    readNamed_append_of_split hn settled_readStrings hx hsplit habsent (hread z)
  rw [stringListField, stringListField, hdecides, hdecides, readStrings_insert hopen hy]

end MachineFacts
