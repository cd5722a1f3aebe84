import MachineFacts.Proofs.Assignment

/-! Lists of quoted strings as the pieces between their quotes. A list ends at the first `]` with an
even number of quotes in front of it, and its strings are the pieces of odd index, so every quote is
paired and no string is left open. -/

namespace MachineFacts

theorem quotedAfter_not (quoted : Bool) (t : Text) :
    quotedAfter (!quoted) t = !quotedAfter quoted t := by
  induction t generalizing quoted with
  | nil => rfl
  | cons c t ih =>
    by_cases hc : c = '"'
    · simpa [quotedAfter, hc] using ih (!quoted)
    · simpa [quotedAfter, hc] using ih quoted

theorem quotedAfter_eq_decide (t : Text) :
    quotedAfter false t = decide (t.count '"' % 2 = 1) := by
  induction t with
  | nil => rfl
  | cons c t ih =>
    by_cases hc : c = '"'
    · subst hc
      have hflip : quotedAfter false ('"' :: t) = !quotedAfter false t := quotedAfter_not false t
      rw [hflip, ih, List.count_cons_self, ← decide_not]
      exact decide_eq_decide.mpr (by omega)
    · have hsame : quotedAfter false (c :: t) = quotedAfter false t := by simp [quotedAfter, hc]
      rw [hsame, ih, List.count_cons_of_ne hc]

theorem quotedAfter_eq_false_iff (t : Text) :
    quotedAfter false t = false ↔ t.count '"' % 2 = 0 := by
  rw [quotedAfter_eq_decide, decide_eq_false_iff_not]
  omega

theorem listEnd_eq_none_iff {t : Text} :
    listEnd false t = none ↔ ∀ inner rest, t = inner ++ ']' :: rest → inner.count '"' % 2 = 1 := by
  constructor
  · rintro hnone inner rest rfl
    have hinner : listEnd false inner = none := by
      cases hi : listEnd false inner with
      | none => rfl
      | some back => simp [listEnd_append hi] at hnone
    by_contra hodd
    have hafter := (quotedAfter_eq_false_iff inner).mpr (by omega)
    rw [listEnd_of_open hinner, hafter] at hnone
    cases hnone
  · intro hquoted
    cases ht : listEnd false t with
    | none => rfl
    | some rest =>
      obtain ⟨inner, rfl, hafter, -⟩ := listEnd_split ht
      have hodd := hquoted inner rest rfl
      have heven := (quotedAfter_eq_false_iff inner).mp hafter
      omega

/-- The list ends behind `inner`, at the first `]` with an even number of quotes in front of it. -/
structure EndsBehind (items inner rest : Text) : Prop where
  split : items = inner ++ ']' :: rest
  even : inner.count '"' % 2 = 0
  first : ∀ front back, inner = front ++ ']' :: back → front.count '"' % 2 = 1

theorem listEnd_eq_some_iff {items rest : Text} :
    listEnd false items = some rest ↔ ∃ inner, EndsBehind items inner rest := by
  constructor
  · intro h
    obtain ⟨inner, hsplit, hafter, hnone⟩ := listEnd_split h
    have heven := (quotedAfter_eq_false_iff inner).mp hafter
    exact ⟨inner, hsplit, heven, listEnd_eq_none_iff.mp hnone⟩
  · rintro ⟨inner, rfl, heven, hfirst⟩
    have hafter := (quotedAfter_eq_false_iff inner).mpr heven
    rw [listEnd_of_open (listEnd_eq_none_iff.mpr hfirst), hafter]
    rfl

def oddPiece? (p : Text × Nat) : Option Text := if p.2 % 2 = 1 ∧ p.1 ≠ [] then some p.1 else none

/-- The pieces of odd index of the text split at its quotes, empty ones left out. -/
def oddPieces (t : Text) : List Text := (t.splitOn '"').zipIdx.filterMap oddPiece?

theorem oddPieces_of_not_mem {t : Text} (h : '"' ∉ t) : oddPieces t = [] := by
  rw [oddPieces, List.splitOn_eq_singleton h]
  rfl

theorem filterMap_oddPiece?_zipIdx_two (pieces : List Text) :
    (pieces.zipIdx 2).filterMap oddPiece? = pieces.zipIdx.filterMap oddPiece? := by
  have hshift : (oddPiece? ∘ fun (piece, i) => (piece, 2 + i)) = oddPiece? := by
    funext p
    have hparity : (2 + p.2) % 2 = p.2 % 2 := by omega
    rw [Function.comp_apply, oddPiece?, oddPiece?, hparity]
  rw [List.zipIdx_eq_map_add, List.filterMap_map, hshift]

theorem oddPieces_token {gap token : Text} (hg : '"' ∉ gap) (ht : '"' ∉ token) (t : Text) :
    oddPieces (gap ++ '"' :: (token ++ '"' :: t)) =
      (if token = [] then [] else [token]) ++ oddPieces t := by
  have hgap : oddPiece? (gap, 0) = none := by simp [oddPiece?]
  rw [oddPieces, List.splitOn_append_cons_self_of_not_mem hg,
    List.splitOn_append_cons_self_of_not_mem ht, List.zipIdx_cons, List.zipIdx_cons,
    List.filterMap_cons_none hgap]
  by_cases he : token = []
  · have hnone : oddPiece? (token, 0 + 1) = none := by simp [oddPiece?, he]
    rw [List.filterMap_cons_none hnone, filterMap_oddPiece?_zipIdx_two, if_pos he]
    rfl
  · have hsome : oddPiece? (token, 0 + 1) = some token := by simp [oddPiece?, he]
    rw [List.filterMap_cons_some hsome, filterMap_oddPiece?_zipIdx_two, if_neg he]
    rfl

theorem quotedStrings_eq_oddPieces {t : Text} (h : quotedAfter false t = false) :
    quotedStrings t = oddPieces t := by
  -- the scan takes two quotes at a time, so the induction goes from one pair to the next
  induction hlen : t.length using Nat.strongRecOn generalizing t with
  | _ n ih =>
    subst hlen
    rcases paired_cases h with ht | ⟨gap, token, more, hg, ht, rfl, hmore⟩
    · rw [quotedStrings_of_not_mem ht, oddPieces_of_not_mem ht]
    · have hi := ih more.length (length_behind_token_lt gap token more) hmore rfl
      rw [quotedStrings_token hg ht, oddPieces_token hg ht, hi]

/-- A list is assigned at the start of the text, with blanks around the `=`, and goes on with
`items`. -/
def OpensList (t items : Text) : Prop :=
  ∃ a b : Gap, t = a.1 ++ '=' :: (b.1 ++ '[' :: items)

def itemsReading (items : Text) : Reading (List Text) :=
  match listEnd false items with
  | none => .endless
  | some rest => .found (quotedStrings (front items 1 rest))

theorem readsShape_readStrings : ReadsShape readStrings OpensList itemsReading := by
  intro t r
  constructor
  · rintro ⟨rfl, hpresent⟩
    cases ha : assigned '[' t with
    | none => simp [readStrings, ha] at hpresent
    | some items =>
      have hread : readStrings t = itemsReading items := by
        rw [readStrings, ha]
        rfl
      exact ⟨items, assigned_gaps ha, hread.symm⟩
  · rintro ⟨items, ⟨a, b, rfl⟩, rfl⟩
    have hsquare : isBlank '[' = false := by decide
    have ha := assigned_of_gaps hsquare a b items
    have hread : readStrings (a.1 ++ '=' :: (b.1 ++ '[' :: items)) = itemsReading items := by
      rw [readStrings, ha]
      rfl
    exact ⟨hread, hread ▸ readStrings_ne_absent ha⟩

theorem EndsBehind.front_eq {items inner rest : Text} (h : EndsBehind items inner rest) :
    front items 1 rest = inner := by
  rw [h.split]
  exact front_append inner [']'] rest

theorem EndsBehind.quotedStrings_eq {items inner rest : Text} (h : EndsBehind items inner rest) :
    quotedStrings inner = oddPieces inner :=
  quotedStrings_eq_oddPieces ((quotedAfter_eq_false_iff inner).mpr h.even)

theorem itemsReading_eq_found_iff {items : Text} {tokens : List Text} :
    itemsReading items = .found tokens ↔
      ∃ inner rest, EndsBehind items inner rest ∧ tokens = oddPieces inner := by
  have hread : ∀ {inner rest}, EndsBehind items inner rest →
      itemsReading items = .found (oddPieces inner) := by
    intro inner rest hends
    rw [itemsReading, listEnd_eq_some_iff.mpr ⟨inner, hends⟩]
    simp only [hends.front_eq, hends.quotedStrings_eq]
  constructor
  · intro h
    cases hl : listEnd false items with
    | none => simp [itemsReading, hl] at h
    | some rest =>
      obtain ⟨inner, hends⟩ := listEnd_eq_some_iff.mp hl
      rw [hread hends] at h
      cases h
      exact ⟨inner, rest, hends, rfl⟩
  · rintro ⟨inner, rest, hends, rfl⟩
    exact hread hends

theorem itemsReading_eq_endless_iff {items : Text} :
    itemsReading items = .endless ↔
      ∀ inner rest, items = inner ++ ']' :: rest → inner.count '"' % 2 = 1 := by
  rw [← listEnd_eq_none_iff, itemsReading]
  cases listEnd false items <;> simp

/-- A name with these texts on its sides is part of a longer path. -/
def LongerPath (before rest : Text) : Prop :=
  endsName before = false ∨ ∃ c ∈ rest.head?, isNameChar c = true

def WithinPaths (name t : Text) : Prop :=
  ∀ before rest, t = before ++ (name ++ rest) → LongerPath before rest

theorem withinPaths_iff {name t : Text} :
    WithinPaths name t ↔ ∀ u ∈ standings name true t, u.head?.any isNameChar = true := by
  constructor
  · intro h u hu
    obtain ⟨before, hb, ht⟩ := mem_standings_iff.mp hu
    rcases h before u ht with hnot | hlonger
    · rw [hb] at hnot
      cases hnot
    · exact (Option.any_eq_true _ _).mpr hlonger
  · intro h before rest ht
    cases hb : endsName before with
    | false => exact .inl hb
    | true =>
      have hany := h rest (mem_standings_iff.mpr ⟨before, hb, ht⟩)
      exact .inr ((Option.any_eq_true _ _).mp hany)

instance (name t : Text) : Decidable (WithinPaths name t) := decidable_of_iff _ withinPaths_iff.symm

theorem assigned_of_head? {opener c : Char} {t : Text} (hc : isNameChar c = true)
    (h : t.head? = some c) : assigned opener t = none := by
  obtain ⟨more, rfl⟩ := List.head?_eq_some_iff.mp h
  have hblank := isBlank_of_isNameChar hc
  have hequals : c ≠ '=' := by
    rintro rfl
    revert hc
    decide
  simp [assigned, hblank, hequals]

theorem WithinPaths.unread {name t : Text} (h : WithinPaths name t) :
    Unread name readStrings t := by
  intro u hu y
  obtain ⟨c, hhead, hc⟩ := (Option.any_eq_true _ _).mp (withinPaths_iff.mp h u hu)
  have hlonger : (u ++ y).head? = some c := by simp [hhead]
  rw [readStrings, assigned_of_head? hc hlonger]

theorem WithinPaths.stringListField_append {name x : Text} (h : WithinPaths name x)
    (hn : IsName name) (hx : endsName x = true) (y : Text) :
    stringListField name (x ++ y) = stringListField name y :=
  readNamed_append_of_unread hn hx h.unread y

theorem not_namedAt_of_longerPath {name t before rest : Text} (ht : t = before ++ (name ++ rest))
    (h : LongerPath before rest) (items : Text) : ¬ NamedAt name OpensList t before items := by
  rintro ⟨hb, tail, hsplit, a, b, hopens⟩
  have htail : tail = rest :=
    List.append_cancel_left (List.append_cancel_left (hsplit.symm.trans ht))
  rcases h with hnot | ⟨c, hhead, hc⟩
  · rw [hb] at hnot
    cases hnot
  · have hsquare : isBlank '[' = false := by decide
    have hassigned := assigned_of_gaps hsquare a b items
    rw [← hopens, htail, assigned_of_head? hc hhead] at hassigned
    cases hassigned

/-- The leftmost list assigned to the name decides. There is none where no list is opened or the
first one never ends; otherwise its strings are the pieces between the quotes up to its end, where
all quotes are paired. Nothing is read where the name is part of a longer path, so options with a
longer path in front of them are of no account to the kernel modules. -/
theorem stringListField_leftmost {name : Text} (hn : IsName name) (t : Text) :
    (stringListField name t = none ↔
      (∀ before items, ¬ NamedAt name OpensList t before items) ∨
        ∃ items, Leftmost (NamedAt name OpensList t) items ∧
          ∀ inner rest, items = inner ++ ']' :: rest → inner.count '"' % 2 = 1) ∧
    (∀ tokens, stringListField name t = some tokens ↔
      ∃ items inner rest, Leftmost (NamedAt name OpensList t) items ∧
        EndsBehind items inner rest ∧ tokens = oddPieces inner) ∧
    (∀ items rest, listEnd false items = some rest →
      (front items 1 rest).count '"' % 2 = 0 ∧
        quotedStrings (front items 1 rest) = oddPieces (front items 1 rest)) ∧
    (∀ before rest, t = before ++ (name ++ rest) → LongerPath before rest →
      ∀ items, ¬ NamedAt name OpensList t before items) ∧
    ∀ x y, endsName x = true → WithinPaths kernelModulesOption x →
      (Boot.ofText (x ++ y)).kernelModules = (Boot.ofText y).kernelModules := by
  refine ⟨?_, fun tokens => ?_, fun items rest hl => ?_,
    fun _ _ ht hlonger => not_namedAt_of_longerPath ht hlonger, ?_⟩
  · rw [stringListField, readsShape_readStrings.readNamed_eq_none_iff hn]
    simp only [itemsReading_eq_endless_iff]
  · rw [stringListField, readsShape_readStrings.readNamed_eq_some_iff hn]
    simp only [itemsReading_eq_found_iff]
    constructor
    · rintro ⟨items, hleft, inner, rest, hends, htokens⟩
      exact ⟨items, inner, rest, hleft, hends, htokens⟩
    · rintro ⟨items, inner, rest, hleft, hends, htokens⟩
      exact ⟨items, hleft, inner, rest, hends, htokens⟩
  · obtain ⟨inner, hends⟩ := listEnd_eq_some_iff.mp hl
    rw [hends.front_eq]
    exact ⟨hends.even, hends.quotedStrings_eq⟩
  · intro x y hx hwithin
    exact hwithin.stringListField_append (by decide) hx y

def longerPaths : Text :=
  "boot.initrd.kernelModules = [ \"dm-snapshot\" ]; my.boot.kernelModules = [ \"a\" ]; ".toList ++
    "boot.kernelModules.extra = [ \"b\" ];\n".toList

def kernelModulesText : Text :=
  "boot.kernelModules = lib.mkForce [ \"c\" ]; ".toList ++
    "boot.kernelModules\n= [ \"kvm-amd\" \"\" \"[é]\"\"kvm-amd\" ]; boot.kernelModules = [ \"d\" ];".toList

theorem stringListField_leftmost_kernelModules :
    IsName kernelModulesOption ∧
    endsName longerPaths = true ∧ WithinPaths kernelModulesOption longerPaths ∧
    (Boot.ofText (longerPaths ++ kernelModulesText)).kernelModules =
      (Boot.ofText kernelModulesText).kernelModules ∧
    ∃ items inner rest,
      Leftmost (NamedAt kernelModulesOption OpensList (longerPaths ++ kernelModulesText)) items ∧
        EndsBehind items inner rest ∧
        ["kvm-amd".toList, "[é]".toList, "kvm-amd".toList] = oddPieces inner := by
  have hn : IsName kernelModulesOption := by decide
  have hends : endsName longerPaths = true := by decide +kernel
  have hwithin : WithinPaths kernelModulesOption longerPaths := by decide +kernel
  obtain ⟨-, hfound, -, -, hskip⟩ :=
    stringListField_leftmost hn (longerPaths ++ kernelModulesText)
  exact ⟨hn, hends, hwithin, hskip _ _ hends hwithin, (hfound _).mp (by decide +kernel)⟩

end MachineFacts
