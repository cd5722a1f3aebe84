import MachineFacts.Proofs.Seam

/-! Texts that occur in a text, on a boundary or not. An occurrence in two joined texts lies in
one of them unless it has a character on each side of the seam. -/

namespace MachineFacts

theorem strip_isSome_iff {lead t : Text} : (strip lead t).isSome = true ↔ lead <+: t := by
  constructor
  · intro h
    obtain ⟨rest, hrest⟩ := Option.isSome_iff_exists.mp h
    exact ⟨rest, (strip_eq_some_iff.mp hrest).symm⟩
  · rintro ⟨rest, rfl⟩
    rw [strip_append, Option.isSome_some]

theorem occurs_iff {needle t : Text} : occurs needle t = true ↔ needle <:+: t := by
  induction t with
  | nil =>
    rw [occurs, behind, strip_isSome_iff, List.infix_nil, List.prefix_nil]
  | cons c t ih =>
    rw [List.infix_cons_iff, ← ih, ← strip_isSome_iff]
    cases hs : strip needle (c :: t) <;> simp [occurs, behind, hs]

theorem occurs_eq_false_iff {needle t : Text} : occurs needle t = false ↔ ¬ needle <:+: t := by
  rw [← occurs_iff, Bool.not_eq_true]

theorem occurs_append {needle x y : Text}
    (h : ∀ l r, l ≠ [] → r ≠ [] → needle = l ++ r → l <:+ x → ¬ r <+: y) :
    occurs needle (x ++ y) = (occurs needle x || occurs needle y) := by
  rw [Bool.eq_iff_iff, Bool.or_eq_true, occurs_iff, occurs_iff, occurs_iff,
    List.infix_append_iff_ne_nil]
  constructor
  · rintro (hx | hy | ⟨l, r, hl, hr, hlr, hx, hy⟩)
    · exact .inl hx
    · exact .inr hy
    · exact absurd hy (h l r hl hr hlr hx)
  · rintro (hx | hy)
    · exact .inl hx
    · exact .inr (.inl hy)

theorem occurs_append_of_last {needle x : Text} {c : Char} (hx : x.getLast? = some c)
    (hc : c ∉ needle.dropLast) (y : Text) :
    occurs needle (x ++ y) = (occurs needle x || occurs needle y) := by
  refine occurs_append fun l r hl hr hlr hsuffix _ => hc ?_
  obtain ⟨before, rfl⟩ := hsuffix
  have hlast : l.getLast? = some c := by
    cases h : l.getLast? with
    | none => exact absurd (List.getLast?_eq_none_iff.mp h) hl
    | some d => simpa [List.getLast?_append, h] using hx
  rw [hlr, List.dropLast_append_of_ne_nil hr]
  exact List.mem_append_left _ (List.mem_of_getLast? hlast)

theorem occurs_append_of_endsName {needle x : Text} (hn : NameLike needle)
    (hx : endsName x = true) (y : Text) :
    occurs needle (x ++ y) = (occurs needle x || occurs needle y) := by
  cases hl : x.getLast? with
  | none =>
    obtain rfl := List.getLast?_eq_none_iff.mp hl
    rw [List.nil_append, occurs_eq_false_iff.mpr fun h => hn.1 (List.infix_nil.mp h),
      Bool.false_or]
  | some c =>
    refine occurs_append_of_last hl (fun hc => ?_) y
    have hname := hn.2 c hc
    simp [endsName, hl, hname] at hx

theorem occurs_append_of_not_mem {front y : Text} {c : Char} (hy : c ∉ y) (x : Text) :
    occurs (front ++ [c]) (x ++ y) = occurs (front ++ [c]) x := by
  have hsuffix : ∀ {r : Text}, r ≠ [] → r <:+ front ++ [c] → c ∈ r := by
    intro r hr hs
    obtain ⟨before, hbefore⟩ := hs
    have hlast := congrArg List.getLast? hbefore
    rw [List.getLast?_concat, List.getLast?_append] at hlast
    cases h : r.getLast? with
    | none => exact absurd (List.getLast?_eq_none_iff.mp h) hr
    | some d =>
      rw [h, Option.some_or] at hlast
      exact List.mem_of_getLast? (h.trans hlast)
  have hnone : occurs (front ++ [c]) y = false :=
    occurs_eq_false_iff.mpr fun h => hy (h.subset (by simp))
  rw [occurs_append, hnone, Bool.or_false]
  intro l r _ hr hlr _ hlead
  exact hy (hlead.subset (hsuffix hr (hlr ▸ List.suffix_append l r)))

theorem occurs_eq_false_of_lead {lead needle t : Text} (h : occurs lead t = false)
    (hlead : lead <+: needle) : occurs needle t = false :=
  occurs_eq_false_iff.mpr fun hn => occurs_eq_false_iff.mp h (hlead.isInfix.trans hn)

theorem standings_eq_nil_of_occurs {name t : Text} (h : occurs name t = false) (fresh : Bool) :
    standings name fresh t = [] := by
  refine List.eq_nil_iff_forall_not_mem.mpr fun rest hrest => ?_
  obtain ⟨before, rfl⟩ := mem_standings hrest
  exact occurs_eq_false_iff.mp h ⟨before, rest, by simp⟩

theorem findName_of_not_occurs {name t : Text} (hn : StartsNarrow name)
    (h : occurs name t = false) (fresh : Bool) : findName name fresh t = none := by
  rw [findName_eq_head? hn, standings_eq_nil_of_occurs h]
  rfl

theorem behind_append_of_not_occurs {needle x : Text} (h : occurs needle x = false)
    (hx : ∀ c ∈ x.getLast?, c ∉ needle.dropLast) (y : Text) :
    behind needle (x ++ y) = behind needle y := by
  induction x with
  | nil => rfl
  | cons c x ih =>
    obtain ⟨d, hd⟩ : ∃ d, (c :: x).getLast? = some d :=
      Option.isSome_iff_exists.mp (by simp)
    have hstrip : strip needle (c :: x) = none := by
      cases hs : strip needle (c :: x) with
      | none => rfl
      | some rest => simp [occurs, behind, hs] at h
    have hseam : strip needle (c :: (x ++ y)) = none := by
      rw [← List.cons_append, strip_append_of_last hd (hx d hd), hstrip]
      rfl
    have hrest : occurs needle x = false := by simpa [occurs, behind, hstrip] using h
    rw [List.cons_append, behind, hseam]
    refine ih hrest fun e he => hx e ?_
    cases x with
    | nil => simp at he
    | cons a x => exact he

theorem behind_self {needle : Text} (y : Text) : behind needle (needle ++ y) = some y := by
  cases needle with
  | nil => cases y <;> rfl
  | cons a needle => rw [List.cons_append, behind, ← List.cons_append, strip_append]

theorem first_split_unique {needle t x y u v : Text}
    (hx : t = x ++ (needle ++ u)) (hfirst : ∀ z w, t = z ++ (needle ++ w) → x.length ≤ z.length)
    (hy : t = y ++ (needle ++ v)) (hsecond : ∀ z w, t = z ++ (needle ++ w) → y.length ≤ z.length) :
    x = y ∧ u = v := by
  have hlen : x.length = y.length := Nat.le_antisymm (hfirst y v hy) (hsecond x u hx)
  obtain ⟨hxy, hrest⟩ := List.append_inj (hx.symm.trans hy) hlen
  exact ⟨hxy, List.append_cancel_left hrest⟩

theorem behind_first {needle t rest : Text} (h : behind needle t = some rest) :
    ∃ x, t = x ++ (needle ++ rest) ∧ ∀ y u, t = y ++ (needle ++ u) → x.length ≤ y.length := by
  induction t with
  | nil =>
    have ht : [] = needle ++ rest := strip_eq_some_iff.mp h
    exact ⟨[], ht, by simp⟩
  | cons c t ih =>
    cases hs : strip needle (c :: t) with
    | some r =>
      have hr : r = rest := by simpa [behind, hs] using h
      exact ⟨[], by rw [← hr, List.nil_append, strip_eq_some_iff.mp hs], by simp⟩
    | none =>
      obtain ⟨x, rfl, hfirst⟩ := ih (by simpa [behind, hs] using h)
      refine ⟨c :: x, rfl, fun y u hy => ?_⟩
      cases y with
      | nil =>
        have hstart : strip needle (c :: (x ++ (needle ++ rest))) = some u :=
          strip_eq_some_iff.mpr hy
        rw [hs] at hstart
        cases hstart
      | cons d y =>
        have hle := hfirst y u (List.cons.inj hy).2
        simp only [List.length_cons]
        omega

/-- The search stops at the first occurrence. -/
theorem behind_eq_some_iff {needle t rest : Text} :
    behind needle t = some rest ↔
      ∃ x, t = x ++ (needle ++ rest) ∧ ∀ y u, t = y ++ (needle ++ u) → x.length ≤ y.length := by
  constructor
  · exact behind_first
  · rintro ⟨x, ht, hfirst⟩
    have hsome : occurs needle t = true := occurs_iff.mpr ⟨x, rest, by simp [ht]⟩
    obtain ⟨other, hother⟩ := Option.isSome_iff_exists.mp hsome
    obtain ⟨y, hy, hsecond⟩ := behind_first hother
    obtain ⟨-, rfl⟩ := first_split_unique ht hfirst hy hsecond
    exact hother

/-- No proper end of the text is also a start of it. -/
def Borderless (needle : Text) : Prop :=
  ∀ k < needle.length, 0 < k → ¬ needle.drop k <+: needle

instance (needle : Text) : Decidable (Borderless needle) :=
  inferInstanceAs (Decidable (∀ k < needle.length, _))

/-- Two occurrences of a text without borders do not overlap. -/
theorem Borderless.apart {needle x y u v : Text} (hb : Borderless needle)
    (h : x ++ (needle ++ u) = y ++ (needle ++ v)) (hlt : x.length < y.length) :
    x.length + needle.length ≤ y.length := by
  refine Nat.le_of_not_lt fun hgt => ?_
  have hprefix : x <+: y :=
    List.prefix_of_prefix_length_le ⟨_, rfl⟩ ⟨_, h.symm⟩ (Nat.le_of_lt hlt)
  obtain ⟨m, rfl⟩ := hprefix
  rw [List.length_append] at hlt hgt
  have hrest : needle ++ u = m ++ (needle ++ v) := by
    rw [List.append_assoc] at h
    exact List.append_cancel_left h
  have hm : m <+: needle :=
    List.prefix_of_prefix_length_le ⟨_, hrest.symm⟩ ⟨_, rfl⟩ (by omega)
  obtain ⟨n, rfl⟩ := hm
  rw [List.append_assoc] at hrest
  have hstart : n <+: (m ++ n) :=
    List.prefix_of_prefix_length_le ⟨_, List.append_cancel_left hrest⟩ ⟨_, rfl⟩ (by simp)
  refine hb m.length (by omega) (by omega) ?_
  rw [List.drop_left]
  exact hstart

/-- Before the first occurrence of a text without borders there is none, not even in part. -/
theorem Borderless.behind_eq_some_iff {needle t rest : Text} (hb : Borderless needle)
    (hne : needle ≠ []) :
    behind needle t = some rest ↔ ∃ x, t = x ++ (needle ++ rest) ∧ ¬ needle <:+: x := by
  have hpos := List.length_pos_iff.mpr hne
  rw [MachineFacts.behind_eq_some_iff]
  refine exists_congr fun x => and_congr_right fun ht => ?_
  constructor
  · rintro hfirst ⟨a, b, rfl⟩
    have hle := hfirst a (b ++ (needle ++ rest)) (by simp [ht])
    simp only [List.length_append] at hle
    omega
  · intro hnone y u hy
    refine Nat.le_of_not_lt fun hlt => ?_
    have hsplit := hy.symm.trans ht
    have hapart := hb.apart hsplit hlt
    rw [← List.append_assoc] at hsplit
    have hin : y ++ needle <+: x :=
      List.prefix_of_prefix_length_le ⟨_, hsplit⟩ ⟨_, rfl⟩ (by rw [List.length_append]; omega)
    exact hnone ((List.suffix_append y needle).isInfix.trans hin.isInfix)

end MachineFacts
