import MachineFacts.Mounts

/-! Looking up mount points in maps that are built by putting entries one after another. A map is
determined by what it answers, so two ways to build one are compared by their answers. -/

namespace MachineFacts

theorem lookup_cons_eq_ite {α : Type} (key : Text) (e : Text × α) (es : List (Text × α)) :
    (e :: es).lookup key = if key = e.1 then some e.2 else es.lookup key := by
  rw [List.lookup_cons]
  by_cases h : key = e.1
  · rw [if_pos h, beq_iff_eq.mpr h]
  · rw [if_neg h, beq_eq_false_iff_ne.mpr h]

theorem lookup_insertEntry (mount other : Text) (entry : Entry) (es : List (Text × Entry)) :
    (insertEntry mount entry es).lookup other =
      if other = mount then some entry else es.lookup other := by
  induction es with
  | nil => simp [insertEntry, lookup_cons_eq_ite]
  | cons e es ih =>
    simp only [insertEntry]
    split
    · next hm =>
      simp only [lookup_cons_eq_ite, ← hm]
      split <;> rfl
    · next hm =>
      split
      · rw [lookup_cons_eq_ite]
      · rw [lookup_cons_eq_ite, lookup_cons_eq_ite, ih]
        by_cases he : other = e.1
        · have hne : other ≠ mount := fun h => hm (h.symm.trans he)
          rw [if_pos he, if_pos he, if_neg hne]
        · rw [if_neg he, if_neg he]

theorem Mounts.get?_put (m : Mounts) (mount other : Text) (entry : Entry) :
    (m.put mount entry).get? other = if other = mount then some entry else m.get? other :=
  lookup_insertEntry mount other entry m.entries

theorem lookup_eq_none_of_lt {es : List (Text × Entry)} {mount : Text}
    (h : ∀ e ∈ es, mount < e.1) : es.lookup mount = none := by
  refine List.lookup_eq_none_iff.mpr fun e he => bne_iff_ne.mpr fun hm => ?_
  exact List.lt_irrefl mount (hm ▸ h e he)

theorem lookup_cons_eq_none_of_lt {e : Text × Entry} {es : List (Text × Entry)} {mount : Text}
    (he : Ascending (e :: es)) (h : mount < e.1) : (e :: es).lookup mount = none := by
  refine lookup_eq_none_of_lt fun f hf => ?_
  rcases List.mem_cons.mp hf with rfl | hf
  · exact h
  · exact List.lt_trans h ((List.pairwise_cons.mp he).1 f hf)

theorem Ascending.eq_of_lookup {es fs : List (Text × Entry)} (he : Ascending es)
    (hf : Ascending fs) (h : ∀ mount, es.lookup mount = fs.lookup mount) : es = fs := by
  induction es generalizing fs with
  | nil =>
    cases fs with
    | nil => rfl
    | cons f fs => simpa [lookup_cons_eq_ite] using h f.1
  | cons e es ih =>
    cases fs with
    | nil => simpa [lookup_cons_eq_ite] using h e.1
    | cons f fs =>
      have hkey : e.1 = f.1 := by
        by_cases heq : e.1 = f.1
        · exact heq
        · by_cases hlt : e.1 < f.1
          · have hk := h e.1
            rw [lookup_cons_eq_none_of_lt hf hlt, lookup_cons_eq_ite, if_pos rfl] at hk
            cases hk
          · have hk := h f.1
            rw [lookup_cons_eq_none_of_lt he (text_lt_of_not_lt heq hlt), lookup_cons_eq_ite,
              if_pos rfl] at hk
            cases hk
      obtain ⟨hee, hes⟩ := List.pairwise_cons.mp he
      obtain ⟨hff, hfs⟩ := List.pairwise_cons.mp hf
      have hval : e.2 = f.2 := by
        simpa [lookup_cons_eq_ite, hkey] using h e.1
      have hrest : es = fs := ih hes hfs fun mount => by
        by_cases hm : mount = e.1
        · rw [hm, lookup_eq_none_of_lt hee, hkey, lookup_eq_none_of_lt hff]
        · simpa [lookup_cons_eq_ite, hm, ← hkey] using h mount
      rw [Prod.ext hkey hval, hrest]

theorem Mounts.ext_get? {a b : Mounts} (h : ∀ mount, a.get? mount = b.get? mount) : a = b := by
  obtain ⟨es, he⟩ := a
  obtain ⟨fs, hf⟩ := b
  cases Ascending.eq_of_lookup he hf h
  rfl

def Mounts.override (a b : Mounts) : Mounts :=
  b.entries.foldl (fun m e => m.put e.1 e.2) a

theorem get?_foldl_put (es : List (Text × Entry)) (m : Mounts) (mount : Text) :
    (es.foldl (fun m e => m.put e.1 e.2) m).get? mount =
      (es.reverse.lookup mount).or (m.get? mount) := by
  induction es generalizing m with
  | nil => rfl
  | cons e es ih =>
    rw [List.foldl_cons, ih, Mounts.get?_put, List.reverse_cons, List.lookup_append,
      lookup_cons_eq_ite, Option.or_assoc]
    split <;> simp

theorem Mounts.get?_ofList (es : List (Text × Entry)) (mount : Text) :
    (Mounts.ofList es).get? mount = es.reverse.lookup mount := by
  rw [Mounts.ofList, get?_foldl_put]
  exact Option.or_none

theorem Ascending.lookup_reverse {es : List (Text × Entry)} (h : Ascending es) (mount : Text) :
    es.reverse.lookup mount = es.lookup mount := by
  induction es with
  | nil => rfl
  | cons e es ih =>
    obtain ⟨he, hes⟩ := List.pairwise_cons.mp h
    rw [List.reverse_cons, List.lookup_append, ih hes, lookup_cons_eq_ite, lookup_cons_eq_ite]
    split
    · next hm => rw [hm, lookup_eq_none_of_lt he, Option.none_or]
    · simp

theorem Mounts.get?_override (a b : Mounts) (mount : Text) :
    (a.override b).get? mount = (b.get? mount).or (a.get? mount) := by
  rw [Mounts.override, get?_foldl_put, b.ascending.lookup_reverse]
  rfl

theorem Mounts.ofList_append (es fs : List (Text × Entry)) :
    Mounts.ofList (es ++ fs) = (Mounts.ofList es).override (Mounts.ofList fs) := by
  refine Mounts.ext_get? fun mount => ?_
  rw [Mounts.get?_override, Mounts.get?_ofList, Mounts.get?_ofList, Mounts.get?_ofList,
    List.reverse_append, List.lookup_append]

end MachineFacts
