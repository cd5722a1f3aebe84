import MachineFacts.Proofs.Leftmost
import MachineFacts.Proofs.Body

/-! Values assigned to a name, by the shape they have in the text. A field is the leftmost
assignment of its shape, and what does not have the shape is passed over. -/

namespace MachineFacts

theorem assigned_gaps {opener : Char} {t rest : Text} (h : assigned opener t = some rest) :
    ∃ a b : Gap, t = a.1 ++ '=' :: (b.1 ++ opener :: rest) := by
  obtain ⟨a, b, ha, hb, ht⟩ := assigned_blanks h
  exact ⟨⟨a, ha⟩, ⟨b, hb⟩, ht⟩

theorem Gap.dropWhile_append (g : Gap) {c : Char} (hc : isBlank c = false) (t : Text) :
    (g.1 ++ c :: t).dropWhile isBlank = c :: t := by
  rw [List.dropWhile_append_of_pos g.2, List.dropWhile_cons_of_neg (by simp [hc])]

theorem assigned_of_gaps {opener : Char} (ho : isBlank opener = false) (a b : Gap) (rest : Text) :
    assigned opener (a.1 ++ '=' :: (b.1 ++ opener :: rest)) = some rest := by
  have hequals : isBlank '=' = false := by decide
  simp only [assigned, a.dropWhile_append hequals, b.dropWhile_append ho, if_true]

/-- A string that is not empty is assigned at the start of the text, with blanks around the `=`. -/
def AssignsString (t v : Text) : Prop :=
  v ≠ [] ∧ '"' ∉ v ∧
    ∃ (a b : Gap) (rest : Text), t = a.1 ++ '=' :: (b.1 ++ '"' :: (v ++ '"' :: rest))

theorem readString_eq_found_iff {t v : Text} : readString t = .found v ↔ AssignsString t v := by
  constructor
  · intro h
    unfold readString at h
    split at h
    · cases h
    · next body ha =>
      obtain ⟨a, b, rfl⟩ := assigned_gaps ha
      split at h
      · cases h
      · cases h
      · next c value rest hc =>
        cases h
        obtain ⟨rfl, hv⟩ := cut_eq_some_iff.mp hc
        exact ⟨by simp, hv, a, b, rest, rfl⟩
  · rintro ⟨hne, hv, a, b, rest, rfl⟩
    have hquote : isBlank '"' = false := by decide
    have hc : cut '"' (v ++ '"' :: rest) = some (v, rest) := cut_eq_some_iff.mpr ⟨rfl, hv⟩
    obtain ⟨c, value, rfl⟩ := List.exists_cons_of_ne_nil hne
    simp only [readString, assigned_of_gaps hquote, hc]

theorem Gap.count_quote (g : Gap) : g.1.count '"' = 0 :=
  List.count_eq_zero.mpr (Gap.not_mem g (by decide))

theorem AssignsString.two_quotes {t v : Text} (h : AssignsString t v) : 2 ≤ t.count '"' := by
  obtain ⟨-, -, a, b, rest, rfl⟩ := h
  simp [List.count_append]
  omega

theorem one_quote_of_endless {t : Text} (h : readString t = .endless) : t.count '"' = 1 := by
  unfold readString at h
  split at h
  · cases h
  · next body ha =>
    obtain ⟨a, b, rfl⟩ := assigned_gaps ha
    split at h
    · next hc =>
      have hbody := List.count_eq_zero.mpr (cut_eq_none_iff.mp hc)
      simp [List.count_append, Gap.count_quote, hbody]
    · cases h
    · cases h

/-- With `before` in front of it, the name stands on a boundary in `t`, and the string `v`, not
an empty one, is assigned to it. -/
def StringGiven (name t before v : Text) : Prop :=
  endsName before = true ∧ ∃ rest, t = before ++ (name ++ rest) ∧ AssignsString rest v

theorem stringGiven_iff {name t before v : Text} :
    StringGiven name t before v ↔ ReadsAt name readString t before (.found v) := by
  simp only [StringGiven, ReadsAt, readString_eq_found_iff]

/-- A string that never ends leaves no quote for another one behind it. -/
theorem StringGiven.not_behind_endless {name t before other v : Text}
    (h : StringGiven name t other v) (hend : ReadsAt name readString t before .endless) :
    other.length < before.length := by
  by_contra hle
  obtain ⟨-, rest, ht, hassigns⟩ := h
  obtain ⟨-, u, hu, hendless⟩ := hend
  have hlen := (length_le_iff_of_split hu ht).mp (Nat.le_of_not_lt hle)
  have hrest : rest <:+ t := ⟨other ++ name, by simp [ht]⟩
  have hbehind : u <:+ t := ⟨before ++ name, by simp [hu]⟩
  have hsuffix : rest <:+ u := List.suffix_of_suffix_length_le hrest hbehind hlen
  have htwo := hassigns.two_quotes
  have hone := one_quote_of_endless hendless
  have hcount := hsuffix.sublist.count_le '"'
  omega

theorem leftmost_stringGiven_iff {name t v : Text} :
    Leftmost (fun before r => ReadsAt name readString t before r ∧ r ≠ .absent) (.found v) ↔
      Leftmost (StringGiven name t) v := by
  constructor
  · rintro ⟨before, ⟨hreads, -⟩, hmin⟩
    refine ⟨before, stringGiven_iff.mpr hreads, fun other b ho => ?_⟩
    exact hmin other (.found b) ⟨stringGiven_iff.mp ho, by simp⟩
  · rintro ⟨before, hgiven, hmin⟩
    refine ⟨before, ⟨stringGiven_iff.mp hgiven, by simp⟩, ?_⟩
    rintro other r ⟨hreads, hpresent⟩
    cases r with
    | absent => exact absurd rfl hpresent
    | found b => exact hmin other b (stringGiven_iff.mpr hreads)
    | endless => exact Nat.le_of_lt (hgiven.not_behind_endless hreads)

/-- A field is the value at the leftmost place where a string that is not empty is assigned to its
name, and it is missing only where there is none. -/
theorem stringField_leftmost {name : Text} (hn : IsName name) (t : Text) :
    (∀ v, stringField name t = some v ↔ Leftmost (StringGiven name t) v) ∧
    (stringField name t = none ↔ ∀ before v, ¬ StringGiven name t before v) := by
  have hsome : ∀ v, stringField name t = some v ↔ Leftmost (StringGiven name t) v := fun v =>
    (readNamed_eq_some_iff hn readString t v).trans leftmost_stringGiven_iff
  refine ⟨hsome, fun hnone before v hgiven => ?_, fun h => ?_⟩
  · obtain ⟨w, hw⟩ := exists_leftmost hgiven
    cases hnone.symm.trans ((hsome w).mpr hw)
  · cases hf : stringField name t with
    | none => rfl
    | some v =>
      obtain ⟨before, hgiven, -⟩ := (hsome v).mp hf
      exact absurd hgiven (h before v)

theorem stringField_leftmost_device :
    IsName "device" ∧
    Leftmost (StringGiven "device"
      "my-device = \"/dev/sda\"; device = \"\"; device =\n\"/dev/sdb\"; device = \"")
      "/dev/sdb" := by
  have hn : IsName "device" := by decide
  exact ⟨hn, ((stringField_leftmost hn _).1 _).mp (by decide +kernel)⟩

end MachineFacts
