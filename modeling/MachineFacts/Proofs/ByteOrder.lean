import MachineFacts.Mounts
import MachineFacts.Proofs.Encoding

/-! Texts in the order of their bytes. Of two characters the larger one has the larger byte where
their bytes first differ, so texts are in the same order by characters and by bytes. -/

namespace MachineFacts

theorem utf8EncodeChar_append_lt {c d : Char} (h : c < d) (u v : List UInt8) :
    String.utf8EncodeChar c ++ u < String.utf8EncodeChar d ++ v := by
  have hlt : c.val.toNat < d.val.toNat := h
  have hmax := codePoint_lt d
  unfold String.utf8EncodeChar
  generalize c.val.toNat = m at *
  generalize d.val.toNat = n at *
  dsimp only
  -- one case for each pair of lengths, and in it the bytes are compared one after another
  repeat' split
  all_goals
    simp (disch := omega) only [List.cons_append, List.nil_append, List.cons_lt_cons_iff,
      UInt8.lt_iff_toNat_lt, ← UInt8.toNat_inj, UInt8.toNat_ofNat', Nat.mod_eq_of_lt]
    omega

theorem bytes_lt_of_lt {s t : Text} (h : s < t) : bytes s < bytes t := by
  induction s generalizing t with
  | nil =>
    cases t with
    | nil => cases h
    | cons d t =>
      have hne : String.utf8EncodeChar d ≠ [] := by
        have hlen := String.length_utf8EncodeChar d
        have hpos := d.utf8Size_pos
        exact List.ne_nil_of_length_pos (by omega)
      obtain ⟨b, more, hbytes⟩ := List.exists_cons_of_ne_nil hne
      rw [bytes, bytes, List.flatMap_nil, List.flatMap_cons, hbytes]
      exact List.nil_lt_cons b (more ++ t.flatMap String.utf8EncodeChar)
  | cons c s ih =>
    cases t with
    | nil => cases h
    | cons d t =>
      rw [bytes, bytes, List.flatMap_cons, List.flatMap_cons]
      rcases List.cons_lt_cons_iff.mp h with hlt | ⟨rfl, hlt⟩
      · exact utf8EncodeChar_append_lt hlt _ _
      · exact List.append_left_lt (ih hlt)

theorem bytes_lt_iff {s t : Text} : bytes s < bytes t ↔ s < t := by
  refine ⟨fun h => ?_, bytes_lt_of_lt⟩
  by_cases hst : s < t
  · exact hst
  · have hne : s ≠ t := by
      rintro rfl
      exact List.lt_irrefl (bytes s) h
    have hts : bytes t < bytes s := bytes_lt_of_lt (text_lt_of_not_lt hne hst)
    exact absurd (List.lt_trans h hts) (List.lt_irrefl (bytes s))

end MachineFacts
