import MachineFacts.Proofs.Cursor
import MachineFacts.Proofs.Imports

/-! The scans of a text from left to right that keep the rest of it: the pairing of quotes and the
search for profiles. Each turn leaves a shorter rest. -/

namespace MachineFacts

/-- The text that is left becomes shorter. -/
def Shortens {α : Type} (u v : Text × α) : Prop := byteLength v.1 < byteLength u.1

theorem toList_filter_ne_nil (t : Text) :
    ((some t).filter (· ≠ [])).toList = if t = [] then [] else [t] := by
  cases t <;> rfl

theorem ends_quotedStringsTurn {sure : Prop} {t gap token rest : Text}
    (ho : cut '"' t = some (gap, token ++ '"' :: rest))
    (hc : cut '"' (token ++ '"' :: rest) = some (token, rest)) (tokens : List Text) :
    (quotedStringsTurn (t, tokens)).Ends sure
      (.again (rest, tokens ++ if token = [] then [] else [token])) := by
  have hgap : t = gap ++ '"' :: (token ++ '"' :: rest) := (cut_eq_some_iff.mp ho).1
  rw [quotedStringsTurn, offsetOfChar, ho]
  refine (ends_slice_behind_narrow rfl hgap).bind ?_
  dsimp only [Option.getD_some]
  rw [offsetOfChar, hc]
  refine (ends_slice_before rfl rfl).bind ((ends_slice_behind_narrow rfl rfl).bind ?_)
  rw [toList_filter_ne_nil]
  exact Scan.ends_pure _

theorem winds_quotedStrings (sure : Prop) (t : Text) (tokens : List Text) :
    Scan.Winds quotedStringsTurn Shortens sure (t, tokens) (tokens ++ quotedStrings t) := by
  induction hlen : t.length using Nat.strongRecOn generalizing t tokens with
  | _ n ih =>
    rw [quotedStrings_eq]
    cases ho : cut '"' t with
    | none =>
      refine Scan.Ends.winds_done ?_
      rw [quotedStringsTurn, offsetOfChar, ho, List.append_nil]
      exact Scan.ends_pure _
    | some sides =>
      obtain ⟨gap, opened⟩ := sides
      have hgap : t = gap ++ '"' :: opened := (cut_eq_some_iff.mp ho).1
      dsimp only
      cases hc : cut '"' opened with
      | none =>
        refine Scan.Ends.winds_done ?_
        rw [quotedStringsTurn, offsetOfChar, ho, List.append_nil]
        refine (ends_slice_behind_narrow rfl hgap).bind ?_
        dsimp only [Option.getD_some]
        rw [offsetOfChar, hc]
        exact Scan.ends_pure _
      | some sides =>
        obtain ⟨token, rest⟩ := sides
        obtain ⟨rfl, -⟩ := cut_eq_some_iff.mp hc
        have hshorter : byteLength rest < byteLength t := by
          simp only [hgap, byteLength_append, byteLength_cons]
          have hpos := Char.utf8Size_pos '"'
          omega
        have hlt : rest.length < n := by
          rw [← hlen, hgap]
          exact length_behind_token_lt gap token rest
        dsimp only
        rw [← List.append_assoc]
        exact (ends_quotedStringsTurn ho hc tokens).winds_again hshorter (ih _ hlt _ _ rfl)

theorem ends_quotedStringsAt {sure : Prop} (t : Text) :
    (quotedStringsAt t).Ends sure (quotedStrings t) := (winds_quotedStrings sure t []).ends

theorem ends_profileNamesTurn {sure : Prop} {t skipped rest : Text}
    (hb : behind profilePath t = some rest) (ht : t = skipped ++ (profilePath ++ rest))
    (names : List Text) :
    (profileNamesTurn (t, names)).Ends sure
      (.again (rest.dropWhile isProfileChar,
        names ++
          if rest.takeWhile isProfileChar = [] then [] else [rest.takeWhile isProfileChar])) := by
  have hoffset : offsetOf profilePath t = some (byteLength skipped) := by
    rw [offsetOf, hb, Option.map_some, ht, startOf_append]
  have hbehind : t = (skipped ++ profilePath) ++ rest := by rw [ht, List.append_assoc]
  have hrest : rest = rest.takeWhile isProfileChar ++ rest.dropWhile isProfileChar :=
    List.takeWhile_append_dropWhile.symm
  rw [profileNamesTurn, hoffset]
  refine (ends_slice_behind hbehind (byteLength_append _ _)).bind ?_
  dsimp only [Option.getD_some]
  refine (ends_slice_before hrest rfl).bind ((ends_slice_behind hrest rfl).bind ?_)
  rw [toList_filter_ne_nil]
  exact Scan.ends_pure _

theorem winds_profileNames (sure : Prop) (t : Text) (names : List Text) :
    Scan.Winds profileNamesTurn Shortens sure (t, names) (names ++ profileNames t) := by
  induction hlen : t.length using Nat.strongRecOn generalizing t names with
  | _ n ih =>
    rw [profileNames_eq]
    cases hb : behind profilePath t with
    | none =>
      refine Scan.Ends.winds_done ?_
      rw [profileNamesTurn, offsetOf, hb, List.append_nil]
      exact Scan.ends_pure _
    | some rest =>
      obtain ⟨skipped, ht, -⟩ := behind_first hb
      have hle : (rest.dropWhile isProfileChar).length ≤ rest.length :=
        (List.dropWhile_suffix isProfileChar).length_le
      have hlt : (rest.dropWhile isProfileChar).length < n := by
        have hlen' := behind_length hb
        have hpos : 0 < profilePath.length := by decide
        omega
      have hshorter : byteLength (rest.dropWhile isProfileChar) < byteLength t := by
        have hpos : 0 < byteLength profilePath := by decide
        have hsides := congrArg byteLength
          (List.takeWhile_append_dropWhile (p := isProfileChar) (l := rest))
        rw [byteLength_append] at hsides
        rw [ht, byteLength_append, byteLength_append]
        omega
      dsimp only
      rw [← List.append_assoc]
      exact (ends_profileNamesTurn hb ht names).winds_again hshorter (ih _ hlt _ _ rfl)

end MachineFacts
