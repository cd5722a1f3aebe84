import MachineFacts.Proofs.Reading

/-! The scan for declarations, one equation for each thing it can meet. A text in which every key
and every block is closed adds its declarations in front of those of whatever follows. -/

namespace MachineFacts

theorem declarations_of_none {attr t : Text} {fresh : Bool}
    (h : findName (attr ++ ".\"") fresh t = none) : declarations attr fresh t = [] := by
  rw [declarations]
  split
  · rfl
  · simp_all

theorem declarations_of_openKey {attr t quoted : Text} {fresh : Bool}
    (h : findName (attr ++ ".\"") fresh t = some quoted) (hc : cut '"' quoted = none) :
    declarations attr fresh t = [.openKey] := by
  rw [declarations]
  split
  · simp_all
  · next q hq =>
    cases hq.symm.trans h
    split <;> simp_all

theorem declarations_of_key {attr t quoted key rest : Text} {fresh : Bool}
    (h : findName (attr ++ ".\"") fresh t = some quoted)
    (hc : cut '"' quoted = some (key, rest)) :
    declarations attr fresh t =
      if key = [] then declarations attr true rest
      else
        match assigned '{' rest with
        | none => declarations attr true rest
        | some body =>
          match closeBlock body with
          | none => .openBlock key :: declarations attr true rest
          | some (inner, behind) =>
            (if inner = [] then .emptyBlock key else .block key inner) ::
              declarations attr true behind := by
  rw [declarations]
  split
  · simp_all
  · next q hq =>
    cases hq.symm.trans h
    split
    · simp_all
    · next hr =>
      cases hr.symm.trans hc
      simp
    · next a k r hr =>
      cases hr.symm.trans hc
      simp only [reduceCtorEq, if_false]
      split
      · simp_all
      · next b hb => split <;> simp_all

def Declaration.isOpen : Declaration → Bool
  | .openKey | .openBlock _ => true
  | .block _ _ | .emptyBlock _ => false

theorem nameLike_introducer {attr : Text} (h : IsName attr) : NameLike (attr ++ ".\"") := by
  refine ⟨by simp, fun c hc => ?_⟩
  rw [show attr ++ ".\"".toList = (attr ++ ['.']) ++ ['"'] by simp, List.dropLast_concat] at hc
  rcases List.mem_append.mp hc with hc | hc
  · exact h.2 c hc
  · rw [List.mem_singleton.mp hc]
    rfl

theorem startsNarrow_introducer {attr : Text} (h : IsName attr) :
    StartsNarrow (attr ++ ".\"") := by
  obtain ⟨c, rest, rfl, hc⟩ := h.startsNarrow
  exact ⟨c, rest ++ ".\"".toList, rfl, hc⟩

theorem declarations_congr {attr t u : Text} {fresh refresh : Bool}
    (h : findName (attr ++ ".\"") fresh t = findName (attr ++ ".\"") refresh u) :
    declarations attr fresh t = declarations attr refresh u := by
  cases ht : findName (attr ++ ".\"") fresh t with
  | none => rw [declarations_of_none ht, declarations_of_none (h.symm.trans ht)]
  | some quoted =>
    have hu := h.symm.trans ht
    cases hc : cut '"' quoted with
    | none => rw [declarations_of_openKey ht hc, declarations_of_openKey hu hc]
    | some sides => rw [declarations_of_key ht hc, declarations_of_key hu hc]

theorem declarations_append_of_none {attr x : Text} (ha : IsName attr) (hx : endsName x = true)
    (h : findName (attr ++ ".\"") true x = none) (y : Text) :
    declarations attr true (x ++ y) = declarations attr true y := by
  refine declarations_congr ?_
  rw [findName_append (nameLike_introducer ha) (startsNarrow_introducer ha) hx, h]
  rfl

theorem declarations_append_of_key {attr x quoted key rest : Text} (ha : IsName attr)
    (hx : endsName x = true) (hf : findName (attr ++ ".\"") true x = some quoted)
    (hc : cut '"' quoted = some (key, rest)) (y : Text) :
    declarations attr true (x ++ y) =
      if key = [] then declarations attr true (rest ++ y)
      else
        match assigned '{' (rest ++ y) with
        | none => declarations attr true (rest ++ y)
        | some body =>
          match closeBlock body with
          | none => .openBlock key :: declarations attr true (rest ++ y)
          | some (inner, behind) =>
            (if inner = [] then .emptyBlock key else .block key inner) ::
              declarations attr true behind := by
  have hfind : findName (attr ++ ".\"") true (x ++ y) = some (quoted ++ y) := by
    rw [findName_append (nameLike_introducer ha) (startsNarrow_introducer ha) hx, hf]
    rfl
  exact declarations_of_key hfind (cut_append hc y)

theorem key_split {attr x quoted key rest : Text} {fresh : Bool} (ha : IsName attr)
    (hf : findName (attr ++ ".\"") fresh x = some quoted)
    (hc : cut '"' quoted = some (key, rest)) : ∃ before, x = (before ++ ['"']) ++ rest := by
  rw [findName_eq_head? (startsNarrow_introducer ha)] at hf
  obtain ⟨before, rfl⟩ := mem_standings (List.mem_of_mem_head? hf)
  obtain ⟨rfl, -⟩ := cut_eq_some_iff.mp hc
  exact ⟨before ++ (attr ++ ".\"" ++ key), by simp⟩

theorem block_split {rest body inner behind : Text} (hb : assigned '{' rest = some body)
    (hc : closeBlock body = some (inner, behind)) : ∃ before, rest = before ++ behind := by
  obtain ⟨gap, rfl⟩ := assigned_split hb
  rw [closeBlock_split hc]
  exact ⟨gap ++ '{' :: (inner ++ ['}']), by simp⟩

/-- Closed declarations do not depend on what follows. -/
theorem declarations_append {attr x : Text} (ha : IsName attr) (hx : Sealed x)
    (hq : x.getLast? ≠ some '"') (hopen : ∀ d ∈ declarations attr true x, d.isOpen = false)
    (y : Text) :
    declarations attr true (x ++ y) = declarations attr true x ++ declarations attr true y := by
  induction hlen : x.length using Nat.strongRecOn generalizing x with
  | _ n ih =>
    subst hlen
    -- What a step leaves of `x` is shorter and ends as `x` does.
    have step : ∀ {a b}, x = a ++ b → b.length < x.length →
        (∀ d ∈ declarations attr true b, d.isOpen = false) →
        declarations attr true (b ++ y) =
          declarations attr true b ++ declarations attr true y := by
      intro a b hab hb hd
      refine ih b.length hb (Sealed.of_append (hab ▸ hx)) (fun he => hq ?_) hd rfl
      simp [hab, List.getLast?_append, he]
    cases hf : findName (attr ++ ".\"") true x with
    | none =>
      rw [declarations_of_none hf, List.nil_append,
        declarations_append_of_none ha hx.endsName hf]
    | some quoted =>
      have hfound := findName_length hf
      cases hc : cut '"' quoted with
      | none => simp [declarations_of_openKey hf hc, Declaration.isOpen] at hopen
      | some sides =>
        obtain ⟨key, rest⟩ := sides
        have hcut := cut_length hc
        obtain ⟨before, hrest⟩ := key_split ha hf hc
        rw [declarations_of_key hf hc] at hopen ⊢
        rw [declarations_append_of_key ha hx.endsName hf hc]
        have hu : undecided rest = false :=
          undecided_of_sealed (Sealed.of_append (hrest ▸ hx)) fun he => hq (by
            rw [hrest, he, List.append_nil, List.getLast?_concat])
        by_cases hk : key = []
        · rw [if_pos hk] at hopen ⊢
          rw [if_pos hk]
          exact step hrest (by omega) hopen
        · rw [if_neg hk] at hopen ⊢
          rw [if_neg hk, assigned_append hu]
          cases hb : assigned '{' rest with
          | none =>
            simp only [hb] at hopen
            exact step hrest (by omega) hopen
          | some body =>
            have hbody := assigned_length hb
            cases hcl : closeBlock body with
            | none => simp [hb, hcl, Declaration.isOpen] at hopen
            | some block =>
              obtain ⟨inner, behind⟩ := block
              have hbehind := closeBlock_length hcl
              obtain ⟨gap, hgap⟩ := block_split hb hcl
              simp only [hb, hcl, List.mem_cons, forall_eq_or_imp] at hopen
              simp only [Option.map_some, hcl, closeBlock_append hcl y, List.cons_append]
              have hblock : x = (before ++ ['"'] ++ gap) ++ behind := by simp [hrest, hgap]
              rw [step hblock (by omega) hopen.2]

end MachineFacts
