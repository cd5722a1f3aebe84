import MachineFacts.Proofs.Rests

/-! The readings behind a name and the lookups around them, by places. Each reading takes sound
slices only and comes to what the reading of the characters comes to, and each lookup goes on. -/

namespace MachineFacts

section

variable {sure : Prop} {t before after : Text}

theorem assignedAt_cases (opener : Char) (ht : t = before ++ after) :
    (assigned opener after = none ∧ (assignedAt opener t (byteLength before)).Ends sure none) ∨
      ∃ front rest, assigned opener after = some rest ∧ t = front ++ opener :: rest ∧
        (assignedAt opener t (byteLength before)).Ends sure (some (byteLength front)) := by
  have hends : (assignedAt opener t (byteLength before)).Ends sure _ := ends_assignedAt opener ht
  cases ha : assigned opener after with
  | none => exact .inl ⟨rfl, by simpa [ha] using hends⟩
  | some rest =>
    obtain ⟨gap, rfl⟩ := assigned_split ha
    have hfront : t = (before ++ gap) ++ opener :: rest := by rw [ht, List.append_assoc]
    have hplace : startOf t (opener :: rest) = byteLength (before ++ gap) := by
      rw [hfront, startOf_append]
    rw [ha, Option.map_some, hplace] at hends
    exact .inr ⟨before ++ gap, rest, rfl, hfront, hends⟩

theorem closeBlock_of_closing {rest : Text}
    (h : Bracket.brace.closing .code 1 t = some rest) :
    ∃ inner, t = inner ++ '}' :: rest ∧ closeBlock t = some (inner, rest) := by
  obtain ⟨inner, rfl⟩ := closing_split h
  have hinner : front (inner ++ '}' :: rest) 1 rest = inner := front_append inner ['}'] rest
  refine ⟨inner, rfl, ?_⟩
  rw [closeBlock, h, Option.map_some]
  exact congrArg (fun a => some (a, rest)) hinner

theorem closingAt_brace (ht : t = before ++ '{' :: after) :
    closingAt .brace t (byteLength before) =
      (closeBlock after).map fun block => byteLength before + 1 + byteLength block.1 := by
  have hopen : Bracket.brace.closing .code 0 ('{' :: after) = Bracket.brace.closing .code 1 after :=
    closing_opener .brace after
  rw [ht, closingAt_append, hopen]
  cases hc : Bracket.brace.closing .code 1 after with
  | none =>
    rw [closeBlock, hc]
    rfl
  | some rest =>
    obtain ⟨inner, rfl, hblock⟩ := closeBlock_of_closing hc
    have hplace : startOf (before ++ '{' :: (inner ++ '}' :: rest)) ('}' :: rest) =
        byteLength (before ++ ['{'] ++ inner) := by
      rw [← startOf_append (before ++ ['{'] ++ inner) ('}' :: rest)]
      simp
    rw [hblock]
    refine congrArg some (hplace.trans ?_)
    rw [byteLength_append, byteLength_concat rfl]

theorem ends_readAssignedAt {α : Type} {opener : Char} {readAt : Nat → Scan (Reading α)}
    {reading : Reading α} (ht : t = before ++ after)
    (hnone : assigned opener after = none → reading = .absent)
    (hsome : ∀ front rest, assigned opener after = some rest → t = front ++ opener :: rest →
      (readAt (byteLength front)).Ends sure reading) :
    (readAssignedAt opener t readAt (byteLength before)).Ends sure reading := by
  rcases assignedAt_cases opener ht with ⟨ha, hends⟩ | ⟨front, rest, ha, hfront, hends⟩
  · rw [hnone ha]
    exact hends.bind (Scan.ends_pure _)
  · exact hends.bind (hsome front rest ha hfront)

theorem ends_readBlockAt (ht : t = before ++ after) :
    (readBlockAt t (byteLength before)).Ends sure (readBlock after) := by
  refine ends_readAssignedAt ht (fun ha => by rw [readBlock, ha]) ?_
  intro opening body ha hopening
  refine (ends_closerAt .brace hopening).bind ?_
  rw [readBlock, ha, closingAt_brace hopening]
  dsimp only
  cases hb : closeBlock body with
  | none => exact Scan.ends_pure _
  | some block =>
    rw [closeBlock_split hb] at hopening
    exact (ends_slice_between rfl hopening rfl).bind (Scan.ends_pure _)

theorem ends_readListAt (ht : t = before ++ after) :
    (readListAt t (byteLength before)).Ends sure (readList after) := by
  refine ends_readAssignedAt ht (fun ha => by rw [readList, ha]) ?_
  intro opening items ha hopening
  refine (ends_slice_behind_narrow rfl hopening).bind ?_
  rw [readList, ha]
  dsimp only [Option.bind_some]
  cases hb : behind "];" items with
  | none =>
    rw [offsetOf, hb]
    exact Scan.ends_pure _
  | some rest =>
    obtain ⟨inner, rfl, hoffset⟩ := offsetOf_eq_some hb
    have hinner : front (inner ++ ("];" ++ rest)) 2 rest = inner := front_append inner "];" rest
    rw [hoffset]
    dsimp only
    rw [hinner]
    exact (ends_slice_between rfl hopening rfl).bind (Scan.ends_pure _)

theorem ends_readStringAt (ht : t = before ++ after) :
    (readStringAt t (byteLength before)).Ends sure (readString after) := by
  refine ends_readAssignedAt ht (fun ha => by rw [readString, ha]) ?_
  intro opening body ha hopening
  refine (ends_slice_behind_narrow rfl hopening).bind ?_
  rw [readString, ha]
  dsimp only [Option.bind_some]
  cases hc : cut '"' body with
  | none =>
    rw [offsetOfChar, hc]
    exact Scan.ends_pure _
  | some sides =>
    obtain ⟨value, rest⟩ := sides
    obtain ⟨rfl, -⟩ := cut_eq_some_iff.mp hc
    rw [offsetOfChar, hc]
    dsimp only [Option.map_some]
    cases value with
    | nil => exact Scan.ends_pure _
    | cons c value =>
      rw [if_neg (Nat.ne_of_gt (byteLength_pos (List.cons_ne_nil c value)))]
      exact (ends_slice_between rfl hopening rfl).bind (Scan.ends_pure _)

theorem ends_readStringsAt (ht : t = before ++ after) :
    (readStringsAt t (byteLength before)).Ends sure (readStrings after) := by
  refine ends_readAssignedAt ht (fun ha => by rw [readStrings, ha]) ?_
  intro opening items ha hopening
  refine (ends_slice_behind_narrow rfl hopening).bind ?_
  rw [readStrings, ha]
  dsimp only
  cases hl : listEnd false items with
  | none =>
    rw [listEndAt, hl]
    exact Scan.ends_pure _
  | some rest =>
    obtain ⟨inner, rfl, -, -⟩ := listEnd_split hl
    have hinner : front (inner ++ ']' :: rest) 1 rest = inner := front_append inner [']'] rest
    rw [listEndAt, hl, Option.map_some, startOf_append]
    refine (ends_slice_before rfl rfl).bind ?_
    dsimp only
    rw [hinner]
    exact (ends_quotedStringsAt inner).bind (Scan.ends_pure _)

end

theorem findName_split {name t rest : Text} {fresh : Bool}
    (h : findName name fresh t = some rest) : ∃ skipped, t = skipped ++ (name ++ rest) := by
  induction t generalizing fresh with
  | nil =>
    cases fresh with
    | false => cases h
    | true =>
      have hstart : [] = name ++ rest := strip_eq_some_iff.mp h
      exact ⟨[], hstart⟩
  | cons c t ih =>
    have hlater : ∀ {next}, findName name next t = some rest →
        ∃ skipped, c :: t = skipped ++ (name ++ rest) := fun hn => by
      obtain ⟨skipped, rfl⟩ := ih hn
      exact ⟨c :: skipped, rfl⟩
    rw [findName] at h
    split at h
    · next hs =>
      split at h
      · cases h
        have hstart : c :: t = name ++ rest := strip_eq_some_iff.mp hs
        exact ⟨[], hstart⟩
      · split at h
        · exact hlater h
        · cases h
    · exact hlater h

theorem readNamed_eq {α : Type} {name : Text} (hn : name ≠ []) (read : Text → Reading α)
    (fresh : Bool) (t : Text) :
    readNamed name read fresh t =
      match findName name fresh t with
      | none => none
      | some rest =>
        match read rest with
        | .found value => some value
        | .endless => none
        | .absent => readNamed name read (endsName name) rest := by
  rw [readNamed]
  cases findName name fresh t with
  | none => rfl
  | some rest =>
    dsimp only
    cases read rest with
    | found value => rfl
    | absent => exact dif_neg hn
    | endless => rfl

section

variable {t name before window : Text}

theorem nameAt_cases (hn : name ≠ []) (ht : t = before ++ window) :
    (findName name (endsName before) window = none ∧
      (nameAt t name (byteLength before)).Ends (StartsNarrow name) none) ∨
    ∃ skipped rest, findName name (endsName before) window = some rest ∧
      window = skipped ++ (name ++ rest) ∧
      (nameAt t name (byteLength before)).Ends (StartsNarrow name)
        (some (byteLength (before ++ skipped))) := by
  have hends := ends_nameAt hn ht
  cases hf : findName name (endsName before) window with
  | none => exact .inl ⟨rfl, by simpa [hf] using hends⟩
  | some rest =>
    obtain ⟨skipped, rfl⟩ := findName_split hf
    have hplace : startOf t (name ++ rest) = byteLength (before ++ skipped) := by
      rw [ht, ← List.append_assoc, startOf_append]
    rw [hf, Option.map_some, hplace] at hends
    exact .inr ⟨skipped, rest, rfl, rfl, hends⟩

/-- A lookup reads behind the same occurrences as over the characters. -/
theorem winds_readNamed {α : Type} {readAt : Nat → Scan (Reading α)} {read : Text → Reading α}
    (hread : ∀ front after, t = front ++ after →
      (readAt (byteLength front)).Ends (StartsNarrow name) (read after))
    (hn : name ≠ []) (ht : t = before ++ window) :
    Scan.Winds (readNamedTurn t name readAt) (MovesOn (byteLength t)) (StartsNarrow name)
      (byteLength before) (readNamed name read (endsName before) window) := by
  induction hlen : window.length using Nat.strongRecOn generalizing before window with
  | _ n ih =>
    rw [readNamed_eq hn]
    rcases nameAt_cases hn ht with ⟨hf, hends⟩ | ⟨skipped, rest, hf, rfl, hends⟩
    · rw [hf]
      exact Scan.Ends.winds_done (hends.bind (Scan.ends_pure _))
    · have hbehind : t = (before ++ skipped ++ name) ++ rest := by simp [ht]
      have hturn : (readNamedTurn t name readAt (byteLength before)).Ends (StartsNarrow name)
          ((read rest).turn (byteLength (before ++ skipped ++ name))) := by
        refine hends.bind ?_
        dsimp only
        rw [← byteLength_append]
        exact (hread _ _ hbehind).bind (Scan.ends_pure _)
      rw [hf]
      dsimp only
      cases hr : read rest with
      | found value =>
        rw [hr] at hturn
        exact hturn.winds_done
      | endless =>
        rw [hr] at hturn
        exact hturn.winds_done
      | absent =>
        rw [hr] at hturn
        have hmoves : MovesOn (byteLength t) (byteLength before)
            (byteLength (before ++ skipped ++ name)) := by
          rw [List.append_assoc]
          exact movesOn_append (by rw [ht, List.append_assoc]) (by simp [hn])
        have hlt : rest.length < n := by
          rw [← hlen]
          have hpos := List.length_pos_iff.mpr hn
          simp only [List.length_append]
          omega
        have hrest := ih _ hlt hbehind rfl
        rw [endsName_append_of_ne_nil _ hn] at hrest
        exact hturn.winds_again hmoves hrest

end

end MachineFacts
