import MachineFacts.Proofs.Declarations
import MachineFacts.Proofs.Places

/-! The scan for declarations by places. Behind a key it goes on at the closing quote or at the end
of the block, so it meets the same blocks as over the characters. -/

namespace MachineFacts

/-- The block that is assigned to a key, by what stands behind the key, and the text behind it. -/
def blockBehind (key rest : Text) : Option (Text × Text) :=
  if key = [] then none else (assigned '{' rest).bind closeBlock

def blockEntry (key inner : Text) : List (Text × Text) :=
  if inner = [] then [] else [(key, inner)]

theorem blocks_of_key {attr t quoted key rest : Text} {fresh : Bool}
    (hf : findName (attr ++ ".\"") fresh t = some quoted)
    (hc : cut '"' quoted = some (key, rest)) :
    (declarations attr fresh t).filterMap Declaration.block? =
      match blockBehind key rest with
      | none => (declarations attr true rest).filterMap Declaration.block?
      | some (inner, behind) =>
        blockEntry key inner ++ (declarations attr true behind).filterMap Declaration.block? := by
  rw [declarations_of_key hf hc, blockBehind]
  by_cases hkey : key = []
  · rw [if_pos hkey, if_pos hkey]
  · rw [if_neg hkey, if_neg hkey]
    cases assigned '{' rest with
    | none => rfl
    | some body =>
      dsimp only [Option.bind_some]
      cases closeBlock body with
      | none => rfl
      | some block =>
        by_cases hinner : block.1 = [] <;>
          simp [blockEntry, hinner, List.filterMap_cons, Declaration.block?]

theorem blockBehind_split {key rest inner behind : Text}
    (h : blockBehind key rest = some (inner, behind)) :
    ∃ gap, rest = gap ++ '{' :: (inner ++ '}' :: behind) := by
  unfold blockBehind at h
  split at h
  · cases h
  · obtain ⟨body, ha, hb⟩ := Option.bind_eq_some_iff.mp h
    obtain ⟨gap, rfl⟩ := assigned_split ha
    exact ⟨gap, by rw [closeBlock_split hb]⟩

section

variable {attr t front key rest : Text}

theorem ends_attributeBlocksTurn {sure : Prop} {found start : Nat} (blocks : List (Text × Text))
    (hfound : (nameAt t (attr ++ ".\"") start).Ends sure (some found))
    (hfront : found + byteLength (attr ++ ".\"") = byteLength front)
    (ht : t = front ++ (key ++ '"' :: rest)) (hkey : '"' ∉ key) :
    (attributeBlocksTurn attr t (start, blocks)).Ends sure
      (.again (match blockBehind key rest with
        | none => (byteLength (front ++ key) + 1, blocks)
        | some (inner, behind) => (startOf t behind, blocks ++ blockEntry key inner))) := by
  have hcut : cut '"' (key ++ '"' :: rest) = some (key, rest) := cut_eq_some_iff.mpr ⟨rfl, hkey⟩
  have hclosed : t = (front ++ key ++ ['"']) ++ rest := by simp [ht]
  have hcursor : byteLength (front ++ key) + 1 = byteLength (front ++ key ++ ['"']) :=
    (byteLength_concat rfl _).symm
  refine hfound.bind ?_
  dsimp only
  rw [hfront]
  refine (ends_slice_behind ht rfl).bind ?_
  dsimp only [Option.bind_some]
  rw [offsetOfChar, hcut]
  dsimp only [Option.map_some]
  refine (ends_slice_split front ('"' :: rest) ht rfl rfl).bind ?_
  rw [← byteLength_append, blockBehind]
  by_cases hempty : key = []
  · subst hempty
    exact Scan.ends_pure _
  · have hfilter : (some key).filter (· ≠ []) = some key := by simp [hempty]
    rw [hfilter, if_neg hempty]
    dsimp only
    rw [hcursor]
    rcases assignedAt_cases '{' hclosed with ⟨ha, hends⟩ | ⟨opening, body, ha, hopening, hends⟩
    · rw [ha]
      exact hends.bind (Scan.ends_pure _)
    · rw [ha]
      refine hends.bind ?_
      dsimp only [Option.bind_some]
      refine (ends_closerAt .brace hopening).bind ?_
      rw [closingAt_brace hopening]
      cases hb : closeBlock body with
      | none => exact Scan.ends_pure _
      | some block =>
        obtain ⟨inner, behind⟩ := block
        rw [closeBlock_split hb] at hopening
        have hbehind : t = (opening ++ ['{'] ++ inner ++ ['}']) ++ behind := by simp [hopening]
        have hplace : byteLength opening + 1 + byteLength inner + 1 = startOf t behind := by
          rw [hbehind, startOf_append, byteLength_concat rfl, byteLength_append,
            byteLength_concat rfl]
        refine (ends_slice_between rfl hopening rfl).bind ?_
        dsimp only
        rw [hplace]
        cases inner with
        | nil =>
          rw [blockEntry, if_pos rfl, List.append_nil]
          exact Scan.ends_pure _
        | cons c inner => exact Scan.ends_pure _

theorem attributeBlocksTurn_goes_on {sure : Prop} {before skipped window : Text} {fresh : Bool}
    (blocks : List (Text × Text)) (ht : t = before ++ window)
    (hwindow : window = skipped ++ (attr ++ ".\"" ++ (key ++ '"' :: rest)))
    (hf : findName (attr ++ ".\"") fresh window = some (key ++ '"' :: rest)) (hkey : '"' ∉ key)
    (hfound : (nameAt t (attr ++ ".\"") (byteLength before)).Ends sure
      (some (byteLength (before ++ skipped)))) :
    ∃ passed c after more, t = (before ++ passed ++ [c]) ++ after ∧ isNameChar c = false ∧
      (attributeBlocksTurn attr t (byteLength before, blocks)).Ends sure
        (.again (byteLength (before ++ passed ++ [c]), blocks ++ more)) ∧
      (declarations attr fresh window).filterMap Declaration.block? =
        more ++ (declarations attr true after).filterMap Declaration.block? := by
  have hquoted : t = (before ++ skipped ++ (attr ++ ".\"")) ++ (key ++ '"' :: rest) := by
    simp [ht, hwindow]
  have hstart := (byteLength_append (before ++ skipped) (attr ++ ".\"")).symm
  have hturn := ends_attributeBlocksTurn blocks hfound hstart hquoted hkey
  have hblocks := blocks_of_key hf (cut_eq_some_iff.mpr ⟨rfl, hkey⟩)
  cases hb : blockBehind key rest with
  | none =>
    rw [hb] at hturn hblocks
    refine ⟨skipped ++ (attr ++ ".\"") ++ key, '"', rest, [], by simp [hquoted], rfl, ?_, hblocks⟩
    rw [List.append_nil, byteLength_concat rfl]
    simpa using hturn
  | some block =>
    obtain ⟨inner, behind⟩ := block
    obtain ⟨gap, rfl⟩ := blockBehind_split hb
    rw [hb] at hturn hblocks
    have hsplit : t = (before ++ (skipped ++ (attr ++ ".\"") ++ key ++
        '"' :: gap ++ '{' :: inner) ++ ['}']) ++ behind := by
      simp [hquoted]
    have hplace := congrArg (startOf · behind) hsplit
    rw [startOf_append] at hplace
    exact ⟨_, '}', behind, blockEntry key inner, hsplit, rfl, hplace ▸ hturn, hblocks⟩

/-- The scan meets the same blocks as over the characters, each from the place at which it may look
for the next one. -/
theorem winds_attributeBlocks {before window : Text} (ht : t = before ++ window)
    (blocks : List (Text × Text)) :
    Scan.Winds (attributeBlocksTurn attr t) (fun u v => MovesOn (byteLength t) u.1 v.1)
      (StartsNarrow (attr ++ ".\"")) (byteLength before, blocks)
      (blocks ++ (declarations attr (endsName before) window).filterMap Declaration.block?) := by
  induction hlen : window.length using Nat.strongRecOn generalizing before window blocks with
  | _ n ih =>
    have hne : attr ++ ".\"".toList ≠ [] := by simp
    rcases nameAt_cases hne ht with ⟨hf, hends⟩ | ⟨skipped, quoted, hf, hwindow, hends⟩
    · rw [declarations_of_none hf, List.filterMap_nil, List.append_nil]
      exact Scan.Ends.winds_done (hends.bind (Scan.ends_pure _))
    · cases hc : cut '"' quoted with
      | none =>
        have hquoted : t = (before ++ skipped ++ (attr ++ ".\"")) ++ quoted := by
          simp [ht, hwindow]
        rw [declarations_of_openKey hf hc]
        refine Scan.Ends.winds_done (hends.bind ?_)
        dsimp only
        rw [← byteLength_append]
        refine (ends_slice_behind hquoted rfl).bind ?_
        dsimp only [Option.bind_some]
        rw [offsetOfChar, hc, List.filterMap_cons_none rfl, List.filterMap_nil, List.append_nil]
        exact Scan.ends_pure _
      | some sides =>
        obtain ⟨key, rest⟩ := sides
        obtain ⟨rfl, hkey⟩ := cut_eq_some_iff.mp hc
        obtain ⟨passed, c, after, more, hsplit, hchar, hturn, hblocks⟩ :=
          attributeBlocksTurn_goes_on blocks ht hwindow hf hkey hends
        have hpassed : t = before ++ ((passed ++ [c]) ++ after) := by simp [hsplit]
        have hmoves := movesOn_append hpassed (by simp)
        have hlt : after.length < n := by
          have hsame := congrArg List.length (ht.symm.trans hsplit)
          simp only [List.length_append, List.length_singleton] at hsame
          omega
        -- behind a quote or a brace a name may start, as `declarations` has it
        have hrest := ih _ hlt hsplit (blocks ++ more) rfl
        rw [endsName_concat_char, hchar, Bool.not_false, List.append_assoc blocks] at hrest
        rw [hblocks]
        rw [← List.append_assoc] at hmoves
        exact hturn.winds_again hmoves hrest

end

end MachineFacts
