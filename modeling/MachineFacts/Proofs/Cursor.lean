import MachineFacts.Profile
import MachineFacts.Proofs.ByteScan
import MachineFacts.Proofs.Leftmost
import MachineFacts.Proofs.Occurrence
import MachineFacts.Proofs.Turns

/-! The lookups by places. Each goes through the whole text with a cursor and looks at slices of
it, and each comes to what the lookup over the characters comes to. -/

namespace MachineFacts

/-- A turn of the search for a name: behind an occurrence that continues a longer path the search
goes on one byte further. -/
def findNameTurn (t name : Text) (start : Nat) : Scan (Turn Nat (Option Nat)) := do
  let some window ← Scan.slice t start (byteLength t) | return .done none
  let some skipped := offsetOf name window | return .done none
  let found := start + skipped
  let before ← Scan.slice t 0 found
  return if before.all endsName then .done (some found) else .again (found + 1)

def nameAt (t name : Text) (start : Nat) : Scan (Option Nat) :=
  Scan.loop (findNameTurn t name) start

def assignedAt (opener : Char) (t : Text) (start : Nat) : Scan (Option Nat) := do
  let some after ← Scan.slice t start (byteLength t) | return none
  let some behindEquals := strip ['='] (after.dropWhile isBlank) | return none
  let value := behindEquals.dropWhile isBlank
  return if value.head? = some opener then some (startOf t value) else none

/-- Scans the bytes behind `start`, which are taken of the text first. -/
def closerAt (b : Bracket) (t : Text) (start : Nat) : Scan (Option Nat) := do
  let _ ← Scan.slice t start (byteLength t)
  return closingAt b t start

def Reading.ofContent {α : Type} : Option α → Reading α
  | some value => .found value
  | none => .endless

def readAssignedAt {α : Type} (opener : Char) (t : Text) (read : Nat → Scan (Reading α))
    (start : Nat) : Scan (Reading α) := do
  let some place ← assignedAt opener t start | return .absent
  read place

def readBlockAt (t : Text) : Nat → Scan (Reading Text) :=
  readAssignedAt '{' t fun opener => do
    let some closer ← closerAt .brace t opener | return .absent
    let inner ← Scan.slice t (opener + 1) closer
    return .ofContent inner

def readListAt (t : Text) : Nat → Scan (Reading Text) :=
  readAssignedAt '[' t fun opener => do
    let items ← Scan.slice t (opener + 1) (byteLength t)
    let some length := items.bind (offsetOf "];") | return .absent
    let inner ← Scan.slice t (opener + 1) (opener + 1 + length)
    return .ofContent inner

def readStringAt (t : Text) : Nat → Scan (Reading Text) :=
  readAssignedAt '"' t fun opener => do
    let rest ← Scan.slice t (opener + 1) (byteLength t)
    let some length := rest.bind (offsetOfChar '"') | return .endless
    if length = 0 then return .absent
    let value ← Scan.slice t (opener + 1) (opener + 1 + length)
    return .ofContent value

/-- A turn over the text that is left and the strings that were found before it. -/
def quotedStringsTurn : Text × List Text → Scan (Turn (Text × List Text) (List Text))
  | (rest, tokens) => do
    let some start := offsetOfChar '"' rest | return .done tokens
    let opened := (← Scan.slice rest (start + 1) (byteLength rest)).getD []
    let some length := offsetOfChar '"' opened | return .done tokens
    let token ← Scan.slice opened 0 length
    let rest := (← Scan.slice opened (length + 1) (byteLength opened)).getD []
    return .again (rest, tokens ++ (token.filter (· ≠ [])).toList)

def quotedStringsAt (t : Text) : Scan (List Text) := Scan.loop quotedStringsTurn (t, [])

def listEndAt (items : Text) : Option Nat :=
  (listEnd false items).map fun rest => startOf items (']' :: rest)

def readStringsAt (t : Text) : Nat → Scan (Reading (List Text)) :=
  readAssignedAt '[' t fun opener => do
    let some items ← Scan.slice t (opener + 1) (byteLength t) | return .endless
    let some length := listEndAt items | return .endless
    let some inner ← Scan.slice items 0 length | return .endless
    return .found (← quotedStringsAt inner)

def Reading.turn {α : Type} (cursor : Nat) : Reading α → Turn Nat (Option α)
  | .found value => .done (some value)
  | .absent => .again cursor
  | .endless => .done none

def readNamedTurn {α : Type} (t name : Text) (read : Nat → Scan (Reading α)) (start : Nat) :
    Scan (Turn Nat (Option α)) := do
  let some found ← nameAt t name start | return .done none
  let cursor := found + byteLength name
  return (← read cursor).turn cursor

def readNamedAt {α : Type} (t name : Text) (read : Nat → Scan (Reading α)) : Scan (Option α) :=
  Scan.loop (readNamedTurn t name read) 0

def attributeBlocksTurn (attr t : Text) :
    Nat × List (Text × Text) → Scan (Turn (Nat × List (Text × Text)) (List (Text × Text)))
  | (start, blocks) => do
    let introducer := attr ++ ".\""
    let some found ← nameAt t introducer start | return .done blocks
    let keyStart := found + byteLength introducer
    let rest ← Scan.slice t keyStart (byteLength t)
    let some length := rest.bind (offsetOfChar '"') | return .done blocks
    let keyStop := keyStart + length
    let key ← Scan.slice t keyStart keyStop
    let some key := key.filter (· ≠ []) | return .again (keyStop + 1, blocks)
    let some opener ← assignedAt '{' t (keyStop + 1) | return .again (keyStop + 1, blocks)
    let some closer ← closerAt .brace t opener | return .again (keyStop + 1, blocks)
    match ← Scan.slice t (opener + 1) closer with
    | some (c :: inner) => return .again (closer + 1, blocks ++ [(key, c :: inner)])
    | _ => return .again (closer + 1, blocks)

def attributeBlocksAt (attr t : Text) : Scan (List (Text × Text)) :=
  Scan.loop (attributeBlocksTurn attr t) (0, [])

def profileNamesTurn : Text × List Text → Scan (Turn (Text × List Text) (List Text))
  | (rest, names) => do
    let some start := offsetOf profilePath rest | return .done names
    let tail := (← Scan.slice rest (start + byteLength profilePath) (byteLength rest)).getD []
    let length := byteLength (tail.takeWhile isProfileChar)
    let name ← Scan.slice tail 0 length
    let rest := (← Scan.slice tail length (byteLength tail)).getD []
    return .again (rest, names ++ (name.filter (· ≠ [])).toList)

def importedProfilesAt (t : Text) : Scan (List Text) := do
  let some imports ← readNamedAt t "imports" (readListAt t) | return []
  Scan.loop profileNamesTurn (imports, [])

theorem byteLength_concat {c : Char} (hc : c.utf8Size = 1) (t : Text) :
    byteLength (t ++ [c]) = byteLength t + 1 := by
  rw [byteLength_append, byteLength_cons, hc]
  rfl

/-- The cursor moves on, and not out of the text. -/
def MovesOn (limit : Nat) (cursor next : Nat) : Prop := cursor < next ∧ next ≤ limit

section

variable {sure : Prop} {t : Text}

theorem ends_slice_split {inner : Text} {start stop : Nat} (before after : Text)
    (ht : t = before ++ (inner ++ after)) (hstart : byteLength before = start)
    (hstop : start + byteLength inner = stop) :
    (Scan.slice t start stop).Ends sure (some inner) :=
  Scan.ends_slice (Slice.content_eq_some_iff.mpr ⟨before, after, ht, hstart, hstop⟩)

theorem ends_slice_behind {before after : Text} {start : Nat} (ht : t = before ++ after)
    (hstart : byteLength before = start) :
    (Scan.slice t start (byteLength t)).Ends sure (some after) :=
  ends_slice_split before [] (by rw [List.append_nil, ht]) hstart
    (by rw [ht, byteLength_append, hstart])

theorem ends_slice_before {before after : Text} {stop : Nat} (ht : t = before ++ after)
    (hstop : byteLength before = stop) :
    (Scan.slice t 0 stop).Ends sure (some before) :=
  ends_slice_split [] after ht rfl (by rw [Nat.zero_add, hstop])

theorem ends_slice_behind_narrow {before after : Text} {c : Char} (hc : c.utf8Size = 1)
    (ht : t = before ++ c :: after) :
    (Scan.slice t (byteLength before + 1) (byteLength t)).Ends sure (some after) := by
  have hsplit : t = (before ++ [c]) ++ after := by simp [ht]
  exact ends_slice_behind hsplit (byteLength_concat hc before)

theorem ends_slice_between {before inner after : Text} {c : Char} {stop : Nat} (hc : c.utf8Size = 1)
    (ht : t = before ++ c :: (inner ++ after))
    (hstop : byteLength before + 1 + byteLength inner = stop) :
    (Scan.slice t (byteLength before + 1) stop).Ends sure (some inner) := by
  have hsplit : t = (before ++ [c]) ++ (inner ++ after) := by simp [ht]
  exact ends_slice_split (before ++ [c]) after hsplit (byteLength_concat hc before) hstop

theorem ends_closerAt (b : Bracket) {before after : Text} (ht : t = before ++ after) :
    (closerAt b t (byteLength before)).Ends sure (closingAt b t (byteLength before)) :=
  (ends_slice_behind ht rfl).bind (Scan.ends_pure _)

theorem byteLength_pos (ht : t ≠ []) : 0 < byteLength t := by
  cases t with
  | nil => exact absurd rfl ht
  | cons c t =>
    have hpos := c.utf8Size_pos
    rw [byteLength_cons]
    omega

theorem movesOn_append {before passed after : Text} (ht : t = before ++ (passed ++ after))
    (hne : passed ≠ []) :
    MovesOn (byteLength t) (byteLength before) (byteLength (before ++ passed)) := by
  have hpos := byteLength_pos hne
  rw [MovesOn, ht, byteLength_append, byteLength_append, byteLength_append]
  omega

theorem offsetOf_eq_some {needle rest : Text} (h : behind needle t = some rest) :
    ∃ before, t = before ++ (needle ++ rest) ∧ offsetOf needle t = some (byteLength before) := by
  obtain ⟨before, rfl, -⟩ := behind_first h
  exact ⟨before, rfl, by rw [offsetOf, h, Option.map_some, startOf_append]⟩

theorem assigned_eq_strip (opener : Char) (t : Text) :
    assigned opener t = (strip ['='] (t.dropWhile isBlank)).bind fun value =>
      strip [opener] (value.dropWhile isBlank) := by
  unfold assigned
  split
  · next value hvalue =>
    rw [hvalue]
    split
    · next c rest hrest =>
      by_cases hc : opener = c <;> simp [strip, hrest, hc, eq_comm]
    · next hnil => simp [strip, hnil]
  · next hne =>
    cases hs : strip ['='] (t.dropWhile isBlank) with
    | none => rfl
    | some value => exact absurd (strip_eq_some_iff.mp hs) (hne value)

theorem strip_singleton_map {α : Type} (f : Text → α) (c : Char) (t : Text) :
    (strip [c] t).map (fun rest => f (c :: rest)) =
      if t.head? = some c then some (f t) else none := by
  cases t with
  | nil => rfl
  | cons d t => by_cases hd : c = d <;> simp [strip, hd, eq_comm]

theorem ends_assignedAt (opener : Char) {before after : Text} (ht : t = before ++ after) :
    (assignedAt opener t (byteLength before)).Ends sure
      ((assigned opener after).map fun rest => startOf t (opener :: rest)) := by
  refine (ends_slice_behind ht rfl).bind ?_
  rw [assigned_eq_strip]
  dsimp only
  cases strip ['='] (after.dropWhile isBlank) with
  | none => exact Scan.ends_pure none
  | some value =>
    rw [Option.bind_some, strip_singleton_map (startOf t)]
    exact Scan.ends_pure _

end

theorem endsName_concat_char (t : Text) (c : Char) : endsName (t ++ [c]) = !isNameChar c := by
  simp [endsName]

theorem opensName_endsName (x y : Text) : opensName (endsName x) y = endsName (x ++ y) := by
  unfold opensName
  simp only [endsName, List.getLast?_append]
  cases y.getLast? <;> rfl

theorem findName_of_not_behind {name t : Text} (hn : name ≠ []) (h : behind name t = none)
    (fresh : Bool) : findName name fresh t = none := by
  induction t generalizing fresh with
  | nil =>
    cases name with
    | nil => exact absurd rfl hn
    | cons c more => cases fresh <;> rfl
  | cons c t ih =>
    cases hs : strip name (c :: t) with
    | some rest => simp [behind, hs] at h
    | none => simpa [findName, hs] using ih (by simpa [behind, hs] using h) _

theorem findName_of_behind {c : Char} {more t rest : Text}
    (h : behind (c :: more) t = some rest) :
    ∃ before, t = before ++ (c :: more ++ rest) ∧ ∀ fresh,
      findName (c :: more) fresh t =
        if opensName fresh before then some rest
        else if c.utf8Size = 1 then findName (c :: more) (!isNameChar c) (more ++ rest)
        else none := by
  induction t with
  | nil => cases h
  | cons d t ih =>
    cases hs : strip (c :: more) (d :: t) with
    | some r =>
      have hr : r = rest := by simpa [behind, hs] using h
      subst hr
      obtain ⟨rfl, rfl⟩ := List.cons.inj (strip_eq_some_iff.mp hs)
      exact ⟨[], rfl, fun fresh => by rw [findName, hs]; rfl⟩
    | none =>
      obtain ⟨before, rfl, hfind⟩ := ih (by simpa [behind, hs] using h)
      refine ⟨d :: before, rfl, fun fresh => ?_⟩
      rw [opensName_cons, ← hfind, findName, hs]

theorem content_of_not_isBoundary {t : Text} {start : Nat} (h : ¬ IsBoundary t start)
    (stop : Nat) : Slice.content ⟨t, start, stop⟩ = none := by
  cases hc : Slice.content ⟨t, start, stop⟩ with
  | none => rfl
  | some inner => exact absurd (Slice.sound_iff.mpr ⟨inner, hc⟩).start h

section

variable {t name : Text} {start : Nat}

theorem winds_findName_inside {sure : Prop} (hstart : ¬ IsBoundary t start) (hsure : ¬ sure) :
    Scan.Winds (findNameTurn t name) (MovesOn (byteLength t)) sure start none := by
  refine Scan.Ends.winds_done ((Scan.ends_slice_of_not hsure).bind ?_)
  rw [content_of_not_isBoundary hstart]
  exact Scan.ends_pure _

theorem ends_findNameTurn {sure : Prop} {before skipped rest : Text}
    (ht : t = before ++ (skipped ++ (name ++ rest)))
    (hb : behind name (skipped ++ (name ++ rest)) = some rest) :
    (findNameTurn t name (byteLength before)).Ends sure
      (if endsName (before ++ skipped) then .done (some (byteLength (before ++ skipped)))
        else .again (byteLength (before ++ skipped) + 1)) := by
  have hfront : t = (before ++ skipped) ++ (name ++ rest) := by rw [ht, List.append_assoc]
  refine (ends_slice_behind ht rfl).bind ?_
  dsimp only
  rw [offsetOf, hb, Option.map_some, startOf_append]
  dsimp only
  rw [← byteLength_append]
  refine (ends_slice_before hfront rfl).bind ?_
  rw [Option.all_some]
  exact Scan.ends_pure _

/-- The search ends at the place at which it ends over the characters. Only behind a first
character of several bytes it may look into a character. -/
theorem winds_findName (hn : name ≠ []) {before window : Text} (ht : t = before ++ window) :
    Scan.Winds (findNameTurn t name) (MovesOn (byteLength t)) (StartsNarrow name)
      (byteLength before)
      ((findName name (endsName before) window).map fun rest => startOf t (name ++ rest)) := by
  induction hlen : window.length using Nat.strongRecOn generalizing before window with
  | _ n ih =>
    cases hb : behind name window with
    | none =>
      rw [findName_of_not_behind hn hb]
      refine Scan.Ends.winds_done ((ends_slice_behind ht rfl).bind ?_)
      dsimp only
      rw [offsetOf, hb]
      exact Scan.ends_pure _
    | some rest =>
      obtain ⟨c, more, rfl⟩ := List.exists_cons_of_ne_nil hn
      obtain ⟨skipped, rfl, hfind⟩ := findName_of_behind hb
      have hturn : (findNameTurn t (c :: more) (byteLength before)).Ends
          (StartsNarrow (c :: more)) _ := ends_findNameTurn ht hb
      have hsplit : t = (before ++ skipped) ++ c :: (more ++ rest) := by
        rw [ht, List.append_assoc]
        rfl
      rw [hfind, opensName_endsName]
      -- the turn ends here, or the place one byte further on is a boundary or it is not
      cases hopen : endsName (before ++ skipped) with
      | true =>
        rw [hopen, if_pos rfl] at hturn
        have hplace : startOf t (c :: more ++ rest) = byteLength (before ++ skipped) := by
          rw [hsplit]
          exact startOf_append _ _
        rw [if_pos rfl, Option.map_some, hplace]
        exact hturn.winds_done
      | false =>
        rw [hopen, if_neg Bool.false_ne_true] at hturn
        have hpos := c.utf8Size_pos
        have hmoves : MovesOn (byteLength t) (byteLength before)
            (byteLength (before ++ skipped) + 1) := by
          constructor
          · rw [byteLength_append]
            omega
          · rw [hsplit, byteLength_append _ (c :: _), byteLength_cons]
            omega
        refine hturn.winds_again hmoves ?_
        rw [if_neg Bool.false_ne_true]
        by_cases hc : c.utf8Size = 1
        · -- one byte further on is behind the first character of the name
          have hnext : t = (before ++ skipped ++ [c]) ++ (more ++ rest) := by
            rw [hsplit, List.append_assoc _ [c]]
            rfl
          rw [if_pos hc, ← endsName_concat_char (before ++ skipped) c, ← byteLength_concat hc]
          refine ih _ ?_ hnext rfl
          rw [← hlen]
          simp only [List.length_append, List.length_cons]
          omega
        · have hinside : ¬ IsBoundary t (byteLength (before ++ skipped) + 1) := by
            rw [hsplit]
            exact not_isBoundary_inside (by omega) (by omega)
          have hwide : ¬ StartsNarrow (c :: more) := by
            rintro ⟨d, rest, hd, hsize⟩
            obtain ⟨rfl, -⟩ := List.cons.inj hd
            exact hc hsize
          rw [if_neg hc]
          exact winds_findName_inside hinside hwide

theorem ends_nameAt (hn : name ≠ []) {before window : Text} (ht : t = before ++ window) :
    (nameAt t name (byteLength before)).Ends (StartsNarrow name)
      ((findName name (endsName before) window).map fun rest => startOf t (name ++ rest)) :=
  (winds_findName hn ht).ends

end

end MachineFacts
