import Mathlib.Order.Bounds.Basic
import MachineFacts.Proofs.DeclarationPlaces

/-! Places inside a character never come up. Where a name starts with an ASCII character, each slice
on the way of a scan lies between characters, so none is missing and no occurrence is lost. -/

namespace MachineFacts

/-- The scan ends with this result, and every slice on its way is sound and so has content. -/
def Scan.EndsSoundly {α : Type} (x : Scan α) (a : α) : Prop :=
  ∃ slices, (slices, a) ∈ x ∧ ∀ s ∈ slices, s.Sound ∧ s.content ≠ none

theorem Scan.Ends.soundly {α : Type} {x : Scan α} {sure : Prop} {a : α} (h : x.Ends sure a)
    (hsure : sure) : x.EndsSoundly a := by
  obtain ⟨slices, hx, hsound⟩ := h
  refine ⟨slices, hx, fun s hs => ⟨hsound hsure s hs, ?_⟩⟩
  obtain ⟨inner, hinner⟩ := Slice.sound_iff.mp (hsound hsure s hs)
  simp [hinner]

/-- At this place the name stands, and it continues no longer path. -/
def StandsAt (name t : Text) (place : Nat) : Prop :=
  ∃ before rest, byteLength before = place ∧ endsName before = true ∧ t = before ++ (name ++ rest)

/-- The place is the first one from `start` on at which the name stands, if there is any. -/
structure FirstStanding (name t : Text) (start : Nat) (place : Option Nat) : Prop where
  found : ∀ k, place = some k ↔ IsLeast {k | start ≤ k ∧ StandsAt name t k} k
  missing : place = none ↔ ∀ k, start ≤ k → ¬ StandsAt name t k

section

variable {name t before window : Text}

theorem standsAt_iff_mem_standings (ht : t = before ++ window) {place : Nat} :
    byteLength before ≤ place ∧ StandsAt name t place ↔
      ∃ rest ∈ standings name (endsName before) window, startOf t (name ++ rest) = place := by
  constructor
  · rintro ⟨hle, front, rest, rfl, hfront, hsplit⟩
    obtain ⟨skipped, rfl, rfl⟩ := exists_middle (ht.symm.trans hsplit) hle
    refine ⟨rest, mem_standings_iff_opensName.mpr ⟨skipped, ?_, rfl⟩, ?_⟩
    · rwa [opensName_endsName]
    · rw [hsplit, startOf_append]
  · rintro ⟨rest, hmem, rfl⟩
    obtain ⟨skipped, hopen, rfl⟩ := mem_standings_iff_opensName.mp hmem
    have hsplit : t = (before ++ skipped) ++ (name ++ rest) := by rw [ht, List.append_assoc]
    have hplace : startOf t (name ++ rest) = byteLength (before ++ skipped) := by
      rw [hsplit, startOf_append]
    rw [hplace]
    refine ⟨?_, before ++ skipped, rest, rfl, (opensName_endsName before skipped) ▸ hopen, hsplit⟩
    rw [byteLength_append]
    exact Nat.le_add_right _ _

theorem startOf_le_startOf {u v : Text} (hu : u <:+ t) (hv : v <:+ t) (hle : v.length ≤ u.length) :
    startOf t u ≤ startOf t v := by
  obtain ⟨between, rfl⟩ := List.suffix_of_suffix_length_le hv hu hle
  rw [startOf, startOf, byteLength_append]
  omega

theorem isLeast_of_standings {rest : Text} {more : List Text} (ht : t = before ++ window)
    (hs : standings name (endsName before) window = rest :: more) :
    IsLeast {k | byteLength before ≤ k ∧ StandsAt name t k} (startOf t (name ++ rest)) := by
  have hsuffix : ∀ u ∈ standings name (endsName before) window, name ++ u <:+ t := by
    intro u hu
    obtain ⟨skipped, rfl⟩ := mem_standings hu
    exact ⟨before ++ skipped, by rw [ht, List.append_assoc]⟩
  have hpairs := standings_pairwise name (endsName before) window
  rw [hs] at hpairs
  obtain ⟨hlonger, -⟩ := List.pairwise_cons.mp hpairs
  have hfirst : rest ∈ standings name (endsName before) window := hs ▸ List.mem_cons_self
  refine ⟨(standsAt_iff_mem_standings ht).mpr ⟨rest, hfirst, rfl⟩, fun k hk => ?_⟩
  obtain ⟨u, hu, rfl⟩ := (standsAt_iff_mem_standings ht).mp hk
  refine startOf_le_startOf (hsuffix rest hfirst) (hsuffix u hu) ?_
  rw [List.length_append, List.length_append, Nat.add_le_add_iff_left]
  rcases List.mem_cons.mp (hs ▸ hu) with rfl | hu
  · exact Nat.le_refl _
  · exact Nat.le_of_lt (hlonger u hu)

theorem findName_firstStanding (hn : StartsNarrow name) (ht : t = before ++ window) :
    FirstStanding name t (byteLength before)
      ((findName name (endsName before) window).map fun rest => startOf t (name ++ rest)) := by
  rw [findName_eq_head? hn]
  cases hs : standings name (endsName before) window with
  | nil =>
    have hnone : ∀ k, ¬ (byteLength before ≤ k ∧ StandsAt name t k) := by
      intro k hk
      obtain ⟨rest, hmem, -⟩ := (standsAt_iff_mem_standings ht).mp hk
      rw [hs] at hmem
      cases hmem
    exact ⟨fun k => ⟨nofun, fun hleast => absurd hleast.1 (hnone k)⟩,
      fun _ k hle hk => hnone k ⟨hle, hk⟩, fun _ => rfl⟩
  | cons rest more =>
    have hleast := isLeast_of_standings ht hs
    refine ⟨fun k => ⟨fun h => ?_, fun h => ?_⟩, nofun, fun h => ?_⟩
    · cases h
      exact hleast
    · exact congrArg some (hleast.unique h)
    · exact absurd hleast.1.2 (h _ hleast.1.1)

theorem StartsNarrow.ne_nil (hn : StartsNarrow name) : name ≠ [] := by
  obtain ⟨c, rest, rfl, -⟩ := hn
  exact List.cons_ne_nil c rest

theorem readNamedAt_soundly {α : Type} {readAt : Nat → Scan (Reading α)}
    {read : Text → Reading α} (hn : StartsNarrow name)
    (hread : ∀ front after, t = front ++ after →
      (readAt (byteLength front)).Ends (StartsNarrow name) (read after)) :
    (readNamedAt t name readAt).EndsSoundly (readNamed name read true t) := by
  have ht : t = [] ++ t := rfl
  exact (winds_readNamed hread hn.ne_nil ht).ends.soundly hn

end

theorem startsNarrow_behind_introducer {attr : Text} (h : attr = [] ∨ StartsNarrow attr) :
    StartsNarrow (attr ++ ".\"") := by
  rcases h with rfl | ⟨c, rest, rfl, hc⟩
  · exact ⟨'.', ['"'], rfl, rfl⟩
  · exact ⟨c, rest ++ ".\"", rfl, hc⟩

theorem importedProfilesAt_soundly (t : Text) :
    (importedProfilesAt t).EndsSoundly (importedProfiles t) := by
  have himports : StartsNarrow "imports" := ⟨'i', "mports".toList, rfl, rfl⟩
  have ht : t = [] ++ t := rfl
  have hlist : (readNamedAt t "imports" (readListAt t)).Ends (StartsNarrow "imports")
      (listBlock "imports" t) :=
    (winds_readNamed (fun _ _ => ends_readListAt) himports.ne_nil ht).ends
  refine Scan.Ends.soundly (hlist.bind ?_) himports
  rw [importedProfiles]
  cases listBlock "imports" t with
  | none => exact Scan.ends_pure _
  | some imports => exact (winds_profileNames _ imports []).ends

/-- With a name and an attribute that start with an ASCII character, or an attribute that is empty,
every slice of every scan is sound, a search from between two characters passes over no occurrence,
the lookups come to what they come to over the characters, and so does the scan over bytes for a
closing delimiter. -/
theorem slices_sound {name attr : Text} (hn : StartsNarrow name)
    (ha : attr = [] ∨ StartsNarrow attr) (t : Text) :
    (∀ start, IsBoundary t start →
      ∃ place, (nameAt t name start).EndsSoundly place ∧ FirstStanding name t start place) ∧
    (readNamedAt t name (readBlockAt t)).EndsSoundly (findBlock name t) ∧
    (readNamedAt t name (readListAt t)).EndsSoundly (listBlock name t) ∧
    (readNamedAt t name (readStringAt t)).EndsSoundly (stringField name t) ∧
    (readNamedAt t name (readStringsAt t)).EndsSoundly (stringListField name t) ∧
    (attributeBlocksAt attr t).EndsSoundly (attributeBlocks attr t) ∧
    (quotedStringsAt t).EndsSoundly (quotedStrings t) ∧
    (importedProfilesAt t).EndsSoundly (importedProfiles t) ∧
    ∀ (b : Bracket) (before after : Text), t = before ++ after →
      (closerAt b t (byteLength before)).EndsSoundly (closingAt b t (byteLength before)) ∧
      closingAt b t (byteLength before) =
        (b.closing .code 0 after).map fun rest => startOf t (b.closer :: rest) := by
  have ht : t = [] ++ t := rfl
  refine ⟨?_, ?_, ?_, ?_, ?_, ?_, ?_, importedProfilesAt_soundly t, ?_⟩
  · rintro start ⟨before, window, rfl, rfl⟩
    exact ⟨_, (ends_nameAt hn.ne_nil rfl).soundly hn, findName_firstStanding hn rfl⟩
  · exact readNamedAt_soundly hn fun _ _ => ends_readBlockAt
  · exact readNamedAt_soundly hn fun _ _ => ends_readListAt
  · exact readNamedAt_soundly hn fun _ _ => ends_readStringAt
  · exact readNamedAt_soundly hn fun _ _ => ends_readStringsAt
  · exact (winds_attributeBlocks ht []).ends.soundly (startsNarrow_behind_introducer ha)
  · exact (winds_quotedStrings True t []).ends.soundly trivial
  · rintro b before after rfl
    exact ⟨(ends_closerAt b rfl).soundly trivial, closingAt_append b before after⟩

/-- A wide blank, letters of two bytes and a quoted one of four. -/
theorem slices_sound_wide :
    StartsNarrow "größe" ∧ StartsNarrow "größen" ∧
    (readNamedAt "éß größe\u3000=\u00a0\"𝄞ü\";" "größe"
      (readStringAt "éß größe\u3000=\u00a0\"𝄞ü\";")).EndsSoundly (some "𝄞ü") := by
  have hname : StartsNarrow "größe" := ⟨'g', "röße".toList, rfl, rfl⟩
  have hattr : StartsNarrow "größen" := ⟨'g', "rößen".toList, rfl, rfl⟩
  have hvalue : stringField "größe" "éß größe\u3000=\u00a0\"𝄞ü\";" = some "𝄞ü".toList := by
    decide +kernel
  obtain ⟨-, -, -, hends, -⟩ := slices_sound hname (.inr hattr) "éß größe\u3000=\u00a0\"𝄞ü\";"
  rw [hvalue] at hends
  exact ⟨hname, hattr, hends⟩

end MachineFacts
