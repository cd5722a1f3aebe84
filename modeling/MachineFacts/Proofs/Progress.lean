import MachineFacts.Proofs.DeclarationPlaces

/-! Every scan ends. A loop with a cursor moves it on at each turn and never out of the text, and
a loop over the text that is left shortens it, so the turns are at most one more than the bytes. -/

namespace MachineFacts

/-- From `s` on, the turns end with `a`, each leads to a state further on, and there are at most
`bound + 1` of them. -/
def Scan.EndsWithin {σ α : Type} (turn : σ → Scan (Turn σ α)) (further : σ → σ → Prop)
    (bound : Nat) (s : σ) (a : α) : Prop :=
  ∃ trail ∈ Scan.trail turn ⟨[], [], s⟩, trail.result = a ∧ trail.visited.head? = some s ∧
    trail.visited.IsChain further ∧ trail.visited.length ≤ bound + 1

theorem Scan.Winds.endsWithin {σ α : Type} {turn : σ → Scan (Turn σ α)} {further : σ → σ → Prop}
    {sure : Prop} {s : σ} {a : α} (h : Scan.Winds turn further sure s a) (μ : σ → Nat)
    (hμ : ∀ u v, further u v → μ v < μ u) {bound : Nat} (hs : μ s ≤ bound) :
    Scan.EndsWithin turn further bound s a := by
  obtain ⟨visited, slices, hhead, hchain, -, htrail⟩ := h
  have hlen := length_le_of_isChain hhead (hchain.imp hμ)
  exact ⟨⟨visited, slices, a⟩, htrail [] [], rfl, hhead, hchain, by
    show visited.length ≤ bound + 1
    omega⟩

section

variable {σ α : Type} {sure : Prop} {a : α}

theorem Scan.Winds.endsWithin_text {turn : σ → Scan (Turn σ α)} {cursor : σ → Nat} {limit : Nat}
    {s : σ} (h : Scan.Winds turn (fun u v => MovesOn limit (cursor u) (cursor v)) sure s a) :
    Scan.EndsWithin turn (fun u v => MovesOn limit (cursor u) (cursor v)) limit s a := by
  refine h.endsWithin (fun u => limit - cursor u) ?_ (Nat.sub_le _ _)
  rintro u v ⟨hlt, hle⟩
  show limit - cursor v < limit - cursor u
  omega

theorem Scan.Winds.endsWithin_rest {turn : Text × σ → Scan (Turn (Text × σ) α)} {s : Text × σ}
    (h : Scan.Winds turn Shortens sure s a) :
    Scan.EndsWithin turn Shortens (byteLength s.1) s a :=
  h.endsWithin (fun u => byteLength u.1) (fun _ _ hshorter => hshorter) (Nat.le_refl _)

end

/-- A search for a name that is not empty ends from every place, a place inside a character
included, and so do the lookups, the scan for declarations, whatever the attribute, the pairing of
quotes and the search for profiles; and each comes to what it comes to over the characters. -/
theorem scans_end {name : Text} (hn : name ≠ []) (attr t : Text) :
    (∀ before after, t = before ++ after →
      Scan.EndsWithin (findNameTurn t name) (MovesOn (byteLength t)) (byteLength t)
        (byteLength before)
        ((findName name (endsName before) after).map fun rest => startOf t (name ++ rest))) ∧
    (∀ start, ¬ IsBoundary t start →
      Scan.EndsWithin (findNameTurn t name) (MovesOn (byteLength t)) (byteLength t) start none) ∧
    Scan.EndsWithin (readNamedTurn t name (readBlockAt t)) (MovesOn (byteLength t)) (byteLength t) 0
      (findBlock name t) ∧
    Scan.EndsWithin (readNamedTurn t name (readListAt t)) (MovesOn (byteLength t)) (byteLength t) 0
      (listBlock name t) ∧
    Scan.EndsWithin (readNamedTurn t name (readStringAt t)) (MovesOn (byteLength t)) (byteLength t)
      0 (stringField name t) ∧
    Scan.EndsWithin (readNamedTurn t name (readStringsAt t)) (MovesOn (byteLength t)) (byteLength t)
      0 (stringListField name t) ∧
    Scan.EndsWithin (attributeBlocksTurn attr t) (fun u v => MovesOn (byteLength t) u.1 v.1)
      (byteLength t) (0, []) (attributeBlocks attr t) ∧
    Scan.EndsWithin quotedStringsTurn Shortens (byteLength t) (t, []) (quotedStrings t) ∧
    Scan.EndsWithin profileNamesTurn Shortens (byteLength t) (t, []) (profileNames t) := by
  have ht : t = [] ++ t := rfl
  refine ⟨fun before after hsplit => ?_, fun start hstart => ?_, ?_, ?_, ?_, ?_, ?_, ?_, ?_⟩
  · exact (winds_findName hn hsplit).endsWithin_text
  · exact (winds_findName_inside hstart not_false).endsWithin_text
  · exact (winds_readNamed (fun _ _ => ends_readBlockAt) hn ht).endsWithin_text
  · exact (winds_readNamed (fun _ _ => ends_readListAt) hn ht).endsWithin_text
  · exact (winds_readNamed (fun _ _ => ends_readStringAt) hn ht).endsWithin_text
  · exact (winds_readNamed (fun _ _ => ends_readStringsAt) hn ht).endsWithin_text
  · exact (winds_attributeBlocks ht []).endsWithin_text
  · exact (winds_quotedStrings False t []).endsWithin_rest
  · exact (winds_profileNames False t []).endsWithin_rest

/-- Behind a letter the name goes on with a longer one, and one byte further on is no character. -/
theorem scans_end_accented :
    ("é" : Text) ≠ [] ∧
    Scan.EndsWithin (findNameTurn "aé; é" "é") (MovesOn 7) 7 0 none := by
  have hn : ("é" : Text) ≠ [] := by decide
  have hlen : byteLength "aé; é" = 7 := by decide
  have hfind : findName "é" true "aé; é" = none := by decide
  have hends := (scans_end hn [] "aé; é").1 [] "aé; é" rfl
  rw [show endsName [] = true from rfl, hfind, hlen] at hends
  exact ⟨hn, hends⟩

end MachineFacts
