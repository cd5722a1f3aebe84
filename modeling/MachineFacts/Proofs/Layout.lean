import MachineFacts.Proofs.Assignment
import MachineFacts.Proofs.Closing

/-! Documents in which declarations stand between gaps of any text. The scan for declarations
finds each of them, and whatever text it scans, what it finds stands there in this way. -/

namespace MachineFacts

structure DeclaredBlock where
  key : Text
  before : Gap
  behind : Gap
  inner : Text
  key_ne_nil : key ≠ []
  key_unquoted : '"' ∉ key
  balanced : Balanced inner

def DeclaredBlock.text (attr : Text) (d : DeclaredBlock) : Text :=
  attr ++ ".\"" ++
    (d.key ++ '"' :: (d.before.1 ++ '=' :: (d.behind.1 ++ '{' :: (d.inner ++ ['}']))))

def DeclaredBlock.pair (d : DeclaredBlock) : Text × Text := (d.key, d.inner)

theorem DeclaredBlock.text_append (attr : Text) (d : DeclaredBlock) (y : Text) :
    d.text attr ++ y = attr ++ ".\"" ++
      (d.key ++ '"' :: (d.before.1 ++ '=' :: (d.behind.1 ++ '{' :: (d.inner ++ '}' :: y)))) := by
  simp [DeclaredBlock.text]

theorem DeclaredBlock.text_ne_nil (attr : Text) (d : DeclaredBlock) : d.text attr ≠ [] := by
  simp [DeclaredBlock.text]

theorem DeclaredBlock.endsName_text (attr : Text) (d : DeclaredBlock) :
    endsName (d.text attr) = true := by
  have hbrace : d.text attr = (attr ++ ".\"" ++
      (d.key ++ '"' :: (d.before.1 ++ '=' :: (d.behind.1 ++ '{' :: d.inner)))) ++ ['}'] := by
    simp [DeclaredBlock.text]
  rw [hbrace]
  exact endsName_concat _ (by decide)

def layout (attr : Text) (parts : List (Text × DeclaredBlock)) (last : Text) : Text :=
  (parts.flatMap fun p => p.1 ++ p.2.text attr) ++ last

theorem layout_cons (attr : Text) (p : Text × DeclaredBlock) (parts : List (Text × DeclaredBlock))
    (last : Text) :
    layout attr (p :: parts) last = p.1 ++ (p.2.text attr ++ layout attr parts last) := by
  simp [layout]

theorem endsName_layout {attr last : Text} {parts : List (Text × DeclaredBlock)}
    (hparts : ∀ p ∈ parts, endsName p.1 = true) (hlast : endsName last = true) :
    endsName (layout attr parts last) = true := by
  induction parts with
  | nil => exact hlast
  | cons p parts ih =>
    rw [layout_cons]
    have hrest := ih fun q hq => hparts q (List.mem_cons_of_mem p hq)
    exact endsName_append (hparts p List.mem_cons_self)
      (endsName_append (p.2.endsName_text attr) hrest)

theorem attributeBlocks_of_none {attr t : Text} (h : findName (attr ++ ".\"") true t = none) :
    attributeBlocks attr t = [] := by
  rw [attributeBlocks, declarations_of_none h, List.filterMap_nil]

theorem attributeBlocks_of_openKey {attr t quoted : Text}
    (h : findName (attr ++ ".\"") true t = some quoted) (hc : cut '"' quoted = none) :
    attributeBlocks attr t = [] := by
  rw [attributeBlocks, declarations_of_openKey h hc]
  rfl

theorem attributeBlocks_of_key {attr t quoted key rest : Text}
    (h : findName (attr ++ ".\"") true t = some quoted)
    (hc : cut '"' quoted = some (key, rest)) :
    attributeBlocks attr t =
      if key = [] then attributeBlocks attr rest
      else
        match assigned '{' rest with
        | none => attributeBlocks attr rest
        | some body =>
          match closeBlock body with
          | none => attributeBlocks attr rest
          | some (inner, behind) =>
            (if inner = [] then [] else [(key, inner)]) ++ attributeBlocks attr behind := by
  rw [attributeBlocks, declarations_of_key h hc]
  by_cases hk : key = []
  · rw [if_pos hk, if_pos hk, attributeBlocks]
  · rw [if_neg hk, if_neg hk]
    cases assigned '{' rest with
    | none => rfl
    | some body =>
      cases hb : closeBlock body with
      | none => simp only [hb]; rfl
      | some block =>
        simp only [hb]
        by_cases hi : block.1 = []
        · rw [if_pos hi, if_pos hi]; rfl
        · rw [if_neg hi, if_neg hi]; rfl

theorem attributeBlocks_gap {attr gap : Text} (ha : IsName attr)
    (h : occurs (attr ++ ".\"") gap = false) (hends : endsName gap = true) (y : Text) :
    attributeBlocks attr (gap ++ y) = attributeBlocks attr y := by
  have hnone := findName_of_not_occurs (startsNarrow_introducer ha) h true
  rw [attributeBlocks, declarations_append_of_none ha hends hnone, attributeBlocks]

theorem attributeBlocks_declared (attr : Text) (d : DeclaredBlock) (y : Text) :
    attributeBlocks attr (d.text attr ++ y) =
      (if d.inner = [] then [] else [d.pair]) ++ attributeBlocks attr y := by
  have hintro : attr ++ ".\"".toList ≠ [] := by simp
  have hbrace : isBlank '{' = false := by decide
  have hkey : ∀ z, cut '"' (d.key ++ '"' :: z) = some (d.key, z) := fun z =>
    cut_eq_some_iff.mpr ⟨rfl, d.key_unquoted⟩
  rw [d.text_append, attributeBlocks_of_key (findName_of_start hintro _) (hkey _),
    if_neg d.key_ne_nil, assigned_of_gaps hbrace]
  simp only [closeBlock_balanced d.balanced, DeclaredBlock.pair]

/-- Every declaration between gaps of any text is found, in order, unless its block is empty. -/
theorem attributeBlocks_layout {attr : Text} (ha : IsName attr)
    {parts : List (Text × DeclaredBlock)} {last : Text}
    (hgaps : ∀ p ∈ parts, occurs (attr ++ ".\"") p.1 = false ∧ endsName p.1 = true)
    (hlast : occurs (attr ++ ".\"") last = false) :
    attributeBlocks attr (layout attr parts last) =
      (parts.map fun p => p.2.pair).filter (·.2 ≠ []) := by
  induction parts with
  | nil =>
    exact attributeBlocks_of_none (findName_of_not_occurs (startsNarrow_introducer ha) hlast true)
  | cons p parts ih =>
    obtain ⟨hp, hends⟩ := hgaps p List.mem_cons_self
    have hrest := ih fun q hq => hgaps q (List.mem_cons_of_mem p hq)
    rw [layout_cons, attributeBlocks_gap ha hp hends, attributeBlocks_declared, hrest,
      List.map_cons, List.filter_cons]
    by_cases hinner : p.2.inner = [] <;> simp [hinner, DeclaredBlock.pair]

def noisyParts : List (Text × DeclaredBlock) :=
  [("\" # \x7b ", ⟨"/home", ⟨"\t", by decide⟩, ⟨"\n", by decide⟩, " luks = \x7b \x7d; ", by decide,
      by decide, by decide +kernel⟩),
    ("; \x7d", ⟨"/tmp", ⟨[], by decide⟩, ⟨[], by decide⟩, [], by decide, by decide, .nil⟩),
    ([], ⟨"/boot", ⟨[], by decide⟩, ⟨"\t", by decide⟩, "# \x7d\n", by decide, by decide,
      by decide +kernel⟩)]

theorem attributeBlocks_layout_noisyParts :
    (∀ p ∈ noisyParts,
      occurs ("fileSystems" ++ ".\"".toList) p.1 = false ∧ endsName p.1 = true) ∧
    occurs ("fileSystems" ++ ".\"".toList) "fileSystems" = false ∧
    attributeBlocks "fileSystems" (layout "fileSystems" noisyParts "fileSystems") =
      [("/home".toList, " luks = \x7b \x7d; ".toList), ("/boot".toList, "# \x7d\n".toList)] := by
  have hgaps : ∀ p ∈ noisyParts,
      occurs ("fileSystems" ++ ".\"".toList) p.1 = false ∧ endsName p.1 = true := by
    decide +kernel
  have hlast : occurs ("fileSystems" ++ ".\"".toList) "fileSystems" = false := by decide
  exact ⟨hgaps, hlast, (attributeBlocks_layout (by decide) hgaps hlast).trans (by decide +kernel)⟩

theorem block_split_declared {attr t quoted key rest body inner behind : Text} (ha : IsName attr)
    (hf : findName (attr ++ ".\"") true t = some quoted)
    (hc : cut '"' quoted = some (key, rest)) (hk : key ≠ []) (hb : assigned '{' rest = some body)
    (hcl : closeBlock body = some (inner, behind)) :
    ∃ gap d, endsName gap = true ∧ d.pair = (key, inner) ∧
      t = gap ++ (DeclaredBlock.text attr d ++ behind) := by
  rw [findName_eq_head? (startsNarrow_introducer ha)] at hf
  obtain ⟨gap, hgap, rfl⟩ := mem_standings_iff.mp (List.mem_of_mem_head? hf)
  obtain ⟨rfl, hquote⟩ := cut_eq_some_iff.mp hc
  obtain ⟨a, b, rfl⟩ := assigned_gaps hb
  obtain ⟨hbalanced, rfl⟩ := closeBlock_eq_some_iff.mp hcl
  refine ⟨gap, ⟨key, a, b, inner, hk, hquote, hbalanced⟩, hgap, rfl, ?_⟩
  rw [DeclaredBlock.text_append]

/-- What the scan does next: it ends, it passes over some text, or it takes up a declaration. -/
theorem attributeBlocks_cases {attr : Text} (ha : IsName attr) (t : Text) :
    attributeBlocks attr t = [] ∨
    (∃ skipped rest, skipped ≠ [] ∧ endsName skipped = true ∧ t = skipped ++ rest ∧
      attributeBlocks attr t = attributeBlocks attr rest) ∨
    ∃ gap d rest, endsName gap = true ∧ d.inner ≠ [] ∧
      t = gap ++ (DeclaredBlock.text attr d ++ rest) ∧
      attributeBlocks attr t = d.pair :: attributeBlocks attr rest := by
  cases hf : findName (attr ++ ".\"") true t with
  | none => exact .inl (attributeBlocks_of_none hf)
  | some quoted =>
    cases hc : cut '"' quoted with
    | none => exact .inl (attributeBlocks_of_openKey hf hc)
    | some sides =>
      obtain ⟨key, rest⟩ := sides
      obtain ⟨before, ht⟩ := key_split ha hf hc
      have hquote : endsName (before ++ ['"']) = true := endsName_concat before (by decide)
      have hblocks := attributeBlocks_of_key hf hc
      -- A key without a block is passed over up to its closing quote.
      have hskip : attributeBlocks attr t = attributeBlocks attr rest →
          ∃ skipped rest, skipped ≠ [] ∧ endsName skipped = true ∧ t = skipped ++ rest ∧
            attributeBlocks attr t = attributeBlocks attr rest :=
        fun he => ⟨before ++ ['"'], rest, by simp, hquote, ht, he⟩
      by_cases hk : key = []
      · exact .inr (.inl (hskip (by simp [hblocks, hk])))
      · cases hb : assigned '{' rest with
        | none => exact .inr (.inl (hskip (by simp [hblocks, hk, hb])))
        | some body =>
          cases hcl : closeBlock body with
          | none => exact .inr (.inl (hskip (by simp [hblocks, hk, hb, hcl])))
          | some block =>
            obtain ⟨inner, behind⟩ := block
            obtain ⟨gap, d, hgap, hpair, ht⟩ := block_split_declared ha hf hc hk hb hcl
            obtain ⟨-, rfl⟩ := Prod.mk.inj hpair
            by_cases hinner : d.inner = []
            · refine .inr (.inl ⟨gap ++ d.text attr, behind, by simp [d.text_ne_nil],
                endsName_append hgap (d.endsName_text attr), by simp [ht], ?_⟩)
              simp [hblocks, hk, hb, hcl, hinner]
            · refine .inr (.inr ⟨gap, d, behind, hgap, hinner, ht, ?_⟩)
              simp [hblocks, hk, hb, hcl, hinner, hpair]

theorem exists_layout {attr : Text} (ha : IsName attr) (gap : Text)
    (hgap : endsName gap = true) (t : Text) :
    ∃ parts last, gap ++ t = layout attr parts last ∧
      attributeBlocks attr t = parts.map (fun p => p.2.pair) ∧
      ∀ p ∈ parts, endsName p.1 = true ∧ p.2.inner ≠ [] := by
  -- `gap` is what the scan has passed over since the last declaration
  induction hlen : t.length using Nat.strongRecOn generalizing gap t with
  | _ n ih =>
    subst hlen
    obtain hnone | ⟨skipped, rest, hne, hskipped, rfl, hblocks⟩ |
      ⟨before, d, rest, hbefore, hinner, rfl, hblocks⟩ := attributeBlocks_cases ha t
    · exact ⟨[], gap ++ t, rfl, hnone, by simp⟩
    · have hpos := List.length_pos_iff.mpr hne
      obtain ⟨parts, last, hlayout, hpairs, hparts⟩ :=
        ih rest.length (by rw [List.length_append]; omega) (gap ++ skipped)
          (endsName_append hgap hskipped) rest rfl
      exact ⟨parts, last, by rw [← hlayout, List.append_assoc], hblocks.trans hpairs, hparts⟩
    · have hpos := List.length_pos_iff.mpr (d.text_ne_nil attr)
      obtain ⟨parts, last, hlayout, hpairs, hparts⟩ :=
        ih rest.length (by simp only [List.length_append]; omega) [] rfl rest rfl
      refine ⟨(gap ++ before, d) :: parts, last, ?_, by rw [hblocks, hpairs, List.map_cons], ?_⟩
      · rw [layout_cons, ← hlayout, List.nil_append, List.append_assoc]
      · intro p hp
        rcases List.mem_cons.mp hp with rfl | hp
        · exact ⟨endsName_append hgap hbefore, hinner⟩
        · exact hparts p hp

/-- The blocks stand in the text one behind the other, without overlap, and each where a name may
start. -/
def StandIn (attr t : Text) (blocks : List (Text × Text)) : Prop :=
  ∃ parts last, t = layout attr parts last ∧ blocks = parts.map (fun p => p.2.pair) ∧
    (∀ p ∈ parts, p.2.inner ≠ []) ∧
    ∀ front p back, parts = front ++ p :: back → endsName (layout attr front p.1) = true

/-- Whatever the text, the blocks found in it stand there, one behind the other. -/
theorem attributeBlocks_standIn {attr : Text} (ha : IsName attr) (t : Text) :
    StandIn attr t (attributeBlocks attr t) := by
  obtain ⟨parts, last, hlayout, hpairs, hparts⟩ := exists_layout ha [] rfl t
  refine ⟨parts, last, hlayout, hpairs, fun p hp => (hparts p hp).2, ?_⟩
  rintro front p back rfl
  exact endsName_layout (fun q hq => (hparts q (by simp [hq])).1) (hparts p (by simp)).1

/-- A key that swallows the next one, a block that never closes with one in it that does, and a
name that continues another. -/
def malformedText : Text :=
  "fileSystems.\"a fileSystems.\"b\" = \x7b 1 \x7d; fileSystems.\"c\" = \x7b \"\x7d\"; ".toList ++
    "x.fileSystems.\"d\" = \x7b 2 \x7d; fileSystems.\"e\" = \x7b 3 \x7d; \x7b".toList

theorem attributeBlocks_standIn_malformed :
    IsName "fileSystems" ∧
    attributeBlocks "fileSystems" malformedText = [("e".toList, " 3 ".toList)] ∧
    StandIn "fileSystems" malformedText [("e".toList, " 3 ".toList)] := by
  have hn : IsName "fileSystems" := by decide
  have hfound : attributeBlocks "fileSystems" malformedText = [("e".toList, " 3 ".toList)] := by
    decide +kernel
  exact ⟨hn, hfound, hfound ▸ attributeBlocks_standIn hn malformedText⟩

end MachineFacts
