import MachineFacts.Proofs.Machine
import MachineFacts.Proofs.Listing

/-! Reading the fields of a filesystem back from the text of its block. Each field is read where it
is written, and the searches for the others pass over it. -/

namespace MachineFacts

theorem isNameChar_of_isBlank {c : Char} (h : isBlank c = true) : isNameChar c = false := by
  cases hc : isNameChar c with
  | false => rfl
  | true => rw [isBlank_of_isNameChar hc] at h; cases h

theorem Gap.not_mem (g : Gap) {c : Char} (h : isBlank c = false) : c ∉ g.1 := by
  intro hc
  have := g.2 c hc
  simp [h] at this

theorem Gap.passes (g : Gap) (q : Query) : q.Passes g.1 :=
  q.passes_of_forall fun c hc => isNameChar_of_isBlank (g.2 c hc)

theorem endsName_concat (t : Text) {c : Char} (h : isNameChar c = false) :
    endsName (t ++ [c]) = true := by
  rw [endsName, List.getLast?_concat]
  simp [h]

theorem Query.passes_strings {q : Query} {items : List (Gap × Token)} (closing : Gap)
    (h : ∀ i ∈ items, q.Misses (i.2.1 ++ "\"")) : q.Passes (stringsText items closing) := by
  refine Query.Passes.append (passes_flatMap fun i hi => ?_) (closing.passes q)
  have hquote : q.Passes ['"'] := q.passes_of_forall (by decide)
  have htoken : q.Passes (i.2.1 ++ ['"']) := ⟨endsName_concat _ (by decide), h i hi⟩
  exact (i.1.passes q).append (hquote.append htoken)

theorem listEnd_strings (items : List (Gap × Token)) (closing : Gap) (y : Text) :
    listEnd false (stringsText items closing ++ y) = listEnd false y := by
  induction items with
  | nil =>
    have hq : '"' ∉ closing.1 := Gap.not_mem closing (by decide)
    have hb : ']' ∉ closing.1 := Gap.not_mem closing (by decide)
    rw [stringsText, List.flatMap_nil, List.nil_append,
      listEnd_of_open (listEnd_of_not_mem hq hb), quotedAfter_of_not_mem hq]
  | cons i items ih =>
    have hq : '"' ∉ i.1.1 := Gap.not_mem i.1 (by decide)
    have hb : ']' ∉ i.1.1 := Gap.not_mem i.1 (by decide)
    have hitem := listEnd_token hq hb i.2.2 (stringsText items closing ++ y)
    rw [ih] at hitem
    simpa [stringsText] using hitem

theorem quotedStrings_strings (items : List (Gap × Token)) (closing : Gap) :
    quotedStrings (stringsText items closing) = stringsOf items := by
  induction items with
  | nil => exact quotedStrings_of_not_mem (Gap.not_mem closing (by decide))
  | cons i items ih =>
    have hq : '"' ∉ i.1.1 := Gap.not_mem i.1 (by decide)
    have hitem := quotedStrings_token hq i.2.2 (stringsText items closing)
    rw [ih] at hitem
    by_cases ht : i.2.1 = []
    · simpa [stringsText, stringsOf, ht] using hitem
    · simpa [stringsText, stringsOf, ht] using hitem

theorem stringListField_written {name : Text} (hn : IsName name) (items : List (Gap × Token))
    (closing : Gap) (y : Text) :
    stringListField name (name ++ (" = [" ++ (stringsText items closing ++ ("];" ++ y)))) =
      some (stringsOf items) := by
  refine readNamed_of_start hn ?_
  have hassigned : assigned '[' (" = [" ++ (stringsText items closing ++ ("];" ++ y))) =
      some (stringsText items closing ++ ("];" ++ y)) := rfl
  have hend : listEnd false (stringsText items closing ++ ("];" ++ y)) = some (";" ++ y) := by
    rw [listEnd_strings]
    rfl
  have hfront : front (stringsText items closing ++ ("];" ++ y)) 1 (";" ++ y) =
      stringsText items closing := front_append (stringsText items closing) [']'] (";" ++ y)
  simp only [readStrings, hassigned, hend, hfront, quotedStrings_strings]

theorem IsName.not_occurs {name t : Text} (hn : IsName name)
    (ht : ∀ c ∈ t, isNameChar c = false) : occurs name t = false := by
  refine occurs_eq_false_iff.mpr fun hin => ?_
  have hmem := List.head_mem hn.1
  have hname := hn.2 _ hmem
  rw [ht _ (hin.subset hmem)] at hname
  cases hname

theorem unread_of_start {α : Type} {name rest : Text} {read : Text → Reading α} (hn : IsName name)
    (hrest : ∀ c ∈ rest, isNameChar c = false) (hread : ∀ y, read (rest ++ y) = .absent) :
    Unread name read (name ++ rest) := by
  intro u hu z
  rw [standings_of_start hn, standings_eq_nil_of_occurs (hn.not_occurs hrest)] at hu
  rw [List.mem_singleton.mp hu]
  exact hread z

theorem stringField_written {name : Text} (hn : IsName name) (value : Token) (y : Text) :
    stringField name (name ++ (" = \"" ++ (value.1 ++ ("\"" ++ (";" ++ y))))) =
      (if value.1 = [] then none else some value.1).or (stringField name y) := by
  have hassigned : ∀ t : Text, assigned '"' (" = \"" ++ t) = some t := fun _ => rfl
  by_cases hv : value.1 = []
  · have hends : endsName (name ++ " = \"\";") = true := by
      rw [endsName, List.getLast?_append]
      rfl
    have hunread : Unread name readString (name ++ " = \"\";") :=
      unread_of_start hn (by decide) fun _ => rfl
    rw [hv, if_pos rfl, Option.none_or]
    have hskip := readNamed_append_of_unread hn hends hunread y
    rw [List.append_assoc] at hskip
    exact hskip
  · have hcut : cut '"' (value.1 ++ ("\"" ++ (";" ++ y))) = some (value.1, ";" ++ y) :=
      cut_eq_some_iff.mpr ⟨rfl, value.2⟩
    have hread : readString (" = \"" ++ (value.1 ++ ("\"" ++ (";" ++ y)))) = .found value.1 := by
      rw [readString, hassigned]
      simp only [hcut]
      cases hval : value.1 with
      | nil => exact absurd hval hv
      | cons c rest => rfl
    rw [if_neg hv, Option.some_or]
    exact readNamed_of_start hn hread

theorem Query.passes_of_not_occurs {q : Query} {t : Text} (hends : endsName t = true)
    (h : occurs q.needle t = false) : q.Passes t :=
  ⟨hends, misses_of_not_occurs h⟩

theorem Field.passes {f : Field} (hf : f.WellFormed) {q : Query} (hq : q ≠ .filesystems)
    (hown : f.query? ≠ some q) : q.Passes f.text := by
  have hparts := hf.missed q hq hown
  have hquote : ∀ {t}, q.Misses (t ++ "\"") → q.Passes (t ++ "\"") :=
    fun h => ⟨endsName_concat _ (by decide), h⟩
  have hend : q.Passes ";" := q.passes_of_forall (by decide)
  cases f with
  | string a value =>
    have hfixed : ∀ a : Attribute, ∀ q : Query, q ≠ .string a →
        occurs q.needle (a.name ++ " = \"") = false := by
      intro a
      cases a <;> decide
    have hvalue : q.Passes (value.1 ++ "\"") := hquote (hparts _ List.mem_cons_self)
    have hends : endsName (a.name ++ " = \"") = true := by
      cases a <;> decide
    have hlead : q.Passes (a.name ++ " = \"") :=
      Query.passes_of_not_occurs hends (hfixed a q fun h => hown (congrArg some h.symm))
    exact hlead.append (hvalue.append hend)
  | options items closing =>
    have hfixed : ∀ q : Query, q ≠ .options → occurs q.needle ("options" ++ " = [".toList) = false := by decide
    have hlead : q.Passes ("options" ++ " = [".toList) :=
      Query.passes_of_not_occurs (by decide) (hfixed q fun h => hown (congrArg some h.symm))
    have hstrings : q.Passes (stringsText items closing) :=
      Query.passes_strings closing fun i hi => hparts _ (List.mem_map_of_mem hi)
    exact hlead.append (hstrings.append (q.passes_of_forall (by decide)))
  | other text =>
    have hlast := hf.complete.2
    refine ⟨?_, hparts _ List.mem_cons_self⟩
    show endsName text = true
    rw [endsName, hlast]
    rfl

theorem Query.passes_fields {fields : List (Gap × Field)} (closing : Gap)
    (hf : ∀ f ∈ fields, f.2.WellFormed) {q : Query} (hq : q ≠ .filesystems)
    (hown : ∀ f ∈ fields, f.2.query? ≠ some q) : q.Passes (fieldsText fields closing) := by
  refine Query.Passes.append (Query.passes_flatMap fun f h => ?_) (closing.passes q)
  exact (f.1.passes q).append (Field.passes (hf f h) hq (hown f h))

theorem Field.string_append {f : Field} (hf : f.WellFormed) (a : Attribute) (y : Text) :
    stringField a.name (f.text ++ y) = (f.string? a).or (stringField a.name y) := by
  have hskip : f.query? ≠ some (.string a) → f.string? a = none →
      stringField a.name (f.text ++ y) = (f.string? a).or (stringField a.name y) := by
    intro hquery hnone
    have hpass := Field.passes hf (by simp) hquery
    rw [hnone, Option.none_or]
    exact readNamed_append_of_unread a.isName_name hpass.ends hpass.misses y
  cases f with
  | string b value =>
    by_cases hb : b = a
    · subst hb
      have hread := stringField_written b.isName_name value y
      show stringField b.name (b.name ++ " = \"" ++ ((value.1 ++ "\"") ++ ";") ++ y) = _
      simp only [List.append_assoc, hread]
      by_cases hv : value.1 = [] <;> simp [string?, hv]
    · exact hskip (by simp [query?, hb]) (by simp [string?, hb])
  | options items closing => exact hskip (by simp [query?]) rfl
  | other text => exact hskip (by simp [query?]) rfl

theorem Field.options_append {f : Field} (hf : f.WellFormed) (y : Text) :
    stringListField "options" (f.text ++ y) = f.options?.or (stringListField "options" y) := by
  have hskip : f.query? ≠ some .options →
      stringListField "options" (f.text ++ y) = stringListField "options" y := by
    intro hquery
    have hpass := Field.passes hf (by simp) hquery
    exact readNamed_append_of_unread (by decide) hpass.ends hpass.misses y
  cases f with
  | options items closing =>
    show stringListField "options"
      ("options" ++ " = [" ++ (stringsText items closing ++ "];") ++ y) = _
    simp only [List.append_assoc]
    exact stringListField_written (by decide) items closing y
  | string a value => exact hskip (by simp [query?])
  | other text => exact hskip (by simp [query?])

theorem readNamed_gap {α : Type} {name : Text} {read : Text → Reading α} (hn : IsName name)
    (g : Gap) (y : Text) : readNamed name read true (g.1 ++ y) = readNamed name read true y := by
  have hblank : ∀ c ∈ g.1, isNameChar c = false := fun c hc => isNameChar_of_isBlank (g.2 c hc)
  have hnil := standings_eq_nil_of_occurs (hn.not_occurs hblank) true
  exact readNamed_append_of_unread hn (endsName_of_forall hblank)
    (unread_of_standings_eq_nil hnil) y

theorem readNamed_closing {α : Type} {name : Text} {read : Text → Reading α} (hn : IsName name)
    (g : Gap) : readNamed name read true g.1 = none := by
  have hgap : readNamed name read true (g.1 ++ []) = readNamed name read true [] :=
    readNamed_gap hn g []
  rw [List.append_nil] at hgap
  rw [hgap, readNamed_eq_first hn, standings_nil hn.1]
  rfl

/-- A search that starts anew behind each part of a text takes the parts in one by one. -/
theorem search_parts {α β : Type} (search : Text → α) {text : β → Text} (add : β → α → α)
    {parts : List (Gap × β)} (hgap : ∀ (g : Gap) (y : Text), search (g.1 ++ y) = search y)
    (h : ∀ p ∈ parts, ∀ y, search (text p.2 ++ y) = add p.2 (search y)) (y : Text) :
    search ((parts.flatMap fun p => p.1.1 ++ text p.2) ++ y) =
      parts.foldr (fun p a => add p.2 a) (search y) := by
  induction parts with
  | nil => rfl
  | cons p parts ih =>
    have hrest := ih fun q hq => h q (List.mem_cons_of_mem p hq)
    simp only [List.flatMap_cons, List.append_assoc, List.foldr_cons]
    rw [hgap, h p List.mem_cons_self, hrest]

theorem foldr_or {α β : Type} (value : β → Option α) (parts : List β) (a : Option α) :
    parts.foldr (fun p a => (value p).or a) a = (parts.findSome? value).or a := by
  induction parts with
  | nil => rfl
  | cons p parts ih =>
    rw [List.foldr_cons, ih, List.findSome?_cons]
    cases value p <;> rfl

theorem readNamed_parts {α β : Type} {name : Text} {read : Text → Reading α} {text : β → Text}
    {value : β → Option α} {parts : List (Gap × β)} (hn : IsName name)
    (h : ∀ p ∈ parts, ∀ y, readNamed name read true (text p.2 ++ y) =
      (value p.2).or (readNamed name read true y)) (y : Text) :
    readNamed name read true ((parts.flatMap fun p => p.1.1 ++ text p.2) ++ y) =
      (parts.findSome? fun p => value p.2).or (readNamed name read true y) :=
  (search_parts (readNamed name read true) (fun b a => (value b).or a) (readNamed_gap hn) h y).trans
    (foldr_or (fun p => value p.2) parts _)

theorem Entry.ofBlock_fieldsText {fields : List (Gap × Field)} (closing : Gap)
    (hf : ∀ f ∈ fields, f.2.WellFormed) :
    Entry.ofBlock (fieldsText fields closing) = Entry.ofFields fields := by
  have hstring : ∀ a : Attribute, stringField a.name (fieldsText fields closing) =
      fields.findSome? fun f => f.2.string? a := by
    intro a
    have hread := readNamed_parts a.isName_name
      (fun f h y => Field.string_append (hf f h) a y) closing.1
    rw [readNamed_closing a.isName_name, Option.or_none] at hread
    exact hread
  have hoptions : stringListField "options" (fieldsText fields closing) =
      fields.findSome? fun f => f.2.options? := by
    have hn : IsName "options" := by decide
    have hread := readNamed_parts hn (fun f h y => Field.options_append (hf f h) y) closing.1
    rw [readNamed_closing hn, Option.or_none] at hread
    exact hread
  simp only [Entry.ofBlock, Entry.ofFields, Entry.mk.injEq]
  exact ⟨hstring .device, hstring .fsType, hoptions⟩

theorem Gap.balanced (g : Gap) : Balanced g.1 := by
  refine balanced_of_forall fun c hc hmem => ?_
  have hblank := g.2 c hc
  revert hblank
  simp only [List.mem_cons, List.not_mem_nil, or_false] at hmem
  rcases hmem with rfl | rfl | rfl | rfl <;> decide

theorem balanced_strings {items : List (Gap × Token)} (closing : Gap)
    (h : ∀ i ∈ items, Literal i.2.1) : Balanced (stringsText items closing) :=
  (balanced_flatMap fun i hi => i.1.balanced.append (balanced_string (h i hi))).append
    closing.balanced

theorem Field.balanced {f : Field} (hf : f.WellFormed) : Balanced f.text := by
  have hcomplete := hf.complete
  cases f with
  | string a value =>
    have hlead : Balanced (a.name ++ " = ") := by
      cases a <;> exact balanced_of_forall (by decide)
    have hend : Balanced ";" := balanced_of_forall (by decide)
    have htext := hlead.append ((balanced_string hcomplete).append hend)
    show Balanced (a.name ++ " = \"" ++ ((value.1 ++ "\"") ++ ";"))
    simpa using htext
  | options items closing =>
    have hlead : Balanced ("options" ++ " = [".toList) := balanced_of_forall (by decide)
    have hend : Balanced "];" := balanced_of_forall (by decide)
    exact hlead.append ((balanced_strings closing hcomplete).append hend)
  | other text => exact hcomplete.1

theorem balanced_fieldsText {fields : List (Gap × Field)} (closing : Gap)
    (hf : ∀ f ∈ fields, f.2.WellFormed) : Balanced (fieldsText fields closing) :=
  (balanced_flatMap fun f h => f.1.balanced.append (Field.balanced (hf f h))).append
    closing.balanced

end MachineFacts
