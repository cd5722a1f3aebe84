import Mathlib.Data.List.Basic
import MachineFacts.Proofs.Imports

/-! Reading a machine back from the document it is written out to. Each statement is read where it
stands, whatever follows it, and the other searches pass over it. -/

namespace MachineFacts

theorem Statement.passes {s : Statement} (hs : s.WellFormed) {q : Query}
    (hq : q.inBlocks = false) (hown : s.query ≠ q) : q.Passes s.text := by
  have hparts := hs.missed q hq hown
  cases s with
  | imports opening items =>
    have hfixed : ∀ q : Query, q ≠ .imports →
        occurs q.needle ("imports" ++ " = [".toList) = false := by decide
    have hlead : q.Passes ("imports" ++ " = [".toList) :=
      Query.passes_of_not_occurs (by decide) (hfixed q fun h => hown h.symm)
    have himports := Query.passes_imports hq (fun h => hown h.symm) hs
    exact hlead.append (himports.append (q.passes_of_forall (by decide)))
  | modules stage items closing =>
    have hfixed : ∀ stage, ∀ q : Query, q ≠ .modules stage →
        occurs q.needle (stage.option ++ " = [") = false := by
      intro stage
      cases stage <;> decide
    have hends : endsName (stage.option ++ " = [") = true := by
      cases stage <;> decide
    have hlead : q.Passes (stage.option ++ " = [") :=
      Query.passes_of_not_occurs hends (hfixed stage q fun h => hown h.symm)
    have hstrings : q.Passes (stringsText items closing) :=
      Query.passes_strings closing fun i hi => hparts _ (List.mem_map_of_mem hi)
    exact hlead.append (hstrings.append (q.passes_of_forall (by decide)))
  | loader l tail =>
    refine ⟨?_, hparts _ List.mem_cons_self⟩
    show endsName (l.indicator ++ (tail ++ [';'])) = true
    rw [← List.append_assoc]
    exact endsName_concat _ (by decide)
  | uefi tail =>
    refine ⟨?_, hparts _ List.mem_cons_self⟩
    show endsName (uefiIndicator ++ (tail ++ [';'])) = true
    rw [← List.append_assoc]
    exact endsName_concat _ (by decide)
  | filesystem mount fields closing =>
    have hfixed : ∀ q : Query, q ≠ .filesystems →
        occurs q.needle (filesystemsAttribute ++ ".\"") = false := by decide
    have hne : q ≠ .filesystems := fun h => hown h.symm
    have hlead : q.Passes (filesystemsAttribute ++ ".\"") :=
      Query.passes_of_not_occurs (by decide) (hfixed q hne)
    have hmount : q.Passes (mount.1 ++ "\"") :=
      ⟨endsName_concat _ (by decide), hparts _ List.mem_cons_self⟩
    have hfields : ∀ f ∈ fields, f.2.query? ≠ some q := by
      intro f _ hquery
      cases hf : f.2 <;> simp only [hf, Field.query?] at hquery <;> cases hquery <;> cases hq
    have hbody := Query.passes_fields closing hs.complete.2 hne hfields
    exact hlead.append (hmount.append ((q.passes_of_forall (by decide)).append
      (hbody.append (q.passes_of_forall (by decide)))))

theorem Statement.listBlock_append {s : Statement} (hs : s.WellFormed) (y : Text) :
    (listBlock "imports" (s.text ++ y)).map profileNames =
      s.profiles?.or ((listBlock "imports" y).map profileNames) := by
  have hskip : s.query ≠ .imports → s.profiles? = none →
      (listBlock "imports" (s.text ++ y)).map profileNames =
        s.profiles?.or ((listBlock "imports" y).map profileNames) := by
    intro hquery hnone
    rw [hnone, Option.none_or, listBlock_append_of_passes (Statement.passes hs rfl hquery)]
  cases s with
  | imports opening items =>
    show (listBlock "imports"
      ("imports" ++ " = [" ++ (importsText opening items ++ "];") ++ y)).map profileNames = _
    simp only [List.append_assoc]
    rw [listBlock_written hs.complete, Option.map_some, profileNames_imports hs.complete]
    rfl
  | modules stage items closing => exact hskip (by simp [query]) rfl
  | loader l tail => exact hskip (by simp [query]) rfl
  | uefi tail => exact hskip (by simp [query]) rfl
  | filesystem mount fields closing => exact hskip (by simp [query]) rfl

theorem Statement.modules_append {s : Statement} (hs : s.WellFormed) (stage : Stage) (y : Text) :
    stringListField stage.option (s.text ++ y) =
      (s.modules? stage).or (stringListField stage.option y) := by
  have hskip : s.query ≠ .modules stage → s.modules? stage = none →
      stringListField stage.option (s.text ++ y) =
        (s.modules? stage).or (stringListField stage.option y) := by
    intro hquery hnone
    have hpass := Statement.passes hs rfl hquery
    rw [hnone, Option.none_or]
    exact readNamed_append_of_unread stage.isName_option hpass.ends hpass.misses y
  cases s with
  | modules other items closing =>
    by_cases ho : other = stage
    · subst ho
      show stringListField other.option
        (other.option ++ " = [" ++ (stringsText items closing ++ "];") ++ y) = _
      simp only [List.append_assoc]
      rw [stringListField_written other.isName_option]
      simp [modules?]
    · exact hskip (by simp [query, ho]) (by simp [modules?, ho])
  | imports opening items => exact hskip (by simp [query]) rfl
  | loader l tail => exact hskip (by simp [query]) rfl
  | uefi tail => exact hskip (by simp [query]) rfl
  | filesystem mount fields closing => exact hskip (by simp [query]) rfl

def Query.isWord : Query → Bool
  | .loader _ | .uefi => true
  | _ => false

theorem Query.occurs_append_of_passes {q : Query} (hq : q.isWord = true) {x : Text}
    (hx : q.Passes x) (y : Text) : occurs q.needle (x ++ y) = occurs q.needle y := by
  have hnone : occurs q.needle x = false := by
    have hmisses := hx.misses
    cases q <;> first | exact hmisses | cases hq
  rw [occurs_append_of_endsName q.nameLike_needle hx.ends, hnone, Bool.false_or]

theorem Statement.occurs_append {s : Statement} (hs : s.WellFormed) {q : Query}
    (hq : q.isWord = true) (y : Text) :
    occurs q.needle (s.text ++ y) = (decide (s.query = q) || occurs q.needle y) := by
  by_cases hown : s.query = q
  · have hlead : q.needle <+: s.text ++ y := by
      subst hown
      cases s with
      | loader l tail => exact (List.prefix_append l.indicator (tail ++ ";")).trans (List.prefix_append _ y)
      | uefi tail => exact (List.prefix_append uefiIndicator (tail ++ ";")).trans (List.prefix_append _ y)
      | _ => cases hq
    simp [hown, occurs_iff.mpr hlead.isInfix]
  · have hblocks : q.inBlocks = false := by
      cases q <;> first | rfl | cases hq
    rw [Query.occurs_append_of_passes hq (Statement.passes hs hblocks hown)]
    simp [hown]

/-- A block that is written out is read back with its whole inner text. -/
theorem filesystemBlocks_written {mount : Token} (hm : mount.1 ≠ []) {body : Text}
    (hb : Balanced body) (y : Text) :
    filesystemBlocks (filesystemsAttribute ++ ".\"" ++
        (mount.1 ++ ("\"" ++ (" = \x7b" ++ (body ++ ("\x7d;" ++ y)))))) =
      (if body = [] then [] else [(mount.1, body)]) ++ filesystemBlocks y := by
  have ha : IsName filesystemsAttribute := by decide
  have hf := findName_of_start (nameLike_introducer ha).1
    (mount.1 ++ ("\"" ++ (" = \x7b" ++ (body ++ ("\x7d;" ++ y)))))
  have hc : cut '"' (mount.1 ++ ("\"" ++ (" = \x7b" ++ (body ++ ("\x7d;" ++ y))))) =
      some (mount.1, " = \x7b" ++ (body ++ ("\x7d;" ++ y))) := cut_eq_some_iff.mpr ⟨rfl, mount.2⟩
  have hassigned : assigned '\x7b' (" = \x7b" ++ (body ++ ("\x7d;" ++ y))) =
      some (body ++ ("\x7d;" ++ y)) := rfl
  have hclose : closeBlock (body ++ ("\x7d;" ++ y)) = some (body, ";" ++ y) :=
    closeBlock_balanced hb (";" ++ y)
  have hrest : declarations filesystemsAttribute true (";" ++ y) =
      declarations filesystemsAttribute true y :=
    declarations_append_of_none ha (by decide) (by decide) y
  rw [filesystemBlocks, attributeBlocks, declarations_of_key hf hc, if_neg hm]
  simp only [hassigned, hclose, hrest]
  by_cases hbody : body = []
  · rw [if_pos hbody, if_pos hbody]
    rfl
  · rw [if_neg hbody, if_neg hbody]
    rfl

theorem Statement.filesystemBlocks_append {s : Statement} (hs : s.WellFormed) (y : Text) :
    filesystemBlocks (s.text ++ y) = s.block?.toList ++ filesystemBlocks y := by
  have hskip : s.query ≠ .filesystems → s.block? = none →
      filesystemBlocks (s.text ++ y) = s.block?.toList ++ filesystemBlocks y := by
    intro hquery hnone
    rw [hnone, filesystemBlocks_append_of_passes (Statement.passes hs rfl hquery)]
    rfl
  cases s with
  | filesystem mount fields closing =>
    show filesystemBlocks (filesystemsAttribute ++ ".\"" ++
      ((mount.1 ++ "\"") ++ (" = \x7b" ++ (fieldsText fields closing ++ "\x7d;"))) ++ y) = _
    have hbody := balanced_fieldsText closing hs.complete.2
    have hread := filesystemBlocks_written hs.complete.1 hbody y
    simp only [List.append_assoc] at hread ⊢
    rw [hread]
    by_cases hnil : fieldsText fields closing = [] <;> simp [block?, hnil]
  | imports opening items => exact hskip (by simp [query]) rfl
  | modules stage items closing => exact hskip (by simp [query]) rfl
  | loader l tail => exact hskip (by simp [query]) rfl
  | uefi tail => exact hskip (by simp [query]) rfl

theorem foldr_append {α β : Type} (value : β → Option α) (parts : List β) :
    parts.foldr (fun p a => (value p).toList ++ a) [] = parts.filterMap value := by
  induction parts with
  | nil => rfl
  | cons p parts ih =>
    rw [List.foldr_cons, ih]
    cases hv : value p <;> simp [hv]

theorem foldr_any {β : Type} (value : β → Bool) (parts : List β) :
    parts.foldr (fun p a => value p || a) false = parts.any value := by
  induction parts with
  | nil => rfl
  | cons p parts ih => rw [List.foldr_cons, ih, List.any_cons]

variable {m : Machine}

theorem Machine.header_passes (hm : m.WellFormed) {q : Query} (hq : q.inBlocks = false) :
    q.Passes m.header := by
  refine ⟨?_, hm.missed q hq⟩
  rcases hm.header with hnil | hlast
  · rw [hnil]
    rfl
  · rw [endsName, hlast]
    rfl

theorem Machine.footer_passes (hm : m.WellFormed) (q : Query) : q.Passes m.footer := by
  refine q.passes_of_forall fun c hc => ?_
  rcases hm.footer c hc with hblank | rfl
  · exact isNameChar_of_isBlank hblank
  · rfl

/-- A search that takes in one statement after the other and passes over the rest has taken in
the whole document at its end. -/
theorem Machine.search_text {α : Type} (hm : m.WellFormed) {q : Query} (hq : q.inBlocks = false)
    (search : Text → α) (add : Statement → α → α)
    (hskip : ∀ {x : Text}, q.Passes x → ∀ y, search (x ++ y) = search y)
    (hstep : ∀ {s : Statement}, s.WellFormed → ∀ y, search (s.text ++ y) = add s (search y)) :
    search m.text = m.statements.foldr (fun s a => add s.2 a) (search []) := by
  have hfooter := hskip (Machine.footer_passes hm q) []
  have hparts := search_parts search add (fun g => hskip (g.passes q))
    (fun s h => hstep (hm.statements s h)) m.footer
  rw [List.append_nil] at hfooter
  rw [text, hskip (Machine.header_passes hm hq), hparts, hfooter]

theorem Machine.filesystemBlocks_text (hm : m.WellFormed) :
    filesystemBlocks m.text = m.statements.filterMap fun s => s.2.block? := by
  have hsearch := Machine.search_text hm (q := .filesystems) rfl filesystemBlocks
    (fun s a => s.block?.toList ++ a) filesystemBlocks_append_of_passes
    Statement.filesystemBlocks_append
  have hnil : filesystemBlocks [] = [] := by decide +kernel
  rw [hsearch, hnil]
  exact foldr_append (fun s => s.2.block?) m.statements

theorem Machine.profiles_text (hm : m.WellFormed) :
    importedProfiles m.text = (m.statements.findSome? fun s => s.2.profiles?).getD [] := by
  have hsearch := Machine.search_text hm (q := .imports) rfl
    (fun t => (listBlock "imports" t).map profileNames) (fun s a => s.profiles?.or a)
    (fun h y => congrArg _ (listBlock_append_of_passes h y)) Statement.listBlock_append
  have hnil : (listBlock "imports" []).map profileNames = none := by decide +kernel
  rw [hnil, foldr_or (fun s : Gap × Statement => s.2.profiles?), Option.or_none] at hsearch
  rw [← hsearch, importedProfiles]
  cases listBlock "imports" m.text <;> rfl

theorem Machine.modules_text (hm : m.WellFormed) (stage : Stage) :
    stringListField stage.option m.text = m.statements.findSome? fun s => s.2.modules? stage := by
  have hsearch := Machine.search_text hm (q := .modules stage) rfl (stringListField stage.option)
    (fun s a => (s.modules? stage).or a)
    (fun h y => readNamed_append_of_unread stage.isName_option h.ends h.misses y)
    (fun hs y => Statement.modules_append hs stage y)
  have hnil : stringListField stage.option [] = none := by
    cases stage <;> decide +kernel
  rw [hsearch, hnil, foldr_or (fun s : Gap × Statement => s.2.modules? stage), Option.or_none]

theorem Machine.occurs_text (hm : m.WellFormed) {q : Query} (hq : q.isWord = true) :
    occurs q.needle m.text = m.statements.any fun s => s.2.query = q := by
  have hblocks : q.inBlocks = false := by
    cases q <;> first | rfl | cases hq
  have hsearch := Machine.search_text hm hblocks (occurs q.needle)
    (fun s a => decide (s.query = q) || a) (fun h y => Query.occurs_append_of_passes hq h y)
    (fun hs y => Statement.occurs_append hs hq y)
  have hnil : ∀ q : Query, occurs q.needle [] = false := by decide
  rw [hsearch, hnil q]
  exact foldr_any (fun s => decide (s.2.query = q)) m.statements

theorem Statement.mounted?_eq {s : Statement} (hs : s.WellFormed) :
    s.mounted? = s.block?.map fun b => (b.1, Entry.ofBlock b.2) := by
  cases s with
  | filesystem mount fields closing =>
    rw [mounted?, block?, ← Entry.ofBlock_fieldsText closing hs.complete.2]
    by_cases hnil : fieldsText fields closing = [] <;> simp [hnil]
  | _ => rfl

theorem Machine.mounts_text (hm : m.WellFormed) :
    Mounts.ofText m.text = .ofList (m.statements.filterMap fun s => s.2.mounted?) := by
  have hentries : (m.statements.filterMap fun s => s.2.mounted?) =
      (m.statements.filterMap fun s => s.2.block?).map fun b => (b.1, Entry.ofBlock b.2) := by
    rw [List.map_filterMap]
    exact List.filterMap_congr fun s h => Statement.mounted?_eq (hm.statements s h)
  rw [Mounts.ofText, Machine.filesystemBlocks_text hm, hentries]

/-- The document of a machine states its facts and no others. -/
theorem Machine.ofText_text (hm : m.WellFormed) (source : Text) :
    Facts.ofText m.text source = m.facts source := by
  have hloader : ∀ l : Loader, occurs l.indicator m.text =
      m.statements.any fun s => s.2.query = .loader l := fun l =>
    Machine.occurs_text hm (show (Query.loader l).isWord = true from rfl)
  have huefi : occurs uefiIndicator m.text = m.statements.any fun s => s.2.query = .uefi :=
    Machine.occurs_text hm (show Query.uefi.isWord = true from rfl)
  have hinitrd : stringListField initrdModulesOption m.text = _ :=
    Machine.modules_text hm .initrd
  have hkernel : stringListField kernelModulesOption m.text = _ :=
    Machine.modules_text hm .kernel
  simp only [Facts.ofText, Machine.facts, Boot.ofText, Loader.detect, Machine.mounts_text hm,
    Machine.profiles_text hm, hloader, huefi, hinitrd, hkernel]

def Gap.space : Gap := ⟨" ".toList, by decide⟩

def cryptField : Field :=
  .other ("crypt = " ++ '\x7b' :: (" label = " ++ '"' :: ("a\\\"\x7d" ++ '"' :: (";" ++
    '#' :: (" \x7d" ++ '\n' :: []))) ++ '\x7d' :: ";"))

def rootFields : List (Gap × Field) :=
  [(.space, .string .fsType ⟨"ext4".toList, by decide⟩), (.space, cryptField),
    (.space, .options [(.space, ⟨"noatime".toList, by decide⟩)] .space),
    (.space, .string .device ⟨"/dev/disk/by-label/fsType".toList, by decide⟩)]

def sampleMachine : Machine where
  header := "\x7b pkgs, ... \x7d: \x7b"
  statements :=
    [(.space, .uefi " = true"),
      (.space, .filesystem ⟨"/".toList, by decide⟩ rootFields .space),
      (.space, .imports .space [(.path "./disk.nix", .space), (.profile "common-pc", .space)]),
      (.space, .modules .kernel [(.space, ⟨"kvm-intel".toList, by decide⟩)] .space),
      (.space, .loader .grub ".device = \"nodev\"")]
  footer := " \x7d"

theorem cryptField_complete : cryptField.Complete := by
  have hstring : Literal "a\\\"\x7d" :=
    .plain (by decide) (by decide) (.escaped (.plain (by decide) (by decide) .nil))
  have hlabel : Balanced (" label = " ++ '"' :: ("a\\\"\x7d" ++ '"' :: (";" ++
      '#' :: (" \x7d" ++ '\n' :: [])))) :=
    (balanced_of_forall (by decide)).append
      (.quoted hstring ((balanced_of_forall (by decide)).append (.comment (by decide) .nil)))
  exact ⟨(balanced_of_forall (by decide)).append
    (.nested hlabel (balanced_of_forall (by decide))), by decide⟩

theorem rootDevice_wellFormed :
    (Field.string .device ⟨"/dev/disk/by-label/fsType".toList, by decide⟩).WellFormed := by
  refine ⟨literal_of_forall (by decide), fun q _ hown t ht => ?_⟩
  obtain rfl := List.mem_singleton.mp ht
  -- The label has the name of a field on a boundary, but nothing is assigned behind it.
  by_cases hq : q = .string .fsType
  · subst hq
    exact unread_of_decided settled_readString (by decide)
  · have hnone : ∀ q : Query, q ≠ .string .device → q ≠ .string .fsType →
        occurs q.needle "/dev/disk/by-label/fsType\"" = false := by decide
    exact Query.misses_of_not_occurs (hnone q (fun h => hown (congrArg some h.symm)) hq)

theorem rootFields_wellFormed : ∀ f ∈ rootFields, f.2.WellFormed := by
  have htype : Literal "ext4" := literal_of_forall (by decide)
  have hoption : ∀ i ∈ [(Gap.space, (⟨"noatime".toList, by decide⟩ : Token))], Literal i.2.1 := by
    intro i hi
    rw [List.mem_singleton.mp hi]
    exact literal_of_forall (by decide)
  exact List.forall_mem_cons.mpr ⟨Field.wellFormed_of_not_occurs htype (by decide),
    List.forall_mem_cons.mpr ⟨Field.wellFormed_of_not_occurs cryptField_complete (by decide),
    List.forall_mem_cons.mpr ⟨Field.wellFormed_of_not_occurs hoption (by decide),
    List.forall_mem_singleton.mpr rootDevice_wellFormed⟩⟩⟩

theorem sampleMachine_wellFormed : sampleMachine.WellFormed := by
  have hheader : ∀ q : Query, occurs q.needle sampleMachine.header = false := by decide
  have hitems : ∀ i ∈ [(Import.path "./disk.nix", Gap.space), (.profile "common-pc", Gap.space)],
      i.1.WellFormed ∧ i.2.1 ≠ [] := by
    refine List.forall_mem_cons.mpr ⟨?_, List.forall_mem_singleton.mpr ?_⟩
    · exact ⟨⟨by decide, by decide⟩, by decide⟩
    · exact ⟨⟨by decide, by decide⟩, by decide⟩
  refine ⟨by decide, fun q _ => Query.misses_of_not_occurs (hheader q), ?_, by decide⟩
  exact List.forall_mem_cons.mpr ⟨Statement.wellFormed_of_not_occurs trivial (by decide),
    List.forall_mem_cons.mpr ⟨Statement.wellFormed_of_not_occurs
      ⟨by decide, rootFields_wellFormed⟩ (by decide),
    List.forall_mem_cons.mpr ⟨Statement.wellFormed_of_not_occurs hitems (by decide),
    List.forall_mem_cons.mpr ⟨Statement.wellFormed_of_not_occurs trivial (by decide),
    List.forall_mem_singleton.mpr (Statement.wellFormed_of_not_occurs trivial (by decide))⟩⟩⟩⟩

theorem ofText_sampleMachine :
    sampleMachine.WellFormed ∧
    Facts.ofText sampleMachine.text "sample" = sampleMachine.facts "sample" ∧
    (sampleMachine.facts "sample").profiles = ["common-pc".toList] ∧
    (sampleMachine.facts "sample").mounts.get? "/" =
      some ⟨some "/dev/disk/by-label/fsType".toList, some "ext4".toList,
        some ["noatime".toList]⟩ :=
  ⟨sampleMachine_wellFormed, Machine.ofText_text sampleMachine_wellFormed _, by decide +kernel,
    by decide +kernel⟩

end MachineFacts
