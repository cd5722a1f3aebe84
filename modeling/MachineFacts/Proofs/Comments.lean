import MachineFacts.Facts
import MachineFacts.Proofs.Balance
import MachineFacts.Proofs.Declarations
import MachineFacts.Proofs.Listing
import MachineFacts.Proofs.Overriding

/-! Comment lines put into a document. The scan for a closing brace passes over them, but the
lookups by name do not know comments, so one is without effect where no lookup is in the middle
of something and where its text holds nothing that one of them reads. -/

namespace MachineFacts

def EndsLine (t : Text) : Prop := ∀ c ∈ t.getLast?, c = '\n'

instance (t : Text) : Decidable (EndsLine t) :=
  match h : t.getLast? with
  | none => isTrue (by simp [EndsLine, h])
  | some c => decidable_of_iff (c = '\n') (by simp [EndsLine, h])

theorem EndsLine.endsName {t : Text} (h : EndsLine t) : endsName t = true := by
  cases hl : t.getLast? with
  | none => simp [MachineFacts.endsName, hl]
  | some c =>
    rw [MachineFacts.endsName, hl, h c hl]
    rfl

theorem EndsLine.of_append {a b : Text} (h : EndsLine (a ++ b)) : EndsLine b :=
  fun c hc => h c (by simp [List.getLast?_append, Option.mem_def.mp hc])

theorem endsName_commentLine (w : Text) : endsName (commentLine w) = true := by
  rw [endsName, commentLine, ← List.cons_append, List.getLast?_concat]
  rfl

def FieldPasses {α : Type} (name : Text) (read : Text → Reading α) (w body : Text) : Prop :=
  (readNamed name read true body).isSome = true ∨
    Unread name read body ∧ Unread name read (commentLine w)

theorem readNamed_commentLine {α : Type} {name w body : Text} {read : Text → Reading α}
    (hn : IsName name) (hr : Settled read) (hbody : EndsLine body)
    (h : FieldPasses name read w body) (b : Text) :
    readNamed name read true (body ++ (commentLine w ++ b)) =
      readNamed name read true (body ++ b) := by
  rcases h with h | ⟨hunread, hcomment⟩
  · obtain ⟨value, hv⟩ := Option.isSome_iff_exists.mp h
    rw [readNamed_append_of_some hn hr hbody.endsName hv,
      readNamed_append_of_some hn hr hbody.endsName hv]
  · rw [readNamed_append_of_unread hn hbody.endsName hunread,
      readNamed_append_of_unread hn hbody.endsName hunread,
      readNamed_append_of_unread hn (endsName_commentLine w) hcomment]

/-- Behind `body`, inside a block, no field is read out of a comment with the text `w`, and none
is in the middle of its value, other than the options between two of their strings. -/
structure FieldsPass (w body : Text) : Prop where
  device : FieldPasses "device" readString w body
  fsType : FieldPasses "fsType" readString w body
  options : FieldPasses "options" readStrings w body ∨
    ListOpen "options" body ∧ AddsNoString (commentLine w)

theorem Entry.ofBlock_commentLine {w body : Text} (h : FieldsPass w body) (hbody : EndsLine body)
    (b : Text) :
    Entry.ofBlock (body ++ (commentLine w ++ b)) = Entry.ofBlock (body ++ b) := by
  have hdevice : stringField "device" (body ++ (commentLine w ++ b)) =
      stringField "device" (body ++ b) :=
    readNamed_commentLine (by decide) settled_readString hbody h.device b
  have hfsType : stringField "fsType" (body ++ (commentLine w ++ b)) =
      stringField "fsType" (body ++ b) :=
    readNamed_commentLine (by decide) settled_readString hbody h.fsType b
  have hoptions : stringListField "options" (body ++ (commentLine w ++ b)) =
      stringListField "options" (body ++ b) := by
    rcases h.options with h | ⟨hopen, hsilent⟩
    · exact readNamed_commentLine (by decide) settled_readStrings hbody h b
    · exact stringListField_insert (by decide) hbody.endsName hopen hsilent b
  simp only [Entry.ofBlock, hdevice, hfsType, hoptions]

def entriesOf (ds : List Declaration) : List (Text × Entry) :=
  (ds.filterMap Declaration.block?).map fun b => (b.1, Entry.ofBlock b.2)

theorem Mounts.ofText_eq (t : Text) :
    Mounts.ofText t = .ofList (entriesOf (declarations filesystemsAttribute true t)) := rfl

theorem entriesOf_cons (d : Declaration) (ds : List Declaration) :
    entriesOf (d :: ds) = entriesOf [d] ++ entriesOf ds := by
  simp only [entriesOf, ← List.map_append, ← List.filterMap_append, List.singleton_append]

/-- Keys may stand in the text, but no block with anything in it is assigned to them. -/
inductive Undeclared (attr : Text) : Text → Prop where
  | none {t : Text} : findName (attr ++ ".\"") true t = none → Undeclared attr t
  | emptyKey {t quoted rest : Text} :
      findName (attr ++ ".\"") true t = some quoted → cut '"' quoted = some ([], rest) →
      Undeclared attr rest → Undeclared attr t
  | unassigned {t quoted key rest : Text} :
      findName (attr ++ ".\"") true t = some quoted → cut '"' quoted = some (key, rest) →
      key ≠ [] → (∀ y, assigned '{' (rest ++ y) = .none) → Undeclared attr rest →
      Undeclared attr t
  | emptyBlock {t quoted key rest body behind : Text} :
      findName (attr ++ ".\"") true t = some quoted → cut '"' quoted = some (key, rest) →
      key ≠ [] → assigned '{' rest = some body → closeBlock body = some ([], behind) →
      Undeclared attr behind → Undeclared attr t

theorem Undeclared.entriesOf_append {attr x : Text} (ha : IsName attr) (h : Undeclared attr x)
    (hx : endsName x = true) (y : Text) :
    entriesOf (declarations attr true (x ++ y)) = entriesOf (declarations attr true y) := by
  have hbehind : ∀ {t quoted key rest : Text}, endsName t = true →
      findName (attr ++ ".\"") true t = some quoted → cut '"' quoted = some (key, rest) →
      endsName rest = true := by
    intro t quoted key rest ht hf hc
    obtain ⟨before, rfl⟩ := key_split ha hf hc
    exact endsName_of_append ht
  induction h with
  | none hf => rw [declarations_append_of_none ha hx hf]
  | emptyKey hf hc _ ih =>
    rw [declarations_append_of_key ha hx hf hc, if_pos rfl]
    exact ih (hbehind hx hf hc)
  | unassigned hf hc hk hb _ ih =>
    simp only [declarations_append_of_key ha hx hf hc, if_neg hk, hb]
    exact ih (hbehind hx hf hc)
  | @emptyBlock t quoted key rest body behind hf hc hk hb hclose _ ih =>
    have hu := undecided_of_assigned hb
    obtain ⟨before, rfl⟩ := block_split hb hclose
    have hrest := ih (endsName_of_append (hbehind hx hf hc))
    simp only [declarations_append_of_key ha hx hf hc, if_neg hk, assigned_append hu, hb,
      Option.map_some, closeBlock_append hclose, if_true]
    rw [entriesOf_cons, hrest]
    rfl

/-- The scan for filesystems may meet a comment with the text `w` behind `t`: it is then not in
the middle of a key or of an assignment, and each block still open there is met in code. -/
inductive ScanPasses (w : Text) : Text → Prop where
  | searching {t : Text} : findName (filesystemsAttribute ++ ".\"") true t = none → ScanPasses w t
  | emptyKey {t quoted rest : Text} :
      findName (filesystemsAttribute ++ ".\"") true t = some quoted →
      cut '"' quoted = some ([], rest) → ScanPasses w rest → ScanPasses w t
  | unassigned {t quoted key rest : Text} :
      findName (filesystemsAttribute ++ ".\"") true t = some quoted →
      cut '"' quoted = some (key, rest) → key ≠ [] → (∀ y, assigned '{' (rest ++ y) = none) →
      ScanPasses w rest → ScanPasses w t
  | closed {t quoted key rest body inner behind : Text} :
      findName (filesystemsAttribute ++ ".\"") true t = some quoted →
      cut '"' quoted = some (key, rest) → key ≠ [] → assigned '{' rest = some body →
      closeBlock body = some (inner, behind) → ScanPasses w behind → ScanPasses w t
  | inside {t quoted key rest body : Text} :
      findName (filesystemsAttribute ++ ".\"") true t = some quoted →
      cut '"' quoted = some (key, rest) → key ≠ [] → assigned '{' rest = some body →
      closeBlock body = none → Mode.after .code body = .code → FieldsPass w body →
      ScanPasses w rest → ScanPasses w t

theorem closeBlock_commentLine {w body : Text} (hw : '\n' ∉ w) (ho : closeBlock body = none)
    (hm : Mode.after .code body = .code) (s : Text) :
    closeBlock (body ++ (commentLine w ++ s)) = none ∧ closeBlock (body ++ s) = none ∨
    ∃ inner rest, closeBlock (body ++ (commentLine w ++ s)) =
      some (body ++ (commentLine w ++ inner), rest) ∧
      closeBlock (body ++ s) = some (body ++ inner, rest) := by
  obtain ⟨d, hd⟩ := Bracket.closing_of_open (Option.map_eq_none_iff.mp ho)
  rw [hm] at hd
  simp only [closeBlock, hd, Bracket.closing_commentLine _ _ hw]
  cases hs : Bracket.brace.closing .code (d + 1) s with
  | none => exact .inl ⟨rfl, rfl⟩
  | some rest =>
    obtain ⟨inner, rfl⟩ := closing_split hs
    have hlong := front_append (body ++ (commentLine w ++ inner)) ['}'] rest
    have hshort := front_append (body ++ inner) ['}'] rest
    simp only [List.append_assoc, List.singleton_append] at hlong hshort
    exact .inr ⟨inner, rest, congrArg (fun a => some (a, rest)) hlong,
      congrArg (fun a => some (a, rest)) hshort⟩

theorem entriesOf_commentLine {w p : Text} (hp : EndsLine p) (hw : '\n' ∉ w)
    (hcomment : Undeclared filesystemsAttribute (commentLine w)) (h : ScanPasses w p) (s : Text) :
    entriesOf (declarations filesystemsAttribute true (p ++ (commentLine w ++ s))) =
      entriesOf (declarations filesystemsAttribute true (p ++ s)) := by
  have hn : IsName filesystemsAttribute := by decide
  have hbehind : ∀ {t quoted key rest : Text}, EndsLine t →
      findName (filesystemsAttribute ++ ".\"") true t = some quoted →
      cut '"' quoted = some (key, rest) → EndsLine rest := by
    intro t quoted key rest ht hf hc
    obtain ⟨before, rfl⟩ := key_split hn hf hc
    exact ht.of_append
  induction h with
  | searching hf =>
    rw [declarations_append_of_none hn hp.endsName hf,
      declarations_append_of_none hn hp.endsName hf,
      hcomment.entriesOf_append hn (endsName_commentLine w)]
  | emptyKey hf hc _ ih =>
    simp only [declarations_append_of_key hn hp.endsName hf hc, if_true]
    exact ih (hbehind hp hf hc)
  | unassigned hf hc hk ha _ ih =>
    simp only [declarations_append_of_key hn hp.endsName hf hc, if_neg hk, ha]
    exact ih (hbehind hp hf hc)
  | closed hf hc hk ha hb _ ih =>
    have hu := undecided_of_assigned ha
    obtain ⟨before, rfl⟩ := block_split ha hb
    have hrest := ih (hbehind hp hf hc).of_append
    simp only [declarations_append_of_key hn hp.endsName hf hc, if_neg hk, assigned_append hu, ha,
      Option.map_some, closeBlock_append hb]
    rw [entriesOf_cons, hrest, ← entriesOf_cons]
  | @inside t quoted key rest body hf hc hk ha hb hm hpass _ ih =>
    have hu := undecided_of_assigned ha
    have hrest := ih (hbehind hp hf hc)
    simp only [declarations_append_of_key hn hp.endsName hf hc, if_neg hk, assigned_append hu, ha,
      Option.map_some]
    obtain ⟨hlong, hshort⟩ | ⟨inner, behind, hlong, hshort⟩ := closeBlock_commentLine hw hb hm s
    · simp only [hlong, hshort]
      exact hrest
    · obtain ⟨gap, rfl⟩ := assigned_split ha
      have hopened := hbehind hp hf hc
      have hbody : body ≠ [] := by
        rintro rfl
        have := hopened '{' (by simp)
        revert this
        decide
      rw [← List.singleton_append, ← List.append_assoc] at hopened
      have hentry := Entry.ofBlock_commentLine hpass hopened.of_append inner
      simp only [hlong, hshort, List.append_eq_nil_iff, hbody, false_and, if_false]
      rw [entriesOf_cons, entriesOf_cons (.block _ (body ++ inner))]
      simp only [entriesOf, List.filterMap_cons, Declaration.block?, List.filterMap_nil,
        List.map_cons, List.map_nil, hentry]

/-- A comment line is without effect on the filesystems of a document where no lookup is in the
middle of something and where none of them finds anything in it. -/
theorem ofText_insert_commentLine {p w : Text} (hp : EndsLine p) (hw : '\n' ∉ w)
    (hcomment : Undeclared filesystemsAttribute (commentLine w)) (h : ScanPasses w p) (s : Text) :
    Mounts.ofText (p ++ (commentLine w ++ s)) = Mounts.ofText (p ++ s) := by
  rw [Mounts.ofText_eq, Mounts.ofText_eq, entriesOf_commentLine hp hw hcomment h]

def openOptions : Text := " device = \"/dev/sda1\"; options = [ \"ssd\"\n"

def pairedNote : Text := " the root \x7b fsType of \"\" fileSystems"

theorem fieldsPass_pairedNote : FieldsPass pairedNote openOptions where
  device := .inl (by decide +kernel)
  fsType := .inr ⟨unread_of_decided settled_readString (by decide),
    unread_of_decided settled_readString (by decide)⟩
  options :=
    have hopen : ListOpen "options" openOptions :=
      ⟨[], " = [ \"ssd\"\n", [], by decide, by simp, " \"ssd\"\n", by decide, by decide, by decide⟩
    .inr ⟨hopen, by decide, by decide, by decide +kernel⟩

theorem ofText_insert_commentLine_between_options :
    Mounts.ofText ("fileSystems.\"/\" = \x7b" ++ openOptions ++
        (commentLine pairedNote ++ "\"noatime\" ]; fsType = \"ext4\"; \x7d;\n".toList)) =
      Mounts.ofText ("fileSystems.\"/\" = \x7b" ++ openOptions ++
        "\"noatime\" ]; fsType = \"ext4\"; \x7d;\n".toList) ∧
    Mounts.ofText ("\x7b\n" ++ (commentLine " fileSystems.\"/old\" = \x7b\x7d;" ++
        "fileSystems.\"/\" = \x7b fsType = \"ext4\"; \x7d;\n\x7d".toList)) =
      Mounts.ofText ("\x7b\n" ++
        "fileSystems.\"/\" = \x7b fsType = \"ext4\"; \x7d;\n\x7d".toList) := by
  have hroot : findName (filesystemsAttribute ++ ".\"") true
      ("fileSystems.\"/\" = \x7b" ++ openOptions) = some ("/\" = \x7b" ++ openOptions) := by decide
  have hkey : cut '"' ("/\" = \x7b" ++ openOptions) =
      some ("/".toList, " = \x7b" ++ openOptions) := by decide
  have hopened : assigned '\x7b' (" = \x7b" ++ openOptions) = some openOptions := by decide
  have hscan : ScanPasses pairedNote ("fileSystems.\"/\" = \x7b" ++ openOptions) :=
    .inside hroot hkey (by decide) hopened (by decide) (by decide) fieldsPass_pairedNote
      (.searching (by decide))
  have hold : findName (filesystemsAttribute ++ ".\"") true
      (commentLine " fileSystems.\"/old\" = \x7b\x7d;") =
      some "/old\" = \x7b\x7d;\n".toList := by decide
  have holdKey : cut '"' "/old\" = \x7b\x7d;\n" =
      some ("/old".toList, " = \x7b\x7d;\n".toList) := by decide
  have holdBlock : assigned '\x7b' " = \x7b\x7d;\n" = some "\x7d;\n".toList := by decide
  have holdClosed : closeBlock "\x7d;\n" = some ([], ";\n".toList) := by decide
  have hempty : Undeclared filesystemsAttribute
      (commentLine " fileSystems.\"/old\" = \x7b\x7d;") :=
    .emptyBlock hold holdKey (by decide) holdBlock holdClosed (.none (by decide))
  exact ⟨ofText_insert_commentLine (by decide) (by decide) (.none (by decide)) hscan _,
    ofText_insert_commentLine (by decide) (by decide) hempty (.searching (by decide)) _⟩

def ReadsComment (p w s : Text) : Prop :=
  EndsLine p ∧ Mode.after .code p = .code ∧ '\n' ∉ w ∧
    Mounts.ofText (p ++ (commentLine w ++ s)) ≠ Mounts.ofText (p ++ s)

instance (p w s : Text) : Decidable (ReadsComment p w s) := inferInstanceAs (Decidable (_ ∧ _))

/-- A comment that declares a filesystem, one that opens a block over the next declaration, one
that gives a field, one between a key and its block, and one with a quote inside a list. -/
theorem comments_are_read :
    ReadsComment [] " fileSystems.\"/old\" = \x7b fsType = \"ext4\"; \x7d;" [] ∧
    ReadsComment "\x7b\n" " fileSystems.\"/old\" = \x7b"
      "# \x7d;\nfileSystems.\"/\" = \x7b fsType = \"ext4\"; \x7d;\n\x7d" ∧
    ReadsComment "fileSystems.\"/\" = \x7b\n" " fsType = \"xfs\";" "fsType = \"ext4\";\n\x7d;" ∧
    ReadsComment "fileSystems.\"/\"\n" " the root" "= \x7b fsType = \"ext4\"; \x7d;" ∧
    ReadsComment "fileSystems.\"/\" = \x7b options = [\n" " 5\" disk" "\"noatime\" ]; \x7d;" := by
  decide +kernel

end MachineFacts
