import MachineFacts.Proofs.Balance
import MachineFacts.Proofs.Query

/-! Machines as data, the documents they are written out to and the facts they stand for. The
statements may come in any order and hold any other text, as long as a search for one thing finds
nothing in what is written for another. -/

namespace MachineFacts

abbrev Gap := { t : Text // ∀ c ∈ t, isBlank c = true }

abbrev Token := { t : Text // '"' ∉ t }

def stringsText (items : List (Gap × Token)) (closing : Gap) : Text :=
  (items.flatMap fun i => i.1.1 ++ '"' :: (i.2.1 ++ ['"'])) ++ closing.1

def stringsOf (items : List (Gap × Token)) : List Text :=
  (items.map fun i => i.2.1).filter (· ≠ [])

inductive Import where
  | profile (name : Text)
  | path (text : Text)

def Import.text : Import → Text
  | .profile name => profilePath ++ name
  | .path text => text

def Import.profile? : Import → Option Text
  | .profile name => some name
  | .path _ => none

def Import.WellFormed : Import → Prop
  | .profile name => name ≠ [] ∧ ∀ c ∈ name, isProfileChar c = true
  | .path text => occurs profilePath text = false ∧ occurs "];" text = false

def importsText (opening : Gap) (items : List (Import × Gap)) : Text :=
  opening.1 ++ items.flatMap fun i => i.1.text ++ i.2.1

inductive Field where
  | string (a : Attribute) (value : Token)
  | options (items : List (Gap × Token)) (closing : Gap)
  /-- A statement that is none of these, a nested set for example. -/
  | other (text : Text)

def Field.text : Field → Text
  | .string a value => a.name ++ " = \"" ++ ((value.1 ++ "\"") ++ ";")
  | .options items closing => "options" ++ " = [" ++ (stringsText items closing ++ "];")
  | .other text => text

def Field.query? : Field → Option Query
  | .string a _ => some (.string a)
  | .options _ _ => some .options
  | .other _ => none

def Field.parts : Field → List Text
  | .string _ value => [value.1 ++ "\""]
  | .options items _ => items.map fun i => i.2.1 ++ "\""
  | .other text => [text]

def Field.Complete : Field → Prop
  | .string _ value => Literal value.1
  | .options items _ => ∀ i ∈ items, Literal i.2.1
  | .other text => Balanced text ∧ text.getLast? = some ';'

structure Field.WellFormed (f : Field) : Prop where
  complete : f.Complete
  missed : ∀ q, q ≠ .filesystems → f.query? ≠ some q → ∀ t ∈ f.parts, q.Misses t

theorem Field.wellFormed_of_not_occurs {f : Field} (hf : f.Complete)
    (h : ∀ q : Query, q ≠ .filesystems → f.query? ≠ some q →
      ∀ t ∈ f.parts, occurs q.needle t = false) : f.WellFormed :=
  ⟨hf, fun q hq hown t ht => Query.misses_of_not_occurs (h q hq hown t ht)⟩

def Field.string? (a : Attribute) : Field → Option Text
  | .string b value => if b = a ∧ value.1 ≠ [] then some value.1 else none
  | _ => none

def Field.options? : Field → Option (List Text)
  | .options items _ => some (stringsOf items)
  | _ => none

def fieldsText (fields : List (Gap × Field)) (closing : Gap) : Text :=
  (fields.flatMap fun f => f.1.1 ++ f.2.text) ++ closing.1

def Entry.ofFields (fields : List (Gap × Field)) : Entry where
  device := fields.findSome? fun f => f.2.string? .device
  fsType := fields.findSome? fun f => f.2.string? .fsType
  options := fields.findSome? fun f => f.2.options?

inductive Statement where
  | imports (opening : Gap) (items : List (Import × Gap))
  | modules (stage : Stage) (items : List (Gap × Token)) (closing : Gap)
  | loader (loader : Loader) (tail : Text)
  | uefi (tail : Text)
  | filesystem (mount : Token) (fields : List (Gap × Field)) (closing : Gap)

def Statement.text : Statement → Text
  | .imports opening items => "imports" ++ " = [" ++ (importsText opening items ++ "];")
  | .modules stage items closing => stage.option ++ " = [" ++ (stringsText items closing ++ "];")
  | .loader l tail => l.indicator ++ (tail ++ ";")
  | .uefi tail => uefiIndicator ++ (tail ++ ";")
  | .filesystem mount fields closing =>
    filesystemsAttribute ++ ".\"" ++
      ((mount.1 ++ "\"") ++ (" = \x7b" ++ (fieldsText fields closing ++ "\x7d;")))

def Statement.query : Statement → Query
  | .imports _ _ => .imports
  | .modules stage _ _ => .modules stage
  | .loader l _ => .loader l
  | .uefi _ => .uefi
  | .filesystem _ _ _ => .filesystems

/-- The parts of its text that are not fixed, each with the character that ends it, except for
the fields of a filesystem. -/
def Statement.parts : Statement → List Text
  | .imports _ items => items.filterMap fun i =>
    match i.1 with
    | .profile _ => none
    | .path text => some (text ++ i.2.1)
  | .modules _ items _ => items.map fun i => i.2.1 ++ "\""
  | .loader l tail => [l.indicator ++ (tail ++ ";")]
  | .uefi tail => [uefiIndicator ++ (tail ++ ";")]
  | .filesystem mount _ _ => [mount.1 ++ "\""]

def Statement.Complete : Statement → Prop
  | .imports _ items => ∀ i ∈ items, i.1.WellFormed ∧ i.2.1 ≠ []
  | .filesystem mount fields _ => mount.1 ≠ [] ∧ ∀ f ∈ fields, f.2.WellFormed
  | _ => True

structure Statement.WellFormed (s : Statement) : Prop where
  complete : s.Complete
  missed : ∀ q : Query, q.inBlocks = false → s.query ≠ q → ∀ t ∈ s.parts, q.Misses t

theorem Statement.wellFormed_of_not_occurs {s : Statement} (hs : s.Complete)
    (h : ∀ q : Query, q.inBlocks = false → s.query ≠ q →
      ∀ t ∈ s.parts, occurs q.needle t = false) : s.WellFormed :=
  ⟨hs, fun q hq hown t ht => Query.misses_of_not_occurs (h q hq hown t ht)⟩

/-- The mount point and the inner text of a filesystem; one without any counts for nothing. -/
def Statement.block? : Statement → Option (Text × Text)
  | .filesystem mount fields closing =>
    if fieldsText fields closing = [] then none else some (mount.1, fieldsText fields closing)
  | _ => none

def Statement.mounted? : Statement → Option (Text × Entry)
  | .filesystem mount fields closing =>
    if fieldsText fields closing = [] then none else some (mount.1, Entry.ofFields fields)
  | _ => none

def Statement.profiles? : Statement → Option (List Text)
  | .imports _ items => some (items.filterMap fun i => i.1.profile?)
  | _ => none

def Statement.modules? (stage : Stage) : Statement → Option (List Text)
  | .modules s items _ => if s = stage then some (stringsOf items) else none
  | _ => none

structure Machine where
  header : Text
  statements : List (Gap × Statement)
  footer : Text

def Machine.text (m : Machine) : Text :=
  m.header ++ ((m.statements.flatMap fun s => s.1.1 ++ s.2.text) ++ m.footer)

/-- In front of the statements a text that opens a brace may stand, behind them its end. -/
structure Machine.WellFormed (m : Machine) : Prop where
  header : m.header = [] ∨ m.header.getLast? = some '\x7b'
  missed : ∀ q : Query, q.inBlocks = false → q.Misses m.header
  statements : ∀ s ∈ m.statements, s.2.WellFormed
  footer : ∀ c ∈ m.footer, isBlank c = true ∨ c = '\x7d'

/-- The facts stated: the last entry of a mount point, the first list of each kind, the loader by
priority. -/
def Machine.facts (m : Machine) (source : Text) : Facts :=
  let mounts := Mounts.ofList (m.statements.filterMap fun s => s.2.mounted?)
  { mounts := mounts
    boot :=
      { loader := Loader.byPriority.find? fun l => m.statements.any fun s => s.2.query = .loader l
        uefi := m.statements.any fun s => s.2.query = .uefi
        initrdModules := m.statements.findSome? fun s => s.2.modules? .initrd
        kernelModules := m.statements.findSome? fun s => s.2.modules? .kernel }
    profiles := (m.statements.findSome? fun s => s.2.profiles?).getD []
    scheme := .infer mounts
    source := source }

end MachineFacts
