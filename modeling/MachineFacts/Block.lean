import MachineFacts.Name
import MachineFacts.Delimiter

/-! Blocks and lists in a document: `name = { .. }`, `name = [ .. ];`, and the declarations
`attr."key" = { .. }`. A block is closed by depth, so nested sets stay whole. -/

namespace MachineFacts

def readBlock (t : Text) : Reading Text :=
  match assigned '{' t with
  | none => .absent
  | some body =>
    match closeBlock body with
    | none => .absent
    | some (inner, _) => .found inner

def findBlock (name t : Text) : Option Text := readNamed name readBlock true t

def readList (t : Text) : Reading Text :=
  match assigned '[' t with
  | none => .absent
  | some items =>
    match behind "];" items with
    | none => .absent
    | some rest => .found (front items 2 rest)

def listBlock (name t : Text) : Option Text := readNamed name readList true t

inductive Declaration where
  | block (key inner : Text)
  | emptyBlock (key : Text)
  /-- A block that never closes. -/
  | openBlock (key : Text)
  /-- A key without a closing quote, which ends the scan. -/
  | openKey
  deriving Repr, DecidableEq

/-- Everything that starts like `attr."key" = { .. }`, in document order. -/
def declarations (attr : Text) (fresh : Bool) (t : Text) : List Declaration :=
  match _hn : findName (attr ++ ".\"") fresh t with
  | none => []
  | some quoted =>
    match _hc : cut '"' quoted with
    | none => [.openKey]
    | some ([], rest) => declarations attr true rest
    | some (key@(_ :: _), rest) =>
      match _ha : assigned '{' rest with
      | none => declarations attr true rest
      | some body =>
        match _hb : closeBlock body with
        | none => .openBlock key :: declarations attr true rest
        | some ([], rest) => .emptyBlock key :: declarations attr true rest
        | some (inner@(_ :: _), rest) => .block key inner :: declarations attr true rest
termination_by t.length
decreasing_by
  all_goals
    have h1 := findName_length _hn
    have h2 := cut_length _hc
    first
      | (have h3 := assigned_length _ha
         have h4 := closeBlock_length _hb
         omega)
      | omega

def Declaration.block? : Declaration → Option (Text × Text)
  | .block key inner => some (key, inner)
  | _ => none

def attributeBlocks (attr t : Text) : List (Text × Text) :=
  (declarations attr true t).filterMap Declaration.block?

end MachineFacts
