import MachineFacts.Alphanumeric
import MachineFacts.Event
import MachineFacts.Utf8
import MachineFacts.Pattern

/-! Directives for the log: limits by target and by recorded field. One is a level, a target, or
both with an equals sign between them; a target may name a field, as in `target[{field}]=level`.
-/

namespace MachineFacts

/-- The limit on the events whose target starts with `target` and that record the field, if one
is named; no level at all shows none of them. -/
structure Directive where
  target : Text
  field : Option Text
  limit : Option Level
  deriving Repr, DecidableEq

/-- The longer target decides; behind it, a field does, and the name of the field. -/
def Directive.outranks (d e : Directive) : Bool :=
  e.target.length < d.target.length ||
    d.target.length == e.target.length &&
      match d.field, e.field with
      | none, _ => false
      | some _, none => true
      | some f, some g => g < f

def levelNames : List (Text × Option Level) :=
  [("off", none), ("error", some .error), ("warn", some .warn), ("info", some .info),
   ("debug", some .debug), ("trace", some .trace)]

def readLimit (t : Text) : Option (Option Level) :=
  let digits := (strip "+" t).getD t
  if digits ≠ [] && digits.all Char.isDigit then
    (levelNames[digits.foldl (fun n c => 10 * n + (c.toNat - 48)) 0]?).map Prod.snd
  else levelNames.lookup (t.map Char.toLower)

def startsDirective (c : Char) : Bool := isAlphanumeric c || c == '-' || c == ':' || c == '_'

/-- The text between two places that are counted in bytes, if both lie between characters. -/
def byteSlice (start stop : Nat) : Text → Option Text
  | [] => if start = 0 ∧ stop = 0 then some [] else none
  | c :: t =>
    if stop = 0 then some []
    else if start = 0 then
      if c.utf8Size ≤ stop then (byteSlice 0 (stop - c.utf8Size) t).map (c :: ·) else none
    else if c.utf8Size ≤ start then byteSlice (start - c.utf8Size) (stop - c.utf8Size) t
    else none

inductive FieldFilter where
  | named (name : Text)
  | valued
  deriving Repr, DecidableEq

def readFieldFilter (t : Text) : Option FieldFilter :=
  match cut '=' t with
  | none => if t = [] then none else some (.named t)
  | some (_, value) =>
    let value := value.takeWhile (· != '=')
    let isNumber := (strip "+" value).any isUnsignedNumber
    if isNumber || isPattern value then some .valued else none

def limitFrom (item : Text) (start : Nat) : Option (Option Level) :=
  match byteSlice start (byteLength item) item with
  | none => none
  | some [] => some (some .trace)
  | some t => readLimit t

def limitBehind (item : Text) (start : Nat) : Text → Option (Option Level)
  | [] => some (some .trace)
  | '=' :: _ => limitFrom item (start + 1)
  | _ => none

/-- The directive for a target with brackets, which open before the place `start`. A span or
the value of a field is never met: such a directive has no effect. -/
def readBrackets (item target : Text) (start : Nat) (t : Text) : Option (List Directive) :=
  let span := t.takeWhile fun c => c != ']' && c != '\x7b'
  let inner := start + byteLength span
  match t.drop span.length with
  | '\x7b' :: t =>
    let field := t.takeWhile (· != '\x7d')
    let stop := inner + 1 + byteLength field
    match t.drop field.length with
    | '\x7d' :: ']' :: rest => do
      let filter ← readFieldFilter (← byteSlice (inner + 1) stop item)
      let limit ← limitBehind item (stop + 2) rest
      match filter with
      | .named name => if span = [] then some [⟨target, some name, limit⟩] else some []
      | .valued => some []
    | _ => none
  | ']' :: rest => (limitBehind item (inner + 1) rest).map fun _ => []
  | _ => none

/-- A directive. Its marks are looked for behind the blanks that it starts with, but its parts
are taken from the places where the marks would stand without these blanks. -/
def readDirective (item : Text) : Option (List Directive) :=
  match trim item with
  | [] => none
  | '[' :: t => readBrackets item [] 1 t
  | c :: t =>
    if !startsDirective c then none
    else
      let target := (c :: t).takeWhile fun c => c != '=' && c != '['
      let stop := byteLength target
      match (c :: t).drop target.length with
      | [] =>
        match readLimit item with
        | some limit => some [⟨[], none, limit⟩]
        | none => some [⟨item, none, some .trace⟩]
      | '=' :: _ => do
        let limit ← limitFrom item (stop + 1)
        return [⟨← byteSlice 0 stop item, none, limit⟩]
      | _ :: t => do readBrackets item (← byteSlice 0 stop item) (stop + 1) t

def readDirectives (t : Text) : Option (List Directive) :=
  (((t.splitOn ',').filter (· ≠ [])).mapM readDirective).map List.flatten

end MachineFacts
