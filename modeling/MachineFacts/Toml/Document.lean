import MachineFacts.Toml.Numbers

/-! TOML documents. A table is defined once: headers and dotted keys may pass through tables
that nothing has defined yet, and through nothing else. -/

namespace MachineFacts

def maxTomlDepth : Nat := 80

def tomlSimpleKey (t : Text) : Option (Text × Text) :=
  match t with
  | '"' :: t => tomlBasic t
  | '\x27' :: t => tomlLiteral t
  | t =>
    match t.span isBareKeyChar with
    | ([], _) => none
    | key => some key

def tomlKeyParts : Nat → Text → Option (List Text × Text)
  | 0, _ => none
  | fuel + 1, t => do
    let (key, rest) ← tomlSimpleKey (skipSpaces t)
    match skipSpaces rest with
    | '.' :: rest =>
      let (keys, rest) ← tomlKeyParts fuel rest
      return (key :: keys, rest)
    | rest => return ([key], rest)

def tomlKey (t : Text) : Option (List Text × Text) := tomlKeyParts (maxTomlDepth - 1) t

def setField (key : Text) (value : Toml) (fields : TomlFields) : TomlFields :=
  fields.map fun f => if f.1 = key then (key, value) else f

def updateTable {α : Type} (dotted : Bool)
    (change : TomlOrigin → TomlFields → Option (α × TomlFields)) :
    List Text → TomlOrigin → TomlFields → Option (α × TomlFields)
  | [], origin, fields => change origin fields
  | key :: path, _, fields =>
    match fields.lookup key with
    | none => do
      let origin := if dotted then .dotted else .implied
      let (a, inner) ← updateTable dotted change path origin []
      return (a, fields ++ [(key, .table origin inner)])
    | some (.table origin inner) =>
      if origin = .inline ∨ (dotted ∧ origin = .header) then none
      else do
        let (a, inner) ← updateTable dotted change path origin inner
        return (a, setField key (.table origin inner) fields)
    | some (.tables items) =>
      match items.getLast? with
      | none => none
      | some last => do
        let (a, inner) ← updateTable dotted change path .header last
        return (a, setField key (.tables (items.dropLast ++ [inner])) fields)
    | some _ => none

/-- Adds a value under a dotted key. The table it goes to must have been made by dotted keys
exactly if the key has dots. -/
def addValue (keys : List Text) (value : Toml) (fields : TomlFields) : Option TomlFields := do
  let key ← keys.getLast?
  let add (origin : TomlOrigin) (fields : TomlFields) : Option (Unit × TomlFields) :=
    if decide (origin = .dotted) = keys.dropLast.isEmpty then none
    else if (fields.lookup key).isSome then none
    else some ((), fields ++ [(key, value)])
  return (← updateTable true add keys.dropLast .header fields).2

mutual

def tomlValue : Nat → Nat → Text → Option (Toml × Text)
  | 0, _, _ => none
  | fuel + 1, depth, t =>
    match t with
    | [] => none
    | '[' :: t =>
      if depth + 1 < maxTomlDepth then do
        let (items, rest) ← tomlItems fuel (depth + 1) t
        return (.array items, rest)
      else none
    | '\x7b' :: t =>
      if depth + 1 < maxTomlDepth then do
        match skipSpaces t with
        | '\x7d' :: rest => return (.table .inline [], rest)
        | t =>
          let (fields, rest) ← tomlPairs fuel (depth + 1) [] t
          return (.table .inline fields, rest)
      else none
    | c :: r =>
      if c = '"' ∨ c = '\x27' then (tomlString (c :: r)).map fun s => (.text s.1, s.2)
      else
        match strip "true" (c :: r), strip "false" (c :: r) with
        | some rest, _ => some (.truth true, rest)
        | _, some rest => some (.truth false, rest)
        | none, none =>
          match tomlTime (c :: r) with
          | some v => some v
          | none => tomlNumber (c :: r)

def tomlItems : Nat → Nat → Text → Option (List Toml × Text)
  | 0, _, _ => none
  | fuel + 1, depth, t =>
    match skipLines t.length t with
    | ']' :: rest => some ([], rest)
    | t => do
      let (item, rest) ← tomlValue fuel depth t
      match skipLines rest.length rest with
      | ']' :: rest => return ([item], rest)
      | ',' :: rest =>
        let (items, rest) ← tomlItems fuel depth rest
        return (item :: items, rest)
      | _ => none

def tomlPairs : Nat → Nat → TomlFields → Text → Option (TomlFields × Text)
  | 0, _, _, _ => none
  | fuel + 1, depth, fields, t => do
    let (keys, rest) ← tomlKey t
    let rest ← strip "=" rest
    let (value, rest) ← tomlValue fuel depth (skipSpaces rest)
    let fields ← addValue keys value fields
    match skipSpaces rest with
    | '\x7d' :: rest => return (fields, rest)
    | ',' :: rest => tomlPairs fuel depth fields rest
    | _ => none

end

/-- A document while it is read: what is complete, and the table that lines are added to. -/
structure TomlState where
  root : TomlFields
  path : List Text
  item : Bool
  current : TomlFields

def TomlState.start : TomlState := ⟨[], [], false, []⟩

def TomlState.close (s : TomlState) : Option TomlFields :=
  match s.path.getLast? with
  | none => some s.current
  | some key => do
    let put (fields : TomlFields) : Option (Unit × TomlFields) :=
      if s.item then
        match fields.lookup key with
        | some (.tables items) => some ((), setField key (.tables (items ++ [s.current])) fields)
        | _ => none
      else some ((), fields ++ [(key, .table .header s.current)])
    return (← updateTable false (fun _ => put) s.path.dropLast .header s.root).2

/-- Opens the table of a header. What longer headers have put into it already is kept. -/
def TomlState.openTable (s : TomlState) (path : List Text) : Option TomlState := do
  let key ← path.getLast?
  let take (fields : TomlFields) : Option (TomlFields × TomlFields) :=
    match fields.lookup key with
    | none => some ([], fields)
    | some (.table .implied inner) => some (inner, fields.filter (·.1 ≠ key))
    | some _ => none
  let (current, root) ← updateTable false (fun _ => take) path.dropLast .header (← s.close)
  return ⟨root, path, false, current⟩

def TomlState.openItem (s : TomlState) (path : List Text) : Option TomlState := do
  let key ← path.getLast?
  let make (fields : TomlFields) : Option (Unit × TomlFields) :=
    match fields.lookup key with
    | none => some ((), fields ++ [(key, .tables [])])
    | some (.tables _) => some ((), fields)
    | some _ => none
  let (_, root) ← updateTable false (fun _ => make) path.dropLast .header (← s.close)
  return ⟨root, path, true, []⟩

def tomlLine (s : TomlState) (t : Text) : Option (TomlState × Text) :=
  match skipSpaces t with
  | '[' :: '[' :: t => do
    let (path, rest) ← tomlKey t
    let rest ← strip "]]" rest
    return (← s.openItem path, ← endLine rest)
  | '[' :: t => do
    let (path, rest) ← tomlKey t
    let rest ← strip "]" rest
    return (← s.openTable path, ← endLine rest)
  | t =>
    match endLine t with
    | some rest => some (s, rest)
    | none => do
      let (keys, rest) ← tomlKey t
      let rest ← strip "=" rest
      let (value, rest) ← tomlValue (2 * rest.length + 2) 0 (skipSpaces rest)
      return (⟨s.root, s.path, s.item, ← addValue keys value s.current⟩, ← endLine rest)

def tomlLines : Nat → TomlState → Text → Option TomlState
  | 0, _, _ => none
  | _ + 1, s, [] => some s
  | fuel + 1, s, t => do
    let (s, rest) ← tomlLine s t
    tomlLines fuel s rest

/-- The fields of a document in order, or nothing if it is not TOML. -/
def parseToml (t : Text) : Option TomlFields := do
  let t := if t.head? = some '\ufeff' then t.tail else t
  (← tomlLines (t.length + 1) .start t).close

end MachineFacts
