import MachineFacts.Name

/-! Strings and lists of strings assigned to a name. Only the literal shapes `name = "value"`
and `name = [ "a" "b" ]` are understood. -/

namespace MachineFacts

def readString (t : Text) : Reading Text :=
  match assigned '"' t with
  | none => .absent
  | some rest =>
    match cut '"' rest with
    | none => .endless
    | some ([], _) => .absent
    | some (value@(_ :: _), _) => .found value

/-- The first `name = "value"` with something between the quotes. -/
def stringField (name t : Text) : Option Text := readNamed name readString true t

/-- The strings in quotes, empty ones left out. Quotes are paired left to right. -/
def quotedStrings (t : Text) : List Text :=
  match _ho : cut '"' t with
  | none => []
  | some (_, rest) =>
    match _hc : cut '"' rest with
    | none => []
    | some ([], rest) => quotedStrings rest
    | some (token@(_ :: _), rest) => token :: quotedStrings rest
termination_by t.length
decreasing_by
  all_goals
    have := cut_length _ho
    have := cut_length _hc
    omega

/-- The text behind the first `]` outside quotes. -/
def listEnd (quoted : Bool) : Text → Option Text
  | [] => none
  | c :: t =>
    if c = '"' then listEnd (!quoted) t
    else if c = ']' ∧ quoted = false then some t
    else listEnd quoted t

def readStrings (t : Text) : Reading (List Text) :=
  match assigned '[' t with
  | none => .absent
  | some items =>
    match listEnd false items with
    | none => .endless
    | some rest => .found (quotedStrings (front items 1 rest))

def stringListField (name t : Text) : Option (List Text) := readNamed name readStrings true t

end MachineFacts
