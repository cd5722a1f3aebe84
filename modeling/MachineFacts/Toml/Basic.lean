import MachineFacts.Decimal

/-! Values of a TOML document. -/

namespace MachineFacts

inductive TomlNumber where
  | finite (negative : Bool) (digits : Nat) (exponent : Int)
  | infinite (negative : Bool)
  | notANumber
  deriving Repr, DecidableEq

/-- How a table came to be, which decides what may be added to it. -/
inductive TomlOrigin where
  | inline
  | header
  /-- Passed through by a longer header. -/
  | implied
  | dotted
  deriving Repr, DecidableEq

inductive Toml where
  | text (t : Text)
  | integer (n : Int)
  | float (x : TomlNumber)
  | truth (b : Bool)
  | time
  | array (items : List Toml)
  | table (origin : TomlOrigin) (fields : List (Text × Toml))
  /-- Tables opened one by one by a doubled header. -/
  | tables (items : List (List (Text × Toml)))

abbrev TomlFields := List (Text × Toml)

def isTomlSpace (c : Char) : Bool := c == ' ' || c == '\t'

def isTomlChar (c : Char) : Bool := c == '\t' || (0x20 ≤ c.toNat && c.toNat != 0x7F)

def isBareKeyChar (c : Char) : Bool := c.isAlphanum || c == '_' || c == '-'

def skipSpaces (t : Text) : Text := t.dropWhile isTomlSpace

def dropLineBreak : Text → Option Text
  | '\n' :: t => some t
  | '\r' :: '\n' :: t => some t
  | _ => none

def skipComment (t : Text) : Text :=
  match t with
  | '#' :: t => t.dropWhile isTomlChar
  | t => t

def endLine (t : Text) : Option Text :=
  match skipComment (skipSpaces t) with
  | [] => some []
  | t => dropLineBreak t

/-- Spaces, comments and line breaks, as allowed between the items of an array. -/
def skipLines : Nat → Text → Text
  | 0, t => t
  | fuel + 1, t =>
    match dropLineBreak (skipComment (skipSpaces t)) with
    | some rest => skipLines fuel rest
    | none => skipSpaces t

end MachineFacts
