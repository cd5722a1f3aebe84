import MachineFacts.Hexadecimal
import MachineFacts.Toml.Basic

/-! TOML strings. Each reader is entered behind the opening quotes and returns the text of the
string and what follows it. -/

namespace MachineFacts

def push (c : Char) (read : Option (Text × Text)) : Option (Text × Text) :=
  read.map fun r => (c :: r.1, r.2)

def simpleEscape : Char → Option Char
  | 'b' => some '\x08'
  | 't' => some '\t'
  | 'n' => some '\n'
  | 'f' => some '\x0c'
  | 'r' => some '\r'
  | '"' => some '"'
  | '\\' => some '\\'
  | _ => none

/-- Adds the character of an escape to the rest of a string. -/
def pushEscape (c : Option Char) (read : Option (Text × Text)) : Option (Text × Text) :=
  match c with
  | none => none
  | some c => push c read

def tomlBasic : Text → Option (Text × Text)
  | [] => none
  | '"' :: t => some ([], t)
  | '\\' :: 'u' :: a :: b :: c :: d :: t => pushEscape (codePoint [a, b, c, d]) (tomlBasic t)
  | '\\' :: 'U' :: a :: b :: c :: d :: e :: f :: g :: h :: t =>
    pushEscape (codePoint [a, b, c, d, e, f, g, h]) (tomlBasic t)
  | '\\' :: c :: t => pushEscape (simpleEscape c) (tomlBasic t)
  | c :: t => if isTomlChar c then push c (tomlBasic t) else none

def tomlLiteral : Text → Option (Text × Text)
  | [] => none
  | '\x27' :: t => some ([], t)
  | c :: t => if isTomlChar c then push c (tomlLiteral t) else none

/-- Up to two quotes may stand directly before the closing ones. While `skipping`, blanks and
line breaks behind a backslash at the end of a line are left out. -/
def tomlMultiBasic (skipping : Bool) : Text → Option (Text × Text)
  | [] => none
  | '"' :: '"' :: '"' :: '"' :: '"' :: t => some (['"', '"'], t)
  | '"' :: '"' :: '"' :: '"' :: t => some (['"'], t)
  | '"' :: '"' :: '"' :: t => some ([], t)
  | '\\' :: 'u' :: a :: b :: c :: d :: t =>
    pushEscape (codePoint [a, b, c, d]) (tomlMultiBasic false t)
  | '\\' :: 'U' :: a :: b :: c :: d :: e :: f :: g :: h :: t =>
    pushEscape (codePoint [a, b, c, d, e, f, g, h]) (tomlMultiBasic false t)
  | '\\' :: c :: t =>
    if (dropLineBreak (skipSpaces (c :: t))).isSome then tomlMultiBasic true (c :: t)
    else pushEscape (simpleEscape c) (tomlMultiBasic false t)
  | '\r' :: '\n' :: t =>
    if skipping then tomlMultiBasic true t else push '\n' (tomlMultiBasic false t)
  | c :: t =>
    if skipping && (isTomlSpace c || c == '\n') then tomlMultiBasic true t
    else if c == '\n' || isTomlChar c then push c (tomlMultiBasic false t)
    else none

def tomlMultiLiteral : Text → Option (Text × Text)
  | [] => none
  | '\x27' :: '\x27' :: '\x27' :: '\x27' :: '\x27' :: t => some (['\x27', '\x27'], t)
  | '\x27' :: '\x27' :: '\x27' :: '\x27' :: t => some (['\x27'], t)
  | '\x27' :: '\x27' :: '\x27' :: t => some ([], t)
  | '\r' :: '\n' :: t => push '\n' (tomlMultiLiteral t)
  | c :: t => if c == '\n' || isTomlChar c then push c (tomlMultiLiteral t) else none

/-- A line break directly behind the opening quotes does not count. -/
def dropFirstBreak (t : Text) : Text := (dropLineBreak t).getD t

def tomlString : Text → Option (Text × Text)
  | '"' :: '"' :: '"' :: t => tomlMultiBasic false (dropFirstBreak t)
  | '\x27' :: '\x27' :: '\x27' :: t => tomlMultiLiteral (dropFirstBreak t)
  | '"' :: t => tomlBasic t
  | '\x27' :: t => tomlLiteral t
  | _ => none

end MachineFacts
