import MachineFacts.Text

/-! JSON texts in their compact and their indented form. Fields keep the order they are given
in, and only characters that must be escaped are. -/

namespace MachineFacts

inductive Json where
  | number (n : Nat)
  | truth (b : Bool)
  | text (t : Text)
  | array (items : List Json)
  | object (fields : List (Text × Json))

def hexDigit (n : Nat) : Char := "0123456789abcdef".toList.getD n '0'

def escapeChar (c : Char) : Text :=
  if c = '"' then "\\\""
  else if c = '\\' then "\\\\"
  else if c = '\x08' then "\\b"
  else if c = '\t' then "\\t"
  else if c = '\n' then "\\n"
  else if c = '\x0c' then "\\f"
  else if c = '\r' then "\\r"
  else if c.toNat < 0x20 then "\\u00" ++ [hexDigit (c.toNat / 16), hexDigit (c.toNat % 16)]
  else [c]

def quoteText (t : Text) : Text := "\"" ++ t.flatMap escapeChar ++ "\""

def truthText (b : Bool) : Text := if b then "true" else "false"

mutual

def Json.compact : Json → Text
  | .number n => Text.ofNat n
  | .truth b => truthText b
  | .text t => quoteText t
  | .array items => "[" ++ compactItems items ++ "]"
  | .object fields => "\x7b" ++ compactFields fields ++ "\x7d"

def Json.compactItems : List Json → Text
  | [] => []
  | [j] => j.compact
  | j :: js => j.compact ++ "," ++ compactItems js

def Json.compactFields : List (Text × Json) → Text
  | [] => []
  | [(key, j)] => quoteText key ++ ":" ++ j.compact
  | (key, j) :: fs => quoteText key ++ ":" ++ j.compact ++ "," ++ compactFields fs

end

/-- A line break and the indentation of the next line. -/
def newline (depth : Nat) : Text := '\n' :: List.replicate (2 * depth) ' '

mutual

def Json.pretty (depth : Nat) : Json → Text
  | .number n => Text.ofNat n
  | .truth b => truthText b
  | .text t => quoteText t
  | .array [] => "[]"
  | .array (j :: js) =>
    "[" ++ newline (depth + 1) ++ j.pretty (depth + 1) ++ prettyItems (depth + 1) js ++
      newline depth ++ "]"
  | .object [] => "\x7b\x7d"
  | .object ((key, j) :: fs) =>
    "\x7b" ++ newline (depth + 1) ++ quoteText key ++ ": " ++ j.pretty (depth + 1) ++
      prettyFields (depth + 1) fs ++ newline depth ++ "\x7d"

def Json.prettyItems (depth : Nat) : List Json → Text
  | [] => []
  | j :: js => "," ++ newline depth ++ j.pretty depth ++ prettyItems depth js

def Json.prettyFields (depth : Nat) : List (Text × Json) → Text
  | [] => []
  | (key, j) :: fs =>
    "," ++ newline depth ++ quoteText key ++ ": " ++ j.pretty depth ++ prettyFields depth fs

end

end MachineFacts
