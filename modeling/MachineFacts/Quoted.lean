import MachineFacts.Printable

/-! Text in quotes for messages. A character that could not be told from another, or that would
not show, is written as its number. -/

namespace MachineFacts

/-- The digits of a number in hexadecimal. -/
def hexDigits (n : Nat) : Text := Nat.toDigits 16 n

def spellChar (c : Char) : Text :=
  if c = '\x00' then "\\0"
  else if c = '\t' then "\\t"
  else if c = '\r' then "\\r"
  else if c = '\n' then "\\n"
  else if c = '"' then "\\\""
  else if c = '\\' then "\\\\"
  else if isPrintable c then [c]
  else "\\u\x7b" ++ hexDigits c.toNat ++ "\x7d"

def spellText (t : Text) : Text := "\"" ++ t.flatMap spellChar ++ "\""

end MachineFacts
