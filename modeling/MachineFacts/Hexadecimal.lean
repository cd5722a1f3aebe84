import MachineFacts.Text

/-! Characters by their numbers in hexadecimal digits. -/

namespace MachineFacts

def hexValue (c : Char) : Option Nat :=
  if c.isDigit then some (c.toNat - 48)
  else if 'a' ≤ c ∧ c ≤ 'f' then some (c.toNat - 87)
  else if 'A' ≤ c ∧ c ≤ 'F' then some (c.toNat - 55)
  else none

def hexNumber (ds : List Char) : Option Nat :=
  ds.foldlM (fun n c => (hexValue c).map (16 * n + ·)) 0

/-- The character with a number written in hexadecimal, if there is one. -/
def codePoint (ds : List Char) : Option Char :=
  match hexNumber ds with
  | none => none
  | some n => if n.isValidChar then some (Char.ofNat n) else none

end MachineFacts
