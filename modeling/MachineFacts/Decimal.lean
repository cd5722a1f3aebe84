import MachineFacts.Text

/-! The shortest decimal that reads back as a given binary floating point number. All of the
search is done on natural numbers. -/

namespace MachineFacts

structure Binary where
  mantissa : Nat
  exponent : Int
  deriving Repr, DecidableEq

structure Decimal where
  digits : Nat
  exponent : Int
  deriving Repr, DecidableEq

def Binary.ofBits (bits : Nat) : Binary :=
  let fraction : Nat := bits % Nat.pow 2 52
  let biased : Nat := bits / Nat.pow 2 52 % Nat.pow 2 11
  if biased = 0 then ⟨fraction, -1074⟩ else ⟨fraction + Nat.pow 2 52, (biased : Int) - 1075⟩

/-- Four times a binary number and its two rounding limits, and a unit in the same scale that
stands for `10 ^ exponent`. -/
structure Scaled where
  low : Nat
  value : Nat
  high : Nat
  unit : Nat

def Binary.scaled (b : Binary) (exponent : Int) : Scaled :=
  let up := Nat.pow 2 b.exponent.toNat * Nat.pow 10 (-exponent).toNat
  let down := Nat.pow 2 (-b.exponent).toNat * Nat.pow 10 exponent.toNat
  let below := if b.mantissa = Nat.pow 2 52 ∧ b.exponent > -1074 then 1 else 2
  ⟨(4 * b.mantissa - below) * up, 4 * b.mantissa * up, (4 * b.mantissa + 2) * up, 4 * down⟩

def Scaled.contains (s : Scaled) (inclusive : Bool) (digits : Nat) : Bool :=
  let point := digits * s.unit
  if inclusive then s.low ≤ point && point ≤ s.high else s.low < point && point < s.high

/-- The multiple of `10 ^ exponent` next to the number, if one reads back as it. -/
def Binary.onGrid (b : Binary) (exponent : Int) : Option Decimal :=
  let s := b.scaled exponent
  let digits := s.value / s.unit
  let inclusive := b.mantissa % 2 == 0
  let below := s.contains inclusive digits && digits ≠ 0
  let above := s.contains inclusive (digits + 1)
  let nearer := if 2 * (s.value % s.unit) < s.unit then digits else digits + 1
  if below && above then some ⟨nearer, exponent⟩
  else if below then some ⟨digits, exponent⟩
  else if above then some ⟨digits + 1, exponent⟩
  else none

def Binary.search (b : Binary) (exponent : Int) : Nat → Decimal
  | 0 => ⟨0, 0⟩
  | n + 1 =>
    match b.onGrid exponent with
    | some d => d
    | none => b.search (exponent - 1) n

def Binary.shortest (b : Binary) : Decimal :=
  if b.mantissa = 0 then ⟨0, 0⟩ else b.search 309 640

/-- The numeral in positions, without trailing zeros behind the point. -/
def Decimal.numeral (d : Decimal) : Text :=
  let ds := Text.ofNat d.digits
  if 0 ≤ d.exponent then ds ++ List.replicate d.exponent.toNat '0'
  else
    let places := (-d.exponent).toNat
    let padded := List.replicate (places + 1 - ds.length) '0' ++ ds
    padded.take (padded.length - places) ++ '.' :: padded.drop (padded.length - places)

end MachineFacts
