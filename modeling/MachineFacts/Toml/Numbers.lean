import MachineFacts.Toml.Strings

/-! TOML numbers, dates and times. Of a date or time only its form is kept. -/

namespace MachineFacts

/-- Digits behind a digit, single underscores between them left out. -/
def moreDigits (p : Char → Bool) : Text → Text × Text
  | '_' :: c :: t =>
    if p c then
      let (ds, rest) := moreDigits p t
      (c :: ds, rest)
    else ([], '_' :: c :: t)
  | c :: t =>
    if p c then
      let (ds, rest) := moreDigits p t
      (c :: ds, rest)
    else ([], c :: t)
  | [] => ([], [])

def someDigits (p : Char → Bool) : Text → Option (Text × Text)
  | c :: t =>
    if p c then
      let (ds, rest) := moreDigits p t
      some (c :: ds, rest)
    else none
  | [] => none

def plainDigits : Text → Option (Text × Text)
  | '0' :: t => some (['0'], t)
  | t => someDigits Char.isDigit t

def numberOf (base : Nat) (ds : Text) : Nat :=
  ds.foldl (fun n c => base * n + (hexValue c).getD 0) 0

def dropSign : Text → Bool × Text
  | '-' :: t => (true, t)
  | '+' :: t => (false, t)
  | t => (false, t)

def radixPrefix : Text → Option (Nat × Text)
  | '0' :: 'x' :: t => some (16, t)
  | '0' :: 'o' :: t => some (8, t)
  | '0' :: 'b' :: t => some (2, t)
  | _ => none

def isDigitIn (base : Nat) (c : Char) : Bool :=
  match hexValue c with
  | none => false
  | some n => n < base

def inRange (n : Int) : Option Toml :=
  if -Int.pow 2 63 ≤ n ∧ n < Int.pow 2 63 then some (.integer n) else none

def radixInteger (base : Nat) (t : Text) : Option (Toml × Text) := do
  let (ds, rest) ← someDigits (isDigitIn base) t
  return (← inRange (numberOf base ds), rest)

def fractionPart : Text → Option (Text × Text)
  | '.' :: t => someDigits Char.isDigit t
  | _ => none

def exponentPart : Text → Option (Int × Text)
  | c :: t =>
    if c = 'e' ∨ c = 'E' then do
      let (negative, t) := dropSign t
      let (ds, rest) ← someDigits Char.isDigit t
      let n : Int := numberOf 10 ds
      return (if negative then -n else n, rest)
    else none
  | [] => none

/-- A number too large for a binary float is refused, or infinite if negative; one that is too
small is zero. -/
def floatOf (negative : Bool) (digits : Nat) (exponent : Int) : Option Toml :=
  let size := exponent + (Text.ofNat digits).length
  if digits = 0 ∨ size < -330 then some (.float (.finite negative 0 0))
  else if size > 310 then if negative then some (.float (.infinite true)) else none
  else if (Float.ofScientific digits (exponent < 0) exponent.natAbs).isInf then
    if negative then some (.float (.infinite true)) else none
  else some (.float (.finite negative digits exponent))

def tomlNumber (t : Text) : Option (Toml × Text) := do
  match radixPrefix t with
  | some (base, t) => radixInteger base t
  | none =>
    let (negative, t) := dropSign t
    match strip "inf" t, strip "nan" t with
    | some rest, _ => return (.float (.infinite negative), rest)
    | _, some rest => return (.float .notANumber, rest)
    | none, none =>
      let (whole, rest) ← plainDigits t
      match fractionPart rest with
      | some (fraction, rest) =>
        let (exponent, rest) := (exponentPart rest).getD (0, rest)
        let digits := numberOf 10 (whole ++ fraction)
        return (← floatOf negative digits (exponent - fraction.length), rest)
      | none =>
        match exponentPart rest with
        | some (exponent, rest) => return (← floatOf negative (numberOf 10 whole) exponent, rest)
        | none =>
          let n : Int := numberOf 10 whole
          return (← inRange (if negative then -n else n), rest)

def fixedDigits (n : Nat) (t : Text) : Option (Nat × Text) :=
  let ds := t.take n
  if ds.length = n ∧ ds.all Char.isDigit then some (numberOf 10 ds, t.drop n) else none

def twoDigits (lo hi : Nat) (t : Text) : Option (Nat × Text) := do
  let (n, rest) ← fixedDigits 2 t
  if lo ≤ n ∧ n ≤ hi then return (n, rest) else none

def daysIn (year month : Nat) : Nat :=
  if month = 2 then
    if (year % 4 = 0 ∧ year % 100 ≠ 0) ∨ year % 400 = 0 then 29 else 28
  else if month = 4 ∨ month = 6 ∨ month = 9 ∨ month = 11 then 30
  else 31

def tomlDate (t : Text) : Option Text := do
  let (year, t) ← fixedDigits 4 t
  let t ← strip "-" t
  let (month, t) ← twoDigits 1 12 t
  let t ← strip "-" t
  let (_, rest) ← twoDigits 1 (daysIn year month) t
  return rest

def tomlClock (t : Text) : Option Text := do
  let (_, t) ← twoDigits 0 23 t
  let t ← strip ":" t
  let (_, t) ← twoDigits 0 59 t
  let t ← strip ":" t
  let (_, t) ← twoDigits 0 60 t
  match t with
  | '.' :: t => do
    match t.span Char.isDigit with
    | ([], _) => none
    | (_, rest) => return rest
  | t => return t

def tomlOffset : Text → Option Text
  | [] => none
  | c :: t =>
    if c = 'Z' ∨ c = 'z' then some t
    else if c = '+' ∨ c = '-' then do
      let (_, t) ← twoDigits 0 23 t
      let t ← strip ":" t
      let (_, rest) ← twoDigits 0 59 t
      return rest
    else none

/-- The time of day behind a date, if there is one. -/
def timeOfDay (t : Text) : Text :=
  match t with
  | [] => []
  | c :: r =>
    if c = 'T' ∨ c = 't' ∨ c = ' ' then
      match tomlClock r with
      | none => t
      | some rest => (tomlOffset rest).getD rest
    else t

def tomlTime (t : Text) : Option (Toml × Text) :=
  match tomlDate t with
  | some rest => some (.time, timeOfDay rest)
  | none => (tomlClock t).map fun rest => (.time, rest)

end MachineFacts
