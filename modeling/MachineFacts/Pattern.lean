import MachineFacts.Hexadecimal

/-! Which texts are regular expressions. The letter classes of Unicode and everything that looks
at the neighbours of a place are left out, and there is no counted repetition. -/

namespace MachineFacts

/-- What stands behind a backslash: a character with its code, or the start or end of a text. -/
inductive PatternEscape where
  | character (code : Nat)
  | edge
  deriving Repr, DecidableEq

def readHex (width : Nat) (t : Text) : Option (PatternEscape × Text) :=
  if t.length < width then none
  else (codePoint (t.take width)).map fun c => (.character c.toNat, t.drop width)

def controlEscapes : List (Char × Nat) :=
  [('a', 7), ('f', 12), ('t', 9), ('n', 10), ('r', 13), ('v', 11)]

def readEscape : Text → Option (PatternEscape × Text)
  | [] => none
  | 'x' :: t => readHex 2 t
  | 'u' :: t => readHex 4 t
  | 'U' :: t => readHex 8 t
  | c :: t =>
    if c = 'A' ∨ c = 'z' then some (.edge, t)
    else
      match controlEscapes.lookup c with
      | some code => some (.character code, t)
      | none =>
        if c.toNat < 0x80 ∧ ¬ c.isAlphanum ∧ c ≠ '<' ∧ c ≠ '>' then some (.character c.toNat, t)
        else none

def readMember : Text → Option (Nat × Text)
  | [] => none
  | '\\' :: t =>
    match readEscape t with
    | some (.character code, rest) => some (code, rest)
    | _ => none
  | c :: t => some (c.toNat, t)

def classNames : List Text :=
  ["alnum", "alpha", "ascii", "blank", "cntrl", "digit", "graph", "lower", "print", "punct",
   "space", "upper", "word", "xdigit"]

def namedClass (t : Text) : Option Text := do
  let t ← strip ":" t
  let (name, rest) ← cut ':' ((strip "^" t).getD t)
  if name ∈ classNames then strip "]" rest else none

/-- The text behind what is special at the start of a class: a negation, and a hyphen or a
closing bracket that stands for itself. -/
def classStart (t : Text) : Text :=
  let t := (strip "^" t).getD t
  match t with
  | '-' :: _ => t.dropWhile (· == '-')
  | ']' :: t => t
  | t => t

def classEnd (fuel depth : Nat) (t : Text) : Option Text :=
  match fuel, t with
  | 0, _ | _, [] => none
  | fuel + 1, '[' :: t =>
    match namedClass t with
    | some rest => classEnd fuel depth rest
    | none => classEnd fuel (depth + 1) (classStart t)
  | fuel + 1, ']' :: t => if depth ≤ 1 then some t else classEnd fuel (depth - 1) t
  | fuel + 1, '&' :: '&' :: t | fuel + 1, '-' :: '-' :: t | fuel + 1, '~' :: '~' :: t =>
    classEnd fuel depth t
  | fuel + 1, t => do
    let (low, rest) ← readMember t
    match rest with
    | '-' :: ']' :: _ | '-' :: '-' :: _ => classEnd fuel depth rest
    | '-' :: rest =>
      let (high, rest) ← readMember rest
      if low ≤ high then classEnd fuel depth rest else none
    | rest => classEnd fuel depth rest

/-- The flags between a question mark and a colon or a bracket: each once, and at most one
hyphen, which is not the last. -/
def flagsHold (flags : Text) : Bool :=
  flags.all (fun c => "msUuRx-".toList.contains c && flags.count c = 1) &&
    flags.getLast? != some '-'

def readGroupName (t : Text) : Option (Text × Text) := do
  let (name, rest) ← cut '>' t
  match name with
  | c :: cs =>
    if (c.isAlpha || c == '_') && cs.all (fun c => c.isAlphanum || "_.[]".toList.contains c) then
      some (name, rest)
    else none
  | [] => none

/-- Whether the rest of an expression is one, with `depth` groups open; `item` says whether there
is something to repeat. -/
def expressionHolds (fuel depth : Nat) (item : Bool) (t : Text) : Bool :=
  match fuel, t with
  | 0, _ => false
  | _ + 1, [] => depth = 0
  | fuel + 1, '(' :: '?' :: t =>
    match (strip "P<" t).orElse fun _ => strip "<" t with
    | some t =>
      match readGroupName t with
      | some (_, rest) => expressionHolds fuel (depth + 1) false rest
      | none => false
    | none =>
      let flags := t.takeWhile fun c => c != ':' && c != ')'
      match t.drop flags.length with
      | ':' :: rest => flagsHold flags && expressionHolds fuel (depth + 1) false rest
      | ')' :: rest => flags ≠ [] && flagsHold flags && expressionHolds fuel depth false rest
      | _ => false
  | fuel + 1, '(' :: t => expressionHolds fuel (depth + 1) false t
  | fuel + 1, ')' :: t => depth ≠ 0 && expressionHolds fuel (depth - 1) true t
  | fuel + 1, '|' :: t => expressionHolds fuel depth false t
  | fuel + 1, '[' :: t =>
    match classEnd fuel 1 (classStart t) with
    | some rest => expressionHolds fuel depth true rest
    | none => false
  | fuel + 1, '\\' :: t =>
    match readEscape t with
    | some (_, rest) => expressionHolds fuel depth true rest
    | none => false
  | fuel + 1, c :: t =>
    if c = '*' ∨ c = '+' ∨ c = '?' then
      item && expressionHolds fuel depth true ((strip "?" t).getD t)
    else c ≠ '\x7b' && expressionHolds fuel depth true t

/-- Whether a text is a regular expression. Each step takes a character or more, so the length
of the text is enough steps. -/
def isPattern (t : Text) : Bool := expressionHolds (t.length + 1) 0 false t

def isUnsignedNumber (t : Text) : Bool :=
  let digits := t.takeWhile Char.isDigit
  let rest := t.drop digits.length
  let fraction := (strip "." rest).elim [] (List.takeWhile Char.isDigit)
  let rest := (strip "." rest).elim rest (List.dropWhile Char.isDigit)
  let exponentHolds :=
    match rest with
    | [] => true
    | e :: rest =>
      let rest :=
        match rest with
        | '+' :: rest | '-' :: rest => rest
        | rest => rest
      e.toLower = 'e' && rest ≠ [] && rest.all Char.isDigit
  (digits ≠ [] || fraction ≠ []) && exponentHolds ||
    (["inf", "infinity", "nan"].map String.toList).contains (t.map Char.toLower)

end MachineFacts
