import MachineFacts.Text

/-! Finding the delimiter that closes a block. Delimiters inside strings and comments do not
count towards the depth. -/

namespace MachineFacts

inductive Mode where
  | code
  | comment
  | quoted
  | escaped
  deriving Repr, DecidableEq

def Mode.next : Mode → Char → Mode
  | .code, c => if c = '"' then .quoted else if c = '#' then .comment else .code
  | .comment, c => if c = '\n' then .code else .comment
  | .quoted, c => if c = '\\' then .escaped else if c = '"' then .code else .quoted
  | .escaped, _ => .quoted

def Mode.after (m : Mode) (t : Text) : Mode := t.foldl Mode.next m

inductive Bracket where
  | brace
  | square
  deriving Repr, DecidableEq

def Bracket.opener : Bracket → Char
  | .brace => '{'
  | .square => '['

def Bracket.closer : Bracket → Char
  | .brace => '}'
  | .square => ']'

inductive Step where
  | inside (mode : Mode) (depth : Nat)
  | closed
  /-- A closing delimiter with nothing open. -/
  | stray
  deriving Repr, DecidableEq

def Bracket.step (b : Bracket) (mode : Mode) (depth : Nat) (c : Char) : Step :=
  if mode = .code ∧ c = b.opener then .inside .code (depth + 1)
  else if mode = .code ∧ c = b.closer then
    match depth with
    | 0 => .stray
    | 1 => .closed
    | d + 2 => .inside .code (d + 1)
  else .inside (mode.next c) depth

/-- The text behind the delimiter that brings the depth back to zero. -/
def Bracket.closing (b : Bracket) (mode : Mode) (depth : Nat) : Text → Option Text
  | [] => none
  | c :: t =>
    match b.step mode depth c with
    | .inside mode depth => b.closing mode depth t
    | .closed => some t
    | .stray => none

/-- The inner text of a block, entered behind its opening brace, and the text behind it. -/
def closeBlock (t : Text) : Option (Text × Text) :=
  (Bracket.brace.closing .code 1 t).map fun rest => (front t 1 rest, rest)

theorem Bracket.closing_length {b : Bracket} {mode : Mode} {depth : Nat} {t rest : Text}
    (h : b.closing mode depth t = some rest) : rest.length < t.length := by
  induction t generalizing mode depth with
  | nil => cases h
  | cons c t ih =>
    simp only [Bracket.closing] at h
    split at h
    · have := ih h
      simp only [List.length_cons]
      omega
    · cases h
      simp
    · cases h

theorem closeBlock_length {t inner rest : Text} (h : closeBlock t = some (inner, rest)) :
    rest.length < t.length := by
  obtain ⟨r, hr, e⟩ := Option.map_eq_some_iff.mp h
  cases e
  exact Bracket.closing_length hr

end MachineFacts
