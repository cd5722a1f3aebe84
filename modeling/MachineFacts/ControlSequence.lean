import MachineFacts.Text

/-! What a text shows on a page that knows no terminal control sequences. An escape character
begins a sequence anywhere, also inside another one; what belongs to it is decided character by
character. A sequence that never ends takes the rest of the text. -/

namespace MachineFacts

inductive ControlState where
  | plain
  | escape
  | escapeMark
  | parameters
  | deviceStart
  | deviceNumbers
  | deviceMark
  /-- In a string that only the byte 0x9C ends. -/
  | string
  /-- In a string that only U+0007 ends. -/
  | title
  deriving Repr, DecidableEq

/-- A string ends inside the character whose encoding holds the byte 0x9C. -/
def endsString (c : Char) : Bool := (String.utf8EncodeChar c).contains 0x9C

def isLayout (c : Char) : Bool := c == '\t' || c == '\n' || c == '\x0c' || c == '\r'

def isMark (c : Char) : Bool := ' ' ≤ c && c ≤ '/'

def afterEscape (c : Char) : ControlState :=
  if c = '[' then .parameters
  else if c = ']' then .title
  else if c = 'P' then .deviceStart
  else if c = 'X' ∨ c = '^' ∨ c = '_' then .string
  else .plain

/-- Where a character leads, and whether it is shown. Layout characters break off a control
sequence, but not a string. -/
def ControlState.step (s : ControlState) (c : Char) : ControlState × Bool :=
  if c = '\x1b' then (.escape, false)
  else if c = '\x18' ∨ c = '\x1a' then (.plain, false)
  else
    match s with
    | .plain => (.plain, isLayout c || (' ' ≤ c && c != '\x7f'))
    | .escape | .escapeMark | .parameters =>
      if isLayout c then (.plain, true)
      else if c < ' ' ∨ '~' < c then (s, false)
      else
        match s with
        | .parameters => (if c < '@' then s else .plain, false)
        | .escape => (if isMark c then .escapeMark else afterEscape c, false)
        | _ => (if isMark c then s else .plain, false)
    | .deviceStart | .deviceNumbers | .deviceMark =>
      if c < ' ' ∨ '~' < c then (s, false)
      else if isMark c then (.deviceMark, false)
      else if s = .deviceStart ∧ c < '@' then (.deviceNumbers, false)
      else if s = .deviceNumbers ∧ c < '<' then (s, false)
      else (.string, false)
    | .string => (if endsString c then .plain else s, false)
    | .title => (if c = '\x07' then .plain else s, false)

def shownFrom (s : ControlState) : Text → Text
  | [] => []
  | c :: t =>
    let next := s.step c
    if next.2 then c :: shownFrom next.1 t else shownFrom next.1 t

def shown (t : Text) : Text := shownFrom .plain t

theorem shown_of_ordinary {t : Text} (h : ∀ c ∈ t, ' ' ≤ c ∧ c ≠ '\x7f') : shown t = t := by
  induction t with
  | nil => rfl
  | cons c t ih =>
    have hc := h c (List.mem_cons_self ..)
    have ht := ih fun d hd => h d (List.mem_cons_of_mem _ hd)
    have ne : ∀ d : Char, d < ' ' → c ≠ d := by
      rintro d hd rfl
      exact absurd hc.1 (Char.not_le.mpr hd)
    have hs : ControlState.step .plain c = (.plain, true) := by
      simp [ControlState.step, ne '\x1b' (by decide), ne '\x18' (by decide),
        ne '\x1a' (by decide), hc.1, hc.2]
    simpa [shown, shownFrom, hs] using ht

end MachineFacts
