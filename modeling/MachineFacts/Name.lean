import MachineFacts.Text

/-! Looking up an attribute by name. A name counts only where it does not continue a longer
attribute path, and a value is read behind each occurrence in turn until one reads well. -/

namespace MachineFacts

def isNameChar (c : Char) : Bool :=
  c.isAlphanum || c == '_' || c == '-' || c == '.' || c == '\x27'

def endsName (t : Text) : Bool :=
  match t.getLast? with
  | none => true
  | some c => !isNameChar c

/-- The text behind the first `name` that follows no name character; `fresh` says so of the
first character. Behind an occurrence that does, the search resumes one byte on, and it gives
up if that byte lies inside a character. -/
def findName (name : Text) (fresh : Bool) : Text → Option Text
  | [] => if fresh then strip name [] else none
  | c :: t =>
    match strip name (c :: t) with
    | some rest =>
      if fresh then some rest
      else if c.utf8Size = 1 then findName name (!isNameChar c) t
      else none
    | none => findName name (!isNameChar c) t

/-- The text behind `=` and `opener`, with blanks allowed before each. -/
def assigned (opener : Char) (t : Text) : Option Text :=
  match t.dropWhile isBlank with
  | '=' :: value =>
    match value.dropWhile isBlank with
    | c :: rest => if c = opener then some rest else none
    | [] => none
  | _ => none

inductive Reading (α : Type) where
  | found (value : α)
  /-- There is no such value here; a later occurrence may have one. -/
  | absent
  /-- The value never ends, and the search ends with it. -/
  | endless
  deriving Repr, DecidableEq

theorem findName_length {name t rest : Text} {fresh : Bool}
    (h : findName name fresh t = some rest) : name.length + rest.length ≤ t.length := by
  induction t generalizing fresh with
  | nil =>
    cases fresh with
    | false => simp [findName] at h
    | true => exact Nat.le_of_eq (strip_length (by simpa [findName] using h))
  | cons c t ih =>
    simp only [findName] at h
    split at h
    · next r hr =>
      split at h
      · cases h
        exact Nat.le_of_eq (strip_length hr)
      · split at h
        · have := ih h
          simp only [List.length_cons]
          omega
        · cases h
    · have := ih h
      simp only [List.length_cons]
      omega

theorem assigned_length {opener : Char} {t rest : Text} (h : assigned opener t = some rest) :
    rest.length < t.length := by
  unfold assigned at h
  split at h
  · next value hv =>
    split at h
    · next c r hr =>
      split at h
      · cases h
        have h1 : (t.dropWhile isBlank).length ≤ t.length :=
          (List.dropWhile_suffix isBlank).length_le
        have h2 : (value.dropWhile isBlank).length ≤ value.length :=
          (List.dropWhile_suffix isBlank).length_le
        simp only [hv, hr, List.length_cons] at h1 h2
        omega
      · cases h
    · cases h
  · cases h

/-- Reads a value behind each occurrence of `name` in turn and takes the first one found. An
empty name leaves the search where it was, so it is tried once. -/
def readNamed {α : Type} (name : Text) (read : Text → Reading α) (fresh : Bool)
    (t : Text) : Option α :=
  match _h : findName name fresh t with
  | none => none
  | some rest =>
    match read rest with
    | .found value => some value
    | .endless => none
    | .absent => if _hn : name = [] then none else readNamed name read (endsName name) rest
termination_by t.length
decreasing_by
  have := findName_length _h
  have := List.length_pos_iff.mpr _hn
  omega

end MachineFacts
