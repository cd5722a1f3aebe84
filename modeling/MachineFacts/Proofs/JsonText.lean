import MachineFacts.Hexadecimal
import MachineFacts.Json
import Mathlib.Data.List.TakeWhile

/-! The grammar of JSON texts, for the values that there are here, and a reader of such texts. A
value may be written in many ways, and each of them is read back as that value. -/

namespace MachineFacts

def isJsonBlank (c : Char) : Bool := c == ' ' || c == '\t' || c == '\n' || c == '\r'

def JsonBlank (w : Text) : Prop := ∀ c ∈ w, isJsonBlank c = true

def shortEscapes : List (Char × Char) :=
  [('"', '"'), ('\\', '\\'), ('/', '/'), ('b', '\x08'), ('f', '\x0c'), ('n', '\n'), ('r', '\r'),
    ('t', '\t')]

/-- The ways to spell a text between quotes. -/
inductive Spelling : Text → Text → Prop where
  | nil : Spelling [] []
  | plain {c : Char} {t u : Text} :
      c ≠ '"' → c ≠ '\\' → 0x20 ≤ c.toNat → Spelling t u → Spelling (c :: t) (c :: u)
  | short {e c : Char} {t u : Text} :
      shortEscapes.lookup e = some c → Spelling t u → Spelling (c :: t) ('\\' :: e :: u)
  | code {a b c d x : Char} {t u : Text} :
      codePoint [a, b, c, d] = some x → Spelling t u →
      Spelling (x :: t) ('\\' :: 'u' :: a :: b :: c :: d :: u)

/-- A value, or what stands between the brackets of an array or an object that holds something. -/
inductive JsonPart where
  | value (j : Json)
  | items (js : List Json)
  | fields (fs : List (Text × Json))

/-- The texts that denote a value. -/
inductive Written : JsonPart → Text → Prop where
  | number {ds : Text} :
      ds ≠ [] → (∀ c ∈ ds, c.isDigit = true) → (ds.head? = some '0' → ds = ['0']) →
      Written (.value (.number (Nat.ofDigitChars 10 ds 0))) ds
  | truth (b : Bool) : Written (.value (.truth b)) (if b then "true" else "false")
  | text {t u : Text} : Spelling t u → Written (.value (.text t)) ('"' :: (u ++ ['"']))
  | noItems {w : Text} : JsonBlank w → Written (.value (.array [])) ('[' :: (w ++ [']']))
  | array {js : List Json} {t : Text} :
      Written (.items js) t → Written (.value (.array js)) ('[' :: (t ++ [']']))
  | noFields {w : Text} : JsonBlank w → Written (.value (.object [])) ('{' :: (w ++ ['}']))
  | object {fs : List (Text × Json)} {t : Text} :
      Written (.fields fs) t → Written (.value (.object fs)) ('{' :: (t ++ ['}']))
  | item {j : Json} {w t x : Text} :
      JsonBlank w → Written (.value j) t → JsonBlank x → Written (.items [j]) (w ++ (t ++ x))
  | items {j : Json} {js : List Json} {w t x u : Text} :
      JsonBlank w → Written (.value j) t → JsonBlank x → Written (.items js) u →
      Written (.items (j :: js)) (w ++ (t ++ (x ++ ',' :: u)))
  | field {key k : Text} {j : Json} {w x y t z : Text} :
      JsonBlank w → Spelling key k → JsonBlank x → JsonBlank y → Written (.value j) t →
      JsonBlank z →
      Written (.fields [(key, j)]) (w ++ '"' :: (k ++ '"' :: (x ++ ':' :: (y ++ (t ++ z)))))
  | fields {key k : Text} {j : Json} {fs : List (Text × Json)} {w x y t z u : Text} :
      JsonBlank w → Spelling key k → JsonBlank x → JsonBlank y → Written (.value j) t →
      JsonBlank z → Written (.fields fs) u →
      Written (.fields ((key, j) :: fs))
        (w ++ '"' :: (k ++ '"' :: (x ++ ':' :: (y ++ (t ++ (z ++ ',' :: u))))))

def skipJsonBlanks (t : Text) : Text := t.dropWhile isJsonBlank

def readQuoted : Text → Option (Text × Text)
  | [] => none
  | '"' :: t => some ([], t)
  | '\\' :: 'u' :: a :: b :: c :: d :: t =>
    match codePoint [a, b, c, d] with
    | none => none
    | some x => (readQuoted t).map fun r => (x :: r.1, r.2)
  | '\\' :: e :: t =>
    match shortEscapes.lookup e with
    | none => none
    | some c => (readQuoted t).map fun r => (c :: r.1, r.2)
  | c :: t => (readQuoted t).map fun r => (c :: r.1, r.2)

def readSeparated {α : Type} (read : Text → Option (α × Text)) (closing : Char) :
    Nat → Text → Option (List α × Text)
  | 0, _ => none
  | n + 1, t =>
    match read t with
    | none => none
    | some (a, t) =>
      match skipJsonBlanks t with
      | [] => none
      | c :: t =>
        if c = ',' then (readSeparated read closing n t).map fun r => (a :: r.1, r.2)
        else if c = closing then some ([a], t)
        else none

def readEnclosed {α : Type} (read : Text → Option (α × Text)) (closing : Char) (t : Text) :
    Option (List α × Text) :=
  match readSeparated read closing t.length t with
  | some r => some r
  | none =>
    match skipJsonBlanks t with
    | [] => none
    | c :: t => if c = closing then some ([], t) else none

def readField (read : Text → Option (Json × Text)) (t : Text) :
    Option ((Text × Json) × Text) :=
  match skipJsonBlanks t with
  | '"' :: t =>
    match readQuoted t with
    | none => none
    | some (key, t) =>
      match skipJsonBlanks t with
      | ':' :: t => (read t).map fun r => ((key, r.1), r.2)
      | _ => none
  | _ => none

def readScalar (t : Text) : Option (Json × Text) :=
  match t.takeWhile Char.isDigit with
  | [] =>
    match strip "true" t with
    | some rest => some (.truth true, rest)
    | none => (strip "false" t).map fun rest => (.truth false, rest)
  | ds@(_ :: _) => some (.number (Nat.ofDigitChars 10 ds 0), t.dropWhile Char.isDigit)

def readValue : Nat → Text → Option (Json × Text)
  | 0, _ => none
  | n + 1, t =>
    match skipJsonBlanks t with
    | '"' :: t => (readQuoted t).map fun r => (.text r.1, r.2)
    | '[' :: t => (readEnclosed (readValue n) ']' t).map fun r => (.array r.1, r.2)
    | '{' :: t => (readEnclosed (readField (readValue n)) '}' t).map fun r => (.object r.1, r.2)
    | t => readScalar t

/-- The value that a text denotes. No value is deeper than its text is long. -/
def readJson (t : Text) : Option Json :=
  match readValue (t.length + 1) t with
  | some (j, rest) => if skipJsonBlanks rest = [] then some j else none
  | none => none

theorem isJsonBlank_of_isDigit {c : Char} (hc : c.isDigit = true) : isJsonBlank c = false := by
  rw [Bool.eq_false_iff]
  intro hblank
  simp only [isJsonBlank, Bool.or_eq_true, beq_iff_eq] at hblank
  rcases hblank with ((rfl | rfl) | rfl) | rfl <;> revert hc <;> decide

theorem not_isDigit_of_isJsonBlank {c : Char} (hc : isJsonBlank c = true) :
    c.isDigit = false := by
  cases hd : c.isDigit with
  | false => rfl
  | true => rw [isJsonBlank_of_isDigit hd] at hc; exact hc.symm

theorem skipJsonBlanks_append {w : Text} (hw : JsonBlank w) (t : Text) :
    skipJsonBlanks (w ++ t) = skipJsonBlanks t := by
  rw [skipJsonBlanks, List.dropWhile_append, List.dropWhile_eq_nil_iff.mpr hw]
  rfl

theorem skipJsonBlanks_cons {c : Char} (hc : isJsonBlank c = false) (t : Text) :
    skipJsonBlanks (c :: t) = c :: t :=
  List.dropWhile_cons_of_neg (by simp [hc])

theorem skipJsonBlanks_append_cons {w : Text} {c : Char} (hw : JsonBlank w)
    (hc : isJsonBlank c = false) (t : Text) : skipJsonBlanks (w ++ c :: t) = c :: t := by
  rw [skipJsonBlanks_append hw, skipJsonBlanks_cons hc]

theorem readQuoted_plain {c : Char} (hquote : c ≠ '"') (hescape : c ≠ '\\') (t : Text) :
    readQuoted (c :: t) = (readQuoted t).map fun r => (c :: r.1, r.2) := by
  rw [readQuoted]
  · exact hquote
  · exact fun _ _ _ _ _ hc => absurd hc hescape
  · exact fun _ _ hc => absurd hc hescape

theorem readQuoted_short {e c : Char} (he : shortEscapes.lookup e = some c) (t : Text) :
    readQuoted ('\\' :: e :: t) = (readQuoted t).map fun r => (c :: r.1, r.2) := by
  have hcode : e ≠ 'u' := by
    rintro rfl
    cases he
  simp [readQuoted, hcode, he]

theorem readQuoted_spelling {t u : Text} (h : Spelling t u) (rest : Text) :
    readQuoted (u ++ '"' :: rest) = some (t, rest) := by
  induction h with
  | nil => rfl
  | plain hquote hescape _ _ ih =>
    rw [List.cons_append, readQuoted_plain hquote hescape, ih]
    rfl
  | short he _ ih =>
    rw [List.cons_append, List.cons_append, readQuoted_short he, ih]
    rfl
  | code hx _ ih => simp [readQuoted, hx, ih]

section

variable {α : Type} {read : Text → Option (α × Text)} {closing : Char}

theorem readSeparated_last (hclosing : isJsonBlank closing = false) (hcomma : closing ≠ ',')
    {a : α} {t x rest : Text} (hread : read t = some (a, x ++ closing :: rest))
    (hx : JsonBlank x) {m : Nat} (hm : 0 < m) :
    readSeparated read closing m t = some ([a], rest) := by
  obtain ⟨m, rfl⟩ := Nat.exists_eq_add_one_of_ne_zero (Nat.ne_of_gt hm)
  simp [readSeparated, hread, skipJsonBlanks_append_cons hx hclosing, hcomma]

theorem readSeparated_more {a : α} {as : List α} {t x u rest : Text}
    (hread : read t = some (a, x ++ ',' :: u)) (hx : JsonBlank x) {m : Nat}
    (hrest : readSeparated read closing m u = some (as, rest)) :
    readSeparated read closing (m + 1) t = some (a :: as, rest) := by
  simp [readSeparated, hread, skipJsonBlanks_append_cons hx (c := ',') (by decide), hrest]

theorem readEnclosed_of_separated {as : List α} {t rest : Text}
    (h : readSeparated read closing t.length t = some (as, rest)) :
    readEnclosed read closing t = some (as, rest) := by
  rw [readEnclosed, h]

theorem readEnclosed_empty (hclosing : isJsonBlank closing = false) {w rest : Text}
    (hw : JsonBlank w) (hread : read (w ++ closing :: rest) = none) :
    readEnclosed read closing (w ++ closing :: rest) = some ([], rest) := by
  have hnone : ∀ m, readSeparated read closing m (w ++ closing :: rest) = none := by
    intro m
    cases m <;> simp [readSeparated, hread]
  rw [readEnclosed, hnone, skipJsonBlanks_append_cons hw hclosing]
  simp

end

theorem readField_append {read : Text → Option (Json × Text)} {key k w x t rest : Text}
    {j : Json} (hw : JsonBlank w) (hk : Spelling key k) (hx : JsonBlank x)
    (hread : read t = some (j, rest)) :
    readField read (w ++ '"' :: (k ++ '"' :: (x ++ ':' :: t))) = some ((key, j), rest) := by
  have hquote : skipJsonBlanks (w ++ '"' :: (k ++ '"' :: (x ++ ':' :: t))) =
      '"' :: (k ++ '"' :: (x ++ ':' :: t)) := skipJsonBlanks_append_cons hw (by decide) _
  have hcolon : skipJsonBlanks (x ++ ':' :: t) = ':' :: t :=
    skipJsonBlanks_append_cons hx (by decide) t
  simp [readField, hquote, readQuoted_spelling hk, hcolon, hread]

theorem readValue_append {w : Text} (hw : JsonBlank w) (n : Nat) (t : Text) :
    readValue n (w ++ t) = readValue n t := by
  cases n with
  | zero => rfl
  | succ n => simp only [readValue, skipJsonBlanks_append hw]

theorem readValue_quote (n : Nat) (t : Text) :
    readValue (n + 1) ('"' :: t) = (readQuoted t).map fun r => (.text r.1, r.2) := rfl

theorem readValue_square (n : Nat) (t : Text) :
    readValue (n + 1) ('[' :: t) =
      (readEnclosed (readValue n) ']' t).map fun r => (.array r.1, r.2) := rfl

theorem readValue_curly (n : Nat) (t : Text) :
    readValue (n + 1) ('{' :: t) =
      (readEnclosed (readField (readValue n)) '}' t).map fun r => (.object r.1, r.2) := rfl

def EndsNumber (t : Text) : Prop := ∀ c ∈ t.head?, c.isDigit = false

theorem endsNumber_cons {c : Char} (hc : c.isDigit = false) (t : Text) : EndsNumber (c :: t) := by
  intro d hd
  cases hd
  exact hc

theorem JsonBlank.endsNumber {x : Text} (hx : JsonBlank x) {t : Text} (ht : EndsNumber t) :
    EndsNumber (x ++ t) := by
  cases x with
  | nil => exact ht
  | cons c x => exact endsNumber_cons (not_isDigit_of_isJsonBlank (hx c List.mem_cons_self)) _

theorem readScalar_number {ds rest : Text} (hds : ds ≠ []) (h : ∀ c ∈ ds, c.isDigit = true)
    (hrest : EndsNumber rest) :
    readScalar (ds ++ rest) = some (.number (Nat.ofDigitChars 10 ds 0), rest) := by
  have htake : rest.takeWhile Char.isDigit = [] := by
    cases rest with
    | nil => rfl
    | cons c rest => simp [hrest c rfl]
  have hdrop : rest.dropWhile Char.isDigit = rest := by
    cases rest with
    | nil => rfl
    | cons c rest => simp [hrest c rfl]
  rw [readScalar, List.takeWhile_append_of_pos h, List.dropWhile_append_of_pos h, htake, hdrop,
    List.append_nil]
  cases ds with
  | nil => exact absurd rfl hds
  | cons d ds => rfl

def ReadsBack : JsonPart → Text → Prop
  | .value j, t => ∀ n rest, t.length ≤ n + 1 → EndsNumber rest →
      readValue (n + 1) (t ++ rest) = some (j, rest)
  | .items js, t => ∀ n m rest, t.length ≤ n + 1 → t.length < m →
      readSeparated (readValue (n + 1)) ']' m (t ++ ']' :: rest) = some (js, rest)
  | .fields fs, t => ∀ n m rest, t.length ≤ n + 1 → t.length < m →
      readSeparated (readField (readValue (n + 1))) '}' m (t ++ '}' :: rest) = some (fs, rest)

theorem readsBack_number {ds : Text} (hds : ds ≠ []) (h : ∀ c ∈ ds, c.isDigit = true) :
    ReadsBack (.value (.number (Nat.ofDigitChars 10 ds 0))) ds := by
  intro n rest _ hrest
  rw [← readScalar_number hds h hrest]
  cases ds with
  | nil => exact absurd rfl hds
  | cons d ds =>
    have hd : d.isDigit = true := h d List.mem_cons_self
    have hne : ∀ c : Char, c.isDigit = false → d ≠ c := fun c hc hdc => by
      rw [hdc, hc] at hd
      exact absurd hd (by decide)
    simp [readValue, skipJsonBlanks_cons (isJsonBlank_of_isDigit hd), hne '"' (by decide),
      hne '[' (by decide), hne '{' (by decide)]

theorem readsBack_truth (b : Bool) :
    ReadsBack (.value (.truth b)) (if b then "true" else "false") := by
  intro n rest _ _
  cases b <;> rfl

theorem readsBack_text {t u : Text} (hu : Spelling t u) :
    ReadsBack (.value (.text t)) ('"' :: (u ++ ['"'])) := by
  intro n rest _ _
  simp [readValue_quote, readQuoted_spelling hu]

theorem readsBack_noItems {w : Text} (hw : JsonBlank w) :
    ReadsBack (.value (.array [])) ('[' :: (w ++ [']'])) := by
  intro n rest _ _
  have hread : readValue n (w ++ ']' :: rest) = none := by
    rw [readValue_append hw]
    cases n <;> rfl
  simp [readValue_square, readEnclosed_empty (by decide) hw hread]

theorem readsBack_array {js : List Json} {t : Text} (h : ReadsBack (.items js) t) :
    ReadsBack (.value (.array js)) ('[' :: (t ++ [']'])) := by
  intro n rest hn _
  simp only [List.length_cons, List.length_append] at hn
  obtain ⟨n, rfl⟩ := Nat.exists_eq_add_one_of_ne_zero (show n ≠ 0 by omega)
  have hread := readEnclosed_of_separated (h n _ rest (by omega) (by simp))
  simp [readValue_square, hread]

theorem readsBack_noFields {w : Text} (hw : JsonBlank w) :
    ReadsBack (.value (.object [])) ('{' :: (w ++ ['}'])) := by
  intro n rest _ _
  have hread : readField (readValue n) (w ++ '}' :: rest) = none := by
    simp [readField, skipJsonBlanks_append_cons hw (c := '}') (by decide)]
  simp [readValue_curly, readEnclosed_empty (by decide) hw hread]

theorem readsBack_object {fs : List (Text × Json)} {t : Text} (h : ReadsBack (.fields fs) t) :
    ReadsBack (.value (.object fs)) ('{' :: (t ++ ['}'])) := by
  intro n rest hn _
  simp only [List.length_cons, List.length_append] at hn
  obtain ⟨n, rfl⟩ := Nat.exists_eq_add_one_of_ne_zero (show n ≠ 0 by omega)
  have hread := readEnclosed_of_separated (h n _ rest (by omega) (by simp))
  simp [readValue_curly, hread]

theorem Written.readsBack {p : JsonPart} {t : Text} (h : Written p t) : ReadsBack p t := by
  -- The parts of a value are read with one level less and are shorter by two brackets at least, so
  -- the bound on the levels goes on to them.
  induction h with
  | number hds hdigits _ => exact readsBack_number hds hdigits
  | truth b => exact readsBack_truth b
  | text hu => exact readsBack_text hu
  | noItems hw => exact readsBack_noItems hw
  | array _ ih => exact readsBack_array ih
  | noFields hw => exact readsBack_noFields hw
  | object _ ih => exact readsBack_object ih
  | item hw _ hx ih =>
    intro n m rest hn hm
    simp only [List.length_append] at hn
    have hread := ih n _ (by omega)
      (hx.endsNumber (endsNumber_cons (c := ']') (by decide) rest))
    rw [← readValue_append hw] at hread
    simpa using readSeparated_last (by decide) (by decide) hread hx (Nat.zero_lt_of_lt hm)
  | @items j js w t x u hw _ hx _ ih ihs =>
    intro n m rest hn hm
    simp only [List.length_append, List.length_cons] at hn hm
    have hread := ih n _ (by omega)
      (hx.endsNumber (endsNumber_cons (c := ',') (by decide) (u ++ ']' :: rest)))
    rw [← readValue_append hw] at hread
    obtain ⟨m, rfl⟩ := Nat.exists_eq_add_one_of_ne_zero (Nat.ne_zero_of_lt hm)
    simpa using readSeparated_more hread hx (ihs n m rest (by omega) (by omega))
  | field hw hk hx hy _ hz ih =>
    intro n m rest hn hm
    simp only [List.length_append, List.length_cons] at hn
    have hread := ih n _ (by omega)
      (hz.endsNumber (endsNumber_cons (c := '}') (by decide) rest))
    rw [← readValue_append hy] at hread
    simpa using readSeparated_last (by decide) (by decide) (readField_append hw hk hx hread) hz
      (Nat.zero_lt_of_lt hm)
  | @fields key k j fs w x y t z u hw hk hx hy _ hz _ ih ihs =>
    intro n m rest hn hm
    simp only [List.length_append, List.length_cons] at hn hm
    have hread := ih n _ (by omega)
      (hz.endsNumber (endsNumber_cons (c := ',') (by decide) (u ++ '}' :: rest)))
    rw [← readValue_append hy] at hread
    obtain ⟨m, rfl⟩ := Nat.exists_eq_add_one_of_ne_zero (Nat.ne_zero_of_lt hm)
    simpa using readSeparated_more (readField_append hw hk hx hread) hz
      (ihs n m rest (by omega) (by omega))

/-- Every text that denotes a value is read as that value, so it denotes no other one. -/
theorem readJson_of_written {j : Json} {t : Text} (h : Written (.value j) t) :
    readJson t = some j := by
  have hread : readValue (t.length + 1) (t ++ []) = some (j, []) :=
    h.readsBack t.length [] (Nat.le_succ _) (by simp [EndsNumber])
  rw [List.append_nil] at hread
  rw [readJson, hread]
  rfl

example : readJson "[ true, 10,\t\"\\u0041\\n\" ]" =
    some (.array [.truth true, .number 10, .text "A\n"]) := by rfl

end MachineFacts
