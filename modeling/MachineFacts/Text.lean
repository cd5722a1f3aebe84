/-! Texts as lists of characters. A search returns the text behind what it looked for, so
nothing is measured in offsets; `front` recovers what the search passed over. -/

namespace MachineFacts

abbrev Text := List Char

instance : Coe String Text := ⟨String.toList⟩

def Text.ofNat (n : Nat) : Text := Nat.toDigits 10 n

/-- The Unicode property `White_Space`. -/
def isBlank (c : Char) : Bool :=
  let n := c.toNat
  (9 ≤ n && n ≤ 13) || n == 32 || n == 0x85 || n == 0xA0 || n == 0x1680 ||
    (0x2000 ≤ n && n ≤ 0x200A) || n == 0x2028 || n == 0x2029 || n == 0x202F ||
    n == 0x205F || n == 0x3000

def trim (t : Text) : Text :=
  ((t.dropWhile isBlank).reverse.dropWhile isBlank).reverse

/-- What follows `lead` in a text that starts with it. -/
def strip : Text → Text → Option Text
  | [], t => some t
  | _ :: _, [] => none
  | a :: lead, c :: t => if a = c then strip lead t else none

/-- The text behind the first `needle`. -/
def behind (needle : Text) : Text → Option Text
  | [] => strip needle []
  | c :: t =>
    match strip needle (c :: t) with
    | some rest => some rest
    | none => behind needle t

def occurs (needle t : Text) : Bool := (behind needle t).isSome

/-- What stands in `t` before its last `width + rest.length` characters. -/
def front (t : Text) (width : Nat) (rest : Text) : Text :=
  t.take (t.length - (width + rest.length))

/-- The texts on the two sides of the first `stop`. -/
def cut (stop : Char) : Text → Option (Text × Text)
  | [] => none
  | c :: t =>
    if c = stop then some ([], t)
    else (cut stop t).map fun sides => (c :: sides.1, sides.2)

theorem strip_eq_some_iff {lead t rest : Text} :
    strip lead t = some rest ↔ t = lead ++ rest := by
  induction lead generalizing t with
  | nil => simp [strip, eq_comm]
  | cons a lead ih =>
    cases t with
    | nil => simp [strip]
    | cons c t => by_cases h : a = c <;> simp [strip, h, ih, eq_comm]

theorem strip_append (lead rest : Text) : strip lead (lead ++ rest) = some rest :=
  strip_eq_some_iff.mpr rfl

theorem strip_length {lead t rest : Text} (h : strip lead t = some rest) :
    lead.length + rest.length = t.length := by
  rw [strip_eq_some_iff.mp h, List.length_append]

theorem behind_length {needle t rest : Text} (h : behind needle t = some rest) :
    needle.length + rest.length ≤ t.length := by
  induction t with
  | nil => exact Nat.le_of_eq (strip_length h)
  | cons c t ih =>
    simp only [behind] at h
    split at h
    · next r hr =>
      cases h
      exact Nat.le_of_eq (strip_length hr)
    · have := ih h
      simp only [List.length_cons]
      omega

theorem front_append (a sep rest : Text) : front (a ++ (sep ++ rest)) sep.length rest = a := by
  simp [front]

theorem cut_eq_some_iff {stop : Char} {t a b : Text} :
    cut stop t = some (a, b) ↔ t = a ++ stop :: b ∧ stop ∉ a := by
  induction t generalizing a with
  | nil => simp [cut]
  | cons c t ih =>
    by_cases h : c = stop
    · cases a with
      | nil => simp [cut, h]
      | cons d a =>
        simp only [cut, h, if_true, List.cons_append, List.mem_cons, not_or]
        constructor
        · intro e
          cases e
        · rintro ⟨e, hd, -⟩
          cases e
          exact absurd rfl hd
    · cases a with
      | nil => simp [cut, h]
      | cons d a =>
        have hd : ¬ stop = c := fun e => h e.symm
        simp only [cut, if_neg h, Option.map_eq_some_iff, List.cons_append, List.mem_cons, not_or]
        constructor
        · rintro ⟨⟨x, y⟩, hx, e⟩
          cases e
          exact ⟨by rw [(ih.mp hx).1], hd, (ih.mp hx).2⟩
        · rintro ⟨e, -, ha⟩
          cases e
          exact ⟨(a, b), ih.mpr ⟨rfl, ha⟩, rfl⟩

theorem cut_length {stop : Char} {t a b : Text} (h : cut stop t = some (a, b)) :
    a.length + b.length + 1 = t.length := by
  rw [(cut_eq_some_iff.mp h).1, List.length_append, List.length_cons]
  omega

end MachineFacts
