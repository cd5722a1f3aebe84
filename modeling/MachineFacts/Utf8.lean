import MachineFacts.Text

/-! Texts as bytes, and bytes as text when they need not be UTF-8. Each longest start of a
character that is not completed is replaced as a whole. -/

namespace MachineFacts

abbrev Bytes := List UInt8

/-- The text in UTF-8. -/
def bytes (t : Text) : Bytes := t.flatMap String.utf8EncodeChar

instance : Coe String Bytes := ⟨fun s => bytes s.toList⟩

theorem bytes_cons (c : Char) (t : Text) : bytes (c :: t) = String.utf8EncodeChar c ++ bytes t :=
  List.flatMap_cons

theorem bytes_append (a b : Text) : bytes (a ++ b) = bytes a ++ bytes b := List.flatMap_append

def byteLength (t : Text) : Nat := (t.map Char.utf8Size).foldr Nat.add 0

@[simp] theorem byteLength_nil : byteLength [] = 0 := rfl

@[simp] theorem byteLength_cons (c : Char) (t : Text) :
    byteLength (c :: t) = c.utf8Size + byteLength t := rfl

@[simp] theorem byteLength_append (a b : Text) :
    byteLength (a ++ b) = byteLength a + byteLength b := by
  induction a with
  | nil => simp
  | cons c a ih => simp [ih, Nat.add_assoc]

theorem length_bytes (t : Text) : (bytes t).length = byteLength t := by
  induction t with
  | nil => rfl
  | cons c t ih =>
    rw [bytes_cons, List.length_append, String.length_utf8EncodeChar, ih, byteLength_cons]

/-- The text that the bytes are, if they are UTF-8. -/
def text? (b : Bytes) : Option Text := (String.fromUTF8? b.toByteArray).map String.toList

theorem text?_eq_some_iff {b : Bytes} {t : Text} : text? b = some t ↔ b = bytes t := by
  unfold text? String.fromUTF8?
  constructor
  · intro h
    split at h
    · next hvalid =>
      have ht : (String.fromUTF8 b.toByteArray hvalid).toList = t := by simpa using h
      apply List.toByteArray_inj.mp
      show (String.fromUTF8 b.toByteArray hvalid).toByteArray = t.utf8Encode
      rw [← String.utf8Encode_toList, ht]
    · cases h
  · rintro rfl
    rw [dif_pos ⟨t, rfl⟩]
    show some (String.ofList t).toList = some t
    rw [String.toList_ofList]

/-- The longest start of the bytes that is text, and the bytes behind it. -/
def textStart (b : Bytes) : Text × Bytes :=
  let starts := (List.range (b.length + 1)).reverse.filterMap fun n =>
    (text? (b.take n)).map fun t => (t, b.drop n)
  starts.headD ([], b)

def replacement : Char := '\ufffd'

/-- What the first byte of a character says: its own bits, how many bytes follow, and between
which limits the next one lies. -/
structure Utf8Lead where
  bits : Nat
  more : Nat
  low : Nat
  high : Nat

def utf8Lead (b : Nat) : Option Utf8Lead :=
  if b < 0x80 then some ⟨b, 0, 0x80, 0xBF⟩
  else if 0xC2 ≤ b ∧ b < 0xE0 then some ⟨b - 0xC0, 1, 0x80, 0xBF⟩
  else if b = 0xE0 then some ⟨0, 2, 0xA0, 0xBF⟩
  else if b = 0xED then some ⟨0xD, 2, 0x80, 0x9F⟩
  else if 0xE1 ≤ b ∧ b < 0xF0 then some ⟨b - 0xE0, 2, 0x80, 0xBF⟩
  else if b = 0xF0 then some ⟨0, 3, 0x90, 0xBF⟩
  else if 0xF1 ≤ b ∧ b < 0xF4 then some ⟨b - 0xF0, 3, 0x80, 0xBF⟩
  else if b = 0xF4 then some ⟨4, 3, 0x80, 0x8F⟩
  else none

/-- The rest of a character, and the bytes behind it. -/
def utf8Tail (bits more low high : Nat) (bytes : Bytes) : Char × Bytes :=
  match more, bytes with
  | 0, bytes => (Char.ofNat bits, bytes)
  | _ + 1, [] => (replacement, [])
  | more + 1, b :: bytes =>
    if low ≤ b.toNat ∧ b.toNat ≤ high then
      utf8Tail (64 * bits + (b.toNat - 0x80)) more 0x80 0xBF bytes
    else (replacement, b :: bytes)

theorem utf8Tail_length (bits more low high : Nat) (bytes : Bytes) :
    (utf8Tail bits more low high bytes).2.length ≤ bytes.length := by
  induction more generalizing bits low high bytes with
  | zero => simp [utf8Tail]
  | succ more ih =>
    cases bytes with
    | nil => simp [utf8Tail]
    | cons b bytes =>
      simp only [utf8Tail]
      split
      · exact Nat.le_succ_of_le (ih _ _ _ bytes)
      · exact Nat.le_refl _

def decodeLossy : Bytes → Text
  | [] => []
  | b :: bytes =>
    match utf8Lead b.toNat with
    | none => replacement :: decodeLossy bytes
    | some lead =>
      let c := utf8Tail lead.bits lead.more lead.low lead.high bytes
      c.1 :: decodeLossy c.2
termination_by bytes => bytes.length
decreasing_by
  · simp
  · exact Nat.lt_succ_of_le (utf8Tail_length ..)

end MachineFacts
