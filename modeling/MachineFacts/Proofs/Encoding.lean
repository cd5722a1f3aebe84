import MachineFacts.Path

/-! Texts and their bytes. A character above the ASCII ones has none of their bytes, and what is
decoded from the bytes of a text is the text, so a path that is text is shown as it is. -/

namespace MachineFacts

theorem bytes_inj {a b : Text} : bytes a = bytes b ↔ a = b := by
  constructor
  · intro h
    have ha : text? (bytes a) = some a := text?_eq_some_iff.mpr rfl
    have hb : text? (bytes a) = some b := text?_eq_some_iff.mpr h
    exact Option.some.inj (ha.symm.trans hb)
  · rintro rfl
    rfl

theorem codePoint_lt (c : Char) : c.val.toNat < 0x110000 := by
  rcases c.valid with hlow | ⟨-, hhigh⟩
  · omega
  · exact hhigh

theorem bytes_of_narrow {c : Char} (h : c.utf8Size = 1) :
    ∃ byte, String.utf8EncodeChar c = [byte] ∧ Char.ofUInt8 byte = c := by
  refine ⟨c.val.toUInt8, String.utf8EncodeChar_eq_singleton h, ?_⟩
  have hle : c.val.toNat ≤ 127 := UInt32.le_iff_toNat_le.mp (Char.utf8Size_eq_one_iff.mp h)
  apply Char.ext
  apply UInt32.toNat_inj.mp
  show c.val.toUInt8.toUInt32.toNat = c.val.toNat
  rw [UInt8.toNat_toUInt32, UInt32.toNat_toUInt8]
  exact Nat.mod_eq_of_lt (by omega)

theorem toNat_of_wide {c : Char} (h : c.utf8Size ≠ 1) : 128 ≤ c.toNat := by
  refine Nat.lt_of_not_le fun hle => h ?_
  exact Char.utf8Size_eq_one_iff.mpr (UInt32.le_iff_toNat_le.mpr hle)

theorem bytes_of_wide {c : Char} (h : c.utf8Size ≠ 1) :
    ∀ byte ∈ String.utf8EncodeChar c, 128 ≤ byte.toNat := by
  have hgt : 128 ≤ c.val.toNat := toNat_of_wide h
  have hmax := codePoint_lt c
  unfold String.utf8EncodeChar
  generalize c.val.toNat = n at *
  dsimp only
  rw [if_neg (by omega)]
  -- two, three or four bytes, each with its leading bits
  repeat' split
  all_goals
    simp
    omega

theorem slash_mem_encode_iff {c : Char} : slash ∈ String.utf8EncodeChar c ↔ c = '/' := by
  constructor
  · intro h
    by_cases hsize : c.utf8Size = 1
    · obtain ⟨byte, hbytes, hchar⟩ := bytes_of_narrow hsize
      rw [hbytes, List.mem_singleton] at h
      rw [← hchar, ← h]
      rfl
    · exact absurd (bytes_of_wide hsize slash h) (by decide)
  · rintro rfl
    decide

theorem slash_mem_bytes_iff {t : Text} : slash ∈ bytes t ↔ '/' ∈ t := by
  simp only [bytes, List.mem_flatMap, slash_mem_encode_iff, exists_eq_right]

theorem bytes_slash (a b : Text) : bytes (a ++ '/' :: b) = bytes a ++ slash :: bytes b := by
  rw [bytes_append, bytes_cons]
  rfl

theorem decodeLossy_lead {m : Nat} (hm : m < 256) {bits more low high : Nat}
    (h : utf8Lead m = some ⟨bits, more, low, high⟩) (rest : Bytes) :
    decodeLossy (UInt8.ofNat m :: rest) =
      (utf8Tail bits more low high rest).1 :: decodeLossy (utf8Tail bits more low high rest).2 := by
  have hbyte : (UInt8.ofNat m).toNat = m := by
    rw [UInt8.toNat_ofNat', Nat.mod_eq_of_lt hm]
  rw [decodeLossy, hbyte, h]

theorem utf8Tail_digit {bits more low high v : Nat} (hlow : low ≤ v % 64 + 128)
    (hhigh : v % 64 + 128 ≤ high) (rest : Bytes) :
    utf8Tail bits (more + 1) low high (UInt8.ofNat (v % 64 + 128) :: rest) =
      utf8Tail (64 * bits + v % 64) more 0x80 0xBF rest := by
  have hbyte : (UInt8.ofNat (v % 64 + 128)).toNat = v % 64 + 128 := by
    rw [UInt8.toNat_ofNat', Nat.mod_eq_of_lt (by omega)]
  rw [utf8Tail, hbyte, if_pos ⟨hlow, hhigh⟩, Nat.add_sub_cancel]

/-- The second of three bytes is within the limits that the first one sets. -/
theorem utf8Lead_three {n : Nat} (hlow : 0x800 ≤ n) (hhigh : n < 0x10000)
    (hgap : ¬ (0xD800 ≤ n ∧ n < 0xE000)) :
    ∃ low high, utf8Lead (n / 4096 % 16 + 224) = some ⟨n / 4096, 2, low, high⟩ ∧
      low ≤ n / 64 % 64 + 128 ∧ n / 64 % 64 + 128 ≤ high := by
  have hsplit : n / 64 = 64 * (n / 4096) + n / 64 % 64 := by omega
  have hdigit : n / 64 % 64 < 64 := Nat.mod_lt _ (by decide)
  rw [Nat.mod_eq_of_lt (a := n / 4096) (by omega)]
  generalize n / 64 % 64 = d at *
  unfold utf8Lead
  repeat' split
  all_goals simp [and_assoc]
  all_goals omega

theorem utf8Lead_four {n : Nat} (hlow : 0x10000 ≤ n) (hhigh : n < 0x110000) :
    ∃ low high, utf8Lead (n / 262144 % 8 + 240) = some ⟨n / 262144, 3, low, high⟩ ∧
      low ≤ n / 4096 % 64 + 128 ∧ n / 4096 % 64 + 128 ≤ high := by
  have hsplit : n / 4096 = 64 * (n / 262144) + n / 4096 % 64 := by omega
  have hdigit : n / 4096 % 64 < 64 := Nat.mod_lt _ (by decide)
  rw [Nat.mod_eq_of_lt (a := n / 262144) (by omega)]
  generalize n / 4096 % 64 = d at *
  unfold utf8Lead
  repeat' split
  all_goals simp [and_assoc]
  all_goals omega

theorem decodeLossy_encode (c : Char) (rest : Bytes) :
    decodeLossy (String.utf8EncodeChar c ++ rest) = c :: decodeLossy rest := by
  have hmax := codePoint_lt c
  have hchar : Char.ofNat c.val.toNat = c := Char.ofNat_toNat c
  have hgap : ¬ (0xD800 ≤ c.val.toNat ∧ c.val.toNat < 0xE000) := by
    rcases c.valid with h | h
    · omega
    · omega
  unfold String.utf8EncodeChar
  generalize c.val.toNat = n at *
  rw [← hchar]
  dsimp only
  -- one, two, three or four bytes
  split
  · rw [List.singleton_append, decodeLossy_lead (by omega) (if_pos (by omega))]
    rfl
  split
  · have hlead : utf8Lead (n / 64 % 32 + 192) = some ⟨n / 64, 1, 0x80, 0xBF⟩ := by
      rw [Nat.mod_eq_of_lt (by omega), utf8Lead, if_neg (by omega), if_pos (by omega),
        Nat.add_sub_cancel]
    rw [List.cons_append, decodeLossy_lead (by omega) hlead, List.singleton_append,
      utf8Tail_digit (by omega) (by omega), Nat.div_add_mod]
    rfl
  split
  · obtain ⟨low, high, hlead, hlow, hhigh⟩ := utf8Lead_three (by omega) (by omega) hgap
    have hvalue : 64 * (64 * (n / 4096) + n / 64 % 64) + n % 64 = n := by omega
    simp only [List.cons_append, List.nil_append]
    rw [decodeLossy_lead (by omega) hlead, utf8Tail_digit hlow hhigh,
      utf8Tail_digit (by omega) (by omega), hvalue]
    rfl
  · obtain ⟨low, high, hlead, hlow, hhigh⟩ := utf8Lead_four (n := n) (by omega) hmax
    have hvalue : 64 * (64 * (64 * (n / 262144) + n / 4096 % 64) + n / 64 % 64) + n % 64 = n := by
      omega
    simp only [List.cons_append, List.nil_append]
    rw [decodeLossy_lead (by omega) hlead, utf8Tail_digit hlow hhigh,
      utf8Tail_digit (by omega) (by omega), utf8Tail_digit (by omega) (by omega), hvalue]
    rfl

theorem decodeLossy_bytes (t : Text) : decodeLossy (bytes t) = t := by
  induction t with
  | nil => rw [bytes, List.flatMap_nil, decodeLossy]
  | cons c t ih => rw [bytes_cons, decodeLossy_encode, ih]

theorem Path.shown_bytes (t : Text) : Path.shown (bytes t) = t := decodeLossy_bytes t

end MachineFacts
