import MachineFacts.Proofs.Encoding
import MachineFacts.Proofs.Offset
import MachineFacts.Proofs.Reading

/-! The scan for a closing delimiter over bytes. A byte is compared as the character with its
number, and of a character of several bytes none is a delimiter, a quote, a backslash, a hash sign
or a line feed, so the scan comes to the place that it comes to over the characters. -/

namespace MachineFacts

/-- The number of bytes in front of the one that brings the depth back to zero. -/
def Bracket.closingByte (b : Bracket) (mode : Mode) (depth : Nat) : List UInt8 → Option Nat
  | [] => none
  | byte :: more =>
    match b.step mode depth (Char.ofUInt8 byte) with
    | .inside mode depth => (b.closingByte mode depth more).map (· + 1)
    | .closed => some 0
    | .stray => none

/-- The place of the delimiter that closes what opens at `start`. -/
def closingAt (b : Bracket) (t : Text) (start : Nat) : Option Nat :=
  (b.closingByte .code 0 ((bytes t).drop start)).map (start + ·)

theorem drop_bytes (before after : Text) :
    (bytes (before ++ after)).drop (byteLength before) = bytes after := by
  rw [bytes_append, ← length_bytes, List.drop_left]

theorem closing_opener (b : Bracket) (t : Text) :
    b.closing .code 0 (b.opener :: t) = b.closing .code 1 t := by
  rw [Bracket.closing, Bracket.step, if_pos ⟨rfl, rfl⟩]

/-- A character above the ASCII ones counts only behind a backslash, which takes it along. -/
def Mode.pastWide : Mode → Mode
  | .escaped => .quoted
  | mode => mode

theorem Bracket.step_wide {c : Char} (h : 128 ≤ c.toNat) (b : Bracket) (mode : Mode)
    (depth : Nat) : b.step mode depth c = .inside mode.pastWide depth := by
  have hne : ∀ d : Char, d.toNat < 128 → c ≠ d := by
    rintro d hd rfl
    omega
  have hopener : c ≠ b.opener := hne _ (by cases b <;> decide)
  have hcloser : c ≠ b.closer := hne _ (by cases b <;> decide)
  have hquote : c ≠ '"' := hne _ (by decide)
  have hhash : c ≠ '#' := hne _ (by decide)
  have hslash : c ≠ '\\' := hne _ (by decide)
  have hline : c ≠ '\n' := hne _ (by decide)
  cases mode <;>
    simp [Bracket.step, Mode.next, Mode.pastWide, hopener, hcloser, hquote, hhash, hslash, hline]

theorem Mode.pastWide_pastWide (mode : Mode) : mode.pastWide.pastWide = mode.pastWide := by
  cases mode <;> rfl

theorem Bracket.closingByte_wide (b : Bracket) (mode : Mode) (depth : Nat) {wide : List UInt8}
    (h : ∀ byte ∈ wide, 128 ≤ byte.toNat) (hne : wide ≠ []) (more : List UInt8) :
    b.closingByte mode depth (wide ++ more) =
      (b.closingByte mode.pastWide depth more).map (· + wide.length) := by
  induction wide generalizing mode with
  | nil => exact absurd rfl hne
  | cons byte wide ih =>
    have hbyte : 128 ≤ (Char.ofUInt8 byte).toNat := h byte List.mem_cons_self
    rw [List.cons_append, Bracket.closingByte, Bracket.step_wide hbyte]
    cases wide with
    | nil => rfl
    | cons next wide =>
      have hrest := ih mode.pastWide (fun d hd => h d (List.mem_cons_of_mem byte hd)) (by simp)
      dsimp only
      rw [hrest, Mode.pastWide_pastWide, Option.map_map]
      rfl

theorem Bracket.closing_wide {c : Char} (h : 128 ≤ c.toNat) (b : Bracket) (mode : Mode)
    (depth : Nat) (t : Text) :
    b.closing mode depth (c :: t) = b.closing mode.pastWide depth t := by
  rw [Bracket.closing, Bracket.step_wide h]

theorem Bracket.startOf_cons {b : Bracket} {mode : Mode} {depth : Nat} {t rest : Text}
    (h : b.closing mode depth t = some rest) (c : Char) :
    startOf (c :: t) (b.closer :: rest) = startOf t (b.closer :: rest) + c.utf8Size := by
  obtain ⟨inner, rfl⟩ := closing_split h
  rw [startOf_append, ← List.cons_append, startOf_append, byteLength_cons, Nat.add_comm]

theorem Bracket.step_closed {b : Bracket} {mode : Mode} {depth : Nat} {c : Char}
    (h : b.step mode depth c = .closed) : c = b.closer := by
  simp only [Bracket.step] at h
  split at h
  · cases h
  · split at h
    · next hc => exact hc.2
    · cases h

theorem Bracket.closing_map_startOf_cons (b : Bracket) (mode : Mode) (depth : Nat) (c : Char)
    (t : Text) :
    (b.closing mode depth t).map (fun rest => startOf (c :: t) (b.closer :: rest)) =
      ((b.closing mode depth t).map fun rest => startOf t (b.closer :: rest)).map
        (· + c.utf8Size) := by
  cases h : b.closing mode depth t with
  | none => rfl
  | some rest => exact congrArg some (Bracket.startOf_cons h c)

/-- The bytes are scanned to the place that the characters are scanned to. -/
theorem Bracket.closingByte_bytes (b : Bracket) (mode : Mode) (depth : Nat) (t : Text) :
    b.closingByte mode depth (bytes t) =
      (b.closing mode depth t).map fun rest => startOf t (b.closer :: rest) := by
  induction t generalizing mode depth with
  | nil => rfl
  | cons c t ih =>
    by_cases hc : c.utf8Size = 1
    · obtain ⟨byte, hbytes, hchar⟩ := bytes_of_narrow hc
      rw [bytes_cons, hbytes, List.singleton_append, Bracket.closingByte, hchar, Bracket.closing]
      cases hs : b.step mode depth c with
      | inside next after =>
        dsimp only
        rw [ih, Bracket.closing_map_startOf_cons, hc]
      | closed =>
        rw [Bracket.step_closed hs]
        exact congrArg some (startOf_append [] (b.closer :: t)).symm
      | stray => rfl
    · have hwide := bytes_of_wide hc
      have hlen := String.length_utf8EncodeChar c
      have hne : String.utf8EncodeChar c ≠ [] := by
        have hpos := c.utf8Size_pos
        exact List.ne_nil_of_length_pos (by omega)
      rw [bytes_cons, b.closingByte_wide mode depth hwide hne, hlen,
        Bracket.closing_wide (toNat_of_wide hc), Bracket.closing_map_startOf_cons, ih]

theorem closingAt_append (b : Bracket) (before after : Text) :
    closingAt b (before ++ after) (byteLength before) =
      (b.closing .code 0 after).map fun rest =>
        startOf (before ++ after) (b.closer :: rest) := by
  rw [closingAt, drop_bytes, Bracket.closingByte_bytes]
  cases h : b.closing .code 0 after with
  | none => rfl
  | some rest =>
    obtain ⟨inner, rfl⟩ := closing_split h
    rw [Option.map_some, Option.map_some, Option.map_some, startOf_append, ← List.append_assoc,
      startOf_append, byteLength_append]

end MachineFacts
