import MachineFacts.Directive

/-! Places in a text by the number of bytes in front of them. A slice between two places holds a
text exactly where both lie between characters and the first is not behind the second. -/

namespace MachineFacts

/-- The place lies between two characters of the text, or at one of its ends. -/
def IsBoundary (t : Text) (n : Nat) : Prop :=
  ∃ before after, t = before ++ after ∧ byteLength before = n

theorem IsBoundary.le {t : Text} {n : Nat} (h : IsBoundary t n) : n ≤ byteLength t := by
  obtain ⟨before, after, rfl, rfl⟩ := h
  rw [byteLength_append]
  exact Nat.le_add_right _ _

theorem not_isBoundary_inside {before after : Text} {c : Char} {k : Nat} (hpos : 0 < k)
    (hlt : k < c.utf8Size) : ¬ IsBoundary (before ++ c :: after) (byteLength before + k) := by
  rintro ⟨a, b, hsplit, hlen⟩
  rcases List.append_eq_append_iff.mp hsplit with ⟨m, rfl, hm⟩ | ⟨m, rfl, hm⟩
  · cases m with
    | nil =>
      rw [List.append_nil] at hlen
      omega
    | cons d m =>
      obtain ⟨rfl, -⟩ := List.cons.inj hm
      rw [byteLength_append, byteLength_cons] at hlen
      omega
  · rw [byteLength_append] at hlen
    omega

theorem exists_middle {a b x y : Text} (h : a ++ x = b ++ y)
    (hle : byteLength a ≤ byteLength b) : ∃ m, b = a ++ m ∧ x = m ++ y := by
  rcases List.append_eq_append_iff.mp h with ⟨m, hb, hx⟩ | ⟨m, rfl, rfl⟩
  · exact ⟨m, hb, hx⟩
  · cases m with
    | nil => exact ⟨[], by simp, by simp⟩
    | cons c m =>
      have hpos := c.utf8Size_pos
      rw [byteLength_append, byteLength_cons] at hle
      omega

/-- The part of a text from one place to another. -/
structure Slice where
  text : Text
  start : Nat
  stop : Nat

def Slice.content (s : Slice) : Option Text :=
  if s.start ≤ s.stop then byteSlice s.start s.stop s.text else none

/-- Both places lie in the text, on boundaries and in order. -/
structure Slice.Sound (s : Slice) : Prop where
  ordered : s.start ≤ s.stop
  within : s.stop ≤ byteLength s.text
  start : IsBoundary s.text s.start
  stop : IsBoundary s.text s.stop

theorem byteSlice_zero (inner after : Text) :
    byteSlice 0 (byteLength inner) (inner ++ after) = some inner := by
  induction inner with
  | nil => cases after <;> rfl
  | cons c inner ih =>
    have hpos := c.utf8Size_pos
    have hne : ¬ c.utf8Size + byteLength inner = 0 := by omega
    rw [List.cons_append, byteLength_cons, byteSlice, if_neg hne, if_pos rfl,
      if_pos (Nat.le_add_right _ _), Nat.add_sub_cancel_left, ih]
    rfl

theorem byteSlice_append (before inner after : Text) :
    byteSlice (byteLength before) (byteLength before + byteLength inner)
      (before ++ (inner ++ after)) = some inner := by
  induction before with
  | nil =>
    rw [byteLength_nil, Nat.zero_add]
    exact byteSlice_zero inner after
  | cons c before ih =>
    have hpos := c.utf8Size_pos
    have hstart : ¬ c.utf8Size + byteLength before = 0 := by omega
    have hstop : ¬ c.utf8Size + (byteLength before + byteLength inner) = 0 := by omega
    rw [List.cons_append, byteLength_cons, Nat.add_assoc, byteSlice, if_neg hstop, if_neg hstart,
      if_pos (Nat.le_add_right _ _), Nat.add_sub_cancel_left, Nat.add_sub_cancel_left, ih]

theorem byteSlice_zero_split {stop : Nat} {t inner : Text} (h : byteSlice 0 stop t = some inner) :
    ∃ after, t = inner ++ after ∧ byteLength inner = stop := by
  induction t generalizing stop inner with
  | nil =>
    rw [byteSlice] at h
    split at h
    · next hzero =>
      cases h
      exact ⟨[], rfl, hzero.2.symm⟩
    · cases h
  | cons c t ih =>
    rw [byteSlice] at h
    split at h
    · next hstop =>
      cases h
      exact ⟨c :: t, rfl, hstop.symm⟩
    · rw [if_pos rfl] at h
      split at h
      · next hfits =>
        obtain ⟨more, hmore, rfl⟩ := Option.map_eq_some_iff.mp h
        obtain ⟨after, rfl, hlen⟩ := ih hmore
        refine ⟨after, rfl, ?_⟩
        rw [byteLength_cons]
        omega
      · cases h

theorem byteSlice_split {start stop : Nat} {t inner : Text} (hle : start ≤ stop)
    (h : byteSlice start stop t = some inner) :
    ∃ before after, t = before ++ (inner ++ after) ∧ byteLength before = start ∧
      start + byteLength inner = stop := by
  induction t generalizing start stop with
  | nil =>
    rw [byteSlice] at h
    split at h
    · next hzero =>
      cases h
      exact ⟨[], [], rfl, hzero.1.symm, by simp [hzero]⟩
    · cases h
  | cons c t ih =>
    by_cases hstart : start = 0
    · subst hstart
      obtain ⟨after, ht, hlen⟩ := byteSlice_zero_split h
      exact ⟨[], after, ht, rfl, by omega⟩
    · rw [byteSlice, if_neg (by omega), if_neg hstart] at h
      split at h
      · next hfits =>
        obtain ⟨before, after, rfl, hbefore, hlen⟩ := ih (by omega) h
        refine ⟨c :: before, after, rfl, ?_, by omega⟩
        rw [byteLength_cons]
        omega
      · cases h

theorem Slice.content_eq_some_iff {s : Slice} {inner : Text} :
    s.content = some inner ↔
      ∃ before after, s.text = before ++ (inner ++ after) ∧ byteLength before = s.start ∧
        s.start + byteLength inner = s.stop := by
  unfold Slice.content
  constructor
  · intro h
    split at h
    · next hle => exact byteSlice_split hle h
    · cases h
  · rintro ⟨before, after, ht, hstart, hstop⟩
    rw [if_pos (by omega), ht, ← hstop, ← hstart]
    exact byteSlice_append before inner after

/-- Taking a slice never fails where it is sound, and only there it does not. -/
theorem Slice.sound_iff {s : Slice} : s.Sound ↔ ∃ inner, s.content = some inner := by
  constructor
  · rintro ⟨hle, -, ⟨before, after, ht, hstart⟩, ⟨front, rest, ht', hstop⟩⟩
    obtain ⟨inner, rfl, rfl⟩ := exists_middle (ht.symm.trans ht') (by omega)
    refine ⟨inner, Slice.content_eq_some_iff.mpr ⟨before, rest, ht, hstart, ?_⟩⟩
    rw [byteLength_append] at hstop
    omega
  · rintro ⟨inner, h⟩
    obtain ⟨before, after, ht, hstart, hstop⟩ := Slice.content_eq_some_iff.mp h
    have hboundary : IsBoundary s.text s.stop :=
      ⟨before ++ inner, after, by rw [ht, List.append_assoc], by rw [byteLength_append]; omega⟩
    exact ⟨by omega, hboundary.le, ⟨before, inner ++ after, ht, hstart⟩, hboundary⟩

def startOf (t rest : Text) : Nat := byteLength t - byteLength rest

@[simp] theorem startOf_append (before rest : Text) :
    startOf (before ++ rest) rest = byteLength before := by
  rw [startOf, byteLength_append, Nat.add_sub_cancel]

def offsetOf (needle t : Text) : Option Nat :=
  (behind needle t).map fun rest => startOf t (needle ++ rest)

def offsetOfChar (stop : Char) (t : Text) : Option Nat :=
  (cut stop t).map fun sides => byteLength sides.1

end MachineFacts
