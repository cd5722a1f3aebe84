import MachineFacts.Delimiter

/-! What the scan for a closing brace passes over: comments, strings and balanced text leave its
depth as it was. -/

namespace MachineFacts

theorem Bracket.step_inside {b : Bracket} {mode next : Mode} {depth after : Nat} {c : Char}
    (h : b.step mode (depth + 1) c = .inside next after) :
    next = mode.next c ∧ ∃ d, after = d + 1 := by
  simp only [Bracket.step] at h
  split at h
  · next ho =>
    cases h
    rw [ho.1, ho.2]
    exact ⟨by cases b <;> rfl, depth + 1, rfl⟩
  · split at h
    · next ho =>
      cases depth with
      | zero => cases h
      | succ d =>
        cases h
        rw [ho.1, ho.2]
        exact ⟨by cases b <;> rfl, d, rfl⟩
    · cases h
      exact ⟨rfl, depth, rfl⟩

theorem Bracket.step_ne_stray (b : Bracket) (mode : Mode) (depth : Nat) (c : Char) :
    b.step mode (depth + 1) c ≠ .stray := by
  simp only [Bracket.step]
  split
  · simp
  · split
    · cases depth <;> simp
    · simp

/-- A block that is still open at the end of a text goes on in the mode of its end. -/
theorem Bracket.closing_of_open {b : Bracket} {mode : Mode} {depth : Nat} {x : Text}
    (h : b.closing mode (depth + 1) x = none) :
    ∃ d, ∀ y, b.closing mode (depth + 1) (x ++ y) = b.closing (mode.after x) (d + 1) y := by
  induction x generalizing mode depth with
  | nil => exact ⟨depth, fun y => rfl⟩
  | cons c x ih =>
    simp only [Bracket.closing, List.cons_append] at h ⊢
    cases hs : b.step mode (depth + 1) c with
    | inside next after =>
      obtain ⟨rfl, d, rfl⟩ := Bracket.step_inside hs
      simp only [hs] at h
      exact ih h
    | closed => simp [hs] at h
    | stray => exact absurd hs (b.step_ne_stray mode depth c)

theorem Bracket.closing_comment (b : Bracket) (depth : Nat) {w : Text} (hw : '\n' ∉ w)
    (t : Text) : b.closing .comment depth (w ++ '\n' :: t) = b.closing .code depth t := by
  induction w with
  | nil => simp [Bracket.closing, Bracket.step, Mode.next]
  | cons c w ih =>
    have hc : c ≠ '\n' := fun h => hw (h ▸ List.mem_cons_self)
    have hrest := ih fun h => hw (List.mem_cons_of_mem c h)
    simp [Bracket.closing, Bracket.step, Mode.next, hc, hrest]

def commentLine (w : Text) : Text := '#' :: (w ++ ['\n'])

theorem Bracket.closing_commentLine (b : Bracket) (depth : Nat) {w : Text} (hw : '\n' ∉ w)
    (t : Text) : b.closing .code depth (commentLine w ++ t) = b.closing .code depth t := by
  have ho : ¬ '#' = b.opener := by cases b <;> decide
  have hc : ¬ '#' = b.closer := by cases b <;> decide
  simpa [commentLine, Bracket.closing, Bracket.step, Mode.next, ho, hc] using
    b.closing_comment depth hw t

/-- The inside of a string: a backslash takes the character behind it with it. -/
inductive Literal : Text → Prop where
  | nil : Literal []
  | plain {c : Char} {t : Text} : c ≠ '"' → c ≠ '\\' → Literal t → Literal (c :: t)
  | escaped {c : Char} {t : Text} : Literal t → Literal ('\\' :: c :: t)

theorem literal_of_forall {t : Text} (h : ∀ c ∈ t, c ≠ '"' ∧ c ≠ '\\') : Literal t := by
  induction t with
  | nil => exact .nil
  | cons c t ih =>
    obtain ⟨hq, hb⟩ := h c List.mem_cons_self
    exact .plain hq hb (ih fun d hd => h d (List.mem_cons_of_mem c hd))

theorem Bracket.closing_literal (b : Bracket) (depth : Nat) {s : Text} (hs : Literal s)
    (t : Text) : b.closing .quoted depth (s ++ '"' :: t) = b.closing .code depth t := by
  induction hs with
  | nil => simp [Bracket.closing, Bracket.step, Mode.next]
  | plain hq hb _ ih => simp [Bracket.closing, Bracket.step, Mode.next, hq, hb, ih]
  | escaped _ ih => simp [Bracket.closing, Bracket.step, Mode.next, ih]

/-- Texts that close every brace they open, outside strings and comments, and no other. -/
inductive Balanced : Text → Prop where
  | nil : Balanced []
  | plain {c : Char} {t : Text} : c ∉ ['"', '#', '{', '}'] → Balanced t → Balanced (c :: t)
  | quoted {s t : Text} : Literal s → Balanced t → Balanced ('"' :: (s ++ '"' :: t))
  | comment {w t : Text} : '\n' ∉ w → Balanced t → Balanced ('#' :: (w ++ '\n' :: t))
  | nested {s t : Text} : Balanced s → Balanced t → Balanced ('{' :: (s ++ '}' :: t))

theorem Balanced.append {s t : Text} (hs : Balanced s) (ht : Balanced t) : Balanced (s ++ t) := by
  induction hs with
  | nil => exact ht
  | plain hc _ ih => exact .plain hc ih
  | @quoted s u hl _ ih => simpa using Balanced.quoted hl ih
  | @comment w u hw _ ih => simpa using Balanced.comment hw ih
  | @nested s u hs _ _ ih => simpa using Balanced.nested hs ih

theorem balanced_of_forall {t : Text} (h : ∀ c ∈ t, c ∉ ['"', '#', '{', '}']) : Balanced t := by
  induction t with
  | nil => exact .nil
  | cons c t ih =>
    exact .plain (h c List.mem_cons_self) (ih fun d hd => h d (List.mem_cons_of_mem c hd))

theorem balanced_string {s : Text} (hs : Literal s) : Balanced ('"' :: (s ++ ['"'])) :=
  .quoted hs .nil

theorem balanced_flatMap {α : Type} {f : α → Text} {as : List α} (h : ∀ a ∈ as, Balanced (f a)) :
    Balanced (as.flatMap f) := by
  induction as with
  | nil => exact .nil
  | cons a as ih =>
    rw [List.flatMap_cons]
    exact (h a List.mem_cons_self).append (ih fun b hb => h b (List.mem_cons_of_mem a hb))

/-- The scan for the brace that closes a block passes over balanced text. -/
theorem closing_balanced {s : Text} (hs : Balanced s) (depth : Nat) (t : Text) :
    Bracket.brace.closing .code (depth + 1) (s ++ t) =
      Bracket.brace.closing .code (depth + 1) t := by
  induction hs generalizing depth t with
  | nil => rfl
  | plain hc _ ih =>
    simp only [List.mem_cons, List.not_mem_nil, not_or, or_false] at hc
    simp [Bracket.closing, Bracket.step, Bracket.opener, Bracket.closer, Mode.next, hc, ih]
  | quoted hl _ ih =>
    simp [Bracket.closing, Bracket.step, Bracket.opener, Bracket.closer, Mode.next,
      Bracket.closing_literal, hl, ih]
  | comment hw _ ih =>
    simp [Bracket.closing, Bracket.step, Bracket.opener, Bracket.closer, Mode.next,
      Bracket.closing_comment, hw, ih]
  | nested _ _ ihs iht =>
    simp [Bracket.closing, Bracket.step, Bracket.opener, Bracket.closer, ihs, iht]

theorem closeBlock_balanced {s : Text} (hs : Balanced s) (t : Text) :
    closeBlock (s ++ '}' :: t) = some (s, t) := by
  have hclose : Bracket.brace.closing .code 1 (s ++ '}' :: t) = some t := by
    rw [closing_balanced hs 0]
    rfl
  rw [closeBlock, hclose, Option.map_some]
  exact congrArg (fun a => some (a, t)) (front_append s ['}'] t)

end MachineFacts
