import MachineFacts.Proofs.Balance
import MachineFacts.Proofs.Reading

/-! The scan for the brace that closes a block, against the grammar of balanced text. It stops
behind the balanced text that follows the opening brace, and nowhere else. -/

namespace MachineFacts

theorem Bracket.closing_cons_of_ne_code (b : Bracket) {mode : Mode} (hm : mode ≠ .code)
    (depth : Nat) (c : Char) (t : Text) :
    b.closing mode depth (c :: t) = b.closing (mode.next c) depth t := by
  simp [Bracket.closing, Bracket.step, hm]

theorem comment_of_closing {b : Bracket} {depth : Nat} {t rest : Text}
    (h : b.closing .comment depth t = some rest) :
    ∃ w u, '\n' ∉ w ∧ t = w ++ '\n' :: u ∧ b.closing .code depth u = some rest := by
  induction t with
  | nil => cases h
  | cons c t ih =>
    rw [b.closing_cons_of_ne_code (by decide)] at h
    by_cases hc : c = '\n'
    · exact ⟨[], t, by simp, by rw [hc, List.nil_append], by simpa [Mode.next, hc] using h⟩
    · obtain ⟨w, u, hw, rfl, hu⟩ := ih (by simpa [Mode.next, hc] using h)
      exact ⟨c :: w, u, by simp [hw, Ne.symm hc], rfl, hu⟩

theorem literal_of_closing {b : Bracket} {depth : Nat} {t rest : Text}
    (h : b.closing .quoted depth t = some rest) :
    ∃ s u, Literal s ∧ t = s ++ '"' :: u ∧ b.closing .code depth u = some rest := by
  induction hlen : t.length using Nat.strongRecOn generalizing t with
  | _ n ih =>
    subst hlen
    cases t with
    | nil => cases h
    | cons c t =>
      rw [b.closing_cons_of_ne_code (by decide)] at h
      by_cases hb : c = '\\'
      · subst hb
        cases t with
        | nil => cases h
        | cons d t =>
          have hquoted : b.closing .quoted depth t = some rest := by
            simpa [Mode.next, b.closing_cons_of_ne_code] using h
          have hlt : t.length < ('\\' :: d :: t).length := by
            simp only [List.length_cons]
            omega
          obtain ⟨s, u, hs, rfl, hu⟩ := ih t.length hlt hquoted rfl
          exact ⟨'\\' :: d :: s, u, .escaped hs, rfl, hu⟩
      · by_cases hq : c = '"'
        · exact ⟨[], t, .nil, by rw [hq, List.nil_append], by simpa [Mode.next, hb, hq] using h⟩
        · obtain ⟨s, u, hs, rfl, hu⟩ :=
            ih t.length (by simp) (by simpa [Mode.next, hb, hq] using h) rfl
          exact ⟨c :: s, u, .plain hq hb hs, rfl, hu⟩

/-- The scan goes on behind a closing brace while `depth` blocks are open. -/
def Bracket.outside (b : Bracket) : Nat → Text → Option Text
  | 0, t => some t
  | depth + 1, t => b.closing .code (depth + 1) t

theorem closing_closer (depth : Nat) (t : Text) :
    Bracket.brace.closing .code (depth + 1) ('}' :: t) = Bracket.brace.outside depth t := by
  cases depth <;> rfl

theorem closing_plain {c : Char} (hc : c ∉ ['"', '#', '{', '}']) (depth : Nat) (t : Text) :
    Bracket.brace.closing .code depth (c :: t) = Bracket.brace.closing .code depth t := by
  simp only [List.mem_cons, List.not_mem_nil, not_or, or_false] at hc
  simp [Bracket.closing, Bracket.step, Bracket.opener, Bracket.closer, Mode.next, hc]

theorem length_behind_lt (c d : Char) (a t : Text) : t.length < (c :: (a ++ d :: t)).length := by
  simp only [List.length_cons, List.length_append]
  omega

theorem balanced_of_closing {depth : Nat} {t rest : Text}
    (h : Bracket.brace.closing .code (depth + 1) t = some rest) :
    ∃ s u, Balanced s ∧ t = s ++ '}' :: u ∧ Bracket.brace.outside depth u = some rest := by
  -- by the length of the text: a string, a comment and a nested block each leave a shorter one
  induction hlen : t.length using Nat.strongRecOn generalizing t depth with
  | _ n ih =>
    subst hlen
    cases t with
    | nil => cases h
    | cons c t =>
      by_cases hc : c ∈ ['"', '#', '{', '}']
      · simp only [List.mem_cons, List.not_mem_nil, or_false] at hc
        rcases hc with rfl | rfl | rfl | rfl
        · have hquoted : Bracket.brace.closing .quoted (depth + 1) t = some rest := h
          obtain ⟨a, t, ha, rfl, ht⟩ := literal_of_closing hquoted
          obtain ⟨s, u, hs, rfl, hu⟩ := ih t.length (length_behind_lt _ _ a t) ht rfl
          exact ⟨_, u, .quoted ha hs, by simp, hu⟩
        · have hcomment : Bracket.brace.closing .comment (depth + 1) t = some rest := h
          obtain ⟨a, t, ha, rfl, ht⟩ := comment_of_closing hcomment
          obtain ⟨s, u, hs, rfl, hu⟩ := ih t.length (length_behind_lt _ _ a t) ht rfl
          exact ⟨_, u, .comment ha hs, by simp, hu⟩
        · -- the inner block closes first, and the outer one in what follows it
          have hinner : Bracket.brace.closing .code (depth + 1 + 1) t = some rest := h
          obtain ⟨a, t, ha, rfl, ht⟩ := ih t.length (by simp) hinner rfl
          obtain ⟨s, u, hs, rfl, hu⟩ := ih t.length (length_behind_lt _ _ a t) ht rfl
          exact ⟨_, u, .nested ha hs, by simp, hu⟩
        · rw [closing_closer] at h
          exact ⟨[], t, .nil, rfl, h⟩
      · rw [closing_plain hc] at h
        obtain ⟨s, u, hs, rfl, hu⟩ := ih t.length (by simp) h rfl
        exact ⟨c :: s, u, .plain hc hs, rfl, hu⟩

theorem closing_eq_some_iff {t rest : Text} :
    Bracket.brace.closing .code 1 t = some rest ↔ ∃ s, Balanced s ∧ t = s ++ '}' :: rest := by
  constructor
  · intro h
    obtain ⟨s, u, hs, ht, hu⟩ := balanced_of_closing h
    cases hu
    exact ⟨s, hs, ht⟩
  · rintro ⟨s, hs, rfl⟩
    exact closing_balanced hs 0 ('}' :: rest)

theorem closeBlock_eq_some_iff {t inner rest : Text} :
    closeBlock t = some (inner, rest) ↔ Balanced inner ∧ t = inner ++ '}' :: rest := by
  constructor
  · intro h
    have ht := closeBlock_split h
    obtain ⟨r, hr, he⟩ := Option.map_eq_some_iff.mp h
    cases he
    obtain ⟨s, hs, he⟩ := closing_eq_some_iff.mp hr
    rw [← List.append_cancel_right (he.symm.trans ht)]
    exact ⟨hs, he⟩
  · rintro ⟨hs, rfl⟩
    exact closeBlock_balanced hs rest

instance decidableBalanced (t : Text) : Decidable (Balanced t) :=
  decidable_of_iff (closeBlock (t ++ ['}']) = some (t, []))
    (closeBlock_eq_some_iff.trans (and_iff_left rfl))

/-- The scan passes over a text, from the first mode and depth to the second. -/
inductive Bracket.Passes (b : Bracket) : Mode → Nat → Text → Mode → Nat → Prop where
  | nil {mode : Mode} {depth : Nat} : b.Passes mode depth [] mode depth
  | cons {mode next last : Mode} {depth after final : Nat} {c : Char} {x : Text} :
      b.step mode depth c = .inside next after → b.Passes next after x last final →
      b.Passes mode depth (c :: x) last final

theorem Bracket.Passes.depth_pos {b : Bracket} {mode last : Mode} {depth final : Nat} {x : Text}
    (h : b.Passes mode depth x last final) (hd : 0 < depth) : 0 < final := by
  induction h with
  | nil => exact hd
  | @cons mode _ _ depth _ _ c _ hs _ ih =>
    obtain ⟨d, rfl⟩ := Nat.exists_eq_succ_of_ne_zero hd.ne'
    obtain ⟨-, d, rfl⟩ := Bracket.step_inside hs
    exact ih d.succ_pos

theorem step_ne_stray_of_passes {t x y : Text} {c : Char} {mode : Mode} {depth : Nat}
    (ht : '{' :: t = x ++ c :: y) (h : Bracket.brace.Passes .code 0 x mode depth) :
    Bracket.brace.step mode depth c ≠ .stray := by
  cases h with
  | nil =>
    obtain ⟨rfl, -⟩ := List.cons.inj ht
    decide
  | cons hs hrest =>
    obtain ⟨rfl, -⟩ := List.cons.inj ht
    cases hs
    obtain ⟨d, rfl⟩ := Nat.exists_eq_succ_of_ne_zero (hrest.depth_pos (by decide)).ne'
    exact Bracket.step_ne_stray _ _ _ _

/-- From an opening brace the scan stops behind the balanced text that follows it and the brace
that closes it. There is at most one such place, it does not depend on the text behind it, and
none is missed. No closing brace is ever met with nothing open. -/
theorem closing_brace_iff_balanced (t : Text) :
    (∀ rest, Bracket.brace.closing .code 0 ('{' :: t) = some rest ↔
      ∃ s, Balanced s ∧ t = s ++ '}' :: rest) ∧
    (∀ s rest u other, Balanced s → t = s ++ '}' :: rest → Balanced u → t = u ++ '}' :: other →
      s = u ∧ rest = other) ∧
    (∀ rest y, Bracket.brace.closing .code 0 ('{' :: t) = some rest →
      Bracket.brace.closing .code 0 ('{' :: (t ++ y)) = some (rest ++ y)) ∧
    (Bracket.brace.closing .code 0 ('{' :: t) = none ↔
      ∀ s rest, Balanced s → t ≠ s ++ '}' :: rest) ∧
    ∀ x c y mode depth, '{' :: t = x ++ c :: y → Bracket.brace.Passes .code 0 x mode depth →
      Bracket.brace.step mode depth c ≠ .stray := by
  have hopen : ∀ u, Bracket.brace.closing .code 0 ('{' :: u) = Bracket.brace.closing .code 1 u :=
    fun _ => rfl
  simp only [hopen]
  refine ⟨fun _ => closing_eq_some_iff, ?_, fun _ y h => Bracket.closing_append h y, ?_,
    fun _ _ _ _ _ ht h => step_ne_stray_of_passes ht h⟩
  · intro s rest u other hs hsplit hu hother
    have hfirst := closeBlock_eq_some_iff.mpr ⟨hs, hsplit⟩
    have hsecond := closeBlock_eq_some_iff.mpr ⟨hu, hother⟩
    exact Prod.mk.inj (Option.some.inj (hfirst.symm.trans hsecond))
  · rw [Option.eq_none_iff_forall_not_mem]
    refine ⟨fun h s rest hs ht => h rest (closing_eq_some_iff.mpr ⟨s, hs, ht⟩), ?_⟩
    intro h rest hrest
    obtain ⟨s, hs, ht⟩ := closing_eq_some_iff.mp hrest
    exact h s rest hs ht

end MachineFacts
