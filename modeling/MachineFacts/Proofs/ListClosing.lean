import MachineFacts.Proofs.Cursor
import MachineFacts.Proofs.Pieces

/-! The end of a list by its quotes and by its depth. Where no string has a backslash and each hash
sign and opening bracket lies in a string, the depth stays one and no comment starts, so the scan of
quotes and the scan of depth go through the same texts side by side. -/

namespace MachineFacts

/-- The mode of a scan for a bracket while a scan of quotes is inside or outside them. -/
def Mode.ofQuoted (quoted : Bool) : Mode := if quoted then .quoted else .code

/-- No backslash, and each hash sign and each opening bracket lies in a string; `quoted` says
whether the text starts in one. -/
structure PlainItems (quoted : Bool) (t : Text) : Prop where
  unescaped : '\\' ∉ t
  inString : ∀ before c after, t = before ++ c :: after → c = '#' ∨ c = '[' →
    quotedAfter quoted before = true

def toggled (quoted : Bool) (c : Char) : Bool := if c = '"' then !quoted else quoted

theorem PlainItems.tail {quoted : Bool} {c : Char} {t : Text} (h : PlainItems quoted (c :: t)) :
    PlainItems (toggled quoted c) t where
  unescaped := fun hmem => h.unescaped (List.mem_cons_of_mem c hmem)
  inString := fun before d after ht hd => h.inString (c :: before) d after (by rw [ht]; rfl) hd

/-- One character does the same to both scans. -/
theorem PlainItems.step {quoted : Bool} {c : Char} {t : Text} (h : PlainItems quoted (c :: t)) :
    Bracket.square.step (.ofQuoted quoted) 1 c =
      if c = ']' ∧ quoted = false then .closed
      else .inside (.ofQuoted (toggled quoted c)) 1 := by
  cases quoted with
  | true =>
    have hslash : c ≠ '\\' := fun hc => h.unescaped (hc ▸ List.mem_cons_self)
    by_cases hc : c = '"' <;>
      simp [Bracket.step, Mode.ofQuoted, Mode.next, toggled, hc, hslash]
  | false =>
    have hspecial : ¬ (c = '#' ∨ c = '[') := fun hc =>
      Bool.false_ne_true (h.inString [] c t rfl hc)
    obtain ⟨hhash, hopener⟩ := not_or.mp hspecial
    by_cases hend : c = ']'
    · subst hend
      rfl
    · by_cases hc : c = '"' <;>
        simp [Bracket.step, Bracket.opener, Bracket.closer, Mode.ofQuoted, Mode.next, toggled, hc,
          hend, hhash, hopener]

theorem PlainItems.closing_eq_listEnd {quoted : Bool} {t : Text} (h : PlainItems quoted t) :
    Bracket.square.closing (.ofQuoted quoted) 1 t = listEnd quoted t := by
  induction t generalizing quoted with
  | nil => rfl
  | cons c t ih =>
    have hrest := ih h.tail
    rw [Bracket.closing, h.step, listEnd]
    by_cases hend : c = ']' ∧ quoted = false
    · have hquote : c ≠ '"' := by
        rw [hend.1]
        decide
      rw [if_pos hend, if_neg hquote, if_pos hend]
    · rw [if_neg hend, if_neg hend]
      dsimp only
      rw [hrest, toggled]
      split <;> rfl

theorem plainItems_of_count {contents : Text} (hslash : '\\' ∉ contents)
    (hodd : ∀ before c after, contents = before ++ c :: after → c = '#' ∨ c = '[' →
      before.count '"' % 2 = 1) : PlainItems false contents where
  unescaped := hslash
  inString := fun before c after ht hc => by
    rw [quotedAfter_eq_decide, decide_eq_true_eq]
    exact hodd before c after ht hc

theorem PlainItems.closingAt_eq {contents : Text} (h : PlainItems false contents) :
    closingAt .square ('[' :: contents) 0 = (listEndAt contents).map (· + 1) := by
  have hbytes := closingAt_append .square [] ('[' :: contents)
  have hopen : Bracket.square.closing .code 0 ('[' :: contents) =
      Bracket.square.closing .code 1 contents := closing_opener .square contents
  have hsame : Bracket.square.closing .code 1 contents = listEnd false contents :=
    h.closing_eq_listEnd
  rw [byteLength_nil, List.nil_append, hopen, Bracket.closing_map_startOf_cons, hsame] at hbytes
  exact hbytes

/-- The two scans for the end of a list agree where both apply. -/
theorem listEndAt_eq_some_iff_closingAt {contents : Text} (hslash : '\\' ∉ contents)
    (hodd : ∀ before c after, contents = before ++ c :: after → c = '#' ∨ c = '[' →
      before.count '"' % 2 = 1) :
    (∀ k, listEndAt contents = some k ↔ closingAt .square ('[' :: contents) 0 = some (k + 1)) ∧
    (listEndAt contents = none ↔ closingAt .square ('[' :: contents) 0 = none) := by
  rw [(plainItems_of_count hslash hodd).closingAt_eq]
  cases listEndAt contents with
  | none => exact ⟨fun k => ⟨nofun, nofun⟩, ⟨fun _ => rfl, fun _ => rfl⟩⟩
  | some n =>
    refine ⟨fun k => ?_, ⟨nofun, nofun⟩⟩
    rw [Option.map_some, Option.some_inj, Option.some_inj]
    exact Nat.add_right_cancel_iff.symm

def bracketNames : Text := " \"ä#]\" \"[\" \"\" ]; ]"

theorem count_before_of_take {t : Text}
    (h : ∀ i < t.length, t[i]? = some '#' ∨ t[i]? = some '[' → (t.take i).count '"' % 2 = 1)
    {before after : Text} {c : Char} (ht : t = before ++ c :: after) (hc : c = '#' ∨ c = '[') :
    before.count '"' % 2 = 1 := by
  have hlt : before.length < t.length := by simp [ht]
  have hget : t[before.length]? = some c := by simp [ht]
  have htake : t.take before.length = before := by simp [ht]
  have hodd := h before.length hlt (by rwa [hget, Option.some_inj, Option.some_inj])
  rwa [htake] at hodd

theorem listEndAt_eq_some_iff_closingAt_names :
    '\\' ∉ bracketNames ∧
    (∀ before c after, bracketNames = before ++ c :: after → c = '#' ∨ c = '[' →
      before.count '"' % 2 = 1) ∧
    listEndAt bracketNames = some 15 ∧ closingAt .square ('[' :: bracketNames) 0 = some 16 := by
  have hslash : '\\' ∉ bracketNames := by decide
  have hodd : ∀ before c after, bracketNames = before ++ c :: after → c = '#' ∨ c = '[' →
      before.count '"' % 2 = 1 := fun _ _ _ => count_before_of_take (by decide)
  have hend : listEndAt bracketNames = some 15 := by decide
  refine ⟨hslash, hodd, hend, ?_⟩
  exact ((listEndAt_eq_some_iff_closingAt hslash hodd).1 15).mp hend

end MachineFacts
