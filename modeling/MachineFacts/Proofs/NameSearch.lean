import MachineFacts.Proofs.Slicing

/-! The search for a name from a place on. A turn that goes on passes over just one occurrence,
which continues a longer path, so the first place at which the name may stand is the same before
and behind the turn. -/

namespace MachineFacts

def nameAlphabet : Text :=
  "ABCDEFGHIJKLMNOPQRSTUVWXYZabcdefghijklmnopqrstuvwxyz0123456789_-.\x27"

def OccursAt (needle t : Text) (place : Nat) : Prop :=
  Slice.content ⟨t, place, place + byteLength needle⟩ = some needle

/-- The text starts at this place, or the character in front of it continues no path. -/
def OpensAt (t : Text) (place : Nat) : Prop :=
  place = 0 ∨ ∃ before c, Slice.content ⟨t, 0, place⟩ = some (before ++ [c]) ∧ c ∉ nameAlphabet

/-- The place at which the search from `start` on finds the name. Whether the name may stand at
`start` itself depends on the character in front of it. -/
def nameFrom (name t : Text) (start : Nat) : Option Nat := do
  let before ← Slice.content ⟨t, 0, start⟩
  let window ← Slice.content ⟨t, start, byteLength t⟩
  let rest ← findName name (endsName before) window
  return startOf t (name ++ rest)

theorem mem_nameAlphabet_iff {c : Char} : c ∈ nameAlphabet ↔ isNameChar c = true := by
  constructor
  · have hall : ∀ c ∈ nameAlphabet, isNameChar c = true := by decide +kernel
    exact hall c
  · have hsmall : ∀ n < 123, isNameChar (Char.ofNat n) = true → Char.ofNat n ∈ nameAlphabet := by
      decide +kernel
    exact of_isNameChar (p := fun c => c ∈ nameAlphabet) hsmall

section

variable {name t before window : Text}

theorem content_before (ht : t = before ++ window) :
    Slice.content ⟨t, 0, byteLength before⟩ = some before :=
  Slice.content_eq_some_iff.mpr ⟨[], window, ht, rfl, Nat.zero_add _⟩

theorem content_behind (ht : t = before ++ window) :
    Slice.content ⟨t, byteLength before, byteLength t⟩ = some window := by
  refine Slice.content_eq_some_iff.mpr ⟨before, [], by simp [ht], rfl, ?_⟩
  rw [ht, byteLength_append]

theorem occursAt_iff {place : Nat} :
    OccursAt name t place ↔
      ∃ before rest, t = before ++ (name ++ rest) ∧ byteLength before = place := by
  rw [OccursAt, Slice.content_eq_some_iff]
  simp only [and_true]

theorem opensAt_iff (ht : t = before ++ window) :
    OpensAt t (byteLength before) ↔ endsName before = true := by
  rw [OpensAt, content_before ht]
  rcases List.eq_nil_or_concat' before with rfl | ⟨front, c, rfl⟩
  · simp [endsName]
  · have hpos := byteLength_pos (t := front ++ [c]) (by simp)
    rw [endsName_concat_char, Bool.not_eq_true', ← Bool.not_eq_true, ← mem_nameAlphabet_iff]
    constructor
    · rintro (hzero | ⟨other, d, hd, hfree⟩)
      · omega
      · obtain ⟨rfl, hcd⟩ := List.append_inj' (Option.some.inj hd) rfl
        cases hcd
        exact hfree
    · intro hfree
      exact .inr ⟨front, c, rfl, hfree⟩

theorem standsAt_iff {place : Nat} :
    StandsAt name t place ↔ OccursAt name t place ∧ OpensAt t place := by
  constructor
  · rintro ⟨before, rest, rfl, hends, ht⟩
    exact ⟨occursAt_iff.mpr ⟨before, rest, ht, rfl⟩, (opensAt_iff ht).mpr hends⟩
  · rintro ⟨hoccurs, hopens⟩
    obtain ⟨before, rest, ht, rfl⟩ := occursAt_iff.mp hoccurs
    exact ⟨before, rest, rfl, (opensAt_iff ht).mp hopens, ht⟩

theorem nameFrom_append (ht : t = before ++ window) :
    nameFrom name t (byteLength before) =
      (findName name (endsName before) window).map fun rest => startOf t (name ++ rest) := by
  rw [nameFrom, content_before ht, content_behind ht]
  exact Option.map_eq_bind.symm

theorem nameFrom_firstStanding (hn : StartsNarrow name) {start : Nat}
    (hstart : IsBoundary t start) : FirstStanding name t start (nameFrom name t start) := by
  obtain ⟨before, window, ht, rfl⟩ := hstart
  rw [nameFrom_append ht]
  exact findName_firstStanding hn ht

theorem exists_of_occursAt (ht : t = before ++ window) {place : Nat}
    (hle : byteLength before ≤ place) (h : OccursAt name t place) :
    ∃ skipped rest, window = skipped ++ (name ++ rest) ∧
      place = byteLength before + byteLength skipped := by
  obtain ⟨front, rest, hsplit, rfl⟩ := occursAt_iff.mp h
  obtain ⟨skipped, rfl, hwindow⟩ := exists_middle (ht.symm.trans hsplit) hle
  exact ⟨skipped, rest, hwindow, byteLength_append before skipped⟩

theorem not_occursAt_of_behind (ht : t = before ++ window) (hb : behind name window = none)
    {place : Nat} (hle : byteLength before ≤ place) : ¬ OccursAt name t place := by
  intro h
  obtain ⟨skipped, rest, rfl, -⟩ := exists_of_occursAt ht hle h
  have hoccurs : occurs name (skipped ++ (name ++ rest)) = true :=
    occurs_iff.mpr ⟨skipped, rest, by simp⟩
  rw [occurs, hb] at hoccurs
  cases hoccurs

theorem isLeast_of_behind {rest : Text} (ht : t = before ++ window)
    (hb : behind name window = some rest) :
    ∃ skipped, window = skipped ++ (name ++ rest) ∧
      IsLeast {k | byteLength before ≤ k ∧ OccursAt name t k} (byteLength (before ++ skipped)) := by
  obtain ⟨skipped, hwindow, hshortest⟩ := behind_first hb
  have hsplit : t = (before ++ skipped) ++ (name ++ rest) := by
    rw [ht, hwindow, List.append_assoc]
  refine ⟨skipped, hwindow, ⟨?_, occursAt_iff.mpr ⟨_, rest, hsplit, rfl⟩⟩, ?_⟩
  · rw [byteLength_append]
    omega
  · rintro k ⟨hle, hk⟩
    obtain ⟨other, more, hother, rfl⟩ := exists_of_occursAt ht hle hk
    have hlen := hshortest other more hother
    obtain ⟨between, rfl⟩ : skipped <+: other :=
      List.prefix_of_prefix_length_le ⟨_, hwindow.symm⟩ ⟨_, hother.symm⟩ hlen
    rw [byteLength_append, byteLength_append]
    omega

end

/-- The first occurrence from the cursor on continues a longer path, and the next turn begins one
byte behind its start. -/
def PassesOver (name t : Text) (cursor next : Nat) : Prop :=
  ∃ k, IsLeast {k | cursor ≤ k ∧ OccursAt name t k} k ∧ ¬ OpensAt t k ∧ next = k + 1

section

variable {name t : Text} {cursor next : Nat}

theorem PassesOver.lt (h : PassesOver name t cursor next) : cursor < next := by
  obtain ⟨k, ⟨⟨hle, -⟩, -⟩, -, rfl⟩ := h
  omega

theorem PassesOver.standing_iff (h : PassesOver name t cursor next) (place : Nat) :
    next ≤ place ∧ StandsAt name t place ↔ cursor ≤ place ∧ StandsAt name t place := by
  have hlt := h.lt
  obtain ⟨k, ⟨-, hfirst⟩, hclosed, rfl⟩ := h
  constructor
  · rintro ⟨hle, hstands⟩
    exact ⟨by omega, hstands⟩
  · rintro ⟨hle, hstands⟩
    obtain ⟨hoccurs, hopens⟩ := standsAt_iff.mp hstands
    have hk : k ≤ place := hfirst ⟨hle, hoccurs⟩
    have hne : k ≠ place := by
      rintro rfl
      exact hclosed hopens
    exact ⟨by omega, hstands⟩

theorem PassesOver.firstStanding (h : PassesOver name t cursor next) {place : Option Nat}
    (hp : FirstStanding name t cursor place) : FirstStanding name t next place where
  found := by
    intro k
    rw [hp.found]
    simp only [h.standing_iff]
  missing := by
    rw [hp.missing]
    refine forall_congr' fun k => ?_
    rw [← not_and, ← not_and, h.standing_iff]

theorem findNameTurn_cases (hn : StartsNarrow name) (hcursor : IsBoundary t cursor)
    (sure : Prop) :
    ((∀ k, cursor ≤ k → ¬ OccursAt name t k) ∧
      (findNameTurn t name cursor).Ends sure (.done none)) ∨
    ∃ k, IsLeast {k | cursor ≤ k ∧ OccursAt name t k} k ∧
      (OpensAt t k ∧ (findNameTurn t name cursor).Ends sure (.done (some k)) ∨
        ¬ OpensAt t k ∧ IsBoundary t (k + 1) ∧
          (findNameTurn t name cursor).Ends sure (.again (k + 1))) := by
  obtain ⟨before, window, ht, rfl⟩ := hcursor
  cases hb : behind name window with
  | none =>
    refine .inl ⟨fun k => not_occursAt_of_behind ht hb, (ends_slice_behind ht rfl).bind ?_⟩
    dsimp only
    rw [offsetOf, hb]
    exact Scan.ends_pure _
  | some rest =>
    obtain ⟨skipped, rfl, hleast⟩ := isLeast_of_behind ht hb
    have hsplit : t = (before ++ skipped) ++ (name ++ rest) := by rw [ht, List.append_assoc]
    have hturn : (findNameTurn t name (byteLength before)).Ends sure _ := ends_findNameTurn ht hb
    refine .inr ⟨_, hleast, ?_⟩
    rw [opensAt_iff hsplit]
    by_cases hopens : endsName (before ++ skipped) = true
    · rw [if_pos hopens] at hturn
      exact .inl ⟨hopens, hturn⟩
    · rw [if_neg hopens] at hturn
      obtain ⟨c, more, rfl, hc⟩ := hn
      have hnext : t = (before ++ skipped ++ [c]) ++ (more ++ rest) := by simp [hsplit]
      exact .inr ⟨hopens, ⟨_, _, hnext, byteLength_concat hc _⟩, hturn⟩

theorem winds_passesOver (hn : StartsNarrow name) {start : Nat} {place : Option Nat}
    (hstart : IsBoundary t start) (hp : FirstStanding name t start place) :
    Scan.Winds (findNameTurn t name) (PassesOver name t) True start place := by
  -- on the bytes behind the cursor; `hp` stays true of the same place from turn to turn
  induction hleft : byteLength t - start using Nat.strongRecOn generalizing start with
  | _ n ih =>
    rcases findNameTurn_cases hn hstart True with
      ⟨hnone, hturn⟩ | ⟨k, hleast, ⟨hopens, hturn⟩ | ⟨hclosed, hnext, hturn⟩⟩
    · have hplace : place = none :=
        hp.missing.mpr fun k hle hk => hnone k hle (standsAt_iff.mp hk).1
      rw [hplace]
      exact hturn.winds_done
    · have hplace : place = some k := by
        refine (hp.found k).mpr ⟨⟨hleast.1.1, standsAt_iff.mpr ⟨hleast.1.2, hopens⟩⟩, ?_⟩
        rintro other ⟨hle, hother⟩
        exact hleast.2 ⟨hle, (standsAt_iff.mp hother).1⟩
      rw [hplace]
      exact hturn.winds_done
    · have hpass : PassesOver name t start (k + 1) := ⟨k, hleast, hclosed, rfl⟩
      have hlt := hpass.lt
      have hle := hnext.le
      exact hturn.winds_again hpass (ih _ (by omega) hnext (hpass.firstStanding hp) rfl)

end

/-- From a place between two characters the search comes to the smallest place from there on at
which the name occurs and continues no longer path, and to nothing only where there is none. The
loop with a cursor comes to the same, and each turn but its last passes over one occurrence. -/
theorem nameFrom_leftmost {name t : Text} {start : Nat} (hn : StartsNarrow name)
    (hstart : IsBoundary t start) :
    (∀ place, nameFrom name t start = some place ↔
      IsLeast {k | start ≤ k ∧ OccursAt name t k ∧ OpensAt t k} place) ∧
    (nameFrom name t start = none ↔ ¬ ∃ k, start ≤ k ∧ OccursAt name t k ∧ OpensAt t k) ∧
    Scan.Winds (findNameTurn t name) (PassesOver name t) True start (nameFrom name t start) := by
  have hfirst := nameFrom_firstStanding hn hstart
  refine ⟨fun place => ?_, ?_, winds_passesOver hn hstart hfirst⟩
  · rw [hfirst.found]
    simp only [standsAt_iff]
  · rw [hfirst.missing, not_exists]
    simp only [standsAt_iff, not_and]

/-- The search starts inside a longer path and passes over two occurrences that overlap. -/
theorem nameFrom_leftmost_overlapping :
    StartsNarrow "a.a" ∧ IsBoundary "ä a.a.a.a;a.a" 5 ∧
    IsLeast {k | 5 ≤ k ∧ OccursAt "a.a" "ä a.a.a.a;a.a" k ∧ OpensAt "ä a.a.a.a;a.a" k} 11 := by
  have hn : StartsNarrow "a.a" := ⟨'a', ".a".toList, rfl, rfl⟩
  have hstart : IsBoundary "ä a.a.a.a;a.a" 5 := ⟨"ä a.", "a.a.a;a.a", rfl, rfl⟩
  have hplace : nameFrom "a.a" "ä a.a.a.a;a.a" 5 = some 11 := by decide +kernel
  exact ⟨hn, hstart, ((nameFrom_leftmost hn hstart).1 11).mp hplace⟩

end MachineFacts
