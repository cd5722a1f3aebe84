import Mathlib.Data.List.Chain
import Mathlib.Data.PFun
import MachineFacts.Proofs.Offset

/-! Scans that take slices of texts and loop. A loop takes one turn after another until one is
done, and may go on for ever; what it went through and what it took is kept beside its result. -/

namespace MachineFacts

/-- A result with the slices that were taken on the way to it, or nothing where a loop never
ends. -/
def Scan (α : Type) : Type := Part (List Slice × α)

instance {α : Type} : Membership (List Slice × α) (Scan α) :=
  inferInstanceAs (Membership (List Slice × α) (Part (List Slice × α)))

instance : Monad Scan where
  pure a := Part.some ([], a)
  bind x next := Part.bind x fun r => Part.map (fun s => (r.1 ++ s.1, s.2)) (next r.2)

def Scan.slice (t : Text) (start stop : Nat) : Scan (Option Text) :=
  Part.some ([⟨t, start, stop⟩], Slice.content ⟨t, start, stop⟩)

inductive Turn (σ α : Type) where
  | again (next : σ)
  | done (result : α)

structure Trail (σ α : Type) where
  /-- The states in which the turns began. -/
  visited : List σ
  slices : List Slice
  result : α

def Trail.turned {σ α : Type} (trail : Trail σ σ) (slices : List Slice) :
    Turn σ α → Trail σ α ⊕ Trail σ σ
  | .done a => .inl ⟨trail.visited ++ [trail.result], trail.slices ++ slices, a⟩
  | .again next => .inr ⟨trail.visited ++ [trail.result], trail.slices ++ slices, next⟩

def Scan.trail {σ α : Type} (turn : σ → Scan (Turn σ α)) : Trail σ σ →. Trail σ α :=
  PFun.fix fun trail => Part.map (fun r => trail.turned r.1 r.2) (turn trail.result)

def Scan.loop {σ α : Type} (turn : σ → Scan (Turn σ α)) (s : σ) : Scan α :=
  Part.map (fun trail => (trail.slices, trail.result)) (Scan.trail turn ⟨[], [], s⟩)

/-- The scan ends with this result, and if `sure`, all its slices are sound. -/
def Scan.Ends {α : Type} (x : Scan α) (sure : Prop) (a : α) : Prop :=
  ∃ slices, (slices, a) ∈ x ∧ (sure → ∀ s ∈ slices, s.Sound)

section

variable {α β σ : Type} {sure : Prop}

theorem Scan.ends_pure (a : α) : (pure a : Scan α).Ends sure a :=
  ⟨[], Part.mem_some _, by simp⟩

theorem Scan.Ends.bind {x : Scan α} {a : α} {next : α → Scan β} {b : β} (hx : x.Ends sure a)
    (hnext : (next a).Ends sure b) : (x >>= next).Ends sure b := by
  obtain ⟨slices, hmem, hsound⟩ := hx
  obtain ⟨more, hmore, hmoreSound⟩ := hnext
  refine ⟨slices ++ more, Part.mem_bind hmem (Part.mem_map _ hmore), fun hsure s hs => ?_⟩
  rcases List.mem_append.mp hs with hs | hs
  · exact hsound hsure s hs
  · exact hmoreSound hsure s hs

theorem Scan.ends_slice {t : Text} {start stop : Nat} {inner : Text}
    (h : Slice.content ⟨t, start, stop⟩ = some inner) :
    (Scan.slice t start stop).Ends sure (some inner) := by
  refine ⟨[⟨t, start, stop⟩], ?_, fun _ s hs => ?_⟩
  · rw [← h]
    exact Part.mem_some _
  · rw [List.mem_singleton.mp hs]
    exact Slice.sound_iff.mpr ⟨inner, h⟩

theorem Scan.ends_slice_of_not {t : Text} {start stop : Nat} (hsure : ¬ sure) :
    (Scan.slice t start stop).Ends sure (Slice.content ⟨t, start, stop⟩) :=
  ⟨_, Part.mem_some _, fun h => absurd h hsure⟩

/-- From `s` on, behind any trail that led to it, the turns end with this result, and each leads
to a state further on. -/
def Scan.Winds (turn : σ → Scan (Turn σ α)) (further : σ → σ → Prop) (sure : Prop) (s : σ)
    (a : α) : Prop :=
  ∃ visited slices, visited.head? = some s ∧ visited.IsChain further ∧
    (sure → ∀ x ∈ slices, Slice.Sound x) ∧
    ∀ before taken, ⟨before ++ visited, taken ++ slices, a⟩ ∈ Scan.trail turn ⟨before, taken, s⟩

variable {turn : σ → Scan (Turn σ α)} {further : σ → σ → Prop} {s next : σ} {a : α}

theorem Scan.Ends.winds_done (h : (turn s).Ends sure (.done a)) :
    Scan.Winds turn further sure s a := by
  obtain ⟨slices, hturn, hsound⟩ := h
  refine ⟨[s], slices, rfl, List.isChain_singleton s, hsound, fun before taken => ?_⟩
  exact PFun.fix_stop (Part.mem_map _ hturn)

theorem Scan.Ends.winds_again (h : (turn s).Ends sure (.again next)) (hnext : further s next)
    (hrest : Scan.Winds turn further sure next a) : Scan.Winds turn further sure s a := by
  obtain ⟨slices, hturn, hsound⟩ := h
  obtain ⟨visited, more, hhead, hchain, hmore, htrail⟩ := hrest
  refine ⟨s :: visited, slices ++ more, rfl, ?_, fun hsure x hx => ?_, fun before taken => ?_⟩
  · refine List.isChain_cons.mpr ⟨fun y hy => ?_, hchain⟩
    rw [hhead] at hy
    cases hy
    exact hnext
  · rcases List.mem_append.mp hx with hx | hx
    · exact hsound hsure x hx
    · exact hmore hsure x hx
  · -- the other turns come behind a trail that is longer by this one
    have hlater := htrail (before ++ [s]) (taken ++ slices)
    rw [List.append_assoc, List.append_assoc] at hlater
    exact PFun.mem_fix_iff.mpr (.inr ⟨_, Part.mem_map _ hturn, hlater⟩)

theorem Scan.Winds.ends (h : Scan.Winds turn further sure s a) :
    (Scan.loop turn s).Ends sure a := by
  obtain ⟨visited, slices, -, -, hsound, htrail⟩ := h
  exact ⟨slices, Part.mem_map _ (htrail [] []), hsound⟩

end

theorem length_le_of_isChain {σ : Type} {μ : σ → Nat} {s : σ} {visited : List σ}
    (hhead : visited.head? = some s) (h : visited.IsChain fun u v => μ v < μ u) :
    visited.length ≤ μ s + 1 := by
  induction visited generalizing s with
  | nil => cases hhead
  | cons u rest ih =>
    cases hhead
    cases rest with
    | nil => simp
    | cons v rest =>
      obtain ⟨hlt, hrest⟩ := List.isChain_cons_cons.mp h
      have hle := ih rfl hrest
      simp only [List.length_cons] at hle ⊢
      omega

end MachineFacts
