import Mathlib.Algebra.GroupWithZero.Nat
import Mathlib.Logic.Relation

/-! Work on many inputs side by side. Tasks begin and end in any order; the first failure that is
met is kept, and a task that has not begun by then may be dropped. -/

namespace MachineFacts

inductive Stand (β : Type) where
  | waiting
  | running
  | done (value : β)
  | failed
  | dropped

def Stand.value? {β : Type} : Stand β → Option β
  | .done b => some b
  | _ => none

def Stand.moves {β : Type} : Stand β → Nat
  | .waiting => 2
  | .running => 1
  | _ => 0

structure Workload (α β ε : Type) where
  tasks : List (α × Stand β)
  failure : Option ε

section

variable {α β ε : Type}

def Workload.ofInputs (as : List α) : Workload α β ε := ⟨as.map fun a => (a, .waiting), none⟩

/-- What may happen next, where the task for an input is to do `work` on it. -/
inductive Workload.Step (work : α → Except ε β) : Workload α β ε → Workload α β ε → Prop where
  | start {before after : List (α × Stand β)} {a : α} {failure : Option ε} :
      Step work ⟨before ++ (a, .waiting) :: after, failure⟩
        ⟨before ++ (a, .running) :: after, failure⟩
  | finish {before after : List (α × Stand β)} {a : α} {b : β} {failure : Option ε} :
      work a = .ok b →
      Step work ⟨before ++ (a, .running) :: after, failure⟩
        ⟨before ++ (a, .done b) :: after, failure⟩
  | fail {before after : List (α × Stand β)} {a : α} {e : ε} {failure : Option ε} :
      work a = .error e →
      Step work ⟨before ++ (a, .running) :: after, failure⟩
        ⟨before ++ (a, .failed) :: after, failure.or (some e)⟩
  | drop {before after : List (α × Stand β)} {a : α} {e : ε} :
      Step work ⟨before ++ (a, .waiting) :: after, some e⟩
        ⟨before ++ (a, .dropped) :: after, some e⟩

abbrev Workload.Steps (work : α → Except ε β) : Workload α β ε → Workload α β ε → Prop :=
  Relation.ReflTransGen (Workload.Step work)

def Workload.Ended (w : Workload α β ε) : Prop := ∀ t ∈ w.tasks, t.2.moves = 0

def Workload.outcome (w : Workload α β ε) : Except ε (List β) :=
  match w.failure with
  | some e => .error e
  | none => .ok (w.tasks.filterMap fun t => t.2.value?)

structure Schedule (work : α → Except ε β) (as : List α) (w : Workload α β ε) : Prop where
  steps : Workload.Steps work (.ofInputs as) w
  ended : w.Ended

/-- What a task says about its input, and about the whole if it came to nothing. -/
def Accounts (work : α → Except ε β) (failure : Option ε) : α × Stand β → Prop
  | (a, .done b) => work a = .ok b
  | (_, .failed) | (_, .dropped) => failure ≠ none
  | (_, .waiting) | (_, .running) => True

structure Workload.Sound (work : α → Except ε β) (as : List α) (w : Workload α β ε) : Prop where
  inputs : w.tasks.map Prod.fst = as
  tasks : ∀ t ∈ w.tasks, Accounts work w.failure t
  failure : ∀ e ∈ w.failure, ∃ a ∈ as, work a = .error e

variable {work : α → Except ε β} {as : List α} {v w : Workload α β ε}

theorem Workload.sound_ofInputs : (Workload.ofInputs as).Sound work as where
  inputs := by simp [ofInputs, Function.comp_def]
  tasks t ht := by
    obtain ⟨a, -, rfl⟩ := List.mem_map.mp ht
    trivial
  failure e he := by cases he

theorem Accounts.of_failure {failure : Option ε} {t : α × Stand β}
    (h : Accounts work failure t) (e : ε) : Accounts work (failure.or (some e)) t := by
  obtain ⟨a, s⟩ := t
  have hne : failure.or (some e) ≠ none := by simp
  cases s with
  | done b => exact h
  | failed => exact hne
  | dropped => exact hne
  | waiting => trivial
  | running => trivial

theorem forall_mem_replace {γ : Type} {p : γ → Prop} {before after : List γ} {x y : γ}
    (h : ∀ t ∈ before ++ x :: after, p t) (hy : p y) : ∀ t ∈ before ++ y :: after, p t := by
  intro t ht
  rcases List.mem_append.mp ht with ht | ht
  · exact h t (List.mem_append_left _ ht)
  · rcases List.mem_cons.mp ht with rfl | ht
    · exact hy
    · exact h t (List.mem_append_right _ (List.mem_cons_of_mem x ht))

theorem Workload.Step.sound (h : Step work v w) (hv : v.Sound work as) : w.Sound work as := by
  obtain ⟨hinputs, htasks, hfailure⟩ := hv
  cases h with
  | start => exact ⟨by simpa using hinputs, forall_mem_replace htasks trivial, hfailure⟩
  | finish hb => exact ⟨by simpa using hinputs, forall_mem_replace htasks hb, hfailure⟩
  | @drop _ _ _ e =>
    have hne : some e ≠ none := Option.some_ne_none e
    exact ⟨by simpa using hinputs, forall_mem_replace htasks hne, hfailure⟩
  | @fail before after a e failure he =>
    have ha : a ∈ as := by
      rw [← hinputs]
      simp
    refine ⟨by simpa using hinputs, ?_, fun f hf => ?_⟩
    · refine forall_mem_replace (fun t ht => (htasks t ht).of_failure e) ?_
      show failure.or (some e) ≠ none
      simp
    · cases failure with
      | some g => exact hfailure f (by simpa using hf)
      | none =>
        have hfe : e = f := by simpa using hf
        exact ⟨a, ha, hfe ▸ he⟩

theorem Workload.Steps.sound (h : Steps work v w) (hv : v.Sound work as) : w.Sound work as := by
  induction h with
  | refl => exact hv
  | tail _ hstep ih => exact hstep.sound ih

def Workload.left (w : Workload α β ε) : Nat := (w.tasks.map fun t => t.2.moves).sum

theorem Workload.Step.left_lt (h : Step work v w) : w.left < v.left := by
  cases h <;> simp only [left, List.map_append, List.map_cons, List.sum_append, List.sum_cons,
    Stand.moves] <;> omega

theorem Workload.exists_step (work : α → Except ε β) (h : ¬ w.Ended) : ∃ v, Step work w v := by
  obtain ⟨tasks, failure⟩ := w
  obtain ⟨⟨a, s⟩, ht, hs⟩ : ∃ t ∈ tasks, ¬ t.2.moves = 0 := by
    simpa [Ended] using h
  obtain ⟨before, after, rfl⟩ := List.append_of_mem ht
  cases s with
  | waiting => exact ⟨_, .start⟩
  | running =>
    cases hw : work a with
    | ok b => exact ⟨_, .finish hw⟩
    | error e => exact ⟨_, .fail hw⟩
  | done b => exact absurd rfl hs
  | failed => exact absurd rfl hs
  | dropped => exact absurd rfl hs

/-- Every way begun can be gone to its end. It cannot go on for ever, as each step leaves fewer. -/
theorem Workload.exists_ended (work : α → Except ε β) (v : Workload α β ε) :
    ∃ w, Steps work v w ∧ w.Ended := by
  induction hn : v.left using Nat.strongRecOn generalizing v with
  | _ n ih =>
    by_cases h : v.Ended
    · exact ⟨v, .refl, h⟩
    · obtain ⟨u, hu⟩ := exists_step work h
      obtain ⟨w, hw, hend⟩ := ih u.left (hn ▸ hu.left_lt) u rfl
      exact ⟨w, .head hu hw, hend⟩

theorem Workload.Step.failure_eq {e : ε} (h : Step work v w) (hv : v.failure = some e) :
    w.failure = some e := by
  cases h with
  | fail he =>
    simp only at hv
    simp [hv]
  | _ => exact hv

theorem Workload.Steps.failure_eq {e : ε} (h : Steps work v w) (hv : v.failure = some e) :
    w.failure = some e := by
  induction h with
  | refl => exact hv
  | tail _ hstep ih => exact hstep.failure_eq ih

/-- The answers that the inputs allow when their tasks know nothing of each other. -/
inductive Answers (work : α → Except ε β) (as : List α) : Except ε (List β) → Prop where
  | all {bs : List β} : as.map work = bs.map .ok → Answers work as (.ok bs)
  | one {a : α} {e : ε} : a ∈ as → work a = .error e → Answers work as (.error e)

theorem map_work_of_done {tasks : List (α × Stand β)}
    (h : ∀ t ∈ tasks, ∃ b, t.2 = .done b ∧ work t.1 = .ok b) :
    (tasks.map Prod.fst).map work = (tasks.filterMap fun t => t.2.value?).map .ok := by
  induction tasks with
  | nil => rfl
  | cons t tasks ih =>
    obtain ⟨b, hb, hwork⟩ := h t List.mem_cons_self
    have hrest := ih fun u hu => h u (List.mem_cons_of_mem t hu)
    simp only [List.map_cons, hwork, hrest, List.filterMap_cons, hb, Stand.value?]

theorem Workload.Sound.answers (hw : w.Sound work as) (hend : w.Ended) :
    Answers work as w.outcome := by
  cases hf : w.failure with
  | some e =>
    obtain ⟨a, ha, he⟩ := hw.failure e hf
    simpa [outcome, hf] using Answers.one ha he
  | none =>
    have hdone : ∀ t ∈ w.tasks, ∃ b, t.2 = .done b ∧ work t.1 = .ok b := by
      rintro ⟨a, s⟩ ht
      have hmoves := hend (a, s) ht
      have haccounts := hw.tasks (a, s) ht
      cases s with
      | waiting => cases hmoves
      | running => cases hmoves
      | done b => exact ⟨b, rfl, haccounts⟩
      | failed => exact absurd hf haccounts
      | dropped => exact absurd hf haccounts
    have hall := map_work_of_done hdone
    rw [hw.inputs] at hall
    simpa [outcome, hf] using Answers.all hall

theorem Answers.ok_unique {bs : List β} {answer : Except ε (List β)}
    (hbs : as.map work = bs.map .ok) (h : Answers work as answer) : answer = .ok bs := by
  cases h with
  | @all cs hcs =>
    rw [(List.map_inj_right fun _ _ => Except.ok.inj).mp (hbs.symm.trans hcs)]
  | @one a e ha he =>
    have hmem : work a ∈ bs.map .ok := hbs ▸ List.mem_map_of_mem ha
    obtain ⟨b, -, hb⟩ := List.mem_map.mp hmem
    rw [he] at hb
    cases hb

/-- The outcomes of all ways through the tasks are the answers that the inputs allow. -/
theorem exists_schedule_iff (work : α → Except ε β) (as : List α) (answer : Except ε (List β)) :
    (∃ w : Workload α β ε, Schedule work as w ∧ w.outcome = answer) ↔ Answers work as answer := by
  constructor
  · rintro ⟨w, ⟨hsteps, hend⟩, rfl⟩
    exact (hsteps.sound Workload.sound_ofInputs).answers hend
  · intro h
    cases h with
    | @all bs hbs =>
      obtain ⟨w, hw, hend⟩ := Workload.exists_ended work (Workload.ofInputs as)
      have hanswers := (hw.sound Workload.sound_ofInputs).answers hend
      exact ⟨w, ⟨hw, hend⟩, hanswers.ok_unique hbs⟩
    | @one a e ha he =>
      -- The failing task goes first; whatever the others do then, its failure is kept.
      obtain ⟨xs, ys, rfl⟩ := List.append_of_mem ha
      have hinputs : (Workload.ofInputs (xs ++ a :: ys) : Workload α β ε) =
          ⟨(xs.map fun a => (a, .waiting)) ++ (a, .waiting) ::
            ys.map fun a => (a, .waiting), none⟩ := by
        simp [Workload.ofInputs]
      obtain ⟨w, hw, hend⟩ := Workload.exists_ended work
        ⟨(xs.map fun a => (a, .waiting)) ++ (a, .failed) ::
          ys.map fun a => (a, .waiting), some e⟩
      have hfailed := hw.failure_eq rfl
      refine ⟨w, ⟨?_, hend⟩, by simp [Workload.outcome, hfailed]⟩
      rw [hinputs]
      exact .head .start (.head (.fail he) hw)

end

end MachineFacts
