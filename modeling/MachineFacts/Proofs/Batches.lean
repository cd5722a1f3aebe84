import Mathlib.Data.List.Basic
import MachineFacts.Batch
import MachineFacts.Snapshot
import MachineFacts.Proofs.Encoding
import MachineFacts.Proofs.Workload

/-! Parsing many documents. Whatever the order in which their parses begin and end, a batch comes
to what parsing them one by one comes to. -/

namespace MachineFacts

def parsedAlone (files : Files) (path : Path) : Except Failure Facts :=
  (parseFile files path).result

theorem parsedAlone_eq (files : Files) (path : Path) :
    parsedAlone files path =
      match loadDocument files path with
      | .error e => .error (.load e)
      | .ok t => .ok (.ofText t path.shown) := by
  rw [parsedAlone, parseFile]
  cases loadDocument files path <;> rfl

theorem parsedAlone_error_iff {files : Files} {path : Path} {f : Failure} :
    parsedAlone files path = .error f ↔
      ∃ e, loadDocument files path = .error e ∧ f = .load e := by
  rw [parsedAlone_eq]
  cases loadDocument files path with
  | ok t => simp
  | error e => simp [eq_comm]

theorem parseEach_cons (files : Files) (paths : List Path) (i : Nat) (order : List Nat) :
    (parseEach files paths (i :: order)).result =
      match paths[i]? with
      | none => (parseEach files paths order).result
      | some path =>
        (parsedAlone files path).bind fun facts =>
          (parseEach files paths order).result.bind fun rest => .ok ((i, facts) :: rest) := by
  rw [parseEach]
  cases paths[i]? with
  | none => rfl
  | some path => simp only [Run.bind_result, parsedAlone, Run.pure_result]

/-- Parsing in a given order comes to a failure of one of the paths, or to facts for each. -/
theorem parseEach_result (files : Files) (paths : List Path) (order : List Nat) :
    (∃ path ∈ paths, ∃ f, parsedAlone files path = .error f ∧
      (parseEach files paths order).result = .error f) ∨
    ∃ parsed, (parseEach files paths order).result = .ok parsed ∧
      ∀ i ∈ order, ∀ path, paths[i]? = some path →
        ∃ facts, parsedAlone files path = .ok facts ∧ parsed.lookup i = some facts := by
  induction order with
  | nil => exact .inr ⟨[], rfl, by simp⟩
  | cons i order ih =>
    rw [parseEach_cons]
    cases hi : paths[i]? with
    | none =>
      dsimp only
      obtain hfail | ⟨parsed, hresult, hall⟩ := ih
      · exact .inl hfail
      · refine .inr ⟨parsed, hresult, fun j hj path hpath => ?_⟩
        rcases List.mem_cons.mp hj with rfl | hj
        · simp [hi] at hpath
        · exact hall j hj path hpath
    | some path =>
      dsimp only
      cases hp : parsedAlone files path with
      | error f =>
        exact .inl ⟨path, List.mem_of_getElem? hi, f, hp, rfl⟩
      | ok facts =>
        obtain ⟨other, hother, f, hf, hresult⟩ | ⟨parsed, hresult, hall⟩ := ih
        · exact .inl ⟨other, hother, f, hf, by rw [hresult]; rfl⟩
        · refine .inr ⟨(i, facts) :: parsed, by rw [hresult]; rfl, fun j hj q hq => ?_⟩
          by_cases hji : j = i
          · subst hji
            obtain rfl : path = q := Option.some.inj (hi.symm.trans hq)
            exact ⟨facts, hp, by simp⟩
          · obtain ⟨found, hfound, hlookup⟩ := hall j ((List.mem_cons.mp hj).resolve_left hji) q hq
            refine ⟨found, hfound, ?_⟩
            rw [List.lookup_cons, beq_eq_false_iff_ne.mpr hji]
            exact hlookup

theorem filterMap_range_getElem? {β : Type} (bs : List β) :
    ((List.range bs.length).filterMap fun i => bs[i]?) = bs := by
  induction bs with
  | nil => rfl
  | cons b bs ih =>
    simpa [List.range_succ_eq_map, List.filterMap_map, Function.comp_def] using ih

theorem exists_map_ok {α β ε : Type} {work : α → Except ε β} {as : List α}
    (h : ∀ a ∈ as, ∃ b, work a = .ok b) : ∃ bs : List β, as.map work = bs.map .ok := by
  induction as with
  | nil => exact ⟨[], rfl⟩
  | cons a as ih =>
    obtain ⟨b, hb⟩ := h a List.mem_cons_self
    obtain ⟨bs, hbs⟩ := ih fun c hc => h c (List.mem_cons_of_mem a hc)
    exact ⟨b :: bs, by rw [List.map_cons, hb, hbs, List.map_cons]⟩

theorem parseInOrder_answers (files : Files) {paths : List Path} {order : List Nat}
    (horder : order.Perm (List.range paths.length)) :
    Answers (parsedAlone files) paths (parseInOrder files order paths).result := by
  rw [parseInOrder, Run.bind_result]
  obtain ⟨path, hpath, f, hf, hresult⟩ | ⟨parsed, hresult, hall⟩ :=
    parseEach_result files paths order
  · rw [hresult]
    exact .one hpath hf
  · have hparsed : ∀ i (hi : i < paths.length), ∃ facts,
        parsedAlone files paths[i] = .ok facts ∧ parsed.lookup i = some facts := fun i hi =>
      hall i (horder.mem_iff.mpr (List.mem_range.mpr hi)) _ (List.getElem?_eq_getElem hi)
    have hok : ∀ path ∈ paths, ∃ facts, parsedAlone files path = .ok facts := by
      intro path hpath
      obtain ⟨i, hi, rfl⟩ := List.mem_iff_getElem.mp hpath
      obtain ⟨facts, hfacts, -⟩ := hparsed i hi
      exact ⟨facts, hfacts⟩
    obtain ⟨bs, hbs⟩ := exists_map_ok hok
    have hlength : paths.length = bs.length := by simpa using congrArg List.length hbs
    have hlookup : ∀ i ∈ List.range bs.length, parsed.lookup i = bs[i]? := by
      intro i hi
      have hi' : i < bs.length := List.mem_range.mp hi
      obtain ⟨facts, hfacts, hl⟩ := hparsed i (hlength ▸ hi')
      have hget := List.getElem_of_eq hbs (i := i) (by simpa [hlength] using hi')
      simp only [List.getElem_map, hfacts, Except.ok.injEq] at hget
      rw [hl, hget, List.getElem?_eq_getElem hi']
    have hcollect : ((List.range paths.length).filterMap fun i => parsed.lookup i) = bs := by
      rw [hlength, List.filterMap_congr hlookup, filterMap_range_getElem?]
    rw [hresult]
    show Answers (parsedAlone files) paths (.ok _)
    rw [hcollect]
    exact .all hbs

/-- The answer for a batch, measured by its paths one by one. -/
structure BatchAnswer (files : Files) (paths : List Path) (answer : Except Failure (List Facts)) :
    Prop where
  ok_iff : (∃ facts, answer = .ok facts) ↔
    ∀ path ∈ paths, ∃ facts, (parseFile files path).result = .ok facts
  in_order : ∀ facts, answer = .ok facts →
    facts.map .ok = paths.map fun path => (parseFile files path).result
  of_one : ∀ f, answer = .error f →
    ∃ path ∈ paths, ∃ e, loadDocument files path = .error e ∧ f = .load e
  of_only : ∀ path ∈ paths, ∀ e, loadDocument files path = .error e →
    (∀ other ∈ paths, other ≠ path → ∃ t, loadDocument files other = .ok t) →
    answer = .error (.load e)

theorem Answers.batchAnswer {files : Files} {paths : List Path}
    {answer : Except Failure (List Facts)} (h : Answers (parsedAlone files) paths answer) :
    BatchAnswer files paths answer := by
  cases h with
  | @all bs hbs =>
    have hok : ∀ path ∈ paths, ∃ facts, parsedAlone files path = .ok facts := by
      intro path hpath
      have hmem : parsedAlone files path ∈ bs.map .ok := hbs ▸ List.mem_map_of_mem hpath
      obtain ⟨facts, -, hfacts⟩ := List.mem_map.mp hmem
      exact ⟨facts, hfacts.symm⟩
    refine ⟨⟨fun _ => hok, fun _ => ⟨bs, rfl⟩⟩, fun facts hfacts => ?_, fun f hf => ?_,
      fun path hpath e he _ => ?_⟩
    · cases hfacts
      exact hbs.symm
    · cases hf
    · obtain ⟨facts, hfacts⟩ := hok path hpath
      rw [parsedAlone_error_iff.mpr ⟨e, he, rfl⟩] at hfacts
      cases hfacts
  | @one a f ha hf =>
    obtain ⟨e, he, rfl⟩ := parsedAlone_error_iff.mp hf
    refine ⟨⟨fun hok => ?_, fun hall => ?_⟩, fun facts hfacts => ?_, fun g hg => ?_,
      fun path _ d hd hothers => ?_⟩
    · obtain ⟨facts, hfacts⟩ := hok
      cases hfacts
    · obtain ⟨facts, hfacts⟩ := hall a ha
      rw [← parsedAlone, hf] at hfacts
      cases hfacts
    · cases hfacts
    · cases hg
      exact ⟨a, ha, e, he, rfl⟩
    · have hap : a = path := by
        by_cases hne : a = path
        · exact hne
        · obtain ⟨t, ht⟩ := hothers a ha hne
          rw [he] at ht
          cases ht
      subst hap
      rw [he] at hd
      cases hd
      rfl

/-- However the parses of a batch are scheduled, each way through it can be gone to its end, and
its outcome is an answer measured by the paths one by one; parsing in any order of the paths is
one of these ways. -/
theorem parseAll_of_schedules (files : Files) (paths : List Path) :
    BatchAnswer files paths (parseAll files paths).result ∧
    (∀ order : List Nat, order.Perm (List.range paths.length) →
      ∃ w, Schedule (parsedAlone files) paths w ∧
        w.outcome = (parseInOrder files order paths).result) ∧
    (∀ v, Workload.Steps (parsedAlone files) (.ofInputs paths) v →
      ∃ w, Workload.Steps (parsedAlone files) v w ∧ w.Ended) ∧
    ∀ w, Schedule (parsedAlone files) paths w → BatchAnswer files paths w.outcome := by
  refine ⟨(parseInOrder_answers files (.refl _)).batchAnswer, fun order horder => ?_,
    fun v _ => Workload.exists_ended _ v, fun w hw => ?_⟩
  · exact (exists_schedule_iff _ paths _).mpr (parseInOrder_answers files horder)
  · exact ((exists_schedule_iff _ paths _).mp ⟨w, hw, rfl⟩).batchAnswer

def oneDocument : Files :=
  Snapshot.files [(bytes "a", ⟨true, true, .ok ByteArray.empty, none⟩)]

theorem parseAll_of_schedules_late_document :
    Schedule (parsedAlone oneDocument) ["a", "b"]
      ⟨[("a", .done (.ofText [] "a")), ("b", .failed)], some (.load (.notFound "b"))⟩ ∧
    BatchAnswer oneDocument ["a", "b"] (.error (.load (.notFound "b"))) := by
  have ha : parsedAlone oneDocument "a" = .ok (.ofText [] (Path.shown "a")) := rfl
  have hb : parsedAlone oneDocument "b" = .error (.load (.notFound (Path.shown "b"))) := rfl
  rw [Path.shown_bytes] at ha hb
  have hschedule : Schedule (parsedAlone oneDocument) ["a", "b"]
      ⟨[("a", .done (.ofText [] "a")), ("b", .failed)], some (.load (.notFound "b"))⟩ := by
    refine ⟨?_, by simp [Workload.Ended, Stand.moves]⟩
    have hstart : ∀ before after a failure, Workload.Step (parsedAlone oneDocument)
        ⟨before ++ (a, .waiting) :: after, failure⟩ ⟨before ++ (a, .running) :: after, failure⟩ :=
      fun _ _ _ _ => .start
    have h1 := hstart [("a", .waiting)] [] "b" none
    have h2 := hstart [] [("b", .running)] "a" none
    have h3 := @Workload.Step.fail _ _ _ _ [(bytes "a", .running)] [] _ _ none hb
    have h4 := @Workload.Step.finish _ _ _ _ [] [(bytes "b", .failed)] _ _
      (some (.load (.notFound "b"))) ha
    exact .head h1 (.head h2 (.head h3 (.head h4 .refl)))
  exact ⟨hschedule, (parseAll_of_schedules oneDocument ["a", "b"]).2.2.2 _ hschedule⟩

end MachineFacts
