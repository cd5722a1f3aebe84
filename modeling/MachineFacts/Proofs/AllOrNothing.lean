import MachineFacts.Command
import MachineFacts.Proofs.Batches
import MachineFacts.Proofs.Candidates

/-! What a request to parse writes. Each stage passes its result on or ends the request, so there
is the report of all documents or nothing at all, and what is logged has no part in it. -/

namespace MachineFacts

theorem resolveHosts_ok_iff {files : Files} {root : Path} {s : Settings} {hosts : List Text}
    {documents : List Path} :
    (resolveHosts files root s hosts).result = .ok documents ↔
      hosts.map (fun host => (resolveHost files root host s).result) = documents.map .ok := by
  induction hosts generalizing documents with
  | nil => cases documents <;> simp [resolveHosts, Run.ok]
  | cons host hosts ih =>
    rw [resolveHosts, Run.bind_result, Run.onFailure_result, List.map_cons]
    cases hhost : (resolveHost files root host s).result with
    | error f => cases documents <;> simp [Except.bind]
    | ok path =>
      simp only [Except.bind, Run.bind_result, Run.pure_result]
      cases hrest : (resolveHosts files root s hosts).result with
      | error f =>
        have hnone : ∀ more : List Path,
            hosts.map (fun host => (resolveHost files root host s).result) ≠ more.map .ok :=
          fun more hmore => by simp [ih.mpr hmore] at hrest
        cases documents <;> simp [hnone]
      | ok paths =>
        rw [ih.mp hrest]
        cases documents with
        | nil => simp
        | cons document documents =>
          simp [List.map_inj_right fun _ _ => Except.ok.inj]

/-- The settings load, every host has a document, and every target can be read: the documents of
the hosts in their order and behind them the paths as they are. -/
structure Loads (files : Files) (root : Path) (hosts : List Text) (paths targets : List Path) :
    Prop where
  resolved : ∃ s documents, (Settings.load files root).result = .ok s ∧
    hosts.map (fun host => (resolveHost files root host s).result) = documents.map .ok ∧
    targets = documents ++ paths
  readable : ∀ path ∈ targets, ∃ t, loadDocument files path = .ok t

theorem collectTargets_ok_iff {files : Files} {root : Path} {s : Settings} {hosts : List Text}
    {paths targets : List Path} :
    (collectTargets files root s hosts paths).result = .ok targets ↔
      ∃ documents, hosts.map (fun host => (resolveHost files root host s).result) =
        documents.map .ok ∧ targets = documents ++ paths := by
  rw [collectTargets, Run.bind_result]
  simp only [← resolveHosts_ok_iff]
  cases (resolveHosts files root s hosts).result with
  | error f => simp [Except.bind]
  | ok documents => simp [Except.bind, eq_comm]

theorem parseHosts_result (files : Files) (root : Path) (hosts : List Text) (paths : List Path)
    (compact : Bool) :
    (parseHosts files root hosts paths compact).result =
      (Settings.load files root).result.bind fun s =>
        (collectTargets files root s hosts paths).result.bind fun targets =>
          (parseAll files targets).result.bind fun facts => .ok (render facts compact ++ "\n") := by
  rw [parseHosts]
  simp only [Run.bind_result, Run.report, Run.pure_result, Except.bind]

theorem parsedAlone_ok_iff {files : Files} {path : Path} :
    (∃ facts, parsedAlone files path = .ok facts) ↔ ∃ t, loadDocument files path = .ok t := by
  rw [parsedAlone_eq]
  cases loadDocument files path <;> simp

theorem parseHosts_of_loads {files : Files} {root : Path} {hosts : List Text}
    {paths targets : List Path}
    (h : Loads files root hosts paths targets) (compact : Bool) :
    ∃ facts, facts.map .ok = targets.map (fun path => (parseFile files path).result) ∧
      (parseHosts files root hosts paths compact).result = .ok (render facts compact ++ "\n") := by
  obtain ⟨⟨s, documents, hs, hdocuments, htargets⟩, hread⟩ := h
  have hcollect := collectTargets_ok_iff.mpr ⟨documents, hdocuments, htargets⟩
  obtain ⟨facts, hfacts⟩ := (parseAll_of_schedules files targets).1.ok_iff.mpr fun path hpath =>
    parsedAlone_ok_iff.mpr (hread path hpath)
  refine ⟨facts, (parseAll_of_schedules files targets).1.in_order facts hfacts, ?_⟩
  simp only [parseHosts_result, hs, hcollect, hfacts, Except.bind]

theorem parseHosts_of_not_loads {files : Files} {root : Path} {hosts : List Text}
    {paths : List Path}
    (h : ¬ ∃ targets, Loads files root hosts paths targets) (compact : Bool) :
    ∃ f, (parseHosts files root hosts paths compact).result = .error f := by
  rw [parseHosts_result]
  cases hs : (Settings.load files root).result with
  | error f => exact ⟨f, rfl⟩
  | ok s =>
    cases ht : (collectTargets files root s hosts paths).result with
    | error f => exact ⟨f, by simp only [Except.bind, ht]⟩
    | ok targets =>
      cases hp : (parseAll files targets).result with
      | error f => exact ⟨f, by simp only [Except.bind, ht, hp]⟩
      | ok facts =>
        obtain ⟨documents, hdocuments, htargets⟩ := collectTargets_ok_iff.mp ht
        refine absurd ⟨targets, ⟨s, documents, hs, hdocuments, htargets⟩, fun path hpath => ?_⟩ h
        exact parsedAlone_ok_iff.mp
          ((parseAll_of_schedules files targets).1.ok_iff.mp ⟨facts, hp⟩ path hpath)

theorem Request.outcome_of_ok {files : Files} {r : Request} {output : Text}
    (h : (r.run files).result = .ok output) (log : Option Text) (terminal : Bool) :
    (r.outcome files log terminal).code = 0 ∧ (r.outcome files log terminal).output = output := by
  simp [outcome, h]

theorem Request.outcome_of_error {files : Files} {r : Request} {f : Failure}
    (h : (r.run files).result = .error f) (log : Option Text) (terminal : Bool) :
    (r.outcome files log terminal).code = 1 ∧ (r.outcome files log terminal).output = [] := by
  simp [outcome, h]

/-- Two requests for the same differ at most in what they log. -/
theorem Request.outcome_congr {files : Files} {r q : Request} (hd : q.directory = r.directory)
    (ht : q.task = r.task) (log other : Option Text) (terminal another : Bool) :
    (q.outcome files other another).code = (r.outcome files log terminal).code ∧
      (q.outcome files other another).output = (r.outcome files log terminal).output := by
  have hrun : q.run files = r.run files := by rw [run, run, hd, ht]
  cases hr : (r.run files).result with
  | ok output =>
    obtain ⟨hcode, houtput⟩ := r.outcome_of_ok hr log terminal
    rw [hcode, houtput]
    exact q.outcome_of_ok (hrun ▸ hr) other another
  | error f =>
    obtain ⟨hcode, houtput⟩ := r.outcome_of_error hr log terminal
    rw [hcode, houtput]
    exact q.outcome_of_error (hrun ▸ hr) other another

/-- A request to parse ends well, with the report of all its targets as the whole output, if it
can load everything it needs, and otherwise fails without output. How much is logged, and how,
makes no difference. -/
theorem runProgram_all_or_nothing {files : Files} {arguments : List Bytes} {r : Request}
    {hosts : List Text} {paths : List Path} {compact : Bool} (hr : readArguments arguments = .ok r)
    (ht : r.task = .parse hosts paths compact) (log : Option Text) (terminal : Bool) :
    (∀ targets, Loads files (r.root.getD []) hosts paths targets →
      (runProgram files log terminal arguments).code = 0 ∧
      ∃ facts, facts.map .ok = targets.map (fun path => (parseFile files path).result) ∧
        (runProgram files log terminal arguments).output = render facts compact ++ "\n") ∧
    ((¬ ∃ targets, Loads files (r.root.getD []) hosts paths targets) →
      (runProgram files log terminal arguments).code = 1 ∧
      (runProgram files log terminal arguments).output = []) ∧
    ∀ (others : List Bytes) (q : Request) (other : Option Text) (another : Bool),
      readArguments others = .ok q → q.root.getD [] = r.root.getD [] → q.task = r.task →
      (runProgram files other another others).code =
        (runProgram files log terminal arguments).code ∧
      (runProgram files other another others).output =
        (runProgram files log terminal arguments).output := by
  have hprogram : runProgram files log terminal arguments = r.outcome files log terminal := by
    rw [runProgram, hr]
  have hrun : r.run files = parseHosts files r.directory hosts paths compact := by
    rw [Request.run, ht]
  rw [hprogram]
  refine ⟨fun targets h => ?_, fun h => ?_, fun others q other another hq hd htask => ?_⟩
  · obtain ⟨facts, hfacts, hresult⟩ := parseHosts_of_loads h compact
    obtain ⟨hcode, houtput⟩ := r.outcome_of_ok (hrun ▸ hresult) log terminal
    exact ⟨hcode, facts, hfacts, houtput⟩
  · obtain ⟨f, hf⟩ := parseHosts_of_not_loads h compact
    exact r.outcome_of_error (hrun ▸ hf) log terminal
  · rw [runProgram, hq]
    exact Request.outcome_congr hd htask log other terminal another

/-- The host `twin` is a link to the other one, and both have the document that is given as well. -/
theorem linkedHosts_loads :
    Loads (linkedHosts.files []) "." ["p620", "twin"] ["shared.nix"]
      ["./hosts/p620/hardware.nix", "./hosts/twin/hardware.nix", "shared.nix"] := by
  have hsettings : (Settings.load (linkedHosts.files []) ".").result = .ok .default := by cbv
  have hhost : (resolveHost (linkedHosts.files []) "." "p620" .default).result =
      .ok "./hosts/p620/hardware.nix" := by cbv
  have hlink : (resolveHost (linkedHosts.files []) "." "twin" .default).result =
      .ok "./hosts/twin/hardware.nix" := by cbv
  refine ⟨⟨.default, ["./hosts/p620/hardware.nix", "./hosts/twin/hardware.nix"], hsettings, ?_,
    rfl⟩, fun path hpath => ⟨"\x7b\x7d", ?_⟩⟩
  · rw [List.map_cons, List.map_cons, hhost, hlink]
    rfl
  · simp only [List.mem_cons, List.not_mem_nil, or_false] at hpath
    rcases hpath with rfl | rfl | rfl <;> cbv

theorem linkedHosts_not_loads (targets : List Path) :
    ¬ Loads (linkedHosts.files []) "." ["p620"] ["gone.nix"] targets := by
  rintro ⟨⟨s, documents, -, -, rfl⟩, hread⟩
  have hgone : loadDocument (linkedHosts.files []) "gone.nix" = .error (.notFound "gone.nix") := by
    cbv
  obtain ⟨t, ht⟩ := hread "gone.nix" (by simp)
  rw [hgone] at ht
  cases ht

theorem runProgram_all_or_nothing_linked :
    let files := linkedHosts.files []
    let arguments : List Bytes := ["--root", ".", "parse", "p620", "twin", "-f", "shared.nix"]
    let others : List Bytes := ["parse", "p620", "twin", "--file=shared.nix", "-v", "--root=."]
    let broken : List Bytes := ["--root", ".", "parse", "p620", "-f", "gone.nix"]
    let targets : List Path :=
      ["./hosts/p620/hardware.nix", "./hosts/twin/hardware.nix", "shared.nix"]
    (runProgram files (some "off") false arguments).code = 0 ∧
    (∃ facts, facts.map .ok = targets.map (fun path => (parseFile files path).result) ∧
      (runProgram files (some "off") false arguments).output = render facts false ++ "\n") ∧
    (runProgram files none true others).output =
      (runProgram files (some "off") false arguments).output ∧
    (runProgram files none true broken).code = 1 ∧
    (runProgram files none true broken).output = [] := by
  intro files arguments others broken targets
  have hr : readArguments arguments =
      .ok ⟨.parse ["p620", "twin"] ["shared.nix"] false, false, some "."⟩ := by rfl
  have hq : readArguments others =
      .ok ⟨.parse ["p620", "twin"] ["shared.nix"] false, true, some "."⟩ := by rfl
  have hb : readArguments broken =
      .ok ⟨.parse ["p620"] ["gone.nix"] false, false, some "."⟩ := by rfl
  obtain ⟨hok, -, hsame⟩ :=
    @runProgram_all_or_nothing files _ _ _ _ _ hr rfl (some "off") false
  obtain ⟨-, herror, -⟩ := @runProgram_all_or_nothing files _ _ _ _ _ hb rfl none true
  obtain ⟨hcode, houtput⟩ := hok targets linkedHosts_loads
  obtain ⟨hfailed, hempty⟩ := herror (not_exists.mpr linkedHosts_not_loads)
  exact ⟨hcode, houtput, (hsame _ _ none true hq rfl rfl).2, hfailed, hempty⟩

end MachineFacts
