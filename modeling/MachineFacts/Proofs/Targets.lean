import MachineFacts.Proofs.AllOrNothing

/-! The targets of a request. The hosts are resolved one after another, and the first that has no
document ends the work; beside the failure the log says what hosts there are. -/

namespace MachineFacts

/-- The event stands above those that only help to find faults. -/
def Event.isUrgent (e : Event) : Bool := e.level.verbosity < Level.debug.verbosity

theorem Run.map_eq {α β : Type} (r : Run α) (f : α → β) :
    (r >>= fun a => pure (f a)) = ⟨r.events, r.result.map f⟩ := by
  cases h : r.result with
  | ok a =>
    rw [Run.bind_of_ok h, Run.pure_events, List.append_nil]
    rfl
  | error e =>
    rw [Run.bind_of_error h]
    rfl

section

variable {files : Files} {root : Path} {s : Settings}

theorem resolveHosts_of_found {host : Text} {path : Path}
    (h : findConfig files root host s = some path) (hosts : List Text) :
    resolveHosts files root s (host :: hosts) =
      ⟨.hostResolved host path.shown :: (resolveHosts files root s hosts).events,
        (resolveHosts files root s hosts).result.map (path :: ·)⟩ := by
  have hhost : resolveHost files root host s = ⟨[.hostResolved host path.shown], .ok path⟩ := by
    rw [resolveHost, h]
  have hfirst : ((resolveHost files root host s).onFailure
      (lookupEvents (joinPath root (bytes s.hostsDir)).shown)).result = .ok path := by
    rw [hhost]
    rfl
  rw [resolveHosts, Run.bind_of_ok hfirst, Run.map_eq, hhost]
  rfl

theorem resolveHosts_of_missing {host : Text} (h : findConfig files root host s = none)
    (hosts : List Text) :
    let f : Failure := .lookup (.hostNotFound host (availableHosts files root s))
    resolveHosts files root s (host :: hosts) =
      ⟨lookupEvents (joinPath root (bytes s.hostsDir)).shown f, .error f⟩ := by
  have hhost : resolveHost files root host s =
      .fail (.lookup (.hostNotFound host (availableHosts files root s))) := by
    rw [resolveHost, h]
  rw [resolveHosts, hhost]
  rfl

theorem urgent_resolveHosts {hosts : List Text}
    (h : ∀ host ∈ hosts, ∃ path, findConfig files root host s = some path) :
    (resolveHosts files root s hosts).events.filter Event.isUrgent = [] := by
  induction hosts with
  | nil => rfl
  | cons host hosts ih =>
    obtain ⟨path, hpath⟩ := h host List.mem_cons_self
    have hrest := ih fun other hother => h other (List.mem_cons_of_mem host hother)
    have hresolved : Event.isUrgent (.hostResolved host path.shown) = false := rfl
    rw [resolveHosts_of_found hpath, List.filter_cons_of_neg (by simp [hresolved]), hrest]

/-- The hosts before the first one that is missing are resolved, and those behind it are not
looked at. -/
theorem resolveHosts_first_missing {before : List Text} {host : Text}
    (hbefore : ∀ earlier ∈ before, ∃ path, findConfig files root earlier s = some path)
    (hhost : findConfig files root host s = none) (after : List Text) :
    let f : Failure := .lookup (.hostNotFound host (availableHosts files root s))
    (resolveHosts files root s (before ++ host :: after)).result = .error f ∧
      (resolveHosts files root s (before ++ host :: after)).events.filter Event.isUrgent =
        (lookupEvents (joinPath root (bytes s.hostsDir)).shown f).filter Event.isUrgent := by
  intro f
  induction before with
  | nil =>
    have hfirst := resolveHosts_of_missing hhost after
    rw [List.nil_append, hfirst]
    exact ⟨rfl, rfl⟩
  | cons earlier before ih =>
    obtain ⟨path, hpath⟩ := hbefore earlier List.mem_cons_self
    obtain ⟨hresult, hurgent⟩ :=
      ih fun other hother => hbefore other (List.mem_cons_of_mem earlier hother)
    have hresolved : Event.isUrgent (.hostResolved earlier path.shown) = false := rfl
    rw [List.cons_append, resolveHosts_of_found hpath, hresult]
    constructor
    · rfl
    · rw [List.filter_cons_of_neg (by simp [hresolved]), hurgent]

theorem exists_first_missing (files : Files) (root : Path) (s : Settings) (hosts : List Text) :
    (∀ host ∈ hosts, ∃ path, findConfig files root host s = some path) ∨
    ∃ before host after, hosts = before ++ host :: after ∧
      (∀ earlier ∈ before, ∃ path, findConfig files root earlier s = some path) ∧
      findConfig files root host s = none := by
  cases hfind : hosts.find? fun host => (findConfig files root host s).isNone with
  | none =>
    left
    intro host hhost
    have hsome := List.find?_eq_none.mp hfind host hhost
    rw [Option.isNone_iff_eq_none] at hsome
    exact Option.ne_none_iff_exists'.mp hsome
  | some host =>
    right
    obtain ⟨hhost, before, after, hsplit, hbefore⟩ := List.find?_eq_some_iff_append.mp hfind
    refine ⟨before, host, after, hsplit, ?_, Option.isNone_iff_eq_none.mp hhost⟩
    intro earlier hearlier
    have hsome : (findConfig files root earlier s).isSome = true := by
      simpa using hbefore earlier hearlier
    exact Option.isSome_iff_exists.mp hsome

/-- What is logged about a missing host, as it reads: the directory without hosts, or the hosts
that the failure carries. -/
theorem urgent_lookupEvents (dir host : Text) (available : List Text) :
    ((lookupEvents dir (.lookup (.hostNotFound host available))).filter Event.isUrgent).map
        (fun e => (e.level, e.message)) =
      [if available = [] then (.warn, "no hosts found under " ++ dir)
      else (.error, "available hosts: " ++ ", ".toList.intercalate available)] := by
  cases available with
  | nil => rfl
  | cons name names => rfl

theorem collectTargets_eq (files : Files) (root : Path) (s : Settings)
    (hosts : List Text) (paths : List Path) :
    collectTargets files root s hosts paths =
      ⟨(resolveHosts files root s hosts).events,
        (resolveHosts files root s hosts).result.map (· ++ paths)⟩ := Run.map_eq _ _

theorem collectTargets_of_found {hosts : List Text}
    (h : ∀ host ∈ hosts, ∃ path, findConfig files root host s = some path) (paths : List Path) :
    (∃ targets, (collectTargets files root s hosts paths).result = .ok targets) ∧
      (collectTargets files root s hosts paths).events.filter Event.isUrgent = [] := by
  constructor
  · have hresults : ∀ host ∈ hosts, ∃ path, (resolveHost files root host s).result = .ok path := by
      intro host hhost
      obtain ⟨path, hpath⟩ := h host hhost
      exact ⟨path, resolveHost_ok_iff.mpr hpath⟩
    obtain ⟨documents, hdocuments⟩ := exists_map_ok hresults
    exact ⟨documents ++ paths, collectTargets_ok_iff.mpr ⟨documents, hdocuments, rfl⟩⟩
  · rw [collectTargets_eq]
    exact urgent_resolveHosts h

theorem collectTargets_of_missing {before : List Text} {host : Text}
    (hbefore : ∀ earlier ∈ before, ∃ path, findConfig files root earlier s = some path)
    (hhost : findConfig files root host s = none) (after : List Text) (paths : List Path) :
    let run := collectTargets files root s (before ++ host :: after) paths
    let available := availableHosts files root s
    run.result = .error (.lookup (.hostNotFound host available)) ∧
      (run.events.filter Event.isUrgent).map (fun e => (e.level, e.message)) =
        [if available = [] then
          (.warn, "no hosts found under " ++ (joinPath root (bytes s.hostsDir)).shown)
        else (.error, "available hosts: " ++ ", ".toList.intercalate available)] := by
  intro run available
  obtain ⟨hresult, hurgent⟩ := resolveHosts_first_missing hbefore hhost after
  have hrun : run = _ := collectTargets_eq files root s (before ++ host :: after) paths
  rw [hrun, hresult, hurgent]
  exact ⟨rfl, urgent_lookupEvents _ host available⟩

end

/-- The targets are the documents of the hosts in their order and behind them the paths as they
are, and nothing urgent is logged, if every host has a document. Otherwise the failure is that of
the first host without one, whatever comes behind it, and one urgent event tells of the hosts that
there are. -/
theorem collectTargets_first_missing (files : Files) (root : Path) (s : Settings)
    (hosts : List Text) (paths : List Path) :
    let run := collectTargets files root s hosts paths
    let urgent := run.events.filter Event.isUrgent
    let available := availableHosts files root s
    ((∃ targets, run.result = .ok targets) ↔
      ∀ host ∈ hosts, ∃ path, (resolveHost files root host s).result = .ok path) ∧
    (∀ targets, run.result = .ok targets →
      (∃ documents, hosts.map (fun host => (resolveHost files root host s).result) =
        documents.map .ok ∧ targets = documents ++ paths) ∧ urgent = []) ∧
    ((¬ ∃ targets, run.result = .ok targets) →
      ∃ before host after, hosts = before ++ host :: after ∧
        (∀ earlier ∈ before, ∃ path, (resolveHost files root earlier s).result = .ok path) ∧
        (¬ ∃ path, (resolveHost files root host s).result = .ok path) ∧
        run.result = .error (.lookup (.hostNotFound host available)) ∧
        urgent.map (fun e => (e.level, e.message)) =
          [if available = [] then
            (.warn, "no hosts found under " ++ (joinPath root (bytes s.hostsDir)).shown)
          else (.error, "available hosts: " ++ ", ".toList.intercalate available)]) := by
  intro run urgent available
  simp only [resolveHost_ok_iff]
  rcases exists_first_missing files root s hosts with
    hall | ⟨before, host, after, rfl, hbefore, hhost⟩
  · obtain ⟨hok, hurgent⟩ := collectTargets_of_found hall paths
    refine ⟨⟨fun _ => hall, fun _ => hok⟩, ?_, fun hnot => absurd hok hnot⟩
    intro targets htargets
    exact ⟨collectTargets_ok_iff.mp htargets, hurgent⟩
  · obtain ⟨herror, hurgent⟩ := collectTargets_of_missing hbefore hhost after paths
    have hfails : ∀ targets, run.result ≠ .ok targets := by simp [run, herror]
    have hmissing : ¬ ∃ path, findConfig files root host s = some path := by simp [hhost]
    refine ⟨⟨?_, ?_⟩, ?_, ?_⟩
    · rintro ⟨targets, htargets⟩
      exact absurd htargets (hfails targets)
    · intro hall
      exact absurd (hall host (by simp)) hmissing
    · intro targets htargets
      exact absurd htargets (hfails targets)
    · intro _
      exact ⟨before, host, after, rfl, hbefore, hmissing, herror, hurgent⟩

theorem collectTargets_first_missing_linked :
    let files := linkedHosts.files []
    let run := collectTargets files [] .default ["p620", "razer", "twin"] ["a"]
    let available : List Text := ["backup", "p620"]
    (¬ ∃ targets, run.result = .ok targets) ∧
    ∃ before host after, ["p620".toList, "razer".toList, "twin".toList] =
      before ++ host :: after ∧
      run.result = .error (.lookup (.hostNotFound host available)) ∧
      (run.events.filter Event.isUrgent).map (fun e => (e.level, e.message)) =
        [(.error, "available hosts: ".toList ++ ", ".toList.intercalate available)] := by
  intro files run available
  have hmissing : findConfig files [] "razer" .default = none := by cbv
  have havailable : availableHosts files [] .default = available := by cbv
  obtain ⟨hok, -, hfirst⟩ :=
    collectTargets_first_missing files [] .default ["p620", "razer", "twin"] ["a"]
  have hnot : ¬ ∃ targets, run.result = .ok targets := by
    intro htargets
    obtain ⟨path, hpath⟩ := hok.mp htargets "razer" (by simp)
    rw [resolveHost_ok_iff, hmissing] at hpath
    cases hpath
  obtain ⟨before, host, after, hsplit, -, -, hresult, hurgent⟩ := hfirst hnot
  rw [havailable] at hresult hurgent
  exact ⟨hnot, before, host, after, hsplit, hresult, hurgent⟩

end MachineFacts
