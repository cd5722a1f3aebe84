import MachineFacts.Facts
import MachineFacts.Hosts

/-! Documents by the batch: which ones are meant, and what they say. One that fails, fails the
batch. -/

namespace MachineFacts

def loadDocument (files : Files) (path : Path) : Except LoadError Text :=
  match files.readText path with
  | .ok t => .ok t
  | .error cause =>
    .error (if cause = .notFound then .notFound path.shown else .unreadable path.shown cause)

def parseFile (files : Files) (path : Path) : Run Facts :=
  match loadDocument files path with
  | .error e => .fail (.load e)
  | .ok t =>
    ⟨.documentRead path.shown (byteLength t) :: documentEvents t, .ok (.ofText t path.shown)⟩

/-- What is logged about a host that has no document. -/
def lookupEvents (dir : Text) : Failure → List Event
  | .lookup (.hostNotFound _ []) => [.hostsMissing .lookup dir]
  | .lookup (.hostNotFound _ names) => [.hostsAvailable names]
  | _ => []

def resolveHosts (files : Files) (root : Path) (s : Settings) : List Text → Run (List Path)
  | [] => .ok []
  | host :: hosts => do
    let dir := joinPath root (bytes s.hostsDir)
    let path ← (resolveHost files root host s).onFailure (lookupEvents dir.shown)
    let paths ← resolveHosts files root s hosts
    return path :: paths

/-- The documents of the hosts, and behind them the paths as they were given. -/
def collectTargets (files : Files) (root : Path) (s : Settings) (hosts : List Text)
    (paths : List Path) : Run (List Path) := do
  let documents ← resolveHosts files root s hosts
  return documents ++ paths

/-- Parses the paths with the given indices one after another, up to the first failure. -/
def parseEach (files : Files) (paths : List Path) : List Nat → Run (List (Nat × Facts))
  | [] => .ok []
  | i :: order =>
    match paths[i]? with
    | none => parseEach files paths order
    | some path => do
      let facts ← parseFile files path
      let rest ← parseEach files paths order
      return (i, facts) :: rest

/-- The facts of all paths in the order of the paths, parsed in whatever order. -/
def parseInOrder (files : Files) (order : List Nat) (paths : List Path) : Run (List Facts) := do
  let parsed ← parseEach files paths order
  return (List.range paths.length).filterMap fun i => parsed.lookup i

def parseAll (files : Files) (paths : List Path) : Run (List Facts) :=
  parseInOrder files (List.range paths.length) paths

end MachineFacts
