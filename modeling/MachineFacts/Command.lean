import MachineFacts.Batch
import MachineFacts.Log
import MachineFacts.Report
import MachineFacts.Usage

/-! The whole program as a function of the files, the log variable, the terminal and the
arguments. Only a finished result reaches the output; all else is written beside it. -/

namespace MachineFacts

def packageVersion : Text := "0.1.0"

def versionText : Text := programName ++ " " ++ packageVersion ++ "\n"

structure Outcome where
  code : Nat
  output : Text
  errors : Text
  deriving Repr, DecidableEq

def Facts.summary (f : Facts) : Event :=
  .documentSummary f.source f.mounts.entries.length f.scheme.type

def parseHosts (files : Files) (root : Path) (hosts : List Text) (paths : List Path)
    (compact : Bool) : Run Text := do
  let s ← Settings.load files root
  let targets ← collectTargets files root s hosts paths
  Run.report [.batchStarted targets.length]
  let facts ← parseAll files targets
  Run.report (facts.map Facts.summary)
  return render facts compact ++ "\n"

def listHosts (files : Files) (root : Path) : Run Text := do
  let s ← Settings.load files root
  match availableHosts files root s with
  | [] => do
    Run.report [.hostsMissing .listing (joinPath root (bytes s.hostsDir)).shown]
    return []
  | names => return names.flatMap fun name => name ++ "\n"

/-- The directory that hosts are looked up in; without one the paths stay relative. -/
def Request.directory (r : Request) : Path := r.root.getD []

/-- What a request writes to the output. -/
def Request.run (files : Files) (r : Request) : Run Text :=
  match r.task with
  | .parse hosts paths compact => parseHosts files r.directory hosts paths compact
  | .hosts => listHosts files r.directory
  | .version => .ok versionText

/-- The causes in the report of a failed request, outermost first. -/
def Failure.reported : Failure → List Text
  | .settings e => "loading settings" :: (Failure.settings e).causes
  | f => f.causes

def Request.outcome (files : Files) (log : Option Text) (terminal : Bool) (r : Request) :
    Outcome :=
  let run := r.run files
  let lines := (LogFilter.ofVariable r.verbose log).lines terminal (run.events.map Event.logRecord)
  match run.result with
  | .ok output => ⟨0, output, lines⟩
  | .error f => ⟨1, [], lines ++ errorReport f.reported⟩

def Halt.outcome : Halt → Outcome
  | .help s => ⟨0, s.helpText, []⟩
  | .version => ⟨0, versionText, []⟩
  | .nothing => ⟨2, [], Scope.program.helpText⟩
  | .refused e => ⟨2, [], e.message⟩

def runProgram (files : Files) (log : Option Text) (terminal : Bool) (arguments : List Bytes) :
    Outcome :=
  match readArguments arguments with
  | .ok r => r.outcome files log terminal
  | .error halt => halt.outcome

/-- The paths that a request may look at once its settings are known. -/
def Request.paths (r : Request) (s : Settings) : List Path :=
  match r.task with
  | .parse hosts paths _ =>
    joinPath r.directory (bytes s.hostsDir) ::
      hosts.flatMap (fun host =>
        (s.candidatePaths host).map fun c => joinPath r.directory (bytes c)) ++ paths
  | .hosts => [joinPath r.directory (bytes s.hostsDir)]
  | .version => []

end MachineFacts
