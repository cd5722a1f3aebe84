import MachineFacts.Settings

/-! Hosts of a repository: the document of one host, and the names that can be offered when
there is none. -/

namespace MachineFacts

def findConfig (files : Files) (root : Path) (host : Text) (s : Settings) : Option Path :=
  ((s.candidatePaths host).map fun c => joinPath root (bytes c)).find? files.isRegular

/-- The name of a directory, if it is text. -/
def hostName? : FileName × FileKind → Option Text
  | (name, .directory) => text? name
  | _ => none

def notAbove (a b : Text) : Bool := !decide (b < a)

/-- The directories that the hosts directory itself holds, in ascending order. -/
def availableHosts (files : Files) (root : Path) (s : Settings) : List Text :=
  match files.entries (joinPath root (bytes s.hostsDir)) with
  | none => []
  | some entries => (entries.filterMap hostName?).mergeSort notAbove

def resolveHost (files : Files) (root : Path) (host : Text) (s : Settings) : Run Path :=
  match findConfig files root host s with
  | some path => ⟨[.hostResolved host path.shown], .ok path⟩
  | none => .fail (.lookup (.hostNotFound host (availableHosts files root s)))

end MachineFacts
