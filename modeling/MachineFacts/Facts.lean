import MachineFacts.Event
import MachineFacts.Profile

/-! Everything extracted from one document, and the events of extracting it. The readers do not
depend on each other; only the partition layout is inferred from the filesystems. -/

namespace MachineFacts

def filesystemsAttribute : Text := "fileSystems"

def filesystemBlocks (t : Text) : List (Text × Text) := attributeBlocks filesystemsAttribute t

/-- Blocks are applied in document order, so the last one for a mount point is kept. -/
def Mounts.ofText (t : Text) : Mounts :=
  .ofList ((filesystemBlocks t).map fun b => (b.1, Entry.ofBlock b.2))

structure Facts where
  mounts : Mounts
  boot : Boot
  profiles : List Text
  scheme : Scheme
  source : Text
  deriving Repr, DecidableEq

def Facts.ofText (t source : Text) : Facts where
  mounts := .ofText t
  boot := .ofText t
  profiles := importedProfiles t
  scheme := .infer (.ofText t)
  source := source

def Declaration.event? (attr : Text) : Declaration → Option Event
  | .openBlock key => some (.blockUnterminated attr key)
  | _ => none

/-- The events of putting entries into a map that holds `seen` already. -/
def mountEvents (seen : Mounts) : List (Text × Entry) → List Event
  | [] => []
  | e :: es =>
    let again := if (seen.get? e.1).isSome then [Event.filesystemRedeclared e.1] else []
    .filesystemFound e.1 e.2.fsType :: again ++ mountEvents (seen.put e.1 e.2) es

def partitionEvents (p : Partition) : List Event :=
  match p.role with
  | .primary => [.partitionUnsized p.mount, .partitionPlanned p]
  | _ => [.partitionPlanned p]

def Scheme.events (mounts : Mounts) : List Event :=
  (mounts.entries.flatMap fun e => partitionEvents (classify e.1 e.2)) ++
    [.schemeInferred (Scheme.infer mounts).type]

def documentEvents (t : Text) : List Event :=
  (declarations filesystemsAttribute true t).filterMap (Declaration.event? filesystemsAttribute) ++
    mountEvents .empty ((filesystemBlocks t).map fun b => (b.1, Entry.ofBlock b.2)) ++
    (Loader.detect t).toList.map .loaderFound ++
    (importedProfiles t).map .profileFound ++
    Scheme.events (.ofText t)

end MachineFacts
