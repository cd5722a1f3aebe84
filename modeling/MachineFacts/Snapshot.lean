import MachineFacts.Files

/-! Files as they were seen at a number of paths. -/

namespace MachineFacts

/-- What was seen at one path, links followed. -/
structure Sighting where
  isPresent : Bool
  isRegular : Bool
  content : Except ReadFailure ByteArray
  entries : Option (List (FileName × FileKind))

def Sighting.nothing : Sighting := ⟨false, false, .error .notFound, none⟩

abbrev Snapshot := List (Path × Sighting)

def Snapshot.at (seen : Snapshot) (path : Path) : Sighting :=
  (seen.lookup path).getD .nothing

/-- Nothing is present at a path that was not looked at. -/
def Snapshot.files (seen : Snapshot) : Files where
  read path := (seen.at path).content
  isPresent path := (seen.at path).isPresent
  isRegular path := (seen.at path).isRegular
  entries path := (seen.at path).entries

end MachineFacts
