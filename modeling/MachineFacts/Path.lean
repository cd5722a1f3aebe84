import MachineFacts.Utf8

/-! Paths as bytes, which need not be text. They are shown as they were put together, so joining
never normalises. -/

namespace MachineFacts

abbrev Path := Bytes

def slash : UInt8 := 47

def Path.shown (path : Path) : Text := decodeLossy path

def isAbsolute (path : Path) : Bool := path.head? == some slash

/-- An absolute path stands for itself below any directory; otherwise one slash separates the
two, and an empty directory adds nothing. -/
def joinPath (dir path : Path) : Path :=
  if isAbsolute path then path
  else if dir.isEmpty || dir.getLast? == some slash then dir ++ path
  else dir ++ slash :: path

/-- The parts between the slashes, empty ones included. -/
def pathParts (path : Path) : List Bytes := path.splitOn slash

end MachineFacts
