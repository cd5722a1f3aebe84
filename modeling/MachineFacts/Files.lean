import MachineFacts.Path
import MachineFacts.SystemError

/-! What the program asks of a file system. Commands are functions of these answers, which
must not change while a command runs. -/

namespace MachineFacts

abbrev FileName := Bytes

inductive FileKind where
  | regular
  | directory
  | link
  deriving Repr, DecidableEq

structure Files where
  /-- The bytes of the file, links followed. -/
  read : Path → Except ReadFailure ByteArray
  /-- Whether the path leads to anything, links followed. -/
  isPresent : Path → Bool
  /-- Whether the path leads to a regular file, links followed. -/
  isRegular : Path → Bool
  /-- The entries of a directory, each as it stands and in no particular order. -/
  entries : Path → Option (List (FileName × FileKind))

def Files.readText (files : Files) (path : Path) : Except ReadFailure Text :=
  match files.read path with
  | .error e => .error e
  | .ok bytes =>
    match String.fromUTF8? bytes with
    | none => .error .notUtf8
    | some s => .ok s.toList

end MachineFacts
