import MachineFacts.Command
import MachineFacts.Snapshot

/-! The command line. Looks at the settings, then at the paths that a request may need, and
writes what the program makes of them. -/

namespace MachineFacts

/-- The number of a system error, which may be given with its sign turned. What has none is an
error of the device. -/
def errorNumber : IO.Error → Nat
  | .alreadyExists _ n _ | .invalidArgument _ n _ | .permissionDenied _ n _
  | .resourceExhausted _ n _ | .inappropriateType _ n _ | .noSuchThing _ n _
  | .interrupted _ n _ | .noFileOrDirectory _ n _ | .otherError n _ | .resourceBusy n _
  | .resourceVanished n _ | .unsupportedOperation n _ | .hardwareFault n _
  | .unsatisfiedConstraints n _ | .illegalOperation n _ | .protocolError n _
  | .timeExpired n _ => min n.toNat (Nat.pow 2 32 - n.toNat)
  | .unexpectedEof | .userError _ => 5

def readContent (path : String) : IO (Except ReadFailure ByteArray) := do
  try
    return .ok (← IO.FS.readBinFile path)
  catch e =>
    return .error (.system (errorNumber e))

def kindOf : IO.FS.FileType → FileKind
  | .dir => .directory
  | .symlink => .link
  | .file | .other => .regular

/-- A place in the directory tree, without a name below it. -/
def placeAt (path : String) : IO.FS.DirEntry := ⟨path, ""⟩

def readEntries (path : String) : IO (Option (List (FileName × FileKind))) := do
  try
    let entries ← (placeAt path).root.readDir
    let seen ← entries.toList.mapM fun entry => do
      let info ← entry.path.symlinkMetadata
      return (bytes entry.fileName.toList, kindOf info.type)
    return some seen
  catch _ =>
    return none

def look (path : Path) : IO Sighting := do
  if 0 ∈ path then return { Sighting.nothing with content := .error .nulInPath }
  if path = [] then return .nothing
  -- arguments, settings and entries come as text, and no other path can be asked for
  let some text := text? path | return .nothing
  let name := String.ofList text
  let kind ← try
      pure (some (← (placeAt name).root.metadata).type)
    catch _ =>
      pure none
  return ⟨kind.isSome, kind == some .file, ← readContent name, ← readEntries name⟩

def lookAll (paths : List Path) : IO Snapshot :=
  paths.mapM fun path => return (path, ← look path)

/-- The files that matter to a request. -/
def lookFor (r : Request) : IO Files := do
  let seen ← lookAll [joinPath r.directory (bytes settingsFile)]
  match (Settings.load seen.files r.directory).result with
  | .error _ => return seen.files
  | .ok s => return (seen ++ (← lookAll (r.paths s))).files

def start (arguments : List Bytes) : IO UInt32 := do
  let log ← IO.getEnv "HWCONFIG_LOG"
  let errors ← IO.getStderr
  let files ← match readArguments arguments with
    | .ok r => lookFor r
    | .error _ => pure (Snapshot.files [])
  let outcome := runProgram files (log.map String.toList) (← errors.isTty) arguments
  errors.putStr (String.ofList outcome.errors)
  (← IO.getStdout).putStr (String.ofList outcome.output)
  return outcome.code.toUInt32

end MachineFacts

def main (arguments : List String) : IO UInt32 :=
  MachineFacts.start (arguments.map fun a => MachineFacts.bytes a.toList)
