import MachineFacts.Boot
import MachineFacts.Partition

/-! What the program reports while it works. An event is kept as what happened; its level, its
target and its wording are functions of that. -/

namespace MachineFacts

inductive Level where
  | error
  | warn
  | info
  | debug
  | trace
  deriving Repr, DecidableEq

/-- Larger for less urgent levels. -/
def Level.verbosity : Level → Nat
  | .error => 1
  | .warn => 2
  | .info => 3
  | .debug => 4
  | .trace => 5

def Level.name : Level → Text
  | .error => "ERROR"
  | .warn => "WARN"
  | .info => "INFO"
  | .debug => "DEBUG"
  | .trace => "TRACE"

/-- What hosts were looked for: to print them, or to find one of them. -/
inductive Purpose where
  | listing
  | lookup
  deriving Repr, DecidableEq

inductive Event where
  | blockUnterminated (attr key : Text)
  | filesystemFound (mount : Text) (fsType : Option Text)
  | filesystemRedeclared (mount : Text)
  | loaderFound (loader : Loader)
  | profileFound (name : Text)
  | partitionUnsized (mount : Text)
  | partitionPlanned (partition : Partition)
  | schemeInferred (type : SchemeType)
  | documentRead (path : Text) (bytes : Nat)
  | settingsLoaded (path : Text)
  | hostResolved (host path : Text)
  | hostsMissing (purpose : Purpose) (dir : Text)
  | hostsAvailable (names : List Text)
  | batchStarted (size : Nat)
  | documentSummary (source : Text) (filesystems : Nat) (type : SchemeType)
  deriving Repr, DecidableEq

def Event.level : Event → Level
  | .partitionUnsized _ | .hostsMissing _ _ => .warn
  | .hostsAvailable _ => .error
  | .batchStarted _ => .info
  | _ => .debug

def stageTarget : Text := "hwconfig::stage"

def libraryTarget : Text := "nixos_hwconfig"

def Event.target : Event → Text
  | .blockUnterminated _ _ => libraryTarget ++ "::parser::block"
  | .filesystemFound _ _ | .filesystemRedeclared _ => libraryTarget ++ "::parser::filesystems"
  | .loaderFound _ => libraryTarget ++ "::parser::boot"
  | .profileFound _ => libraryTarget ++ "::parser::hardware"
  | .partitionUnsized _ | .partitionPlanned _ | .schemeInferred _ =>
    libraryTarget ++ "::parser::partitions"
  | .documentRead _ _ => libraryTarget ++ "::parser"
  | .settingsLoaded _ => libraryTarget ++ "::settings"
  | .hostResolved _ _ => libraryTarget ++ "::hosts"
  | .batchStarted _ => stageTarget
  | .hostsMissing .listing _ => libraryTarget ++ "::commands::hosts"
  | .hostsMissing .lookup _ | .hostsAvailable _ | .documentSummary _ _ _ =>
    libraryTarget ++ "::commands::parse"

def Event.message : Event → Text
  | .blockUnterminated attr key => "unterminated " ++ attr ++ " block for " ++ key
  | .filesystemFound mount fsType => "filesystem " ++ mount ++ ": type " ++ fsType.getD "-"
  | .filesystemRedeclared mount =>
    "filesystem " ++ mount ++ " declared again; keeping the later block"
  | .loaderFound loader => "boot loader: " ++ loader.name
  | .profileFound name => "hardware module: " ++ name
  | .partitionUnsized mount => "no partition rule for " ++ mount ++ "; sizing it at 0 MB"
  | .partitionPlanned p =>
    "partition " ++ p.mount ++ ": " ++ p.role.name ++ ", " ++ p.size.describe ++ ", " ++ p.fsType
  | .schemeInferred type => "partition scheme: " ++ type.name
  | .documentRead path bytes => "parsing " ++ path ++ " (" ++ Text.ofNat bytes ++ " bytes)"
  | .settingsLoaded path => "loaded settings from " ++ path
  | .hostResolved host path => "host " ++ host ++ " -> " ++ path
  | .hostsMissing _ dir => "no hosts found under " ++ dir
  | .hostsAvailable names => "available hosts: " ++ ", ".toList.intercalate names
  | .batchStarted size => "Parsing " ++ Text.ofNat size ++ " hardware configuration(s)"
  | .documentSummary source filesystems type =>
    source ++ ": " ++ Text.ofNat filesystems ++ " filesystems, scheme " ++ type.name

end MachineFacts
