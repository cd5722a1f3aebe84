import MachineFacts.Files
import MachineFacts.Quoted
import MachineFacts.Run
import MachineFacts.Toml.Document

/-! Where a repository keeps the documents of its hosts. A settings file may replace either of
the two defaults and must hold nothing else. -/

namespace MachineFacts

structure Settings where
  /-- Templates of the paths at which a host's document may be, best first. -/
  candidates : List Text
  hostsDir : Text
  deriving Repr, DecidableEq

def Settings.default : Settings where
  candidates :=
    ["hosts/\x7bhost\x7d/nixos/hardware-configuration.nix",
     "hosts/\x7bhost\x7d/hardware-configuration.nix",
     "hosts/\x7bhost\x7d/hardware.nix"]
  hostsDir := "hosts"

def settingsFile : Text := "hwconfig.toml"

/-- The template with the host for each `{host}` in it; the host itself is not expanded. -/
def expandHost (host : Text) : Text → Text
  | '\x7b' :: 'h' :: 'o' :: 's' :: 't' :: '\x7d' :: t => host ++ expandHost host t
  | c :: t => c :: expandHost host t
  | [] => []

def Settings.candidatePaths (s : Settings) (host : Text) : List Text :=
  s.candidates.map (expandHost host)

def TomlNumber.describe : TomlNumber → Text
  | .notANumber => "NaN"
  | .infinite negative => (if negative then "-" else "") ++ "inf"
  | .finite negative digits exponent =>
    let bits := (Float.ofScientific digits (exponent < 0) exponent.natAbs).toBits
    let numeral := (Binary.ofBits bits.toNat).shortest.numeral
    (if negative then "-" else "") ++ numeral ++ (if '.' ∈ numeral then "" else ".0")

def Toml.describe : Toml → Text
  | .text t => "string " ++ spellText t
  | .integer n => "integer `" ++ (if n < 0 then "-" else "") ++ Text.ofNat n.natAbs ++ "`"
  | .float x => "floating point `" ++ x.describe ++ "`"
  | .truth b => "boolean `" ++ (if b then "true" else "false") ++ "`"
  | .array _ | .tables _ => "sequence"
  | .time | .table _ _ => "map"

def mistyped (value : Toml) (expected : Text) : Text :=
  "invalid type: " ++ value.describe ++ ", expected " ++ expected

def Toml.toText : Toml → Except Text Text
  | .text t => .ok t
  | value => .error (mistyped value "a string")

def Toml.toTexts : Toml → Except Text (List Text)
  | .array items => items.mapM Toml.toText
  | .tables items => items.mapM fun fields => (Toml.table .header fields).toText
  | value => .error (mistyped value "a sequence")

def Settings.assign (s : Settings) : Text × Toml → Except Text Settings
  | (key, value) =>
    if key = "candidates".toList then value.toTexts.map fun ts => { s with candidates := ts }
    else if key = "hosts_dir".toList then value.toText.map fun t => { s with hostsDir := t }
    else .error ("unknown field `" ++ key ++ "`, expected `candidates` or `hosts_dir`")

/-- The settings of a file, or what is wrong with it. The first wrong field is the one named. -/
def Settings.ofText (t : Text) : Except Text Settings :=
  match parseToml t with
  | none => .error "not a TOML document"
  | some fields => fields.foldlM Settings.assign .default

/-- The settings at a path, or the defaults if there is nothing. -/
def Settings.loadFrom (files : Files) (path : Path) : Run Settings :=
  if files.isPresent path then
    match files.readText path with
    | .error cause => .fail (.settings (.unreadable path.shown cause))
    | .ok t =>
      match Settings.ofText t with
      | .error message => .fail (.settings (.invalid path.shown message))
      | .ok s => ⟨[.settingsLoaded path.shown], .ok s⟩
  else .ok .default

def Settings.load (files : Files) (root : Path) : Run Settings :=
  Settings.loadFrom files (joinPath root (bytes settingsFile))

end MachineFacts
