import MachineFacts.Arguments
import MachineFacts.ControlSequence

/-! Help screens, and what is said about a wrong command line. -/

namespace MachineFacts

def Scope.about : Scope → Text
  | .program =>
    "Extract filesystems, boot settings and partition layouts from NixOS hardware configurations"
  | .parse => "Parse hardware configurations and print the result as JSON"
  | .hosts => "List hosts that have a configuration directory"
  | .version => "Print version information"
  | .help => "Print this message or the help of the given subcommand(s)"

def Parameter.about : Parameter → Text
  | .host => "Host names to resolve under the repository root"
  | .file => "Parse an explicit file instead of (or in addition to) a host"
  | .compact => "Emit compact single-line JSON"
  | .verbose => "Enable verbose output"
  | .root => "Repository root containing `hosts/` (defaults to the current directory)"
  | .help => "Print help"
  | .version => "Print version"

def joinWords (separator : Text) (words : List Text) : Text := separator.intercalate words

def Parameter.form (p : Parameter) : Text :=
  match p.long, p.valueName with
  | none, some value => "<" ++ value ++ ">..."
  | some long, some value => "--" ++ long ++ " <" ++ value ++ ">"
  | some long, none => "--" ++ long
  | none, none => []

def Parameter.alternative (p : Parameter) : Text :=
  match p.long, p.valueName with
  | none, some value => value
  | _, _ => p.form

def Scope.command (s : Scope) : Text :=
  match s.name with
  | [] => programName
  | name => programName ++ " " ++ name

def Scope.usage (s : Scope) : Text :=
  "Usage: " ++ s.command ++
    match s with
    | .program => " [OPTIONS] <COMMAND>"
    | .parse => " [OPTIONS] [HOST]..."
    | .hosts | .version => " [OPTIONS]"
    | .help => " [COMMAND]..."

/-- Parameters of which any stands for all in the usage that is shown for a wrong value. -/
def Scope.alternatives : Scope → List Parameter
  | .program => [.root]
  | .parse => [.host, .file, .compact]
  | _ => []

def Scope.alternativesTo (s : Scope) (used : List Parameter) : List Parameter :=
  if s.alternatives.any used.contains then s.alternatives else []

/-- The usage with the parameters that are given, of which those in `grouped` are shown as
alternatives. -/
def Scope.usageWith (s : Scope) (given grouped : List Parameter) : Text :=
  let single := given.filter fun p => !grouped.contains p
  let group :=
    if grouped = [] then []
    else ["<" ++ joinWords "|" (grouped.map Parameter.alternative) ++ ">"]
  let hosts : List Text :=
    if !s.takesHosts || grouped.contains .host then []
    else if single.contains .host then [Parameter.host.form]
    else ["[HOST]..."]
  let subcommand := if s = .program then ["<COMMAND>".toList] else []
  if given = [] then s.usage
  else
    "Usage: " ++ joinWords " "
      (s.command :: (single.filter (· ≠ .host)).map Parameter.form ++ group ++ hosts ++ subcommand)

def quote (t : Text) : Text := "'" ++ t ++ "'"

/-- What was given, as far as it is shown; a sequence in it that never ends stops there. -/
def quoteGiven (t : Text) : Text := quote (shown t)

def UsageError.text : UsageError → Text
  | .unknownLong _ name _ _ => "unexpected argument " ++ quoteGiven ("--" ++ name) ++ " found"
  | .unknownShort _ name => "unexpected argument " ++ quoteGiven ("-" ++ name) ++ " found"
  | .unexpected _ argument | .escapedSubcommand argument =>
    "unexpected argument " ++ quoteGiven argument ++ " found"
  | .unknownSubcommand _ name _ => "unrecognized subcommand " ++ quoteGiven name
  | .missingSubcommand =>
    quote programName ++ " requires a subcommand but one was not provided\n  [subcommands: " ++
      joinWords ", " (subcommands.map Scope.name) ++ "]"
  | .missingHost _ =>
    "the following required arguments were not provided:\n  " ++ Parameter.host.form
  | .repeated _ p => "the argument " ++ quote p.form ++ " cannot be used multiple times"
  | .missingValue p => "a value is required for " ++ quote p.form ++ " but none was supplied"
  | .notUtf8 _ => "invalid UTF-8 was detected in one or more arguments"
  | .excessValue _ p value _ =>
    "unexpected value " ++ quoteGiven value ++ " for " ++ quote p.form ++
      " found; no more were expected"

def Scope.escapeTip (s : Scope) (argument : Text) : List Text :=
  if s.takesHosts then
    ["to pass " ++ quoteGiven argument ++ " as a value, use " ++ quoteGiven ("-- " ++ argument)]
  else []

def UsageError.tips : UsageError → List Text
  | .unknownLong s name _ .none => s.escapeTip ("--" ++ name)
  | .unknownLong _ _ _ (.here p) =>
    ["a similar argument exists: " ++ quote ("--" ++ p.long.getD [])]
  | .unknownLong _ _ _ (.behind s p) =>
    [quote (s.name ++ " --" ++ p.long.getD []) ++ " exists"]
  | .unknownShort s name => s.escapeTip ("-" ++ name)
  | .escapedSubcommand name =>
    ["subcommand " ++ quote name ++ " exists; to use it, remove the '--' before it"]
  | .unknownSubcommand _ _ [] => []
  | .unknownSubcommand _ _ [name] => ["a similar subcommand exists: " ++ quote name]
  | .unknownSubcommand _ _ names =>
    ["some similar subcommands exist: " ++ joinWords ", " (names.map quote)]
  | _ => []

def UsageError.usage : UsageError → Option Text
  | .unknownLong s _ used (.here p) => some (s.usageWith (addUsed p used) [])
  | .unknownLong s _ used _ => some (s.usageWith used [])
  | .unknownShort s _ | .unexpected s _ | .unknownSubcommand s _ _ | .repeated s _ | .notUtf8 s =>
    some s.usage
  | .escapedSubcommand _ | .missingSubcommand => some Scope.program.usage
  | .missingHost used => some (Scope.parse.usageWith (addUsed .host used) [])
  | .missingValue _ => none
  | .excessValue s p _ used => some (s.usageWith (addUsed p used) (s.alternativesTo used))

/-- The help on subcommands takes no options, so it has no help on itself to offer. -/
def UsageError.offersHelp : UsageError → Bool
  | .unknownSubcommand .help _ _ => false
  | _ => true

def UsageError.message (e : UsageError) : Text :=
  let tips : Text := e.tips.flatMap fun tip => "\n  tip: ".toList ++ tip
  let usage : Text :=
    match e.usage with
    | none => []
    | some usage => "\n\n" ++ usage
  "error: " ++ e.text ++ (if tips = [] then tips else '\n' :: tips) ++ usage ++
    (if e.offersHelp then "\n\nFor more information, try '--help'.\n" else "\n")

def helpTable (title : Text) (rows : List (Text × Text)) : Text :=
  let width := (rows.map fun r => r.1.length).foldl max 0
  let row (r : Text × Text) : Text :=
    "  " ++ r.1 ++ List.replicate (width - r.1.length) ' ' ++ "  " ++ r.2 ++ "\n"
  "\n" ++ title ++ ":\n" ++ rows.flatMap row

def Scope.options (s : Scope) : List Parameter := s.parameters.filter (· ≠ .host)

def Parameter.cell (p : Parameter) : Text :=
  (match p.short with
  | some c => '-' :: c :: ", ".toList
  | none => "    ") ++ p.form

def Scope.arguments : Scope → List (Text × Text)
  | .parse => [("[HOST]...", Parameter.host.about)]
  | .help => [("[COMMAND]...", "Print help for the subcommand(s)")]
  | _ => []

def Scope.helpText (s : Scope) : Text :=
  let table (title : String) (rows : List (Text × Text)) :=
    if rows = [] then [] else helpTable title rows
  s.about ++ "\n\n" ++ s.usage ++ "\n" ++
    table "Commands" (s.subcommands.map fun sub => (sub.name, sub.about)) ++
    table "Arguments" s.arguments ++
    table "Options" (s.options.map fun p => (p.cell, p.about))

end MachineFacts
