import MachineFacts.Text

/-! What can be given on the command line: subcommands, and the parameters of each. -/

namespace MachineFacts

/-- Where arguments are read: before a subcommand, or behind one. -/
inductive Scope where
  | program
  | parse
  | hosts
  | version
  | help
  deriving Repr, DecidableEq

inductive Parameter where
  | host
  | file
  | compact
  | verbose
  | root
  | help
  | version
  deriving Repr, DecidableEq

def programName : Text := "hwconfig"

def Scope.name : Scope → Text
  | .program => []
  | .parse => "parse"
  | .hosts => "hosts"
  | .version => "version"
  | .help => "help"

def subcommands : List Scope := [.parse, .hosts, .version, .help]

def Scope.subcommands : Scope → List Scope
  | .program => MachineFacts.subcommands
  | _ => []

def Scope.subcommand? (s : Scope) (name : Text) : Option Scope :=
  s.subcommands.find? fun sub => sub.name = name

/-- The parameters in the order they are tried in. -/
def Scope.parameters : Scope → List Parameter
  | .program => [.verbose, .root, .help, .version]
  | .parse => [.host, .file, .compact, .verbose, .root, .help]
  | .hosts | .version => [.verbose, .root, .help]
  | .help => []

def Scope.takesHosts (s : Scope) : Bool := s.parameters.contains .host

def Parameter.long : Parameter → Option Text
  | .host => none
  | .file => some "file"
  | .compact => some "compact"
  | .verbose => some "verbose"
  | .root => some "root"
  | .help => some "help"
  | .version => some "version"

def Parameter.short : Parameter → Option Char
  | .host | .compact | .root => none
  | .file => some 'f'
  | .verbose => some 'v'
  | .help => some 'h'
  | .version => some 'V'

def Parameter.valueName : Parameter → Option Text
  | .host => some "HOST"
  | .file => some "PATH"
  | .root => some "ROOT"
  | _ => none

def Scope.longNames (s : Scope) : List Text := s.parameters.filterMap Parameter.long

def Scope.long? (s : Scope) (name : Text) : Option Parameter :=
  s.parameters.find? fun p => p.long = some name

def Scope.short? (s : Scope) (c : Char) : Option Parameter :=
  s.parameters.find? fun p => p.short = some c

end MachineFacts
