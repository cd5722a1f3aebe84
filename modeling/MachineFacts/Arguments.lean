import MachineFacts.Parameter
import MachineFacts.Path
import MachineFacts.Similarity

/-! Reading the command line, whose arguments are bytes. An option's value is taken from the next
argument whatever that looks like, unless it is an option itself; the value is checked only when
the argument behind it is read, or at the end. Options before the subcommand are checked after it.
Only the names of hosts must be text. -/

namespace MachineFacts

inductive Suggestion where
  | none
  | here (p : Parameter)
  | behind (s : Scope) (p : Parameter)
  deriving Repr, DecidableEq

inductive UsageError where
  | unknownLong (s : Scope) (name : Text) (used : List Parameter) (suggestion : Suggestion)
  | unknownShort (s : Scope) (name : Text)
  | unexpected (s : Scope) (argument : Text)
  | escapedSubcommand (name : Text)
  | unknownSubcommand (s : Scope) (name : Text) (similar : List Text)
  | missingSubcommand
  | missingHost (used : List Parameter)
  | repeated (s : Scope) (p : Parameter)
  | missingValue (p : Parameter)
  | notUtf8 (s : Scope)
  | excessValue (s : Scope) (p : Parameter) (value : Text) (used : List Parameter)
  deriving Repr, DecidableEq

inductive Halt where
  | help (s : Scope)
  | version
  | nothing
  | refused (e : UsageError)
  deriving Repr, DecidableEq

inductive Task where
  | parse (hosts : List Text) (files : List Path) (compact : Bool)
  | hosts
  | version
  deriving Repr, DecidableEq

structure Request where
  task : Task
  verbose : Bool
  root : Option Path
  deriving Repr, DecidableEq

structure Given where
  hosts : List Text
  files : List Path
  compact : Bool
  verbose : Bool
  root : Option Path
  used : List Parameter
  /-- A parameter that is not checked yet, with its values so far. -/
  pending : Option (Parameter × List Bytes)
  escaped : Bool

def Given.start : Given := ⟨[], [], false, false, none, [], none, false⟩

def addUsed (p : Parameter) (used : List Parameter) : List Parameter :=
  if p ∈ used then used else used ++ [p]

def Given.store (s : Scope) (g : Given) (p : Parameter) (values : List Bytes) :
    Except Halt Given :=
  let used := addUsed p g.used
  match p, values with
  | .host, values =>
    match values.mapM text? with
    | none => .error (.refused (.notUtf8 s))
    | some hosts => .ok { g with hosts := g.hosts ++ hosts, used := used }
  | .file, [value] =>
    if value = [] then .error (.refused (.missingValue p))
    else .ok { g with files := g.files ++ [value], used := used }
  | .root, [value] =>
    if p ∈ g.used then .error (.refused (.repeated s p))
    else if value = [] then .error (.refused (.missingValue p))
    else .ok { g with root := some value, used := used }
  | _, _ => .error (.refused (.missingValue p))

def Given.settle (s : Scope) (g : Given) : Except Halt Given :=
  match g.pending with
  | none => .ok g
  | some (p, values) => { g with pending := none }.store s p values

/-- The parameters used when what is pending counts too, right or wrong. -/
def Given.touched (g : Given) : List Parameter :=
  match g.pending with
  | none | some (_, []) => g.used
  | some (.root, _) => if .root ∈ g.used then g.used.erase .root else g.used ++ [.root]
  | some (p, _) => addUsed p g.used

def Given.awaitsValue (g : Given) : Bool :=
  match g.pending with
  | some (_, []) => true
  | _ => false

def Given.mark (s : Scope) (g : Given) (p : Parameter) : Except Halt Given := do
  let g ← g.settle s
  match p with
  | .help => .error (.help s)
  | .version => .error .version
  | _ =>
    if p ∈ g.used then .error (.refused (.repeated s p))
    else if p = .verbose then .ok { g with verbose := true, used := g.used ++ [p] }
    else .ok { g with compact := true, used := g.used ++ [p] }

def Given.option (s : Scope) (g : Given) (p : Parameter) (value : Option Bytes) :
    Except Halt Given := do
  let g ← g.settle s
  match value with
  | none => .ok { g with pending := some (p, []) }
  | some value => g.store s p [value]

def Scope.named? (s : Scope) (argument : Bytes) : Option Scope :=
  (text? argument).bind s.subcommand?

/-- The parameter behind an unknown name: one of this scope, or else one of the subcommand that
is named first. -/
def suggest (s : Scope) (name : Text) (rest : List Bytes) : Suggestion :=
  match (similarNames name s.longNames).getLast?.bind s.long? with
  | some p => .here p
  | none =>
    let named := s.subcommands.filterMap fun sub =>
      match (similarNames name sub.longNames).getLast?.bind sub.long? with
      | none => none
      | some p => if rest.contains (bytes sub.name) then some (sub, p) else none
    match named.mergeSort fun a b => rest.idxOf (bytes a.1.name) ≤ rest.idxOf (bytes b.1.name) with
    | [] => .none
    | (sub, p) :: _ => .behind sub p

def equals : UInt8 := 61

def Given.long (s : Scope) (g : Given) (body : Bytes) (rest : List Bytes) : Except Halt Given :=
  let (name, value) :=
    match body.span (· ≠ equals) with
    | (name, []) => (name, none)
    | (name, _ :: value) => (name, some value)
  match (text? name).bind s.long? with
  | some p =>
    match p.valueName, value with
    | some _, value => g.option s p value
    | none, none => g.mark s p
    | none, some value => .error (.refused (.excessValue s p (decodeLossy value) g.used))
  | none =>
    let name := decodeLossy name
    .error (.refused (.unknownLong s name g.touched (suggest s name rest)))

/-- Options of one character, and behind them bytes that are no text. The first that takes a value
takes the rest for it, with or without an equals sign. -/
def Given.shorts (s : Scope) (g : Given) (rest : Bytes) : Text → Except Halt Given
  | [] => if rest = [] then .ok g else .error (.refused (.unknownShort s (decodeLossy rest)))
  | c :: t =>
    match s.short? c with
    | none => .error (.refused (.unknownShort s [c]))
    | some p =>
      if p.valueName = none then do (← g.mark s p).shorts s rest t
      else
        match bytes t ++ rest with
        | [] => g.option s p none
        | b :: value => g.option s p (some (if b = equals then value else b :: value))

def Given.positional (s : Scope) (g : Given) (argument : Bytes) : Except Halt Given :=
  if s.takesHosts then
    match g.pending with
    | some (.host, hosts) => .ok { g with pending := some (.host, hosts ++ [argument]) }
    | _ => do
      let g ← g.settle s
      .ok { g with pending := some (.host, [argument]) }
  else if s = .program then
    let name := decodeLossy argument
    if g.escaped && (s.named? argument).isSome then .error (.refused (.escapedSubcommand name))
    else
      .error (.refused
        (.unknownSubcommand s name (similarNames name (s.subcommands.map Scope.name))))
  else .error (.refused (.unexpected s (decodeLossy argument)))

def hyphen : UInt8 := 45

def Given.value (s : Scope) (g : Given) (value : Bytes) : Except Halt Given :=
  match g.pending with
  | some (p, []) => .ok { g with pending := some (p, [value]) }
  | _ => g.positional s value

def Given.argument (s : Scope) (g : Given) (argument : Bytes) (rest : List Bytes) :
    Except Halt Given :=
  match argument with
  | a :: b :: body =>
    if a ≠ hyphen then g.value s argument
    else if b = hyphen then g.long s body rest
    else
      let (names, more) := textStart (b :: body)
      g.shorts s more names
  | value => g.value s value

def readScope (s : Scope) (g : Given) :
    List Bytes → Except Halt (Given × Option (Scope × List Bytes))
  | [] => .ok (g, none)
  | argument :: rest =>
    if g.escaped then do readScope s (← g.positional s argument) rest
    else
      match if g.awaitsValue then none else s.named? argument with
      | some sub => .ok (g, some (sub, rest))
      | none =>
        if argument = bytes "--" then readScope s { g with escaped := true } rest
        else do readScope s (← g.argument s argument rest) rest

def helpOn (s : Scope) : List Bytes → Halt
  | [] => .help s
  | name :: names =>
    match s.named? name with
    | none => .refused (.unknownSubcommand s (decodeLossy name) [])
    | some sub => helpOn sub names

def Given.finish (s : Scope) (g : Given) : Except Halt Given := do
  let g ← g.settle s
  if s.takesHosts && !g.used.contains .host && !g.used.contains .file then
    .error (.refused (.missingHost g.used))
  else .ok g

def Given.task (s : Scope) (g : Given) : Task :=
  match s with
  | .parse => .parse g.hosts g.files g.compact
  | .hosts => .hosts
  | _ => .version

/-- Reads the arguments behind the program's name. Options may stand on both sides of the
subcommand; of two roots the later counts. -/
def readArguments (arguments : List Bytes) : Except Halt Request := do
  let (outer, sub) ← readScope .program .start arguments
  match sub with
  | none =>
    let outer ← outer.settle .program
    .error (if outer.used = [] then .nothing else .refused .missingSubcommand)
  | some (.help, names) => .error (helpOn .program names)
  | some (s, rest) =>
    let (inner, _) ← readScope s .start rest
    let inner ← inner.finish s
    let outer ← outer.settle .program
    return ⟨inner.task s, outer.verbose || inner.verbose, inner.root <|> outer.root⟩

end MachineFacts
