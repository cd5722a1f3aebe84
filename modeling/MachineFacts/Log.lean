import MachineFacts.Directive

/-! The log on the console: which events are shown, and how. -/

namespace MachineFacts

structure LogRecord where
  level : Level
  target : Text
  /-- The names under which something is recorded. -/
  fields : List Text
  message : Text
  deriving Repr, DecidableEq

def Event.logRecord (e : Event) : LogRecord := ⟨e.level, e.target, ["message"], e.message⟩

def Directive.covers (d : Directive) (r : LogRecord) : Bool :=
  d.target.isPrefixOf r.target && d.field.all r.fields.contains

abbrev LogFilter := List Directive

/-- The first-ranking directive that covers an event, and the later of two that rank alike. -/
def LogFilter.governing (filter : LogFilter) (r : LogRecord) : Directive :=
  filter.foldl (fun best d => if d.covers r && !best.outranks d then d else best) ⟨[], none, none⟩

def LogFilter.shows (filter : LogFilter) (r : LogRecord) : Bool :=
  match (filter.governing r).limit with
  | none => false
  | some limit => r.level.verbosity ≤ limit.verbosity

/-- The filter for the value of the log variable. Without one, or with one that is not a list of
directives, everything down to a level is shown, which is lower if `verbose`. -/
def LogFilter.ofVariable (verbose : Bool) (value : Option Text) : LogFilter :=
  (value.bind readDirectives).getD [⟨[], none, some (if verbose then .debug else .info)⟩]

def paint (colored : Bool) (code text : Text) : Text :=
  if colored then "\x1b[" ++ code ++ "m" ++ text ++ "\x1b[0m" else text

def LogRecord.line (colored : Bool) (r : LogRecord) : Text :=
  match r.level with
  | .error => paint colored "31" "ERROR" ++ " " ++ r.message
  | .warn => paint colored "33" "WARN" ++ "  " ++ r.message
  | .info =>
    if r.target = stageTarget then
      paint colored "1;34" "==>" ++ " " ++ paint colored "1" r.message
    else "  " ++ r.message
  | .debug | .trace => "  " ++ paint colored "2" r.message

def LogFilter.lines (filter : LogFilter) (colored : Bool) (rs : List LogRecord) : Text :=
  (rs.filter filter.shows).flatMap fun r => r.line colored ++ "\n"

end MachineFacts
