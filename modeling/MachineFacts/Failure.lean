import MachineFacts.SystemError

/-! The errors of the program as causes, and their wording. Absent facts are not errors: only
loading, lookup and settings can fail. -/

namespace MachineFacts

inductive LoadError where
  | notFound (path : Text)
  | unreadable (path : Text) (cause : ReadFailure)
  deriving Repr, DecidableEq

inductive LookupError where
  | hostNotFound (host : Text) (available : List Text)
  deriving Repr, DecidableEq

inductive SettingsError where
  | invalid (file message : Text)
  | unreadable (path : Text) (cause : ReadFailure)
  deriving Repr, DecidableEq

inductive Failure where
  | load (e : LoadError)
  | lookup (e : LookupError)
  | settings (e : SettingsError)
  deriving Repr, DecidableEq

def LoadError.message : LoadError → Text
  | .notFound path => "Hardware config not found: " ++ path
  | .unreadable path cause => "IO error reading hardware config " ++ path ++ ": " ++ cause.message

def LookupError.message : LookupError → Text
  | .hostNotFound host _ => "No hardware configuration found for '" ++ host ++ "'"

def SettingsError.message : SettingsError → Text
  | .invalid file message => "Invalid TOML syntax in " ++ file ++ ": " ++ message
  | .unreadable path cause => "IO error reading settings file " ++ path ++ ": " ++ cause.message

/-- The error's own message and the messages of what caused it, outermost first. -/
def Failure.causes : Failure → List Text
  | .load e@(.unreadable _ cause) => [e.message, cause.message]
  | .load e => [e.message]
  | .lookup e => [e.message]
  | .settings e@(.unreadable _ cause) => [e.message, cause.message]
  | .settings e => [e.message]

def Failure.message : Failure → Text
  | .load e => "Load error: " ++ e.message
  | .lookup e => "Host lookup error: " ++ e.message
  | .settings e => "Settings error: " ++ e.message

def Failure.chain (f : Failure) : List Text := f.message :: f.causes

/-- The lines of one cause in a report: the first line after `label`, the others below it. -/
def indentCause (label : Text) (cause : Text) : Text :=
  label ++ cause.flatMap fun c =>
    if c = '\n' then '\n' :: List.replicate label.length ' ' else [c]

def numberedCauses (n : Nat) : List Text → Text
  | [] => []
  | cause :: causes =>
    '\n' :: indentCause (List.replicate (5 - (Text.ofNat n).length) ' ' ++ Text.ofNat n ++ ": ")
      cause ++ numberedCauses (n + 1) causes

def errorReport : List Text → Text
  | [] => []
  | message :: causes =>
    "Error: " ++ message ++
      (match causes with
      | [] => []
      | [cause] => "\n\nCaused by:\n" ++ indentCause "    " cause
      | causes => "\n\nCaused by:" ++ numberedCauses 0 causes) ++ "\n"

end MachineFacts
