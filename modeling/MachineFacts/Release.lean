import MachineFacts.Utf8

/-! The version that is built into a release, and what the build is told about it. -/

namespace MachineFacts

/-- What describing the checkout printed, and how that ended. -/
structure Description where
  output : List UInt8
  succeeded : Bool
  deriving Repr, DecidableEq

/-- A version that is set is taken as it is. Otherwise the description of the checkout is one, if
there is any. -/
def releaseVersion (set : Option Text) (description : Option Description) : Option Text :=
  match set, description with
  | some version, _ => some version
  | none, some ⟨output, true⟩ =>
    match trim (decodeLossy output) with
    | [] => none
    | version => some version
  | none, _ => none

def versionVariable : Text := "HWCONFIG_VERSION"

def releaseDirectives (set : Option Text) (description : Option Description) : Text :=
  (match releaseVersion set description with
  | none => []
  | some version => "cargo:rustc-env=" ++ versionVariable ++ "=" ++ version ++ "\n") ++
    "cargo:rerun-if-changed=.git/HEAD\n" ++ "cargo:rerun-if-changed=.git/refs/\n" ++
    "cargo:rerun-if-env-changed=" ++ versionVariable ++ "\n"

end MachineFacts
