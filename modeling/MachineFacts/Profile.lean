import MachineFacts.Block

/-! Names of imported hardware profiles, taken from the first `imports = [ .. ];`. -/

namespace MachineFacts

def profilePath : Text := "inputs.nixos-hardware.nixosModules."

def isProfileChar (c : Char) : Bool := c.isAlphanum || c == '-' || c == '_'

/-- The names behind the occurrences of `profilePath`, from left to right, with duplicates. -/
def profileNames (t : Text) : List Text :=
  match _h : behind profilePath t with
  | none => []
  | some rest =>
    match rest.takeWhile isProfileChar with
    | [] => profileNames (rest.dropWhile isProfileChar)
    | name@(_ :: _) => name :: profileNames (rest.dropWhile isProfileChar)
termination_by t.length
decreasing_by
  all_goals
    have h1 := behind_length _h
    have h2 : (rest.dropWhile isProfileChar).length ≤ rest.length :=
      (List.dropWhile_suffix isProfileChar).length_le
    have h3 : 0 < profilePath.length := by decide
    omega

def importedProfiles (t : Text) : List Text :=
  match listBlock "imports" t with
  | none => []
  | some imports => profileNames imports

end MachineFacts
