import MachineFacts.Files

/-! File trees with symbolic links, and how a path is followed in one. -/

namespace MachineFacts

instance (priority := high) decidableEqBytes : DecidableEq ByteArray := ByteArray.instDecidableEq

inductive Node where
  | file (content : ByteArray)
  | directory
  | link (target : Path)
  deriving DecidableEq

def Node.kind : Node → FileKind
  | .file _ => .regular
  | .directory => .directory
  | .link _ => .link

/-- The names on the way to a place in the tree, innermost first; the root has none. -/
abbrev Location := List FileName

structure Tree where
  nodes : List (Location × Node)
  distinct : (nodes.map Prod.fst).Nodup

def Tree.empty : Tree := ⟨[], List.nodup_nil⟩

def Tree.node? (tree : Tree) (here : Location) : Option Node :=
  if here = [] then some .directory else tree.nodes.lookup here

def maxLinks : Nat := 40

def maxNameBytes : Nat := 255

def maxPathBytes : Nat := 4095

/-- Follows `parts` from `here`, through at most `links` links. Every part, also one
that is empty or a dot, must be taken from a directory. -/
def Tree.walk (tree : Tree) (links : Nat) (here : Location) (node : Node) :
    List Bytes → Except ReadFailure (Location × Node)
  | [] => .ok (here, node)
  | part :: parts =>
    if node.kind ≠ .directory then .error .notADirectory
    else if part = [] ∨ part = bytes "." then tree.walk links here node parts
    else if part = bytes ".." then tree.walk links here.tail .directory parts
    else if part.length > maxNameBytes then .error .nameTooLong
    else
      match tree.node? (part :: here) with
      | none => .error .notFound
      | some (.link target) =>
        match links with
        | 0 => .error .tooManyLinks
        | links + 1 =>
          tree.walk links (if isAbsolute target then [] else here) .directory
            (pathParts target ++ parts)
      | some node => tree.walk links (part :: here) node parts
termination_by parts => (links, parts.length)

def Tree.resolve (tree : Tree) (cwd : Location) (path : Path) :
    Except ReadFailure (Location × Node) :=
  if 0 ∈ path then .error .nulInPath
  else if path = [] then .error .notFound
  else if path.length > maxPathBytes then .error .nameTooLong
  else tree.walk maxLinks (if isAbsolute path then [] else cwd) .directory (pathParts path)

def Tree.read (tree : Tree) (cwd : Location) (path : Path) : Except ReadFailure ByteArray :=
  match tree.resolve cwd path with
  | .error e => .error e
  | .ok (_, .file content) => .ok content
  | .ok (_, _) => .error .isADirectory

def Tree.children (tree : Tree) (dir : Location) : List (FileName × FileKind) :=
  tree.nodes.filterMap fun
    | ([], _) => none
    | (name :: here, node) => if here = dir then some (name, node.kind) else none

def Tree.entries (tree : Tree) (cwd : Location) (path : Path) :
    Option (List (FileName × FileKind)) :=
  match tree.resolve cwd path with
  | .ok (dir, .directory) => some (tree.children dir)
  | _ => none

/-- The tree as a program sees it that runs in the directory `cwd`. -/
def Tree.files (tree : Tree) (cwd : Location) : Files where
  read := tree.read cwd
  isPresent path := (tree.resolve cwd path).toBool
  isRegular path :=
    match tree.resolve cwd path with
    | .ok (_, .file _) => true
    | _ => false
  entries := tree.entries cwd

def Tree.remove (tree : Tree) (here : Location) : Tree where
  nodes := tree.nodes.filter fun n => !here.isSuffixOf n.1
  distinct := tree.distinct.sublist (List.filter_sublist.map _)

def Tree.put (tree : Tree) (here : Location) (node : Node) : Tree where
  nodes := (here, node) :: (tree.nodes.filter fun n => n.1 ≠ here)
  distinct := by
    refine List.nodup_cons.mpr ⟨?_, tree.distinct.sublist (List.filter_sublist.map _)⟩
    simp

def Tree.enter (tree : Tree) (here : Location) (part : FileName) : Tree × Location :=
  match tree.walk maxLinks here .directory [part] with
  | .ok (found, _) => (tree, found)
  | .error _ => (tree.put (part :: here) .directory, part :: here)

def Tree.makeDirectory (tree : Tree) (here : Location) (parts : List Bytes) : Tree × Location :=
  parts.foldl (fun s part => s.1.enter s.2 part) (tree, here)

/-- The place that writing to `name` below `here` fills: behind links, even one that leads to
nothing yet. -/
def Tree.written (tree : Tree) : Nat → Location → FileName → Location
  | 0, here, name => name :: here
  | links + 1, here, name =>
    match tree.node? (name :: here) with
    | some (.link target) =>
      let start := if isAbsolute target then [] else here
      match tree.walk links start .directory (pathParts target).dropLast with
      | .ok (dir, .directory) => tree.written links dir ((pathParts target).getLastD [])
      | _ => name :: here
    | _ => name :: here

def Tree.place (tree : Tree) (here : Location) (parts : List Bytes) (node : Node) : Tree :=
  let (tree, dir) := tree.makeDirectory here parts.dropLast
  match parts.getLast? with
  | none => tree
  | some name => tree.put (tree.written maxLinks dir name) node

end MachineFacts
