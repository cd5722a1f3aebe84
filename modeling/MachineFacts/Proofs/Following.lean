import MachineFacts.Tree

/-! How a path is followed. One part after another is taken from the place that was reached, and a
link is followed first, so a path that leads anywhere leads somewhere with each of its
beginnings. -/

namespace MachineFacts

theorem Node.kind_eq_directory_iff {node : Node} : node.kind = .directory ↔ node = .directory := by
  cases node <;> simp [Node.kind]

/-- A part of a path that is looked up as a name. -/
structure IsEntryName (part : FileName) : Prop where
  not_here : ¬ (part = [] ∨ part = bytes ".")
  not_up : part ≠ bytes ".."
  short : part.length ≤ maxNameBytes

/-- What one part of a path does to the links that may still be followed and to the place in a
directory, and the parts of the link that come before the rest of the path. -/
inductive Tree.Step (tree : Tree) (links : Nat) (here : Location) (part : FileName) :
    Nat → Location → Node → List Bytes → Prop where
  | stay : part = [] ∨ part = bytes "." → Step tree links here part links here .directory []
  | up : part = bytes ".." → Step tree links here part links here.tail .directory []
  | entry {node : Node} : IsEntryName part → tree.node? (part :: here) = some node →
      (∀ target, node ≠ .link target) →
      Step tree links here part links (part :: here) node []
  | link {left : Nat} {target : Path} : IsEntryName part → links = left + 1 →
      tree.node? (part :: here) = some (.link target) →
      Step tree links here part left (if isAbsolute target then [] else here) .directory
        (pathParts target)

theorem Tree.Step.walk {tree : Tree} {links left : Nat} {here dir : Location} {part : FileName}
    {next : Node} {lead : List Bytes} (h : tree.Step links here part left dir next lead)
    (parts : List Bytes) :
    tree.walk links here .directory (part :: parts) = tree.walk left dir next (lead ++ parts) := by
  have hdir : ¬ Node.directory.kind ≠ .directory := fun hne => hne rfl
  cases h with
  | stay hpart => rw [Tree.walk, if_neg hdir, if_pos hpart, List.nil_append]
  | up hpart =>
    have hnot : ¬ (bytes ".." = [] ∨ bytes ".." = bytes ".") := by decide
    rw [hpart, Tree.walk, if_neg hdir, if_neg hnot, if_pos rfl, List.nil_append]
  | entry hname hnode hlink =>
    rw [Tree.walk, if_neg hdir, if_neg hname.not_here, if_neg hname.not_up,
      if_neg (Nat.not_lt.mpr hname.short), hnode, List.nil_append]
    cases next with
    | link target => exact absurd rfl (hlink target)
    | file content => rfl
    | directory => rfl
  | link hname hlinks hnode =>
    rw [Tree.walk, if_neg hdir, if_neg hname.not_here, if_neg hname.not_up,
      if_neg (Nat.not_lt.mpr hname.short), hnode, hlinks]

theorem Tree.exists_step {tree : Tree} {links : Nat} {here : Location} {node : Node}
    {part : FileName} {parts : List Bytes} {r : Location × Node}
    (h : tree.walk links here node (part :: parts) = .ok r) :
    node = .directory ∧
      ∃ left dir next lead, tree.Step links here part left dir next lead := by
  rw [Tree.walk] at h
  by_cases hdir : node.kind ≠ .directory
  · rw [if_pos hdir] at h
    cases h
  · refine ⟨Node.kind_eq_directory_iff.mp (Decidable.not_not.mp hdir), ?_⟩
    rw [if_neg hdir] at h
    by_cases hhere : part = [] ∨ part = bytes "."
    · exact ⟨_, _, _, _, .stay hhere⟩
    · rw [if_neg hhere] at h
      by_cases hup : part = bytes ".."
      · exact ⟨_, _, _, _, .up hup⟩
      · rw [if_neg hup] at h
        by_cases hlong : part.length > maxNameBytes
        · rw [if_pos hlong] at h
          cases h
        · have hname : IsEntryName part := ⟨hhere, hup, Nat.not_lt.mp hlong⟩
          rw [if_neg hlong] at h
          cases hentry : tree.node? (part :: here) with
          | none => simp [hentry] at h
          | some next =>
            cases next with
            | link target =>
              cases links with
              | zero => simp [hentry] at h
              | succ left => exact ⟨_, _, _, _, .link hname rfl hentry⟩
            | file content => exact ⟨_, _, _, _, .entry hname hentry (by simp)⟩
            | directory => exact ⟨_, _, _, _, .entry hname hentry (by simp)⟩

theorem Tree.Step.decreases {tree : Tree} {links left : Nat} {here dir : Location} {part : FileName}
    {next : Node} {lead : List Bytes} (h : tree.Step links here part left dir next lead) :
    left < links ∨ left = links ∧ lead = [] := by
  cases h with
  | stay => exact .inr ⟨rfl, rfl⟩
  | up => exact .inr ⟨rfl, rfl⟩
  | entry => exact .inr ⟨rfl, rfl⟩
  | link hname hlinks => exact .inl (by omega)

/-- A path is followed through its beginning and from there through the rest. -/
theorem Tree.walk_append {tree : Tree} {links : Nat} {here : Location} {node : Node}
    {xs ys : List Bytes} {r : Location × Node}
    (h : tree.walk links here node (xs ++ ys) = .ok r) :
    ∃ left dir stop, tree.walk links here node xs = .ok (dir, stop) ∧
      tree.walk left dir stop ys = .ok r := by
  -- behind a link fewer links are left, behind anything else fewer parts
  induction links using Nat.strongRecOn generalizing here node xs with
  | _ links ihlinks =>
    induction xs generalizing here node with
    | nil => exact ⟨links, here, node, by rw [Tree.walk], h⟩
    | cons part xs ihparts =>
      obtain ⟨rfl, left, dir, next, lead, hstep⟩ := Tree.exists_step h
      rw [List.cons_append, hstep.walk, ← List.append_assoc] at h
      have hbegin : ∃ rest place stop, tree.walk left dir next (lead ++ xs) = .ok (place, stop) ∧
          tree.walk rest place stop ys = .ok r := by
        rcases hstep.decreases with hlt | ⟨rfl, rfl⟩
        · exact ihlinks left hlt h
        · exact ihparts h
      rw [← hstep.walk] at hbegin
      exact hbegin

theorem pathParts_append (dir rest : Path) :
    pathParts (dir ++ slash :: rest) = pathParts dir ++ pathParts rest :=
  List.splitOn_append_cons_self ..

theorem pathParts_of_not_mem {name : FileName} (h : slash ∉ name) : pathParts name = [name] :=
  List.splitOn_eq_singleton h

theorem pathParts_ne_nil (path : Path) : pathParts path ≠ [] := List.splitOn_ne_nil _ _

theorem isAbsolute_append {path : Path} (h : path ≠ []) (rest : Path) :
    isAbsolute (path ++ rest) = isAbsolute path := by
  obtain ⟨c, path, rfl⟩ := List.exists_cons_of_ne_nil h
  rfl

theorem joinPath_append (dir : Path) {path : Path} (h : path ≠ []) (rest : Path) :
    joinPath dir (path ++ rest) = joinPath dir path ++ rest := by
  unfold joinPath
  rw [isAbsolute_append h]
  split
  · rfl
  · split
    · rw [List.append_assoc]
    · rw [List.append_assoc, List.cons_append]

theorem joinPath_ne_nil (dir : Path) {path : Path} (h : path ≠ []) : joinPath dir path ≠ [] := by
  unfold joinPath
  split
  · exact h
  · split
    · simp [h]
    · simp

theorem Tree.resolve_append {tree : Tree} {cwd : Location} {path rest : Path}
    {r : Location × Node} (hpath : path ≠ [])
    (h : tree.resolve cwd (path ++ slash :: rest) = .ok r) :
    ∃ left dir stop, tree.resolve cwd path = .ok (dir, stop) ∧
      tree.walk left dir stop (pathParts rest) = .ok r := by
  unfold Tree.resolve at h ⊢
  by_cases hnul : 0 ∈ path ++ slash :: rest
  · rw [if_pos hnul] at h
    cases h
  · have hne : path ++ slash :: rest ≠ [] := by simp
    rw [if_neg hnul, if_neg hne] at h
    by_cases hlong : (path ++ slash :: rest).length > maxPathBytes
    · rw [if_pos hlong] at h
      cases h
    · have hbegin : ¬ path.length > maxPathBytes := by
        rw [List.length_append] at hlong
        omega
      have hnot : 0 ∉ path := fun hmem => hnul (List.mem_append_left _ hmem)
      rw [if_neg hlong, isAbsolute_append hpath, pathParts_append] at h
      rw [if_neg hnot, if_neg hpath, if_neg hbegin]
      exact Tree.walk_append h

end MachineFacts
