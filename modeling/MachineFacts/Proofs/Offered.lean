import Mathlib.Data.List.Nodup
import MachineFacts.Proofs.ByteOrder
import MachineFacts.Proofs.Candidates
import MachineFacts.Proofs.Following

/-! The hosts that are offered when one has no document. They are the directories that the hosts
directory itself holds, each once and in order, and they miss no host that would be found, unless
it is a link. -/

namespace MachineFacts

/-- What a program may see of the tree: a directory is listed in any order. -/
structure Tree.Presents (tree : Tree) (cwd : Location) (files : Files) : Prop where
  read : files.read = (tree.files cwd).read
  isPresent : files.isPresent = (tree.files cwd).isPresent
  isRegular : files.isRegular = (tree.files cwd).isRegular
  entries : ∀ path, Option.Rel List.Perm (files.entries path) ((tree.files cwd).entries path)

theorem lookup_eq_some_iff_mem {α β : Type} [BEq α] [LawfulBEq α] {es : List (α × β)}
    (h : (es.map Prod.fst).Nodup) {key : α} {value : β} :
    es.lookup key = some value ↔ (key, value) ∈ es := by
  induction es with
  | nil => simp
  | cons e es ih =>
    obtain ⟨he, hes⟩ := List.nodup_cons.mp h
    rw [List.lookup_cons, List.mem_cons]
    by_cases hkey : key = e.1
    · have hnot : (e.1, value) ∉ es := by
        intro hmem
        exact he (List.mem_map.mpr ⟨_, hmem, rfl⟩)
      simp [hkey, hnot, Prod.ext_iff, eq_comm]
    · rw [beq_eq_false_iff_ne.mpr hkey]
      simp [hkey, Prod.ext_iff, ih hes]

def child? (dir : Location) : Location × Node → Option (FileName × FileKind)
  | ([], _) => none
  | (name :: here, node) => if here = dir then some (name, node.kind) else none

theorem child?_eq_some_iff {dir : Location} {n : Location × Node} {child : FileName × FileKind} :
    child? dir n = some child ↔ n.1 = child.1 :: dir ∧ n.2.kind = child.2 := by
  obtain ⟨location, node⟩ := n
  cases location with
  | nil => simp [child?]
  | cons name here =>
    by_cases hhere : here = dir
    · simp [child?, hhere, Prod.ext_iff]
    · simp [child?, hhere]

theorem Tree.children_eq (tree : Tree) (dir : Location) :
    tree.children dir = tree.nodes.filterMap (child? dir) := rfl

theorem Tree.mem_children_iff {tree : Tree} {dir : Location} {child : FileName × FileKind} :
    child ∈ tree.children dir ↔
      ∃ node, tree.node? (child.1 :: dir) = some node ∧ node.kind = child.2 := by
  have hnode : tree.node? (child.1 :: dir) = tree.nodes.lookup (child.1 :: dir) := rfl
  simp only [hnode, lookup_eq_some_iff_mem tree.distinct]
  rw [Tree.children_eq, List.mem_filterMap]
  constructor
  · rintro ⟨⟨location, node⟩, hmem, hchild⟩
    obtain ⟨rfl, hkind⟩ := child?_eq_some_iff.mp hchild
    exact ⟨node, hmem, hkind⟩
  · rintro ⟨node, hmem, hkind⟩
    exact ⟨_, hmem, child?_eq_some_iff.mpr ⟨rfl, hkind⟩⟩

theorem Tree.nodup_children (tree : Tree) (dir : Location) :
    ((tree.children dir).map Prod.fst).Nodup := by
  have hnodes : tree.nodes.Pairwise fun a b => a.1 ≠ b.1 := List.pairwise_map.mp tree.distinct
  apply List.pairwise_map.mpr
  rw [Tree.children_eq, List.pairwise_filterMap]
  apply hnodes.imp
  intro a b hne child hchild other hother hname
  apply hne
  rw [(child?_eq_some_iff.mp hchild).1, (child?_eq_some_iff.mp hother).1, hname]

theorem hostName?_eq_some_iff {entry : FileName × FileKind} {name : Text} :
    hostName? entry = some name ↔ entry = (bytes name, .directory) := by
  unfold hostName?
  split
  · simp [Prod.ext_iff, text?_eq_some_iff]
  · next hother =>
    constructor
    · intro hnone
      cases hnone
    · intro heq
      exact absurd heq (hother _)

theorem notAbove_iff {a b : Text} : notAbove a b = true ↔ ¬ b < a := by
  simp [notAbove]

theorem notAbove_trans (a b c : Text) (hab : notAbove a b = true) (hbc : notAbove b c = true) :
    notAbove a c = true := by
  rw [notAbove_iff] at hab hbc ⊢
  intro hca
  by_cases heq : a = b
  · exact hbc (heq ▸ hca)
  · have hlt : a < b := text_lt_of_not_lt (Ne.symm heq) hab
    exact hbc (List.lt_trans hca hlt)

theorem notAbove_total (a b : Text) : (notAbove a b || notAbove b a) = true := by
  rw [Bool.or_eq_true, notAbove_iff, notAbove_iff]
  by_cases hlt : b < a
  · exact .inr (List.lt_asymm hlt)
  · exact .inl hlt

theorem pairwise_mergeSort_notAbove {names : List Text} (h : names.Nodup) :
    (names.mergeSort notAbove).Pairwise fun a b => bytes a < bytes b := by
  have hsorted := List.pairwise_mergeSort notAbove_trans notAbove_total names
  have hdistinct : (names.mergeSort notAbove).Pairwise (· ≠ ·) :=
    (List.mergeSort_perm names notAbove).nodup_iff.mpr h
  apply (hsorted.and hdistinct).imp
  rintro a b ⟨hab, hne⟩
  apply bytes_lt_of_lt
  exact text_lt_of_not_lt (Ne.symm hne) (notAbove_iff.mp hab)

theorem Tree.entries_eq_some_iff {tree : Tree} {cwd : Location} {path : Path}
    {es : List (FileName × FileKind)} :
    tree.entries cwd path = some es ↔
      ∃ dir, tree.resolve cwd path = .ok (dir, .directory) ∧ es = tree.children dir := by
  unfold Tree.entries
  split
  · next dir h => simp [h, eq_comm]
  · next h =>
    constructor
    · intro hnone
      cases hnone
    · rintro ⟨dir, hdir, -⟩
      exact absurd hdir (h dir)

section

variable {tree : Tree} {cwd : Location} {files : Files}

theorem Tree.Presents.entries_cases (h : tree.Presents cwd files) (path : Path) :
    (∃ dir es, tree.resolve cwd path = .ok (dir, .directory) ∧ files.entries path = some es ∧
      es.Perm (tree.children dir)) ∨
    (∀ dir, tree.resolve cwd path ≠ .ok (dir, .directory)) ∧ files.entries path = none := by
  have hrel := h.entries path
  generalize files.entries path = seen at hrel ⊢
  cases hlisted : (tree.files cwd).entries path with
  | some children =>
    obtain ⟨dir, hdir, rfl⟩ := Tree.entries_eq_some_iff.mp hlisted
    rw [hlisted] at hrel
    cases hrel with
    | some hperm => exact .inl ⟨dir, _, hdir, rfl, hperm⟩
  | none =>
    rw [hlisted] at hrel
    cases hrel with
    | none =>
      refine .inr ⟨fun dir hdir => ?_, rfl⟩
      have hchildren : (tree.files cwd).entries path = some (tree.children dir) :=
        Tree.entries_eq_some_iff.mpr ⟨dir, hdir, rfl⟩
      rw [hlisted] at hchildren
      cases hchildren

theorem Tree.Presents.mem_availableHosts_iff (h : tree.Presents cwd files) {root : Path}
    {name : Text} {s : Settings} :
    name ∈ availableHosts files root s ↔
      ∃ dir, tree.resolve cwd (joinPath root (bytes s.hostsDir)) = .ok (dir, .directory) ∧
        tree.node? (bytes name :: dir) = some .directory := by
  rw [availableHosts]
  rcases h.entries_cases (joinPath root (bytes s.hostsDir)) with
    ⟨dir, es, hdir, hes, hperm⟩ | ⟨hno, hes⟩
  · have hmem : name ∈ es.filterMap hostName? ↔
        tree.node? (bytes name :: dir) = some .directory := by
      simp only [List.mem_filterMap, hostName?_eq_some_iff, exists_eq_right, hperm.mem_iff,
        Tree.mem_children_iff, Node.kind_eq_directory_iff]
    simp [hes, hdir, hmem]
  · simp [hes, hno]

theorem Tree.Presents.availableHosts_eq_nil (h : tree.Presents cwd files) {root : Path}
    {s : Settings}
    (hno : ∀ dir, tree.resolve cwd (joinPath root (bytes s.hostsDir)) ≠ .ok (dir, .directory)) :
    availableHosts files root s = [] := by
  apply List.eq_nil_iff_forall_not_mem.mpr
  intro name hname
  obtain ⟨dir, hdir, -⟩ := h.mem_availableHosts_iff.mp hname
  exact hno dir hdir

theorem Tree.Presents.pairwise_availableHosts (h : tree.Presents cwd files) (root : Path)
    (s : Settings) :
    (availableHosts files root s).Pairwise fun a b => bytes a < bytes b := by
  rw [availableHosts]
  rcases h.entries_cases (joinPath root (bytes s.hostsDir)) with
    ⟨dir, es, hdir, hes, hperm⟩ | ⟨hno, hes⟩
  · have hnames : (es.map Prod.fst).Nodup :=
      (hperm.map Prod.fst).nodup_iff.mpr (tree.nodup_children dir)
    have hhosts : (es.filterMap hostName?).Nodup := by
      apply List.pairwise_filterMap.mpr
      apply (List.pairwise_map.mp hnames).imp
      intro a b hne name hname other hother heq
      apply hne
      rw [hostName?_eq_some_iff.mp hname, hostName?_eq_some_iff.mp hother, heq]
    rw [hes]
    exact pairwise_mergeSort_notAbove hhosts
  · rw [hes]
    exact List.Pairwise.nil

end

/-- A name that is one ordinary part of a path. -/
structure IsComponent (name : Text) : Prop where
  ne_nil : name ≠ []
  no_slash : '/' ∉ name
  not_here : name ≠ ".".toList
  not_up : name ≠ "..".toList

/-- What leads to a file through an entry of a directory leads through a directory or a link. -/
theorem Tree.walk_component {tree : Tree} {left : Nat} {dir : Location} {stop : Node}
    {name : Text} {rest : Path} {r : Location × Node} (hname : IsComponent name)
    (h : tree.walk left dir stop (pathParts (bytes name ++ slash :: rest)) = .ok r) :
    stop = .directory ∧ (tree.node? (bytes name :: dir) = some .directory ∨
      ∃ target, tree.node? (bytes name :: dir) = some (.link target)) := by
  have hnot : slash ∉ bytes name := fun hin => hname.no_slash (slash_mem_bytes_iff.mp hin)
  rw [pathParts_append, pathParts_of_not_mem hnot, List.singleton_append] at h
  obtain ⟨rfl, more, place, next, lead, hstep⟩ := Tree.exists_step h
  rw [hstep.walk] at h
  refine ⟨rfl, ?_⟩
  cases hstep with
  | stay hpart =>
    rcases hpart with hpart | hpart
    · exact absurd (bytes_inj.mp hpart) hname.ne_nil
    · exact absurd (bytes_inj.mp hpart) hname.not_here
  | up hpart => exact absurd (bytes_inj.mp hpart) hname.not_up
  | link hentry hlinks hnode => exact .inr ⟨_, hnode⟩
  | entry hentry hnode hlink =>
    -- more parts follow, and they must be taken from a directory
    obtain ⟨part, parts, hparts⟩ := List.exists_cons_of_ne_nil (pathParts_ne_nil rest)
    rw [List.nil_append, hparts] at h
    have hdirectory := (Tree.exists_step h).1
    rw [hdirectory] at hnode
    exact .inl hnode

theorem candidatePaths_default (host : Text) :
    Settings.default.candidatePaths host =
      ["nixos/hardware-configuration.nix".toList, "hardware-configuration.nix".toList,
        "hardware.nix".toList].map fun file => "hosts".toList ++ '/' :: (host ++ '/' :: file) := rfl

theorem resolve_of_resolveHost_default {tree : Tree} {cwd : Location} {files : Files}
    (h : tree.Presents cwd files) {root path : Path} {host : Text} (hhost : IsComponent host)
    (hpath : (resolveHost files root host .default).result = .ok path) :
    ∃ dir, tree.resolve cwd (joinPath root (bytes Settings.default.hostsDir)) =
      .ok (dir, .directory) ∧ (tree.node? (bytes host :: dir) = some .directory ∨
        ∃ target, tree.node? (bytes host :: dir) = some (.link target)) := by
  have hfind := resolveHost_ok_iff.mp hpath
  rw [findConfig, candidatePaths_default, List.map_map] at hfind
  obtain ⟨file, -, hfile⟩ := List.mem_map.mp (List.mem_of_find?_eq_some hfind)
  have hregular := List.find?_some hfind
  rw [h.isRegular, Tree.isRegular_iff] at hregular
  obtain ⟨content, place, hplace⟩ := hregular
  have hne : bytes Settings.default.hostsDir ≠ [] := by decide
  have hjoin : path = joinPath root (bytes Settings.default.hostsDir) ++
      slash :: (bytes host ++ slash :: bytes file) := by
    rw [← hfile, Function.comp_apply, bytes_slash, bytes_slash]
    exact joinPath_append root hne _
  rw [hjoin] at hplace
  obtain ⟨left, dir, stop, hdir, hwalk⟩ := Tree.resolve_append (joinPath_ne_nil root hne) hplace
  obtain ⟨rfl, hentry⟩ := Tree.walk_component hhost hwalk
  exact ⟨dir, hdir, hentry⟩

/-- The hosts that are offered are in strictly ascending order, and they are exactly the
directories that the hosts directory itself holds; there are none where it is no directory. With
the default settings an ordinary name that is found is offered, unless its entry is a link. -/
theorem availableHosts_canonical {tree : Tree} {cwd : Location} {files : Files}
    (h : tree.Presents cwd files) (root : Path) (s : Settings) :
    (availableHosts files root s).Pairwise (fun a b => bytes a < bytes b) ∧
    (∀ name, name ∈ availableHosts files root s ↔
      ∃ dir, tree.resolve cwd (joinPath root (bytes s.hostsDir)) = .ok (dir, .directory) ∧
        tree.node? (bytes name :: dir) = some .directory) ∧
    ((∀ dir, tree.resolve cwd (joinPath root (bytes s.hostsDir)) ≠ .ok (dir, .directory)) →
      availableHosts files root s = []) ∧
    ∀ host path, IsComponent host → (resolveHost files root host .default).result = .ok path →
      host ∈ availableHosts files root .default ∨
      ∃ dir target, tree.resolve cwd (joinPath root (bytes Settings.default.hostsDir)) =
        .ok (dir, .directory) ∧ tree.node? (bytes host :: dir) = some (.link target) := by
  refine ⟨h.pairwise_availableHosts root s, fun name => h.mem_availableHosts_iff,
    h.availableHosts_eq_nil, ?_⟩
  intro host path hhost hpath
  obtain ⟨dir, hdir, hentry⟩ := resolve_of_resolveHost_default h hhost hpath
  rcases hentry with hnode | ⟨target, hnode⟩
  · exact .inl (h.mem_availableHosts_iff.mpr ⟨dir, hdir, hnode⟩)
  · exact .inr ⟨dir, target, hdir, hnode⟩

def Tree.filesBackwards (tree : Tree) (cwd : Location) : Files :=
  { tree.files cwd with entries := fun path => (tree.entries cwd path).map List.reverse }

theorem Tree.presents_filesBackwards (tree : Tree) (cwd : Location) :
    tree.Presents cwd (tree.filesBackwards cwd) where
  read := rfl
  isPresent := rfl
  isRegular := rfl
  entries path := by
    show Option.Rel List.Perm ((tree.entries cwd path).map List.reverse) (tree.entries cwd path)
    cases tree.entries cwd path with
    | none => exact .none
    | some es => exact .some (List.reverse_perm es)

theorem availableHosts_canonical_linked :
    let files := linkedHosts.filesBackwards []
    linkedHosts.Presents [] files ∧ IsComponent "twin" ∧
    availableHosts files [] .default = ["backup".toList, "p620".toList] ∧
    (resolveHost files [] "twin" .default).result = .ok "hosts/twin/hardware.nix" ∧
    ("twin".toList ∈ availableHosts files [] .default ∨
      ∃ dir target, linkedHosts.resolve [] (joinPath [] (bytes Settings.default.hostsDir)) =
        .ok (dir, .directory) ∧ linkedHosts.node? (bytes "twin" :: dir) = some (.link target)) := by
  intro files
  have hpresents := linkedHosts.presents_filesBackwards []
  have hcomponent : IsComponent "twin" := ⟨by decide, by decide, by decide, by decide⟩
  have hoffered : availableHosts files [] .default = ["backup".toList, "p620".toList] := by cbv
  have hresult : (resolveHost files [] "twin" .default).result = .ok "hosts/twin/hardware.nix" := by
    cbv
  obtain ⟨-, -, -, hcovered⟩ := availableHosts_canonical hpresents [] .default
  exact ⟨hpresents, hcomponent, hoffered, hresult, hcovered _ _ hcomponent hresult⟩

end MachineFacts
