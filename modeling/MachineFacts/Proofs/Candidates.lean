import Mathlib
import MachineFacts.Batch
import MachineFacts.Tree
import MachineFacts.Proofs.Encoding
import MachineFacts.Proofs.Occurrence

/-! The document of a host. It is the first file among those that the templates stand for, and
what was found as a file can be read as one. -/

namespace MachineFacts

def hostPlaceholder : Text := "\x7bhost\x7d"

/-- What stands between the placeholders of the template is kept, and the host comes in the place
of each. -/
def Expands (host template expanded : Text) : Prop :=
  ∃ parts : List Text, (∀ part ∈ parts, ¬ hostPlaceholder <:+: part) ∧
    template = hostPlaceholder.intercalate parts ∧ expanded = host.intercalate parts

theorem borderless_hostPlaceholder : Borderless hostPlaceholder := by decide

theorem hostPlaceholder_ne_nil : hostPlaceholder ≠ [] := by decide

theorem expandHost_placeholder (host t : Text) :
    expandHost host (hostPlaceholder ++ t) = host ++ expandHost host t := rfl

theorem expandHost_cons (host : Text) {c : Char} {t : Text} (h : ¬ hostPlaceholder <+: c :: t) :
    expandHost host (c :: t) = c :: expandHost host t := by
  apply expandHost.eq_2
  intro rest hc ht
  apply h
  rw [hc, ht]
  exact ⟨rest, rfl⟩

theorem expandHost_of_not_infix (host : Text) {x : Text} (h : ¬ hostPlaceholder <:+: x) :
    expandHost host x = x := by
  induction x with
  | nil => rfl
  | cons c x ih =>
    have hx : ¬ hostPlaceholder <:+: x := fun hin => h (List.infix_cons hin)
    have hstart : ¬ hostPlaceholder <+: c :: x := fun hpre => h hpre.isInfix
    rw [expandHost_cons host hstart, ih hx]

theorem expandHost_append (host : Text) {x : Text} (h : ¬ hostPlaceholder <:+: x) (t : Text) :
    expandHost host (x ++ (hostPlaceholder ++ t)) = x ++ (host ++ expandHost host t) := by
  induction x with
  | nil => exact expandHost_placeholder host t
  | cons c x ih =>
    have hx : ¬ hostPlaceholder <:+: x := fun hin => h (List.infix_cons hin)
    have hstart : ¬ hostPlaceholder <+: c :: (x ++ (hostPlaceholder ++ t)) := by
      rintro ⟨rest, hrest⟩
      -- two placeholders do not overlap, so this one would end before the other begins
      have hapart : [].length + hostPlaceholder.length ≤ (c :: x).length :=
        borderless_hostPlaceholder.apart hrest (by simp)
      have hin : hostPlaceholder <+: c :: x :=
        List.prefix_of_prefix_length_le ⟨rest, hrest⟩ ⟨hostPlaceholder ++ t, rfl⟩
          (by simpa using hapart)
      exact h hin.isInfix
    rw [List.cons_append, expandHost_cons host hstart, ih hx, List.cons_append]

theorem expandHost_intercalate (host : Text) {parts : List Text}
    (h : ∀ part ∈ parts, ¬ hostPlaceholder <:+: part) :
    expandHost host (hostPlaceholder.intercalate parts) = host.intercalate parts := by
  induction parts with
  | nil => rfl
  | cons part parts ih =>
    have hpart := h part List.mem_cons_self
    cases parts with
    | nil =>
      rw [List.intercalate_singleton, List.intercalate_singleton]
      exact expandHost_of_not_infix host hpart
    | cons next parts =>
      have hrest := ih fun p hp => h p (List.mem_cons_of_mem part hp)
      rw [List.intercalate_cons_cons, List.intercalate_cons_cons, List.append_assoc,
        expandHost_append host hpart, hrest, List.append_assoc]

theorem exists_parts (t : Text) :
    ∃ parts : List Text, parts ≠ [] ∧ (∀ part ∈ parts, ¬ hostPlaceholder <:+: part) ∧
      t = hostPlaceholder.intercalate parts := by
  cases hb : behind hostPlaceholder t with
  | none =>
    have hnone : occurs hostPlaceholder t = false := by rw [occurs, hb]; rfl
    refine ⟨[t], by simp, ?_, List.intercalate_singleton.symm⟩
    intro part hpart
    rw [List.mem_singleton.mp hpart]
    exact occurs_eq_false_iff.mp hnone
  | some rest =>
    have hshorter : rest.length < t.length := by
      have hlength := behind_length hb
      have hpos := List.length_pos_iff.mpr hostPlaceholder_ne_nil
      omega
    obtain ⟨x, ht, hx⟩ :=
      (borderless_hostPlaceholder.behind_eq_some_iff hostPlaceholder_ne_nil).mp hb
    obtain ⟨parts, hne, hparts, hrest⟩ := exists_parts rest
    obtain ⟨part, more, rfl⟩ := List.exists_cons_of_ne_nil hne
    refine ⟨x :: part :: more, by simp, ?_, ?_⟩
    · intro p hp
      rcases List.mem_cons.mp hp with rfl | hp
      · exact hx
      · exact hparts p hp
    · rw [List.intercalate_cons_cons, ← hrest, ht, List.append_assoc]
termination_by t.length

theorem expands_iff {host template expanded : Text} :
    Expands host template expanded ↔ expanded = expandHost host template := by
  constructor
  · rintro ⟨parts, hparts, rfl, rfl⟩
    exact (expandHost_intercalate host hparts).symm
  · rintro rfl
    obtain ⟨parts, -, hparts, ht⟩ := exists_parts template
    exact ⟨parts, hparts, ht, by rw [ht, expandHost_intercalate host hparts]⟩

def StandsFor (root : Path) (host template : Text) (path : Path) : Prop :=
  ∃ expanded, Expands host template expanded ∧ path = joinPath root (bytes expanded)

theorem standsFor_iff {root path : Path} {host template : Text} :
    StandsFor root host template path ↔
      path = joinPath root (bytes (expandHost host template)) := by
  constructor
  · rintro ⟨expanded, hexpands, hpath⟩
    rw [hpath, expands_iff.mp hexpands]
  · intro hpath
    exact ⟨expandHost host template, expands_iff.mpr rfl, hpath⟩

/-- Links followed, the path leads to a regular file with that content. -/
def Tree.Holds (tree : Tree) (cwd : Location) (path : Path) (content : ByteArray) : Prop :=
  ∃ place, tree.resolve cwd path = .ok (place, .file content)

theorem Tree.isRegular_iff {tree : Tree} {cwd : Location} {path : Path} :
    (tree.files cwd).isRegular path = true ↔ ∃ content, tree.Holds cwd path content := by
  unfold Tree.files Tree.Holds
  dsimp only
  split
  · next place content h => simp [h]
  · next h =>
    constructor
    · intro hfalse
      cases hfalse
    · rintro ⟨content, place, hplace⟩
      exact absurd hplace (h place content)

theorem Tree.Holds.read {tree : Tree} {cwd : Location} {path : Path} {content : ByteArray}
    (h : tree.Holds cwd path content) : (tree.files cwd).read path = .ok content := by
  obtain ⟨place, hplace⟩ := h
  show tree.read cwd path = .ok content
  rw [Tree.read, hplace]

theorem fromUTF8?_cases (content : ByteArray) :
    (∃ t : Text, content = t.utf8Encode ∧
      (String.fromUTF8? content).map String.toList = some t) ∨
    (∀ t : Text, content ≠ t.utf8Encode) ∧ String.fromUTF8? content = none := by
  by_cases h : content.IsValidUTF8
  · left
    refine ⟨(String.fromUTF8 content h).toList, ?_, ?_⟩
    · rw [String.utf8Encode_toList]
      rfl
    · rw [String.fromUTF8?, dif_pos h]
      rfl
  · right
    refine ⟨fun t ht => h ⟨t, ht⟩, ?_⟩
    rw [String.fromUTF8?, dif_neg h]

theorem Tree.Holds.loadDocument {tree : Tree} {cwd : Location} {path : Path}
    {content : ByteArray} (h : tree.Holds cwd path content) :
    (∃ t : Text, content = t.utf8Encode ∧
      MachineFacts.loadDocument (tree.files cwd) path = .ok t) ∨
    (∀ t : Text, content ≠ t.utf8Encode) ∧
      MachineFacts.loadDocument (tree.files cwd) path =
        .error (.unreadable path.shown .notUtf8) := by
  have hread := h.read
  rcases fromUTF8?_cases content with ⟨t, ht, hsome⟩ | ⟨hnot, hnone⟩
  · left
    obtain ⟨s, hs, hst⟩ := Option.map_eq_some_iff.mp hsome
    refine ⟨t, ht, ?_⟩
    simp only [MachineFacts.loadDocument, Files.readText, hread, hs, hst]
  · right
    refine ⟨hnot, ?_⟩
    simp only [MachineFacts.loadDocument, Files.readText, hread, hnone]
    rfl

theorem findConfig_eq_some_iff {files : Files} {root path : Path} {host : Text} {s : Settings} :
    findConfig files root host s = some path ↔
      ∃ better template worse, s.candidates = better ++ template :: worse ∧
        path = joinPath root (bytes (expandHost host template)) ∧ files.isRegular path = true ∧
        ∀ other ∈ better,
          ¬ files.isRegular (joinPath root (bytes (expandHost host other))) = true := by
  rw [findConfig, Settings.candidatePaths, List.map_map, List.find?_map, Option.map_eq_some_iff]
  constructor
  · rintro ⟨template, hfind, hpath⟩
    obtain ⟨hfile, better, worse, hsplit, hnone⟩ := List.find?_eq_some_iff_append.mp hfind
    refine ⟨better, template, worse, hsplit, hpath.symm, hpath ▸ hfile, ?_⟩
    intro other hother
    simpa using hnone other hother
  · rintro ⟨better, template, worse, hsplit, hpath, hfile, hnone⟩
    refine ⟨template, ?_, hpath.symm⟩
    apply List.find?_eq_some_iff_append.mpr
    rw [hpath] at hfile
    refine ⟨hfile, better, worse, hsplit, ?_⟩
    intro other hother
    simpa using hnone other hother

theorem findConfig_eq_none_iff {files : Files} {root : Path} {host : Text} {s : Settings} :
    findConfig files root host s = none ↔
      ∀ template ∈ s.candidates,
        ¬ files.isRegular (joinPath root (bytes (expandHost host template))) = true := by
  rw [findConfig, List.find?_eq_none, Settings.candidatePaths, List.map_map, List.forall_mem_map]
  rfl

theorem resolveHost_ok_iff {files : Files} {root path : Path} {host : Text} {s : Settings} :
    (resolveHost files root host s).result = .ok path ↔
      findConfig files root host s = some path := by
  rw [resolveHost]
  cases findConfig files root host s with
  | none => simp [Run.fail]
  | some found => simp

theorem resolveHost_error_iff {files : Files} {root : Path} {host : Text} {s : Settings}
    {f : Failure} :
    (resolveHost files root host s).result = .error f ↔
      findConfig files root host s = none ∧
        f = .lookup (.hostNotFound host (availableHosts files root s)) := by
  rw [resolveHost]
  cases findConfig files root host s with
  | none => simp [Run.fail, eq_comm]
  | some found => simp

/-- The document of a host is the first file among those that the templates stand for. Without
one the host is not found, and the hosts that there are are offered. What was found can be read,
unless it is not UTF-8. -/
theorem resolveHost_first_file (tree : Tree) (cwd : Location) (root : Path) (host : Text)
    (s : Settings) :
    let files := tree.files cwd
    (∀ path, (resolveHost files root host s).result = .ok path ↔
      ∃ better template worse, s.candidates = better ++ template :: worse ∧
        StandsFor root host template path ∧ (∃ content, tree.Holds cwd path content) ∧
        ∀ other ∈ better, ∀ earlier, StandsFor root host other earlier →
          ¬ ∃ content, tree.Holds cwd earlier content) ∧
    (∀ f, (resolveHost files root host s).result = .error f ↔
      (∀ template ∈ s.candidates, ∀ path, StandsFor root host template path →
        ¬ ∃ content, tree.Holds cwd path content) ∧
      f = .lookup (.hostNotFound host (availableHosts files root s))) ∧
    ∀ path, (resolveHost files root host s).result = .ok path →
      ∃ content, tree.Holds cwd path content ∧
        ((∃ t : Text, content = t.utf8Encode ∧ loadDocument files path = .ok t) ∨
          (∀ t : Text, content ≠ t.utf8Encode) ∧
            loadDocument files path = .error (.unreadable path.shown .notUtf8)) := by
  intro files
  simp only [standsFor_iff, ← Tree.isRegular_iff, forall_eq]
  refine ⟨fun path => ?_, fun f => ?_, fun path hpath => ?_⟩
  · rw [resolveHost_ok_iff, findConfig_eq_some_iff]
  · rw [resolveHost_error_iff, findConfig_eq_none_iff]
  · have hfind := resolveHost_ok_iff.mp hpath
    obtain ⟨better, template, worse, -, -, hfile, -⟩ := findConfig_eq_some_iff.mp hfind
    obtain ⟨content, hcontent⟩ := Tree.isRegular_iff.mp hfile
    exact ⟨content, hcontent, hcontent.loadDocument⟩

/-- A host that is a link to another one, whose document is a link to a file beside the hosts. -/
def linkedHosts : Tree where
  nodes :=
    [(["hosts"], .directory), (["twin", "hosts"], .link "p620"),
      ([[0xff], "hosts"], .directory), (["p620", "hosts"], .directory),
      (["backup", "hosts"], .directory),
      (["hardware.nix", "p620", "hosts"], .link "../../shared.nix"),
      (["shared.nix"], .file ⟨#[0x7b, 0x7d]⟩)]
  distinct := by decide

theorem resolveHost_first_file_linked :
    let files := linkedHosts.files []
    let s : Settings := ⟨["\x7bhost\x7d", "hosts/\x7bhost\x7d/hardware.nix", "shared.nix"], "hosts"⟩
    (resolveHost files [] "twin" s).result = .ok "hosts/twin/hardware.nix" ∧
    ∃ content, linkedHosts.Holds [] "hosts/twin/hardware.nix" content ∧
      ((∃ t : Text, content = t.utf8Encode ∧
        loadDocument files "hosts/twin/hardware.nix" = .ok t) ∨
        (∀ t : Text, content ≠ t.utf8Encode) ∧
          loadDocument files "hosts/twin/hardware.nix" =
            .error (.unreadable "hosts/twin/hardware.nix" .notUtf8)) := by
  intro files s
  have hresult : (resolveHost files [] "twin" s).result = .ok "hosts/twin/hardware.nix" := by cbv
  obtain ⟨-, -, hreadable⟩ := resolveHost_first_file linkedHosts [] [] "twin" s
  have hread := hreadable _ hresult
  rw [Path.shown_bytes] at hread
  exact ⟨hresult, hread⟩

end MachineFacts
