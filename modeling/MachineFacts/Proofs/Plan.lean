import MachineFacts.Facts
import MachineFacts.Proofs.Overriding

/-! The way from the blocks of a document to its partition plan. The last block for a mount point
is all that reaches the plan, and each mount point has one partition there. -/

namespace MachineFacts

/-- The inner text of the last block for a mount point. -/
def lastBlock? (mount : Text) (blocks : List (Text × Text)) : Option Text :=
  ((blocks.filter fun b => b.1 = mount).getLast?).map Prod.snd

theorem lastBlock?_cons (mount : Text) (b : Text × Text) (blocks : List (Text × Text)) :
    lastBlock? mount (b :: blocks) =
      (lastBlock? mount blocks).or (if b.1 = mount then some b.2 else none) := by
  by_cases h : b.1 = mount
  · simp only [lastBlock?, List.filter_cons, h, decide_true, if_true, List.getLast?_cons]
    cases (blocks.filter fun b => b.1 = mount).getLast? <;> simp
  · simp [lastBlock?, h]

theorem lastBlock?_isSome_iff (mount : Text) (blocks : List (Text × Text)) :
    (lastBlock? mount blocks).isSome ↔ mount ∈ blocks.map Prod.fst := by
  induction blocks with
  | nil => simp [lastBlock?]
  | cons b blocks ih =>
    rw [lastBlock?_cons, List.map_cons, List.mem_cons, ← ih]
    by_cases h : b.1 = mount
    · simp [h]
    · simp [h, Ne.symm h]

theorem Mounts.get?_ofText (t mount : Text) :
    (Mounts.ofText t).get? mount = (lastBlock? mount (filesystemBlocks t)).map Entry.ofBlock := by
  rw [Mounts.ofText, Mounts.get?_ofList]
  induction filesystemBlocks t with
  | nil => rfl
  | cons b blocks ih =>
    rw [List.map_cons, List.reverse_cons, List.lookup_append, ih, lastBlock?_cons,
      lookup_cons_eq_ite]
    by_cases h : b.1 = mount
    · cases lastBlock? mount blocks <;> simp [h]
    · cases lastBlock? mount blocks <;> simp [h, Ne.symm h]

theorem Ascending.lookup_eq_some_iff {es : List (Text × Entry)} (h : Ascending es)
    {mount : Text} {entry : Entry} : es.lookup mount = some entry ↔ (mount, entry) ∈ es := by
  induction es with
  | nil => simp
  | cons e es ih =>
    obtain ⟨he, hes⟩ := List.pairwise_cons.mp h
    rw [lookup_cons_eq_ite, List.mem_cons]
    split
    · next hm =>
      subst hm
      have hnot : (e.1, entry) ∉ es := fun hin => List.lt_irrefl e.1 (he (e.1, entry) hin)
      simp [hnot, Prod.ext_iff, eq_comm]
    · next hm =>
      rw [ih hes]
      simp [Prod.ext_iff, hm]

theorem classify_mount (mount : Text) (entry : Entry) : (classify mount entry).mount = mount := by
  unfold classify
  split <;> rfl

theorem classify_role (mount : Text) (entry : Entry) :
    (classify mount entry).role = roleOf mount := by
  unfold classify
  split <;> simp_all

theorem classify_fsType (mount : Text) (entry : Entry) :
    (classify mount entry).fsType = entry.fsType.getD "ext4" := by
  unfold classify
  split <;> rfl

theorem roleOf_eq_root_iff (mount : Text) : roleOf mount = .root ↔ mount = rootMount := by
  have hne : bootMount ≠ rootMount := by decide
  unfold roleOf
  split
  · simp [*]
  · split
    · simp [*]
    · split <;> simp [*]

theorem roleOf_eq_boot_iff (mount : Text) : roleOf mount = .boot ↔ mount = bootMount := by
  have hne : rootMount ≠ bootMount := by decide
  unfold roleOf
  split
  · simp [*]
  · split
    · simp [*]
    · split <;> simp [*]

theorem classify_type_eq_efi_iff (mount : Text) (entry : Entry) :
    (classify mount entry).type = .efiSystem ↔
      mount = bootMount ∧ entry.fsType = some "vfat" := by
  rw [← roleOf_eq_boot_iff]
  unfold classify
  split <;> simp [*]

theorem filter_classify_entries {es : List (Text × Entry)} (h : Ascending es) (mount : Text) :
    (es.map fun e => classify e.1 e.2).filter (·.mount = mount) =
      ((es.lookup mount).map (classify mount)).toList := by
  induction es with
  | nil => rfl
  | cons e es ih =>
    obtain ⟨he, hes⟩ := List.pairwise_cons.mp h
    rw [List.map_cons, List.filter_cons, classify_mount, ih hes, lookup_cons_eq_ite]
    by_cases hm : mount = e.1
    · have hnone : es.lookup mount = none := lookup_eq_none_of_lt fun f hf => hm ▸ he f hf
      rw [hnone, hm]
      simp
    · simp [hm, Ne.symm hm]

theorem Scheme.partitions_perm (mounts : Mounts) :
    (Scheme.infer mounts).partitions.Perm
      (mounts.entries.map fun e => classify e.1 e.2) :=
  List.mergeSort_perm _ _

theorem Scheme.filter_partitions (mounts : Mounts) (mount : Text) :
    (Scheme.infer mounts).partitions.filter (·.mount = mount) =
      ((mounts.get? mount).map (classify mount)).toList := by
  have hperm := (Scheme.partitions_perm mounts).filter fun p => decide (p.mount = mount)
  rw [filter_classify_entries mounts.ascending] at hperm
  rw [Mounts.get?]
  cases hl : mounts.entries.lookup mount with
  | none => simpa [hl] using hperm
  | some entry => simpa [hl] using hperm

theorem any_role (mounts : Mounts) {role : Role} {mount : Text}
    (hrole : ∀ m, roleOf m = role ↔ m = mount) :
    ((mounts.entries.map fun e => classify e.1 e.2).any (·.role = role)) =
      (mounts.get? mount).isSome := by
  rw [Bool.eq_iff_iff, Mounts.get?, List.lookup_isSome_iff, List.any_map, List.any_eq_true]
  refine exists_congr fun e => and_congr_right fun _ => ?_
  rw [Function.comp_apply, decide_eq_true_iff, classify_role, hrole, beq_iff_eq, eq_comm]

theorem any_efiSystem (mounts : Mounts) :
    ((mounts.entries.map fun e => classify e.1 e.2).any (·.type = .efiSystem)) =
      (mounts.get? bootMount).any fun e : Entry => e.fsType = some "vfat" := by
  rw [Bool.eq_iff_iff, List.any_map, List.any_eq_true]
  simp only [Function.comp_apply, decide_eq_true_iff, classify_type_eq_efi_iff,
    Option.any_eq_true]
  constructor
  · rintro ⟨⟨mount, entry⟩, hmem, rfl, hfs⟩
    exact ⟨entry, mounts.ascending.lookup_eq_some_iff.mpr hmem, hfs⟩
  · rintro ⟨entry, hget, hfs⟩
    exact ⟨(bootMount, entry), mounts.ascending.lookup_eq_some_iff.mp hget, rfl, hfs⟩

theorem Scheme.type_infer (mounts : Mounts) :
    (Scheme.infer mounts).type =
      match mounts.get? rootMount, mounts.get? bootMount with
      | some _, some boot => if boot.fsType = some "vfat" then .uefi else .bios
      | _, _ => .unknown := by
  simp only [Scheme.infer, schemeType, any_role mounts roleOf_eq_root_iff,
    any_role mounts roleOf_eq_boot_iff, any_efiSystem]
  cases mounts.get? rootMount <;> cases mounts.get? bootMount <;> simp

theorem mem_keys_iff (mounts : Mounts) (mount : Text) :
    mount ∈ mounts.entries.map Prod.fst ↔ (mounts.get? mount).isSome := by
  rw [Mounts.get?, List.lookup_isSome_iff, List.mem_map]
  exact exists_congr fun e => and_congr_right fun _ => by rw [beq_iff_eq, eq_comm]

/-- Of a document's blocks, exactly the last ones for their mount points reach its facts: as the
entries, as one partition each, and as what decides the type of the scheme. -/
theorem ofText_of_last_blocks (t source : Text) :
    let facts := Facts.ofText t source
    let block? := fun mount => lastBlock? mount (filesystemBlocks t)
    (∀ mount, mount ∈ facts.mounts.entries.map Prod.fst ↔
      mount ∈ (filesystemBlocks t).map Prod.fst) ∧
    (∀ mount, facts.mounts.get? mount = (block? mount).map Entry.ofBlock) ∧
    (∀ mount, facts.scheme.partitions.filter (·.mount = mount) =
      ((block? mount).map fun inner => classify mount (Entry.ofBlock inner)).toList) ∧
    (∀ p ∈ facts.scheme.partitions, ∃ inner, block? p.mount = some inner ∧
      p.fsType = (stringField "fsType" inner).getD "ext4") ∧
    facts.scheme.type =
      match block? rootMount, block? bootMount with
      | some _, some boot => if stringField "fsType" boot = some "vfat" then .uefi else .bios
      | _, _ => .unknown := by
  intro facts block?
  have hget : ∀ mount, facts.mounts.get? mount = (block? mount).map Entry.ofBlock :=
    Mounts.get?_ofText t
  have hfilter : ∀ mount, facts.scheme.partitions.filter (·.mount = mount) =
      ((block? mount).map fun inner => classify mount (Entry.ofBlock inner)).toList := by
    intro mount
    rw [show facts.scheme = .infer facts.mounts from rfl, Scheme.filter_partitions, hget,
      Option.map_map]
    rfl
  refine ⟨fun mount => ?_, hget, hfilter, fun p hp => ?_, ?_⟩
  · rw [mem_keys_iff, hget, Option.isSome_map, lastBlock?_isSome_iff]
  · have hmem : p ∈ facts.scheme.partitions.filter (·.mount = p.mount) :=
      List.mem_filter.mpr ⟨hp, by simp⟩
    rw [hfilter, Option.mem_toList, Option.map_eq_some_iff] at hmem
    obtain ⟨inner, hinner, hclassify⟩ := hmem
    exact ⟨inner, hinner, by rw [← hclassify, classify_fsType]; rfl⟩
  · rw [show facts.scheme = .infer facts.mounts from rfl, Scheme.type_infer, hget, hget]
    cases block? rootMount <;> cases block? bootMount <;> rfl

end MachineFacts
