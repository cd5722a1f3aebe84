import MachineFacts.Proofs.ByteOrder
import MachineFacts.Proofs.Plan

/-! The partition plan is canonical. It has one order and one partition for each mount point, in
whatever order the filesystems are met. A partition depends on its own entry alone, and the type of
the scheme on those of the root and of the boot partition. -/

namespace MachineFacts

/-- The root comes after everything else, other mount points in the order of their bytes. -/
def Partition.Before (p q : Partition) : Prop :=
  p.mount ≠ rootMount ∧ (q.mount = rootMount ∨ bytes p.mount < bytes q.mount)

theorem Partition.notAfter_iff (p q : Partition) :
    p.notAfter q = true ↔
      q.mount = rootMount ∨ p.mount ≠ rootMount ∧ ¬ q.mount < p.mount := by
  unfold Partition.notAfter
  by_cases hq : q.mount = rootMount
  · simp [hq]
  · by_cases hp : p.mount = rootMount
    · simp [hp, hq]
    · simp [hp, hq]

theorem Partition.notAfter_total (p q : Partition) : (p.notAfter q || q.notAfter p) = true := by
  rw [Bool.or_eq_true, Partition.notAfter_iff, Partition.notAfter_iff]
  by_cases hq : q.mount = rootMount
  · exact .inl (.inl hq)
  · by_cases hp : p.mount = rootMount
    · exact .inr (.inl hp)
    · by_cases hlt : q.mount < p.mount
      · exact .inr (.inr ⟨hq, List.lt_asymm hlt⟩)
      · exact .inl (.inr ⟨hp, hlt⟩)

theorem Partition.notAfter_trans (p q r : Partition) (hpq : p.notAfter q = true)
    (hqr : q.notAfter r = true) : p.notAfter r = true := by
  rw [Partition.notAfter_iff] at hpq hqr ⊢
  rcases hqr with hr | ⟨hq, hqr⟩
  · exact .inl hr
  · rcases hpq with hroot | ⟨hp, hpq⟩
    · exact absurd hroot hq
    · refine .inr ⟨hp, fun hlt => ?_⟩
      by_cases hrq : r.mount = q.mount
      · exact hpq (hrq ▸ hlt)
      · exact hpq (List.lt_trans (text_lt_of_not_lt hrq hqr) hlt)

theorem Partition.before_of_notAfter {p q : Partition} (h : p.notAfter q = true)
    (hne : p.mount ≠ q.mount) : p.Before q := by
  rcases (Partition.notAfter_iff p q).mp h with hq | ⟨hp, hlt⟩
  · exact ⟨fun hp => hne (hp.trans hq.symm), .inl hq⟩
  · exact ⟨hp, .inr (bytes_lt_iff.mpr (text_lt_of_not_lt (Ne.symm hne) hlt))⟩

theorem Partition.Before.asymm {p q : Partition} (h : p.Before q) : ¬ q.Before p := by
  rintro ⟨hq, hqp⟩
  obtain ⟨hp, hpq⟩ := h
  have hlt := bytes_lt_iff.mp (hpq.resolve_left hq)
  have hgt := bytes_lt_iff.mp (hqp.resolve_left hp)
  exact List.lt_irrefl p.mount (List.lt_trans hlt hgt)

theorem Partition.Before.mount_ne {p q : Partition} (h : p.Before q) : p.mount ≠ q.mount := by
  intro he
  obtain ⟨hp, hroot | hlt⟩ := h
  · exact hp (he.trans hroot)
  · exact List.lt_irrefl (bytes q.mount) (he ▸ hlt)

theorem pairwise_before_mergeSort {ps : List Partition} (h : (ps.map (·.mount)).Nodup) :
    (ps.mergeSort Partition.notAfter).Pairwise Partition.Before := by
  have hsorted := List.pairwise_mergeSort Partition.notAfter_trans Partition.notAfter_total ps
  have hperm := (List.mergeSort_perm ps Partition.notAfter).map (·.mount)
  have hdistinct : (ps.mergeSort Partition.notAfter).Pairwise fun p q => p.mount ≠ q.mount :=
    List.pairwise_map.mp (hperm.nodup_iff.mpr h)
  exact (hsorted.and hdistinct).imp fun hpq => Partition.before_of_notAfter hpq.1 hpq.2

theorem eq_of_perm_of_before {ps qs : List Partition} (hp : ps.Pairwise Partition.Before)
    (hq : qs.Pairwise Partition.Before) (h : ps.Perm qs) : ps = qs :=
  List.Perm.eq_of_pairwise (fun _ _ _ _ hab hba => absurd hba hab.asymm) hp hq h

theorem Ascending.nodup_mounts {es : List (Text × Entry)} (h : Ascending es) :
    (es.map Prod.fst).Nodup := by
  refine List.pairwise_map.mpr (h.imp fun hlt he => ?_)
  exact List.lt_irrefl _ (he ▸ hlt)

/-- The scheme of entries in the order in which they are met. -/
def Scheme.ofEntries (es : List (Text × Entry)) : Scheme :=
  let ps := es.map fun e => classify e.1 e.2
  ⟨schemeType ps, ps.mergeSort Partition.notAfter⟩

theorem mounts_map_classify (es : List (Text × Entry)) :
    (es.map fun e => classify e.1 e.2).map (·.mount) = es.map Prod.fst := by
  rw [List.map_map]
  exact List.map_congr_left fun e _ => classify_mount e.1 e.2

theorem Scheme.pairwise_before_ofEntries {es : List (Text × Entry)}
    (h : (es.map Prod.fst).Nodup) : (Scheme.ofEntries es).partitions.Pairwise Partition.Before := by
  rw [← mounts_map_classify] at h
  exact pairwise_before_mergeSort h

theorem schemeType_perm {ps qs : List Partition} (h : ps.Perm qs) :
    schemeType ps = schemeType qs := by
  simp only [schemeType, h.any_eq]

theorem Scheme.ofEntries_perm {es fs : List (Text × Entry)} (h : es.Perm fs)
    (hnodup : (fs.map Prod.fst).Nodup) : Scheme.ofEntries es = Scheme.ofEntries fs := by
  have hmap := h.map fun e => classify e.1 e.2
  have hes := Scheme.pairwise_before_ofEntries ((h.map Prod.fst).nodup_iff.mpr hnodup)
  have hfs := Scheme.pairwise_before_ofEntries hnodup
  have hperm : (Scheme.ofEntries es).partitions.Perm (Scheme.ofEntries fs).partitions :=
    (List.mergeSort_perm _ _).trans (hmap.trans (List.mergeSort_perm _ _).symm)
  have hpartitions := eq_of_perm_of_before hes hfs hperm
  have htype : (Scheme.ofEntries es).type = (Scheme.ofEntries fs).type := schemeType_perm hmap
  calc Scheme.ofEntries es
      = ⟨(Scheme.ofEntries es).type, (Scheme.ofEntries es).partitions⟩ := rfl
    _ = ⟨(Scheme.ofEntries fs).type, (Scheme.ofEntries fs).partitions⟩ := by
      rw [htype, hpartitions]
    _ = Scheme.ofEntries fs := rfl

theorem Scheme.partition?_infer (mounts : Mounts) (mount : Text) :
    (Scheme.infer mounts).partition? mount = (mounts.get? mount).map (classify mount) := by
  rw [Scheme.partition?, ← List.head?_filter, Scheme.filter_partitions]
  cases mounts.get? mount <;> rfl

theorem getLast?_of_root {ps : List Partition} (h : ps.Pairwise Partition.Before) {p : Partition}
    (hp : p ∈ ps) (hroot : p.mount = rootMount) : ps.getLast? = some p := by
  obtain ⟨front, back, rfl⟩ := List.append_of_mem hp
  cases back with
  | nil => exact List.getLast?_concat
  | cons q back =>
    have hbefore := (List.pairwise_cons.mp (List.pairwise_append.mp h).2.1).1 q List.mem_cons_self
    exact absurd hroot hbefore.1

/-- The partitions are strictly in order, each mount point has one, and the root is last. A mount
point has the partition of its entry, and the plan is the same in whatever order the entries are
met. An entry other than those of the root and of the boot partition has no part in the type of the
scheme, and none in the partition of another mount point. -/
theorem infer_canonical (mounts : Mounts) :
    (Scheme.infer mounts).partitions.Pairwise Partition.Before ∧
    ((Scheme.infer mounts).partitions.map (·.mount)).Nodup ∧
    (∀ p ∈ (Scheme.infer mounts).partitions, p.mount = rootMount →
      (Scheme.infer mounts).partitions.getLast? = some p) ∧
    (∀ mount, (Scheme.infer mounts).partition? mount =
      (mounts.get? mount).map (classify mount)) ∧
    (∀ es : List (Text × Entry), es.Perm mounts.entries →
      Scheme.ofEntries es = Scheme.infer mounts) ∧
    ∀ (changed : Mounts) (mount : Text), mount ≠ rootMount → mount ≠ bootMount →
      (∀ other, other ≠ mount → changed.get? other = mounts.get? other) →
      (Scheme.infer changed).type = (Scheme.infer mounts).type ∧
        ∀ other, other ≠ mount →
          (Scheme.infer changed).partition? other = (Scheme.infer mounts).partition? other := by
  have hnodup := mounts.ascending.nodup_mounts
  have hbefore : (Scheme.infer mounts).partitions.Pairwise Partition.Before :=
    Scheme.pairwise_before_ofEntries hnodup
  refine ⟨hbefore, ?_, fun p hp hroot => getLast?_of_root hbefore hp hroot,
    Scheme.partition?_infer mounts, fun es hes => Scheme.ofEntries_perm hes hnodup, ?_⟩
  · exact List.pairwise_map.mpr (hbefore.imp Partition.Before.mount_ne)
  · intro changed mount hroot hboot hsame
    refine ⟨?_, fun other hother => ?_⟩
    · rw [Scheme.type_infer, Scheme.type_infer, hsame rootMount (Ne.symm hroot),
        hsame bootMount (Ne.symm hboot)]
    · rw [Scheme.partition?_infer, Scheme.partition?_infer, hsame other hother]

def bootableMounts : Mounts :=
  .ofList [("/", ⟨some "/dev/sda2", none, none⟩), ("/srv", ⟨none, some "xfs", some []⟩),
    ("/boot", ⟨none, some "vfat", none⟩), ("/mnt/é", ⟨none, none, none⟩)]

theorem infer_canonical_bootable :
    Scheme.ofEntries bootableMounts.entries.reverse = Scheme.infer bootableMounts ∧
    (Scheme.infer (bootableMounts.put "/srv" ⟨none, some "vfat", none⟩)).type =
      (Scheme.infer bootableMounts).type ∧
    (Scheme.infer bootableMounts).type = .uefi := by
  obtain ⟨-, -, -, -, horder, hframe⟩ := infer_canonical bootableMounts
  have hother : ∀ other, other ≠ "/srv".toList →
      (bootableMounts.put "/srv" ⟨none, some "vfat", none⟩).get? other =
        bootableMounts.get? other := by
    intro other hne
    rw [Mounts.get?_put, if_neg hne]
  have htype := (hframe _ "/srv" (by decide) (by decide) hother).1
  exact ⟨horder _ (List.reverse_perm _), htype, by decide +kernel⟩

end MachineFacts
