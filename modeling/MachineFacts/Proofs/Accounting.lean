import MachineFacts.Proofs.Canonical
import MachineFacts.Proofs.Occurrence

/-! The log of a document accounts for its facts. It tells of every block, of every block that
takes the place of an earlier one, of every profile and of every partition, and it warns of the
mount points that no rule fits. -/

namespace MachineFacts

def Event.found? : Event → Option (Text × Option Text)
  | .filesystemFound mount fsType => some (mount, fsType)
  | _ => none

def Event.redeclared? : Event → Option Text
  | .filesystemRedeclared mount => some mount
  | _ => none

def Event.profile? : Event → Option Text
  | .profileFound name => some name
  | _ => none

def Event.planned? : Event → Option Partition
  | .partitionPlanned p => some p
  | _ => none

def Event.isWarning (e : Event) : Bool := e.level = .warn

def Unruled (mount : Text) : Prop :=
  mount ≠ rootMount ∧ mount ≠ bootMount ∧ ¬ auxiliaryMounts <+: mount

instance (mount : Text) : Decidable (Unruled mount) :=
  inferInstanceAs (Decidable (_ ∧ _ ∧ _))

theorem roleOf_eq_primary_iff (mount : Text) : roleOf mount = .primary ↔ Unruled mount := by
  have hne : bootMount ≠ rootMount := by decide
  unfold roleOf Unruled
  simp only [strip_isSome_iff]
  by_cases hroot : mount = rootMount
  · simp [hroot]
  · by_cases hboot : mount = bootMount
    · simp [hboot, hne]
    · by_cases haux : auxiliaryMounts <+: mount
      · simp [hroot, hboot, haux]
      · simp [hroot, hboot, haux]

section

variable {α : Type} (read : Event → Option α)

theorem filterMap_declarationEvents (hopen : ∀ attr key, read (.blockUnterminated attr key) = none)
    (attr : Text) (ds : List Declaration) :
    (ds.filterMap (Declaration.event? attr)).filterMap read = [] := by
  apply List.filterMap_eq_nil_iff.mpr
  intro e he
  obtain ⟨d, -, hd⟩ := List.mem_filterMap.mp he
  cases d with
  | openBlock key =>
    have hkey : Event.blockUnterminated attr key = e := Option.some.inj hd
    rw [← hkey]
    exact hopen attr key
  | block key inner => cases hd
  | emptyBlock key => cases hd
  | openKey => cases hd

theorem filterMap_mountEvents (hfound : ∀ mount fsType, read (.filesystemFound mount fsType) = none)
    (hagain : ∀ mount, read (.filesystemRedeclared mount) = none) (seen : Mounts)
    (es : List (Text × Entry)) : (mountEvents seen es).filterMap read = [] := by
  induction es generalizing seen with
  | nil => rfl
  | cons e es ih =>
    by_cases hseen : (seen.get? e.1).isSome = true
    · simp [mountEvents, hseen, hfound, hagain, ih]
    · simp [mountEvents, hseen, hfound, ih]

theorem filterMap_profileEvents (hprofile : ∀ name, read (.profileFound name) = none)
    (names : List Text) : (names.map Event.profileFound).filterMap read = [] := by
  apply List.filterMap_eq_nil_iff.mpr
  intro e he
  obtain ⟨name, -, rfl⟩ := List.mem_map.mp he
  exact hprofile name

theorem filterMap_schemeEvents (hunsized : ∀ mount, read (.partitionUnsized mount) = none)
    (hplanned : ∀ p, read (.partitionPlanned p) = none)
    (hscheme : ∀ type, read (.schemeInferred type) = none) (mounts : Mounts) :
    (Scheme.events mounts).filterMap read = [] := by
  have hpartition : ∀ p : Partition, (partitionEvents p).filterMap read = [] := by
    intro p
    unfold partitionEvents
    split
    · simp [hunsized, hplanned]
    · simp [hplanned]
  simp [Scheme.events, List.filterMap_flatMap, hpartition, hscheme]

end

/-- A reading that ignores open blocks and loaders is made of the rest of a document's log. -/
theorem filterMap_documentEvents {α : Type} (read : Event → Option α)
    (hopen : ∀ attr key, read (.blockUnterminated attr key) = none)
    (hloader : ∀ loader, read (.loaderFound loader) = none) (t : Text) :
    (documentEvents t).filterMap read =
      (mountEvents .empty ((filesystemBlocks t).map fun b => (b.1, Entry.ofBlock b.2))).filterMap
        read ++ ((importedProfiles t).map Event.profileFound).filterMap read ++
        (Scheme.events (.ofText t)).filterMap read := by
  have hloaders : ((Loader.detect t).toList.map Event.loaderFound).filterMap read = [] := by
    apply List.filterMap_eq_nil_iff.mpr
    intro e he
    obtain ⟨loader, -, rfl⟩ := List.mem_map.mp he
    exact hloader loader
  simp only [documentEvents, List.filterMap_append, filterMap_declarationEvents read hopen,
    hloaders, List.nil_append, List.append_nil]

theorem found_mountEvents (seen : Mounts) (es : List (Text × Entry)) :
    (mountEvents seen es).filterMap Event.found? = es.map fun e => (e.1, e.2.fsType) := by
  induction es generalizing seen with
  | nil => rfl
  | cons e es ih =>
    by_cases hseen : (seen.get? e.1).isSome = true
    · simp [mountEvents, hseen, List.filterMap_cons, Event.found?, ih]
    · simp [mountEvents, hseen, Event.found?, ih]

theorem Ascending.length_insertEntry {es : List (Text × Entry)} (h : Ascending es) (mount : Text)
    (entry : Entry) :
    (MachineFacts.insertEntry mount entry es).length =
      es.length + if (es.lookup mount).isSome then 0 else 1 := by
  induction es with
  | nil => rfl
  | cons e es ih =>
    have hes := (List.pairwise_cons.mp h).2
    simp only [MachineFacts.insertEntry]
    split
    · next hm => simp [hm]
    · next hm =>
      split
      · next hlt => simp [lookup_cons_eq_none_of_lt h hlt]
      · have hlen := ih hes
        rw [lookup_cons_eq_ite, if_neg hm, List.length_cons, List.length_cons]
        omega

theorem Mounts.length_put (m : Mounts) (mount : Text) (entry : Entry) :
    (m.put mount entry).entries.length =
      m.entries.length + if (m.get? mount).isSome then 0 else 1 :=
  m.ascending.length_insertEntry mount entry

theorem length_redeclared_mountEvents (seen : Mounts) (es : List (Text × Entry)) :
    ((mountEvents seen es).filterMap Event.redeclared?).length +
      (es.foldl (fun m e => m.put e.1 e.2) seen).entries.length =
      seen.entries.length + es.length := by
  induction es generalizing seen with
  | nil => simp [mountEvents]
  | cons e es ih =>
    have hrest := ih (seen.put e.1 e.2)
    rw [Mounts.length_put] at hrest
    -- a mount point that was there gives an event but no more entries, a new one the reverse
    by_cases hseen : (seen.get? e.1).isSome = true
    · simp [mountEvents, hseen, List.filterMap_cons, Event.redeclared?] at hrest ⊢
      omega
    · simp [mountEvents, hseen, List.filterMap_cons, Event.redeclared?] at hrest ⊢
      omega

theorem planned_schemeEvents (mounts : Mounts) :
    (Scheme.events mounts).filterMap Event.planned? =
      mounts.entries.map fun e => classify e.1 e.2 := by
  have hpartition : ∀ p : Partition, (partitionEvents p).filterMap Event.planned? = [p] := by
    intro p
    unfold partitionEvents
    split <;> rfl
  rw [Scheme.events, List.filterMap_append, List.filterMap_flatMap]
  simp [hpartition, List.filterMap_cons, Event.planned?, ← List.map_eq_flatMap]

theorem partitionEvents_classify (mount : Text) (entry : Entry) :
    partitionEvents (classify mount entry) =
      if Unruled mount then [.partitionUnsized mount, .partitionPlanned (classify mount entry)]
      else [.partitionPlanned (classify mount entry)] := by
  have hrole := classify_role mount entry
  have hmount := classify_mount mount entry
  unfold partitionEvents
  by_cases h : Unruled mount
  · have hprimary : (classify mount entry).role = .primary :=
      hrole.trans ((roleOf_eq_primary_iff mount).mpr h)
    simp [hprimary, hmount, h]
  · have hother : (classify mount entry).role ≠ .primary := by
      intro hprimary
      exact h ((roleOf_eq_primary_iff mount).mp (hrole.symm.trans hprimary))
    split
    · contradiction
    · simp [h]

/-- Right behind each event that is about a mount point without a rule comes what `next` says. -/
def Followed (next : Text → Event → Prop) (events : List Event) : Prop :=
  ∀ before mount after, events = before ++ .partitionUnsized mount :: after →
    ∃ e rest, after = e :: rest ∧ next mount e

theorem followed_of_not_mem {next : Text → Event → Prop} {events : List Event}
    (h : ∀ mount, .partitionUnsized mount ∉ events) : Followed next events := by
  intro before mount after hsplit
  have hmem : .partitionUnsized mount ∈ events := by simp [hsplit]
  exact absurd hmem (h mount)

theorem followed_pair {next : Text → Event → Prop} {mount : Text} {p : Partition}
    (h : next mount (.partitionPlanned p)) :
    Followed next [.partitionUnsized mount, .partitionPlanned p] := by
  intro before other after hsplit
  cases before with
  | nil =>
    obtain ⟨hother, hafter⟩ := List.cons.inj hsplit
    cases hother
    exact ⟨.partitionPlanned p, [], hafter.symm, h⟩
  | cons e before =>
    have hrest := (List.cons.inj hsplit).2
    have hmem : Event.partitionUnsized other ∈ [Event.partitionPlanned p] := by simp [hrest]
    simp at hmem

theorem Followed.append {next : Text → Event → Prop} {xs ys : List Event} (hx : Followed next xs)
    (hy : Followed next ys) : Followed next (xs ++ ys) := by
  intro before mount after hsplit
  -- the event lies in `ys`, or in `xs` and then what comes right behind it does as well
  rcases List.append_eq_append_iff.mp hsplit with ⟨middle, hbefore, hys⟩ | ⟨middle, hxs, hafter⟩
  · exact hy middle mount after hys
  · cases middle with
    | nil => exact hy [] mount after hafter.symm
    | cons e middle =>
      obtain ⟨he, hmore⟩ := List.cons.inj hafter
      subst he
      obtain ⟨e, rest, hmiddle, hnext⟩ := hx before mount middle hxs
      exact ⟨e, rest ++ ys, by rw [hmore, hmiddle]; rfl, hnext⟩

theorem Followed.flatMap {α : Type} {next : Text → Event → Prop} {events : α → List Event}
    {as : List α} (h : ∀ a ∈ as, Followed next (events a)) : Followed next (as.flatMap events) := by
  induction as with
  | nil => exact followed_of_not_mem (by simp)
  | cons a as ih =>
    have ha := h a List.mem_cons_self
    have has := ih fun b hb => h b (List.mem_cons_of_mem a hb)
    rw [List.flatMap_cons]
    exact ha.append has

theorem warnings_partitionEvents (es : List (Text × Entry)) :
    (es.flatMap fun e => partitionEvents (classify e.1 e.2)).filter Event.isWarning =
      ((es.map Prod.fst).filter fun mount => Unruled mount).map .partitionUnsized := by
  induction es with
  | nil => rfl
  | cons e es ih =>
    have hplanned : Event.isWarning (.partitionPlanned (classify e.1 e.2)) = false := rfl
    have hunsized : Event.isWarning (.partitionUnsized e.1) = true := rfl
    rw [List.flatMap_cons, List.filter_append, ih, partitionEvents_classify, List.map_cons]
    by_cases h : Unruled e.1
    · simp [h, hplanned, hunsized]
    · simp [h, hplanned]

def Plans (mounts : Mounts) (mount : Text) (e : Event) : Prop :=
  ∃ p, (Scheme.infer mounts).partition? mount = some p ∧ e = .partitionPlanned p

theorem followed_partitionEvents (mounts : Mounts) :
    Followed (Plans mounts)
      (mounts.entries.flatMap fun e => partitionEvents (classify e.1 e.2)) := by
  apply Followed.flatMap
  intro e he
  have hget : mounts.get? e.1 = some e.2 := mounts.ascending.lookup_eq_some_iff.mpr he
  have hpartition : (Scheme.infer mounts).partition? e.1 = some (classify e.1 e.2) := by
    rw [Scheme.partition?_infer, hget, Option.map_some]
  rw [partitionEvents_classify]
  by_cases h : Unruled e.1
  · rw [if_pos h]
    exact followed_pair ⟨_, hpartition, rfl⟩
  · rw [if_neg h]
    exact followed_of_not_mem (by simp)

/-- Only the inference of the scheme warns. -/
theorem exists_quiet_documentEvents (t : Text) :
    ∃ quiet, documentEvents t = quiet ++ Scheme.events (.ofText t) ∧
      quiet.filter Event.isWarning = [] := by
  refine ⟨_, rfl, ?_⟩
  have hopen := filterMap_declarationEvents (Option.guard Event.isWarning)
    (fun _ _ => rfl) filesystemsAttribute (declarations filesystemsAttribute true t)
  have hmounts := filterMap_mountEvents (Option.guard Event.isWarning)
    (fun _ _ => rfl) (fun _ => rfl) .empty
    ((filesystemBlocks t).map fun b => (b.1, Entry.ofBlock b.2))
  rw [List.filterMap_eq_filter] at hopen hmounts
  simp only [List.filter_append, hopen, hmounts]
  simp [Event.isWarning, Event.level]

theorem warnings_documentEvents (t : Text) :
    (documentEvents t).filter Event.isWarning =
      (((Mounts.ofText t).entries.map Prod.fst).filter fun mount => Unruled mount).map
        .partitionUnsized := by
  obtain ⟨quiet, hsplit, hquiet⟩ := exists_quiet_documentEvents t
  have hlast : ∀ type, [Event.schemeInferred type].filter Event.isWarning = [] := fun _ => rfl
  rw [hsplit, List.filter_append, hquiet, Scheme.events, List.filter_append, hlast,
    warnings_partitionEvents, List.nil_append, List.append_nil]

theorem followed_documentEvents (t : Text) :
    Followed (Plans (.ofText t)) (documentEvents t) := by
  obtain ⟨quiet, hsplit, hquiet⟩ := exists_quiet_documentEvents t
  have hnone : ∀ mount, Event.partitionUnsized mount ∉ quiet := by
    intro mount hmem
    exact List.filter_eq_nil_iff.mp hquiet _ hmem rfl
  rw [hsplit]
  apply (followed_of_not_mem hnone).append
  apply (followed_partitionEvents (.ofText t)).append
  exact followed_of_not_mem (by simp)

theorem found_documentEvents (t : Text) :
    (documentEvents t).filterMap Event.found? =
      (filesystemBlocks t).map fun b => (b.1, stringField "fsType" b.2) := by
  have hprofiles := filterMap_profileEvents Event.found? (fun _ => rfl)
    (importedProfiles t)
  have hscheme := filterMap_schemeEvents Event.found? (fun _ => rfl) (fun _ => rfl)
    (fun _ => rfl) (.ofText t)
  rw [filterMap_documentEvents Event.found? (fun _ _ => rfl) (fun _ => rfl), found_mountEvents,
    hprofiles, hscheme, List.append_nil, List.append_nil, List.map_map]
  rfl

theorem length_redeclared_documentEvents (t : Text) :
    ((documentEvents t).filterMap Event.redeclared?).length + (Mounts.ofText t).entries.length =
      (filesystemBlocks t).length := by
  have hprofiles := filterMap_profileEvents Event.redeclared? (fun _ => rfl)
    (importedProfiles t)
  have hscheme := filterMap_schemeEvents Event.redeclared? (fun _ => rfl)
    (fun _ => rfl) (fun _ => rfl) (.ofText t)
  have hmounts := length_redeclared_mountEvents .empty
    ((filesystemBlocks t).map fun b => (b.1, Entry.ofBlock b.2))
  have hempty : Mounts.empty.entries.length = 0 := rfl
  rw [hempty, Nat.zero_add, List.length_map] at hmounts
  rw [filterMap_documentEvents Event.redeclared? (fun _ _ => rfl) (fun _ => rfl), hprofiles,
    hscheme, List.append_nil, List.append_nil]
  exact hmounts

theorem profiles_documentEvents (t : Text) :
    (documentEvents t).filterMap Event.profile? = importedProfiles t := by
  have hmounts := filterMap_mountEvents Event.profile? (fun _ _ => rfl) (fun _ => rfl)
    .empty ((filesystemBlocks t).map fun b => (b.1, Entry.ofBlock b.2))
  have hscheme := filterMap_schemeEvents Event.profile? (fun _ => rfl)
    (fun _ => rfl) (fun _ => rfl) (.ofText t)
  have hprofile : Event.profile? ∘ Event.profileFound = some := rfl
  rw [filterMap_documentEvents Event.profile? (fun _ _ => rfl) (fun _ => rfl), hmounts, hscheme,
    List.nil_append, List.append_nil, List.filterMap_map, hprofile, List.filterMap_some]

theorem planned_documentEvents (t : Text) :
    (documentEvents t).filterMap Event.planned? =
      (Mounts.ofText t).entries.map fun e => classify e.1 e.2 := by
  have hmounts := filterMap_mountEvents Event.planned? (fun _ _ => rfl) (fun _ => rfl)
    .empty ((filesystemBlocks t).map fun b => (b.1, Entry.ofBlock b.2))
  have hprofiles := filterMap_profileEvents Event.planned? (fun _ => rfl)
    (importedProfiles t)
  rw [filterMap_documentEvents Event.planned? (fun _ _ => rfl) (fun _ => rfl), hmounts, hprofiles,
    planned_schemeEvents, List.nil_append, List.nil_append]

theorem getLast?_documentEvents (t : Text) :
    (documentEvents t).getLast? = some (.schemeInferred (Scheme.infer (.ofText t)).type) := by
  rw [documentEvents, Scheme.events, ← List.append_assoc, List.getLast?_concat]

theorem Scheme.nodup_partitions (mounts : Mounts) : (Scheme.infer mounts).partitions.Nodup := by
  have hmounts := mounts.ascending.nodup_mounts
  rw [← mounts_map_classify] at hmounts
  have hclassified : (mounts.entries.map fun e => classify e.1 e.2).Nodup :=
    List.Pairwise.of_map (·.mount) (fun p q hne heq => hne (congrArg (·.mount) heq)) hmounts
  exact (Scheme.partitions_perm mounts).nodup_iff.mpr hclassified

/-- The log of a document tells of every block in order, of every block beyond the first for its
mount point, and of every profile in order. It warns of exactly the mount points that no rule
fits, in ascending order and each time right before the event about the partition there. It tells
of every partition once, and at the end of the type of the scheme. -/
theorem documentEvents_account (t source : Text) :
    let facts := Facts.ofText t source
    let events := documentEvents t
    events.filterMap Event.found? =
      (filesystemBlocks t).map (fun b => (b.1, stringField "fsType" b.2)) ∧
    (events.filterMap Event.redeclared?).length + facts.mounts.entries.length =
      (filesystemBlocks t).length ∧
    events.filterMap Event.profile? = facts.profiles ∧
    events.filter (fun e => e.level = .warn) =
      ((facts.mounts.entries.map Prod.fst).filter fun mount => Unruled mount).map
        .partitionUnsized ∧
    (facts.mounts.entries.map Prod.fst).Pairwise (fun a b => bytes a < bytes b) ∧
    (∀ before mount after, events = before ++ .partitionUnsized mount :: after →
      ∃ p rest, facts.scheme.partition? mount = some p ∧ after = .partitionPlanned p :: rest) ∧
    (events.filterMap Event.planned?).Perm facts.scheme.partitions ∧
    facts.scheme.partitions.Nodup ∧
    events.getLast? = some (.schemeInferred facts.scheme.type) := by
  intro facts events
  have hascending : (facts.mounts.entries.map Prod.fst).Pairwise fun a b => bytes a < bytes b := by
    apply List.pairwise_map.mpr
    exact facts.mounts.ascending.imp fun hlt => bytes_lt_of_lt hlt
  have hplanned : (events.filterMap Event.planned?).Perm facts.scheme.partitions := by
    rw [planned_documentEvents]
    exact (Scheme.partitions_perm facts.mounts).symm
  refine ⟨found_documentEvents t, length_redeclared_documentEvents t, profiles_documentEvents t,
    warnings_documentEvents t, hascending, ?_, hplanned, Scheme.nodup_partitions facts.mounts,
    getLast?_documentEvents t⟩
  intro before mount after hsplit
  obtain ⟨e, rest, hafter, p, hp, rfl⟩ := followed_documentEvents t before mount after hsplit
  exact ⟨p, rest, hp, hafter⟩

def repeatedMount : Text :=
  "fileSystems.\"/srv\" = \x7b fsType = \"xfs\"; \x7d;\n" ++
    "fileSystems.\"/srv\" = \x7b noCheck = true; \x7d;"

theorem documentEvents_account_repeated :
    documentEvents repeatedMount =
      [.filesystemFound "/srv" (some "xfs"), .filesystemFound "/srv" none,
        .filesystemRedeclared "/srv", .partitionUnsized "/srv",
        .partitionPlanned ⟨"/srv", "ext4", .fixed 0, .primary, none, .primary⟩,
        .schemeInferred .unknown] ∧
    ∃ p rest, (Scheme.infer (.ofText repeatedMount)).partition? "/srv" = some p ∧
      [Event.partitionPlanned ⟨"/srv", "ext4", .fixed 0, .primary, none, .primary⟩,
        .schemeInferred .unknown] = .partitionPlanned p :: rest := by
  have hevents : documentEvents repeatedMount =
      [.filesystemFound "/srv" (some "xfs"), .filesystemFound "/srv" none,
        .filesystemRedeclared "/srv", .partitionUnsized "/srv",
        .partitionPlanned ⟨"/srv", "ext4", .fixed 0, .primary, none, .primary⟩,
        .schemeInferred .unknown] := by decide +kernel
  obtain ⟨-, -, -, -, -, hfollowed, -⟩ := documentEvents_account repeatedMount []
  refine ⟨hevents, ?_⟩
  exact hfollowed [.filesystemFound "/srv" (some "xfs"), .filesystemFound "/srv" none,
    .filesystemRedeclared "/srv"] "/srv" _ hevents

end MachineFacts
