import MachineFacts.Report
import MachineFacts.Proofs.JsonForms
import MachineFacts.Proofs.Plan

/-! Reading the facts back from the report about them. The role of a partition is not reported, as
its mount point decides it; everything else is. -/

namespace MachineFacts

def Json.text? : Json → Option Text
  | .text t => some t
  | _ => none

def Json.truth? : Json → Option Bool
  | .truth b => some b
  | _ => none

def Json.list? {α : Type} (decode : Json → Option α) : Json → Option (List α)
  | .array items => items.mapM decode
  | _ => none

def Json.field? (key : Text) : Json → Option Json
  | .object fields => fields.lookup key
  | _ => none

def Json.required {α : Type} (key : Text) (decode : Json → Option α) (j : Json) : Option α :=
  (j.field? key).bind decode

/-- A field that is missing has no value; one that cannot be read is an error. -/
def Json.optional {α : Type} (key : Text) (decode : Json → Option α) (j : Json) :
    Option (Option α) :=
  match j.field? key with
  | none => some none
  | some value => (decode value).map some

/-- The one of some values that goes by the name in a text. -/
def Json.named {α : Type} (name : α → Text) (all : List α) (j : Json) : Option α :=
  j.text?.bind fun t => all.find? fun a => name a = t

def Entry.ofJson (j : Json) : Option Entry := do
  let device ← j.optional "device" Json.text?
  let fsType ← j.optional "fsType" Json.text?
  let options ← j.optional "options" (Json.list? Json.text?)
  return ⟨device, fsType, options⟩

def Mounts.ofJson : Json → Option Mounts
  | .object fields =>
    (fields.mapM fun f => (Entry.ofJson f.2).map fun e => (f.1, e)).map Mounts.ofList
  | _ => none

def Boot.ofJson (j : Json) : Option Boot := do
  let loader ← j.optional "loader" (Json.named Loader.name Loader.byPriority)
  let uefi ← j.optional "uefi" Json.truth?
  let initrdModules ← j.optional "initrd_modules" (Json.list? Json.text?)
  let kernelModules ← j.optional "kernel_modules" (Json.list? Json.text?)
  return ⟨loader, uefi.getD false, initrdModules, kernelModules⟩

def Size.ofJson : Json → Option Size
  | .number mb => some (.fixed mb)
  | .text t => if t = "remaining" then some .remaining else none
  | _ => none

def Partition.ofJson (j : Json) : Option Partition := do
  let mount ← j.required "mount" Json.text?
  let fsType ← j.required "fstype" Json.text?
  let size ← j.required "size_mb" Size.ofJson
  let type ← j.required "type" (Json.named TableType.name [.efiSystem, .primary])
  let label ← j.optional "label" Json.text?
  return ⟨mount, fsType, size, type, label, roleOf mount⟩

def Scheme.ofJson (j : Json) : Option Scheme := do
  let type ← j.required "type" (Json.named SchemeType.name [.uefi, .bios, .unknown])
  let partitions ← j.required "partitions" (Json.list? Partition.ofJson)
  return ⟨type, partitions⟩

def Facts.ofJson (j : Json) : Option Facts := do
  let mounts ← j.required "filesystems" Mounts.ofJson
  let boot ← j.required "boot" Boot.ofJson
  let profiles ← j.required "hardware_modules" (Json.list? Json.text?)
  let scheme ← j.required "partition_scheme" Scheme.ofJson
  let source ← j.required "source_file" Json.text?
  return ⟨mounts, boot, profiles, scheme, source⟩

def factsOfReport : Json → Option (List Facts)
  | .array items => items.mapM Facts.ofJson
  | j => (Facts.ofJson j).map fun f => [f]

def decodeReport (t : Text) : Option (List Facts) := (readJson t).bind factsOfReport

theorem mapM_map_eq_some {α β : Type} {f : β → Option α} {g : α → β} {as : List α}
    (h : ∀ a ∈ as, f (g a) = some a) : (as.map g).mapM f = some as := by
  induction as with
  | nil => rfl
  | cons a as ih =>
    obtain ⟨ha, has⟩ := List.forall_mem_cons.mp h
    rw [List.map_cons, List.mapM_cons, ha, ih has]
    rfl

theorem list?_textList (ts : List Text) : (textList ts).list? Json.text? = some ts :=
  mapM_map_eq_some fun _ _ => rfl

@[simp]
theorem field?_object (key : Text) (fields : List (Text × Json)) :
    (Json.object fields).field? key = fields.lookup key := rfl

section

variable {α : Type} {decode : Json → Option α} (encode : α → Json)

@[simp]
theorem lookup_optionalField (k key : Text) (o : Option α) :
    (optionalField key encode o).lookup k = if k = key then o.map encode else none := by
  cases o with
  | none => simp [optionalField]
  | some a => simp [optionalField, lookup_cons_eq_ite]

theorem required_of_field {key : Text} {j : Json} {a : α} (h : j.field? key = some (encode a))
    (ha : decode (encode a) = some a) : j.required key decode = some a := by
  rw [Json.required, h, Option.bind_some, ha]

theorem optional_of_field {key : Text} {j : Json} {o : Option α}
    (h : j.field? key = o.map encode) (ho : ∀ a, decode (encode a) = some a) :
    j.optional key decode = some o := by
  rw [Json.optional, h]
  cases o with
  | none => rfl
  | some a => simp [ho]

end

theorem Entry.ofJson_toJson (e : Entry) : Entry.ofJson e.toJson = some e := by
  have hdevice : e.toJson.optional "device" Json.text? = some e.device :=
    optional_of_field .text (by simp [toJson, List.lookup_append]) fun _ => rfl
  have hfsType : e.toJson.optional "fsType" Json.text? = some e.fsType :=
    optional_of_field .text (by simp [toJson, List.lookup_append]) fun _ => rfl
  have hoptions : e.toJson.optional "options" (Json.list? Json.text?) = some e.options :=
    optional_of_field textList (by simp [toJson, List.lookup_append]) list?_textList
  rw [ofJson, hdevice, hfsType, hoptions]
  rfl

theorem Mounts.ofList_entries (m : Mounts) : Mounts.ofList m.entries = m := by
  refine Mounts.ext_get? fun mount => ?_
  rw [Mounts.get?_ofList, m.ascending.lookup_reverse, Mounts.get?]

theorem Mounts.ofJson_toJson (m : Mounts) : Mounts.ofJson m.toJson = some m := by
  have hfields : (m.entries.map fun e => (e.1, e.2.toJson)).mapM
      (fun f => (Entry.ofJson f.2).map fun e => (f.1, e)) = some m.entries :=
    mapM_map_eq_some fun e _ => by rw [Entry.ofJson_toJson, Option.map_some]
  rw [toJson, ofJson, hfields, Option.map_some, ofList_entries]

theorem Loader.ofJson_name (l : Loader) :
    Json.named Loader.name Loader.byPriority (.text l.name) = some l := by
  cases l <;> rfl

def Boot.flag (b : Boot) : Option Bool := if b.uefi then some true else none

theorem Boot.toJson_eq (b : Boot) :
    b.toJson = .object (optionalField "loader" (fun l : Loader => .text l.name) b.loader ++
      optionalField "uefi" .truth b.flag ++
      optionalField "initrd_modules" textList b.initrdModules ++
      optionalField "kernel_modules" textList b.kernelModules) := by
  rw [toJson, flag]
  cases b.uefi <;> rfl

theorem Boot.getD_flag (b : Boot) : b.flag.getD false = b.uefi := by
  rw [flag]
  cases b.uefi <;> rfl

theorem Boot.ofJson_toJson (b : Boot) : Boot.ofJson b.toJson = some b := by
  have hloader : b.toJson.optional "loader" (Json.named Loader.name Loader.byPriority) =
      some b.loader :=
    optional_of_field (fun l => .text l.name) (by simp [toJson_eq, List.lookup_append])
      Loader.ofJson_name
  have huefi : b.toJson.optional "uefi" Json.truth? = some b.flag :=
    optional_of_field .truth (by simp [toJson_eq, List.lookup_append]) fun _ => rfl
  have hinitrd : b.toJson.optional "initrd_modules" (Json.list? Json.text?) =
      some b.initrdModules :=
    optional_of_field textList (by simp [toJson_eq, List.lookup_append]) list?_textList
  have hkernel : b.toJson.optional "kernel_modules" (Json.list? Json.text?) =
      some b.kernelModules :=
    optional_of_field textList (by simp [toJson_eq, List.lookup_append]) list?_textList
  rw [ofJson, hloader, huefi, hinitrd, hkernel]
  simp only [Option.bind_eq_bind, Option.bind_some, getD_flag]
  rfl

theorem Size.ofJson_toJson (s : Size) : Size.ofJson s.toJson = some s := by
  cases s <;> rfl

theorem TableType.ofJson_name (t : TableType) :
    Json.named TableType.name [.efiSystem, .primary] (.text t.name) = some t := by
  cases t <;> rfl

theorem SchemeType.ofJson_name (t : SchemeType) :
    Json.named SchemeType.name [.uefi, .bios, .unknown] (.text t.name) = some t := by
  cases t <;> rfl

theorem Partition.ofJson_toJson {p : Partition} (hp : p.role = roleOf p.mount) :
    Partition.ofJson p.toJson = some p := by
  have hmount : p.toJson.required "mount" Json.text? = some p.mount :=
    required_of_field .text (by simp [toJson]) rfl
  have hfsType : p.toJson.required "fstype" Json.text? = some p.fsType :=
    required_of_field .text (by simp [toJson, lookup_cons_eq_ite]) rfl
  have hsize : p.toJson.required "size_mb" Size.ofJson = some p.size :=
    required_of_field Size.toJson (by simp [toJson, lookup_cons_eq_ite]) p.size.ofJson_toJson
  have htype : p.toJson.required "type" (Json.named TableType.name [.efiSystem, .primary]) =
      some p.type :=
    required_of_field (fun t => .text t.name) (by simp [toJson, lookup_cons_eq_ite])
      p.type.ofJson_name
  have hlabel : p.toJson.optional "label" Json.text? = some p.label :=
    optional_of_field .text (by simp [toJson, lookup_cons_eq_ite]) fun _ => rfl
  rw [ofJson, hmount, hfsType, hsize, htype, hlabel]
  simp only [Option.bind_eq_bind, Option.bind_some, ← hp]
  rfl

theorem Scheme.ofJson_toJson {s : Scheme} (hs : ∀ p ∈ s.partitions, p.role = roleOf p.mount) :
    Scheme.ofJson s.toJson = some s := by
  have htype : s.toJson.required "type" (Json.named SchemeType.name [.uefi, .bios, .unknown]) =
      some s.type :=
    required_of_field (fun t => .text t.name) (by simp [toJson]) s.type.ofJson_name
  have hlist : (Json.array (s.partitions.map (·.toJson))).list? Partition.ofJson =
      some s.partitions :=
    mapM_map_eq_some fun p hp => Partition.ofJson_toJson (hs p hp)
  have hpartitions : s.toJson.required "partitions" (Json.list? Partition.ofJson) =
      some s.partitions :=
    required_of_field (fun ps : List Partition => .array (ps.map (·.toJson)))
      (by simp [toJson, lookup_cons_eq_ite]) hlist
  rw [ofJson, htype, hpartitions]
  rfl

theorem Facts.ofJson_toJson {f : Facts}
    (hf : ∀ p ∈ f.scheme.partitions, p.role = roleOf p.mount) : Facts.ofJson f.toJson = some f := by
  have hmounts : f.toJson.required "filesystems" Mounts.ofJson = some f.mounts :=
    required_of_field Mounts.toJson (by simp [toJson]) f.mounts.ofJson_toJson
  have hboot : f.toJson.required "boot" Boot.ofJson = some f.boot :=
    required_of_field Boot.toJson (by simp [toJson, lookup_cons_eq_ite]) f.boot.ofJson_toJson
  have hprofiles : f.toJson.required "hardware_modules" (Json.list? Json.text?) = some f.profiles :=
    required_of_field textList (by simp [toJson, lookup_cons_eq_ite]) (list?_textList f.profiles)
  have hscheme : f.toJson.required "partition_scheme" Scheme.ofJson = some f.scheme :=
    required_of_field Scheme.toJson (by simp [toJson, lookup_cons_eq_ite])
      (Scheme.ofJson_toJson hf)
  have hsource : f.toJson.required "source_file" Json.text? = some f.source :=
    required_of_field .text (by simp [toJson, lookup_cons_eq_ite]) rfl
  rw [ofJson, hmounts, hboot, hprofiles, hscheme, hsource]
  rfl

theorem role_of_mem_partitions (t source : Text) :
    ∀ p ∈ (Facts.ofText t source).scheme.partitions, p.role = roleOf p.mount := by
  intro p hp
  obtain ⟨e, -, rfl⟩ := List.mem_map.mp ((Scheme.partitions_perm _).mem_iff.mp hp)
  rw [classify_role, classify_mount]

theorem written_render (fs : List Facts) (compact : Bool) :
    Written (.value (reportJson fs)) (render fs compact) := by
  cases compact with
  | true => exact (reportJson fs).written_compact
  | false => exact (reportJson fs).written_pretty 0

theorem reportJson_of_length_ne_one {fs : List Facts} (h : fs.length ≠ 1) :
    reportJson fs = .array (fs.map (·.toJson)) := by
  rcases fs with _ | ⟨f, _ | ⟨g, fs⟩⟩
  · rfl
  · exact absurd rfl h
  · rfl

theorem reportJson_isObject_iff (fs : List Facts) :
    (∃ fields, reportJson fs = .object fields) ↔ fs.length = 1 := by
  constructor
  · rintro ⟨fields, hfields⟩
    by_contra h
    rw [reportJson_of_length_ne_one h] at hfields
    cases hfields
  · intro h
    obtain ⟨f, rfl⟩ := List.length_eq_one_iff.mp h
    exact ⟨_, rfl⟩

theorem factsOfReport_reportJson {fs : List Facts}
    (h : ∀ f ∈ fs, Facts.ofJson f.toJson = some f) : factsOfReport (reportJson fs) = some fs := by
  by_cases hone : fs.length = 1
  · obtain ⟨f, rfl⟩ := List.length_eq_one_iff.mp hone
    have hf := h f List.mem_cons_self
    have hread : factsOfReport (reportJson [f]) = (Facts.ofJson f.toJson).map fun f => [f] := rfl
    rw [hread, hf, Option.map_some]
  · rw [reportJson_of_length_ne_one hone]
    exact mapM_map_eq_some h

def factsOf (documents : List (Text × Text)) : List Facts :=
  documents.map fun d => Facts.ofText d.1 d.2

theorem decodeReport_render (documents : List (Text × Text)) (compact : Bool) :
    decodeReport (render (factsOf documents) compact) = some (factsOf documents) := by
  have hfacts : ∀ f ∈ factsOf documents, Facts.ofJson f.toJson = some f := by
    intro f hf
    obtain ⟨d, -, rfl⟩ := List.mem_map.mp hf
    exact Facts.ofJson_toJson (role_of_mem_partitions d.1 d.2)
  rw [decodeReport, readJson_of_written (written_render _ compact), Option.bind_some,
    factsOfReport_reportJson hfacts]

/-- Both forms of a report denote one value: an object for one document and otherwise an array of
what is reported of each. All facts can be read back from it, so different facts are never
rendered alike, and the compact form is a single line. -/
theorem render_faithful (documents : List (Text × Text)) :
    let facts := factsOf documents
    (∀ compact, Written (.value (reportJson facts)) (render facts compact) ∧
      readJson (render facts compact) = some (reportJson facts) ∧
      decodeReport (render facts compact) = some facts) ∧
    ((∃ fields, reportJson facts = .object fields) ↔ facts.length = 1) ∧
    (facts.length ≠ 1 → reportJson facts = .array (facts.map (·.toJson))) ∧
    (∀ others compact, render facts compact = render (factsOf others) compact →
      facts = factsOf others) ∧
    NoControls (render facts true) := by
  intro facts
  refine ⟨fun compact => ⟨written_render facts compact, ?_, ?_⟩, reportJson_isObject_iff facts,
    reportJson_of_length_ne_one, fun others compact h => ?_, (reportJson facts).noControls_compact⟩
  · exact readJson_of_written (written_render facts compact)
  · exact decodeReport_render documents compact
  · have hread := decodeReport_render documents compact
    rw [h, decodeReport_render others compact] at hread
    exact (Option.some.inj hread).symm

end MachineFacts
