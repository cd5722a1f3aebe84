import MachineFacts.Facts
import MachineFacts.Proofs.Declarations
import MachineFacts.Proofs.Lookup
import MachineFacts.Proofs.Occurrence

/-! Everything a document is searched for. A search passes over a text that has nothing for it,
and passing is closed under joining texts, so it is shown part by part. -/

namespace MachineFacts

inductive Stage where
  | initrd
  | kernel
  deriving DecidableEq

def Stage.option : Stage → Text
  | .initrd => initrdModulesOption
  | .kernel => kernelModulesOption

inductive Attribute where
  | device
  | fsType
  deriving DecidableEq

def Attribute.name : Attribute → Text
  | .device => "device"
  | .fsType => "fsType"

inductive Query where
  | filesystems
  | imports
  | modules (stage : Stage)
  | loader (loader : Loader)
  | uefi
  | string (a : Attribute)
  | options
  deriving DecidableEq

def Query.all : List Query :=
  [.filesystems, .imports, .modules .initrd, .modules .kernel, .loader .systemdBoot, .loader .grub,
    .uefi, .string .device, .string .fsType, .options]

theorem Query.mem_all (q : Query) : q ∈ Query.all := by
  cases q with
  | modules stage => cases stage <;> decide
  | loader l => cases l <;> decide
  | string a => cases a <;> decide
  | _ => decide

instance (p : Query → Prop) [DecidablePred p] : Decidable (∀ q, p q) :=
  decidable_of_iff (∀ q ∈ Query.all, p q) ⟨fun h q => h q q.mem_all, fun h q _ => h q⟩

def Query.needle : Query → Text
  | .filesystems => filesystemsAttribute ++ ".\""
  | .imports => "imports"
  | .modules stage => stage.option
  | .loader l => l.indicator
  | .uefi => uefiIndicator
  | .string a => a.name
  | .options => "options"

/-- Whether the text is searched for inside filesystem blocks. -/
def Query.inBlocks : Query → Bool
  | .string _ | .options => true
  | _ => false

/-- The text has nothing for the query, whatever follows it. -/
def Query.Misses : Query → Text → Prop
  | .filesystems, t => standings (filesystemsAttribute ++ ".\"") true t = []
  | .imports, t => Unread "imports" readList t
  | .modules stage, t => Unread stage.option readStrings t
  | .loader l, t => occurs l.indicator t = false
  | .uefi, t => occurs uefiIndicator t = false
  | .string a, t => Unread a.name readString t
  | .options, t => Unread "options" readStrings t

theorem Stage.isName_option (stage : Stage) : IsName stage.option := by
  cases stage <;> decide

theorem Attribute.isName_name (a : Attribute) : IsName a.name := by
  cases a <;> decide

theorem Query.nameLike_needle : ∀ q : Query, NameLike q.needle := by decide

theorem Query.misses_of_not_occurs {q : Query} {t : Text} (h : occurs q.needle t = false) :
    q.Misses t := by
  have hnil := standings_eq_nil_of_occurs h true
  cases q with
  | filesystems => exact hnil
  | loader l => exact h
  | uefi => exact h
  | _ => exact unread_of_standings_eq_nil hnil

theorem Query.Misses.append {q : Query} {x y : Text} (hx : endsName x = true) (h : q.Misses x)
    (hy : q.Misses y) : q.Misses (x ++ y) := by
  have hn := q.nameLike_needle
  cases q with
  | filesystems =>
    have hx' : standings (Query.needle .filesystems) true x = [] := h
    have hy' : standings (Query.needle .filesystems) true y = [] := hy
    exact (standings_append hn hx y).trans (by rw [hx', hy']; rfl)
  | loader l =>
    exact (occurs_append_of_endsName hn hx y).trans (Bool.or_eq_false_iff.mpr ⟨h, hy⟩)
  | uefi => exact (occurs_append_of_endsName hn hx y).trans (Bool.or_eq_false_iff.mpr ⟨h, hy⟩)
  | _ => exact Unread.append hn hx h hy

/-- The query passes over the text and starts anew behind it. -/
structure Query.Passes (q : Query) (t : Text) : Prop where
  ends : endsName t = true
  misses : q.Misses t

theorem endsName_append {x y : Text} (hx : endsName x = true) (hy : endsName y = true) :
    endsName (x ++ y) = true := by
  cases hl : y.getLast? with
  | none => rwa [List.getLast?_eq_none_iff.mp hl, List.append_nil]
  | some c =>
    rw [endsName, hl] at hy
    rw [endsName, List.getLast?_append, hl]
    exact hy

theorem Query.Passes.append {q : Query} {x y : Text} (hx : q.Passes x) (hy : q.Passes y) :
    q.Passes (x ++ y) :=
  ⟨endsName_append hx.ends hy.ends, hx.misses.append hx.ends hy.misses⟩

theorem endsName_of_forall {t : Text} (h : ∀ c ∈ t, isNameChar c = false) : endsName t = true := by
  cases hl : t.getLast? with
  | none => simp [endsName, hl]
  | some c => simp [endsName, hl, h c (List.mem_of_getLast? hl)]

theorem Query.passes_of_forall {t : Text} (h : ∀ c ∈ t, isNameChar c = false) (q : Query) :
    q.Passes t := by
  refine ⟨endsName_of_forall h, misses_of_not_occurs (occurs_eq_false_iff.mpr fun hin => ?_)⟩
  have hne : ∀ q : Query, q.needle.dropLast ≠ [] := by decide
  have hmem := List.head_mem (hne q)
  have hname := q.nameLike_needle.2 _ hmem
  have hblank := h _ (hin.subset (List.dropLast_subset _ hmem))
  rw [hname] at hblank
  cases hblank

theorem Query.passes_flatMap {α : Type} {q : Query} {f : α → Text} {as : List α}
    (h : ∀ a ∈ as, q.Passes (f a)) : q.Passes (as.flatMap f) := by
  induction as with
  | nil => exact q.passes_of_forall (by simp)
  | cons a as ih =>
    rw [List.flatMap_cons]
    exact (h a List.mem_cons_self).append (ih fun b hb => h b (List.mem_cons_of_mem a hb))

theorem filesystemBlocks_append_of_passes {x : Text} (h : Query.filesystems.Passes x)
    (y : Text) : filesystemBlocks (x ++ y) = filesystemBlocks y := by
  have ha : IsName filesystemsAttribute := by decide
  have hnone : findName (filesystemsAttribute ++ ".\"") true x = none := by
    have hnil : standings (filesystemsAttribute ++ ".\"") true x = [] := h.misses
    rw [findName_eq_head? (startsNarrow_introducer ha), hnil]
    rfl
  simp only [filesystemBlocks, attributeBlocks, declarations_append_of_none ha h.ends hnone]

theorem listBlock_append_of_passes {x : Text} (h : Query.imports.Passes x) (y : Text) :
    listBlock "imports" (x ++ y) = listBlock "imports" y :=
  readNamed_append_of_unread (by decide) h.ends h.misses y

end MachineFacts
