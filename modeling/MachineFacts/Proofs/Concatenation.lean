import MachineFacts.Facts
import MachineFacts.Proofs.Declarations
import MachineFacts.Proofs.Lookup
import MachineFacts.Proofs.Occurrence
import MachineFacts.Proofs.Overriding

/-! Facts of two documents that are joined. Where the first one closes everything it opens, the
joined text states what the first states and what the second states, and nothing else. -/

namespace MachineFacts

theorem first_readStrings_ne_endless {ts : List Text}
    (h : ∀ items ∈ ts.findSome? (assigned '['), listEnd false items ≠ none) :
    Reading.first readStrings ts ≠ .endless := by
  induction ts with
  | nil => simp [Reading.first]
  | cons t ts ih =>
    simp only [Reading.first, readStrings]
    cases ha : assigned '[' t with
    | none => exact ih fun items hi => h items (by simpa [ha] using hi)
    | some items =>
      cases hl : listEnd false items with
      | none => exact absurd hl (h items (by simp [ha]))
      | some rest => simp [hl]

/-- The document states everything it states in full: nothing in it is still open at its end. -/
structure Closed (d : Text) : Prop where
  ends : d.getLast? = some ';'
  declarations : ∀ x ∈ declarations filesystemsAttribute true d, x.isOpen = false
  modules : ∀ name ∈ [initrdModulesOption, kernelModulesOption],
    ∀ items ∈ (standings name true d).findSome? (assigned '['), listEnd false items ≠ none
  imports : ∀ t ∈ standings "imports" true d, ∀ items ∈ assigned '[' t, behind "];" items ≠ none

theorem Closed.sealed {d : Text} (h : Closed d) : Sealed d := by
  intro c hc
  rw [h.ends] at hc
  cases hc
  decide

theorem filesystemBlocks_append {x : Text} (hx : Sealed x) (hq : x.getLast? ≠ some '"')
    (hopen : ∀ d ∈ declarations filesystemsAttribute true x, d.isOpen = false) (y : Text) :
    filesystemBlocks (x ++ y) = filesystemBlocks x ++ filesystemBlocks y := by
  have ha : IsName filesystemsAttribute := by decide
  simp only [filesystemBlocks, attributeBlocks, declarations_append ha hx hq hopen,
    List.filterMap_append]

/-- The loader that comes first in priority. -/
def Loader.preferred (a b : Option Loader) : Option Loader :=
  Loader.byPriority.find? fun loader => a = some loader || b = some loader

def Boot.merge (a b : Boot) : Boot where
  loader := Loader.preferred a.loader b.loader
  uefi := a.uefi || b.uefi
  initrdModules := a.initrdModules.or b.initrdModules
  kernelModules := a.kernelModules.or b.kernelModules

theorem Loader.detect_append {x y : Text}
    (h : ∀ loader : Loader, occurs loader.indicator (x ++ y) =
      (occurs loader.indicator x || occurs loader.indicator y)) :
    Loader.detect (x ++ y) = Loader.preferred (Loader.detect x) (Loader.detect y) := by
  simp only [Loader.detect, Loader.preferred, Loader.byPriority, List.find?, h]
  cases occurs Loader.systemdBoot.indicator x <;> cases occurs Loader.systemdBoot.indicator y <;>
    cases occurs Loader.grub.indicator x <;> cases occurs Loader.grub.indicator y <;> rfl

theorem Closed.occurs_append {d : Text} (h : Closed d) {needle : Text} (hn : IsName needle)
    (y : Text) : occurs needle (d ++ y) = (occurs needle d || occurs needle y) := by
  refine occurs_append_of_last h.ends (fun hmem => ?_) y
  have := hn.2 _ (List.dropLast_subset _ hmem)
  revert this
  decide

theorem Closed.boot_append {d : Text} (h : Closed d) (y : Text) :
    Boot.ofText (d ++ y) = (Boot.ofText d).merge (Boot.ofText y) := by
  have hlist : ∀ name ∈ [initrdModulesOption, kernelModulesOption], IsName name →
      stringListField name (d ++ y) = (stringListField name d).or (stringListField name y) :=
    fun name hmem hn => stringListField_append hn h.sealed
      (first_readStrings_ne_endless (h.modules name hmem)) y
  have hloader : ∀ loader : Loader, IsName loader.indicator := by
    intro loader
    cases loader <;> decide
  simp only [Boot.ofText, Boot.merge, Boot.mk.injEq]
  exact ⟨Loader.detect_append fun loader => h.occurs_append (hloader loader) y,
    h.occurs_append (by decide) y, hlist _ (by simp) (by decide), hlist _ (by simp) (by decide)⟩

theorem Closed.profiles_append {d : Text} (h : Closed d) (y : Text) :
    importedProfiles (d ++ y) =
      if (listBlock "imports" d).isSome then importedProfiles d else importedProfiles y := by
  simp only [importedProfiles, listBlock_append (by decide) h.sealed h.imports y]
  cases listBlock "imports" d <;> rfl

/-- Behind a document that leaves nothing open, any other text adds its own facts: its entries
override, its lists count where there were none, and its loader by priority. -/
theorem ofText_append_of_closed {d : Text} (h : Closed d) (y source : Text) :
    filesystemBlocks (d ++ y) = filesystemBlocks d ++ filesystemBlocks y ∧
    Facts.ofText (d ++ y) source =
      { mounts := (Mounts.ofText d).override (Mounts.ofText y)
        boot := (Boot.ofText d).merge (Boot.ofText y)
        profiles :=
          if (listBlock "imports" d).isSome then importedProfiles d else importedProfiles y
        scheme := .infer ((Mounts.ofText d).override (Mounts.ofText y))
        source := source } := by
  have hblocks : filesystemBlocks (d ++ y) = filesystemBlocks d ++ filesystemBlocks y :=
    filesystemBlocks_append h.sealed (by rw [h.ends]; decide) h.declarations y
  have hmounts : Mounts.ofText (d ++ y) = (Mounts.ofText d).override (Mounts.ofText y) := by
    rw [Mounts.ofText, hblocks, List.map_append, Mounts.ofList_append]
    rfl
  refine ⟨hblocks, ?_⟩
  simp only [Facts.ofText, hmounts, h.boot_append, h.profiles_append]

theorem ofText_append_of_closed_root :
    Closed "boot.kernelModules = [ \"kvm\" ]; fileSystems.\"/\" = \x7b fsType = \"ext4\"; \x7d;" ∧
    Mounts.ofText (
      "boot.kernelModules = [ \"kvm\" ]; fileSystems.\"/\" = \x7b fsType = \"ext4\"; \x7d;" ++
      "fileSystems.\"/\" = \x7b fsType = \"xfs\"; \x7d; fileSystems.\"".toList) =
    (Mounts.ofText
      "boot.kernelModules = [ \"kvm\" ]; fileSystems.\"/\" = \x7b fsType = \"ext4\"; \x7d;").override
      (Mounts.ofText "fileSystems.\"/\" = \x7b fsType = \"xfs\"; \x7d; fileSystems.\"") := by
  have h : Closed
      "boot.kernelModules = [ \"kvm\" ]; fileSystems.\"/\" = \x7b fsType = \"ext4\"; \x7d;" :=
    { ends := by decide
      declarations := by decide +kernel
      modules := by decide
      imports := by decide }
  exact ⟨h, congrArg Facts.mounts (ofText_append_of_closed h _ []).2⟩

end MachineFacts
