import MachineFacts.Mounts

/-! The partition layout inferred from the filesystems. Each mount point has one partition, and
the layout is decided by the root and the boot partition alone. -/

namespace MachineFacts

inductive Size where
  | fixed (mb : Nat)
  | remaining
  deriving Repr, DecidableEq

def Size.describe : Size → Text
  | .fixed mb => Text.ofNat mb ++ " MB"
  | .remaining => "remaining"

inductive Role where
  | root
  | boot
  | auxiliary
  | primary
  deriving Repr, DecidableEq

def Role.name : Role → Text
  | .root => "Root"
  | .boot => "Boot"
  | .auxiliary => "Auxiliary"
  | .primary => "Primary"

inductive TableType where
  | efiSystem
  | primary
  deriving Repr, DecidableEq

def TableType.name : TableType → Text
  | .efiSystem => "EFI System"
  | .primary => "primary"

inductive SchemeType where
  | uefi
  | bios
  | unknown
  deriving Repr, DecidableEq

def SchemeType.name : SchemeType → Text
  | .uefi => "uefi"
  | .bios => "bios"
  | .unknown => "unknown"

structure Partition where
  mount : Text
  fsType : Text
  size : Size
  type : TableType
  label : Option Text
  role : Role
  deriving Repr, DecidableEq

structure Scheme where
  type : SchemeType
  partitions : List Partition
  deriving Repr, DecidableEq

def rootMount : Text := "/"

def bootMount : Text := "/boot"

def auxiliaryMounts : Text := "/mnt/"

/-- The first rule that fits the mount point decides. -/
def roleOf (mount : Text) : Role :=
  if mount = rootMount then .root
  else if mount = bootMount then .boot
  else if (strip auxiliaryMounts mount).isSome then .auxiliary
  else .primary

def lastSegment (mount : Text) : Text := (mount.reverse.takeWhile (· != '/')).reverse

def classify (mount : Text) (entry : Entry) : Partition :=
  let fsType := entry.fsType.getD "ext4"
  match roleOf mount with
  | .root => ⟨mount, fsType, .remaining, .primary, some "nixos", .root⟩
  | .boot =>
    let type := if entry.fsType = some "vfat" then .efiSystem else .primary
    ⟨mount, fsType, .fixed 512, type, some "boot", .boot⟩
  | .auxiliary => ⟨mount, fsType, .remaining, .primary, some (lastSegment mount), .auxiliary⟩
  | .primary => ⟨mount, fsType, .fixed 0, .primary, none, .primary⟩

def schemeType (ps : List Partition) : SchemeType :=
  if ps.any (·.role = .root) && ps.any (·.role = .boot) then
    if ps.any (·.type = .efiSystem) then .uefi else .bios
  else .unknown

/-- The root comes after everything else; other mount points are in ascending order. -/
def Partition.notAfter (a b : Partition) : Bool :=
  if b.mount = rootMount then true
  else if a.mount = rootMount then false
  else !decide (b.mount < a.mount)

def Scheme.infer (mounts : Mounts) : Scheme :=
  let ps := mounts.entries.map fun e => classify e.1 e.2
  ⟨schemeType ps, ps.mergeSort Partition.notAfter⟩

def Scheme.partition? (s : Scheme) (mount : Text) : Option Partition :=
  s.partitions.find? fun p => p.mount = mount

end MachineFacts
