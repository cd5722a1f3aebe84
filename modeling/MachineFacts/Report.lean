import MachineFacts.Facts
import MachineFacts.Json

/-! The JSON report. One document is reported as an object, any other number as an array, and a
fact that was not found leaves no field. -/

namespace MachineFacts

def textList (ts : List Text) : Json := .array (ts.map .text)

/-- A field that is left out when there is no value. -/
def optionalField {α : Type} (key : Text) (encode : α → Json) : Option α → List (Text × Json)
  | none => []
  | some a => [(key, encode a)]

def Entry.toJson (e : Entry) : Json :=
  .object (optionalField "device" .text e.device ++ optionalField "fsType" .text e.fsType ++
    optionalField "options" textList e.options)

def Mounts.toJson (m : Mounts) : Json := .object (m.entries.map fun e => (e.1, e.2.toJson))

def Boot.toJson (b : Boot) : Json :=
  .object (optionalField "loader" (fun l : Loader => .text l.name) b.loader ++
    (if b.uefi then [("uefi".toList, .truth true)] else []) ++
    optionalField "initrd_modules" textList b.initrdModules ++
    optionalField "kernel_modules" textList b.kernelModules)

def Size.toJson : Size → Json
  | .fixed mb => .number mb
  | .remaining => .text "remaining"

def Partition.toJson (p : Partition) : Json :=
  .object ([("mount".toList, .text p.mount), ("fstype".toList, .text p.fsType),
    ("size_mb".toList, p.size.toJson), ("type".toList, .text p.type.name)] ++
    optionalField "label" .text p.label)

/-- The disk size is never estimated and stays zero. -/
def Scheme.toJson (s : Scheme) : Json :=
  .object [("type", .text s.type.name), ("partitions", .array (s.partitions.map (·.toJson))),
    ("disk_size_gb", .number 0)]

def Facts.toJson (f : Facts) : Json :=
  .object [("filesystems", f.mounts.toJson), ("boot", f.boot.toJson),
    ("hardware_modules", textList f.profiles), ("partition_scheme", f.scheme.toJson),
    ("source_file", .text f.source)]

def reportJson : List Facts → Json
  | [f] => f.toJson
  | fs => .array (fs.map (·.toJson))

def render (fs : List Facts) (compact : Bool) : Text :=
  if compact then (reportJson fs).compact else (reportJson fs).pretty 0

end MachineFacts
