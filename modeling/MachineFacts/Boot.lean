import MachineFacts.Field

/-! Boot loader, UEFI and kernel modules, read from the whole document under their full option
names. -/

namespace MachineFacts

inductive Loader where
  | systemdBoot
  | grub
  deriving Repr, DecidableEq

def Loader.name : Loader → Text
  | .systemdBoot => "systemd-boot"
  | .grub => "grub"

def Loader.indicator : Loader → Text
  | .systemdBoot => "boot.loader.systemd-boot"
  | .grub => "boot.loader.grub"

def Loader.byPriority : List Loader := [.systemdBoot, .grub]

def uefiIndicator : Text := "boot.loader.efi.canTouchEfiVariables"

def initrdModulesOption : Text := "boot.initrd.availableKernelModules"

def kernelModulesOption : Text := "boot.kernelModules"

structure Boot where
  loader : Option Loader
  /-- Whether the UEFI indicator is present, whatever it is set to. -/
  uefi : Bool
  initrdModules : Option (List Text)
  kernelModules : Option (List Text)
  deriving Repr, DecidableEq

def Loader.detect (t : Text) : Option Loader :=
  Loader.byPriority.find? fun loader => occurs loader.indicator t

def Boot.ofText (t : Text) : Boot where
  loader := Loader.detect t
  uefi := occurs uefiIndicator t
  initrdModules := stringListField initrdModulesOption t
  kernelModules := stringListField kernelModulesOption t

/-- Nothing about booting was recognised. -/
def Boot.isEmpty (b : Boot) : Bool :=
  b.loader.isNone && !b.uefi && b.initrdModules.isNone && b.kernelModules.isNone

end MachineFacts
