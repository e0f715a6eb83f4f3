import BuffaloNas.Interaction.Ledger
import BuffaloNas.SuperIo.Ports

/-! What drivers hold of the kernel. -/
namespace BuffaloNas.SuperIo
open Interaction Program

/-- An address in memory. -/
abbrev Pointer := ℕ

/-- What a driver can hold. -/
inductive Resource
  | region (port : Word) (size : ℕ)
  | memory (p : Pointer)
  | chip
  | lock
  /-- A platform driver that is registered, devices that are allocated, and those of them that the
  bus knows. -/
  | driver
  | device (p : Pointer)
  | added (p : Pointer)
  deriving DecidableEq

/-- What the kernel's answers mean to the books. -/
def kernelBooks : Books KernelOp KernelOp.Answer Resource
  | .requestMuxedRegion port size, ok => if ok then .take (.region port size) else .nothing
  | .requestRegion port size, ok => if ok then .take (.region port size) else .nothing
  | .releaseRegion port size, _ => .give (.region port size)
  | .spinLock, _ => .take .lock
  | .spinUnlock, _ => .give .lock
  | .gpiochipAddData _, rc => if rc = 0 then .take .chip else .nothing
  | _, _ => .nothing

variable {held : Multiset Resource}

theorem unbooked_outb (v : Byte) (port : Word) :
    (outb v port).Only (Unbooked kernelBooks) := (only_perform _).mpr fun _ => rfl

theorem unbooked_inb (port : Word) : (inb port).Only (Unbooked kernelBooks) :=
  (only_perform _).mpr fun _ => rfl

theorem holds_requestMuxedRegion (port : Word) (size : ℕ) :
    (perform (KernelOp.requestMuxedRegion port size) : Kernel Bool).Holds kernelBooks
      (fun granted rest => rest = if granted then .region port size ::ₘ held else held) held :=
  holds_taking fun _ => rfl

theorem holds_releaseRegion (port : Word) (size : ℕ) :
    (perform (KernelOp.releaseRegion port size) : Kernel Unit).Holds kernelBooks
      (fun _ rest => rest = held) (.region port size ::ₘ held) := holds_giving fun _ => rfl

end BuffaloNas.SuperIo
