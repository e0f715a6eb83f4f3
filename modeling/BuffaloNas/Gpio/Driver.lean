import BuffaloNas.SuperIo.Ports

/-! The GPIO driver of the IT87xx chips. -/
namespace BuffaloNas.Gpio
open Interaction Program SuperIo

/-! ### Access functions -/

def reg : Word := 0x2e

def val : Word := 0x2f

def gpio : Byte := 0x07

def ldnreg : Byte := 0x07

def chipid : Byte := 0x20

def chiprev : Byte := 0x22

def superioEnter : Kernel ℤ := do
  if ← perform (KernelOp.requestMuxedRegion reg 2) then
    outb 0x87 reg
    outb 0x01 reg
    outb 0x55 reg
    outb 0x55 reg
    return 0
  else
    return -ebusy

def superioExit : Kernel Unit := do
  outb 0x02 reg
  outb 0x02 val
  perform (KernelOp.releaseRegion reg 2)

def superioSelect (ldn : Byte) : Kernel Unit := do
  outb ldnreg reg
  outb ldn val

def superioInb (r : Byte) : Kernel Byte := do
  outb r reg
  inb val

def superioOutb (v r : Byte) : Kernel Unit := do
  outb r reg
  outb v val

def superioInw (r : Byte) : Kernel Word := do
  let high ← superioInb r
  let low ← superioInb (r + 1)
  return high.setWidth 16 <<< 8 ||| low.setWidth 16

def superioSetMask (mask r : Byte) : Kernel Unit := do
  let currVal ← superioInb r
  let newVal := currVal ||| mask
  if currVal ≠ newVal then superioOutb newVal r

def superioClearMask (mask r : Byte) : Kernel Unit := do
  let currVal ← superioInb r
  let newVal := currVal &&& ~~~mask
  if currVal ≠ newVal then superioOutb newVal r

/-! ### The lines -/

/-- The driver's data; `gpiolib` keeps the numbers of its lines below `ngpio`. -/
structure It87Gpio where
  ngpio : ℕ
  ioBase : Word
  ioSize : Word
  outputBase : Byte
  simpleBase : Byte
  simpleSize : Byte
  deriving DecidableEq

/-- A line's bit in the registers of its group. -/
def lineMask (gpioNum : ℕ) : Byte := 1 <<< (gpioNum % 8)

def lineGroup (gpioNum : ℕ) : Byte := BitVec.ofNat 8 (gpioNum / 8)

/-- Each line operation is a body between entering and leaving the configuration mode. -/
def locked (body : Kernel Unit) : Kernel ℤ := do
  perform KernelOp.spinLock
  let rc ← superioEnter
  if rc = 0 then
    body
    superioExit
  perform KernelOp.spinUnlock
  return rc

variable (it87Gpio : It87Gpio) (gpioNum : ℕ)

def it87GpioRequest : Kernel ℤ :=
  locked do
    if lineGroup gpioNum < it87Gpio.simpleSize then
      superioSetMask (lineMask gpioNum) (lineGroup gpioNum + it87Gpio.simpleBase)
    superioClearMask (lineMask gpioNum) (lineGroup gpioNum + it87Gpio.outputBase)

def it87GpioDirectionIn : Kernel ℤ :=
  locked (superioClearMask (lineMask gpioNum) (lineGroup gpioNum + it87Gpio.outputBase))

def it87GpioSet (value : Bool) : Kernel Unit := do
  let port := BitVec.ofNat 16 (gpioNum / 8) + it87Gpio.ioBase
  let currVals ← inb port
  if value then outb (currVals ||| lineMask gpioNum) port
  else outb (currVals &&& ~~~lineMask gpioNum) port

def it87GpioDirectionOut (value : Bool) : Kernel ℤ :=
  locked do
    superioSetMask (lineMask gpioNum) (lineGroup gpioNum + it87Gpio.outputBase)
    it87GpioSet it87Gpio gpioNum value

/-! ### Initialisation -/

/-- What the driver knows of a chip: where its base address is, and its registers. -/
def supported (chipType : Word) : Option (Byte × It87Gpio) :=
  match chipType with
  | 0x8613 =>
    some (0x62, { ngpio := 64, ioBase := 0, ioSize := 8, outputBase := 0xc8, simpleBase := 0xc0,
                  simpleSize := 6 })
  | 0x8620 | 0x8628 =>
    some (0x62, { ngpio := 64, ioBase := 0, ioSize := 11, outputBase := 0xc8, simpleBase := 0,
                  simpleSize := 0 })
  | 0x8718 | 0x8721 | 0x8732 | 0x8772 | 0x8786 =>
    some (0x62, { ngpio := 64, ioBase := 0, ioSize := 8, outputBase := 0xc8, simpleBase := 0xc0,
                  simpleSize := 5 })
  | 0x8761 =>
    some (0x60, { ngpio := 16, ioBase := 0, ioSize := 4, outputBase := 0xf0, simpleBase := 0,
                  simpleSize := 0 })
  | _ => none

/-- The label of line `i`. -/
def label (i : ℕ) : String := "it87_gp" ++ toString (1 + i / 8) ++ toString (i % 8)

/-- Label the lines and register them, or give the ports back. -/
def addLines (it87Gpio : It87Gpio) : Kernel (Except ℤ It87Gpio) := do
  let labels ← perform (KernelOp.kcalloc it87Gpio.ngpio)
  let labelsTable ← perform (KernelOp.kcalloc it87Gpio.ngpio)
  if !labels || !labelsTable then
    perform (KernelOp.releaseRegion it87Gpio.ioBase it87Gpio.ioSize.toNat)
    return .error (-enomem)
  let rc ← perform (KernelOp.gpiochipAddData ((List.range it87Gpio.ngpio).map label))
  if rc ≠ 0 then
    perform (KernelOp.releaseRegion it87Gpio.ioBase it87Gpio.ioSize.toNat)
    return .error rc
  return .ok it87Gpio

/-- The base address of the GPIO device, read before leaving. -/
def readBase (gpioBaReg : Byte) : Kernel Word := do
  superioSelect gpio
  let ioBase ← superioInw gpioBaReg
  superioExit
  return ioBase

/-- A supported chip: read its base address and claim its ports. -/
def addChip (gpioBaReg : Byte) (it87Gpio : It87Gpio) : Kernel (Except ℤ It87Gpio) := do
  let rc ← superioEnter
  if rc ≠ 0 then return .error rc
  let ioBase ← readBase gpioBaReg
  let it87Gpio := { it87Gpio with ioBase }
  if !(← perform (KernelOp.requestRegion ioBase it87Gpio.ioSize.toNat)) then
    return .error (-ebusy)
  addLines it87Gpio

/-- The error code, or the chip as it is registered. -/
def it87GpioInit : Kernel (Except ℤ It87Gpio) := do
  let rc ← superioEnter
  if rc ≠ 0 then return .error rc
  let chipType ← superioInw chipid
  let _chipRev ← superioInb chiprev
  superioExit
  match supported chipType with
  | none => return .error (-enodev)
  | some (gpioBaReg, it87Gpio) => addChip gpioBaReg it87Gpio

end BuffaloNas.Gpio
