import BuffaloNas.Interaction.Program
import Mathlib.Data.Int.Notation
import Mathlib.Data.List.ReduceOption
import Mathlib.Data.Nat.Notation

/-! The GPIO driver of the Intel Denverton. -/
namespace BuffaloNas.Dnv
open Interaction Program

abbrev Word32 := BitVec 32

/-- `errno` values of a function are negative. -/
def einval : ℤ := 22

/-! ### Registers -/

/-- The groups of registers that `dnv_gpio_reg` knows, all below `DNV_MMIO_REG_END`. -/
inductive RegType
  | padcfglock
  | gpiGpeEn
  | gpiGpeSts
  | hostswOwn
  | padOwn
  | padCfgDw0
  | padCfgDw1
  deriving DecidableEq

def bit (n : ℕ) : Word32 := 1 <<< n

def rxevcfgMask : Word32 := bit 26 ||| bit 25

def rxevcfgTrigLvl : Word32 := 0 <<< 25

def rxevcfgTrigEdge : Word32 := 1 <<< 25

def rxinv : Word32 := bit 23

def gpiroutsci : Word32 := bit 19

def gpiroutMask : Word32 := bit 17 ||| bit 18 ||| bit 19 ||| bit 20

def pmode1 : Word32 := bit 11

def pmode0 : Word32 := bit 10

def inputDis : Word32 := bit 9

def outputDis : Word32 := bit 8

def rxstate : Word32 := bit 1

def level : Word32 := bit 0

def dirMask : Word32 := bit 8 ||| bit 9

def conf0RestoreMask : Word32 :=
  level ||| dirMask ||| pmode0 ||| pmode1 ||| gpiroutsci ||| rxinv ||| rxevcfgMask ||| bit 28 |||
    bit 29 ||| bit 30 ||| bit 31

def conf1RestoreMask : Word32 := bit 10 ||| bit 11 ||| bit 12 ||| bit 13

/-! ### Tables -/

/-- The static tables of `reg_map_offset_dnv` and `reg_bit_shift_dnv`. -/
inductive Table
  | padcfglockMapDnv
  | gpiGpeMapDnv
  | padOwnMapDnv
  | padCfgDwMapDnv
  | gpeBit
  | padOwnBit
  deriving DecidableEq

def Table.entries : Table → List ℤ
  | padcfglockMapDnv =>
    [0x0, 0x8, 0x8, 0x20, 0x8, 0x8, 0x8, 0x8, 0x10, 0x10, 0x18, 0x18, 0x8]
  | gpiGpeMapDnv => [0x0, 0x4, 0x4, 0x10, 0x4, 0x4, 0x4, 0x4, 0x8, 0x8, 0xc, 0xc, 0x4]
  | padOwnMapDnv => [0x0, 0x4, 0x4, 0x30, 0xc, 0xc, 0xc, 0xc, 0x10, 0x14, 0x1c, 0x1c, 0x0]
  | padCfgDwMapDnv =>
    [0xd8, 0x108, 0x110, 0x380, 0x168, 0x170, 0x178, 0x180,
     0x1c8, 0x1d0, 0x310, 0x318, 0x90, 0x98, 0x0, 0x8,
     0x10, 0x18, 0x20, 0x28, 0x30, 0x38, 0x40, 0x48,
     0x50, 0x58, 0x60, 0x68, 0x70, 0x78, 0x80, 0x88,
     0x90, 0x98, 0xa0, 0xa8, 0xb0, 0xb8, 0xc0, 0xc8,
     0xd0, 0xe0, 0xe8, 0xf0, 0xf8, 0x100, -1, 0x118,
     0x120, 0x128, 0x130, 0x138, 0x140, 0x0, 0x8, 0x10,
     0x18, 0x20, 0x28, 0x30, 0x38, 0x40, 0x48, 0x50,
     0x2d0, 0x2d8, 0x2e0, 0x2e8, 0x2f0, 0x2f8, 0x300, 0x308,
     0x290, 0x298, 0x2a0, 0x2a8, 0x2b0, 0x2b8, 0x2c0, 0x238,
     0x240, 0x248, 0x250, 0x258, 0x260, 0x268, 0x270, 0x278,
     0x280, 0x288, 0x188, 0x190, 0x198, 0x1a0, 0x1a8, 0x1b0,
     0x1b8, 0x1c0, 0xa0, 0xa8, 0xb0, 0xb8, 0xc0, 0xc8,
     0xd0, 0xd8, 0xe0, 0xe8, 0xf0, 0xf8, 0x100, 0x108,
     0x110, 0x118, 0x120, 0x128, 0x130, 0x138, 0x140, 0x148,
     0x150, 0x158, 0x160, 0x328, 0x330, 0x338, 0x340, 0x348,
     0x350, 0x358, 0x360, 0x368, 0x370, 0x378, 0x58, 0x60,
     0x68, 0x70, 0x78, 0x80, 0x88, -1, -1, -1,
     -1, -1, 0x200, 0x208, 0x210, 0x218, 0x220, 0x228,
     0x230]
  | gpeBit => [27, 1, 2, 9, 27, 28, 29, 30, 7, 8, 27, 28, 0]
  | padOwnBit => [12, 4, 8, 4, 12, 16, 20, 24, 28, 0, 12, 16, 12]

/-! ### What the driver does -/

/-- A register is named by its offset from `reg_base`. -/
inductive DnvOp
  | entry (t : Table) (i : ℕ)
  | readl (addr : ℕ)
  | writel (val : Word32) (addr : ℕ)
  | rawSpinLock
  | rawSpinUnlock
  | irqType (gpi : ℕ)
  | setIrqType (gpi : ℕ) (type : Word32)
  | savedConf0 (pin : ℕ)
  | savedConf1 (pin : ℕ)
  | saveConf0 (pin : ℕ) (val : Word32)
  | saveConf1 (pin : ℕ) (val : Word32)
  /-- Look at a pointer that nothing has been assigned to in this round. -/
  | unassigned (pin : ℕ)
  deriving DecidableEq

abbrev DnvOp.Answer : DnvOp → Type
  | entry .. => ℤ
  | readl _ => Word32
  | writel .. => Unit
  | rawSpinLock => Unit
  | rawSpinUnlock => Unit
  | irqType _ => Word32
  | setIrqType .. => Unit
  | savedConf0 _ => Word32
  | savedConf1 _ => Word32
  | saveConf0 .. => Unit
  | saveConf1 .. => Unit
  | unassigned _ => Option ℕ

inductive Fault
  | nullPointer
  deriving DecidableEq

abbrev Mmio (α : Type) := Program DnvOp DnvOp.Answer Fault α

def readl : Option ℕ → Mmio Word32
  | some addr => perform (DnvOp.readl addr)
  | none => raise .nullPointer

def writel (val : Word32) : Option ℕ → Mmio Unit
  | some addr => perform (DnvOp.writel val addr)
  | none => raise .nullPointer

def ngpio : ℕ := 153

def npads : ℕ := 13

def RegType.map : RegType → Table
  | padcfglock => .padcfglockMapDnv
  | gpiGpeEn | gpiGpeSts | hostswOwn => .gpiGpeMapDnv
  | padOwn => .padOwnMapDnv
  | padCfgDw0 | padCfgDw1 => .padCfgDwMapDnv

def RegType.regMapBase : RegType → ℤ
  | padcfglock => 0x90
  | gpiGpeEn => 0x160
  | gpiGpeSts => 0x140
  | hostswOwn => 0xc0
  | padOwn => 0x2c
  | padCfgDw0 => 0x400
  | padCfgDw1 => 0x404

/-- The windows C2 and C5; a negative entry has none. -/
def window (gpi : ℕ) (offset : ℤ) : ℤ :=
  if offset < 0 then -einval
  else if gpi ≤ 2 ∨ 14 ≤ gpi ∧ gpi ≤ 45 ∨ 47 ≤ gpi ∧ gpi ≤ 52 then offset
  else if 3 ≤ gpi ∧ gpi ≤ 13 ∨ 53 ≤ gpi ∧ gpi ≤ 140 ∨ 146 ≤ gpi ∧ gpi ≤ 152 then offset + 0x30000
  else -einval

def regMapOffsetDnv (reg : RegType) (gpi : ℕ) : Mmio ℤ := do
  let offset ← perform (DnvOp.entry reg.map gpi)
  return window gpi offset

def regBitShiftDnv (reg : RegType) (gpi : ℕ) : Mmio ℤ :=
  match reg with
  | .padcfglock | .gpiGpeEn | .gpiGpeSts | .hostswOwn =>
    if gpi < Table.gpeBit.entries.length then perform (DnvOp.entry .gpeBit gpi)
    else return -einval
  | .padOwn =>
    if gpi < Table.padOwnBit.entries.length then perform (DnvOp.entry .padOwnBit gpi)
    else return -einval
  | _ => return -einval

def RegType.gpioLimit : RegType → ℕ
  | padCfgDw0 | padCfgDw1 => ngpio
  | _ => npads

def dnvGpioReg (gpi : ℕ) (regType : RegType) : Mmio (Option ℕ) := do
  let offset ← regMapOffsetDnv regType gpi
  if offset < 0 then return none
  if gpi ≥ regType.gpioLimit then return none
  return some (offset + regType.regMapBase).toNat

def dnvGpioMask (gpi : ℕ) (reg : RegType) : Mmio Word32 := do
  let shift ← regBitShiftDnv reg gpi
  if gpi ≥ npads ∨ shift < 0 then return 0
  match reg with
  | .padcfglock | .gpiGpeEn | .gpiGpeSts | .hostswOwn => return 1 <<< shift.toNat
  | .padOwn => return 3 <<< shift.toNat
  | _ => return 0

def dnvGpioClearTriggering (gpi : ℕ) : Mmio Unit := do
  let reg ← dnvGpioReg gpi .padCfgDw0
  let mask ← dnvGpioMask gpi .gpiGpeEn
  if reg = none ∨ mask = 0 then return
  perform DnvOp.rawSpinLock
  let val ← readl reg
  writel (val &&& ~~~gpiroutsci) reg
  let reg ← dnvGpioReg gpi .gpiGpeEn
  if reg ≠ none then
    let val ← readl reg
    writel (val &&& ~~~mask) reg
    let reg ← dnvGpioReg gpi .gpiGpeSts
    if reg ≠ none then
      let val ← readl reg
      writel (val ||| mask) reg
  perform DnvOp.rawSpinUnlock

def dnvGpioRequest (gpi : ℕ) : Mmio ℤ := do
  let reg ← dnvGpioReg gpi .padCfgDw0
  if reg = none then return -einval
  perform DnvOp.rawSpinLock
  let val ← readl reg
  if val &&& pmode0 ≠ 0 then
    let val ← readl reg
    writel (val &&& ~~~pmode0) reg
  perform DnvOp.rawSpinUnlock
  return 0

def dnvGpioFree (gpi : ℕ) : Mmio Unit := dnvGpioClearTriggering gpi

def irqTypeNone : Word32 := 0

def irqTypeEdgeRising : Word32 := 1

def irqTypeEdgeFalling : Word32 := 2

def irqTypeEdgeBoth : Word32 := 3

def irqTypeLevelHigh : Word32 := 4

def irqTypeLevelLow : Word32 := 8

def irqTypeSenseMask : Word32 := 0xf

/-- The switch of `dnv_irq_set_type`. -/
def triggered (type padCfgDw0 : Word32) : Option Word32 :=
  if type = irqTypeEdgeRising then some ((padCfgDw0 ||| rxevcfgTrigEdge) &&& ~~~rxinv)
  else if type = irqTypeEdgeFalling then some (padCfgDw0 ||| rxevcfgTrigEdge ||| rxinv)
  else if type = irqTypeEdgeBoth then some ((padCfgDw0 ||| rxevcfgTrigEdge) ^^^ rxinv)
  else if type = irqTypeLevelHigh then some ((padCfgDw0 ||| rxevcfgTrigLvl) &&& ~~~rxinv)
  else if type = irqTypeLevelLow then some (padCfgDw0 ||| rxevcfgTrigLvl ||| rxinv)
  else none

def dnvIrqSetType (gpi : ℕ) (type : Word32) : Mmio ℤ := do
  let cfgreg ← dnvGpioReg gpi .padCfgDw0
  let pownreg ← dnvGpioReg gpi .padOwn
  let hownreg ← dnvGpioReg gpi .hostswOwn
  let enreg ← dnvGpioReg gpi .gpiGpeEn
  let enmask ← dnvGpioMask gpi .gpiGpeEn
  let pownmask ← dnvGpioMask gpi .padOwn
  let hownmask ← dnvGpioMask gpi .hostswOwn
  if cfgreg = none ∨ enreg = none ∨ pownreg = none ∨ enmask = 0 ∨ hownmask = 0 ∨ pownmask = 0 then
    return -einval
  perform DnvOp.rawSpinLock
  let padOwn ← readl pownreg
  writel (padOwn &&& ~~~pownmask) pownreg
  let hostswOwn ← readl hownreg
  writel (hostswOwn &&& ~~~hownmask) hownreg
  let dw0 ← readl cfgreg
  let padCfgDw0 := dw0 &&& ~~~(gpiroutMask ||| rxevcfgMask)
  let gpeEn ← readl enreg
  let update :=
    if type &&& irqTypeSenseMask ≠ 0 then
      (triggered type (padCfgDw0 ||| gpiroutsci)).map (·, gpeEn ||| enmask)
    else some (padCfgDw0, gpeEn &&& ~~~enmask)
  match update with
  | none =>
    perform DnvOp.rawSpinUnlock
    return -einval
  | some (padCfgDw0, gpeEn) =>
    writel padCfgDw0 cfgreg
    writel gpeEn enreg
    perform (DnvOp.setIrqType gpi type)
    perform DnvOp.rawSpinUnlock
    return 0

def dnvGpioGet (gpi : ℕ) : Mmio ℤ := do
  let reg ← dnvGpioReg gpi .padCfgDw0
  if reg = none then return -einval
  let val ← readl reg
  let shown := if inputDis &&& val ≠ 0 then val &&& level else val &&& rxstate
  return if shown ≠ 0 then 1 else 0

def dnvGpioSet (gpi : ℕ) (val : Bool) : Mmio Unit := do
  let reg ← dnvGpioReg gpi .padCfgDw0
  if reg = none then return
  perform DnvOp.rawSpinLock
  let oldVal ← readl reg
  if val then writel (oldVal ||| level) reg else writel (oldVal &&& ~~~level) reg
  perform DnvOp.rawSpinUnlock

def dnvGpioDirectionInput (gpi : ℕ) : Mmio ℤ := do
  let reg ← dnvGpioReg gpi .padCfgDw0
  if reg = none then return -einval
  perform DnvOp.rawSpinLock
  let val ← readl reg
  writel ((val ||| dirMask) &&& ~~~inputDis) reg
  perform DnvOp.rawSpinUnlock
  return 0

def dnvGpioDirectionOutput (gpio : ℕ) (val : Bool) : Mmio ℤ := do
  let reg ← dnvGpioReg gpio .padCfgDw0
  if reg = none then return -einval
  perform DnvOp.rawSpinLock
  let regVal ← readl reg
  let regVal := (regVal ||| dirMask) &&& ~~~outputDis
  if val then writel (regVal ||| level) reg else writel (regVal &&& ~~~level) reg
  perform DnvOp.rawSpinUnlock
  return 0

def dnvIrqAck (gpi : ℕ) : Mmio Unit := do
  let stsreg ← dnvGpioReg gpi .gpiGpeSts
  let stsMask ← dnvGpioMask gpi .gpiGpeSts
  if stsreg = none ∨ stsMask = 0 then return
  perform DnvOp.rawSpinLock
  let sts ← readl stsreg
  if sts &&& stsMask ≠ 0 then
    let irqType ← perform (DnvOp.irqType gpi)
    if irqType = irqTypeEdgeBoth then
      let cfgreg ← dnvGpioReg gpi .padCfgDw0
      let val ← readl cfgreg
      writel (val ^^^ rxinv) cfgreg
    writel stsMask stsreg
  perform DnvOp.rawSpinUnlock

/-! ### The debug view -/

/-- What one line of the view is printed from. -/
structure Shown where
  gpio : ℕ
  label : String
  addr : ℕ
  dw0 : Word32
  dw1 : Word32

/-- `dbg_show_dnv`; the offset is added as an unsigned number. -/
def dbgShowDnv (gpi gbase : ℕ) (regMapBase : ℤ) (label : String) (dw0 dw1 : Word32) :
    Mmio Shown := do
  let offset ← regMapOffsetDnv .padCfgDw0 gpi
  let addr := ((offset + regMapBase + 0xc20000) % 0x100000000).toNat
  return { gpio := gpi + gbase, label, addr, dw0, dw1 }

/-- One round of the loop in `dnv_gpio_dbg_show`; `requested` has the labels of requested pins. -/
def dbgShowPin (requested : ℕ → Option String) (gbase gpi : ℕ) : Mmio (Option Shown) := do
  let label := requested gpi
  let reg ← dnvGpioReg gpi .padCfgDw0
  if reg = none then return none
  let label := label.getD "Unrequested"
  let reg ← dnvGpioReg gpi .padCfgDw0
  let conf0 ← readl reg
  let reg ← dnvGpioReg gpi .padCfgDw1
  let conf1 ← readl reg
  some <$> dbgShowDnv gpi gbase RegType.padCfgDw0.regMapBase label conf0 conf1

def dnvGpioDbgShow (requested : ℕ → Option String) (gbase : ℕ) : Mmio (List Shown) := do
  let lines ← (List.range ngpio).mapM (dbgShowPin requested gbase)
  return lines.reduceOption

/-! ### Sleep -/

/-- One round of the loop in `dnv_gpio_suspend`. -/
def suspendPin (pin : ℕ) : Mmio Unit := do
  let bitMask ← dnvGpioMask pin .padcfglock
  let reg ← dnvGpioReg pin .padcfglock
  if reg = none ∨ bitMask = 0 then return
  let val ← readl reg
  if val &&& bitMask ≠ 0 then return
  let reg ← dnvGpioReg pin .padCfgDw0
  let val ← readl reg
  perform (DnvOp.saveConf0 pin (val &&& conf0RestoreMask))
  let reg ← dnvGpioReg pin .padCfgDw1
  let val ← readl reg
  perform (DnvOp.saveConf1 pin (val &&& conf1RestoreMask))

def dnvGpioSuspend : Mmio Unit := (List.range ngpio).forM suspendPin

/-- Put the saved bits of a register back, where they differ. -/
def restore (mask : Word32) (saved : Mmio Word32) (reg : Option ℕ) : Mmio Unit := do
  let val ← readl reg
  let conf ← saved
  if val &&& mask ≠ conf then writel (val &&& ~~~mask ||| conf) reg

def resumePin (pin : ℕ) : Mmio Unit := do
  let bitMask ← dnvGpioMask pin .padcfglock
  -- `reg` is declared in the loop and tested before its first assignment
  let reg ← perform (DnvOp.unassigned pin)
  if reg = none ∨ bitMask = 0 then return
  let reg ← dnvGpioReg pin .padcfglock
  let val ← readl reg
  if val &&& bitMask ≠ 0 then return
  let reg ← dnvGpioReg pin .padCfgDw0
  restore conf0RestoreMask (perform (DnvOp.savedConf0 pin)) reg
  let reg ← dnvGpioReg pin .padCfgDw1
  restore conf1RestoreMask (perform (DnvOp.savedConf1 pin)) reg

def dnvGpioResume : Mmio Unit := (List.range ngpio).forM resumePin

end BuffaloNas.Dnv
