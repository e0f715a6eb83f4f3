import BuffaloNas.It87.Devices
import BuffaloNas.SuperIo.Ports

/-! How the environment controller driver looks for its chip. -/
namespace BuffaloNas.It87
open Interaction Program SuperIo

/-! ### Access functions -/

def reg2e : Word := 0x2e

def reg4e : Word := 0x4e

def dev : Byte := 0x07

def pme : Byte := 0x04

def gpio : Byte := 0x07

def devid : Byte := 0x20

def devrev : Byte := 0x22

/-- The variables of the module: its parameter, and what it knows of the board. -/
structure ModuleState where
  forceId : Word
  sio4eBroken : Bool

def superioKey (ioreg : Word) : Kernel Unit := do
  outb 0x87 ioreg
  outb 0x01 ioreg
  outb 0x55 ioreg
  outb (if ioreg = reg4e then 0xaa else 0x55) ioreg

def superioEnter (ioreg : Word) : Kernel ℤ := do
  if ← perform (KernelOp.requestMuxedRegion ioreg 2) then
    superioKey ioreg
    return 0
  else
    return -ebusy

def superioOutb (ioreg : Word) (reg v : Byte) : Kernel Unit := do
  outb reg ioreg
  outb v (ioreg + 1)

def superioSelect (ioreg : Word) (ldn : Byte) : Kernel Unit := do
  outb dev ioreg
  outb ldn (ioreg + 1)

variable (m : ModuleState) (ioreg : Word)

def superioInb (reg : Byte) : Kernel Byte := do
  outb reg ioreg
  let v ← inb (ioreg + 1)
  if m.sio4eBroken ∧ ioreg = 0x4e ∧ v = 0xff then
    superioKey ioreg
    outb reg ioreg
    inb (ioreg + 1)
  else return v

def superioInw (reg : Byte) : Kernel Word := do
  let high ← superioInb m ioreg reg
  let low ← superioInb m ioreg (reg + 1)
  return high.setWidth 16 <<< 8 ||| low.setWidth 16

def superioExit : Kernel Unit := do
  if ¬ m.sio4eBroken ∨ ioreg ≠ 0x4e then
    outb 0x02 ioreg
    outb 0x02 (ioreg + 1)
  perform (KernelOp.releaseRegion ioreg 2)

/-! ### Detection -/

structure It87SioData where
  type : Chips
  revision : Byte
  vidValue : Byte
  beepPin : Byte
  internal : Byte
  skipIn : Word
  skipVid : Bool
  skipFan : Byte
  skipPwm : Byte
  skipTemp : Byte

/-- The driver's chip for a device identification. -/
def chipOf (chipType : Word) : Option Chips :=
  match chipType with
  | 0x8705 => some .it87
  | 0x8712 => some .it8712
  | 0x8716 | 0x8726 => some .it8716
  | 0x8718 => some .it8718
  | 0x8720 => some .it8720
  | 0x8721 => some .it8721
  | 0x8728 => some .it8728
  | 0x8732 => some .it8732
  | 0x8733 => some .it8792
  | 0x8771 => some .it8771
  | 0x8772 => some .it8772
  | 0x8781 => some .it8781
  | 0x8782 => some .it8782
  | 0x8783 => some .it8783
  | 0x8786 => some .it8786
  | 0x8790 => some .it8790
  | 0x8603 | 0x8623 => some .it8603
  | 0x8607 => some .it8607
  | 0x8613 => some .it8613
  | 0x8620 => some .it8620
  | 0x8622 => some .it8622
  | 0x8628 => some .it8628
  | 0x8655 => some .it8655
  | 0x8665 => some .it8665
  | 0x8686 => some .it8686
  | _ => none

namespace It87SioData

variable (d : It87SioData)

/-- A bit as a mask. -/
abbrev bit {w : ℕ} (n : ℕ) : BitVec w := 1 <<< n

def skippingIn (n : ℕ) (c : Bool) : It87SioData :=
  if c then { d with skipIn := d.skipIn ||| bit n } else d

def skippingFan (n : ℕ) (c : Bool) : It87SioData :=
  if c then { d with skipFan := d.skipFan ||| bit n } else d

def skippingPwm (n : ℕ) (c : Bool) : It87SioData :=
  if c then { d with skipPwm := d.skipPwm ||| bit n } else d

def withInternal (n : ℕ) (c : Bool) : It87SioData :=
  if c then { d with internal := d.internal ||| bit n } else d

@[simp] theorem type_skippingIn (n : ℕ) (c : Bool) : (d.skippingIn n c).type = d.type := by
  unfold skippingIn; split <;> rfl

@[simp] theorem type_skippingPwm (n : ℕ) (c : Bool) : (d.skippingPwm n c).type = d.type := by
  unfold skippingPwm; split <;> rfl

@[simp] theorem type_withInternal (n : ℕ) (c : Bool) : (d.withInternal n c).type = d.type := by
  unfold withInternal; split <;> rfl

/-- What the chip's features say about its sensors. -/
def configured (config : It87Devices) : It87SioData :=
  let d := (d.withInternal 1 (config.has .in7Internal)).withInternal 2 true
  let d := if config.has .avcc3 then d.withInternal 3 true else d.skippingIn 9 true
  let d :=
    if !config.hasFourPwm then ((d.skippingPwm 3 true).skippingPwm 4 true).skippingPwm 5 true
    else if !config.hasFivePwm then (d.skippingPwm 4 true).skippingPwm 5 true
    else d.skippingPwm 5 (!config.has .sixPwm)
  if config.has .vid then d else { d with skipVid := true }

@[simp] theorem type_configured (config : It87Devices) : (d.configured config).type = d.type := by
  simp only [configured, apply_ite It87SioData.type, type_withInternal, type_skippingIn,
    type_skippingPwm, ite_self]

end It87SioData

open It87SioData

def readBeepPin (d : It87SioData) : Kernel It87SioData := do
  let reg ← superioInb m ioreg 0xf6
  return { d with beepPin := reg &&& 0x3f }

def readIt8783 (d : It87SioData) : Kernel It87SioData := do
  let reg25 ← superioInb m ioreg 0x25
  let reg27 ← superioInb m ioreg 0x27
  let reg2a ← superioInb m ioreg 0x2a
  let reg2c ← superioInb m ioreg 0x2c
  let regef ← superioInb m ioreg 0xef
  let d := d.skippingFan 2 (reg27.getLsbD 0 || !reg2c.getLsbD 2)
  let d := d.skippingPwm 2 (reg25.getLsbD 4 || (!reg2a.getLsbD 1 && regef.getLsbD 0))
  let d := (d.skippingFan 1 (reg27.getLsbD 7)).skippingPwm 1 (reg27.getLsbD 3)
  let d := (d.skippingIn 5 (reg27.getLsbD 0 || reg2c.getLsbD 2)).skippingIn 6 (reg27.getLsbD 1)
  let reroute := reg27.getLsbD 2 && !reg2c.getLsbD 1
  let reg2c := if reroute then reg2c ||| bit 1 else reg2c
  if reroute then superioOutb ioreg 0x2c reg2c
  readBeepPin m ioreg ((d.withInternal 0 (reg2c.getLsbD 0)).withInternal 1 (reg2c.getLsbD 1))

def readIt8603 (d : It87SioData) : Kernel It87SioData := do
  let reg27 ← superioInb m ioreg 0x27
  let d := (d.skippingPwm 2 (reg27.getLsbD 6)).skippingFan 2 (reg27.getLsbD 7)
  let reg29 ← superioInb m ioreg 0x29
  let d := (d.skippingPwm 1 (reg29.getLsbD 1)).skippingFan 1 (reg29.getLsbD 2)
  readBeepPin m ioreg ((d.skippingIn 5 (d.type = .it8603)).skippingIn 6 (d.type = .it8603))

def readIt8620 (d : It87SioData) : Kernel It87SioData := do
  let reg ← superioInb m ioreg 0x25
  let d := d.skippingPwm 4 (reg.getLsbD 6)
  let reg ← superioInb m ioreg 0x26
  let d := (d.skippingFan 3 (!reg.getLsbD 5)).skippingFan 4 (!reg.getLsbD 4)
  let reg ← superioInb m ioreg 0x27
  let d := (d.skippingPwm 2 (reg.getLsbD 6)).skippingFan 2 (reg.getLsbD 7)
  let reg ← superioInb m ioreg 0x28
  let d := d.skippingPwm 3 (reg.getLsbD 2)
  let reg ← superioInb m ioreg 0x29
  let d := (d.skippingPwm 1 (reg.getLsbD 1)).skippingFan 1 (reg.getLsbD 2)
  let d := (d.skippingPwm 5 (!reg.getLsbD 7)).skippingFan 5 (!reg.getLsbD 7)
  let reg ← superioInb m ioreg 0x2c
  let d :=
    if reg.getLsbD 0 then d.withInternal 0 (d.type ≠ .it8686)
    else { d with internal := d.internal &&& ~~~bit 3 }.skippingIn 9 true
  readBeepPin m ioreg d

def readIt8613 (d : It87SioData) : Kernel It87SioData := do
  let reg ← superioInb m ioreg 0x25
  let d := (d.skippingFan 3 (reg.getLsbD 6)).skippingPwm 3 (reg.getLsbD 5)
  let reg ← superioInb m ioreg 0x27
  let d := (d.skippingPwm 2 (reg.getLsbD 6)).skippingFan 2 (reg.getLsbD 7)
  let d := (d.skippingPwm 4 (reg.getLsbD 3)).skippingFan 4 (reg.getLsbD 1)
  let reg ← superioInb m ioreg 0x29
  let d := (d.skippingPwm 1 (reg.getLsbD 1)).skippingFan 1 (reg.getLsbD 2)
  let reg ← superioInb m ioreg 0x2c
  readBeepPin m ioreg (d.skippingIn 9 (!reg.getLsbD 0))

def readIt8732 (d : It87SioData) : Kernel It87SioData := do
  let reg ← superioInb m ioreg 0x29
  let d := (d.skippingPwm 1 (reg.getLsbD 1)).skippingFan 1 (reg.getLsbD 2)
  let reg ← superioInb m ioreg 0x27
  let d := (d.skippingPwm 2 (reg.getLsbD 6)).skippingFan 2 (reg.getLsbD 7)
  let d := d.skippingFan 3 (reg.getLsbD 5)
  let reg ← superioInb m ioreg 0x2c
  readBeepPin m ioreg (d.withInternal 0 (reg.getLsbD 0))

/-- What the chips with a separate register for the second fan have in common. -/
def readPinx4 (d : It87SioData) : Kernel It87SioData := do
  let reg ← superioInb m ioreg 0x29
  let d := d.skippingPwm 1 (reg.getLsbD 1)
  let reg ← superioInb m ioreg 0x2d
  let d := d.skippingFan 1 (reg.getLsbD 4)
  let reg ← superioInb m ioreg 0x27
  return (d.skippingPwm 2 (reg.getLsbD 6)).skippingFan 2 (reg.getLsbD 7)

def readIt8655 (d : It87SioData) : Kernel It87SioData := do
  let d ← readPinx4 m ioreg d
  readBeepPin m ioreg d

def readIt8665 (d : It87SioData) : Kernel It87SioData := do
  let d ← readPinx4 m ioreg d
  let reg ← superioInb m ioreg 0x26
  let d := (d.skippingPwm 4 (reg.getLsbD 5)).skippingFan 4 (!reg.getLsbD 4)
  let reg ← superioInb m ioreg 0xd3
  let d := (d.skippingPwm 3 (reg.getLsbD 2)).skippingFan 3 (reg.getLsbD 3)
  let d := (d.skippingPwm 5 (reg.getLsbD 0)).skippingFan 5 (reg.getLsbD 1)
  readBeepPin m ioreg d

/-- Fans four and five, on the chips that have them. -/
def readFiveFans (d : It87SioData) : Kernel It87SioData := do
  if !(it87Devices d.type).hasFiveFans then return d
  let reg ← superioInb m ioreg 0x26
  match d.type with
  | .it8718 => return (d.skippingFan 3 (reg.getLsbD 5)).skippingFan 4 (reg.getLsbD 4)
  | .it8720 | .it8721 | .it8728 =>
    return (d.skippingFan 3 (!reg.getLsbD 5)).skippingFan 4 (!reg.getLsbD 4)
  | _ => return d

def readVid (d : It87SioData) : Kernel It87SioData := do
  if ¬ ((d.type = .it8718 ∨ d.type = .it8720) ∧ ¬ d.skipVid) then return d
  let vidValue ← superioInb m ioreg 0xfc
  return { d with vidValue }

def readOther (d : It87SioData) : Kernel It87SioData := do
  let d ← readFiveFans m ioreg d
  let reg ← superioInb m ioreg 0x27
  let d := { d with skipVid := d.skipVid || reg &&& 0x0f != 0 }
  let d := (d.skippingPwm 2 (reg.getLsbD 6)).skippingFan 2 (reg.getLsbD 7)
  let reg ← superioInb m ioreg 0x29
  let d := (d.skippingPwm 1 (reg.getLsbD 1)).skippingFan 1 (reg.getLsbD 2)
  let d ← readVid m ioreg d
  let reg ← superioInb m ioreg 0x2c
  let uart6 := d.type = .it8782 && reg.getLsbD 2
  let reroute := (d.type = .it8720 || uart6) && !reg.getLsbD 1
  let reg := if reroute then reg ||| bit 1 else reg
  if reroute then superioOutb ioreg 0x2c reg
  let d := (d.withInternal 0 (reg.getLsbD 0)).withInternal 1 (reg.getLsbD 1)
  let d := (d.skippingIn 5 uart6).skippingIn 6 uart6
  let d := if uart6 then { d with skipTemp := d.skipTemp ||| bit 2 } else d
  readBeepPin m ioreg d

/-- What a chip says about its pins. -/
def readConfig (d : It87SioData) : Kernel It87SioData :=
  match d.type with
  | .it87 => readBeepPin m ioreg d
  | .it8783 => readIt8783 m ioreg d
  | .it8603 | .it8607 => readIt8603 m ioreg d
  | .it8620 | .it8628 | .it8686 => readIt8620 m ioreg d
  | .it8613 | .it8622 => readIt8613 m ioreg d
  | .it8732 => readIt8732 m ioreg d
  | .it8655 => readIt8655 m ioreg d
  | .it8665 => readIt8665 m ioreg d
  | _ => readOther m ioreg d

/-- The device of the pins; the IT8705F has another number for it. -/
def pinsLdn (type : Chips) : Byte := if type = .it87 then 5 else gpio

def readPins (d : It87SioData) : Kernel It87SioData := do
  superioSelect ioreg (pinsLdn d.type)
  readConfig m ioreg d

/-- A supported chip: is its controller activated, and where? -/
def probe (address : Word) (sioData : It87SioData) : Kernel (ℤ × Word × It87SioData) := do
  superioSelect ioreg pme
  let act ← superioInb m ioreg 0x30
  if !act.getLsbD 0 then return (-enodev, address, sioData)
  let base ← superioInw m ioreg 0x60
  let address := base &&& ~~~7
  if address = 0 then return (-enodev, address, sioData)
  let rev ← superioInb m ioreg devrev
  let sioData := { sioData with revision := rev &&& 0x0f }
  let sioData ← readPins m ioreg (sioData.configured (it87Devices sioData.type))
  return (0, address, sioData)

/-- What `it87_find` does between entering and leaving: the error, the address and the data. -/
def detect (address : Word) (sioData : It87SioData) : Kernel (ℤ × Word × It87SioData) := do
  let id ← superioInw m ioreg devid
  if id = 0xffff then return (-enodev, address, sioData)
  match chipOf (if m.forceId ≠ 0 then m.forceId else id) with
  | none => return (-enodev, address, sioData)
  | some type => probe m ioreg address { sioData with type }

def it87Find (address : Word) (sioData : It87SioData) : Kernel (ℤ × Word × It87SioData) := do
  let err ← superioEnter ioreg
  if err ≠ 0 then return (err, address, sioData)
  let found ← detect m ioreg address sioData
  superioExit m ioreg
  return found

end BuffaloNas.It87
