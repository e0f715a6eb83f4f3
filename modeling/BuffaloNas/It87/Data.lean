import BuffaloNas.It87.Find
import BuffaloNas.Decimal
import Mathlib.Data.Int.Init
import Mathlib.Tactic.IntervalCases

/-! What the driver knows of its environment controller, and what it can ask of it. -/
namespace BuffaloNas.It87
open Interaction Program SuperIo

def einval : ℤ := 22

/-! ### Registers -/

def regConfig : Word := 0x00

def regAlarm1 : Word := 0x01

def regAlarm2 : Word := 0x02

def regAlarm3 : Word := 0x03

def regBank : Byte := 0x06

def regVid : Word := 0x0a

def regFanDiv : Word := 0x0b

def regFan16bit : Word := 0x0c

def regFanMainCtrl : Word := 0x13

def regFanCtl : Word := 0x14

def regVinEnable : Word := 0x50

def regTempEnable : Word := 0x51

def regTempExtra : Word := 0x55

def regChipid : Word := 0x58

def regBeepEnable : Word := 0x5c

def regTemp456Enable : Word := 0x77

def regTempSrc2 : Word := 0x23d

/-- An entry of a table of registers. -/
def entry (table : List Word) (nr : ℕ) : Word := table.getD nr 0

def regVin (nr : ℕ) : Word :=
  entry [0x20, 0x21, 0x22, 0x23, 0x24, 0x25, 0x26, 0x27, 0x28, 0x2f, 0x2c, 0x2d, 0x2e] nr

def regTemp (nr : ℕ) : Word := 0x29 + BitVec.ofNat 16 nr

def regVinMax (nr : ℕ) : Word := 0x30 + BitVec.ofNat 16 (nr * 2)

def regVinMin (nr : ℕ) : Word := 0x31 + BitVec.ofNat 16 (nr * 2)

def regPwmDuty (nr : ℕ) : Word := entry [0x63, 0x6b, 0x73, 0x7b, 0xa3, 0xab] nr

def regAutoBase (nr : ℕ) : Word := entry [0x60, 0x68, 0x70, 0x78, 0xa0, 0xa8] nr

def regAutoTemp (nr i : ℕ) : Word := regAutoBase nr + BitVec.ofNat 16 i

def regAutoPwm (nr i : ℕ) : Word := regAutoBase nr + 5 + BitVec.ofNat 16 i

def regTempSrc1 (nr : ℕ) : Word := entry [0x21d, 0x21e, 0x21f] nr

/-- The tables that differ from chip to chip. -/
structure Tables where
  fan : List Word
  fanx : List Word
  fanMin : List Word
  fanxMin : List Word
  pwm : List Word
  tempOffset : List Word
  tempLow : List Word
  tempHigh : List Word

def standardTables : Tables where
  fan := [0x0d, 0x0e, 0x0f, 0x80, 0x82, 0x4c]
  fanx := [0x18, 0x19, 0x1a, 0x81, 0x83, 0x4d]
  fanMin := [0x10, 0x11, 0x12, 0x84, 0x86, 0x4e]
  fanxMin := [0x1b, 0x1c, 0x1d, 0x85, 0x87, 0x4f]
  pwm := [0x15, 0x16, 0x17, 0x7f, 0xa7, 0xaf]
  tempOffset := [0x56, 0x57, 0x59, 0x5a, 0x90, 0x91]
  tempLow := [0x41, 0x43, 0x45, 0x47, 0xb5, 0xb7]
  tempHigh := [0x40, 0x42, 0x44, 0x46, 0xb4, 0xb6]

/-- `IT87_REG_PWM_8665` -/
def pwm8665Tables : Tables :=
  { standardTables with pwm := [0x15, 0x16, 0x17, 0x1e, 0x1f, 0x92] }

def fan8665Tables : Tables :=
  { pwm8665Tables with
    fan := [0x0d, 0x0e, 0x0f, 0x80, 0x82, 0x93]
    fanx := [0x18, 0x19, 0x1a, 0x81, 0x83, 0x94]
    fanMin := [0x10, 0x11, 0x12, 0x84, 0x86, 0xb2]
    fanxMin := [0x1b, 0x1c, 0x1d, 0x85, 0x87, 0xb3] }

def temp8686Tables : Tables :=
  { standardTables with
    tempOffset := [0x56, 0x57, 0x59, 0x90, 0x91, 0x92]
    tempLow := [0x41, 0x43, 0x45, 0xb5, 0xb7, 0xb9]
    tempHigh := [0x40, 0x42, 0x44, 0xb4, 0xb6, 0xb8] }

def Chips.tables : Chips → Tables
  | it8686 => temp8686Tables
  | it8655 | it8665 => fan8665Tables
  | it8622 | it8613 => pwm8665Tables
  | _ => standardTables

/-- What holds of the four sets of tables holds of every chip's. -/
theorem Chips.forall_tables {P : Tables → Prop} (h1 : P standardTables) (h2 : P pwm8665Tables)
    (h3 : P fan8665Tables) (h4 : P temp8686Tables) (type : Chips) : P type.tables := by
  cases type <;> assumption

/-! ### The chip -/

/-- The machine and the parameters of the module. -/
structure Platform where
  /-- `long` has 64 bits, or 32. -/
  long64 : Bool
  hz : ℕ
  updateVbat : Bool
  fixPwmPolarity : Bool
  vidWhichVrm : Byte
  vidFromReg : Byte → Byte → ℤ

namespace Platform

variable (p : Platform)

def longBits : ℕ := if p.long64 then 64 else 32

/-- A result as a `long` keeps it. -/
def long (x : ℤ) : ℤ := x.bmod (2 ^ p.longBits)

def kstrtoul (buf : List Char) : Option ℕ := Decimal.unsigned p.longBits buf

def kstrtol (buf : List Char) : Option ℤ := Decimal.signed p.longBits buf

def timeAfter (a b : ℕ) : Bool := p.long ((b : ℤ) - a) < 0

end Platform

/-- The features of a chip; two chips have others from some revision on. -/
def features (type : Chips) (revision : Byte) : List Feature :=
  match type with
  | .it87 =>
    if revision ≥ 0x03 then
      ((it87Devices type).features.erase .oldAutopwm) ++ [.fan16Config, .fans16bit]
    else (it87Devices type).features
  | .it8712 =>
    if revision ≥ 0x08 then
      ((it87Devices type).features.erase .oldAutopwm) ++ [.fan16Config, .fans16bit, .fiveFans]
    else (it87Devices type).features
  | _ => (it87Devices type).features

/-- What the driver has found out about its chip when it has been probed. -/
structure It87Chip extends Platform where
  type : Chips
  revision : Byte
  inScaled : Word
  inInternal : Word
  hasIn : Word
  hasFan : Byte
  hasTemp : Byte
  hasPwm : Byte
  hasVid : Bool
  hasBeep : Bool
  /-- The sensors that had a type when the attributes were made. -/
  hasType : Byte

namespace It87Chip

variable (c : It87Chip)

def has (f : Feature) : Bool := (features c.type c.revision).contains f

def numTempLimit : ℕ := (it87Devices c.type).numTempLimit

def hasTempPeci (nr : ℕ) : Bool := c.has .tempPeci && (it87Devices c.type).peciMask.getLsbD nr

def hasTempOldPeci (nr : ℕ) : Bool :=
  c.has .tempOldPeci && (it87Devices c.type).oldPeciMask.getLsbD nr

def hasFiveFans : Bool := c.has .fiveFans || c.has .sixFans

def hasFourFans : Bool := c.has .fourFans || c.has .fiveFans || c.has .sixFans

def regFan (nr : ℕ) : Word := entry c.type.tables.fan nr

def regFanx (nr : ℕ) : Word := entry c.type.tables.fanx nr

def regFanMin (nr : ℕ) : Word := entry c.type.tables.fanMin nr

def regFanxMin (nr : ℕ) : Word := entry c.type.tables.fanxMin nr

def regPwm (nr : ℕ) : Word := entry c.type.tables.pwm nr

def regTempOffset (nr : ℕ) : Word := entry c.type.tables.tempOffset nr

def regTempLow (nr : ℕ) : Word := entry c.type.tables.tempLow nr

def regTempHigh (nr : ℕ) : Word := entry c.type.tables.tempHigh nr

end It87Chip

/-! ### The data -/

/-- The fields of `struct it87_data` that change after the probe. -/
@[ext]
structure It87Data where
  valid : Bool
  lastUpdated : ℕ
  ins : ℕ → ℕ → Byte
  fan : ℕ → ℕ → Word
  temp : ℕ → ℕ → Byte
  sensor : Byte
  extra : Byte
  /-- Three entries; chips with more fans have no divisors. -/
  fanDiv : ℕ → Byte
  vid : Byte
  vrm : Byte
  alarms : BitVec 32
  beeps : Byte
  fanMainCtrl : Byte
  fanCtl : Byte
  pwmCtrl : ℕ → Byte
  pwmDuty : ℕ → Byte
  pwmTempMap : ℕ → Byte
  autoPwm : ℕ → ℕ → Byte
  autoTemp : ℕ → ℕ → Byte

/-- `kzalloc` -/
def It87Data.zero : It87Data where
  valid := false
  lastUpdated := 0
  ins _ _ := 0
  fan _ _ := 0
  temp _ _ := 0
  sensor := 0
  extra := 0
  fanDiv _ := 0
  vid := 0
  vrm := 0
  alarms := 0
  beeps := 0
  fanMainCtrl := 0
  fanCtl := 0
  pwmCtrl _ := 0
  pwmDuty _ := 0
  pwmTempMap _ := 0
  autoPwm _ _ := 0
  autoTemp _ _ := 0

/-- `a[i][j] = v` -/
def put {α : Type} (a : ℕ → ℕ → α) (i j : ℕ) (v : α) : ℕ → ℕ → α :=
  Function.update a i (Function.update (a i) j v)

@[simp] theorem put_self {α : Type} (a : ℕ → ℕ → α) (i j : ℕ) (v : α) : put a i j v i j = v := by
  simp [put]

@[simp] theorem put_row {α : Type} (a : ℕ → ℕ → α) (i j : ℕ) (v : α) :
    put a i j v i = Function.update (a i) j v := by
  simp [put]

theorem put_of_ne {α : Type} (a : ℕ → ℕ → α) {i k : ℕ} (h : k ≠ i) (j : ℕ) (v : α) :
    put a i j v k = a k := by
  simp [put, h]

/-! ### What the driver does -/

inductive It87Op
  | readValue (reg : Word)
  | writeValue (reg : Word) (value : Byte)
  | mutexLock
  | mutexUnlock
  | data
  | assign (f : It87Data → It87Data)
  | jiffies

abbrev It87Op.Answer : It87Op → Type
  | readValue _ => Byte
  | writeValue .. => Unit
  | mutexLock => Unit
  | mutexUnlock => Unit
  | data => It87Data
  | assign _ => Unit
  | jiffies => ℕ

inductive Fault
  | divideError
  | nullPointer
  deriving DecidableEq

abbrev Driver (α : Type) := Program It87Op It87Op.Answer Fault α

def readValue (reg : Word) : Driver Byte := perform (It87Op.readValue reg)

def writeValue (reg : Word) (value : Byte) : Driver Unit := perform (It87Op.writeValue reg value)

def mutexLock : Driver Unit := perform It87Op.mutexLock

def mutexUnlock : Driver Unit := perform It87Op.mutexUnlock

def getData : Driver It87Data := perform It87Op.data

def assign (f : It87Data → It87Data) : Driver Unit := perform (It87Op.assign f)

def jiffies : Driver ℕ := perform It87Op.jiffies

end BuffaloNas.It87
