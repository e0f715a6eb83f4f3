import BuffaloNas.It87.Values

/-! The attributes of the environment controller: what showing and storing each of them does. -/
namespace BuffaloNas.It87
open Interaction Program SuperIo

namespace It87Chip

variable (c : It87Chip)

/-! ### The cache -/

/-- The mapping and the duty cycle that a control register tells of. -/
def updateMapping (nr : ℕ) (ctrl : Byte) : Driver Unit := do
  if c.has .newerAutopwm then
    assign fun d => { d with pwmTempMap := Function.update d.pwmTempMap nr (ctrl &&& 0x03) }
    let duty ← readValue (regPwmDuty nr)
    assign fun d => { d with pwmDuty := Function.update d.pwmDuty nr duty }
  else if ctrl.getLsbD 7 then
    assign fun d => { d with pwmTempMap := Function.update d.pwmTempMap nr (ctrl &&& 0x03) }
  else
    assign fun d => { d with pwmDuty := Function.update d.pwmDuty nr (ctrl &&& 0x7f) }

/-- The automatic control of a channel. -/
def updateAuto (nr : ℕ) : Driver Unit := do
  if c.has .oldAutopwm then
    (List.range 5).forM fun i => do
      let v ← readValue (regAutoTemp nr i)
      assign fun d => { d with autoTemp := put d.autoTemp nr i v }
    (List.range 3).forM fun i => do
      let v ← readValue (regAutoPwm nr i)
      assign fun d => { d with autoPwm := put d.autoPwm nr i v }
  else if c.has .newerAutopwm then
    let hyst ← readValue (regAutoTemp nr 5)
    assign fun d => { d with autoTemp := put d.autoTemp nr 0 hyst }
    (List.range 3).forM fun i => do
      let v ← readValue (regAutoTemp nr i)
      assign fun d => { d with autoTemp := put d.autoTemp nr (i + 1) v }
    let start ← readValue (regAutoTemp nr 3)
    assign fun d => { d with autoPwm := put d.autoPwm nr 0 start }
    let slope ← readValue (regAutoTemp nr 4)
    assign fun d => { d with autoPwm := put d.autoPwm nr 1 slope }

def updatePwmCtrl (nr : ℕ) : Driver Unit := do
  let ctrl ← readValue (c.regPwm nr)
  assign fun d => { d with pwmCtrl := Function.update d.pwmCtrl nr ctrl }
  c.updateMapping nr ctrl
  c.updateAuto nr

def updateVbatBit : Driver Unit := do
  if c.updateVbat then
    let config ← readValue regConfig
    writeValue regConfig (config ||| 0x40)

def updateIn (i : ℕ) : Driver Unit := do
  if !c.hasIn.getLsbD i then return
  let v ← readValue (regVin i)
  assign fun d => { d with ins := put d.ins i 0 v }
  if 8 ≤ i then return
  let v ← readValue (regVinMin i)
  assign fun d => { d with ins := put d.ins i 1 v }
  let v ← readValue (regVinMax i)
  assign fun d => { d with ins := put d.ins i 2 v }

def updateFan (i : ℕ) : Driver Unit := do
  if !c.hasFan.getLsbD i then return
  let min ← readValue (c.regFanMin i)
  assign fun d => { d with fan := put d.fan i 1 (min.setWidth 16) }
  let fan ← readValue (c.regFan i)
  assign fun d => { d with fan := put d.fan i 0 (fan.setWidth 16) }
  if c.has .fans16bit then
    let x ← readValue (c.regFanx i)
    assign fun d => { d with fan := put d.fan i 0 (d.fan i 0 ||| x.setWidth 16 <<< 8) }
    let x ← readValue (c.regFanxMin i)
    assign fun d => { d with fan := put d.fan i 1 (d.fan i 1 ||| x.setWidth 16 <<< 8) }

def updateTemp (i : ℕ) : Driver Unit := do
  if !c.hasTemp.getLsbD i then return
  let v ← readValue (regTemp i)
  assign fun d => { d with temp := put d.temp i 0 v }
  if c.numTempLimit ≤ i then return
  if c.has .tempOffset then
    let v ← readValue (c.regTempOffset i)
    assign fun d => { d with temp := put d.temp i 3 v }
  let v ← readValue (c.regTempLow i)
  assign fun d => { d with temp := put d.temp i 1 v }
  let v ← readValue (c.regTempHigh i)
  assign fun d => { d with temp := put d.temp i 2 v }

/-- The divisors that `FAN_DIV` encodes, one for each of three fans. -/
def fanDivOf (reg : Byte) : ℕ → Byte
  | 0 => reg &&& 0x07
  | 1 => (reg >>> 3) &&& 0x07
  | _ => if reg.getLsbD 6 then 3 else 1

def updateFanDiv : Driver Unit := do
  if c.hasFan &&& 0x07 ≠ 0 ∧ !c.has .fans16bit then
    let reg ← readValue regFanDiv
    assign fun d => { d with
      fanDiv := fun i => if i < 3 then fanDivOf reg i else d.fanDiv i }

def updateAlarms : Driver Unit := do
  let a1 ← readValue regAlarm1
  let a2 ← readValue regAlarm2
  let a3 ← readValue regAlarm3
  assign fun d => { d with
    alarms := a1.setWidth 32 ||| a2.setWidth 32 <<< 8 ||| a3.setWidth 32 <<< 16 }
  let beeps ← readValue regBeepEnable
  assign fun d => { d with beeps }

def updateFanCtrl : Driver Unit := do
  let fanMainCtrl ← readValue regFanMainCtrl
  assign fun d => { d with fanMainCtrl }
  let fanCtl ← readValue regFanCtl
  assign fun d => { d with fanCtl }

def updatePwm (i : ℕ) : Driver Unit := do
  if c.hasPwm.getLsbD i then c.updatePwmCtrl i

def updateSensors : Driver Unit := do
  let sensor ← readValue regTempEnable
  assign fun d => { d with sensor }
  let extra ← readValue regTempExtra
  assign fun d => { d with extra }

def updateVid : Driver Unit := do
  if c.type = .it8712 ∨ c.type = .it8716 then
    let vid ← readValue regVid
    assign fun d => { d with vid := vid &&& 0x3f }

/-- What `it87_update_device` does when the cache is too old. -/
def refresh : Driver Unit := do
  c.updateVbatBit
  (List.range 13).forM c.updateIn
  (List.range 6).forM c.updateFan
  (List.range 6).forM c.updateTemp
  c.updateFanDiv
  updateAlarms
  updateFanCtrl
  (List.range 6).forM c.updatePwm
  updateSensors
  c.updateVid
  let now ← jiffies
  assign fun d => { d with lastUpdated := now, valid := true }

/-- The cache is too old, or has been invalidated. -/
def stale (now : ℕ) (d : It87Data) : Bool :=
  c.timeAfter now (d.lastUpdated + c.hz + c.hz / 2) || !d.valid

def updateDevice : Driver It87Data := do
  mutexLock
  let now ← jiffies
  let d ← getData
  if c.stale now d then c.refresh
  mutexUnlock
  getData

/-! ### Voltages and temperatures -/

/-- A line of text. -/
def line (n : ℤ) : List Char := Decimal.text n ++ ['\n']

/-- A show function that looks at the refreshed data only. -/
def showing (f : It87Data → ℤ) : Driver (List Char) := do
  let d ← c.updateDevice
  return line (f d)

def showIn (nr index : ℕ) : Driver (List Char) :=
  c.showing fun d => c.inFromReg nr (d.ins nr index)

def setIn (nr index : ℕ) (buf : List Char) : Driver ℤ := do
  match c.kstrtoul buf with
  | none => return -einval
  | some val =>
    mutexLock
    let v := c.inToReg nr (c.long val)
    assign fun d => { d with ins := put d.ins nr index v }
    writeValue (if index = 1 then regVinMin nr else regVinMax nr) v
    mutexUnlock
    return buf.length

def showTemp (nr index : ℕ) : Driver (List Char) :=
  c.showing fun d => tempFromReg (d.temp nr index).toInt

/-- Offsets are taken only while bit 7 of `BEEP_ENABLE` is set. -/
def enableOffsets : Driver Unit := do
  let regval ← readValue regBeepEnable
  if !regval.getLsbD 7 then writeValue regBeepEnable (regval ||| 0x80)
  assign fun d => { d with valid := false }

def setTemp (nr index : ℕ) (buf : List Char) : Driver ℤ := do
  match c.kstrtol buf with
  | none => return -einval
  | some val =>
    mutexLock
    if index = 3 then enableOffsets
    let reg := if index = 2 then c.regTempHigh nr else if index = 3 then c.regTempOffset nr
      else c.regTempLow nr
    let v := BitVec.ofInt 8 (c.tempToReg val)
    assign fun d => { d with temp := put d.temp nr index v }
    writeValue reg v
    mutexUnlock
    return buf.length

/-- What the source of a sensor says: its type, or the sensor to look at. -/
def sourceOf (src1 src2 : Byte) (index : ℕ) : ℕ ⊕ ℕ :=
  match c.type with
  | .it8686 =>
    if src1 = 0 ∧ 3 ≤ index then .inl 4
    else if src1 = 1 ∧ (index = 1 ∨ index = 2 ∨ index = 4 ∨ index = 5) then .inl 6
    else if src1 = 2 ∧ (index = 2 ∨ index = 6) then .inl 5
    else .inr index
  | .it8655 | .it8665 =>
    if src1 < 3 then .inr src1.toNat
    else if src1 = 3 then .inl (if src2.getLsbD index then 6 else 5)
    else if 4 ≤ src1 ∧ src1 ≤ 8 then .inl (if src2.getLsbD index then 4 else 6)
    else if src1 = 9 then .inl (if src2.getLsbD index then 5 else 0)
    else .inl 0
  | _ => .inl 0

/-- The type that the enable registers give a sensor. -/
def typeOf (reg extra : Byte) (index : ℕ) : ℕ :=
  if reg.getLsbD index then 3
  else if reg.getLsbD (index + 3) then 4
  else if (c.hasTempPeci index && (reg >>> 6).toNat == index + 1) ||
    (c.hasTempOldPeci index && extra.getLsbD 7) then 6
  else 0

def sensorType (index : ℕ) : Driver ℕ := do
  if 3 ≤ index then return 0
  let reg ← readValue regTempEnable
  let extra ← readValue regTempExtra
  return c.typeOf reg extra index

def getTempType (index : ℕ) : Driver ℕ := do
  if c.has .bankSel then
    let shift := index % 2 * 4
    -- the register's number is shifted as well as its contents
    let src1 ← readValue (regTempSrc1 (index / 2) >>> shift)
    let src2 ← readValue regTempSrc2
    match c.sourceOf ((src1 >>> shift) &&& 0x0f) src2 index with
    | .inl type => return type
    | .inr index => c.sensorType index
  else c.sensorType index

def showTempType (index : ℕ) : Driver (List Char) := do
  let _ ← c.updateDevice
  let type ← c.getTempType index
  return line type

/-- `TEMP_ENABLE` without the type of a sensor. -/
def clearType (reg : Byte) (nr : ℕ) (val : ℤ) : Byte :=
  let reg := reg &&& ~~~((1 : Byte) <<< nr) &&& ~~~((8 : Byte) <<< nr)
  if c.hasTempPeci nr && ((reg >>> 6).toNat == nr + 1 || val == 6) then reg &&& 0x3f else reg

/-- The contents of the enable registers for a type, if it is one. -/
def typed (reg extra : Byte) (nr : ℕ) (val : ℤ) : Option (Byte × Byte) :=
  if val = 3 then some (reg ||| 1 <<< nr, extra)
  else if val = 4 then some (reg ||| 8 <<< nr, extra)
  else if c.hasTempPeci nr ∧ val = 6 then some (reg ||| BitVec.ofNat 8 (nr + 1) <<< 6, extra)
  else if c.hasTempOldPeci nr ∧ val = 6 then some (reg, extra ||| 0x80)
  else if val ≠ 0 then none
  else some (reg, extra)

def setTempType (nr : ℕ) (buf : List Char) : Driver ℤ := do
  match c.kstrtol buf with
  | none => return -einval
  | some val =>
    let reg ← readValue regTempEnable
    let reg := c.clearType reg nr val
    let extra ← readValue regTempExtra
    let extra := if c.hasTempOldPeci nr && (extra.getLsbD 7 || val == 6) then extra &&& 0x7f
      else extra
    match c.typed reg extra nr (if val = 2 then 4 else val) with
    | none => return -einval
    | some (sensor, extra) =>
      mutexLock
      assign fun d => { d with sensor, extra }
      writeValue regTempEnable sensor
      if c.hasTempOldPeci nr then writeValue regTempExtra extra
      assign fun d => { d with valid := false }
      mutexUnlock
      return buf.length

/-! ### Fans -/

def pwmMode (d : It87Data) (nr : ℕ) : ℤ :=
  if c.has .fanctlOnoff ∧ nr < 3 ∧ !d.fanMainCtrl.getLsbD nr then 0
  else if (d.pwmCtrl nr).getLsbD 7 then 2
  else if (!c.has .fanctlOnoff ∨ 3 ≤ nr) ∧ d.pwmDuty nr = c.pwmToReg 0xff then 0
  else 1

def showFan (nr index : ℕ) : Driver (List Char) :=
  c.showing fun d =>
    if c.has .fans16bit then fan16FromReg (d.fan nr index).toNat
    else fanFromReg (d.fan nr index).toNat (divFromReg (d.fanDiv nr))

def showFanDiv (nr : ℕ) : Driver (List Char) := c.showing fun d => divFromReg (d.fanDiv nr)

def showPwmEnable (nr : ℕ) : Driver (List Char) := c.showing fun d => c.pwmMode d nr

def showPwm (nr : ℕ) : Driver (List Char) := c.showing fun d => c.pwmFromReg (d.pwmDuty nr)

def showPwmFreq (nr : ℕ) : Driver (List Char) :=
  c.showing fun d =>
    let index := if c.has .pwmFreq2 ∧ nr = 1 then (d.extra >>> 4) &&& 0x07
      else (d.fanCtl >>> 4) &&& 0x07
    (pwmFreq.getD index.toNat 0 / (if c.has .newerAutopwm then 256 else 128) : ℕ)

/-- The limit of a fan with 16 bits. -/
def setFan16 (nr index : ℕ) (val : ℤ) : Driver Unit := do
  match c.fan16ToReg val with
  | none => raise .divideError
  | some v =>
    assign fun d => { d with fan := put d.fan nr index v }
    writeValue (c.regFanMin nr) (v.setWidth 8)
    writeValue (c.regFanxMin nr) ((v >>> 8).setWidth 8)

/-- The limit of a fan with a divisor, which is read again. -/
def setFan8 (nr index : ℕ) (val : ℤ) : Driver Unit := do
  let reg ← readValue regFanDiv
  if nr < 3 then
    assign fun d => { d with fanDiv := Function.update d.fanDiv nr (fanDivOf reg nr) }
  let d ← getData
  let v := fanToReg val (divFromReg (d.fanDiv nr))
  assign fun d => { d with fan := put d.fan nr index (v.setWidth 16) }
  writeValue (c.regFanMin nr) v

def setFan (nr index : ℕ) (buf : List Char) : Driver ℤ := do
  match c.kstrtol buf with
  | none => return -einval
  | some val =>
    mutexLock
    if c.has .fans16bit then c.setFan16 nr index val else c.setFan8 nr index val
    mutexUnlock
    return buf.length

/-- The divisor of a fan for a number. -/
def newDiv (nr val : ℕ) : Byte :=
  if nr < 2 then BitVec.ofNat 8 (divToReg val) else if val < 8 then 1 else 3

/-- `FAN_DIV`, put together from the divisors of three fans. -/
def packDivs (old : Byte) (fanDiv : ℕ → Byte) : Byte :=
  old &&& 0x80 ||| (fanDiv 0 &&& 0x07) ||| (fanDiv 1 &&& 0x07) <<< 3 |||
    (if fanDiv 2 = 3 then 0x40 else 0)

def setFanDiv (nr : ℕ) (buf : List Char) : Driver ℤ := do
  match c.kstrtoul buf with
  | none => return -einval
  | some val =>
    mutexLock
    let old ← readValue regFanDiv
    let d ← getData
    let min := fanFromReg (d.fan nr 1).toNat (divFromReg (d.fanDiv nr))
    let fanDiv := Function.update d.fanDiv nr (newDiv nr val)
    assign fun d => { d with fanDiv }
    writeValue regFanDiv (packDivs old fanDiv)
    let v := fanToReg min (divFromReg (fanDiv nr))
    assign fun d => { d with fan := put d.fan nr 1 (v.setWidth 16) }
    writeValue (c.regFanMin nr) v
    mutexUnlock
    return buf.length

/-! ### Fan control -/

/-- `check_trip_points` -/
def checkTripPoints (d : It87Data) (nr : ℕ) : ℤ :=
  if c.has .oldAutopwm then
    if ((List.range 3).all fun i => (d.autoTemp nr i).toInt ≤ (d.autoTemp nr (i + 1)).toInt) ∧
      ((List.range 2).all fun i => d.autoPwm nr i ≤ d.autoPwm nr (i + 1)) then 0 else -einval
  else if c.has .newerAutopwm then
    if [1, 2].all fun i => (d.autoTemp nr i).toInt ≤ (d.autoTemp nr (i + 1)).toInt then 0
    else -einval
  else 0

def bitOf (nr : ℕ) : Byte := 1 <<< nr

/-- Mode 0 on a chip that switches the fan on and off. -/
def setOnOff (nr : ℕ) : Driver Unit := do
  let tmp ← readValue regFanCtl
  writeValue regFanCtl (tmp ||| bitOf nr)
  let d ← getData
  let fanMainCtrl := d.fanMainCtrl &&& ~~~bitOf nr
  assign fun d => { d with fanMainCtrl }
  writeValue regFanMainCtrl fanMainCtrl

/-- The control register of a newer chip without its automatic mode, from the cache. -/
def cachedCtrl (d : It87Data) (nr : ℕ) : Byte := d.pwmCtrl nr &&& 0x7c ||| d.pwmTempMap nr

def storeCtrl (nr : ℕ) (ctrl : Byte) : Driver Unit := do
  assign fun d => { d with pwmCtrl := Function.update d.pwmCtrl nr ctrl }
  writeValue (c.regPwm nr) ctrl

/-- Mode 0 on a chip that does not. -/
def setFullSpeed (nr : ℕ) : Driver Unit := do
  let duty := c.pwmToReg 0xff
  assign fun d => { d with pwmDuty := Function.update d.pwmDuty nr duty }
  writeValue (regPwmDuty nr) duty
  let d ← getData
  c.storeCtrl nr (if c.has .newerAutopwm then cachedCtrl d nr else duty)

/-- The control register for mode 1 or 2, from the cache. -/
def modeCtrl (d : It87Data) (nr : ℕ) (val : ℤ) : Byte :=
  if c.has .newerAutopwm then
    if val = 1 then cachedCtrl d nr else cachedCtrl d nr ||| 0x80
  else if val = 1 then d.pwmDuty nr else 0x80

/-- Modes 1 and 2. -/
def setMode (nr : ℕ) (val : ℤ) : Driver Unit := do
  let d ← getData
  c.storeCtrl nr (c.modeCtrl d nr val)
  if c.has .fanctlOnoff ∧ nr < 3 then
    let fanMainCtrl := d.fanMainCtrl ||| bitOf nr
    assign fun d => { d with fanMainCtrl }
    writeValue regFanMainCtrl fanMainCtrl

def setPwmEnable (nr : ℕ) (buf : List Char) : Driver ℤ := do
  match c.kstrtol buf with
  | none => return -einval
  | some val =>
    if val < 0 ∨ 2 < val then return -einval
    let d ← getData
    if val = 2 ∧ c.checkTripPoints d nr < 0 then return -einval
    mutexLock
    if val = 0 then
      if nr < 3 ∧ c.has .fanctlOnoff then setOnOff nr else c.setFullSpeed nr
    else c.setMode nr val
    mutexUnlock
    return buf.length

/-- `set_pwm` once the control register has been read. -/
def setDuty (nr : ℕ) (val : ℤ) : Driver Unit := do
  let duty := c.pwmToReg val
  assign fun d => { d with pwmDuty := Function.update d.pwmDuty nr duty }
  if c.has .newerAutopwm then writeValue (regPwmDuty nr) duty
  else
    let d ← getData
    if !(d.pwmCtrl nr).getLsbD 7 then c.storeCtrl nr duty

def setPwm (nr : ℕ) (buf : List Char) : Driver ℤ := do
  match c.kstrtol buf with
  | none => return -einval
  | some val =>
    if val < 0 ∨ 255 < val then return -einval
    mutexLock
    c.updatePwmCtrl nr
    let d ← getData
    if c.has .newerAutopwm ∧ (d.pwmCtrl nr).getLsbD 7 then
      mutexUnlock
      return -ebusy
    c.setDuty nr val
    mutexUnlock
    return buf.length

def setPwmFreq (nr : ℕ) (buf : List Char) : Driver ℤ := do
  match c.kstrtoul buf with
  | none => return -einval
  | some val =>
    let i := BitVec.ofNat 8 (c.freqIndex val)
    mutexLock
    if nr = 0 then
      let reg ← readValue regFanCtl
      let fanCtl := reg &&& 0x8f ||| i <<< 4
      assign fun d => { d with fanCtl }
      writeValue regFanCtl fanCtl
    else
      let reg ← readValue regTempExtra
      let extra := reg &&& 0x8f ||| i <<< 4
      assign fun d => { d with extra }
      writeValue regTempExtra extra
    mutexUnlock
    return buf.length

def showPwmTempMap (nr : ℕ) : Driver (List Char) :=
  c.showing fun d =>
    let map := (d.pwmTempMap nr).toNat
    let map := if 3 ≤ map then 0 else map
    let map := if 3 ≤ nr then map + 3 else map
    (1 <<< map : ℕ)

/-- The mapping for a number of `pwmN_auto_channels_temp`. -/
def mappingOf (nr : ℕ) (val : ℤ) : Option Byte :=
  let val := if 3 ≤ nr then val - 3 else val
  if val = 1 then some 0 else if val = 2 then some 1 else if val = 4 then some 2 else none

def setPwmTempMap (nr : ℕ) (buf : List Char) : Driver ℤ := do
  match (c.kstrtol buf).bind (mappingOf nr) with
  | none => return -einval
  | some reg =>
    mutexLock
    c.updatePwmCtrl nr
    assign fun d => { d with pwmTempMap := Function.update d.pwmTempMap nr reg }
    let d ← getData
    if (d.pwmCtrl nr).getLsbD 7 then c.storeCtrl nr (d.pwmCtrl nr &&& 0xfc ||| reg)
    mutexUnlock
    return buf.length

/-! ### Trip points -/

def showAutoPwm (nr point : ℕ) : Driver (List Char) :=
  c.showing fun d => c.pwmFromReg (d.autoPwm nr point)

def setAutoPwm (nr point : ℕ) (buf : List Char) : Driver ℤ := do
  match c.kstrtol buf with
  | none => return -einval
  | some val =>
    if val < 0 ∨ 255 < val then return -einval
    mutexLock
    let v := c.pwmToReg val
    assign fun d => { d with autoPwm := put d.autoPwm nr point v }
    writeValue (if c.has .newerAutopwm then regAutoTemp nr 3 else regAutoPwm nr point) v
    mutexUnlock
    return buf.length

def showAutoPwmSlope (nr : ℕ) : Driver (List Char) :=
  c.showing fun d => (d.autoPwm nr 1 &&& 0x7f).toNat

def setAutoPwmSlope (nr : ℕ) (buf : List Char) : Driver ℤ := do
  match c.kstrtoul buf with
  | none => return -einval
  | some val =>
    if 127 < val then return -einval
    mutexLock
    let d ← getData
    let v := d.autoPwm nr 1 &&& 0x80 ||| BitVec.ofNat 8 val
    assign fun d => { d with autoPwm := put d.autoPwm nr 1 v }
    writeValue (regAutoTemp nr 4) v
    mutexUnlock
    return buf.length

def showAutoTemp (nr point : ℕ) : Driver (List Char) :=
  c.showing fun d => tempFromReg (
    if c.has .oldAutopwm ∨ point ≠ 0 then (d.autoTemp nr point).toInt
    else (d.autoTemp nr 1).toInt - (d.autoTemp nr 0 &&& 0x1f).toNat)

/-- The hysteresis register of a newer chip. -/
def hystReg (d : It87Data) (nr : ℕ) (val : ℤ) : Byte :=
  BitVec.ofInt 8 (clampVal ((d.autoTemp nr 1).toInt - c.tempToReg val) 0 0x1f) |||
    d.autoTemp nr 0 &&& 0xe0

def setAutoTemp (nr point : ℕ) (buf : List Char) : Driver ℤ := do
  match c.kstrtol buf with
  | none => return -einval
  | some val =>
    if val < -128000 ∨ 127000 < val then return -einval
    mutexLock
    if c.has .newerAutopwm ∧ point = 0 then
      let d ← getData
      let reg := c.hystReg d nr val
      assign fun d => { d with autoTemp := put d.autoTemp nr 0 reg }
      writeValue (regAutoTemp nr 5) reg
    else
      let reg := BitVec.ofInt 8 (c.tempToReg val)
      assign fun d => { d with autoTemp := put d.autoTemp nr point reg }
      writeValue (regAutoTemp nr (if c.has .newerAutopwm then point - 1 else point)) reg
    mutexUnlock
    return buf.length

/-! ### Alarms and the rest -/

def showAlarms : Driver (List Char) := c.showing fun d => d.alarms.toNat

def showAlarm (bitnr : ℕ) : Driver (List Char) :=
  c.showing fun d => (d.alarms.getLsbD bitnr).toNat

def clearIntrusion (buf : List Char) : Driver ℤ := do
  if c.kstrtol buf ≠ some 0 then return -einval
  mutexLock
  let config ← readValue regConfig
  writeValue regConfig (config ||| 0x20)
  assign fun d => { d with valid := false }
  mutexUnlock
  return buf.length

def showBeep (bitnr : ℕ) : Driver (List Char) := c.showing fun d => (d.beeps.getLsbD bitnr).toNat

def setBeep (bitnr : ℕ) (buf : List Char) : Driver ℤ := do
  match c.kstrtol buf with
  | none => return -einval
  | some val =>
    if val ≠ 0 ∧ val ≠ 1 then return -einval
    mutexLock
    let reg ← readValue regBeepEnable
    let beeps := if val = 1 then reg ||| bitOf bitnr else reg &&& ~~~bitOf bitnr
    assign fun d => { d with beeps }
    writeValue regBeepEnable beeps
    mutexUnlock
    return buf.length

def showVrmReg : Driver (List Char) := do
  let d ← getData
  return line d.vrm.toNat

def storeVrmReg (buf : List Char) : Driver ℤ := do
  match c.kstrtoul buf with
  | none => return -einval
  | some val =>
    assign fun d => { d with vrm := BitVec.ofNat 8 val }
    return buf.length

def showVidReg : Driver (List Char) := c.showing fun d => c.vidFromReg d.vid d.vrm

def labels : List String := ["+5V", "5VSB", "Vbat", "AVCC"]

def labelsIt8721 : List String := ["+3.3V", "3VSB", "Vbat", "+3.3V"]

def showLabel (nr : ℕ) : Driver (List Char) :=
  let label := if c.has .vin3_5v ∧ nr = 0 then labels.getD 0 ""
    else if c.has .adc12mv ∨ c.has .adc10_9mv ∨ c.has .adc11mv then labelsIt8721.getD nr ""
    else labels.getD nr ""
  return label.toList ++ ['\n']

end It87Chip

/-! ### The attributes -/

/-- Fans, sensors and channels are numbered from 0 here, and from 1 in the attributes' names. -/
inductive Attribute
  | inInput (i : Fin 13) | inMin (i : Fin 8) | inMax (i : Fin 8) | inAlarm (i : Fin 8)
  | inBeep (i : Fin 8)
  | tempInput (i : Fin 6) | tempMax (i : Fin 6) | tempMin (i : Fin 6) | tempType (i : Fin 6)
  | tempAlarm (i : Fin 6) | tempOffset (i : Fin 6) | tempBeep (i : Fin 6)
  | fanInput (i : Fin 6) | fanMin (i : Fin 6) | fanAlarm (i : Fin 6) | fanBeep (i : Fin 6)
  | fanDiv (i : Fin 3)
  | pwmEnable (i : Fin 6) | pwm (i : Fin 6) | pwmFreq (i : Fin 6) | pwmAutoChannelsTemp (i : Fin 6)
  /-- `pwm1_auto_point1_pwm` and so on, of the first three channels. -/
  | pwmAutoPointPwm (i : Fin 3) (k : Fin 4)
  /-- `pwm1_auto_point1_temp` and so on, of all channels up to point 3. -/
  | pwmAutoPointTemp (i : Fin 6) (k : Fin 3)
  | pwmAutoPoint4Temp (i : Fin 3)
  | pwmAutoPoint1TempHyst (i : Fin 6)
  | pwmAutoStart (i : Fin 6) | pwmAutoSlope (i : Fin 6)
  | alarms | intrusion0Alarm | vrm | cpu0Vid | in3Label | in7Label | in8Label | in9Label
  deriving DecidableEq

inductive Mode
  | hidden
  | readOnly
  | writable
  deriving DecidableEq

namespace It87Chip

variable (c : It87Chip)

def fanAlarmBit (i : ℕ) : ℕ := [0, 1, 2, 3, 6, 7].getD i 0

/-- The index of the trip point attributes; channels 4 to 6 are bound to that of channel 3. -/
def autoTempIndex (i : ℕ) : ℕ := if i < 3 then i else 2

def showOf : Attribute → Driver (List Char)
  | .inInput i => c.showIn i 0
  | .inMin i => c.showIn i 1
  | .inMax i => c.showIn i 2
  | .inAlarm i => c.showAlarm (i + 8)
  | .inBeep _ => c.showBeep 1
  | .tempInput i => c.showTemp i 0
  | .tempMin i => c.showTemp i 1
  | .tempMax i => c.showTemp i 2
  | .tempOffset i => c.showTemp i 3
  | .tempType i => c.showTempType i
  | .tempAlarm i => c.showAlarm (i + 16)
  | .tempBeep _ => c.showBeep 2
  | .fanInput i => c.showFan i 0
  | .fanMin i => c.showFan i 1
  | .fanDiv i => c.showFanDiv i
  | .fanAlarm i => c.showAlarm (fanAlarmBit i)
  | .fanBeep _ => c.showBeep 0
  | .pwmEnable i => c.showPwmEnable i
  | .pwm i => c.showPwm i
  | .pwmFreq i => c.showPwmFreq i
  | .pwmAutoChannelsTemp i => c.showPwmTempMap i
  | .pwmAutoPointPwm i k => c.showAutoPwm i k
  | .pwmAutoPointTemp i k => c.showAutoTemp (autoTempIndex i) (k + 1)
  | .pwmAutoPoint4Temp i => c.showAutoTemp i 4
  | .pwmAutoPoint1TempHyst i => c.showAutoTemp (autoTempIndex i) 0
  | .pwmAutoStart i => c.showAutoPwm i 0
  | .pwmAutoSlope i => c.showAutoPwmSlope i
  | .alarms => c.showAlarms
  | .intrusion0Alarm => c.showAlarm 4
  | .vrm => showVrmReg
  | .cpu0Vid => c.showVidReg
  | .in3Label => c.showLabel 0
  | .in7Label => c.showLabel 1
  | .in8Label => c.showLabel 2
  | .in9Label => c.showLabel 3

/-- The store function of an attribute, if it has one. -/
def storeOf : Attribute → Option (List Char → Driver ℤ)
  | .inMin i => some (c.setIn i 1)
  | .inMax i => some (c.setIn i 2)
  | .inBeep i => if i.val = 0 then some (c.setBeep 1) else none
  | .tempMin i => some (c.setTemp i 1)
  | .tempMax i => some (c.setTemp i 2)
  | .tempOffset i => some (c.setTemp i 3)
  | .tempType i => some (c.setTempType i)
  | .tempBeep i => if i.val = 0 then some (c.setBeep 2) else none
  | .fanMin i => some (c.setFan i 1)
  | .fanDiv i => some (c.setFanDiv i)
  | .fanBeep _ => some (c.setBeep 0)
  | .pwmEnable i => some (c.setPwmEnable i)
  | .pwm i => some (c.setPwm i)
  | .pwmFreq i => if i.val < 2 then some (c.setPwmFreq i) else none
  | .pwmAutoChannelsTemp i => some (c.setPwmTempMap i)
  | .pwmAutoPointPwm i k => if k.val < 3 then some (c.setAutoPwm i k) else none
  | .pwmAutoPointTemp i k => some (c.setAutoTemp (autoTempIndex i) (k + 1))
  | .pwmAutoPoint4Temp i => some (c.setAutoTemp i 4)
  | .pwmAutoPoint1TempHyst i => some (c.setAutoTemp (autoTempIndex i) 0)
  | .pwmAutoStart i => some (c.setAutoPwm i 0)
  | .pwmAutoSlope i => some (c.setAutoPwmSlope i)
  | .intrusion0Alarm => some c.clearIntrusion
  | .vrm => some c.storeVrmReg
  | _ => none

/-- An attribute's mode under a condition. -/
def shownIf (visible : Bool) (mode : Mode) : Mode := if visible then mode else .hidden

def hasAutopwm : Bool := c.has .oldAutopwm || c.has .newerAutopwm

/-- `__ffs` -/
def firstFan : ℕ := ((List.range 6).find? fun i => c.hasFan.getLsbD i).getD 0

/-- The mode that the `is_visible` functions give an attribute. -/
def mode : Attribute → Mode
  | .inInput i => shownIf (c.hasIn.getLsbD i) .readOnly
  | .inMin i | .inMax i => shownIf (c.hasIn.getLsbD i) .writable
  | .inAlarm i => shownIf (c.hasIn.getLsbD i) .readOnly
  | .inBeep i =>
    shownIf (c.hasIn.getLsbD i && c.hasBeep) (if i.val = 0 then .writable else .readOnly)
  | .tempInput i => shownIf (c.hasTemp.getLsbD i) .readOnly
  | .tempMin i | .tempMax i => shownIf (c.hasTemp.getLsbD i && i.val < c.numTempLimit) .writable
  | .tempAlarm i => shownIf (c.hasTemp.getLsbD i && i.val < c.numTempLimit) .readOnly
  | .tempType i =>
    shownIf (c.hasTemp.getLsbD i && i.val < c.numTempLimit && c.hasType.getLsbD i)
      (if c.has .bankSel then .readOnly else .writable)
  | .tempOffset i =>
    shownIf (c.hasTemp.getLsbD i && i.val < c.numTempLimit && c.has .tempOffset) .writable
  | .tempBeep i =>
    shownIf (c.hasTemp.getLsbD i && i.val < c.numTempLimit && c.hasBeep)
      (if i.val = 0 then .writable else .readOnly)
  | .fanInput i => shownIf (c.hasFan.getLsbD i) .readOnly
  | .fanMin i => shownIf (c.hasFan.getLsbD i) .writable
  | .fanAlarm i => shownIf (c.hasFan.getLsbD i) .readOnly
  | .fanBeep i =>
    shownIf (c.hasFan.getLsbD i && c.hasBeep) (if i.val = c.firstFan then .writable else .readOnly)
  | .fanDiv i => shownIf (c.hasFan.getLsbD i && !c.has .fans16bit) .writable
  | .pwmEnable i | .pwm i => shownIf (c.hasPwm.getLsbD i) .writable
  | .pwmFreq i =>
    shownIf (c.hasPwm.getLsbD i)
      (if i.val = 0 ∨ c.has .pwmFreq2 ∧ i.val = 1 then .writable else .readOnly)
  | .pwmAutoChannelsTemp i =>
    shownIf (c.hasPwm.getLsbD i) (if c.hasAutopwm then .writable else .readOnly)
  | .pwmAutoPointPwm i k =>
    shownIf (c.hasAutopwm && c.hasPwm.getLsbD i && !c.has .newerAutopwm)
      (if k.val < 3 then .writable else .readOnly)
  | .pwmAutoPointTemp i _ => shownIf (c.hasAutopwm && c.hasPwm.getLsbD i) .writable
  | .pwmAutoPoint1TempHyst i => shownIf (c.hasAutopwm && c.hasPwm.getLsbD i) .writable
  | .pwmAutoPoint4Temp i =>
    shownIf (c.hasAutopwm && c.hasPwm.getLsbD i && !c.has .newerAutopwm) .writable
  -- on the later channels it is counted as the fourth point, which newer chips do not have
  | .pwmAutoStart i =>
    shownIf (c.hasAutopwm && c.hasPwm.getLsbD i &&
      !c.has (if i.val < 3 then .oldAutopwm else .newerAutopwm)) .writable
  | .pwmAutoSlope i =>
    shownIf (c.hasAutopwm && c.hasPwm.getLsbD i && !c.has .oldAutopwm) .writable
  | .alarms => .readOnly
  | .intrusion0Alarm => .writable
  | .vrm => shownIf c.hasVid .writable
  | .cpu0Vid => shownIf c.hasVid .readOnly
  | .in3Label => shownIf (c.inInternal.getLsbD 0) .readOnly
  | .in7Label => shownIf (c.inInternal.getLsbD 1) .readOnly
  | .in8Label => shownIf (c.inInternal.getLsbD 2) .readOnly
  | .in9Label => shownIf (c.inInternal.getLsbD 3) .readOnly

end It87Chip

end BuffaloNas.It87
