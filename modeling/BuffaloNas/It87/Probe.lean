import BuffaloNas.It87.Attributes

/-! How the driver takes over an environment controller. -/
namespace BuffaloNas.It87
open Interaction Program SuperIo

namespace It87Chip

/-- A chip that nothing has been read from. -/
def unprobed (p : Platform) (sio : It87SioData) : It87Chip where
  toPlatform := p
  type := sio.type
  revision := sio.revision
  inScaled := 0
  inInternal := sio.internal.setWidth 16
  hasIn := 0
  hasFan := 0
  hasTemp := 0
  hasPwm := 0
  hasVid := false
  hasBeep := sio.beepPin ≠ 0
  hasType := 0

variable (c : It87Chip) (sio : It87SioData)

/-- `it87_check_pwm` -/
def checkPwm : Driver Bool := do
  let tmp ← readValue regFanCtl
  if tmp &&& 0x87 ≠ 0 then return true
  -- the channels' registers are looked up in a table that `it87_init_device` sets up later
  if c.fixPwmPolarity then raise .nullPointer
  return false

/-- A bit of a mask, under a condition. -/
def bitIf {w : ℕ} (b : Bool) (n : ℕ) : BitVec w := if b then 1 <<< n else 0

def scaledOf : Word :=
  if c.has .scaling then
    bitIf (sio.internal.getLsbD 0) 3 ||| bitIf (sio.internal.getLsbD 1) 7 |||
      bitIf (sio.internal.getLsbD 2) 8 ||| bitIf (sio.internal.getLsbD 3) 9
  else if c.type = .it8781 ∨ c.type = .it8782 ∨ c.type = .it8783 then
    bitIf (sio.internal.getLsbD 0) 3 ||| bitIf (sio.internal.getLsbD 1) 7
  else 0

def probeTemp : Driver Byte := do
  if sio.skipTemp.getLsbD 2 ∧ c.type = .it8782 then
    let extra ← readValue regTempExtra
    return if extra.getLsbD 7 then 0x07 else 0x03
  else return 0x07

/-- The two bits that say what one of the pins 4 to 6 is used for. -/
def pinUse (reg : Byte) (n : ℕ) : Byte := (reg >>> (2 * n)) &&& 0x03

/-- The temperature and voltage sensors on pins 4 to 6. -/
def probeSixTemp (hasTemp : Byte) (hasIn : Word) : Driver (Byte × Word) := do
  if c.has .sixTemp then
    let reg ← readValue regTemp456Enable
    let temps := bitIf (2 ≤ pinUse reg 0) 3 ||| bitIf (2 ≤ pinUse reg 1) 4 |||
      bitIf (2 ≤ pinUse reg 2) 5
    let ins := bitIf (pinUse reg 0 = 1) 10 ||| bitIf (pinUse reg 1 = 1) 11 |||
      bitIf (pinUse reg 2 = 1) 12
    return (hasTemp ||| temps, hasIn ||| ins)
  else return (hasTemp, hasIn)

/-! ### `it87_init_device` -/

/-- Full speed for manual mode, and each channel its own temperature for automatic mode. -/
def initDefaults : Driver Unit :=
  assign fun d => { d with
    pwmTempMap := fun i => if i < 6 then BitVec.ofNat 8 i else d.pwmTempMap i
    pwmDuty := fun i => if i < 6 then 0x7f else d.pwmDuty i
    autoPwm := fun i => if i < 6 then Function.update (d.autoPwm i) 3 0x7f else d.autoPwm i }

/-- A limit that the chip has left at 0xff. -/
def initLimit (reg : Word) (value : Byte) : Driver Unit := do
  let tmp ← readValue reg
  if tmp = 0xff then writeValue reg value

def initLimits : Driver Unit := do
  (List.range 8).forM fun i => initLimit (regVinMin i) 0
  (List.range c.numTempLimit).forM fun i => initLimit (c.regTempHigh i) 127
  let tmp ← readValue regVinEnable
  if tmp = 0 then writeValue regVinEnable 0xff

/-- The tachometers, as `FAN_MAIN_CTRL` has them. -/
def initFanMainCtrl : Driver Byte := do
  let mask : Byte := 0x70 &&& ~~~(sio.skipFan <<< 4)
  let reg ← readValue regFanMainCtrl
  let fanMainCtrl := if reg &&& mask = 0 then reg ||| mask else reg
  assign fun d => { d with fanMainCtrl }
  if reg &&& mask = 0 then writeValue regFanMainCtrl fanMainCtrl
  return (fanMainCtrl >>> 4) &&& 0x07

/-- The sixth fan, where `FAN_16BIT` or `FAN_DIV` tells of it. -/
def sixthFan (tmp : Byte) : Driver Bool := do
  if !c.has .sixFans then return false
  match c.type with
  | .it8620 | .it8628 | .it8686 => return tmp.getLsbD 2
  | .it8665 =>
    let tmp ← readValue regFanDiv
    return tmp.getLsbD 3
  | _ => return false

def initFans : Driver Byte := do
  let hasFan ← initFanMainCtrl sio
  let tmp ← readValue regFan16bit
  if c.has .fan16Config ∧ ~~~tmp &&& 0x07 &&& hasFan ≠ 0 then
    writeValue regFan16bit (tmp ||| 0x07)
  let six ← c.sixthFan tmp
  let more := bitIf (c.hasFourFans && tmp.getLsbD 4) 3 |||
    bitIf (c.hasFiveFans && tmp.getLsbD 5) 4 ||| bitIf six 5
  return (hasFan ||| more) &&& ~~~sio.skipFan

/-- The channels without pins; the sixth one has to be asked for on some chips. -/
def initSkipPwm : Driver Byte := do
  if c.has .sixPwm ∧ (c.type = .it8620 ∨ c.type = .it8686) then
    let tmp ← readValue regFanDiv
    return sio.skipPwm ||| bitIf (!tmp.getLsbD 3) 5
  else return sio.skipPwm

def startMonitoring : Driver Unit := do
  let config ← readValue regConfig
  writeValue regConfig (config &&& 0x3e ||| if c.updateVbat then 0x41 else 0x01)

/-- The fans the chip has, and the channels it has not. -/
def initDevice : Driver (Byte × Byte) := do
  initDefaults
  c.initLimits
  let hasFan ← c.initFans sio
  let skipPwm ← c.initSkipPwm sio
  c.startMonitoring
  return (hasFan, skipPwm)

/-- The sensors whose types the attributes find when they are made. -/
def probeTypes : Driver Byte :=
  (List.range 6).foldlM (fun types i => do
    if c.hasTemp.getLsbD i ∧ i < c.numTempLimit then
      let type ← c.getTempType i
      return types ||| bitIf (type ≠ 0) i
    else return types) 0

end It87Chip

open It87Chip in
/-- The error, or the chip; what it keeps of the cache is in the data. -/
def it87Probe (p : Platform) (sio : It87SioData) : Driver (Except ℤ It87Chip) := do
  let c := unprobed p sio
  assign fun _ => It87Data.zero
  let config ← readValue regConfig
  if config.getLsbD 7 then return .error (-enodev)
  let chipid ← readValue regChipid
  if chipid ≠ 0x90 then return .error (-enodev)
  let enablePwmInterface ← c.checkPwm
  let hasTemp ← c.probeTemp sio
  let (hasTemp, hasIn) ← c.probeSixTemp hasTemp (0x3ff &&& ~~~sio.skipIn)
  let (hasFan, skipPwm) ← c.initDevice sio
  if !sio.skipVid then assign fun d => { d with vrm := p.vidWhichVrm, vid := sio.vidValue }
  let hasPwm := if enablePwmInterface then 0x3f &&& ~~~skipPwm else 0
  let c := { c with
    inScaled := c.scaledOf sio, hasIn, hasFan, hasTemp, hasPwm, hasVid := !sio.skipVid }
  let hasType ← c.probeTypes
  return .ok { c with hasType }

end BuffaloNas.It87
