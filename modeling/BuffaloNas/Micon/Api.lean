import BuffaloNas.Interaction.Observation
import BuffaloNas.Micon.Frame

/-! The `micon_api` class: exchanges over the serial port and the methods built on them. -/
namespace BuffaloNas.Micon
open Interaction Program

inductive PyError
  | indexError
  | typeError
  | valueError
  | attributeError
  | unicodeDecodeError
  | zeroDivisionError
  deriving DecidableEq, Repr

/-- The two uses of `serial.Serial`. -/
inductive PortOp
  | write (output : Bytes)
  | read (size : ℕ)
  deriving DecidableEq

abbrev PortOp.Answer : PortOp → Type
  | write _ => Unit
  | read _ => Bytes

abbrev Serial (α : Type) := Program PortOp PortOp.Answer PyError α

def retryCount : ℕ := 3

/-! ### Exchanges over the port -/

def sendBytes (output : Bytes) : Serial Unit := perform (PortOp.write output)

def sendPreamble : Serial Unit := sendBytes preamble

/-- `bs[i]` -/
def item (bs : Bytes) (i : ℕ) : Serial UInt8 :=
  match bs[i]? with
  | some b => pure b
  | none => raise .indexError

def getResponse : Serial Bytes := do
  let response : Bytes ← perform (PortOp.read 1)
  let length := match response with
    | [first] => (first &&& 0x7F).toNat + 2
    | _ => 32
  let more : Bytes ← perform (PortOp.read length)
  return response ++ more

def sendCmdLoop (cmdbytes : Bytes) : ℕ → Serial (Option Bytes)
  | 0 => return none
  | x + 1 => do
    sendBytes cmdbytes
    let response ← getResponse
    if response.length = 0 then
      sendCmdLoop cmdbytes x
    else if calcChecksum response = 0 then do
      let first ← item response 0
      -- the response code is looked up for the debug text, printed or not
      if first &&& 0x80 = 0 then let _ ← item response 2
      return some response
    else do
      sendPreamble
      sendCmdLoop cmdbytes x

/-- The caller's buffer is returned too: the check byte is appended to it in place. -/
def sendCmd (cmdbytes : Bytes) : Serial (Option Bytes × Bytes) := do
  let cmdbytes := cmdbytes ++ [calcCheckByte cmdbytes]
  let response ← sendCmdLoop cmdbytes retryCount
  return (response, cmdbytes)

def sendReadCmdLoop : ℕ → Bytes → Serial (Option Bytes)
  | 0, _ => return none
  | x + 1, cmdbytes => do
    let (response, cmdbytes) ← sendCmd cmdbytes
    match response with
    | none => sendReadCmdLoop x cmdbytes
    | some response =>
      if response.length = 0 then
        sendReadCmdLoop x cmdbytes
      else do
        let first ← item response 0
        let responseLen := (first ^^^ 0x80).toNat
        if first &&& 0x80 = 0 then
          sendReadCmdLoop x cmdbytes
        else if (responseLen : ℤ) ≠ response.length - 3 then
          sendReadCmdLoop x cmdbytes
        else do
          let output ← (List.range responseLen).mapM fun y => item response (y + 2)
          return some output

def sendReadCmd (addrbyte : UInt8) : Serial (Option Bytes) :=
  sendReadCmdLoop retryCount [0x80, addrbyte]

def sendWriteCmd (length addrbyte : UInt8) (databytes : Bytes) : Serial (Option Bytes) := do
  let (response, _) ← sendCmd (length :: addrbyte :: databytes)
  return response

/-! ### Methods built on the exchanges -/

/-- What the other methods use of the class. -/
inductive Command
  | sendPreamble
  | sendReadCmd (addrbyte : UInt8)
  | sendWriteCmd (length addrbyte : UInt8) (databytes : Bytes)
  deriving DecidableEq

abbrev Command.Answer : Command → Type
  | .sendPreamble => Unit
  | .sendReadCmd _ => Option Bytes
  | .sendWriteCmd .. => Option Bytes

abbrev Api (α : Type) := Program Command Command.Answer PyError α

def Command.exchange : (c : Command) → Serial c.Answer
  | .sendPreamble => Micon.sendPreamble
  | .sendReadCmd addrbyte => Micon.sendReadCmd addrbyte
  | .sendWriteCmd length addrbyte databytes => Micon.sendWriteCmd length addrbyte databytes

/-- The bytes of a command's first attempt. -/
def Command.frame : Command → Bytes
  | .sendPreamble => preamble
  | .sendReadCmd addrbyte => [0x80, addrbyte] ++ [calcCheckByte [0x80, addrbyte]]
  | .sendWriteCmd length addrbyte databytes =>
    (length :: addrbyte :: databytes) ++ [calcCheckByte (length :: addrbyte :: databytes)]

def readCmd (addrbyte : UInt8) : Api (Option Bytes) := perform (Command.sendReadCmd addrbyte)

def writeCmd (length addrbyte : UInt8) (databytes : Bytes) : Api (Option Bytes) :=
  perform (Command.sendWriteCmd length addrbyte databytes)

def bzOn : UInt8 := 0x30
def lcdSetDispitem : UInt8 := 0x32
def fanSetSpeed : UInt8 := 0x33
def lcdSetBright : UInt8 := 0x3a
def lcdSetDispitemEx : UInt8 := 0x40
def lcdSetDiskCapacity : UInt8 := 0x60
def lcdSetDate : UInt8 := 0x70
def lcdDispBuffer0 : UInt8 := 0x25

def ledOff : ℤ := 0
def ledBlink : ℤ := 2

def cmdLedCpu : UInt8 := 0x50
def cmdLedOnoff : UInt8 := 0x51
def cmdLedBlink : UInt8 := 0x52
def sataLedOnoff : UInt8 := 0x58
def sataLedBlink : UInt8 := 0x59

/-- `led_mask[0]` and `led_mask[1]` -/
def ledMask : Bytes → Api (UInt8 × UInt8)
  | m0 :: m1 :: _ => pure (m0, m1)
  | _ => raise .indexError

/-- Items 0 and 1 of a register value are updated in place; `None` has no items. -/
def updateStatus (f : UInt8 → UInt8 → UInt8) (m : UInt8 × UInt8) : Option Bytes → Api Bytes
  | some (b0 :: b1 :: rest) => pure (f b0 m.1 :: f b1 m.2 :: rest)
  | some _ => raise .indexError
  | none => raise .typeError

def setBits (b mask : UInt8) : UInt8 := b ||| mask

def clearBits (b mask : UInt8) : UInt8 := b &&& (mask ^^^ 0xFF)

/-- The read-modify-write cycle of one LED register. -/
def updateLed (addrbyte : UInt8) (f : UInt8 → UInt8 → UInt8) (m : UInt8 × UInt8) : Api Unit := do
  let ledStatus ← readCmd addrbyte
  let ledStatus ← updateStatus f m ledStatus
  let _ ← writeCmd 2 addrbyte ledStatus

def blinkRule (mode : ℤ) : UInt8 → UInt8 → UInt8 :=
  if mode ≠ ledBlink then clearBits else setBits

def onoffRule (mode : ℤ) : UInt8 → UInt8 → UInt8 :=
  if mode = ledOff then clearBits else setBits

def cmdSetSataled (mode : ℤ) (led : Bytes) : Api Unit := do
  let m ← ledMask led
  updateLed sataLedBlink (blinkRule mode) m
  updateLed sataLedOnoff (onoffRule mode) m

def cmdSetLed (mode : ℤ) (led : Bytes) : Api Unit := do
  let m ← ledMask led
  updateLed cmdLedCpu setBits m
  updateLed cmdLedBlink (blinkRule mode) m
  updateLed cmdLedOnoff (onoffRule mode) m

def cmdSound (soundcmd : Bytes) : Api Unit := do
  let _ ← writeCmd 1 bzOn soundcmd

def setLcdBrightness (brightbyte : Bytes) : Api Unit := do
  let _ ← writeCmd 1 lcdSetBright brightbyte

def getLcdBrightness : Api Unit := do
  let _ ← readCmd lcdSetBright

def setLcdColor (colorbytes : Bytes) : Api Unit := do
  let _ ← writeCmd 2 cmdLedCpu [0x00, 0x07]
  let _ ← writeCmd 2 cmdLedOnoff colorbytes

/-- `send_read_cmd(...)[0]` -/
def firstItem : Option Bytes → Api UInt8
  | some (b :: _) => pure b
  | some [] => raise .indexError
  | none => raise .typeError

def cmdSetLcddisp (mode : ℤ) (led : Bytes) : Api Unit := do
  let m ← ledMask led
  let s0 ← firstItem (← readCmd lcdSetDispitem)
  let s1 ← firstItem (← readCmd lcdSetDispitemEx)
  let _ ← writeCmd 1 lcdSetDispitem [onoffRule mode s0 m.1]
  let _ ← writeCmd 1 lcdSetDispitemEx [onoffRule mode s1 m.2]

def cmdForceLcdDisp (dispbyte : UInt8) : Api Unit := do
  let _ ← writeCmd 0 dispbyte []

/-- `row.ljust(16)[:16]` -/
def ljust16 (row : List Char) : List Char :=
  (row ++ List.replicate (16 - row.length) ' ').take 16

/-- `bytearray().extend(map(ord, message))` -/
def messageBytes (message : List Char) : Api Bytes :=
  message.mapM fun c => if c.toNat < 256 then pure (UInt8.ofNat c.toNat) else raise .valueError

def setLcdBuffer (bufferbyte : UInt8) (row1 row2 : List Char) : Api Unit := do
  let messagebytes ← messageBytes (ljust16 row1 ++ ljust16 row2)
  let _ ← writeCmd 32 bufferbyte messagebytes

def setLcdBufferShort (bufferbyte : UInt8) (message : List Char) : Api Unit := do
  let messagebytes ← messageBytes (ljust16 message)
  let _ ← writeCmd 16 bufferbyte messagebytes

/-- The fields of `datetime.datetime.now()` that are sent. -/
structure DateTime where
  year : ℕ
  month : UInt8
  day : UInt8
  hour : UInt8
  minute : UInt8
  second : UInt8

def setLcdDate (currentdate : DateTime) : Api Unit := do
  let year : ℤ := currentdate.year - 2000
  if 0 ≤ year ∧ year < 256 then
    let output := [UInt8.ofNat year.toNat, currentdate.month, currentdate.day, currentdate.hour,
      currentdate.minute, currentdate.second]
    let _ ← writeCmd 6 lcdSetDate output
  else raise .valueError

def setLcdDrives (drive1 drive2 drive3 drive4 : UInt8) : Api Unit := do
  let _ ← writeCmd 4 lcdSetDiskCapacity [drive1, drive2, drive3, drive4]

/-- A call of one of the methods, with its arguments. -/
inductive Call
  | init
  | sendReadCmd (addrbyte : UInt8)
  | sendWriteCmd (length addrbyte : UInt8) (databytes : Bytes)
  | cmdSound (soundcmd : Bytes)
  | cmdSetSataled (mode : ℤ) (led : Bytes)
  | cmdSetLed (mode : ℤ) (led : Bytes)
  | setLcdBrightness (brightbyte : Bytes)
  | getLcdBrightness
  | setLcdColor (colorbytes : Bytes)
  | cmdSetLcddisp (mode : ℤ) (led : Bytes)
  | cmdForceLcdDisp (dispbyte : UInt8)
  | setLcdBuffer (bufferbyte : UInt8) (row1 row2 : List Char)
  | setLcdBufferShort (bufferbyte : UInt8) (message : List Char)
  | setLcdDate (currentdate : DateTime)
  | setLcdDrives (drive1 drive2 drive3 drive4 : UInt8)

/-- What a call does; the value a command returns is dropped here. -/
def Call.program : Call → Api Unit
  | init => perform Command.sendPreamble
  | sendReadCmd addrbyte => do let _ ← readCmd addrbyte
  | sendWriteCmd length addrbyte databytes => do let _ ← writeCmd length addrbyte databytes
  | cmdSound soundcmd => Micon.cmdSound soundcmd
  | cmdSetSataled mode led => Micon.cmdSetSataled mode led
  | cmdSetLed mode led => Micon.cmdSetLed mode led
  | setLcdBrightness brightbyte => Micon.setLcdBrightness brightbyte
  | getLcdBrightness => Micon.getLcdBrightness
  | setLcdColor colorbytes => Micon.setLcdColor colorbytes
  | cmdSetLcddisp mode led => Micon.cmdSetLcddisp mode led
  | cmdForceLcdDisp dispbyte => Micon.cmdForceLcdDisp dispbyte
  | setLcdBuffer bufferbyte row1 row2 => Micon.setLcdBuffer bufferbyte row1 row2
  | setLcdBufferShort bufferbyte message => Micon.setLcdBufferShort bufferbyte message
  | setLcdDate currentdate => Micon.setLcdDate currentdate
  | setLcdDrives d1 d2 d3 d4 => Micon.setLcdDrives d1 d2 d3 d4

end BuffaloNas.Micon
