import BuffaloNas.It87.Data
import Mathlib.Tactic.NormNum

/-! How the driver turns the contents of registers into numbers, and numbers into contents. -/
namespace BuffaloNas.It87
open SuperIo

/-- `clamp_val` -/
def clampVal (x low high : ℤ) : ℤ := max low (min x high)

namespace It87Chip

variable (c : It87Chip)

/-! ### Voltages -/

/-- `DIV_ROUND_CLOSEST` of a `long` and a positive `int`. -/
def divRoundClosest (x d : ℤ) : ℤ :=
  if 0 < x then (c.long (x + d / 2)).tdiv d else (c.long (x - d / 2)).tdiv d

def adcLsb (nr : ℕ) : ℤ :=
  let lsb := if c.has .adc12mv then 120 else if c.has .adc10_9mv then 109
    else if c.has .adc11mv then 110 else 160
  if c.inScaled.getLsbD nr then 2 * lsb else lsb

def inToReg (nr : ℕ) (val : ℤ) : Byte :=
  BitVec.ofInt 8 (clampVal (c.divRoundClosest (c.long (val * 10)) (c.adcLsb nr)) 0 255)

def inFromReg (nr : ℕ) (val : Byte) : ℤ := c.divRoundClosest (val.toNat * c.adcLsb nr) 10

/-! ### Fans -/

def fanToReg (rpm : ℤ) (div : ℕ) : Byte :=
  if rpm = 0 then 255
  else
    let rpm := clampVal rpm 1 1000000
    BitVec.ofInt 8 (clampVal ((1350000 + rpm * div / 2) / (rpm * div)) 1 254)

/-- Dividing by zero stops the processor. -/
def fan16ToReg (rpm : ℤ) : Option Word :=
  if rpm = 0 then some 0xffff
  else if c.long (rpm * 2) = 0 then none
  else some (BitVec.ofInt 16
    (clampVal ((c.long (1350000 + rpm)).tdiv (c.long (rpm * 2))) 1 0xfffe))

def fanFromReg (val div : ℕ) : ℤ :=
  if val = 0 then -1 else if val = 255 then 0 else ((1350000 / (val * div) : ℕ) : ℤ)

def fan16FromReg (val : ℕ) : ℤ :=
  if val = 0 then -1 else if val = 0xffff then 0 else ((1350000 / (val * 2) : ℕ) : ℤ)

def divFromReg (val : Byte) : ℕ := 1 <<< val.toNat

/-- The loop of `DIV_TO_REG`, with as many rounds left. -/
def divLoop : ℕ → ℤ → ℕ
  | 0, _ => 0
  | n + 1, val => if val >>> (1 : ℕ) ≠ 0 then divLoop n (val >>> (1 : ℕ)) + 1 else 0

/-- The parameter of `DIV_TO_REG` is an `int`. -/
def divToReg (val : ℕ) : ℕ := divLoop 7 ((val : ℤ).bmod (2 ^ 32))

/-! ### Temperatures -/

def tempToReg (val : ℤ) : ℤ :=
  clampVal (if val < 0 then (c.long (val - 500)).tdiv 1000 else (c.long (val + 500)).tdiv 1000)
    (-128) 127

def tempFromReg (val : ℤ) : ℤ := val * 1000

/-! ### Duty cycles -/

def pwmToReg (val : ℤ) : Byte :=
  if c.has .newerAutopwm then BitVec.ofInt 8 val else BitVec.ofInt 8 (val >>> (1 : ℕ))

def pwmFromReg (reg : Byte) : ℤ :=
  if c.has .newerAutopwm then reg.toNat else ((reg &&& 0x7f).toNat <<< 1 : ℕ)

def pwmFreq : List ℕ :=
  [48000000, 24000000, 12000000, 8000000, 6000000, 3000000, 1500000, 750000]

def freqScale : ℕ := if c.has .newerAutopwm then 256 else 128

/-- The search of `set_pwm_freq`. -/
def freqIndex (val : ℕ) : ℕ :=
  let val := min val 1000000 * c.freqScale
  ((List.range 7).find? fun i =>
    (pwmFreq.getD i 0 + pwmFreq.getD (i + 1) 0) / 2 < val).getD 7

end It87Chip

end BuffaloNas.It87
