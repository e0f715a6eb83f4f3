import BuffaloNas.Micon.Api
import Mathlib.Data.Rat.Floor

/-! The fan daemon: its curve, its loop, and how a value reaches each type of fan. -/
namespace BuffaloNas.Fan
open Interaction Program Micon

/-! ### The curve -/

/-- Python's float arithmetic, as far as the daemon uses it. -/
structure FloatOps where
  F : Type
  literal : ℚ → F
  div : ℤ → ℤ → F
  mul : F → ℤ → F
  add : ℤ → F → F
  toInt : F → ℤ

/-- Rationals without rounding, truncated towards zero like `int(x)`. -/
def FloatOps.exact : FloatOps where
  F := ℚ
  literal q := q
  div a b := a / b
  mul q n := q * n
  add n q := n + q
  toInt q := if 0 ≤ q then Int.floor q else Int.ceil q

/-- The section `FanConfig` of the configuration file. -/
structure Config where
  minpwm : ℤ
  maxpwm : ℤ
  mintemp : ℤ
  maxtemp : ℤ
  interval : ℤ
  deriving DecidableEq

/-- The configuration that is written when there is no file. -/
def Config.default : Config where
  minpwm := 10
  maxpwm := 100
  mintemp := 28
  maxtemp := 45
  interval := 10

structure Config.Valid (cfg : Config) : Prop where
  temps : cfg.mintemp < cfg.maxtemp
  pwm_nonneg : 0 ≤ cfg.minpwm
  pwms : cfg.minpwm ≤ cfg.maxpwm
  pwm_le : cfg.maxpwm ≤ 100

theorem Config.valid_default : Config.default.Valid := ⟨by decide, by decide, by decide, by decide⟩

variable (fl : FloatOps) (cfg : Config)

/-- The pwm that belongs to a temperature. -/
def curve (temp : ℤ) : ℤ :=
  if temp ≥ cfg.maxtemp then cfg.maxpwm
  else if temp ≤ cfg.mintemp then cfg.minpwm
  else
    let pwmsteps := cfg.maxpwm - cfg.minpwm
    let tempsteps := cfg.maxtemp - cfg.mintemp
    let ratio := fl.div pwmsteps tempsteps
    fl.toInt (fl.add cfg.minpwm (fl.mul ratio (temp - cfg.mintemp)))

/-! ### The loop -/

/-- What the loop does to the world. -/
inductive DaemonOp
  | getHDDtemp
  | setMiconPWM (value : ℤ)
  | sleep (seconds : ℤ)
  deriving DecidableEq

/-- `getHDDtemp` returns an integer, or `False` when `hddtemp` has no output. -/
abbrev DaemonOp.Answer : DaemonOp → Type
  | getHDDtemp => Option ℤ
  | setMiconPWM _ => Unit
  | sleep _ => Unit

abbrev Daemon (α : Type) := Program DaemonOp DaemonOp.Answer PyError α

/-- `temp == False`; the integer 0 equals `False` too. -/
def equalsFalse : Option ℤ → Bool
  | none => true
  | some temp => temp == 0

def iteration (pwm : ℤ) : Daemon ℤ := do
  let temp : Option ℤ ← perform DaemonOp.getHDDtemp
  if equalsFalse temp then
    perform (DaemonOp.sleep 60)
    return pwm
  else
    let oldpwm := pwm
    let pwm := curve fl cfg (temp.getD 0)
    if pwm ≠ oldpwm then perform (DaemonOp.setMiconPWM pwm)
    perform (DaemonOp.sleep cfg.interval)
    return pwm

def startup : Daemon ℤ := do
  let tempsteps := cfg.maxtemp - cfg.mintemp
  -- the ratio is computed before anything is set
  if tempsteps = 0 then raise .zeroDivisionError
  let pwm := cfg.minpwm
  perform (DaemonOp.setMiconPWM pwm)
  return pwm

/-- The daemon up to the end of iteration `n`, with the pwm it remembers then. -/
def daemon : ℕ → Daemon ℤ
  | 0 => startup cfg
  | n + 1 => daemon n >>= iteration fl cfg

/-! ### The fans -/

/-- The value of the first argument. -/
inductive FanType
  | miconv3
  | miconv2
  | hwmon
  | other
  deriving DecidableEq

inductive FanOp
  | hddtemp
  | sleep (seconds : ℤ)
  | micon (c : Command)
  | miconv3 (message : String)
  | writeFile (path text : String)

abbrev FanOp.Answer : FanOp → Type
  | hddtemp => Option ℤ
  | sleep _ => Unit
  | micon c => c.Answer
  | miconv3 _ => Unit
  | writeFile _ _ => Unit

abbrev FanIo (α : Type) := Program FanOp FanOp.Answer PyError α

def lowmedhigh (value : ℤ) : ℤ := (value + 30) / 33

/-- `bytearray([level])` -/
def levelByte (level : ℤ) : FanIo UInt8 :=
  if 0 ≤ level ∧ level < 256 then pure (UInt8.ofNat level.toNat) else raise .valueError

/-- `send_write_cmd(1, fan_set_speed, ...)` on a port that was just opened. -/
def setMiconv2 (value : ℤ) : FanIo Unit := do
  perform (FanOp.micon .sendPreamble)
  let level ← levelByte (lowmedhigh value)
  let _ ← perform (FanOp.micon (.sendWriteCmd 1 fanSetSpeed [level]))

def setMiconPWM (fanType : FanType) (pwms : List String) (value : ℤ) : FanIo Unit :=
  let eightbit := fl.toInt (fl.mul (fl.literal (255 / 100)) value)
  match fanType with
  | .miconv3 => perform (FanOp.miconv3 ("FAN_SET 1 " ++ toString value))
  | .miconv2 => setMiconv2 value
  | .hwmon => pwms.forM fun pwm => perform (FanOp.writeFile pwm (toString eightbit))
  | .other => pure ()

def fanHandler (fanType : FanType) (pwms : List String) : (o : DaemonOp) → FanIo o.Answer
  | .getHDDtemp => perform FanOp.hddtemp
  | .setMiconPWM value => setMiconPWM fl fanType pwms value
  | .sleep seconds => perform (FanOp.sleep seconds)

end BuffaloNas.Fan
