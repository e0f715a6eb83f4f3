import BuffaloNas.Fan.Daemon
import Mathlib.Data.List.Induction

/-! The daemon on a version 2 micon that some of its writes do not reach. -/
namespace BuffaloNas.Fan
open Interaction Program Micon

/-! ### The micon's fan -/

/-- What one iteration meets: a temperature, and whether an exchange it attempts is lost. -/
structure Step where
  temp : ℤ
  lost : Bool

/-- The steps to come, the fate of exchanges in the current one, and the fan speed. -/
structure MiconFan where
  script : List Step
  lost : Bool
  speed : UInt8

/-- A lost write changes nothing and returns `None`. -/
def MiconFan.device : Device FanOp FanOp.Answer PyError MiconFan
  | .hddtemp, s =>
    match s.script with
    | [] => (.ok none, s)
    | e :: es => (.ok (some e.temp), { s with script := es, lost := e.lost })
  | .sleep _, s => (.ok (), s)
  | .micon .sendPreamble, s => (.ok (), s)
  | .micon (.sendReadCmd _), s => (.ok none, s)
  | .micon (.sendWriteCmd length addrbyte databytes), s =>
    if s.lost then (.ok none, s)
    else (.ok (some (checked [1, addrbyte, 0])),
      if length = 1 ∧ addrbyte = fanSetSpeed then { s with speed := databytes.headD s.speed }
      else s)
  | .miconv3 _, s => (.ok (), s)
  | .writeFile _ _, s => (.ok (), s)

/-- The speed level that belongs to a pwm. -/
def level (value : ℤ) : UInt8 := UInt8.ofNat (lowmedhigh value).toNat

/-- The level fits the data byte of the command. -/
def IsLevel (value : ℤ) : Prop := 0 ≤ lowmedhigh value ∧ lowmedhigh value < 256

instance (value : ℤ) : Decidable (IsLevel value) := inferInstanceAs (Decidable (_ ∧ _))

variable (fl : FloatOps) (cfg : Config) (pwms : List String)

/-- The fan as the loop of the daemon sees it. -/
def miconv2 : Device DaemonOp DaemonOp.Answer PyError MiconFan :=
  through (fanHandler fl .miconv2 pwms) MiconFan.device

/-- The daemon gets through these temperatures without an exception. -/
def Runs (temps : List ℤ) : Prop :=
  cfg.mintemp ≠ cfg.maxtemp ∧ IsLevel cfg.minpwm ∧ ∀ temp ∈ temps, IsLevel (curve fl cfg temp)

theorem Runs.left {temps more : List ℤ} (h : Runs fl cfg (temps ++ more)) : Runs fl cfg temps :=
  ⟨h.1, h.2.1, fun temp ht => h.2.2 temp (List.mem_append_left more ht)⟩

/-- The daemon and the micon after as many iterations as there are steps. -/
def v2After (lost : Bool) (speed : UInt8) (steps : List Step) : Except PyError ℤ × MiconFan :=
  ((daemon fl cfg steps.length).interp (fanHandler fl .miconv2 pwms)).run MiconFan.device
    ⟨steps, lost, speed⟩

/-- From the first of the steady iterations on, the fan runs at the level of the curve. -/
def Settles (lost : Bool) (speed : UInt8) (before : List Step) (temp : ℤ) : Prop :=
  ∀ k, let r := v2After fl cfg pwms lost speed (before ++ List.replicate (k + 1) ⟨temp, false⟩)
    r.1 = .ok (curve fl cfg temp) ∧ r.2.speed = level (curve fl cfg temp)

end BuffaloNas.Fan
