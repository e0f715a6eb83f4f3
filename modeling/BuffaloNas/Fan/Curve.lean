import BuffaloNas.Fan.Daemon
import Mathlib.Tactic.Linarith
import Mathlib.Tactic.FieldSimp
import Mathlib.Tactic.Positivity
import Mathlib.Algebra.Order.Floor.Ring

/-! The curve in exact arithmetic, and the numbers that it makes the fans receive. -/
namespace BuffaloNas.Fan
open Interaction Program Micon

variable {cfg : Config} {s t : ℤ}

/-! ### The pwm -/

/-- The line between the two ends of the curve. -/
def slope (cfg : Config) : ℚ :=
  ((cfg.maxpwm - cfg.minpwm : ℤ) : ℚ) / ((cfg.maxtemp - cfg.mintemp : ℤ) : ℚ)

def line (cfg : Config) (temp : ℤ) : ℚ :=
  cfg.minpwm + slope cfg * ((temp - cfg.mintemp : ℤ) : ℚ)

theorem slope_nonneg (hv : cfg.Valid) : 0 ≤ slope cfg := by
  have hp : (0 : ℚ) ≤ ((cfg.maxpwm - cfg.minpwm : ℤ) : ℚ) := by
    exact_mod_cast Int.sub_nonneg_of_le hv.pwms
  have ht : (0 : ℚ) ≤ ((cfg.maxtemp - cfg.mintemp : ℤ) : ℚ) := by
    exact_mod_cast Int.sub_nonneg_of_le hv.temps.le
  exact div_nonneg hp ht

theorem line_mono (hv : cfg.Valid) (h : s ≤ t) : line cfg s ≤ line cfg t := by
  have hst : ((s - cfg.mintemp : ℤ) : ℚ) ≤ ((t - cfg.mintemp : ℤ) : ℚ) := by
    exact_mod_cast Int.sub_le_sub_right h _
  have := mul_le_mul_of_nonneg_left hst (slope_nonneg hv)
  rw [line, line]
  linarith

theorem line_mintemp (cfg : Config) : line cfg cfg.mintemp = cfg.minpwm := by simp [line]

theorem line_maxtemp (hv : cfg.Valid) : line cfg cfg.maxtemp = cfg.maxpwm := by
  have hne : ((cfg.maxtemp - cfg.mintemp : ℤ) : ℚ) ≠ 0 := by
    have := hv.temps
    exact_mod_cast (show cfg.maxtemp - cfg.mintemp ≠ 0 by omega)
  rw [line, slope, div_mul_cancel₀ _ hne]
  push_cast
  ring

theorem toInt_of_nonneg {q : ℚ} (h : 0 ≤ q) : FloatOps.exact.toInt q = ⌊q⌋ := if_pos h

theorem floor_line (h : cfg.Valid) (hlow : cfg.mintemp ≤ t) (hhigh : t ≤ cfg.maxtemp) :
    cfg.minpwm ≤ ⌊line cfg t⌋ ∧ ⌊line cfg t⌋ ≤ cfg.maxpwm := by
  have h1 := line_mono h hlow
  have h2 := line_mono h hhigh
  rw [line_mintemp] at h1
  rw [line_maxtemp h] at h2
  exact ⟨Int.le_floor.mpr h1, Int.cast_le.mp ((Int.floor_le _).trans h2)⟩

/-- Between the ends, the pwm is the line rounded down. -/
theorem curve_between (hv : cfg.Valid) (hlow : cfg.mintemp < t) (hhigh : t < cfg.maxtemp) :
    curve .exact cfg t = ⌊line cfg t⌋ := by
  have hline := line_mono hv hlow.le
  have hmin : (0 : ℚ) ≤ cfg.minpwm := by exact_mod_cast hv.pwm_nonneg
  rw [line_mintemp] at hline
  rw [curve, if_neg (by omega), if_neg (by omega)]
  exact toInt_of_nonneg (hmin.trans hline)

theorem curve_range (hv : cfg.Valid) (t : ℤ) :
    cfg.minpwm ≤ curve .exact cfg t ∧ curve .exact cfg t ≤ cfg.maxpwm := by
  have hp := hv.pwms
  by_cases hhigh : cfg.maxtemp ≤ t
  · rw [curve, if_pos hhigh]
    exact ⟨hp, le_rfl⟩
  by_cases hlow : t ≤ cfg.mintemp
  · rw [curve, if_neg hhigh, if_pos hlow]
    exact ⟨le_rfl, hp⟩
  · rw [curve_between hv (by omega) (by omega)]
    exact floor_line hv (by omega) (by omega)

theorem curve_mono (hv : cfg.Valid) (h : s ≤ t) : curve .exact cfg s ≤ curve .exact cfg t := by
  by_cases hhigh : cfg.maxtemp ≤ t
  · have ht : curve .exact cfg t = cfg.maxpwm := by rw [curve, if_pos hhigh]
    rw [ht]
    exact (curve_range hv s).2
  by_cases hlow : s ≤ cfg.mintemp
  · have hs : curve .exact cfg s = cfg.minpwm := by rw [curve, if_neg (by omega), if_pos hlow]
    rw [hs]
    exact (curve_range hv t).1
  · rw [curve_between hv (by omega) (by omega), curve_between hv (by omega) (by omega)]
    exact Int.floor_le_floor (line_mono hv h)

/-! ### What is sent -/

/-- The number that a type of fan is sent for a pwm. -/
def sentNumber (fl : FloatOps) (value : ℤ) : FanType → ℤ
  | .miconv3 => value
  | .miconv2 => lowmedhigh value
  | .hwmon => fl.toInt (fl.mul (fl.literal (255 / 100)) value)
  | .other => 0

/-- The greatest number that a type of fan takes. -/
def topNumber : FanType → ℤ
  | .miconv3 => 100
  | .miconv2 => 3
  | .hwmon => 255
  | .other => 0

/-- A number on its way to the fans. -/
def sendNumber (pwms : List String) (n : ℤ) : FanType → FanIo Unit
  | .miconv3 => perform (FanOp.miconv3 ("FAN_SET 1 " ++ toString n))
  | .miconv2 => do
    perform (FanOp.micon .sendPreamble)
    let _ ← perform (FanOp.micon (.sendWriteCmd 1 fanSetSpeed [UInt8.ofNat n.toNat]))
  | .hwmon => pwms.forM fun pwm => perform (FanOp.writeFile pwm (toString n))
  | .other => pure ()

theorem eightbit_eq {value : ℤ} (h : 0 ≤ value) :
    sentNumber .exact value .hwmon = ⌊(255 / 100 : ℚ) * value⌋ := by
  refine toInt_of_nonneg ?_
  have : (0 : ℚ) ≤ value := by exact_mod_cast h
  change (0 : ℚ) ≤ 255 / 100 * value
  positivity

theorem sentNumber_range {value : ℤ} (hlow : 0 ≤ value) (hhigh : value ≤ 100)
    (fanType : FanType) :
    0 ≤ sentNumber .exact value fanType ∧
      sentNumber .exact value fanType ≤ topNumber fanType := by
  cases fanType with
  | miconv3 => exact ⟨hlow, hhigh⟩
  | miconv2 =>
    simp only [sentNumber, lowmedhigh, topNumber]
    omega
  | hwmon =>
    have h0 : (0 : ℚ) ≤ value := by exact_mod_cast hlow
    have h100 : (value : ℚ) ≤ 100 := by exact_mod_cast hhigh
    rw [eightbit_eq hlow, topNumber]
    refine ⟨Int.floor_nonneg.mpr (by positivity), ?_⟩
    have hle : (255 / 100 : ℚ) * value ≤ ((255 : ℤ) : ℚ) := by
      push_cast
      linarith
    exact Int.cast_le.mp ((Int.floor_le _).trans hle)
  | other => exact ⟨le_rfl, le_rfl⟩

theorem sentNumber_mono {v w : ℤ} (hv : 0 ≤ v) (h : v ≤ w) (fanType : FanType) :
    sentNumber .exact v fanType ≤ sentNumber .exact w fanType := by
  cases fanType with
  | miconv3 => exact h
  | miconv2 =>
    simp only [sentNumber, lowmedhigh]
    omega
  | hwmon =>
    have hvw : (v : ℚ) ≤ w := by exact_mod_cast h
    rw [eightbit_eq hv, eightbit_eq (hv.trans h)]
    exact Int.floor_le_floor (by linarith)
  | other => exact le_rfl

/-- A pwm in percent reaches every type of fan as its number. -/
theorem setMiconPWM_eq {value : ℤ} (hlow : 0 ≤ value) (hhigh : value ≤ 100)
    (fanType : FanType) (pwms : List String) :
    setMiconPWM .exact fanType pwms value =
      sendNumber pwms (sentNumber .exact value fanType) fanType := by
  cases fanType with
  | miconv3 => rfl
  | miconv2 =>
    have hlevel := sentNumber_range hlow hhigh .miconv2
    simp only [sentNumber, topNumber] at hlevel
    have hbyte : levelByte (lowmedhigh value) = pure (UInt8.ofNat (lowmedhigh value).toNat) := by
      rw [levelByte, if_pos (by omega)]
    simp only [setMiconPWM, setMiconv2, hbyte, pure_bind]
    rfl
  | hwmon => rfl
  | other => rfl

/-- The pwm is nondecreasing in the temperature and keeps between its limits; so does the number
that each type of fan is sent for it. -/
theorem curve_sound (cfg : Config) (hv : cfg.Valid) :
    (∀ s t, s ≤ t → curve .exact cfg s ≤ curve .exact cfg t) ∧
      (∀ t, cfg.minpwm ≤ curve .exact cfg t ∧ curve .exact cfg t ≤ cfg.maxpwm) ∧
      ∀ fanType,
        (∀ t pwms, setMiconPWM .exact fanType pwms (curve .exact cfg t) =
          sendNumber pwms (sentNumber .exact (curve .exact cfg t) fanType) fanType) ∧
        (∀ s t, s ≤ t → sentNumber .exact (curve .exact cfg s) fanType ≤
          sentNumber .exact (curve .exact cfg t) fanType) ∧
        ∀ t, 0 ≤ sentNumber .exact (curve .exact cfg t) fanType ∧
          sentNumber .exact (curve .exact cfg t) fanType ≤ topNumber fanType := by
  have hpercent : ∀ t, 0 ≤ curve .exact cfg t ∧ curve .exact cfg t ≤ 100 := by
    intro t
    have h := curve_range hv t
    exact ⟨hv.pwm_nonneg.trans h.1, h.2.trans hv.pwm_le⟩
  refine ⟨fun s t h => curve_mono hv h, curve_range hv, fun fanType => ⟨?_, ?_, ?_⟩⟩
  · intro t pwms
    exact setMiconPWM_eq (hpercent t).1 (hpercent t).2 fanType pwms
  · intro s t h
    exact sentNumber_mono (hpercent s).1 (curve_mono hv h) fanType
  · intro t
    exact sentNumber_range (hpercent t).1 (hpercent t).2 fanType

theorem curve_sound_default :
    curve .exact .default 30 ≤ curve .exact .default 40 ∧
      sentNumber .exact (curve .exact .default 44) .miconv2 ≤ 3 := by
  obtain ⟨hmono, -, hsent⟩ := curve_sound .default Config.valid_default
  exact ⟨hmono 30 40 (by decide), ((hsent .miconv2).2.2 44).2⟩

end BuffaloNas.Fan
