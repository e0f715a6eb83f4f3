import BuffaloNas.It87.Handover
import BuffaloNas.It87.Saturation

/-! Texts that are shown, and stored again as they are. -/
namespace BuffaloNas.It87
open Interaction Program SuperIo World

/-- The limits, mappings and trip points that are shown in the units in which they are stored. -/
def Attribute.isSetting : Attribute → Bool
  | .inMin _ | .inMax _ | .tempMin _ | .tempMax _ | .pwmAutoChannelsTemp _ => true
  | .pwmAutoPointTemp _ _ | .pwmAutoPoint4Temp _ | .pwmAutoPoint1TempHyst _ => true
  | .pwmAutoStart _ | .pwmAutoSlope _ => true
  | _ => false

namespace It87Chip

variable {c : It87Chip} {w : World} {a : Attribute} {nr : ℕ}

/-! ### A fresh cache -/

/-- The cache has been filled from the registers as they are, and is not too old yet. -/
structure Fresh (c : It87Chip) (w : World) : Prop where
  filled : ∃ now d, w.data = c.refreshed w.regs now d
  current : c.stale (w.clock 0) w.data = false

theorem fresh_updated (hs : c.stale (w.clock 0) w.data = true)
    (h : c.stale ((c.updated w).clock 0) (c.updated w).data = false) : c.Fresh (c.updated w) := by
  refine ⟨⟨(c.vbat w.ticked).clock 0, (c.vbat w.ticked).data, ?_⟩, h⟩
  rw [updated, if_pos hs]
  rfl

theorem updated_fresh (h : c.Fresh w) : c.updated w = w.ticked := by
  rw [updated, if_neg]
  rw [h.current]
  exact Bool.false_ne_true

/-- A channel that is enabled, in a fresh cache. -/
theorem channel_fresh (h : c.Fresh w) (hnr : nr < 6) (hpwm : c.hasPwm.getLsbD nr = true) :
    ∃ x, w.data.channel nr = c.channelRead w.regs nr x := by
  obtain ⟨now, d, hd⟩ := h.filled
  refine ⟨d.channel nr, ?_⟩
  have hrow : w.data.channel nr = rows 6 (c.channelRow w.regs) d.channel nr := by
    rw [hd]
    rfl
  rw [hrow, rows_of_lt hnr, channelRow, if_pos hpwm]

theorem known_fresh (h : c.Fresh w) (hnr : nr < 6) (hpwm : c.hasPwm.getLsbD nr = true)
    {point : ℕ} (hp : point < 4) (hauto : c.hasAutopwm = true) : c.PointKnown nr point w := by
  obtain ⟨x, hx⟩ := channel_fresh h hnr hpwm
  have hd : w.data.autoTemp nr point = (c.channelRead w.regs nr x).autoTemp point :=
    congrArg (fun y => Channel.autoTemp y point) hx
  rw [PointKnown, hd]
  simp [channelRead, autoTempReg_offset nr hp hauto]

/-! ### Shown and stored -/

/-- The text that the attribute shows is accepted when it is stored, and no register changes. -/
def RoundTrips (c : It87Chip) (w : World) (a : Attribute) : Prop :=
  ∃ text t, (c.look a).run device w = (.ok text, t) ∧ c.accepts t a text = true ∧
    (c.step t (.stored a text)).regs = w.regs

section

variable {f : It87Data → ℤ} {g : List Char → Driver ℤ}
  (h : c.Fresh w) (hm : c.mode a = .writable) (hshow : c.showOf a = c.showing f)
  (hstore : c.storeOf a = some g)

include h hm hshow

theorem look_fresh : (c.look a).run device w = (.ok (line (f w.data)), w.ticked) := by
  have hmode : c.mode a ≠ .hidden := by simp [hm]
  rw [look, if_neg hmode, hshow, run_showing, updated_fresh h]
  rfl

include hstore

variable {x : ℤ} (hx : f w.data = x)

include hx

theorem roundTrips_iff_regs {t : World}
    (hrun : (g (line x)).run device w.ticked = (.ok ((line x).length : ℤ), t)) :
    c.RoundTrips w a ↔ t.regs = w.regs := by
  have hlook := look_fresh h hm hshow
  rw [hx] at hlook
  have hstep : c.step w.ticked (.stored a (line x)) = t := by
    rw [step, c.attempt_eq hm hstore, hrun]
  constructor
  · rintro ⟨text, t', ht, -, hr⟩
    obtain ⟨rfl, rfl⟩ : line x = text ∧ w.ticked = t' := by simpa using hlook.symm.trans ht
    rw [← hr, hstep]
  · intro hr
    refine ⟨_, _, hlook, ?_, by rw [hstep, hr]⟩
    rw [accepts, c.attempt_eq hm hstore, hrun]
    simp

/-- A store that writes one register. -/
theorem roundTrips_iff_write {u : It87Data → It87Data} {reg : Word} {v : Byte}
    (hrun : (g (line x)).run device w.ticked =
      (.ok ((line x).length : ℤ), (w.ticked.assign u).write reg v)) :
    c.RoundTrips w a ↔ v = w.regs reg :=
  (roundTrips_iff_regs h hm hshow hstore hx hrun).trans Function.update_eq_self_iff

theorem not_roundTrips_of_refused {e : ℤ} (he : 0 < e)
    (hrun : (g (line x)).run device w.ticked = (.ok (-e), w.ticked)) : ¬ c.RoundTrips w a := by
  rintro ⟨text, t', ht, ha, -⟩
  have hlook := look_fresh h hm hshow
  rw [hx] at hlook
  obtain ⟨rfl, rfl⟩ : line x = text ∧ w.ticked = t' := by simpa using hlook.symm.trans ht
  rw [accepts, c.attempt_eq hm hstore, hrun] at ha
  have : 0 ≤ -e := by simpa using ha
  omega

end

/-! ### Voltages and temperatures -/

theorem inFromReg_eq (c : It87Chip) (nr : ℕ) (v : Byte) :
    c.inFromReg nr v = (v.toNat * c.adcLsb nr + 5) / 10 := by
  have hd := c.adcLsb_bounds nr
  have ht := c.longTop_cases
  have hv := v.isLt
  have hle : (v.toNat : ℤ) * c.adcLsb nr ≤ 255 * 320 :=
    Int.mul_le_mul (by omega) hd.2 (by omega) (by omega)
  have h0 : 0 ≤ (v.toNat : ℤ) * c.adcLsb nr := Int.mul_nonneg (by omega) (by omega)
  rw [inFromReg, divRoundClosest_of_nonneg h0 (by decide) (by omega)]
  rfl

/-- The text of a voltage is nearer to its register value than to any other. -/
theorem inToReg_inFromReg (nr : ℕ) (v : Byte) :
    ∃ n : ℕ, c.inFromReg nr v = n ∧ (n : ℤ) < c.longTop ∧ c.inToReg nr (c.long n) = v := by
  have hd := c.adcLsb_bounds nr
  have ht := c.longTop_cases
  have hv := v.isLt
  have hle : (v.toNat : ℤ) * c.adcLsb nr ≤ 255 * 320 :=
    Int.mul_le_mul (by omega) hd.2 (by omega) (by omega)
  have h0 : 0 ≤ (v.toNat : ℤ) * c.adcLsb nr := Int.mul_nonneg (by omega) (by omega)
  have hfrom := c.inFromReg_eq nr v
  obtain ⟨n, hn⟩ : ∃ n : ℕ, c.inFromReg nr v = n := ⟨(c.inFromReg nr v).toNat, by omega⟩
  refine ⟨n, hn, by omega, BitVec.eq_of_toNat_eq ?_⟩
  have hquot : ((n : ℤ) * 10 + c.adcLsb nr / 2) / c.adcLsb nr = v.toNat := by
    have hlow : (v.toNat : ℤ) ≤ ((n : ℤ) * 10 + c.adcLsb nr / 2) / c.adcLsb nr := by
      rw [Int.le_ediv_iff_mul_le (by omega)]
      omega
    have hhigh : ((n : ℤ) * 10 + c.adcLsb nr / 2) / c.adcLsb nr < v.toNat + 1 := by
      rw [Int.ediv_lt_iff_lt_mul (by omega), add_mul]
      omega
    omega
  have hreg := inToReg_low (c := c) nr (v := n) (by omega)
  rw [hquot] at hreg
  unfold clampVal at hreg
  omega

theorem ofInt_tempToReg (v : Byte) :
    BitVec.ofInt 8 (c.tempToReg (tempFromReg v.toInt)) = v := by
  have ht := c.longTop_cases
  have hlow : -128 ≤ v.toInt := BitVec.le_toInt v
  have hhigh : v.toInt < 128 := BitVec.toInt_lt
  have heq : c.tempToReg (tempFromReg v.toInt) = v.toInt := by
    unfold tempFromReg
    rw [tempToReg_eq (by omega) (by omega)]
    unfold clampVal
    split <;> omega
  rw [heq]
  exact BitVec.ofInt_toInt

theorem kstrtol_temp (v : Byte) :
    c.kstrtol (line (tempFromReg v.toInt)) = some (tempFromReg v.toInt) ∧
      -128000 ≤ tempFromReg v.toInt ∧ tempFromReg v.toInt ≤ 127000 := by
  have ht := c.longTop_cases
  have hlow : -128 ≤ v.toInt := BitVec.le_toInt v
  have hhigh : v.toInt < 128 := BitVec.toInt_lt
  unfold tempFromReg
  exact ⟨kstrtol_line ⟨by omega, by omega⟩, by omega, by omega⟩

theorem roundTrips_in {index : ℕ} (h : c.Fresh w) (hm : c.mode a = .writable)
    (hshow : c.showOf a = c.showIn nr index) (hstore : c.storeOf a = some (c.setIn nr index))
    (hcache : w.data.ins nr index = w.regs (if index = 1 then regVinMin nr else regVinMax nr)) :
    c.RoundTrips w a := by
  obtain ⟨n, hn, hlt, hback⟩ := inToReg_inFromReg (c := c) nr (w.data.ins nr index)
  have hval : c.kstrtoul (line (c.inFromReg nr (w.data.ins nr index))) = some n := by
    rw [hn]
    exact kstrtoul_line (by omega)
  have hrun := run_setIn nr index w.ticked hval
  rw [hback] at hrun
  exact (roundTrips_iff_write h hm hshow hstore rfl hrun).mpr hcache

theorem roundTrips_temp {index : ℕ} (h : c.Fresh w) (hm : c.mode a = .writable)
    (hshow : c.showOf a = c.showTemp nr index) (hstore : c.storeOf a = some (c.setTemp nr index))
    (h3 : index ≠ 3)
    (hcache : w.data.temp nr index =
      w.regs (if index = 2 then c.regTempHigh nr else c.regTempLow nr)) : c.RoundTrips w a := by
  have hrun := run_setTemp nr index w.ticked (kstrtol_temp (c := c) (w.data.temp nr index)).1 h3
  rw [ofInt_tempToReg] at hrun
  exact (roundTrips_iff_write h hm hshow hstore rfl hrun).mpr hcache

/-! ### Trip points -/

/-- A trip point, or the hysteresis of the old automatic mode. -/
theorem roundTrips_point {point : ℕ} (h : c.Fresh w) (hm : c.mode a = .writable)
    (hshow : c.showOf a = c.showAutoTemp nr point)
    (hstore : c.storeOf a = some (c.setAutoTemp nr point))
    (hp : c.has .oldAutopwm = true ∨ point ≠ 0) :
    c.RoundTrips w a ↔ w.data.autoTemp nr point = w.regs (c.autoTempTarget nr point) := by
  have hnot : ¬ (c.has .newerAutopwm = true ∧ point = 0) := by
    rintro ⟨hn, h0⟩
    have ho := hp.resolve_right fun hne => hne h0
    rw [(onOff_of_old ho).1] at hn
    cases hn
  obtain ⟨hval, hrange⟩ := kstrtol_temp (c := c) (w.data.autoTemp nr point)
  have hrun : (c.setAutoTemp nr point (line (tempFromReg (w.data.autoTemp nr point).toInt))).run
      device w.ticked = _ := run_setAutoTemp hval hrange
  have hvalue : c.autoTempValue w.ticked.data nr point
      (tempFromReg (w.data.autoTemp nr point).toInt) = w.data.autoTemp nr point := by
    rw [autoTempValue, if_neg hnot, ofInt_tempToReg]
  rw [hvalue] at hrun
  refine roundTrips_iff_write h hm hshow hstore ?_ hrun
  rw [if_pos hp]

theorem ofInt_toNat (v : Byte) : BitVec.ofInt 8 (v.toNat : ℤ) = v := by
  rw [BitVec.ofInt_natCast, BitVec.ofNat_toNat, BitVec.setWidth_eq]

/-- The hysteresis of newer chips, as a temperature. -/
def hystTemp (d : It87Data) (nr : ℕ) : ℤ :=
  (d.autoTemp nr 1).toInt - (d.autoTemp nr 0 &&& 0x1f).toNat

theorem hystTemp_bounds (d : It87Data) (nr : ℕ) :
    -159 ≤ hystTemp d nr ∧ hystTemp d nr ≤ 127 := by
  have hlow : -128 ≤ (d.autoTemp nr 1).toInt := BitVec.le_toInt _
  have hhigh : (d.autoTemp nr 1).toInt < 128 := BitVec.toInt_lt
  have hle : (d.autoTemp nr 0 &&& 0x1f).toNat ≤ 0x1f := by
    rw [BitVec.toNat_and]
    exact Nat.and_le_right
  unfold hystTemp
  omega

theorem hystReg_hystTemp {d : It87Data} (h : -128 ≤ hystTemp d nr) :
    c.hystReg d nr (tempFromReg (hystTemp d nr)) = d.autoTemp nr 0 := by
  have hb := hystTemp_bounds d nr
  have ht := c.longTop_cases
  have hle : (d.autoTemp nr 0 &&& 0x1f).toNat ≤ 0x1f := by
    rw [BitVec.toNat_and]
    exact Nat.and_le_right
  have htemp : c.tempToReg (tempFromReg (hystTemp d nr)) = hystTemp d nr := by
    unfold tempFromReg
    rw [tempToReg_eq (by omega) (by omega)]
    unfold clampVal
    split <;> omega
  have hclamp : clampVal ((d.autoTemp nr 1).toInt - hystTemp d nr) 0 0x1f =
      (d.autoTemp nr 0 &&& 0x1f).toNat := by
    unfold hystTemp clampVal
    omega
  rw [hystReg, htemp, hclamp, ofInt_toNat, ← BitVec.and_or_distrib_left]
  have hall : (0x1f : Byte) ||| 0xe0 = BitVec.allOnes 8 := by decide
  rw [hall, BitVec.and_allOnes]

/-- The hysteresis of newer chips; where it reaches below the coldest point it is refused. -/
theorem roundTrips_hyst (h : c.Fresh w) (hm : c.mode a = .writable)
    (hshow : c.showOf a = c.showAutoTemp nr 0) (hstore : c.storeOf a = some (c.setAutoTemp nr 0))
    (hn : c.has .newerAutopwm = true) :
    c.RoundTrips w a ↔
      -128 ≤ hystTemp w.data nr ∧ w.data.autoTemp nr 0 = w.regs (c.autoTempTarget nr 0) := by
  have hb := hystTemp_bounds w.data nr
  have ht := c.longTop_cases
  have hold : ¬ (c.has .oldAutopwm = true ∨ (0 : ℕ) ≠ 0) := by
    rintro (ho | h0)
    · rw [(onOff_of_old ho).1] at hn
      cases hn
    · exact h0 rfl
  have hx : tempFromReg (if c.has .oldAutopwm = true ∨ (0 : ℕ) ≠ 0 then
      (w.data.autoTemp nr 0).toInt else hystTemp w.data nr) = tempFromReg (hystTemp w.data nr) := by
    rw [if_neg hold]
  have hval : c.kstrtol (line (tempFromReg (hystTemp w.data nr))) =
      some (tempFromReg (hystTemp w.data nr)) := by
    unfold tempFromReg
    exact kstrtol_line ⟨by omega, by omega⟩
  by_cases hlow : -128 ≤ hystTemp w.data nr
  · have hrange : -128000 ≤ tempFromReg (hystTemp w.data nr) ∧
        tempFromReg (hystTemp w.data nr) ≤ 127000 := by
      unfold tempFromReg
      omega
    have hrun : (c.setAutoTemp nr 0 (line (tempFromReg (hystTemp w.data nr)))).run device
        w.ticked = _ := run_setAutoTemp hval hrange
    have hvalue : c.autoTempValue w.ticked.data nr 0 (tempFromReg (hystTemp w.data nr)) =
        w.data.autoTemp nr 0 := by
      rw [autoTempValue, if_pos ⟨hn, rfl⟩]
      exact hystReg_hystTemp hlow
    rw [hvalue] at hrun
    rw [roundTrips_iff_write h hm hshow hstore hx hrun]
    simp [hlow]
  · have hrun : (c.setAutoTemp nr 0 (line (tempFromReg (hystTemp w.data nr)))).run device
        w.ticked = (.ok (-einval), w.ticked) := by
      refine run_setAutoTemp_refused ?_
      rintro ⟨val, hv, hrange⟩
      obtain rfl := Option.some.inj (hval.symm.trans hv)
      unfold tempFromReg at hrange
      omega
    simp only [hlow, false_and, iff_false]
    exact not_roundTrips_of_refused h hm hshow hstore hx (by decide) hrun

/-! ### Duty cycles -/

/-- A duty cycle is shown as a number from 0 to 255, and bit 7 is lost on the older chips. -/
theorem pwmToReg_pwmFromReg (v : Byte) : (0 ≤ c.pwmFromReg v ∧ c.pwmFromReg v ≤ 255) ∧
    c.pwmToReg (c.pwmFromReg v) = if c.has .newerAutopwm then v else v &&& 0x7f := by
  have hlt := v.isLt
  cases hn : c.has .newerAutopwm
  · have hbytes : ∀ n : Fin 256, ((BitVec.ofFin n &&& 0x7f : Byte).toNat <<< 1 : ℕ) ≤ 255 ∧
        BitVec.ofInt 8 ((((BitVec.ofFin n &&& 0x7f : Byte).toNat <<< 1 : ℕ) : ℤ) >>> (1 : ℕ)) =
          BitVec.ofFin n &&& 0x7f := by
      decide +kernel
    obtain ⟨hle, heq⟩ := hbytes v.toFin
    simp only [pwmFromReg, pwmToReg, hn, Bool.false_eq_true, if_false]
    exact ⟨⟨Int.natCast_nonneg _, by exact_mod_cast hle⟩, heq⟩
  · simp only [pwmFromReg, pwmToReg, hn, if_true]
    exact ⟨⟨by omega, by omega⟩, ofInt_toNat v⟩

theorem clear_iff (v : Byte) : v &&& 0x7f = v ↔ v.getLsbD 7 = false := by
  have hbytes : ∀ n : Fin 256,
      (BitVec.ofFin n &&& 0x7f : Byte) = BitVec.ofFin n ↔
        (BitVec.ofFin n : Byte).getLsbD 7 = false := by
    decide +kernel
  exact hbytes v.toFin

/-- The register that the start of a channel is read from and written to. -/
theorem start_fresh {i : Fin 6} (h : c.Fresh w) (hm : c.mode (.pwmAutoStart i) = .writable) :
    w.data.autoPwm i 0 =
      w.regs (if c.has .newerAutopwm then regAutoTemp i 3 else regAutoPwm i 0) := by
  obtain ⟨x, hx⟩ := channel_fresh h i.isLt (hasPwm_of_writable rfl hm)
  have hd := congrArg (fun y => Channel.autoPwm y 0) hx
  obtain ⟨hn, ho⟩ | ⟨-, hn, ho⟩ := modes_of_start hm
  · simpa [channelRead, autoPwmReg, ho, hn, It87Data.channel] using hd
  · simpa [channelRead, autoPwmReg, ho, hn, It87Data.channel] using hd

theorem roundTrips_start {i : Fin 6} (h : c.Fresh w) (hm : c.mode (.pwmAutoStart i) = .writable) :
    c.RoundTrips w (.pwmAutoStart i) ↔
      (c.has .oldAutopwm = true → (w.regs (regAutoPwm i 0)).getLsbD 7 = false) := by
  have ht := c.longTop_cases
  have hcache := start_fresh h hm
  obtain ⟨hrange, hback⟩ := pwmToReg_pwmFromReg (c := c) (w.data.autoPwm i 0)
  have hval : c.kstrtol (line (c.pwmFromReg (w.data.autoPwm i 0))) =
      some (c.pwmFromReg (w.data.autoPwm i 0)) := kstrtol_line ⟨by omega, by omega⟩
  have hrun : (c.setAutoPwm i 0 (line (c.pwmFromReg (w.data.autoPwm i 0)))).run device w.ticked =
      _ := run_setAutoPwm hval hrange
  rw [roundTrips_iff_write h hm rfl rfl rfl hrun, ← hcache, hback]
  obtain ⟨hn, ho⟩ | ⟨-, hn, ho⟩ := modes_of_start hm
  · simp [hn, ho]
  · rw [hn, if_neg Bool.false_ne_true] at hcache
    rw [hn, if_neg Bool.false_ne_true, ← hcache, clear_iff]
    simp [ho]

theorem roundTrips_slope {i : Fin 6} (h : c.Fresh w) (hm : c.mode (.pwmAutoSlope i) = .writable) :
    c.RoundTrips w (.pwmAutoSlope i) := by
  have ht := c.longTop_cases
  have hauto : c.has .newerAutopwm = true ∧ c.has .oldAutopwm = false := by
    simp only [mode, shownIf, hasAutopwm] at hm
    grind
  have hpwm := hasPwm_of_writable rfl hm
  obtain ⟨x, hx⟩ := channel_fresh h i.isLt hpwm
  have hcache : w.data.autoPwm i 1 = w.regs (regAutoTemp i 4) := by
    have hd := congrArg (fun y => Channel.autoPwm y 1) hx
    simpa [channelRead, autoPwmReg, hauto, It87Data.channel] using hd
  have hle : (w.data.autoPwm i 1 &&& 0x7f).toNat ≤ 0x7f := by
    rw [BitVec.toNat_and]
    exact Nat.and_le_right
  have hval : c.kstrtoul (line (w.data.autoPwm i 1 &&& 0x7f).toNat) =
      some (w.data.autoPwm i 1 &&& 0x7f).toNat := kstrtoul_line (by omega)
  have hrun : (c.setAutoPwmSlope i (line (w.data.autoPwm i 1 &&& 0x7f).toNat)).run device
      w.ticked = _ := run_setAutoPwmSlope hval hle
  have hreg : slopeReg w.ticked.data i (w.data.autoPwm i 1 &&& 0x7f).toNat =
      w.data.autoPwm i 1 := by
    have hall : (0x80 : Byte) ||| 0x7f = BitVec.allOnes 8 := by decide
    rw [slopeReg, data_ticked, BitVec.ofNat_toNat, BitVec.setWidth_eq,
      ← BitVec.and_or_distrib_left, hall, BitVec.and_allOnes]
  rw [hreg] at hrun
  exact (roundTrips_iff_write h hm rfl rfl rfl hrun).mpr hcache

/-! ### Mappings -/

/-- The sensor that the attribute shows; there is no fourth one. -/
def sensorOf (m : Byte) : ℕ := if 3 ≤ m.toNat then 0 else m.toNat

/-- The number that `pwmN_auto_channels_temp` shows. -/
def shownMapping (nr : ℕ) (m : Byte) : ℕ :=
  1 <<< if 3 ≤ nr then sensorOf m + 3 else sensorOf m

theorem sensorOf_lt (m : Byte) : sensorOf m < 3 := by
  unfold sensorOf
  split <;> omega

/-- The numbers of the later channels are shown shifted, and taken with three subtracted. -/
theorem mappingOf_shown (nr : ℕ) (m : Byte) : mappingOf nr (shownMapping nr m) =
    if nr < 3 then some (BitVec.ofNat 8 (sensorOf m)) else none := by
  have hlt := sensorOf_lt m
  unfold shownMapping mappingOf
  generalize sensorOf m = n at hlt
  by_cases hnr : nr < 3
  · have hge : ¬ 3 ≤ nr := by omega
    simp only [hnr, hge, if_true, if_false]
    interval_cases n <;> rfl
  · have hge : 3 ≤ nr := by omega
    simp only [hnr, hge, if_true, if_false]
    interval_cases n <;> rfl

theorem mappingIn_shown (c : It87Chip) (nr : ℕ) (m : Byte) :
    c.mappingIn nr (line (shownMapping nr m)) =
      if nr < 3 then some (BitVec.ofNat 8 (sensorOf m)) else none := by
  have hlt : shownMapping nr m ≤ 32 := by
    have hlt := sensorOf_lt m
    unfold shownMapping
    generalize sensorOf m = n at hlt
    split <;> interval_cases n <;> decide
  have ht := c.longTop_cases
  have hval : c.kstrtol (line (shownMapping nr m)) = some (shownMapping nr m : ℤ) :=
    kstrtol_line ⟨by omega, by omega⟩
  rw [mappingIn, hval]
  exact mappingOf_shown nr m

/-- Only the fourth sensor is not the one that is shown. -/
theorem remapped_eq_iff (ctrl : Byte) :
    ctrl &&& 0xfc ||| BitVec.ofNat 8 (sensorOf (ctrl &&& 0x03)) = ctrl ↔ ctrl &&& 0x03 ≠ 3 := by
  have hall : (0xfc : Byte) ||| 0x03 = BitVec.allOnes 8 := by decide
  by_cases h3 : ctrl &&& 0x03 = 3
  · simp only [h3, ne_eq, not_true_eq_false, iff_false]
    intro heq
    have hzero : BitVec.ofNat 8 (sensorOf 3) = 0#8 := rfl
    have hnone : ctrl &&& 0x03 = 0#8 := by
      rw [hzero, BitVec.or_zero] at heq
      rw [← heq, BitVec.and_assoc]
      exact BitVec.and_zero
    rw [hnone] at h3
    exact absurd h3 (by decide)
  · have hle : (ctrl &&& 0x03).toNat ≤ 3 := by
      rw [BitVec.toNat_and]
      exact Nat.and_le_right
    have hne : (ctrl &&& 0x03).toNat ≠ 3 := fun heq => h3 (BitVec.eq_of_toNat_eq heq)
    have hsensor : BitVec.ofNat 8 (sensorOf (ctrl &&& 0x03)) = ctrl &&& 0x03 := by
      rw [sensorOf, if_neg (by omega), BitVec.ofNat_toNat, BitVec.setWidth_eq]
    rw [hsensor, ← BitVec.and_or_distrib_left, hall, BitVec.and_allOnes]
    exact iff_of_true rfl h3

/-- A mapping is accepted on the first three channels, and in the automatic mode it is written. -/
theorem roundTrips_mapping {i : Fin 6} (h : c.Fresh w)
    (hm : c.mode (.pwmAutoChannelsTemp i) = .writable) :
    c.RoundTrips w (.pwmAutoChannelsTemp i) ↔ i.val < 3 ∧
      ¬ ((w.regs (c.regPwm i)).getLsbD 7 = true ∧ w.regs (c.regPwm i) &&& 0x03 = 3) := by
  have hx : ((1 <<< if 3 ≤ i.val then sensorOf (w.data.pwmTempMap i) + 3
      else sensorOf (w.data.pwmTempMap i) : ℕ) : ℤ) = shownMapping i (w.data.pwmTempMap i) := rfl
  have hmap := c.mappingIn_shown i (w.data.pwmTempMap i)
  by_cases hi : i.val < 3
  · rw [if_pos hi] at hmap
    have hrun := run_setPwmTempMap (w := w.ticked) hmap
    have hpwm := hasPwm_of_writable rfl hm
    rw [roundTrips_iff_regs h hm rfl rfl hx hrun]
    have hctrl : (c.readChannel w.regs i w.data).pwmCtrl i = w.regs (c.regPwm i) := by
      rw [readChannel_pwmCtrl, Function.update_self]
    simp only [data_assign, data_ticked, regs_ticked, hctrl]
    by_cases hauto : (w.regs (c.regPwm i)).getLsbD 7 = true
    · obtain ⟨x, hx⟩ := channel_fresh h i.isLt hpwm
      have hcache : w.data.pwmTempMap i = w.regs (c.regPwm i) &&& 0x03 := by
        have hd := congrArg Channel.tempMap hx
        simpa [channelRead, hauto, It87Data.channel] using hd
      rw [if_pos hauto, run_storeCtrl, hcache]
      have hiff := remapped_eq_iff (w.regs (c.regPwm i))
      simp only [hi, hauto, true_and]
      exact Function.update_eq_self_iff.trans hiff
    · rw [if_neg hauto]
      exact iff_of_true rfl ⟨hi, fun hr => hauto hr.1⟩
  · rw [if_neg hi] at hmap
    have hrun := run_setPwmTempMap_refused (w := w.ticked) hmap
    simp only [hi, false_and, iff_false]
    exact not_roundTrips_of_refused h hm rfl rfl hx (by decide) hrun

/-! ### All settings -/

theorem autoTempTarget_offset (nr : ℕ) {point : ℕ} (hp : point < 4) (hauto : c.hasAutopwm = true) :
    c.autoTempTarget nr point = regAutoTemp nr (c.pointOffset point) :=
  Option.some.inj ((autoTempReg_target nr hp hauto).symm.trans (autoTempReg_offset nr hp hauto))

/-- When a setting comes back as it was shown. The mappings of the later channels are shown in
another form, the trip points of channels that are not enabled are not read, a hysteresis can
reach below the temperatures that are taken, and the older chips have seven bits for a start. -/
def ComesBack (c : It87Chip) (w : World) : Attribute → Prop
  | .pwmAutoChannelsTemp i => i.val < 3 ∧
      ¬ ((w.regs (c.regPwm i)).getLsbD 7 = true ∧ w.regs (c.regPwm i) &&& 0x03 = 3)
  | .pwmAutoPointTemp i k => c.PointKnown (autoTempIndex i) (k + 1) w
  | .pwmAutoPoint1TempHyst i => c.PointKnown (autoTempIndex i) 0 w ∧
      (c.has .newerAutopwm = true → -128 ≤ hystTemp w.data (autoTempIndex i))
  | .pwmAutoStart i => c.has .oldAutopwm = true → (w.regs (regAutoPwm i 0)).getLsbD 7 = false
  | _ => True

/-- On a channel that is enabled, the trip points come back. -/
theorem comesBack_pointTemp (h : c.Fresh w) (i : Fin 6) (k : Fin 3)
    (hm : c.mode (.pwmAutoPointTemp i k) = .writable)
    (hpwm : c.hasPwm.getLsbD (autoTempIndex i) = true) :
    c.ComesBack w (.pwmAutoPointTemp i k) := by
  have hauto : c.hasAutopwm = true := by
    simp only [mode, shownIf] at hm
    grind
  have hidx := autoTempIndex_lt i
  exact known_fresh h (by omega) hpwm (by omega) hauto

theorem roundTrips_hysteresis {i : Fin 6} (h : c.Fresh w)
    (hm : c.mode (.pwmAutoPoint1TempHyst i) = .writable) :
    c.RoundTrips w (.pwmAutoPoint1TempHyst i) ↔ c.ComesBack w (.pwmAutoPoint1TempHyst i) := by
  have hauto : c.hasAutopwm = true := by
    simp only [mode, shownIf] at hm
    grind
  have h4 : 0 < 4 := by decide
  have htarget := autoTempTarget_offset (c := c) (autoTempIndex i) h4 hauto
  rw [ComesBack, PointKnown, ← htarget]
  cases ho : c.has .oldAutopwm
  · have hn : c.has .newerAutopwm = true := by simpa [hasAutopwm, ho] using hauto
    rw [roundTrips_hyst h hm rfl rfl hn, and_comm]
    simp [hn]
  · have hn := (onOff_of_old ho).1
    rw [roundTrips_point h hm rfl rfl (.inl ho)]
    simp [hn]

/-- A setting that is shown can be stored again, with no register changed, exactly if it is none
of those that do not come back. -/
theorem roundTrips_iff (h : c.Fresh w) (hm : c.mode a = .writable) (ha : a.isSetting = true) :
    c.RoundTrips w a ↔ c.ComesBack w a := by
  obtain ⟨now, d, hd⟩ := h.filled
  cases a
  case inMin i =>
    have hin : c.hasIn.getLsbD i = true := by
      simp only [mode, shownIf] at hm
      grind
    have hlt : i.val < 13 := by omega
    refine iff_of_true (roundTrips_in h hm rfl rfl ?_) trivial
    rw [hd]
    simp [refreshed, rows_of_lt hlt, inRow, hin]
  case inMax i =>
    have hin : c.hasIn.getLsbD i = true := by
      simp only [mode, shownIf] at hm
      grind
    have hlt : i.val < 13 := by omega
    refine iff_of_true (roundTrips_in h hm rfl rfl ?_) trivial
    rw [hd]
    simp [refreshed, rows_of_lt hlt, inRow, hin]
  case tempMin i =>
    have htemp : c.hasTemp.getLsbD i = true ∧ i.val < c.numTempLimit := by
      simp only [mode, shownIf] at hm
      grind
    refine iff_of_true (roundTrips_temp h hm rfl rfl (by decide) ?_) trivial
    rw [hd]
    simp [refreshed, rows_of_lt i.isLt, tempRow, htemp]
  case tempMax i =>
    have htemp : c.hasTemp.getLsbD i = true ∧ i.val < c.numTempLimit := by
      simp only [mode, shownIf] at hm
      grind
    refine iff_of_true (roundTrips_temp h hm rfl rfl (by decide) ?_) trivial
    rw [hd]
    simp [refreshed, rows_of_lt i.isLt, tempRow, htemp]
  case pwmAutoChannelsTemp i => exact roundTrips_mapping h hm
  case pwmAutoPointTemp i k =>
    have hauto : c.hasAutopwm = true := by
      simp only [mode, shownIf] at hm
      grind
    rw [roundTrips_point h hm rfl rfl (.inr (by omega)), ComesBack, PointKnown,
      autoTempTarget_offset (autoTempIndex i) (by omega) hauto]
  case pwmAutoPoint4Temp i =>
    have hold : c.has .oldAutopwm = true := by
      simp only [mode, shownIf, hasAutopwm] at hm
      grind
    have hpwm := hasPwm_of_writable rfl hm
    obtain ⟨x, hx⟩ := channel_fresh h (by omega) hpwm
    refine iff_of_true ((roundTrips_point h hm rfl rfl (.inl hold)).mpr ?_) trivial
    have hrow := congrArg (fun y => Channel.autoTemp y 4) hx
    simpa [channelRead, autoTempReg, autoTempTarget, hold, (onOff_of_old hold).1,
      It87Data.channel] using hrow
  case pwmAutoPoint1TempHyst i => exact roundTrips_hysteresis h hm
  case pwmAutoStart i => exact roundTrips_start h hm
  case pwmAutoSlope i => exact iff_of_true (roundTrips_slope h hm) trivial
  all_goals cases ha

/-- The cache of an IT8665E that has been filled once. -/
theorem fresh_it8665 :
    (Chips.it8665.known []).Fresh ((Chips.it8665.known []).updated (Chips.it8665.probe []).2) :=
  fresh_updated (by decide +kernel) (by decide +kernel)

theorem roundTrips_iff_it8665 :
    (Chips.it8665.known []).RoundTrips
        ((Chips.it8665.known []).updated (Chips.it8665.probe []).2) (.pwmAutoChannelsTemp 1) ↔
      (Chips.it8665.known []).ComesBack
        ((Chips.it8665.known []).updated (Chips.it8665.probe []).2) (.pwmAutoChannelsTemp 1) :=
  roundTrips_iff fresh_it8665 (by decide +kernel) rfl

/-- The fourth channel shows a mapping that it does not take. -/
theorem not_roundTrips :
    ¬ ∀ (c : It87Chip) (w : World) (a : Attribute), c.Fresh w → c.mode a = .writable →
      a.isSetting = true → c.RoundTrips w a := by
  intro h
  have hm : (Chips.it8665.known []).mode (.pwmAutoChannelsTemp 3) = .writable := by
    decide +kernel
  have hback := h _ _ (.pwmAutoChannelsTemp 3) fresh_it8665 hm rfl
  have hlt := ((roundTrips_mapping fresh_it8665 hm).mp hback).1
  exact absurd hlt (by decide)

end It87Chip

end BuffaloNas.It87
