import BuffaloNas.It87.Started

/-! What storing in the attributes of a channel does, for the texts that are accepted. -/
namespace BuffaloNas.It87
open Interaction Program SuperIo World

namespace It87Chip

variable {c : It87Chip} {nr : ℕ} {buf : List Char} {val : ℤ} {w : World}

/-! ### Modes -/

theorem run_storeCtrl (ctrl : Byte) (w : World) :
    (c.storeCtrl nr ctrl).run device w = (.ok (),
      (w.assign fun d => { d with pwmCtrl := Function.update d.pwmCtrl nr ctrl }).write
        (c.regPwm nr) ctrl) := by
  simp [storeCtrl]

/-- The text is a mode, and one that the trip points allow. -/
def enables (c : It87Chip) (d : It87Data) (nr : ℕ) (buf : List Char) (val : ℤ) : Prop :=
  c.kstrtol buf = some val ∧ 0 ≤ val ∧ val ≤ 2 ∧ (val = 2 → 0 ≤ c.checkTripPoints d nr)

theorem run_setPwmEnable (h : c.enables w.data nr buf val) :
    (c.setPwmEnable nr buf).run device w = (.ok (buf.length : ℤ),
      ((if val = 0 then if nr < 3 ∧ c.has .fanctlOnoff then setOnOff nr else c.setFullSpeed nr
        else c.setMode nr val).run device w).2) := by
  obtain ⟨hval, hlow, hhigh, htrip⟩ := h
  have hrange : ¬ (val < 0 ∨ 2 < val) := by omega
  have hcheck : ¬ (val = 2 ∧ c.checkTripPoints w.data nr < 0) := fun hc => by
    have := htrip hc.1
    omega
  have honOff : ∀ w, (setOnOff nr).run device w = (.ok (), ((setOnOff nr).run device w).2) :=
    fun w => by simp [setOnOff]
  have hfull : ∀ w, (c.setFullSpeed nr).run device w =
      (.ok (), ((c.setFullSpeed nr).run device w).2) := fun w => by
    simp [setFullSpeed, run_storeCtrl]
  have hmode : ∀ w, (c.setMode nr val).run device w =
      (.ok (), ((c.setMode nr val).run device w).2) := fun w => by
    simp only [setMode, run_bind, run_getData, andThen_ok, run_storeCtrl]
    split <;> simp
  simp only [setPwmEnable, hval, if_neg hrange, run_bind, run_getData, andThen_ok, if_neg hcheck,
    run_mutexLock]
  by_cases h0 : val = 0
  · simp only [h0, if_true]
    split
    · rw [run_bind, honOff, andThen_ok]
      simp
    · rw [run_bind, hfull, andThen_ok]
      simp
  · simp only [h0, if_false]
    rw [run_bind, hmode, andThen_ok]
    simp

/-- Other texts are refused. -/
theorem run_setPwmEnable_refused (h : ¬ ∃ val, c.enables w.data nr buf val) :
    (c.setPwmEnable nr buf).run device w = (.ok (-einval), w) := by
  unfold setPwmEnable
  cases hval : c.kstrtol buf with
  | none => rfl
  | some val =>
    by_cases hrange : val < 0 ∨ 2 < val
    · simp [hrange]
    · have hcheck : val = 2 ∧ c.checkTripPoints w.data nr < 0 := by
        by_contra hne
        exact h ⟨val, hval, by omega, by omega, fun h2 => by omega⟩
      simp only [if_neg hrange, run_bind, run_getData, andThen_ok, if_pos hcheck, run_pure]

theorem enables_of_accepts {i : Fin 6} (h : c.accepts w (.pwmEnable i) buf = true) :
    c.mode (.pwmEnable i) = .writable ∧ ∃ val, c.enables w.data i buf val := by
  by_cases hm : c.mode (.pwmEnable i) = .writable
  · refine ⟨hm, ?_⟩
    by_contra hne
    rw [accepts, c.attempt_eq hm rfl, run_setPwmEnable_refused hne] at h
    simp [einval] at h
  · rw [accepts, c.attempt_of_mode hm] at h
    simp [eacces] at h

/-! ### Duty cycles and mappings -/

/-- What a text stands for, when it stands for nothing in the range. -/
theorem out_of_range {parsed : Option ℤ} {lo hi : ℤ}
    (h : ¬ ∃ val, parsed = some val ∧ lo ≤ val ∧ val ≤ hi) (hval : parsed = some val) :
    val < lo ∨ hi < val := by
  by_contra hr
  exact h ⟨val, hval, by omega⟩

theorem run_setPwm (hval : c.kstrtol buf = some val) (hrange : 0 ≤ val ∧ val ≤ 255) :
    ((c.setPwm nr buf).run device w).2 =
      let t := w.assign (c.readChannel w.regs nr)
      if c.has .newerAutopwm ∧ (t.data.pwmCtrl nr).getLsbD 7 then t
      else ((c.setDuty nr val).run device t).2 := by
  have hr : ¬ (val < 0 ∨ 255 < val) := by omega
  simp only [setPwm, hval, if_neg hr, run_bind, run_mutexLock, andThen_ok, run_updatePwmCtrl,
    run_getData]
  split
  · simp
  · have hduty : ∀ t, (c.setDuty nr val).run device t =
        (.ok (), ((c.setDuty nr val).run device t).2) := fun t => by
        simp only [setDuty, run_bind, run_assign, andThen_ok]
        split
        · simp
        · simp only [run_bind, run_getData, andThen_ok]
          split <;> simp [run_storeCtrl]
    rw [run_bind, hduty, andThen_ok]
    simp

theorem run_setPwm_refused (h : ¬ ∃ val, c.kstrtol buf = some val ∧ 0 ≤ val ∧ val ≤ 255) :
    (c.setPwm nr buf).run device w = (.ok (-einval), w) := by
  unfold setPwm
  cases hval : c.kstrtol buf with
  | none => rfl
  | some val => simp [out_of_range h hval]

/-- The mapping that a text stands for. -/
def mappingIn (c : It87Chip) (nr : ℕ) (buf : List Char) : Option Byte :=
  (c.kstrtol buf).bind (mappingOf nr)

theorem run_setPwmTempMap {m : Byte} (h : c.mappingIn nr buf = some m) :
    (c.setPwmTempMap nr buf).run device w = (.ok (buf.length : ℤ),
      let t := (w.assign (c.readChannel w.regs nr)).assign fun d =>
        { d with pwmTempMap := Function.update d.pwmTempMap nr m }
      if (t.data.pwmCtrl nr).getLsbD 7 then
        ((c.storeCtrl nr (t.data.pwmCtrl nr &&& 0xfc ||| m)).run device t).2
      else t) := by
  have hm : (c.kstrtol buf).bind (mappingOf nr) = some m := h
  simp only [setPwmTempMap, hm, run_bind, run_mutexLock, andThen_ok, run_updatePwmCtrl, run_assign,
    run_getData]
  split <;> simp [run_storeCtrl]

theorem run_setPwmTempMap_refused (h : c.mappingIn nr buf = none) :
    (c.setPwmTempMap nr buf).run device w = (.ok (-einval), w) := by
  have hm : (c.kstrtol buf).bind (mappingOf nr) = none := h
  simp [setPwmTempMap, hm]

theorem mappingIn_of_accepts {i : Fin 6} (h : c.accepts w (.pwmAutoChannelsTemp i) buf = true) :
    c.mode (.pwmAutoChannelsTemp i) = .writable ∧ ∃ m, c.mappingIn i buf = some m := by
  by_cases hm : c.mode (.pwmAutoChannelsTemp i) = .writable
  · refine ⟨hm, ?_⟩
    cases hmap : c.mappingIn i buf with
    | none =>
      rw [accepts, c.attempt_eq hm rfl, run_setPwmTempMap_refused hmap] at h
      simp [einval] at h
    | some m => exact ⟨m, rfl⟩
  · rw [accepts, c.attempt_of_mode hm] at h
    simp [eacces] at h

/-! ### Trip points -/

theorem run_setAutoPwm {point : ℕ} (hval : c.kstrtol buf = some val)
    (hrange : 0 ≤ val ∧ val ≤ 255) :
    (c.setAutoPwm nr point buf).run device w = (.ok (buf.length : ℤ),
      (w.assign fun d => { d with autoPwm := put d.autoPwm nr point (c.pwmToReg val) }).write
        (if c.has .newerAutopwm then regAutoTemp nr 3 else regAutoPwm nr point)
        (c.pwmToReg val)) := by
  have hr : ¬ (val < 0 ∨ 255 < val) := by omega
  simp [setAutoPwm, hval, hr]

theorem run_setAutoPwm_refused {point : ℕ}
    (h : ¬ ∃ val, c.kstrtol buf = some val ∧ 0 ≤ val ∧ val ≤ 255) :
    (c.setAutoPwm nr point buf).run device w = (.ok (-einval), w) := by
  unfold setAutoPwm
  cases hval : c.kstrtol buf with
  | none => rfl
  | some val => simp [out_of_range h hval]

/-- The slope of a channel; bit 7 of its register is the cache's. -/
def slopeReg (d : It87Data) (nr val : ℕ) : Byte := d.autoPwm nr 1 &&& 0x80 ||| BitVec.ofNat 8 val

theorem run_setAutoPwmSlope {val : ℕ} (hval : c.kstrtoul buf = some val) (hrange : val ≤ 127) :
    (c.setAutoPwmSlope nr buf).run device w = (.ok (buf.length : ℤ),
      (w.assign fun d => { d with autoPwm := put d.autoPwm nr 1 (slopeReg w.data nr val) }).write
        (regAutoTemp nr 4) (slopeReg w.data nr val)) := by
  have hr : ¬ 127 < val := by omega
  simp [setAutoPwmSlope, hval, hr, slopeReg]

theorem run_setAutoPwmSlope_refused (h : ¬ ∃ val, c.kstrtoul buf = some val ∧ val ≤ 127) :
    (c.setAutoPwmSlope nr buf).run device w = (.ok (-einval), w) := by
  unfold setAutoPwmSlope
  cases hval : c.kstrtoul buf with
  | none => rfl
  | some val =>
    have hr : 127 < val := Nat.lt_of_not_le fun hle => h ⟨val, hval, hle⟩
    simp [hr]

/-- The contents of the register of a trip point or a hysteresis. -/
def autoTempValue (c : It87Chip) (d : It87Data) (nr point : ℕ) (val : ℤ) : Byte :=
  if c.has .newerAutopwm ∧ point = 0 then c.hystReg d nr val else BitVec.ofInt 8 (c.tempToReg val)

/-- The register of a trip point or a hysteresis. -/
def autoTempTarget (c : It87Chip) (nr point : ℕ) : Word :=
  regAutoTemp nr (if c.has .newerAutopwm then if point = 0 then 5 else point - 1 else point)

theorem run_setAutoTemp {point : ℕ} (hval : c.kstrtol buf = some val)
    (hrange : -128000 ≤ val ∧ val ≤ 127000) :
    (c.setAutoTemp nr point buf).run device w = (.ok (buf.length : ℤ),
      (w.assign fun d =>
        { d with autoTemp := put d.autoTemp nr point (c.autoTempValue w.data nr point val) }).write
        (c.autoTempTarget nr point) (c.autoTempValue w.data nr point val)) := by
  have hr : ¬ (val < -128000 ∨ 127000 < val) := by omega
  simp only [setAutoTemp, hval, if_neg hr, run_bind, run_mutexLock, andThen_ok, autoTempValue,
    autoTempTarget]
  by_cases hp : c.has .newerAutopwm ∧ point = 0
  · simp [hp]
  · cases hn : c.has .newerAutopwm
    · simp
    · have h0 : point ≠ 0 := fun h0 => hp ⟨hn, h0⟩
      simp [h0]

theorem run_setAutoTemp_refused {point : ℕ}
    (h : ¬ ∃ val, c.kstrtol buf = some val ∧ -128000 ≤ val ∧ val ≤ 127000) :
    (c.setAutoTemp nr point buf).run device w = (.ok (-einval), w) := by
  unfold setAutoTemp
  cases hval : c.kstrtol buf with
  | none => rfl
  | some val => simp [out_of_range h hval]

end It87Chip

end BuffaloNas.It87
