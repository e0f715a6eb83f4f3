import BuffaloNas.It87.Effects
import BuffaloNas.Interaction.History

/-! The trip points of a channel in its registers, and the same points in a valid cache. -/
namespace BuffaloNas.It87
open Interaction Program SuperIo World

/-! ### The registers of trip points -/

/-- The chips with the old automatic mode switch fans on and off. -/
theorem features_old (type : Chips) (revision : Byte)
    (h : (features type revision).contains .oldAutopwm = true) :
    (features type revision).contains .newerAutopwm = false ∧
      (features type revision).contains .fanctlOnoff = true := by
  cases type
  case it87 =>
    unfold features at h ⊢
    by_cases hr : revision ≥ 0x03
    · simp only [if_pos hr] at h
      exact absurd h (by decide)
    · simp only [if_neg hr]
      decide
  case it8712 =>
    unfold features at h ⊢
    by_cases hr : revision ≥ 0x08
    · simp only [if_pos hr] at h
      exact absurd h (by decide)
    · simp only [if_neg hr]
      decide
  all_goals exact absurd h Bool.false_ne_true

namespace It87Chip

variable {c : It87Chip} {w : World} {buf : List Char} {a : Attribute} {nr point : ℕ} {reg : Word}

theorem onOff_of_old (h : c.has .oldAutopwm = true) :
    c.has .newerAutopwm = false ∧ c.has .fanctlOnoff = true := features_old c.type c.revision h

/-- Where a trip point is, among the registers of its channel. -/
def pointOffset (c : It87Chip) (point : ℕ) : ℕ :=
  if c.has .oldAutopwm then point else if point = 0 then 5 else point - 1

theorem pointOffset_inj {p q : ℕ} (hp : p < 4) (hq : q < 4)
    (h : c.pointOffset p = c.pointOffset q) : p = q := by
  unfold pointOffset at h
  split at h
  · exact h
  · split at h <;> split at h <;> omega

theorem autoTempReg_some (hp : point < 4) (h : c.autoTempReg nr point = some reg) :
    reg = regAutoTemp nr (c.pointOffset point) ∧ c.pointOffset point < 6 ∧
      c.pointOffset point ≠ 4 ∧ (c.pointOffset point = 3 → c.has .oldAutopwm = true) ∧
      (c.pointOffset point = 5 → c.has .oldAutopwm = false) := by
  have h5 : point < 5 := by omega
  unfold autoTempReg at h
  unfold pointOffset
  cases ho : c.has .oldAutopwm
  · cases hn : c.has .newerAutopwm
    · simp [ho, hn] at h
    · by_cases h0 : point = 0
      · simp [ho, hn, h0] at h
        simp [h0, h]
      · simp [ho, hn, h0, hp] at h
        simp only [h0, Bool.false_eq_true, if_false]
        exact ⟨h.symm, by omega, by omega, fun h3 => by omega, fun _ => trivial⟩
  · simp [ho, h5] at h
    simp only [if_true]
    exact ⟨h.symm, by omega, by omega, fun _ => trivial, fun h5 => by omega⟩

/-- The registers of a channel's trip points keep their contents, and the cached points are as they
were or as in the registers. -/
def PointsKept (c : It87Chip) (nr : ℕ) (w t : World) : Prop :=
  ∀ point < 4, (∀ reg, c.autoTempReg nr point = some reg → t.regs reg = w.regs reg) ∧
    (t.data.autoTemp nr point = w.data.autoTemp nr point ∨
      ∃ reg, c.autoTempReg nr point = some reg ∧ t.data.autoTemp nr point = w.regs reg)

theorem PointsKept.refl (c : It87Chip) (nr : ℕ) (w : World) : c.PointsKept nr w w :=
  fun _ _ => ⟨fun _ _ => rfl, .inl rfl⟩

/-- Data that is not the trip points', and a register that is none of theirs. -/
theorem PointsKept.write {t : World} (h : c.PointsKept nr w t) {f : It87Data → It87Data}
    (hf : ∀ d, ∀ point < 4, (f d).autoTemp nr point = d.autoTemp nr point) {r : Word}
    (hr : ∀ point < 4, c.autoTempReg nr point ≠ some r) (v : Byte) :
    c.PointsKept nr w ((t.assign f).write r v) := by
  intro point hp
  obtain ⟨hregs, hdata⟩ := h point hp
  refine ⟨fun reg hreg => ?_, ?_⟩
  · have hne : reg ≠ r := by
      rintro rfl
      exact hr point hp hreg
    exact (Function.update_of_ne hne v t.regs).trans (hregs reg hreg)
  · rw [data_write, data_assign, hf _ point hp]
    exact hdata

/-- Reading the channel again. -/
theorem pointsKept_readChannel (nr : ℕ) (w : World) :
    c.PointsKept nr w (w.assign (c.readChannel w.regs nr)) := by
  intro point hp
  refine ⟨fun _ _ => rfl, ?_⟩
  rw [data_assign, readChannel_autoTemp, Function.update_self]
  cases hreg : c.autoTempReg nr point with
  | none => exact .inl (by simp [channelRead, hreg, It87Data.channel])
  | some reg => exact .inr ⟨reg, rfl, by simp [channelRead, hreg]⟩

/-- The other registers of the automatic control. -/
theorem autoTempReg_ne (hnr : nr < 6) {i : ℕ} (hi : 3 ≤ i ∧ i < 8)
    (h3 : i = 3 → c.has .oldAutopwm = false) (h5 : i = 5 → c.has .oldAutopwm = true) :
    ∀ point < 4, c.autoTempReg nr point ≠ some (regAutoTemp nr i) := by
  intro point hp hreg
  obtain ⟨heq, hlt, hne4, hold, hnewer⟩ := autoTempReg_some hp hreg
  have hne : c.pointOffset point ≠ i := by
    intro he
    by_cases hi3 : i = 3
    · have := hold (he.trans hi3)
      rw [h3 hi3] at this
      cases this
    · by_cases hi5 : i = 5
      · have := hnewer (he.trans hi5)
        rw [h5 hi5] at this
        cases this
      · omega
  exact hne (regAutoTemp_inj hnr hnr (by omega) hi.2 heq.symm).2

/-- Different points have different registers. -/
theorem autoTempReg_inj {nr nr' p q : ℕ} {reg : Word} (hnr : nr < 6) (hnr' : nr' < 6) (hp : p < 4)
    (hq : q < 4) (h : c.autoTempReg nr p = some reg) (h' : c.autoTempReg nr' q = some reg) :
    nr = nr' ∧ p = q := by
  obtain ⟨heq, hlt, -⟩ := autoTempReg_some hp h
  obtain ⟨heq', hlt', -⟩ := autoTempReg_some hq h'
  obtain ⟨hnr, ho⟩ := regAutoTemp_inj hnr hnr' (by omega) (by omega) (heq.symm.trans heq')
  exact ⟨hnr, pointOffset_inj hp hq ho⟩

theorem autoTempReg_ne_others (hnr : nr < 6) {r : Word}
    (hr : r ∈ [regConfig, regFanCtl, regFanMainCtrl, c.regPwm nr]) :
    ∀ point < 4, c.autoTempReg nr point ≠ some r := by
  intro point hp hreg
  obtain ⟨rfl, hlt, -⟩ := autoTempReg_some hp hreg
  exact (autoTemp_apart c.type hnr hlt).2.1 hr

/-! ### What stores leave of the trip points -/

theorem pointsKept_setPwmEnable (hnr : nr < 6) (hthree : c.has .oldAutopwm = true → nr < 3)
    (w : World) : c.PointsKept nr w ((c.setPwmEnable nr buf).run device w).2 := by
  have hothers : ∀ {r : Word}, r ∈ [regConfig, regFanCtl, regFanMainCtrl, c.regPwm nr] →
      ∀ point < 4, c.autoTempReg nr point ≠ some r := autoTempReg_ne_others hnr
  have hctrl : ∀ ctrl t, c.PointsKept nr w t →
      c.PointsKept nr w ((c.storeCtrl nr ctrl).run device t).2 := fun ctrl t ht => by
    rw [run_storeCtrl]
    exact ht.write (fun _ _ _ => rfl) (hothers (by simp)) ctrl
  by_cases h : ∃ val, c.enables w.data nr buf val
  case neg =>
    rw [run_setPwmEnable_refused h]
    exact .refl c nr w
  obtain ⟨val, hval⟩ := h
  rw [run_setPwmEnable hval]
  split
  · split
    case isTrue =>
      simp only [setOnOff, run_bind, run_readValue, andThen_ok, run_writeValue, run_getData,
        run_assign]
      refine PointsKept.write ?_ (fun _ _ _ => rfl) (hothers (by simp)) _
      exact PointsKept.write (f := id) (.refl c nr w) (fun _ _ _ => rfl) (hothers (by simp)) _
    case isFalse honOff =>
      have hold : c.has .oldAutopwm = false := by
        by_contra ho
        have ho : c.has .oldAutopwm = true := by simpa using ho
        exact honOff ⟨hthree ho, (onOff_of_old ho).2⟩
      simp only [setFullSpeed, run_bind, run_assign, andThen_ok, run_writeValue, run_getData]
      refine hctrl _ _ (PointsKept.write (.refl c nr w) (fun _ _ _ => rfl) ?_ _)
      rw [(regs_autoTemp hnr).1]
      exact autoTempReg_ne hnr (by omega) (fun _ => hold) fun h5 => by cases h5
  · simp only [setMode, run_bind, run_getData, andThen_ok]
    have hstore := hctrl (c.modeCtrl w.data nr val) w (.refl c nr w)
    rw [run_storeCtrl] at hstore ⊢
    simp only [andThen_ok]
    split
    · simp only [run_bind, run_assign, andThen_ok, run_writeValue]
      exact hstore.write (fun _ _ _ => rfl) (hothers (by simp)) _
    · exact hstore

theorem pointsKept_setPwm (hnr : nr < 6) (w : World) :
    c.PointsKept nr w ((c.setPwm nr buf).run device w).2 := by
  by_cases h : ∃ val, c.kstrtol buf = some val ∧ 0 ≤ val ∧ val ≤ 255
  case neg =>
    rw [run_setPwm_refused h]
    exact .refl c nr w
  obtain ⟨val, hval, hrange⟩ := h
  have hread : c.PointsKept nr w (w.assign (c.readChannel w.regs nr)) :=
    pointsKept_readChannel nr w
  rw [run_setPwm hval hrange]
  dsimp only
  split
  · exact hread
  · simp only [setDuty, run_bind, run_assign, andThen_ok]
    split
    case isTrue hn =>
      have hold : c.has .oldAutopwm = false := by
        by_contra ho
        rw [(onOff_of_old (by simpa using ho)).1] at hn
        cases hn
      refine hread.write (fun _ _ _ => rfl) ?_ _
      rw [(regs_autoTemp hnr).1]
      exact autoTempReg_ne hnr (by omega) (fun _ => hold) fun h5 => by cases h5
    case isFalse =>
      simp only [run_bind, run_getData, andThen_ok]
      split
      · rw [run_storeCtrl, assign_assign, assign_assign]
        exact hread.write (fun _ _ _ => rfl) (autoTempReg_ne_others hnr (by simp)) _
      · exact hread

theorem pointsKept_setPwmTempMap (hnr : nr < 6) (w : World) :
    c.PointsKept nr w ((c.setPwmTempMap nr buf).run device w).2 := by
  have hread : c.PointsKept nr w (w.assign (c.readChannel w.regs nr)) :=
    pointsKept_readChannel nr w
  cases hm : c.mappingIn nr buf with
  | none =>
    rw [run_setPwmTempMap_refused hm]
    exact .refl c nr w
  | some m =>
    rw [run_setPwmTempMap hm]
    dsimp only
    split
    · rw [run_storeCtrl]
      exact PointsKept.write hread (fun _ _ _ => rfl) (autoTempReg_ne_others hnr (by simp)) _
    · exact hread

theorem pointsKept_setAutoPwm {k : ℕ}
    (hreg : ∀ point < 4, c.autoTempReg nr point ≠
      some (if c.has .newerAutopwm then regAutoTemp nr 3 else regAutoPwm nr k)) (w : World) :
    c.PointsKept nr w ((c.setAutoPwm nr k buf).run device w).2 := by
  by_cases h : ∃ val, c.kstrtol buf = some val ∧ 0 ≤ val ∧ val ≤ 255
  · obtain ⟨val, hval, hrange⟩ := h
    rw [run_setAutoPwm hval hrange]
    exact PointsKept.write (.refl c nr w) (fun _ _ _ => rfl) hreg _
  · rw [run_setAutoPwm_refused h]
    exact .refl c nr w

theorem pointsKept_setAutoPwmSlope (hnr : nr < 6) (w : World) :
    c.PointsKept nr w ((c.setAutoPwmSlope nr buf).run device w).2 := by
  by_cases h : ∃ val, c.kstrtoul buf = some val ∧ val ≤ 127
  · obtain ⟨val, hval, hrange⟩ := h
    rw [run_setAutoPwmSlope hval hrange]
    exact PointsKept.write (.refl c nr w) (fun _ _ _ => rfl) (autoTempReg_ne hnr (by omega)
      (fun h3 => by cases h3) fun h5 => by cases h5) _
  · rw [run_setAutoPwmSlope_refused h]
    exact .refl c nr w

/-- The fourth point of the old automatic mode is none of those that channels share. -/
theorem pointsKept_setAutoTemp4 (hnr : nr < 6) (hn : c.has .newerAutopwm = false) (w : World) :
    c.PointsKept nr w ((c.setAutoTemp nr 4 buf).run device w).2 := by
  by_cases h : ∃ val, c.kstrtol buf = some val ∧ -128000 ≤ val ∧ val ≤ 127000
  · obtain ⟨val, hval, hrange⟩ := h
    have htarget : c.autoTempTarget nr 4 = regAutoTemp nr 4 := by simp [autoTempTarget, hn]
    rw [run_setAutoTemp hval hrange, htarget]
    refine PointsKept.write (.refl c nr w) (fun d point hp => ?_) ?_ _
    · have h4 : point ≠ 4 := by omega
      exact (congrFun (put_row d.autoTemp nr 4 _) point).trans (Function.update_of_ne h4 _ _)
    · exact autoTempReg_ne hnr (by omega) (fun h3 => by cases h3) fun h5 => by cases h5
  · rw [run_setAutoTemp_refused h]
    exact .refl c nr w

end It87Chip

/-- The channel in whose name an attribute of fan control is. -/
def Attribute.owner : Attribute → Option ℕ
  | .pwmEnable i | .pwm i | .pwmFreq i | .pwmAutoChannelsTemp i | .pwmAutoStart i
  | .pwmAutoSlope i | .pwmAutoPointTemp i _ | .pwmAutoPoint1TempHyst i => some i
  | .pwmAutoPointPwm i _ | .pwmAutoPoint4Temp i => some i
  | _ => none

/-- The temperature of one of the points that several channels share, or its hysteresis. -/
def Attribute.isPoint : Attribute → Bool
  | .pwmAutoPointTemp _ _ | .pwmAutoPoint1TempHyst _ => true
  | _ => false

/-- Which of the points it is, with the hysteresis as the first. -/
def Attribute.point : Attribute → ℕ
  | .pwmAutoPointTemp _ k => k + 1
  | _ => 0

namespace It87Chip

variable {c : It87Chip} {w : World} {buf : List Char} {a : Attribute} {nr : ℕ}

/-- The attributes of a channel that is not enabled are hidden. -/
theorem mode_of_disabled (h : a.owner = some nr) (hoff : c.hasPwm.getLsbD nr = false) :
    c.mode a = .hidden := by
  cases a
  all_goals
    first
    | cases h
      simp only [mode, shownIf, hoff]
      simp
    | cases h

theorem hasPwm_of_writable (h : a.owner = some nr) (hm : c.mode a = .writable) :
    c.hasPwm.getLsbD nr = true := by
  rw [← Bool.not_eq_false]
  intro hoff
  rw [mode_of_disabled h hoff] at hm
  cases hm

/-- The first three channels have a start on newer chips, and the later ones on older chips. -/
theorem modes_of_start {i : Fin 6} (hm : c.mode (.pwmAutoStart i) = .writable) :
    (c.has .newerAutopwm = true ∧ c.has .oldAutopwm = false) ∨
      (3 ≤ i.val ∧ c.has .newerAutopwm = false ∧ c.has .oldAutopwm = true) := by
  simp only [mode, shownIf, hasAutopwm] at hm
  by_cases hi : i.val < 3
  · grind
  · grind

theorem old_of_pointPwm {i : Fin 3} {k : Fin 4}
    (hm : c.mode (.pwmAutoPointPwm i k) = .writable) :
    c.has .newerAutopwm = false ∧ c.has .oldAutopwm = true ∧ k.val < 3 := by
  simp only [mode, shownIf, hasAutopwm] at hm
  grind

theorem old_of_point4 {i : Fin 3} (hm : c.mode (.pwmAutoPoint4Temp i) = .writable) :
    c.has .newerAutopwm = false := by
  simp only [mode, shownIf] at hm
  grind

/-- Storing in another attribute of a channel keeps its trip points. -/
theorem pointsKept_attempt (hnr : nr < 6) (hthree : c.has .oldAutopwm = true → nr < 3)
    (ha : a.channel = some nr) (hp : a.isPoint = false) (buf : List Char) (w : World) :
    c.PointsKept nr w ((c.attempt a buf).run device w).2 := by
  by_cases hm : c.mode a = .writable
  case neg =>
    rw [c.attempt_of_mode hm]
    exact .refl c nr w
  cases a
  case pwmEnable i =>
    cases ha
    rw [c.attempt_eq hm rfl]
    exact pointsKept_setPwmEnable hnr hthree w
  case pwm i =>
    cases ha
    rw [c.attempt_eq hm rfl]
    exact pointsKept_setPwm i.isLt w
  case pwmAutoChannelsTemp i =>
    cases ha
    rw [c.attempt_eq hm rfl]
    exact pointsKept_setPwmTempMap i.isLt w
  case pwmAutoStart i =>
    cases ha
    obtain ⟨hn, ho⟩ := (modes_of_start hm).resolve_right fun hr => by
      have := hthree hr.2.2
      omega
    rw [c.attempt_eq hm rfl]
    refine pointsKept_setAutoPwm ?_ w
    rw [if_pos hn]
    exact autoTempReg_ne i.isLt (by omega) (fun _ => ho) fun h5 => by cases h5
  case pwmAutoSlope i =>
    cases ha
    rw [c.attempt_eq hm rfl]
    exact pointsKept_setAutoPwmSlope i.isLt w
  case pwmAutoPointPwm i k =>
    cases ha
    obtain ⟨hn, ho, hk⟩ := old_of_pointPwm hm
    rw [c.attempt_eq hm (if_pos hk)]
    refine pointsKept_setAutoPwm ?_ w
    rw [hn, if_neg Bool.false_ne_true, (regs_autoTemp (by omega)).2 k hk]
    exact autoTempReg_ne (by omega) (by omega) (fun h3 => by omega) fun _ => ho
  case pwmAutoPoint4Temp i =>
    cases ha
    rw [c.attempt_eq hm rfl]
    exact pointsKept_setAutoTemp4 (by omega) (old_of_point4 hm) w
  case pwmAutoPointTemp i k => cases hp
  case pwmAutoPoint1TempHyst i => cases hp
  all_goals cases ha

end It87Chip

end BuffaloNas.It87
