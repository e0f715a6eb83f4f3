import BuffaloNas.It87.Channels

/-! Channels in their manual mode: how they get into it, and what their fans run at then. -/
namespace BuffaloNas.It87
open Interaction Program SuperIo World

/-! ### What goes into a control register with mode 1 -/

/-- Bit 7 of what the cache would put into the control register is clear. -/
structure Channel.Clear (newer : Bool) (x : Channel) : Prop where
  tempMap : x.tempMap.getLsbD 7 = false
  duty : newer = false → x.duty.getLsbD 7 = false

/-- Nobody stores in an attribute of a channel, and the chip changes no duty cycle. -/
def Event.Aside : Event → Prop
  | .shown _ => True
  | .stored a _ => a.channel = none
  | .measured reg _ => ∀ i : Fin 6, reg ≠ regPwmDuty i

namespace It87Chip

variable {c : It87Chip} {w : World} {buf : List Char} {a : Attribute} {nr m : ℕ} {val : ℤ}

/-- Every channel leaves its automatic mode with mode 1. -/
def Clear (c : It87Chip) (d : It87Data) : Prop :=
  ∀ nr, (d.channel nr).Clear (c.has .newerAutopwm)

theorem modeCtrl_clear {d : It87Data} (h : c.Clear d) (nr : ℕ) :
    (c.modeCtrl d nr 1).getLsbD 7 = false := by
  have hmask : ∀ x : Byte, (x &&& 0x7c).getLsbD 7 = false := by decide +kernel
  have htemp : (d.pwmTempMap nr).getLsbD 7 = false := (h nr).tempMap
  unfold modeCtrl
  cases hn : c.has .newerAutopwm
  · exact (h nr).duty hn
  · rw [if_pos rfl, if_pos rfl, cachedCtrl, BitVec.getLsbD_or, hmask, htemp]
    rfl

theorem pwmToReg_clear (hn : c.has .newerAutopwm = false) (hval : 0 ≤ val ∧ val ≤ 255) :
    (c.pwmToReg val).getLsbD 7 = false := by
  have hbits : ∀ n : Fin 256, (BitVec.ofInt 8 ((n.val : ℤ) >>> (1 : ℕ))).getLsbD 7 = false := by
    decide +kernel
  have h := hbits ⟨val.toNat, by omega⟩
  rw [Int.toNat_of_nonneg hval.1] at h
  rw [pwmToReg, hn]
  exact h

theorem clear_channelRead {x : Channel} (h : x.Clear (c.has .newerAutopwm))
    (regs : Word → Byte) (nr : ℕ) : (c.channelRead regs nr x).Clear (c.has .newerAutopwm) := by
  have hmap : ∀ x : Byte, (x &&& 0x03).getLsbD 7 = false := by decide +kernel
  have hduty : ∀ x : Byte, (x &&& 0x7f).getLsbD 7 = false := by decide +kernel
  constructor
  · simp only [channelRead]
    split
    · exact hmap _
    · exact h.tempMap
  · intro hn
    simp only [channelRead, hn, Bool.false_eq_true, if_false]
    split
    · exact h.duty hn
    · exact hduty _

theorem clear_readChannel {d : It87Data} (h : c.Clear d) (regs : Word → Byte) (nr : ℕ) :
    c.Clear (c.readChannel regs nr d) := by
  intro m
  rw [readChannel, It87Data.channel_withChannels]
  by_cases hm : m = nr
  · subst hm
    rw [Function.update_self]
    exact clear_channelRead (h m) regs m
  · rw [Function.update_of_ne hm]
    exact h m

theorem clear_refreshed {d : It87Data} (h : c.Clear d) (regs : Word → Byte) (now : ℕ) :
    c.Clear (c.refreshed regs now d) := by
  intro nr
  have hrow : (c.refreshed regs now d).channel nr = rows 6 (c.channelRow regs) d.channel nr := rfl
  rw [hrow, rows]
  split
  · rw [channelRow]
    split
    · exact clear_channelRead (h nr) regs nr
    · exact h nr
  · exact h nr

theorem clear_updated (h : c.Clear w.data) : c.Clear (c.updated w).data := by
  unfold updated
  split
  case isFalse => exact h
  case isTrue =>
    refine clear_refreshed ?_ _ _
    rw [data_vbat]
    exact h

/-! ### It is so all the time -/

/-- Data that the cache keeps elsewhere. -/
theorem clear_same {d d' : It87Data} (h : c.Clear d) (htemp : d'.pwmTempMap = d.pwmTempMap)
    (hduty : d'.pwmDuty = d.pwmDuty) : c.Clear d' := by
  intro nr
  refine ⟨?_, fun hn => ?_⟩
  · have := (h nr).tempMap
    rwa [It87Data.channel, ← htemp] at this
  · have := (h nr).duty hn
    rwa [It87Data.channel, ← hduty] at this

theorem clear_duty {d : It87Data} (h : c.Clear d) (nr : ℕ) (hval : 0 ≤ val ∧ val ≤ 255) :
    c.Clear { d with pwmDuty := Function.update d.pwmDuty nr (c.pwmToReg val) } := by
  intro m
  refine ⟨(h m).tempMap, fun hn => ?_⟩
  change (Function.update d.pwmDuty nr (c.pwmToReg val) m).getLsbD 7 = false
  by_cases hm : m = nr
  · rw [hm, Function.update_self]
    exact pwmToReg_clear hn hval
  · rw [Function.update_of_ne hm]
    exact (h m).duty hn

theorem clear_storeCtrl (h : c.Clear w.data) (nr : ℕ) (ctrl : Byte) :
    c.Clear ((c.storeCtrl nr ctrl).run device w).2.data := by
  rw [run_storeCtrl]
  exact clear_same h rfl rfl

theorem clear_setPwmEnable (h : c.Clear w.data) (nr : ℕ) :
    c.Clear ((c.setPwmEnable nr buf).run device w).2.data := by
  by_cases hen : ∃ val, c.enables w.data nr buf val
  case neg =>
    rw [run_setPwmEnable_refused hen]
    exact h
  obtain ⟨val, hval⟩ := hen
  rw [run_setPwmEnable hval]
  split
  · split
    · simp only [setOnOff, run_bind, run_readValue, andThen_ok, run_writeValue, run_getData,
        run_assign]
      exact clear_same h rfl rfl
    · simp only [setFullSpeed, run_bind, run_assign, andThen_ok, run_writeValue, run_getData]
      exact clear_storeCtrl (clear_duty h nr (by decide)) nr _
  · have hstore := clear_storeCtrl h nr (c.modeCtrl w.data nr val)
    simp only [setMode, run_bind, run_getData, andThen_ok]
    rw [run_storeCtrl] at hstore ⊢
    simp only [andThen_ok]
    split
    · simp only [run_bind, run_assign, andThen_ok, run_writeValue]
      exact clear_same hstore rfl rfl
    · exact hstore

theorem clear_setDuty (h : c.Clear w.data) (nr : ℕ) (hval : 0 ≤ val ∧ val ≤ 255) :
    c.Clear ((c.setDuty nr val).run device w).2.data := by
  have hduty := clear_duty h nr hval
  simp only [setDuty, run_bind, run_assign, andThen_ok]
  split
  · exact hduty
  · simp only [run_bind, run_getData, andThen_ok]
    split
    · exact clear_storeCtrl hduty nr _
    · exact hduty

theorem clear_setPwm (h : c.Clear w.data) (nr : ℕ) :
    c.Clear ((c.setPwm nr buf).run device w).2.data := by
  by_cases hval : ∃ val, c.kstrtol buf = some val ∧ 0 ≤ val ∧ val ≤ 255
  case neg =>
    rw [run_setPwm_refused hval]
    exact h
  obtain ⟨val, hparse, hrange⟩ := hval
  rw [run_setPwm hparse hrange]
  dsimp only
  have hread := clear_readChannel h w.regs nr
  split
  · exact hread
  · exact clear_setDuty hread nr hrange

theorem mappingIn_clear {m : Byte} (h : c.mappingIn nr buf = some m) : m.getLsbD 7 = false := by
  obtain ⟨val, -, hm⟩ := Option.bind_eq_some_iff.mp h
  unfold mappingOf at hm
  grind

theorem clear_setPwmTempMap (h : c.Clear w.data) (nr : ℕ) :
    c.Clear ((c.setPwmTempMap nr buf).run device w).2.data := by
  cases hmap : c.mappingIn nr buf with
  | none =>
    rw [run_setPwmTempMap_refused hmap]
    exact h
  | some m =>
    have hread := clear_readChannel h w.regs nr
    have hset : c.Clear { c.readChannel w.regs nr w.data with
        pwmTempMap := Function.update (c.readChannel w.regs nr w.data).pwmTempMap nr m } := by
      intro k
      refine ⟨?_, (hread k).duty⟩
      change (Function.update (c.readChannel w.regs nr w.data).pwmTempMap nr m k).getLsbD 7 = false
      by_cases hk : k = nr
      · rw [hk, Function.update_self]
        exact mappingIn_clear hmap
      · rw [Function.update_of_ne hk]
        exact (hread k).tempMap
    rw [run_setPwmTempMap hmap]
    dsimp only
    split
    · exact clear_storeCtrl hset nr _
    · exact hset

theorem clear_setAutoPwm (h : c.Clear w.data) (nr point : ℕ) :
    c.Clear ((c.setAutoPwm nr point buf).run device w).2.data := by
  by_cases hval : ∃ val, c.kstrtol buf = some val ∧ 0 ≤ val ∧ val ≤ 255
  · obtain ⟨val, hparse, hrange⟩ := hval
    rw [run_setAutoPwm hparse hrange]
    exact clear_same h rfl rfl
  · rw [run_setAutoPwm_refused hval]
    exact h

theorem clear_setAutoPwmSlope (h : c.Clear w.data) (nr : ℕ) :
    c.Clear ((c.setAutoPwmSlope nr buf).run device w).2.data := by
  by_cases hval : ∃ val, c.kstrtoul buf = some val ∧ val ≤ 127
  · obtain ⟨val, hparse, hrange⟩ := hval
    rw [run_setAutoPwmSlope hparse hrange]
    exact clear_same h rfl rfl
  · rw [run_setAutoPwmSlope_refused hval]
    exact h

theorem clear_setAutoTemp (h : c.Clear w.data) (nr point : ℕ) :
    c.Clear ((c.setAutoTemp nr point buf).run device w).2.data := by
  by_cases hval : ∃ val, c.kstrtol buf = some val ∧ -128000 ≤ val ∧ val ≤ 127000
  · obtain ⟨val, hparse, hrange⟩ := hval
    rw [run_setAutoTemp hparse hrange]
    exact clear_same h rfl rfl
  · rw [run_setAutoTemp_refused hval]
    exact h

theorem clear_attempt (h : c.Clear w.data) (a : Attribute) (buf : List Char) :
    c.Clear ((c.attempt a buf).run device w).2.data := by
  by_cases hc : a.channel = none
  · have hu := (untouched_attempt (c := c) a buf w).channel
    intro nr
    rw [hu nr (by simp [hc])]
    exact h nr
  by_cases hm : c.mode a = .writable
  case neg =>
    rw [c.attempt_of_mode hm]
    exact h
  cases a
  case pwmEnable i =>
    rw [c.attempt_eq hm rfl]
    exact clear_setPwmEnable h i
  case pwm i =>
    rw [c.attempt_eq hm rfl]
    exact clear_setPwm h i
  case pwmAutoChannelsTemp i =>
    rw [c.attempt_eq hm rfl]
    exact clear_setPwmTempMap h i
  case pwmAutoStart i =>
    rw [c.attempt_eq hm rfl]
    exact clear_setAutoPwm h i 0
  case pwmAutoSlope i =>
    rw [c.attempt_eq hm rfl]
    exact clear_setAutoPwmSlope h i
  case pwmAutoPointPwm i k =>
    by_cases hk : k.val < 3
    · rw [c.attempt_eq hm (if_pos hk)]
      exact clear_setAutoPwm h i k
    · have hs : c.storeOf (.pwmAutoPointPwm i k) = none := if_neg hk
      rw [c.attempt_of_store hs]
      exact h
  case pwmAutoPointTemp i k =>
    rw [c.attempt_eq hm rfl]
    exact clear_setAutoTemp h _ _
  case pwmAutoPoint4Temp i =>
    rw [c.attempt_eq hm rfl]
    exact clear_setAutoTemp h _ _
  case pwmAutoPoint1TempHyst i =>
    rw [c.attempt_eq hm rfl]
    exact clear_setAutoTemp h _ _
  all_goals exact absurd rfl hc

theorem clear_step (h : c.Clear w.data) (e : Event) : c.Clear (c.step w e).data := by
  cases e with
  | shown a =>
    rw [step_shown]
    split
    · exact clear_updated h
    · exact h
  | stored a buf => exact clear_attempt h a buf
  | measured r v =>
    simp only [step]
    split <;> exact h

theorem clear_probed (h : Probed c w) : c.Clear w.data := by
  obtain ⟨vrm, vid, hdata⟩ := h.started
  rw [hdata]
  intro nr
  have hmap : ∀ i < 6, (BitVec.ofNat 8 i).getLsbD 7 = false := by decide
  constructor
  · change (if nr < 6 then BitVec.ofNat 8 nr else 0).getLsbD 7 = false
    split
    case isTrue hnr => exact hmap nr hnr
    case isFalse => rfl
  · intro _
    change (if nr < 6 then (0x7f : Byte) else 0).getLsbD 7 = false
    split <;> rfl

/-! ### Manual channels -/

/-- The register of the duty cycle of a channel that is not in its automatic mode. -/
def dutyReg (c : It87Chip) (nr : ℕ) : Word :=
  if c.has .newerAutopwm then regPwmDuty nr else c.regPwm nr

/-- The channel is switched on, and not in its automatic mode. -/
structure Manual (c : It87Chip) (nr : ℕ) (regs : Word → Byte) : Prop where
  control : (regs (c.regPwm nr)).getLsbD 7 = false
  mainCtrl : c.has .fanctlOnoff = true → nr < 3 → (regs regFanMainCtrl).getLsbD nr = true

/-- A channel is as it was: its control register, its duty cycle and its switch. -/
structure SameFan (c : It87Chip) (nr : ℕ) (regs regs' : Word → Byte) : Prop where
  control : regs' (c.regPwm nr) = regs (c.regPwm nr)
  duty : regs' (c.dutyReg nr) = regs (c.dutyReg nr)
  mainCtrl : nr < 3 → (regs' regFanMainCtrl).getLsbD nr = (regs regFanMainCtrl).getLsbD nr

theorem Manual.same {regs regs' : Word → Byte} (h : c.Manual nr regs)
    (hs : c.SameFan nr regs regs') : c.Manual nr regs' := by
  constructor
  · rw [hs.control]
    exact h.control
  · intro honoff hnr
    rw [hs.mainCtrl hnr]
    exact h.mainCtrl honoff hnr

theorem SameFan.refl (c : It87Chip) (nr : ℕ) (regs : Word → Byte) : c.SameFan nr regs regs :=
  ⟨rfl, rfl, fun _ => rfl⟩

theorem SameFan.trans {regs regs' regs'' : Word → Byte} (h : c.SameFan nr regs regs')
    (h' : c.SameFan nr regs' regs'') : c.SameFan nr regs regs'' where
  control := h'.control.trans h.control
  duty := h'.duty.trans h.duty
  mainCtrl hnr := (h'.mainCtrl hnr).trans (h.mainCtrl hnr)

theorem control_mem (c : It87Chip) (nr : ℕ) : c.regPwm nr ∈ c.type.tables.channelRegs nr := by
  simp only [Tables.channelRegs, List.mem_append, List.mem_cons]
  exact .inl (.inl rfl)

theorem duty_mem (c : It87Chip) (nr : ℕ) : c.dutyReg nr ∈ c.type.tables.channelRegs nr := by
  unfold dutyReg
  split
  · simp [Tables.channelRegs]
  · exact c.control_mem nr

/-- Storing in an attribute of another channel, or of none, leaves the channel as it was. -/
theorem sameFan_attempt {i : Fin 6} (ha : a.channel ≠ some i)
    (h : w.data.fanMainCtrl = w.regs regFanMainCtrl) :
    c.SameFan i w.regs ((c.attempt a buf).run device w).2.regs := by
  refine ⟨regs_attempt (targets_apart c.type i.isLt ha (c.control_mem i)) buf w,
    regs_attempt (targets_apart c.type i.isLt ha (c.duty_mem i)) buf w, fun hi => ?_⟩
  by_cases hen : ∃ j, a = .pwmEnable j
  · obtain ⟨j, rfl⟩ := hen
    by_cases hm : c.mode (.pwmEnable j) = .writable
    · rw [c.attempt_eq hm rfl]
      refine (switched_setPwmEnable h).mainCtrl i fun _ hij => ha ?_
      exact congrArg some hij.symm
    · rw [c.attempt_of_mode hm]
      rfl
  · rw [regs_attempt (c.mainCtrl_apart.2 a fun j hj => hen ⟨j, hj⟩)]

theorem sameFan_step {e : Event} (he : e.Aside) (i : Fin 6)
    (h : w.data.fanMainCtrl = w.regs regFanMainCtrl) :
    c.SameFan i w.regs (c.step w e).regs := by
  have hconfig : ∀ reg ∈ c.type.tables.channelRegs i, reg ≠ regConfig := by
    rintro reg hreg rfl
    exact channelRegs_ne_config c.type i.isLt hreg
  have hmain : regFanMainCtrl ≠ regConfig := by decide
  cases e with
  | shown a =>
    refine ⟨regs_shown (hconfig _ (c.control_mem i)) a, regs_shown (hconfig _ (c.duty_mem i)) a,
      fun _ => ?_⟩
    rw [regs_shown hmain]
  | stored a buf =>
    refine sameFan_attempt ?_ h
    rw [show a.channel = none from he]
    exact nofun
  | measured r v =>
    have hcontrol := regs_measured (w := w) (c.regPwm_apart i).1 r v
    refine ⟨hcontrol, ?_, fun _ => by rw [regs_measured c.mainCtrl_apart.1]⟩
    unfold dutyReg
    split
    · simp only [step]
      split
      · exact Function.update_of_ne (he i).symm v w.regs
      · rfl
    · exact hcontrol

/-! ### Into the manual mode, and the duty cycle there -/

theorem kstrtol_one (c : It87Chip) : c.kstrtol "1\n".toList = some 1 := by
  have hone : "1\n".toList = Decimal.text (1 : ℕ) ++ ['\n'] := by decide
  have hbits : 1 < 2 ^ (c.longBits - 1) := by
    unfold Platform.longBits
    split <;> decide
  rw [hone]
  exact Decimal.signed_text_natCast hbits

/-- Mode 1 is accepted, and makes the channel manual. -/
theorem run_enable {i : Fin 6} (hpwm : c.hasPwm.getLsbD i = true) (hclear : c.Clear w.data) :
    ∃ t, (c.attempt (.pwmEnable i) "1\n".toList).run device w = (.ok 2, t) ∧
      c.Manual i t.regs := by
  have hm : c.mode (.pwmEnable i) = .writable := by simp [mode, shownIf, hpwm]
  have hen : c.enables w.data i "1\n".toList 1 :=
    ⟨c.kstrtol_one, by decide, by decide, fun h => absurd h (by decide)⟩
  have hmode := modeCtrl_clear hclear i
  have hbit : ∀ x : Byte, ∀ j < 3, (x ||| bitOf j).getLsbD j = true := by decide +kernel
  rw [c.attempt_eq hm rfl, run_setPwmEnable hen]
  refine ⟨_, rfl, ?_⟩
  simp only [one_ne_zero, if_false, setMode, run_bind, run_getData, andThen_ok, run_storeCtrl]
  split
  case isTrue hon =>
    simp only [run_bind, run_assign, andThen_ok, run_writeValue]
    constructor
    · rw [regs_write, Function.update_of_ne (c.regPwm_ne i).2.2.2, regs_assign, regs_write,
        Function.update_self]
      exact hmode
    · intro _ hi
      rw [regs_write, Function.update_self]
      exact hbit _ i hi
  case isFalse hoff =>
    simp only [run_pure]
    constructor
    · rw [regs_write, Function.update_self]
      exact hmode
    · intro hon hi
      exact absurd ⟨hon, hi⟩ hoff

/-- A number is accepted by a manual channel, and goes into the register of its duty cycle. -/
theorem run_store {i : Fin 6} (hpwm : c.hasPwm.getLsbD i = true) (h : c.Manual i w.regs)
    (hval : c.kstrtol buf = some val) (hrange : 0 ≤ val ∧ val ≤ 255) :
    ∃ t, (c.attempt (.pwm i) buf).run device w = (.ok (buf.length : ℤ), t) ∧
      t.regs = Function.update w.regs (c.dutyReg i) (c.pwmToReg val) := by
  have hm : c.mode (.pwm i) = .writable := by simp [mode, shownIf, hpwm]
  have hr : ¬ (val < 0 ∨ 255 < val) := by omega
  have hctrl : (c.readChannel w.regs i w.data).pwmCtrl i = w.regs (c.regPwm i) := by
    rw [readChannel_pwmCtrl, Function.update_self]
  rw [c.attempt_eq hm rfl]
  simp only [setPwm, hval, if_neg hr, run_bind, run_mutexLock, andThen_ok, run_updatePwmCtrl,
    run_getData, data_assign, hctrl, h.control, Bool.false_eq_true, and_false, if_false, setDuty,
    run_assign]
  cases hn : c.has .newerAutopwm
  · simp only [Bool.false_eq_true, if_false, run_bind, run_getData, data_assign, hctrl,
      andThen_ok, h.control, Bool.not_false, if_true, run_storeCtrl, run_mutexUnlock, run_pure]
    refine ⟨_, rfl, ?_⟩
    simp only [regs_write, regs_assign, dutyReg, hn, Bool.false_eq_true, if_false]
  · simp only [if_true, run_writeValue, andThen_ok, run_mutexUnlock, run_pure]
    refine ⟨_, rfl, ?_⟩
    simp only [regs_write, regs_assign, dutyReg, hn, if_true]

/-- No number takes the channel back to its automatic mode. -/
theorem manual_store {i : Fin 6} {regs : Word → Byte} (h : c.Manual i regs)
    (hrange : 0 ≤ val ∧ val ≤ 255) :
    c.Manual i (Function.update regs (c.dutyReg i) (c.pwmToReg val)) := by
  have hmain : ∀ i : Fin 6, regPwmDuty i ≠ regFanMainCtrl := by decide
  have hne := c.regPwm_ne i
  unfold dutyReg
  cases hn : c.has .newerAutopwm
  · simp only [Bool.false_eq_true, if_false]
    constructor
    · rw [Function.update_self]
      exact pwmToReg_clear hn hrange
    · rw [Function.update_of_ne hne.2.2.2.symm]
      exact h.mainCtrl
  · simp only [if_true]
    constructor
    · rw [Function.update_of_ne hne.2.1]
      exact h.control
    · rw [Function.update_of_ne (hmain i).symm]
      exact h.mainCtrl

end It87Chip

end BuffaloNas.It87
