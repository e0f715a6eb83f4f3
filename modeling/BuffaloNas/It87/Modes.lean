import BuffaloNas.It87.Effects
import BuffaloNas.Interaction.History

/-! The control register of a channel, and what the driver keeps of it from mode to mode. -/
namespace BuffaloNas.It87
open Interaction Program SuperIo World

/-! ### A control register and its copies -/

/-- The control register of a channel of a newer chip, and what the driver keeps of it. -/
@[ext]
structure Control where
  reg : Byte
  ctrl : Byte
  tempMap : Byte

namespace Control

inductive Action
  | keep
  | look
  | remap (m : Byte)
  | store (auto : Bool)
  deriving DecidableEq

variable (x : Control)

/-- What goes into the register with the next mode. -/
def kept : Byte := x.ctrl &&& 0x7c ||| x.tempMap

def act : Action → Control
  | .keep => x
  | .look => { reg := x.reg, ctrl := x.reg, tempMap := x.reg &&& 0x03 }
  | .remap m =>
    let reg := if x.reg.getLsbD 7 then x.reg &&& 0xfc ||| m else x.reg
    { reg, ctrl := reg, tempMap := m }
  | .store auto =>
    let reg := if auto then x.kept ||| 0x80 else x.kept
    { reg, ctrl := reg, tempMap := x.tempMap }

/-- The next mode leaves bits 2 to 6 of the register alone. -/
def Settled : Prop := x.kept &&& 0x7c = x.reg &&& 0x7c

/-- Mappings are numbers of two bits. -/
def Action.Fits : Action → Prop
  | .remap m => m &&& 0x03 = m
  | _ => True

variable {x}

theorem mask_ctrl : ∀ a : Byte, a &&& 0x7f = a &&& 0x7c ||| a &&& 0x03 := by decide +kernel

/-- The masks of the register, on any contents. -/
theorem masks (a : Byte) : a &&& 0x7c &&& 0x7c = a &&& 0x7c ∧ a &&& 0x7c &&& 0x03 = 0#8 ∧
    a &&& 0x03 &&& 0x7c = 0#8 ∧ (a ||| 0x80) &&& 0x7c = a &&& 0x7c ∧
    (a ||| 0x80) &&& 0x03 = a &&& 0x03 := by
  revert a
  decide +kernel

theorem kept_mask : x.kept &&& 0x7c = x.ctrl &&& 0x7c ||| x.tempMap &&& 0x7c := by
  rw [kept, BitVec.and_or_distrib_right, (masks _).1]

theorem kept_mapping : x.kept &&& 0x03 = x.tempMap &&& 0x03 := by
  rw [kept, BitVec.and_or_distrib_right, (masks _).2.1, BitVec.zero_or]

theorem settled_look : (x.act .look).Settled := by
  rw [Settled, kept_mask]
  simp only [act]
  rw [(masks _).2.2.1, BitVec.or_zero]

theorem settled_remap {m : Byte} (hm : m &&& 0x03 = m) : (x.act (.remap m)).Settled := by
  rw [Settled, kept_mask]
  simp only [act]
  rw [← hm, (masks m).2.2.1, BitVec.or_zero]

theorem mask_store (auto : Bool) : (x.act (.store auto)).reg &&& 0x7c = x.kept &&& 0x7c := by
  cases auto with
  | false => rfl
  | true => exact (masks x.kept).2.2.2.1

/-- The mapping that is stored with a mode is the one that was kept. -/
theorem mapping_store (auto : Bool) : (x.act (.store auto)).reg &&& 0x03 = x.tempMap &&& 0x03 := by
  rw [← kept_mapping]
  cases auto with
  | false => rfl
  | true => exact (masks x.kept).2.2.2.2

theorem settled_store (auto : Bool) : (x.act (.store auto)).Settled := by
  have hctrl : (x.act (.store auto)).ctrl = (x.act (.store auto)).reg := rfl
  have hmap : (x.act (.store auto)).tempMap = x.tempMap := rfl
  rw [Settled, kept_mask, hctrl, hmap, mask_store, kept_mask, BitVec.or_assoc, BitVec.or_self]

/-- Whatever concerns the register settles it. -/
theorem settled_act {a : Action} (hf : a.Fits) (h : a = .keep → x.Settled) :
    (x.act a).Settled := by
  cases a with
  | keep => exact h rfl
  | look => exact settled_look
  | remap m => exact settled_remap hf
  | store auto => exact settled_store auto

/-- The mapping that was kept is no longer `m`, and `m` is not in the register either. -/
structure Lost (m : Byte) (x : Control) : Prop where
  fits : x.tempMap &&& 0x03 = x.tempMap
  kept : x.tempMap ≠ m
  reg : x.reg &&& 0x03 ≠ m

theorem lost_look {m : Byte} (h : x.reg &&& 0x03 ≠ m) : Lost m (x.act .look) where
  fits := by simp [act, BitVec.and_assoc]
  kept := h
  reg := h

theorem lost_store {m : Byte} (auto : Bool) (h : Lost m x) : Lost m (x.act (.store auto)) where
  fits := h.fits
  kept := h.kept
  reg := by
    rw [mapping_store, h.fits]
    exact h.kept

end Control

/-! ### What events do to a control register -/

namespace It87Chip

variable {c : It87Chip} {w : World} {nr : Fin 6} {buf : List Char}

def control (c : It87Chip) (nr : ℕ) (w : World) : Control where
  reg := w.regs (c.regPwm nr)
  ctrl := w.data.pwmCtrl nr
  tempMap := w.data.pwmTempMap nr

/-- Storing in an attribute, as the control register of a channel sees it. -/
def storeAction (c : It87Chip) (nr : ℕ) (d : It87Data) : Attribute → List Char → Control.Action
  | .pwmEnable i, buf =>
    if i.val = nr then
      match c.kstrtol buf with
      | none => .keep
      | some val =>
        if val = 0 then if nr < 3 ∧ c.has .fanctlOnoff then .keep else .store false
        else if val = 1 then .store false
        else if val = 2 ∧ 0 ≤ c.checkTripPoints d nr then .store true
        else .keep
    else .keep
  | .pwm i, buf =>
    if i.val = nr then
      match c.kstrtol buf with
      | none => .keep
      | some val => if 0 ≤ val ∧ val ≤ 255 then .look else .keep
    else .keep
  | .pwmAutoChannelsTemp i, buf =>
    if i.val = nr then
      match c.mappingIn nr buf with
      | none => .keep
      | some m => .remap m
    else .keep
  | _, _ => .keep

def action (c : It87Chip) (nr : ℕ) (w : World) : Event → Control.Action
  | .shown a =>
    if c.mode a ≠ .hidden ∧ a.refreshes ∧ c.stale (w.clock 0) w.data ∧ c.hasPwm.getLsbD nr then .look
    else .keep
  | .stored a buf => if c.mode a = .writable then c.storeAction nr w.data a buf else .keep
  | .measured _ _ => .keep

theorem mappingIn_fits {m : Byte} {nr : ℕ} (h : c.mappingIn nr buf = some m) :
    m &&& 0x03 = m := by
  obtain ⟨val, -, hm⟩ := Option.bind_eq_some_iff.mp h
  unfold mappingOf at hm
  grind

theorem action_fits (c : It87Chip) (nr : Fin 6) (w : World) (e : Event) :
    (c.action nr w e).Fits := by
  cases e with
  | shown a =>
    simp only [action]
    split <;> trivial
  | measured r v => trivial
  | stored a buf =>
    simp only [action]
    split
    case isFalse => trivial
    case isTrue =>
      cases a
      case pwmAutoChannelsTemp i =>
        simp only [storeAction]
        split
        case isFalse => trivial
        case isTrue =>
          cases hm : c.mappingIn nr buf with
          | none => trivial
          | some m => exact mappingIn_fits hm
      case pwmEnable i =>
        simp only [storeAction]
        grind [Control.Action.Fits]
      case pwm i =>
        simp only [storeAction]
        grind [Control.Action.Fits]
      all_goals trivial

end It87Chip

namespace It87Chip

variable {c : It87Chip} {w : World} {nr : Fin 6} {buf : List Char} {a : Attribute}

/-! ### Events that leave the control register alone -/

theorem control_setAutoPwm {point : ℕ} (i nr : ℕ) (w : World) :
    let t := ((c.setAutoPwm i point buf).run device w).2
    t.data.pwmCtrl nr = w.data.pwmCtrl nr ∧ t.data.pwmTempMap nr = w.data.pwmTempMap nr := by
  by_cases h : ∃ val, c.kstrtol buf = some val ∧ 0 ≤ val ∧ val ≤ 255
  · obtain ⟨val, hval, hrange⟩ := h
    rw [run_setAutoPwm hval hrange]
    exact ⟨rfl, rfl⟩
  · rw [run_setAutoPwm_refused h]
    exact ⟨rfl, rfl⟩

theorem control_setAutoPwmSlope (i nr : ℕ) (w : World) :
    let t := ((c.setAutoPwmSlope i buf).run device w).2
    t.data.pwmCtrl nr = w.data.pwmCtrl nr ∧ t.data.pwmTempMap nr = w.data.pwmTempMap nr := by
  by_cases h : ∃ val, c.kstrtoul buf = some val ∧ val ≤ 127
  · obtain ⟨val, hval, hrange⟩ := h
    rw [run_setAutoPwmSlope hval hrange]
    exact ⟨rfl, rfl⟩
  · rw [run_setAutoPwmSlope_refused h]
    exact ⟨rfl, rfl⟩

theorem control_setAutoTemp {point : ℕ} (i nr : ℕ) (w : World) :
    let t := ((c.setAutoTemp i point buf).run device w).2
    t.data.pwmCtrl nr = w.data.pwmCtrl nr ∧ t.data.pwmTempMap nr = w.data.pwmTempMap nr := by
  by_cases h : ∃ val, c.kstrtol buf = some val ∧ -128000 ≤ val ∧ val ≤ 127000
  · obtain ⟨val, hval, hrange⟩ := h
    rw [run_setAutoTemp hval hrange]
    exact ⟨rfl, rfl⟩
  · rw [run_setAutoTemp_refused h]
    exact ⟨rfl, rfl⟩

/-- Attributes other than the three concern neither the register nor its copies. -/
theorem control_attempt (h : a.Spares nr) (w : World) :
    c.control nr ((c.attempt a buf).run device w).2 = c.control nr w := by
  have hreg := regs_attempt ((c.regPwm_apart nr).2 a h) buf w
  suffices hdata : ((c.attempt a buf).run device w).2.data.pwmCtrl nr = w.data.pwmCtrl nr ∧
      ((c.attempt a buf).run device w).2.data.pwmTempMap nr = w.data.pwmTempMap nr from
    Control.ext hreg hdata.1 hdata.2
  by_cases hc : a.channel = some nr.val
  case neg =>
    have hu := (untouched_attempt (c := c) a buf w).channel nr hc
    exact ⟨congrArg Channel.ctrl hu, congrArg Channel.tempMap hu⟩
  by_cases hm : c.mode a = .writable
  case neg =>
    rw [c.attempt_of_mode hm]
    exact ⟨rfl, rfl⟩
  cases a
  case pwmEnable i => exact absurd (congrArg _ (Fin.ext (Option.some.inj hc))) h.1
  case pwm i => exact absurd (congrArg _ (Fin.ext (Option.some.inj hc))) h.2.1
  case pwmAutoChannelsTemp i => exact absurd (congrArg _ (Fin.ext (Option.some.inj hc))) h.2.2
  case pwmAutoStart i =>
    rw [c.attempt_eq hm rfl]
    exact control_setAutoPwm i nr w
  case pwmAutoSlope i =>
    rw [c.attempt_eq hm rfl]
    exact control_setAutoPwmSlope i nr w
  case pwmAutoPointPwm i k =>
    by_cases hk : k.val < 3
    · rw [c.attempt_eq hm (if_pos hk)]
      exact control_setAutoPwm i nr w
    · have hs : c.storeOf (.pwmAutoPointPwm i k) = none := if_neg hk
      rw [c.attempt_of_store hs]
      exact ⟨rfl, rfl⟩
  case pwmAutoPointTemp i k =>
    rw [c.attempt_eq hm rfl]
    exact control_setAutoTemp _ nr w
  case pwmAutoPoint4Temp i =>
    rw [c.attempt_eq hm rfl]
    exact control_setAutoTemp i nr w
  case pwmAutoPoint1TempHyst i =>
    rw [c.attempt_eq hm rfl]
    exact control_setAutoTemp _ nr w
  all_goals cases hc

/-! ### Events that concern it -/

theorem control_shown (hn : c.has .newerAutopwm = true) (a : Attribute) (w : World) :
    c.control nr (c.step w (.shown a)) = (c.control nr w).act (c.action nr w (.shown a)) := by
  have hreg := regs_shown (c := c) (w := w) (c.regPwm_ne nr).1 a
  have hvbat : (c.vbat w.ticked).regs (c.regPwm nr) = w.regs (c.regPwm nr) :=
    regs_vbat (c.regPwm_ne nr).1 _
  rw [control, hreg, step_shown]
  by_cases ha : c.mode a ≠ .hidden ∧ a.refreshes
  case neg =>
    have hkeep : c.action nr w (.shown a) = .keep := if_neg fun h => ha ⟨h.1, h.2.1⟩
    rw [if_neg ha, hkeep]
    rfl
  rw [if_pos ha]
  unfold updated
  by_cases hs : c.stale (w.clock 0) w.data
  case neg =>
    have hkeep : c.action nr w (.shown a) = .keep := if_neg fun h => hs h.2.2.1
    rw [if_neg hs, hkeep]
    rfl
  rw [if_pos hs]
  simp only [refreshed, rows_of_lt nr.isLt, channelRow]
  cases hp : c.hasPwm.getLsbD nr
  · have hkeep : c.action nr w (.shown a) = .keep := if_neg fun h => by simp [hp] at h
    rw [hkeep, data_vbat]
    rfl
  · have hlook : c.action nr w (.shown a) = .look := if_pos ⟨ha.1, ha.2, hs, hp⟩
    simp only [hlook, channelRead, hn, true_or, if_true, hvbat]
    rfl

/-- Reading the channel again, as the control register sees it. -/
theorem control_readChannel (hn : c.has .newerAutopwm = true) (nr : ℕ) (w : World) :
    c.control nr (w.assign (c.readChannel w.regs nr)) = (c.control nr w).act .look := by
  refine Control.ext rfl ?_ ?_
  · exact (congrFun (c.readChannel_pwmCtrl w.regs nr w.data) nr).trans (Function.update_self ..)
  · refine (congrFun (c.readChannel_pwmTempMap w.regs nr w.data) nr).trans ?_
    simp [channelRead, hn, Control.act, control]

theorem control_pwm (hn : c.has .newerAutopwm = true) (hm : c.mode (.pwm nr) = .writable)
    (w : World) : c.control nr ((c.attempt (.pwm nr) buf).run device w).2 =
      (c.control nr w).act (c.storeAction nr w.data (.pwm nr) buf) := by
  rw [c.attempt_eq hm rfl]
  by_cases h : ∃ val, c.kstrtol buf = some val ∧ 0 ≤ val ∧ val ≤ 255
  · obtain ⟨val, hval, hrange⟩ := h
    have hduty : c.control nr
        ((c.setDuty nr val).run device (w.assign (c.readChannel w.regs nr))).2 =
        c.control nr (w.assign (c.readChannel w.regs nr)) := by
      simp only [setDuty, hn, if_true, run_bind, run_assign, andThen_ok, run_writeValue]
      refine Control.ext ?_ rfl rfl
      exact Function.update_of_ne (c.regPwm_ne nr).2.1 _ _
    rw [run_setPwm hval hrange]
    simp only [storeAction, hval, hrange, and_self, if_true]
    rw [← control_readChannel hn]
    split
    · rfl
    · exact hduty
  · have hkeep : c.storeAction nr w.data (.pwm nr) buf = .keep := by
      simp only [storeAction, if_true]
      cases hval : c.kstrtol buf with
      | none => rfl
      | some val => exact if_neg fun hr => h ⟨val, hval, hr⟩
    rw [run_setPwm_refused h, hkeep]
    rfl

theorem control_pwmAutoChannelsTemp (hn : c.has .newerAutopwm = true)
    (hm : c.mode (.pwmAutoChannelsTemp nr) = .writable) (w : World) :
    c.control nr ((c.attempt (.pwmAutoChannelsTemp nr) buf).run device w).2 =
      (c.control nr w).act (c.storeAction nr w.data (.pwmAutoChannelsTemp nr) buf) := by
  rw [c.attempt_eq hm rfl]
  cases hmap : c.mappingIn nr buf with
  | none =>
    have hkeep : c.storeAction nr w.data (.pwmAutoChannelsTemp nr) buf = .keep := by
      simp only [storeAction, if_true, hmap]
    rw [run_setPwmTempMap_refused hmap, hkeep]
    rfl
  | some m =>
    have hctrl : (c.readChannel w.regs nr w.data).pwmCtrl nr = w.regs (c.regPwm nr) :=
      congrArg Control.ctrl (control_readChannel hn nr w)
    rw [run_setPwmTempMap hmap]
    simp only [storeAction, if_true, hmap, data_assign, hctrl]
    split
    case isTrue hb =>
      rw [run_storeCtrl]
      simp [Control.act, control, hb]
    case isFalse hb =>
      refine Control.ext (if_neg hb).symm (hctrl.trans (if_neg hb).symm) ?_
      exact Function.update_self ..

/-- A mode that goes into the control register. -/
theorem control_storeCtrl (c : It87Chip) (nr : Fin 6) (w : World) (ctrl : Byte) :
    c.control nr ((c.storeCtrl nr ctrl).run device w).2 =
      { reg := ctrl, ctrl, tempMap := w.data.pwmTempMap nr } := by
  rw [run_storeCtrl]
  refine Control.ext (Function.update_self ..) (Function.update_self ..) rfl

theorem control_setFullSpeed (hn : c.has .newerAutopwm = true) (w : World) :
    c.control nr ((c.setFullSpeed nr).run device w).2 = (c.control nr w).act (.store false) := by
  simp only [setFullSpeed, run_bind, run_assign, andThen_ok, run_writeValue, run_getData, hn,
    if_true]
  exact c.control_storeCtrl nr _ _

theorem control_setMode (hn : c.has .newerAutopwm = true) (w : World) (val : ℤ) :
    c.control nr ((c.setMode nr val).run device w).2 =
      (c.control nr w).act (.store (decide (val ≠ 1))) := by
  have hstore : ∀ t : World, c.control nr { t with
      data := { t.data with fanMainCtrl := w.data.fanMainCtrl ||| bitOf nr }
      regs := Function.update t.regs regFanMainCtrl (w.data.fanMainCtrl ||| bitOf nr) } =
      c.control nr t := fun t =>
    Control.ext (Function.update_of_ne (c.regPwm_ne nr).2.2.2 _ _) rfl rfl
  have hctrl := c.control_storeCtrl nr w (c.modeCtrl w.data nr val)
  have hmode : c.modeCtrl w.data nr val =
      ((c.control nr w).act (.store (decide (val ≠ 1)))).reg := by
    simp only [modeCtrl, hn, if_true, Control.act]
    by_cases h1 : val = 1 <;> simp [h1, cachedCtrl, Control.kept, control]
  rw [hmode] at hctrl
  simp only [setMode, run_bind, run_getData, andThen_ok, hmode]
  rw [run_storeCtrl] at hctrl ⊢
  simp only [andThen_ok]
  split
  · simp only [run_bind, run_assign, andThen_ok, run_writeValue]
    exact (hstore _).trans hctrl
  · exact hctrl

theorem control_pwmEnable (hn : c.has .newerAutopwm = true)
    (hm : c.mode (.pwmEnable nr) = .writable) (w : World) :
    c.control nr ((c.attempt (.pwmEnable nr) buf).run device w).2 =
      (c.control nr w).act (c.storeAction nr w.data (.pwmEnable nr) buf) := by
  rw [c.attempt_eq hm rfl]
  by_cases h : ∃ val, c.enables w.data nr buf val
  · obtain ⟨val, hval⟩ := h
    rw [run_setPwmEnable hval]
    obtain ⟨hparse, hlow, hhigh, htrip⟩ := hval
    simp only [storeAction, if_true, hparse]
    by_cases h0 : val = 0
    · simp only [h0, if_true]
      split
      · simp only [setOnOff, run_bind, run_readValue, andThen_ok, run_writeValue, run_getData,
          run_assign]
        refine Control.ext ?_ rfl rfl
        have hne := (c.regPwm_ne nr).2.2
        exact (Function.update_of_ne hne.2 _ _).trans (Function.update_of_ne hne.1 _ _)
      · exact control_setFullSpeed hn w
    · simp only [h0, if_false]
      rw [control_setMode hn]
      by_cases h1 : val = 1
      · simp [h1]
      · have h2 : val = 2 := by omega
        simp [h2, htrip h2]
  · have hkeep : c.storeAction nr w.data (.pwmEnable nr) buf = .keep := by
      simp only [storeAction, if_true]
      cases hparse : c.kstrtol buf with
      | none => rfl
      | some val =>
        have hno : ¬ c.enables w.data nr buf val := fun hval => h ⟨val, hval⟩
        simp only [enables, hparse, true_and] at hno
        grind
    rw [run_setPwmEnable_refused h, hkeep]
    rfl

/-- What an event does to a control register and its copies is what its action does to them. -/
theorem control_step (hn : c.has .newerAutopwm = true) (nr : Fin 6) (w : World) (e : Event) :
    c.control nr (c.step w e) = (c.control nr w).act (c.action nr w e) := by
  cases e with
  | shown a => exact control_shown hn a w
  | measured r v =>
    refine Control.ext (regs_measured (c.regPwm_apart nr).1 r v) ?_ ?_
    all_goals
      simp only [step]
      split <;> rfl
  | stored a buf =>
    by_cases hm : c.mode a = .writable
    case neg =>
      have hkeep : c.action nr w (.stored a buf) = .keep := if_neg hm
      rw [step, c.attempt_of_mode hm, hkeep]
      rfl
    have hstore : c.action nr w (.stored a buf) = c.storeAction nr w.data a buf := if_pos hm
    rw [step, hstore]
    by_cases hs : a.Spares nr
    · have hkeep : c.storeAction nr w.data a buf = .keep := by
        obtain ⟨h1, h2, h3⟩ := hs
        cases a
        case pwmEnable i => exact if_neg fun hi => h1 (congrArg _ (Fin.ext hi))
        case pwm i => exact if_neg fun hi => h2 (congrArg _ (Fin.ext hi))
        case pwmAutoChannelsTemp i => exact if_neg fun hi => h3 (congrArg _ (Fin.ext hi))
        all_goals rfl
      rw [hkeep]
      exact control_attempt hs w
    · have hcases : a = .pwmEnable nr ∨ a = .pwm nr ∨ a = .pwmAutoChannelsTemp nr := by
        unfold Attribute.Spares at hs
        tauto
      rcases hcases with rfl | rfl | rfl
      · exact control_pwmEnable hn hm w
      · exact control_pwm hn hm w
      · exact control_pwmAutoChannelsTemp hn hm w

end It87Chip

end BuffaloNas.It87
