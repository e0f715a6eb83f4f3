import BuffaloNas.It87.World
import Mathlib.Logic.Function.Basic

/-! What `it87_update_device` makes of the cache, as a function of the registers. -/
namespace BuffaloNas.It87
open Interaction Program SuperIo

/-! ### Rows -/

/-- Replace the first `n` rows of a table. -/
def rows {β : Type} (n : ℕ) (g : ℕ → β → β) (a : ℕ → β) : ℕ → β :=
  fun i => if i < n then g i (a i) else a i

theorem rows_of_lt {β : Type} {n i : ℕ} (h : i < n) (g : ℕ → β → β) (a : ℕ → β) :
    rows n g a i = g i (a i) := if_pos h

@[simp] theorem rows_zero {β : Type} (g : ℕ → β → β) (a : ℕ → β) : rows 0 g a = a := by
  funext i
  simp [rows]

theorem rows_succ {β : Type} (n : ℕ) (g : ℕ → β → β) (a : ℕ → β) :
    rows (n + 1) g a = Function.update (rows n g a) n (g n (rows n g a n)) := by
  funext i
  rcases Nat.lt_trichotomy i n with h | rfl | h
  · simp [rows, h, Nat.lt_succ_of_lt h, h.ne]
  · simp [rows]
  · have hn : ¬ i < n + 1 := by omega
    simp [rows, hn, h.ne', Nat.not_lt_of_gt h]

open World

/-- A loop whose rounds replace one row each replaces the rows it counts over. -/
theorem run_forM_rows {β : Type} {f : ℕ → Driver Unit} {g : (Word → Byte) → ℕ → β → β}
    (get : It87Data → ℕ → β) (set : It87Data → (ℕ → β) → It87Data)
    (hget : ∀ d a, get (set d a) = a) (hset : ∀ d a b, set (set d a) b = set d b)
    (hself : ∀ d, set d (get d) = d)
    (h : ∀ i w, (f i).run device w =
      (.ok (), w.assign fun d => set d (Function.update (get d) i (g w.regs i (get d i)))))
    (n : ℕ) (w : World) :
    ((List.range n).forM f).run device w =
      (.ok (), w.assign fun d => set d (rows n (g w.regs) (get d))) := by
  let J : ℕ → World → Prop := fun k t => t = w.assign fun d => set d (rows k (g w.regs) (get d))
  obtain ⟨t, ht, hJ⟩ := run_forM_range (J := J) (f := f) (n := n) (s := w)
    (by simp [J, hself, World.assign]) fun i _ t ht => by
      refine ⟨_, h i t, ?_⟩
      simp only [J] at ht ⊢
      rw [ht, assign_assign]
      simp only [regs_assign, hget, hset, rows_succ]
  rw [ht, hJ]

/-! ### The refreshed cache -/

/-- What the cache holds of one channel. -/
structure Channel where
  ctrl : Byte
  duty : Byte
  tempMap : Byte
  autoPwm : ℕ → Byte
  autoTemp : ℕ → Byte

def It87Data.channel (d : It87Data) (nr : ℕ) : Channel where
  ctrl := d.pwmCtrl nr
  duty := d.pwmDuty nr
  tempMap := d.pwmTempMap nr
  autoPwm := d.autoPwm nr
  autoTemp := d.autoTemp nr

def It87Data.withChannels (d : It87Data) (a : ℕ → Channel) : It87Data :=
  { d with
    pwmCtrl := fun nr => (a nr).ctrl
    pwmDuty := fun nr => (a nr).duty
    pwmTempMap := fun nr => (a nr).tempMap
    autoPwm := fun nr => (a nr).autoPwm
    autoTemp := fun nr => (a nr).autoTemp }

@[simp] theorem It87Data.channel_withChannels (d : It87Data) (a : ℕ → Channel) :
    (d.withChannels a).channel = a := rfl

@[simp] theorem It87Data.withChannels_withChannels (d : It87Data) (a b : ℕ → Channel) :
    (d.withChannels a).withChannels b = d.withChannels b := rfl

@[simp] theorem It87Data.withChannels_channel (d : It87Data) : d.withChannels d.channel = d := rfl

namespace It87Chip

variable (c : It87Chip) (regs : Word → Byte)

/-- The register behind an entry of `auto_temp`, if the chip has one. -/
def autoTempReg (nr point : ℕ) : Option Word :=
  if c.has .oldAutopwm then if point < 5 then some (regAutoTemp nr point) else none
  else if c.has .newerAutopwm then
    if point = 0 then some (regAutoTemp nr 5)
    else if point < 4 then some (regAutoTemp nr (point - 1)) else none
  else none

/-- The register behind an entry of `auto_pwm`, if the chip has one. -/
def autoPwmReg (nr point : ℕ) : Option Word :=
  if c.has .oldAutopwm then if point < 3 then some (regAutoPwm nr point) else none
  else if c.has .newerAutopwm then
    if point < 2 then some (regAutoTemp nr (point + 3)) else none
  else none

/-- A channel after its control registers have been read. -/
def channelRead (nr : ℕ) (x : Channel) : Channel where
  ctrl := regs (c.regPwm nr)
  duty :=
    if c.has .newerAutopwm then regs (regPwmDuty nr)
    else if (regs (c.regPwm nr)).getLsbD 7 then x.duty else regs (c.regPwm nr) &&& 0x7f
  tempMap :=
    if c.has .newerAutopwm ∨ (regs (c.regPwm nr)).getLsbD 7 then regs (c.regPwm nr) &&& 0x03
    else x.tempMap
  autoPwm point := ((c.autoPwmReg nr point).map regs).getD (x.autoPwm point)
  autoTemp point := ((c.autoTempReg nr point).map regs).getD (x.autoTemp point)

def readChannel (nr : ℕ) (d : It87Data) : It87Data :=
  d.withChannels (Function.update d.channel nr (c.channelRead regs nr (d.channel nr)))

section

variable (nr : ℕ) (d : It87Data)

theorem readChannel_pwmCtrl : (c.readChannel regs nr d).pwmCtrl =
    Function.update d.pwmCtrl nr (regs (c.regPwm nr)) :=
  Function.comp_update Channel.ctrl d.channel nr _

theorem readChannel_pwmDuty : (c.readChannel regs nr d).pwmDuty =
    Function.update d.pwmDuty nr (c.channelRead regs nr (d.channel nr)).duty :=
  Function.comp_update Channel.duty d.channel nr _

theorem readChannel_pwmTempMap : (c.readChannel regs nr d).pwmTempMap =
    Function.update d.pwmTempMap nr (c.channelRead regs nr (d.channel nr)).tempMap :=
  Function.comp_update Channel.tempMap d.channel nr _

theorem readChannel_autoPwm : (c.readChannel regs nr d).autoPwm =
    Function.update d.autoPwm nr (c.channelRead regs nr (d.channel nr)).autoPwm :=
  Function.comp_update Channel.autoPwm d.channel nr _

theorem readChannel_autoTemp : (c.readChannel regs nr d).autoTemp =
    Function.update d.autoTemp nr (c.channelRead regs nr (d.channel nr)).autoTemp :=
  Function.comp_update Channel.autoTemp d.channel nr _

end

end It87Chip

/-! ### What the loops read -/

theorem put_eq {α : Type} (a : ℕ → ℕ → α) (i j : ℕ) (v : α) :
    put a i j v = Function.update a i (Function.update (a i) j v) := rfl

namespace It87Chip

variable (c : It87Chip)

theorem run_updateMapping (nr : ℕ) (ctrl : Byte) (w : World) :
    (c.updateMapping nr ctrl).run device w = (.ok (), w.assign fun d => { d with
      pwmTempMap := Function.update d.pwmTempMap nr
        (if c.has .newerAutopwm ∨ ctrl.getLsbD 7 then ctrl &&& 0x03 else d.pwmTempMap nr)
      pwmDuty := Function.update d.pwmDuty nr
        (if c.has .newerAutopwm then w.regs (regPwmDuty nr)
          else if ctrl.getLsbD 7 then d.pwmDuty nr else ctrl &&& 0x7f) }) := by
  rw [updateMapping]
  cases hn : c.has .newerAutopwm
  · cases hb : ctrl.getLsbD 7 <;> simp
  · simp

theorem run_updateAuto (nr : ℕ) (w : World) :
    (c.updateAuto nr).run device w = (.ok (), w.assign fun d => { d with
      autoPwm := Function.update d.autoPwm nr
        fun point => ((c.autoPwmReg nr point).map w.regs).getD (d.autoPwm nr point)
      autoTemp := Function.update d.autoTemp nr
        fun point => ((c.autoTempReg nr point).map w.regs).getD (d.autoTemp nr point) }) := by
  rw [updateAuto]
  have h5 : List.range 5 = [0, 1, 2, 3, 4] := rfl
  have h3 : List.range 3 = [0, 1, 2] := rfl
  cases ho : c.has .oldAutopwm
  · cases hn : c.has .newerAutopwm
    · simp [autoPwmReg, autoTempReg, ho, hn, World.assign]
    · simp only [h3, run_bind, run_readValue, andThen_ok, run_assign, List.forM_eq_forM,
        List.forM_cons, List.forM_nil, regs_assign, run_pure, assign_assign, if_true, if_false,
        Bool.false_eq_true, put_eq, Function.update_idem, Function.update_self]
      refine congrArg (Prod.mk _) (congrArg w.assign (funext fun d => ?_))
      congr 2
      · funext point
        grind [autoPwmReg, Function.update_apply]
      · funext point
        grind [autoTempReg, Function.update_apply]
  · simp only [h3, h5, run_bind, run_readValue, andThen_ok, run_assign, List.forM_eq_forM,
      List.forM_cons, List.forM_nil, regs_assign, run_pure, assign_assign, if_true,
      put_eq, Function.update_idem, Function.update_self]
    refine congrArg (Prod.mk _) (congrArg w.assign (funext fun d => ?_))
    congr 2
    · funext point
      grind [autoPwmReg, Function.update_apply]
    · funext point
      grind [autoTempReg, Function.update_apply]

/-- Reading the control registers of a channel changes that channel alone. -/
theorem run_updatePwmCtrl (nr : ℕ) (w : World) :
    (c.updatePwmCtrl nr).run device w = (.ok (), w.assign (c.readChannel w.regs nr)) := by
  simp only [updatePwmCtrl, run_bind, run_readValue, andThen_ok, run_assign, run_updateMapping,
    run_updateAuto, regs_assign, assign_assign]
  refine congrArg (Prod.mk _) (congrArg w.assign (funext fun d => ?_))
  refine It87Data.ext rfl rfl rfl rfl rfl rfl rfl rfl rfl rfl rfl rfl rfl rfl ?_ ?_ ?_ ?_ ?_
  · exact (c.readChannel_pwmCtrl w.regs nr d).symm
  · exact (c.readChannel_pwmDuty w.regs nr d).symm
  · exact (c.readChannel_pwmTempMap w.regs nr d).symm
  · exact (c.readChannel_autoPwm w.regs nr d).symm
  · exact (c.readChannel_autoTemp w.regs nr d).symm

/-- A channel after a refresh: it is read if it is enabled. -/
def channelRow (regs : Word → Byte) (nr : ℕ) (x : Channel) : Channel :=
  if c.hasPwm.getLsbD nr then c.channelRead regs nr x else x

theorem run_updatePwm (i : ℕ) (w : World) :
    (c.updatePwm i).run device w = (.ok (), w.assign fun d => d.withChannels
      (Function.update d.channel i (c.channelRow w.regs i (d.channel i)))) := by
  rw [updatePwm]
  cases hp : c.hasPwm.getLsbD i
  · simp [channelRow, hp, World.assign]
  · simp only [if_true, channelRow, hp]
    exact c.run_updatePwmCtrl i w

/-- The voltages and limits of one input. -/
def inRow (regs : Word → Byte) (i : ℕ) (row : ℕ → Byte) : ℕ → Byte := fun k =>
  if c.hasIn.getLsbD i then
    if k = 0 then regs (regVin i)
    else if i < 8 then
      if k = 1 then regs (regVinMin i) else if k = 2 then regs (regVinMax i) else row k
    else row k
  else row k

theorem run_updateIn (i : ℕ) (w : World) :
    (c.updateIn i).run device w = (.ok (), w.assign fun d => { d with
      ins := Function.update d.ins i (c.inRow w.regs i (d.ins i)) }) := by
  rw [updateIn]
  cases hi : c.hasIn.getLsbD i
  · have hrow : ∀ row, c.inRow w.regs i row = row := fun row => by
      funext k
      simp [inRow, hi]
    simp [hrow, World.assign]
  · by_cases h8 : 8 ≤ i
    all_goals
      simp only [h8, run_bind, run_readValue, andThen_ok, run_assign, regs_assign, run_pure,
        assign_assign, put_eq, Function.update_idem, Function.update_self, Bool.not_true,
        Bool.false_eq_true, if_true, if_false]
      refine congrArg (Prod.mk _) (congrArg w.assign (funext fun d => ?_))
      congr 2
      funext k
      grind [inRow, Function.update_apply]

/-- The speed and the limit of one fan. -/
def fanRow (regs : Word → Byte) (i : ℕ) (row : ℕ → Word) : ℕ → Word := fun k =>
  if c.hasFan.getLsbD i ∧ k < 2 then
    let low := if k = 0 then regs (c.regFan i) else regs (c.regFanMin i)
    let high := if k = 0 then regs (c.regFanx i) else regs (c.regFanxMin i)
    if c.has .fans16bit then low.setWidth 16 ||| high.setWidth 16 <<< 8 else low.setWidth 16
  else row k

theorem run_updateFan (i : ℕ) (w : World) :
    (c.updateFan i).run device w = (.ok (), w.assign fun d => { d with
      fan := Function.update d.fan i (c.fanRow w.regs i (d.fan i)) }) := by
  rw [updateFan]
  cases hi : c.hasFan.getLsbD i
  · have hrow : ∀ row, c.fanRow w.regs i row = row := fun row => by
      funext k
      simp [fanRow, hi]
    simp [hrow, World.assign]
  · cases h16 : c.has .fans16bit
    all_goals
      simp only [run_bind, run_readValue, andThen_ok, run_assign, regs_assign, run_pure,
        assign_assign, put_eq, Function.update_idem, Function.update_self, Bool.not_true,
        Bool.false_eq_true, if_true, if_false]
      refine congrArg (Prod.mk _) (congrArg w.assign (funext fun d => ?_))
      congr 2
      funext k
      grind [fanRow, Function.update_apply]

/-- The temperature, the limits and the offset of one sensor. -/
def tempRow (regs : Word → Byte) (i : ℕ) (row : ℕ → Byte) : ℕ → Byte := fun k =>
  if c.hasTemp.getLsbD i then
    if k = 0 then regs (regTemp i)
    else if i < c.numTempLimit then
      if k = 1 then regs (c.regTempLow i)
      else if k = 2 then regs (c.regTempHigh i)
      else if k = 3 ∧ c.has .tempOffset then regs (c.regTempOffset i) else row k
    else row k
  else row k

theorem run_updateTemp (i : ℕ) (w : World) :
    (c.updateTemp i).run device w = (.ok (), w.assign fun d => { d with
      temp := Function.update d.temp i (c.tempRow w.regs i (d.temp i)) }) := by
  rw [updateTemp]
  cases hi : c.hasTemp.getLsbD i
  · have hrow : ∀ row, c.tempRow w.regs i row = row := fun row => by
      funext k
      simp [tempRow, hi]
    simp [hrow, World.assign]
  · by_cases hl : c.numTempLimit ≤ i <;> cases ho : c.has .tempOffset
    all_goals
      simp only [hl, run_bind, run_readValue, andThen_ok, run_assign, regs_assign, run_pure,
        assign_assign, put_eq, Function.update_idem, Function.update_self, Bool.not_true,
        Bool.false_eq_true, if_true, if_false]
      refine congrArg (Prod.mk _) (congrArg w.assign (funext fun d => ?_))
      congr 2
      funext k
      grind [tempRow, Function.update_apply]

/-! ### The whole cache -/

/-- The cache after a refresh. -/
def refreshed (regs : Word → Byte) (now : ℕ) (d : It87Data) : It87Data where
  valid := true
  lastUpdated := now
  ins := rows 13 (c.inRow regs) d.ins
  fan := rows 6 (c.fanRow regs) d.fan
  temp := rows 6 (c.tempRow regs) d.temp
  sensor := regs regTempEnable
  extra := regs regTempExtra
  fanDiv :=
    if c.hasFan &&& 0x07 ≠ 0 ∧ !c.has .fans16bit then
      fun i => if i < 3 then fanDivOf (regs regFanDiv) i else d.fanDiv i
    else d.fanDiv
  vid := if c.type = .it8712 ∨ c.type = .it8716 then regs regVid &&& 0x3f else d.vid
  vrm := d.vrm
  alarms := (regs regAlarm1).setWidth 32 ||| (regs regAlarm2).setWidth 32 <<< 8 |||
    (regs regAlarm3).setWidth 32 <<< 16
  beeps := regs regBeepEnable
  fanMainCtrl := regs regFanMainCtrl
  fanCtl := regs regFanCtl
  pwmCtrl nr := (rows 6 (c.channelRow regs) d.channel nr).ctrl
  pwmDuty nr := (rows 6 (c.channelRow regs) d.channel nr).duty
  pwmTempMap nr := (rows 6 (c.channelRow regs) d.channel nr).tempMap
  autoPwm nr := (rows 6 (c.channelRow regs) d.channel nr).autoPwm
  autoTemp nr := (rows 6 (c.channelRow regs) d.channel nr).autoTemp

/-- A refresh re-enables the battery measurement, if it has been asked to. -/
def vbat (w : World) : World :=
  if c.updateVbat then w.write regConfig (w.regs regConfig ||| 0x40) else w

theorem run_updateVbatBit (w : World) : c.updateVbatBit.run device w = (.ok (), c.vbat w) := by
  cases h : c.updateVbat <;> simp [updateVbatBit, vbat, h]

theorem run_updateFanDiv (w : World) :
    c.updateFanDiv.run device w = (.ok (), w.assign fun d => { d with
      fanDiv := if c.hasFan &&& 0x07 ≠ 0 ∧ !c.has .fans16bit then
          fun i => if i < 3 then fanDivOf (w.regs regFanDiv) i else d.fanDiv i
        else d.fanDiv }) := by
  rw [updateFanDiv]
  split
  case isTrue h => simp
  case isFalse h => simp [World.assign]

theorem run_updateVid (w : World) :
    c.updateVid.run device w = (.ok (), w.assign fun d => { d with
      vid := if c.type = .it8712 ∨ c.type = .it8716 then w.regs regVid &&& 0x3f else d.vid }) := by
  rw [updateVid]
  split
  case isTrue h => simp
  case isFalse h => simp [World.assign]

theorem run_refresh (w : World) :
    c.refresh.run device w = (.ok (), { (c.vbat w).ticked with
      data := c.refreshed (c.vbat w).regs ((c.vbat w).clock 0) (c.vbat w).data }) := by
  have hins := run_forM_rows It87Data.ins (fun d ins => { d with ins })
    (fun _ _ => rfl) (fun _ _ _ => rfl) (fun _ => rfl) c.run_updateIn 13
  have hfans := run_forM_rows It87Data.fan (fun d fan => { d with fan })
    (fun _ _ => rfl) (fun _ _ _ => rfl) (fun _ => rfl) c.run_updateFan 6
  have htemps := run_forM_rows It87Data.temp (fun d temp => { d with temp })
    (fun _ _ => rfl) (fun _ _ _ => rfl) (fun _ => rfl) c.run_updateTemp 6
  have hpwms := run_forM_rows It87Data.channel It87Data.withChannels
    It87Data.channel_withChannels It87Data.withChannels_withChannels
    It87Data.withChannels_channel c.run_updatePwm 6
  simp only [refresh, run_bind, run_updateVbatBit, andThen_ok, hins, hfans, htemps, hpwms,
    run_updateFanDiv, run_updateVid, updateAlarms, updateFanCtrl, updateSensors, run_readValue,
    run_assign, run_jiffies, regs_assign, assign_assign]
  rfl

/-- The cache is refreshed where it is stale. -/
def updated (w : World) : World :=
  let t := w.ticked
  if c.stale (w.clock 0) w.data then
    { (c.vbat t).ticked with
      data := c.refreshed (c.vbat t).regs ((c.vbat t).clock 0) (c.vbat t).data }
  else t

theorem run_updateDevice (w : World) :
    c.updateDevice.run device w = (.ok (c.updated w).data, c.updated w) := by
  simp only [updateDevice, run_bind, run_mutexLock, andThen_ok, run_jiffies, run_getData]
  rw [updated, data_ticked]
  split
  · simp only [run_bind, run_refresh, andThen_ok, run_mutexUnlock, run_getData]
  · simp only [run_bind, run_mutexUnlock, andThen_ok, run_getData]

theorem run_showing (f : It87Data → ℤ) (w : World) :
    (c.showing f).run device w = (.ok (line (f (c.updated w).data)), c.updated w) := by
  simp only [showing, run_bind, run_updateDevice, andThen_ok, run_pure]

end It87Chip

end BuffaloNas.It87
