import BuffaloNas.It87.Events
import Mathlib.Data.List.FinRange

/-! Which registers belong to which attributes, on every chip. -/
namespace BuffaloNas.It87
open SuperIo

/-- The channel an attribute of fan control is bound to; all channels share the frequencies. -/
def Attribute.channel : Attribute → Option ℕ
  | .pwmEnable i | .pwm i | .pwmAutoChannelsTemp i | .pwmAutoStart i | .pwmAutoSlope i => some i
  | .pwmAutoPointPwm i _ | .pwmAutoPoint4Temp i => some i
  | .pwmAutoPointTemp i _ | .pwmAutoPoint1TempHyst i => some (It87Chip.autoTempIndex i)
  | _ => none

/-- The registers that storing in an attribute can write. -/
def Tables.targets (t : Tables) : Attribute → List Word
  | .inMin i => [regVinMin i]
  | .inMax i => [regVinMax i]
  | .inBeep _ | .tempBeep _ | .fanBeep _ => [regBeepEnable]
  | .tempMin i => [entry t.tempLow i]
  | .tempMax i => [entry t.tempHigh i]
  | .tempOffset i => [regBeepEnable, entry t.tempOffset i]
  | .tempType _ => [regTempEnable, regTempExtra]
  | .fanMin i => [entry t.fanMin i, entry t.fanxMin i]
  | .fanDiv i => [regFanDiv, entry t.fanMin i]
  | .pwmEnable i => [regFanCtl, regFanMainCtrl, regPwmDuty i, entry t.pwm i]
  | .pwm i => [regPwmDuty i, entry t.pwm i]
  | .pwmFreq _ => [regFanCtl, regTempExtra]
  | .pwmAutoChannelsTemp i => [entry t.pwm i]
  | .pwmAutoPointPwm i k => if k.val < 3 then [regAutoTemp i 3, regAutoPwm i k] else []
  | .pwmAutoStart i => [regAutoTemp i 3, regAutoPwm i 0]
  | .pwmAutoPointTemp i k =>
    [regAutoTemp (It87Chip.autoTempIndex i) k, regAutoTemp (It87Chip.autoTempIndex i) (k + 1)]
  | .pwmAutoPoint4Temp i => [regAutoTemp i 3, regAutoTemp i 4]
  | .pwmAutoPoint1TempHyst i =>
    [regAutoTemp (It87Chip.autoTempIndex i) 5, regAutoTemp (It87Chip.autoTempIndex i) 0]
  | .pwmAutoSlope i => [regAutoTemp i 4]
  | .intrusion0Alarm => [regConfig]
  | _ => []

/-- The attribute is not one of those that can write the control register of channel `nr`. -/
def Attribute.Spares (a : Attribute) (nr : Fin 6) : Prop :=
  a ≠ .pwmEnable nr ∧ a ≠ .pwm nr ∧ a ≠ .pwmAutoChannelsTemp nr

instance (a : Attribute) (nr : Fin 6) : Decidable (a.Spares nr) :=
  inferInstanceAs (Decidable (_ ∧ _))

/-- The registers of a channel. -/
def Tables.channelRegs (t : Tables) (nr : ℕ) : List Word :=
  [entry t.pwm nr, regPwmDuty nr] ++ (List.range 8).map fun i => regAutoBase nr + BitVec.ofNat 16 i

/-- No register is in both lists. -/
def apart (l l' : List Word) : Bool := l.all fun reg => l'.all fun r => !reg.toNat.beq r.toNat

theorem apart_iff {l l' : List Word} : apart l l' = true ↔ ∀ reg ∈ l, reg ∉ l' := by
  simp only [apart, List.all_eq_true, Bool.not_eq_true', ← Bool.not_eq_true, Nat.beq_eq]
  constructor
  · intro h reg hreg hmem
    exact h reg hreg reg hmem rfl
  · intro h reg hreg r hr heq
    exact h reg hreg (BitVec.eq_of_toNat_eq heq ▸ hr)

/-- All attributes there can be. -/
def Attribute.all : List Attribute :=
  (List.finRange 13).map inInput ++
  (List.finRange 8).flatMap (fun i => [inMin i, inMax i, inAlarm i, inBeep i]) ++
  (List.finRange 6).flatMap (fun i => [tempInput i, tempMax i, tempMin i, tempType i, tempAlarm i,
    tempOffset i, tempBeep i, fanInput i, fanMin i, fanAlarm i, fanBeep i, pwmEnable i, pwm i,
    pwmFreq i, pwmAutoChannelsTemp i, pwmAutoPoint1TempHyst i, pwmAutoStart i, pwmAutoSlope i] ++
    (List.finRange 3).map (pwmAutoPointTemp i)) ++
  (List.finRange 3).flatMap (fun i => [fanDiv i, pwmAutoPoint4Temp i] ++
    (List.finRange 4).map (pwmAutoPointPwm i)) ++
  [alarms, intrusion0Alarm, vrm, cpu0Vid, in3Label, in7Label, in8Label, in9Label]

theorem Attribute.mem_all (a : Attribute) : a ∈ all := by
  cases a <;> simp [all]

/-- The registers in which a chip may put what it measures. -/
def Tables.inputs (t : Tables) (newer : Bool) : List Word :=
  (List.range 13).map regVin ++ (List.range 6).map regTemp ++ t.fan ++ t.fanx ++
    [regAlarm1, regAlarm2, regAlarm3, regVid] ++
    if newer then (List.range 6).map regPwmDuty else []

/-! ### The layout of a chip -/

theorem notMem_of_apart {reg : Word} {l : List Word} (h : apart [reg] l = true) : reg ∉ l :=
  apart_iff.mp h reg (List.mem_singleton_self reg)

theorem regAutoTemp_inj {nr nr' i j : ℕ} (hnr : nr < 6) (hnr' : nr' < 6) (hi : i < 8) (hj : j < 8)
    (h : regAutoTemp nr i = regAutoTemp nr' j) : nr = nr' ∧ i = j := by
  have hinj : ∀ (nr nr' : Fin 6) (i j : Fin 8),
      regAutoTemp nr i = regAutoTemp nr' j → nr.val = nr' ∧ i.val = j := by
    decide +kernel
  exact hinj ⟨nr, hnr⟩ ⟨nr', hnr'⟩ ⟨i, hi⟩ ⟨j, hj⟩ h

/-- The registers of a channel's automatic control, one after the other. -/
theorem regs_autoTemp {nr : ℕ} (hnr : nr < 6) :
    regPwmDuty nr = regAutoTemp nr 3 ∧ ∀ i < 3, regAutoPwm nr i = regAutoTemp nr (5 + i) := by
  have h : ∀ nr < 6, regPwmDuty nr = regAutoTemp nr 3 ∧
      ∀ i < 3, regAutoPwm nr i = regAutoTemp nr (5 + i) := by
    decide +kernel
  exact h nr hnr

/-- The registers of a chip do not get in one another's way. -/
structure Tables.LaidOut (t : Tables) : Prop where
  channels : ∀ a ∈ Attribute.all, ∀ m < 6, a.channel ≠ some m →
    apart (t.targets a) (t.channelRegs m)
  fanDiv : ∀ a ∈ Attribute.all, (∀ i, a ≠ .fanDiv i) → apart [regFanDiv] (t.targets a)
  mainCtrl : ∀ a ∈ Attribute.all, (∀ i, a ≠ .pwmEnable i) → apart [regFanMainCtrl] (t.targets a)
  ctl : ∀ a ∈ Attribute.all, a.channel ≠ none → (∀ i, a ≠ .pwmEnable i) →
    apart [regFanCtl] (t.targets a)
  extra : ∀ a ∈ Attribute.all, a.channel ≠ none → apart [regTempExtra] (t.targets a)
  controls : ∀ nr, ∀ a ∈ Attribute.all, a.Spares nr → apart [entry t.pwm nr] (t.targets a)
  control : ∀ nr : Fin 6, apart [entry t.pwm nr]
    [regConfig, regPwmDuty nr, regFanCtl, regFanMainCtrl]
  points : ∀ nr < 6, ∀ i < 6, (t.channelRegs nr).contains (regAutoTemp nr i) ∧
    apart [regAutoTemp nr i] [regConfig, regFanCtl, regFanMainCtrl, entry t.pwm nr]
  config : ∀ m < 6, apart [regConfig] (t.channelRegs m)
  measured : ∀ newer, apart ([regFanDiv, regFanMainCtrl] ++ (List.range 6).map (entry t.pwm))
    (t.inputs newer)
  pointsMeasured : ∀ nr < 6, ∀ i < 6, ∀ newer, (i = 3 → newer = false) →
    apart [regAutoTemp nr i] (t.inputs newer)
  limits : ∀ i < 8, regVinMin i ≠ regFanMainCtrl ∧
    (i < 6 → entry t.tempHigh i ≠ regFanMainCtrl) ∧ (i < 3 → entry t.fanMin i ≠ regFanDiv)

theorem Chips.laidOut (type : Chips) : type.tables.LaidOut := by
  refine type.forall_tables ?_ ?_ ?_ ?_
  all_goals constructor <;> decide +kernel

/-- The registers of a channel are targets of the attributes bound to it only. -/
theorem targets_apart (type : Chips) {a : Attribute} {m : ℕ} (hm : m < 6)
    (ha : a.channel ≠ some m) {reg : Word} (hr : reg ∈ type.tables.channelRegs m) :
    reg ∉ type.tables.targets a := by
  intro ht
  exact apart_iff.mp (type.laidOut.channels a a.mem_all m hm ha) reg ht hr

theorem channelRegs_ne_config (type : Chips) {m : ℕ} (hm : m < 6) :
    regConfig ∉ type.tables.channelRegs m := notMem_of_apart (type.laidOut.config m hm)

/-- The registers of a channel's trip points are among its registers, and neither its control
register nor, but for the duty cycle, anything that is measured. -/
theorem autoTemp_apart (type : Chips) {nr i : ℕ} (hnr : nr < 6) (hi : i < 6) :
    regAutoTemp nr i ∈ type.tables.channelRegs nr ∧
      regAutoTemp nr i ∉ [regConfig, regFanCtl, regFanMainCtrl, entry type.tables.pwm nr] ∧
      ∀ newer, (i = 3 → newer = false) → regAutoTemp nr i ∉ type.tables.inputs newer := by
  obtain ⟨hmem, hothers⟩ := type.laidOut.points nr hnr i hi
  refine ⟨by simpa using hmem, notMem_of_apart hothers, fun newer hn => ?_⟩
  exact notMem_of_apart (type.laidOut.pointsMeasured nr hnr i hi newer hn)

namespace It87Chip

variable {a : Attribute}

theorem inputs_subset (c : It87Chip) :
    c.inputs ⊆ c.type.tables.inputs (c.has .newerAutopwm) := by
  intro reg h
  have hfan : ∀ l : List Word, l.length = 6 → (List.range 6).map (entry l) ⊆ l := by
    intro l hl r hr
    obtain ⟨i, hi, rfl⟩ := List.mem_map.mp hr
    have hi : i < l.length := hl ▸ List.mem_range.mp hi
    rw [entry, List.getD_eq_getElem?_getD, List.getElem?_eq_getElem hi]
    exact List.getElem_mem hi
  have hlen : c.type.tables.fan.length = 6 ∧ c.type.tables.fanx.length = 6 :=
    c.type.forall_tables (P := fun t => t.fan.length = 6 ∧ t.fanx.length = 6) ⟨rfl, rfl⟩
      ⟨rfl, rfl⟩ ⟨rfl, rfl⟩ ⟨rfl, rfl⟩
  simp only [inputs, List.mem_append] at h
  simp only [Tables.inputs, List.mem_append]
  rcases h with ((((h | h) | h) | h) | h) | h
  · exact .inl (.inl (.inl (.inl (.inl h))))
  · exact .inl (.inl (.inl (.inl (.inr h))))
  · exact .inl (.inl (.inl (.inr (hfan _ hlen.1 h))))
  · exact .inl (.inl (.inr (hfan _ hlen.2 h)))
  · exact .inl (.inr h)
  · exact .inr h

/-- Neither of the registers that all fans share is measured, nor is a control register. -/
theorem notMem_inputs (c : It87Chip) {reg : Word}
    (h : reg ∈ [regFanDiv, regFanMainCtrl] ++ (List.range 6).map c.regPwm) : reg ∉ c.inputs :=
  fun hi => apart_iff.mp (c.type.laidOut.measured _) reg h (c.inputs_subset hi)

theorem fanDiv_apart (c : It87Chip) :
    regFanDiv ∉ c.inputs ∧
      ∀ a : Attribute, (∀ i, a ≠ .fanDiv i) → regFanDiv ∉ c.type.tables.targets a :=
  ⟨c.notMem_inputs (by simp), fun a ha =>
    notMem_of_apart (c.type.laidOut.fanDiv a a.mem_all ha)⟩

theorem mainCtrl_apart (c : It87Chip) :
    regFanMainCtrl ∉ c.inputs ∧
      ∀ a : Attribute, (∀ i, a ≠ .pwmEnable i) → regFanMainCtrl ∉ c.type.tables.targets a :=
  ⟨c.notMem_inputs (by simp), fun a ha =>
    notMem_of_apart (c.type.laidOut.mainCtrl a a.mem_all ha)⟩

theorem ctl_apart (c : It87Chip) (hc : a.channel ≠ none) (ha : ∀ i, a ≠ .pwmEnable i) :
    regFanCtl ∉ c.type.tables.targets a :=
  notMem_of_apart (c.type.laidOut.ctl a a.mem_all hc ha)

theorem extra_apart (c : It87Chip) (hc : a.channel ≠ none) :
    regTempExtra ∉ c.type.tables.targets a :=
  notMem_of_apart (c.type.laidOut.extra a a.mem_all hc)

theorem regPwm_apart (c : It87Chip) (nr : Fin 6) :
    c.regPwm nr ∉ c.inputs ∧
      ∀ a : Attribute, a.Spares nr → c.regPwm nr ∉ c.type.tables.targets a := by
  refine ⟨c.notMem_inputs ?_, fun a ha => ?_⟩
  · exact List.mem_append_right _ (List.mem_map.mpr ⟨nr, List.mem_range.mpr nr.isLt, rfl⟩)
  · exact notMem_of_apart (c.type.laidOut.controls nr a a.mem_all ha)

theorem regPwm_ne (c : It87Chip) (nr : Fin 6) :
    c.regPwm nr ≠ regConfig ∧ c.regPwm nr ≠ regPwmDuty nr ∧ c.regPwm nr ≠ regFanCtl ∧
      c.regPwm nr ≠ regFanMainCtrl := by
  have h : c.regPwm nr ∉ [regConfig, regPwmDuty nr, regFanCtl, regFanMainCtrl] :=
    notMem_of_apart (c.type.laidOut.control nr)
  simpa using h

theorem regFanMin_ne (c : It87Chip) (i : Fin 3) : c.regFanMin i ≠ regFanDiv :=
  (c.type.laidOut.limits i (by omega)).2.2 i.isLt

end It87Chip

end BuffaloNas.It87
