import BuffaloNas.It87.Effects
import BuffaloNas.It87.Frequencies
import BuffaloNas.It87.SensorTypes
import BuffaloNas.It87.Settings

/-! What storing in each attribute makes of the copies of the settings. -/
namespace BuffaloNas.It87
open Interaction Program SuperIo World

namespace It87Chip

variable {c : It87Chip} {w : World} {x : Setting} {a : Attribute} {buf : List Char} {nr : ℕ}

/-! ### Channels -/

/-- The copy is as it was, or it has been taken from the registers again. -/
def Kept (c : It87Chip) (x : Setting) (w t : World) : Prop :=
  x.cached t.data = x.cached w.data ∨
    c.reads x = true ∧ x.cached t.data = c.settingOf t.regs x

theorem cached_withChannels (d : It87Data) (g : ℕ → Channel) :
    x.cached (d.withChannels g) = x.cached d := by
  cases x <;> rfl

theorem cached_setPwmEnable (w : World) :
    x.cached ((c.setPwmEnable nr buf).run device w).2.data = x.cached w.data := by
  by_cases hen : ∃ val, c.enables w.data nr buf val
  case neg => rw [run_setPwmEnable_refused hen]
  obtain ⟨val, hval⟩ := hen
  rw [run_setPwmEnable hval]
  dsimp only
  split
  · split
    · simp only [setOnOff, run_bind, run_readValue, andThen_ok, run_writeValue, run_getData,
        run_assign]
      cases x <;> rfl
    · simp only [setFullSpeed, run_bind, run_assign, andThen_ok, run_writeValue, run_getData,
        run_storeCtrl]
      cases x <;> rfl
  · simp only [setMode, run_bind, run_getData, andThen_ok, run_storeCtrl]
    split
    · simp only [run_bind, run_assign, andThen_ok, run_writeValue]
      cases x <;> rfl
    · cases x <;> rfl

theorem cached_setPwm (w : World) :
    x.cached ((c.setPwm nr buf).run device w).2.data = x.cached w.data := by
  by_cases hval : ∃ val, c.kstrtol buf = some val ∧ 0 ≤ val ∧ val ≤ 255
  case neg => rw [run_setPwm_refused hval]
  obtain ⟨val, hval, hrange⟩ := hval
  rw [run_setPwm hval hrange]
  dsimp only
  split
  · exact cached_withChannels _ _
  · simp only [setDuty, run_bind, run_assign, andThen_ok]
    split
    · rw [run_writeValue]
      cases x <;> rfl
    · simp only [run_bind, run_getData, andThen_ok]
      split
      · rw [run_storeCtrl]
        cases x <;> rfl
      · cases x <;> rfl

theorem cached_setPwmTempMap (w : World) :
    x.cached ((c.setPwmTempMap nr buf).run device w).2.data = x.cached w.data := by
  cases hmap : c.mappingIn nr buf with
  | none => rw [run_setPwmTempMap_refused hmap]
  | some m =>
    rw [run_setPwmTempMap hmap]
    dsimp only
    split
    · rw [run_storeCtrl]
      cases x <;> rfl
    · cases x <;> rfl

theorem cached_setAutoPwm {point : ℕ} (w : World) :
    x.cached ((c.setAutoPwm nr point buf).run device w).2.data = x.cached w.data := by
  by_cases hval : ∃ val, c.kstrtol buf = some val ∧ 0 ≤ val ∧ val ≤ 255
  case neg => rw [run_setAutoPwm_refused hval]
  obtain ⟨val, hval, hrange⟩ := hval
  rw [run_setAutoPwm hval hrange]
  cases x <;> rfl

theorem cached_setAutoPwmSlope (w : World) :
    x.cached ((c.setAutoPwmSlope nr buf).run device w).2.data = x.cached w.data := by
  by_cases hval : ∃ val, c.kstrtoul buf = some val ∧ val ≤ 127
  case neg => rw [run_setAutoPwmSlope_refused hval]
  obtain ⟨val, hval, hrange⟩ := hval
  rw [run_setAutoPwmSlope hval hrange]
  cases x <;> rfl

theorem cached_setAutoTemp {point : ℕ} (w : World) :
    x.cached ((c.setAutoTemp nr point buf).run device w).2.data = x.cached w.data := by
  by_cases hval : ∃ val, c.kstrtol buf = some val ∧ -128000 ≤ val ∧ val ≤ 127000
  case neg => rw [run_setAutoTemp_refused hval]
  obtain ⟨val, hval, hrange⟩ := hval
  rw [run_setAutoTemp hval hrange]
  cases x <;> rfl

/-! ### Sensors and fans -/

theorem put_apply {α : Type} (t : ℕ → ℕ → α) (i j k l : ℕ) (v : α) :
    put t i j v k l = if k = i ∧ l = j then v else t k l := by
  unfold put
  by_cases hk : k = i
  · subst hk
    by_cases hl : l = j <;> simp [hl]
  · simp [hk]

theorem invalid_enableOffsets (w : World) :
    ∃ t, enableOffsets.run device w = (.ok (), t) ∧ t.data = { w.data with valid := false } := by
  simp only [enableOffsets, run_bind, run_readValue, andThen_ok]
  split <;> simp

/-- Storing an offset has the cache read again. -/
theorem data_setTemp_offset {val : ℤ} (hval : c.kstrtol buf = some val) (nr : ℕ) (w : World) :
    ((c.setTemp nr 3 buf).run device w).2.data = { w.data with
      valid := false
      temp := put w.data.temp nr 3 (BitVec.ofInt 8 (c.tempToReg val)) } := by
  obtain ⟨t, ht, hdata⟩ := invalid_enableOffsets w
  simp [setTemp, hval, ht, hdata]

theorem run_setBeep {bitnr : ℕ} {val : ℤ} (hval : c.kstrtol buf = some val)
    (hbit : val = 0 ∨ val = 1) (w : World) :
    ∃ v, ((c.setBeep bitnr buf).run device w).2 =
      (w.assign fun d => { d with beeps := v }).write regBeepEnable v := by
  rcases hbit with rfl | rfl
  · exact ⟨_, by simp [setBeep, hval]; rfl⟩
  · exact ⟨_, by simp [setBeep, hval]; rfl⟩

theorem run_setBeep_refused {bitnr : ℕ}
    (h : ¬ ∃ val, c.kstrtol buf = some val ∧ (val = 0 ∨ val = 1)) (w : World) :
    (c.setBeep bitnr buf).run device w = (.ok (-einval), w) := by
  unfold setBeep
  cases hval : c.kstrtol buf with
  | none => rfl
  | some val =>
    have hbit : val ≠ 0 ∧ val ≠ 1 := by
      refine ⟨?_, ?_⟩
      · rintro rfl
        exact h ⟨0, hval, .inl rfl⟩
      · rintro rfl
        exact h ⟨1, hval, .inr rfl⟩
    simp [hbit]

theorem data_clearIntrusion (c : It87Chip) (buf : List Char) (w : World) :
    ((c.clearIntrusion buf).run device w).2 = w ∨
    ((c.clearIntrusion buf).run device w).2.data = { w.data with valid := false } := by
  by_cases hval : c.kstrtol buf = some 0
  · exact .inr (by simp [clearIntrusion, hval])
  · exact .inl (by simp [clearIntrusion, hval])

/-- What storing in an attribute makes of the copies: those of its own settings go to the registers
as well, unless the cache is to be read again. -/
structure Sets (c : It87Chip) (a : Attribute) (w t : World) : Prop where
  others : ∀ x, x ∉ a.sets → c.Kept x w t
  own : t.data.valid = true → c.Mirrored w → ∀ x ∈ a.sets, c.reads x = true →
    x.cached t.data = c.settingOf t.regs x

theorem Sets.refl (c : It87Chip) (a : Attribute) (w : World) : c.Sets a w w where
  others _ _ := .inl rfl
  own hv h _ _ hread := h.cached hv hread

theorem Sets.invalid {t : World} (hv : t.data.valid = false)
    (h : ∀ x, x ∉ a.sets → x.cached t.data = x.cached w.data) : c.Sets a w t where
  others x hx := .inl (h x hx)
  own hv' _ := absurd hv' (by rw [hv]; decide)

theorem Sets.bystander {t : World} (ha : a.sets = [])
    (h : ∀ x : Setting, x.cached t.data = x.cached w.data) : c.Sets a w t where
  others x _ := .inl (h x)
  own _ _ x hx := by
    rw [ha] at hx
    cases hx

theorem Sets.one {y : Setting} {t : World} (ha : a.sets = [y])
    (hother : ∀ x, x ≠ y → x.cached t.data = x.cached w.data)
    (hown : y.cached t.data = c.settingOf t.regs y) : c.Sets a w t where
  others x hx := .inl (hother x fun h => hx (by rw [ha, h]; exact List.mem_singleton_self y))
  own _ _ x hx _ := by
    rw [ha, List.mem_singleton] at hx
    rw [hx]
    exact hown

theorem sets_inMin (i : Fin 8) (w : World) :
    c.Sets (.inMin i) w ((c.setIn i 1 buf).run device w).2 := by
  cases hval : c.kstrtoul buf with
  | none => simpa [setIn, hval] using Sets.refl c (.inMin i) w
  | some val =>
    rw [run_setIn i 1 w hval]
    refine .one rfl (fun x hx => ?_) (by simp [Setting.cached, settingOf])
    cases x <;> simp_all [Setting.cached, put_apply, Fin.ext_iff]

theorem sets_inMax (i : Fin 8) (w : World) :
    c.Sets (.inMax i) w ((c.setIn i 2 buf).run device w).2 := by
  cases hval : c.kstrtoul buf with
  | none => simpa [setIn, hval] using Sets.refl c (.inMax i) w
  | some val =>
    rw [run_setIn i 2 w hval]
    refine .one rfl (fun x hx => ?_) (by simp [Setting.cached, settingOf])
    cases x <;> simp_all [Setting.cached, put_apply, Fin.ext_iff]

theorem sets_tempMin (i : Fin 6) (w : World) :
    c.Sets (.tempMin i) w ((c.setTemp i 1 buf).run device w).2 := by
  cases hval : c.kstrtol buf with
  | none => simpa [setTemp, hval] using Sets.refl c (.tempMin i) w
  | some val =>
    rw [run_setTemp i 1 w hval (by decide)]
    refine .one rfl (fun x hx => ?_) (by simp [Setting.cached, settingOf])
    cases x <;> simp_all [Setting.cached, put_apply, Fin.ext_iff]

theorem sets_tempMax (i : Fin 6) (w : World) :
    c.Sets (.tempMax i) w ((c.setTemp i 2 buf).run device w).2 := by
  cases hval : c.kstrtol buf with
  | none => simpa [setTemp, hval] using Sets.refl c (.tempMax i) w
  | some val =>
    rw [run_setTemp i 2 w hval (by decide)]
    refine .one rfl (fun x hx => ?_) (by simp [Setting.cached, settingOf])
    cases x <;> simp_all [Setting.cached, put_apply, Fin.ext_iff]

theorem sets_tempOffset (i : Fin 6) (w : World) :
    c.Sets (.tempOffset i) w ((c.setTemp i 3 buf).run device w).2 := by
  cases hval : c.kstrtol buf with
  | none => simpa [setTemp, hval] using Sets.refl c (.tempOffset i) w
  | some val =>
    have hdata := data_setTemp_offset hval i w
    refine .invalid (by rw [hdata]) fun x hx => ?_
    rw [hdata]
    cases x <;> simp_all [Setting.cached, put_apply, Fin.ext_iff, Attribute.sets]

/-- Storing a type has the cache read again. -/
theorem sets_tempType (i : Fin 6) (w : World) :
    c.Sets (.tempType i) w ((c.setTempType i buf).run device w).2 := by
  cases hval : c.kstrtol buf with
  | none => simpa [setTempType, hval] using Sets.refl c (.tempType i) w
  | some val =>
    cases ht : c.typed (c.clearType (w.regs regTempEnable) i val)
        (c.clearExtra (w.regs regTempExtra) i val) i (modern val) with
    | none =>
      have hno : ¬ c.Settable i val := by
        intro hs
        have hsome : (c.typed (c.clearType (w.regs regTempEnable) i val)
            (c.clearExtra (w.regs regTempExtra) i val) i (modern val)).isSome = true :=
          (isSome_typed ..).mpr hs
        rw [ht] at hsome
        cases hsome
      rw [run_setTempType_refused hval hno]
      exact .refl c _ w
    | some stored =>
      obtain ⟨sensor, extra⟩ := stored
      rw [run_setTempType hval ht]
      have hdata : (c.retyped w i sensor extra).data =
          { w.data with sensor, extra, valid := false } := by
        unfold retyped
        split <;> rfl
      refine .invalid (by rw [hdata]) fun x hx => ?_
      rw [hdata]
      cases x
      case freq2 => exact absurd (List.mem_singleton_self _) hx
      all_goals rfl

theorem sets_beep {bitnr : ℕ} (ha : a.sets = [.beeps]) (w : World) :
    c.Sets a w ((c.setBeep bitnr buf).run device w).2 := by
  by_cases hval : ∃ val, c.kstrtol buf = some val ∧ (val = 0 ∨ val = 1)
  case neg =>
    rw [run_setBeep_refused hval]
    exact .refl c a w
  obtain ⟨val, hval, hbit⟩ := hval
  obtain ⟨v, hv⟩ := run_setBeep hval hbit w
  rw [hv]
  refine .one ha (fun x hx => ?_) (by simp [Setting.cached, settingOf])
  cases x
  case beeps => exact absurd rfl hx
  all_goals rfl

/-! ### Fans -/

theorem joined (v : Word) :
    (v.setWidth 8).setWidth 16 ||| ((v >>> 8).setWidth 8).setWidth 16 <<< 8 = v := by
  ext i hi
  by_cases h : i < 8
  · simp [h, hi]
  · have h8 : i - 8 < 8 := by omega
    have hsum : 8 + (i - 8) = i := by omega
    simp [h, hi, h8, hsum]

theorem sets_setFan16 {i : Fin 6} {val : ℤ} (h16 : c.has .fans16bit = true) (w : World) :
    c.Sets (.fanMin i) w ((c.setFan16 i 1 val).run device w).2 := by
  unfold setFan16
  cases hv : c.fan16ToReg val with
  | none => exact .refl c _ w
  | some v =>
    have hne : c.regFanMin i ≠ c.regFanxMin i := c.type.settingsApart.words i
    simp only [run_bind, run_assign, andThen_ok, run_writeValue]
    refine .one rfl (fun x hx => ?_) ?_
    · cases x <;> simp_all [Setting.cached, put_apply, Fin.ext_iff]
    · simp only [Setting.cached, settingOf, h16, if_true, data_write, data_assign, regs_write,
        regs_assign, Function.update_self, Function.update_of_ne hne, put_self, joined]

/-- Storing the limit of a fan with a divisor reads the divisor again. -/
theorem data_setFan8 (c : It87Chip) (i : Fin 6) (val : ℤ) (w : World) :
    ∃ v : Byte, ((c.setFan8 i 1 val).run device w).2.regs =
        Function.update w.regs (c.regFanMin i) v ∧
      ((c.setFan8 i 1 val).run device w).2.data = { w.data with
        fan := put w.data.fan i 1 (v.setWidth 16)
        fanDiv := if i.val < 3 then
          Function.update w.data.fanDiv i (fanDivOf (w.regs regFanDiv) i) else w.data.fanDiv } := by
  by_cases hi : i.val < 3
  · exact ⟨_, by simp [setFan8, hi]; rfl, by simp [setFan8, hi]⟩
  · exact ⟨_, by simp [setFan8, hi]; rfl, by simp [setFan8, hi]⟩

theorem reads_fanDiv {i : Fin 6} (hi : i.val < 3) (hfan : c.hasFan.getLsbD i = true)
    (h16 : c.has .fans16bit = false) : c.reads (.fanDiv i) = true := by
  have hne : ¬ c.hasFan &&& 7#8 = 0#8 := by
    intro h0
    have hbit : (c.hasFan &&& 7#8).getLsbD i = true := by
      rw [BitVec.getLsbD_and, hfan]
      have hseven : ∀ k < 3, (7#8).getLsbD k = true := by decide
      exact hseven i hi
    rw [h0] at hbit
    simp at hbit
  simp [reads, hne, h16, hi]

theorem sets_setFan8 {i : Fin 6} {val : ℤ} (h16 : c.has .fans16bit = false)
    (hfan : c.hasFan.getLsbD i = true) (w : World) :
    c.Sets (.fanMin i) w ((c.setFan8 i 1 val).run device w).2 := by
  obtain ⟨v, hregs, hdata⟩ := data_setFan8 c i val w
  refine ⟨fun x hx => ?_, fun _ _ x hx _ => ?_⟩
  · cases x
    case fanMin j =>
      have hji : j ≠ i := fun h => hx (by rw [h]; exact List.mem_singleton_self _)
      refine .inl ?_
      rw [hdata]
      simp [Setting.cached, put_apply, Fin.val_inj, hji]
    case fanDiv j =>
      by_cases hj : j = i ∧ i.val < 3
      · obtain ⟨rfl, hlt⟩ := hj
        have hreg : c.regFanMin j ≠ regFanDiv := c.regFanMin_ne ⟨j, hlt⟩
        refine .inr ⟨reads_fanDiv hlt hfan h16, ?_⟩
        rw [hdata, hregs]
        simp [Setting.cached, settingOf, hlt, hreg.symm]
      · refine .inl ?_
        rw [hdata]
        simp only [Setting.cached]
        split
        case isTrue hlt =>
          have hji : j.val ≠ i := fun h => hj ⟨Fin.ext h, hlt⟩
          rw [Function.update_of_ne hji]
        case isFalse => rfl
    all_goals
      refine .inl ?_
      rw [hdata]
      rfl
  · obtain rfl := List.mem_singleton.mp hx
    rw [hdata, hregs]
    simp [Setting.cached, settingOf, h16]

theorem sets_fanMin {i : Fin 6} (hfan : c.hasFan.getLsbD i = true) (w : World) :
    c.Sets (.fanMin i) w ((c.setFan i 1 buf).run device w).2 := by
  cases hval : c.kstrtol buf with
  | none => simpa [setFan, hval] using Sets.refl c (.fanMin i) w
  | some val =>
    have hend : ∀ r : Except Fault Unit × World, (andThen r fun _ t =>
        andThen (mutexUnlock.run device t) fun _ t =>
          (pure (buf.length : ℤ) : Driver ℤ).run device t).2 = r.2 := by
      rintro ⟨e | u, t⟩ <;> rfl
    cases h16 : c.has .fans16bit
    · have hrun : ((c.setFan i 1 buf).run device w).2 = ((c.setFan8 i 1 val).run device w).2 := by
        simp only [setFan, hval, run_bind, run_mutexLock, andThen_ok, h16, Bool.false_eq_true,
          if_false]
        exact hend _
      rw [hrun]
      exact sets_setFan8 h16 hfan w
    · have hrun : ((c.setFan i 1 buf).run device w).2 = ((c.setFan16 i 1 val).run device w).2 := by
        simp only [setFan, hval, run_bind, run_mutexLock, andThen_ok, h16, if_true]
        exact hend _
      rw [hrun]
      exact sets_setFan16 h16 w

theorem widened {x y : Byte} (h : x.setWidth 16 = y.setWidth 16) : x = y := by
  have h8 := congrArg (BitVec.setWidth 8) h
  simpa using h8

theorem divToReg_le (val : ℕ) : divToReg val ≤ 7 := by
  rw [divToReg_eq]
  split <;> omega

/-- The divisor that is stored is the one that is read again. -/
theorem packed_newDiv (i val : ℕ) : packed i (newDiv i val) = newDiv i val := by
  have hle := divToReg_le val
  by_cases h2 : i < 2
  · simp only [packed, newDiv, h2, if_true]
    have hseven : ∀ n ≤ 7, BitVec.ofNat 8 n &&& 0x07 = BitVec.ofNat 8 n := by decide
    exact hseven _ hle
  · simp only [packed, newDiv, h2, if_false]
    split <;> simp

/-- Storing a divisor stores the others again, as the cache has them. -/
theorem sets_fanDiv {i : Fin 3} (h16 : c.has .fans16bit = false) (w : World) :
    c.Sets (.fanDiv i) w ((c.setFanDiv i buf).run device w).2 := by
  cases hval : c.kstrtoul buf with
  | none => simpa [setFanDiv, hval] using Sets.refl c (.fanDiv i) w
  | some val =>
    have hmin := c.regFanMin_ne i
    have hrun : ∃ v : Byte, ((c.setFanDiv i buf).run device w).2 =
        ((w.assign fun d => { d with
          fan := put d.fan i 1 (v.setWidth 16)
          fanDiv := Function.update w.data.fanDiv i (newDiv i val) }).write regFanDiv
            (packDivs (w.regs regFanDiv) (Function.update w.data.fanDiv i (newDiv i val)))).write
          (c.regFanMin i) v := ⟨_, by simp [setFanDiv, hval]; rfl⟩
    obtain ⟨v, hv⟩ := hrun
    rw [hv]
    refine ⟨fun x hx => .inl ?_, fun hvalid hset x hx hread => ?_⟩
    · cases x
      case fanMin j =>
        have hji : j.val ≠ i := fun h => hx (List.mem_cons.mpr (.inl (congrArg _ (Fin.ext h))))
        simp [Setting.cached, put_apply, hji]
      case fanDiv j => exact absurd (by simp [Attribute.sets]) hx
      all_goals rfl
    · rcases List.mem_cons.mp hx with rfl | hx
      · simp [Setting.cached, settingOf, h16]
      · obtain ⟨j, -, rfl⟩ := List.mem_map.mp hx
        have hj : j.val < 3 := by
          simp only [reads, Bool.and_eq_true, decide_eq_true_eq] at hread
          exact hread.2
        have hold : w.data.fanDiv j = fanDivOf (w.regs regFanDiv) j :=
          widened (hset.cached hvalid hread)
        have hpacked : packed j (Function.update w.data.fanDiv i (newDiv i val) j) =
            Function.update w.data.fanDiv i (newDiv i val) j := by
          by_cases hji : j.val = i
          · rw [hji, Function.update_self]
            exact packed_newDiv i val
          · rw [Function.update_of_ne hji, hold]
            exact packed_fanDivOf _ _
        simp only [Setting.cached, settingOf, data_write, data_assign, regs_write,
          Function.update_of_ne hmin.symm, Function.update_self, fanDivOf_packDivs _ _ hj, hpacked]

/-! ### Frequencies -/

theorem sets_pwmFreq (i : Fin 6) (w : World) :
    c.Sets (.pwmFreq i) w ((c.setPwmFreq i buf).run device w).2 := by
  cases hval : c.kstrtoul buf with
  | none => simpa [setPwmFreq, hval] using Sets.refl c (.pwmFreq i) w
  | some val =>
    have hne : regFanCtl ≠ regTempExtra := by decide
    rw [run_setPwmFreq w i hval]
    by_cases hi : i.val = 0
    · have ht : tuned w i (c.freqIndex val) = (w.assign fun d =>
          { d with fanCtl := select (w.regs regFanCtl) (c.freqIndex val) }).write regFanCtl
            (select (w.regs regFanCtl) (c.freqIndex val)) := by
        simp [tuned, freqReg, hi]
      dsimp only
      rw [ht]
      refine ⟨fun x hx => .inl ?_, fun hv hset x hx _ => ?_⟩
      · cases x
        case freq => exact absurd (by simp [Attribute.sets]) hx
        all_goals rfl
      · have hx : x = .freq ∨ x = .freq2 := by simpa [Attribute.sets] using hx
        rcases hx with rfl | rfl
        · simp [Setting.cached, settingOf]
        · have hold := hset.cached hv (rfl : c.reads .freq2 = true)
          simp only [settingOf, regs_write, regs_assign, Function.update_of_ne hne.symm]
          exact hold
    · have ht : tuned w i (c.freqIndex val) = (w.assign fun d =>
          { d with extra := select (w.regs regTempExtra) (c.freqIndex val) }).write regTempExtra
            (select (w.regs regTempExtra) (c.freqIndex val)) := by
        simp [tuned, freqReg, hi]
      dsimp only
      rw [ht]
      refine ⟨fun x hx => .inl ?_, fun hv hset x hx _ => ?_⟩
      · cases x
        case freq2 => exact absurd (by simp [Attribute.sets]) hx
        all_goals rfl
      · have hx : x = .freq ∨ x = .freq2 := by simpa [Attribute.sets] using hx
        rcases hx with rfl | rfl
        · have hold := hset.cached hv (rfl : c.reads .freq = true)
          simp only [settingOf, regs_write, regs_assign, Function.update_of_ne hne]
          exact hold
        · simp [Setting.cached, settingOf]

end It87Chip

end BuffaloNas.It87
