import BuffaloNas.It87.Layout

/-! What storing in an attribute keeps its hands off. -/
namespace BuffaloNas.It87
open Interaction Program SuperIo World

/-! ### What a store touches -/

/-- The data that storing in an attribute leaves alone. -/
structure Untouched (a : Attribute) (d d' : It87Data) : Prop where
  channel : ∀ nr, a.channel ≠ some nr → d'.channel nr = d.channel nr
  fanDiv : (∀ i, a ≠ .fanMin i) → (∀ i, a ≠ .fanDiv i) → d'.fanDiv = d.fanDiv
  fanMainCtrl : (∀ i, a ≠ .pwmEnable i) → d'.fanMainCtrl = d.fanMainCtrl
  lastUpdated : d'.lastUpdated = d.lastUpdated
  valid : a.channel ≠ none → d'.valid = d.valid
  invalid : d'.valid = true → d.valid = true
  fanCtl : a.channel ≠ none → d'.fanCtl = d.fanCtl
  extra : a.channel ≠ none → d'.extra = d.extra

/-- An operation that storing in an attribute may perform. -/
def It87Chip.Confined (c : It87Chip) (a : Attribute) : It87Op → Prop
  | .writeValue reg _ => reg ∈ c.type.tables.targets a
  | .assign f => ∀ d, Untouched a d (f d)
  | .jiffies => False
  | _ => True

/-- An operation that reads, or changes what the cache holds of one channel. -/
def It87Op.OfChannel (nr : ℕ) : It87Op → Prop
  | readValue _ => True
  | assign f =>
    ∀ d, (∀ m, m ≠ nr → (f d).channel m = d.channel m) ∧ f d = d.withChannels (f d).channel
  | _ => False

namespace It87Chip

variable {c : It87Chip} {a : Attribute} {buf : List Char}

/-- A program that begins with an operation. -/
theorem only_op {α : Type} {P : It87Op → Prop} {o : It87Op} {f : o.Answer → Driver α} (ho : P o)
    (hf : ∀ r, (f r).Only P) : (perform o >>= f : Driver α).Only P := ⟨ho, hf⟩

/-- Giving the lock back is the last thing a store function does. -/
theorem only_end {x : ℤ} : (do
    mutexUnlock
    return x : Driver ℤ).Only (c.Confined a) := ⟨trivial, fun _ => trivial⟩

/-- Data that belongs to no channel. -/
theorem confined_data {f : It87Data → It87Data} (ha : a.channel = none)
    (hf : ∀ d, (f d).channel = d.channel ∧ (f d).fanDiv = d.fanDiv ∧
      (f d).fanMainCtrl = d.fanMainCtrl ∧ (f d).lastUpdated = d.lastUpdated ∧
      ((f d).valid = d.valid ∨ (f d).valid = false)) : c.Confined a (.assign f) := by
  intro d
  obtain ⟨hchannel, hfanDiv, hmain, hlast, hvalid⟩ := hf d
  refine ⟨fun _ _ => by rw [hchannel], fun _ _ => hfanDiv, fun _ => hmain, hlast,
    fun h => absurd ha h, fun h => ?_, fun h => absurd ha h, fun h => absurd ha h⟩
  rcases hvalid with hv | hv
  · exact hv ▸ h
  · rw [hv] at h
    cases h

/-- Data of one channel. -/
theorem confined_ofChannel {o : It87Op} {nr : ℕ} (ha : a.channel = some nr)
    (h : o.OfChannel nr) : c.Confined a o := by
  cases o with
  | readValue reg => trivial
  | assign f =>
    intro d
    obtain ⟨hother, hrest⟩ := h d
    refine ⟨fun m hm => hother m ?_, ?_, ?_, ?_, ?_, fun hv => ?_, ?_, ?_⟩
    · rintro rfl
      exact hm ha
    case refine_6 =>
      rw [hrest] at hv
      exact hv
    all_goals
      intros
      rw [hrest]
      rfl
  | _ => exact h.elim

theorem only_setIn {nr index : ℕ} (ha : a.channel = none)
    (h : (if index = 1 then regVinMin nr else regVinMax nr) ∈ c.type.tables.targets a) :
    (c.setIn nr index buf).Only (c.Confined a) := by
  unfold setIn
  split
  · exact only_pure _
  · refine ⟨trivial, fun _ => ⟨?_, fun _ => ⟨h, fun _ => only_end⟩⟩⟩
    exact confined_data ha fun _ => ⟨rfl, rfl, rfl, rfl, .inl rfl⟩

theorem only_enableOffsets (ha : a.channel = none) (h : regBeepEnable ∈ c.type.tables.targets a) :
    enableOffsets.Only (c.Confined a) := by
  have hvalid : c.Confined a (.assign fun d => { d with valid := false }) :=
    confined_data ha fun _ => ⟨rfl, rfl, rfl, rfl, .inr rfl⟩
  refine ⟨trivial, fun regval => only_ite (fun _ => ?_) fun _ => ?_⟩
  · exact ⟨h, fun _ => ⟨hvalid, fun _ => trivial⟩⟩
  · exact ⟨hvalid, fun _ => trivial⟩

theorem only_setTemp {nr index : ℕ} (ha : a.channel = none)
    (hbeep : index = 3 → regBeepEnable ∈ c.type.tables.targets a)
    (h : (if index = 2 then c.regTempHigh nr else if index = 3 then c.regTempOffset nr
      else c.regTempLow nr) ∈ c.type.tables.targets a) :
    (c.setTemp nr index buf).Only (c.Confined a) := by
  have hput : ∀ v, (do
      assign fun d => { d with temp := put d.temp nr index v }
      writeValue (if index = 2 then c.regTempHigh nr else if index = 3 then c.regTempOffset nr
        else c.regTempLow nr) v
      mutexUnlock
      return (buf.length : ℤ)).Only (c.Confined a) := fun v =>
    ⟨confined_data ha fun _ => ⟨rfl, rfl, rfl, rfl, .inl rfl⟩,
      fun _ => ⟨h, fun _ => only_end⟩⟩
  unfold setTemp
  split
  · exact only_pure _
  · refine ⟨trivial, fun _ => only_ite (fun h3 => ?_) fun _ => hput _⟩
    exact only_bind (only_enableOffsets ha (hbeep h3)) fun _ => hput _

theorem only_setTempType {nr : ℕ} (ha : a.channel = none)
    (he : regTempEnable ∈ c.type.tables.targets a) (hx : regTempExtra ∈ c.type.tables.targets a) :
    (c.setTempType nr buf).Only (c.Confined a) := by
  have hend : (do
      assign fun d => { d with valid := false }
      mutexUnlock
      return (buf.length : ℤ)).Only (c.Confined a) :=
    ⟨confined_data ha fun _ => ⟨rfl, rfl, rfl, rfl, .inr rfl⟩,
      fun _ => only_end⟩
  unfold setTempType
  split
  · exact only_pure _
  · refine ⟨trivial, fun reg => ⟨trivial, fun extra => ?_⟩⟩
    dsimp only [bind_eq, Program.bind]
    split
    · exact only_pure _
    · refine ⟨trivial, fun _ => ⟨confined_data ha fun _ => ⟨rfl, rfl, rfl, rfl, .inl rfl⟩,
        fun _ => ⟨he, fun _ => only_ite (fun _ => ⟨hx, fun _ => hend⟩) fun _ => hend⟩⟩⟩

/-- Data that storing a limit or a divisor of a fan may change. -/
theorem confined_fan {f : It87Data → It87Data} (ha : a.channel = none)
    (hfan : (∃ i, a = .fanMin i) ∨ ∃ i, a = .fanDiv i)
    (hf : ∀ d, (f d).channel = d.channel ∧ (f d).fanMainCtrl = d.fanMainCtrl ∧
      (f d).lastUpdated = d.lastUpdated ∧ (f d).valid = d.valid) : c.Confined a (.assign f) := by
  intro d
  obtain ⟨hchannel, hmain, hlast, hvalid⟩ := hf d
  refine ⟨fun _ _ => by rw [hchannel], fun h1 h2 => ?_, fun _ => hmain, hlast,
    fun h => absurd ha h, fun h => hvalid ▸ h, fun h => absurd ha h, fun h => absurd ha h⟩
  obtain ⟨i, hi⟩ | ⟨i, hi⟩ := hfan
  · exact absurd hi (h1 i)
  · exact absurd hi (h2 i)

theorem only_setFan16 {nr index : ℕ} {val : ℤ} (ha : a.channel = none)
    (hmin : c.regFanMin nr ∈ c.type.tables.targets a)
    (hx : c.regFanxMin nr ∈ c.type.tables.targets a) :
    (c.setFan16 nr index val).Only (c.Confined a) := by
  unfold setFan16
  split
  · exact only_raise _
  · exact ⟨confined_data ha fun _ => ⟨rfl, rfl, rfl, rfl, .inl rfl⟩,
      fun _ => ⟨hmin, fun _ => ⟨hx, fun _ => trivial⟩⟩⟩

theorem only_setFan8 {nr index : ℕ} {val : ℤ} (ha : a.channel = none)
    (hfan : (∃ i, a = .fanMin i) ∨ ∃ i, a = .fanDiv i)
    (hmin : c.regFanMin nr ∈ c.type.tables.targets a) :
    (c.setFan8 nr index val).Only (c.Confined a) := by
  have hend : (do
      let d ← getData
      let v := fanToReg val (divFromReg (d.fanDiv nr))
      assign fun d => { d with fan := put d.fan nr index (v.setWidth 16) }
      writeValue (c.regFanMin nr) v).Only (c.Confined a) :=
    ⟨trivial, fun d => ⟨confined_data ha fun _ => ⟨rfl, rfl, rfl, rfl, .inl rfl⟩,
      fun _ => ⟨hmin, fun _ => trivial⟩⟩⟩
  refine ⟨trivial, fun reg => only_ite (fun _ => ?_) fun _ => hend⟩
  exact ⟨confined_fan ha hfan fun _ => ⟨rfl, rfl, rfl, rfl⟩, fun _ => hend⟩

theorem only_setFan {nr index : ℕ} (ha : a.channel = none)
    (hfan : (∃ i, a = .fanMin i) ∨ ∃ i, a = .fanDiv i)
    (hmin : c.regFanMin nr ∈ c.type.tables.targets a)
    (hx : c.regFanxMin nr ∈ c.type.tables.targets a) :
    (c.setFan nr index buf).Only (c.Confined a) := by
  unfold setFan
  split
  · exact only_pure _
  · refine ⟨trivial, fun _ => only_ite (fun _ => ?_) fun _ => ?_⟩
    · exact only_bind (only_setFan16 ha hmin hx) fun _ => only_end
    · exact only_bind (only_setFan8 ha hfan hmin) fun _ => only_end

theorem only_setFanDiv {nr : ℕ} (ha : a.channel = none) (hfan : ∃ i, a = .fanDiv i)
    (hdiv : regFanDiv ∈ c.type.tables.targets a) (hmin : c.regFanMin nr ∈ c.type.tables.targets a) :
    (c.setFanDiv nr buf).Only (c.Confined a) := by
  unfold setFanDiv
  split
  · exact only_pure _
  · exact ⟨trivial, fun old => ⟨trivial, fun d => ⟨trivial, fun _ =>
      ⟨confined_fan ha (.inr hfan) fun _ => ⟨rfl, rfl, rfl, rfl⟩, fun _ =>
      ⟨hdiv, fun _ =>
      ⟨confined_data ha fun _ => ⟨rfl, rfl, rfl, rfl, .inl rfl⟩, fun _ =>
      ⟨hmin, fun _ => only_end⟩⟩⟩⟩⟩⟩⟩

/-! ### Channels -/

section

variable {nr : ℕ}

theorem ofChannel_ctrl (v : Byte) : It87Op.OfChannel nr
    (.assign fun d => { d with pwmCtrl := Function.update d.pwmCtrl nr v }) :=
  fun d => ⟨fun m hm => by simp [It87Data.channel, hm], rfl⟩

theorem ofChannel_duty (v : Byte) : It87Op.OfChannel nr
    (.assign fun d => { d with pwmDuty := Function.update d.pwmDuty nr v }) :=
  fun d => ⟨fun m hm => by simp [It87Data.channel, hm], rfl⟩

theorem ofChannel_tempMap (v : Byte) : It87Op.OfChannel nr
    (.assign fun d => { d with pwmTempMap := Function.update d.pwmTempMap nr v }) :=
  fun d => ⟨fun m hm => by simp [It87Data.channel, hm], rfl⟩

theorem ofChannel_autoPwm (point : ℕ) (v : Byte) : It87Op.OfChannel nr
    (.assign fun d => { d with autoPwm := put d.autoPwm nr point v }) :=
  fun d => ⟨fun m hm => by simp [It87Data.channel, put_of_ne _ hm], rfl⟩

theorem ofChannel_autoTemp (point : ℕ) (v : Byte) : It87Op.OfChannel nr
    (.assign fun d => { d with autoTemp := put d.autoTemp nr point v }) :=
  fun d => ⟨fun m hm => by simp [It87Data.channel, put_of_ne _ hm], rfl⟩

theorem ofChannel_updateMapping (ctrl : Byte) :
    (c.updateMapping nr ctrl).Only (It87Op.OfChannel nr) := by
  refine only_ite (fun _ => ?_) fun _ => only_ite (fun _ => ?_) fun _ => ?_
  · exact ⟨ofChannel_tempMap _, fun _ => ⟨trivial, fun _ => ⟨ofChannel_duty _, fun _ => trivial⟩⟩⟩
  · exact ⟨ofChannel_tempMap _, fun _ => trivial⟩
  · exact ⟨ofChannel_duty _, fun _ => trivial⟩

theorem ofChannel_updateAuto : (c.updateAuto nr).Only (It87Op.OfChannel nr) := by
  have htemp : ∀ point reg, (do
      let v ← readValue reg
      assign fun d => { d with autoTemp := put d.autoTemp nr point v }).Only
        (It87Op.OfChannel nr) :=
    fun point reg => ⟨trivial, fun v => ⟨ofChannel_autoTemp point v, fun _ => trivial⟩⟩
  have hpwm : ∀ point reg, (do
      let v ← readValue reg
      assign fun d => { d with autoPwm := put d.autoPwm nr point v }).Only
        (It87Op.OfChannel nr) :=
    fun point reg => ⟨trivial, fun v => ⟨ofChannel_autoPwm point v, fun _ => trivial⟩⟩
  refine only_ite (fun _ => ?_) fun _ => only_ite (fun _ => ?_) fun _ => only_pure _
  · exact only_bind (only_forM fun i _ => htemp i _) fun _ => only_forM fun i _ => hpwm i _
  · refine only_op trivial fun hyst => only_op (ofChannel_autoTemp 0 hyst) fun _ => ?_
    refine only_bind (only_forM fun i _ => htemp (i + 1) _) fun _ => ?_
    refine only_op trivial fun start => only_op (ofChannel_autoPwm 0 start) fun _ => ?_
    exact hpwm 1 _

/-- Reading a channel again does nothing to the others. -/
theorem ofChannel_updatePwmCtrl : (c.updatePwmCtrl nr).Only (It87Op.OfChannel nr) := by
  refine only_op trivial fun ctrl => only_op (ofChannel_ctrl ctrl) fun _ => ?_
  exact only_bind (ofChannel_updateMapping ctrl) fun _ => ofChannel_updateAuto

variable (ha : a.channel = some nr)

include ha

theorem only_updatePwmCtrl : (c.updatePwmCtrl nr).Only (c.Confined a) :=
  ofChannel_updatePwmCtrl.mono fun _ h => confined_ofChannel ha h

theorem only_storeCtrl {ctrl : Byte} (hpwm : c.regPwm nr ∈ c.type.tables.targets a) :
    (c.storeCtrl nr ctrl).Only (c.Confined a) :=
  ⟨confined_ofChannel ha (ofChannel_ctrl _), fun _ => ⟨hpwm, fun _ => trivial⟩⟩

theorem only_setDuty {val : ℤ} (hduty : regPwmDuty nr ∈ c.type.tables.targets a)
    (hpwm : c.regPwm nr ∈ c.type.tables.targets a) : (c.setDuty nr val).Only (c.Confined a) := by
  refine only_op (confined_ofChannel ha (ofChannel_duty _)) fun _ => ?_
  refine only_ite (fun _ => ?_) fun _ => ⟨trivial, fun d => ?_⟩
  · exact ⟨hduty, fun _ => trivial⟩
  · exact only_ite (fun _ => only_storeCtrl ha hpwm) fun _ => only_pure _

theorem only_setPwm (hduty : regPwmDuty nr ∈ c.type.tables.targets a)
    (hpwm : c.regPwm nr ∈ c.type.tables.targets a) : (c.setPwm nr buf).Only (c.Confined a) := by
  unfold setPwm
  split
  · exact only_pure _
  · refine only_ite (fun _ => only_pure _) fun _ => only_op trivial fun _ => ?_
    refine only_bind (only_updatePwmCtrl ha) fun _ => only_op trivial fun d => ?_
    refine only_ite (fun _ => only_end) fun _ => ?_
    exact only_bind (only_setDuty ha hduty hpwm) fun _ => only_end

theorem only_setPwmTempMap (hpwm : c.regPwm nr ∈ c.type.tables.targets a) :
    (c.setPwmTempMap nr buf).Only (c.Confined a) := by
  unfold setPwmTempMap
  split
  · exact only_pure _
  · refine only_op trivial fun _ => only_bind (only_updatePwmCtrl ha) fun _ => ?_
    refine only_op (confined_ofChannel ha (ofChannel_tempMap _)) fun _ => ?_
    refine only_op trivial fun d => ?_
    refine only_ite (fun _ => ?_) fun _ => only_end
    exact only_bind (only_storeCtrl ha hpwm) fun _ => only_end

theorem only_setAutoPwm {point : ℕ}
    (h : (if c.has .newerAutopwm then regAutoTemp nr 3 else regAutoPwm nr point) ∈
      c.type.tables.targets a) : (c.setAutoPwm nr point buf).Only (c.Confined a) := by
  unfold setAutoPwm
  split
  · exact only_pure _
  · refine only_ite (fun _ => only_pure _) fun _ => ⟨trivial, fun _ => ?_⟩
    exact ⟨confined_ofChannel ha (ofChannel_autoPwm _ _),
      fun _ => ⟨h, fun _ => only_end⟩⟩

theorem only_setAutoPwmSlope (h : regAutoTemp nr 4 ∈ c.type.tables.targets a) :
    (c.setAutoPwmSlope nr buf).Only (c.Confined a) := by
  unfold setAutoPwmSlope
  split
  · exact only_pure _
  · refine only_ite (fun _ => only_pure _) fun _ => ⟨trivial, fun _ => ⟨trivial, fun d => ?_⟩⟩
    exact ⟨confined_ofChannel ha (ofChannel_autoPwm _ _),
      fun _ => ⟨h, fun _ => only_end⟩⟩

theorem only_setAutoTemp {point : ℕ}
    (hhyst : point = 0 → regAutoTemp nr 5 ∈ c.type.tables.targets a)
    (h : regAutoTemp nr (if c.has .newerAutopwm then point - 1 else point) ∈
      c.type.tables.targets a) : (c.setAutoTemp nr point buf).Only (c.Confined a) := by
  unfold setAutoTemp
  split
  · exact only_pure _
  · refine only_ite (fun _ => only_pure _) fun _ => ⟨trivial, fun _ => ?_⟩
    refine only_ite (fun h0 => ?_) fun _ => ?_
    · exact ⟨trivial, fun d => ⟨confined_ofChannel ha (ofChannel_autoTemp _ _),
        fun _ => ⟨hhyst h0.2, fun _ => only_end⟩⟩⟩
    · exact ⟨confined_ofChannel ha (ofChannel_autoTemp _ _), fun _ => ⟨h, fun _ => only_end⟩⟩

end

/-- Only the mode of a channel changes the cached `FAN_MAIN_CTRL`. -/
theorem confined_fanMainCtrl {i : Fin 6} (ha : a = .pwmEnable i) {v : Byte} :
    c.Confined a (.assign fun d => { d with fanMainCtrl := v }) := by
  subst ha
  exact fun d => ⟨fun _ _ => rfl, fun _ _ => rfl, fun h => absurd rfl (h i), rfl, fun _ => rfl,
    fun h => h, fun _ => rfl, fun _ => rfl⟩

theorem only_setPwmEnable {i : Fin 6} :
    (c.setPwmEnable i buf).Only (c.Confined (.pwmEnable i)) := by
  have ha : (Attribute.pwmEnable i).channel = some i.val := rfl
  have hctl : regFanCtl ∈ c.type.tables.targets (.pwmEnable i) := by simp [Tables.targets]
  have hmain : regFanMainCtrl ∈ c.type.tables.targets (.pwmEnable i) := by simp [Tables.targets]
  have hduty : regPwmDuty i ∈ c.type.tables.targets (.pwmEnable i) := by simp [Tables.targets]
  have hpwm : c.regPwm i ∈ c.type.tables.targets (.pwmEnable i) := by
    simp [Tables.targets, regPwm]
  have honOff : (setOnOff i).Only (c.Confined (.pwmEnable i)) :=
    ⟨trivial, fun _ => ⟨hctl, fun _ => ⟨trivial, fun d => ⟨confined_fanMainCtrl rfl,
      fun _ => ⟨hmain, fun _ => trivial⟩⟩⟩⟩⟩
  have hfull : (c.setFullSpeed i).Only (c.Confined (.pwmEnable i)) :=
    ⟨confined_ofChannel ha (ofChannel_duty _),
      fun _ => ⟨hduty, fun _ => ⟨trivial, fun d => only_storeCtrl ha hpwm⟩⟩⟩
  have hmode : ∀ val, (c.setMode i val).Only (c.Confined (.pwmEnable i)) := fun val => by
    refine only_op trivial fun d => only_bind (only_storeCtrl ha hpwm) fun _ => ?_
    refine only_ite (fun _ => ?_) fun _ => only_pure _
    exact ⟨confined_fanMainCtrl rfl, fun _ => ⟨hmain, fun _ => trivial⟩⟩
  unfold setPwmEnable
  split
  · exact only_pure _
  · refine only_ite (fun _ => only_pure _) fun _ => ⟨trivial, fun d => ?_⟩
    refine only_ite (fun _ => only_pure _) fun _ => ⟨trivial, fun _ => ?_⟩
    refine only_ite (fun _ => ?_) fun _ => ?_
    · refine only_ite (fun _ => ?_) fun _ => ?_
      · exact only_bind honOff fun _ => only_end
      · exact only_bind hfull fun _ => only_end
    · exact only_bind (hmode _) fun _ => only_end

/-! ### The rest -/

theorem only_setPwmFreq {nr : ℕ} (ha : a.channel = none)
    (hctl : regFanCtl ∈ c.type.tables.targets a) (hx : regTempExtra ∈ c.type.tables.targets a) :
    (c.setPwmFreq nr buf).Only (c.Confined a) := by
  unfold setPwmFreq
  split
  · exact only_pure _
  · refine ⟨trivial, fun _ => only_ite (fun _ => ?_) fun _ => ?_⟩
    · exact ⟨trivial, fun reg => ⟨confined_data ha fun _ => ⟨rfl, rfl, rfl, rfl, .inl rfl⟩,
        fun _ => ⟨hctl, fun _ => only_end⟩⟩⟩
    · exact ⟨trivial, fun reg => ⟨confined_data ha fun _ => ⟨rfl, rfl, rfl, rfl, .inl rfl⟩,
        fun _ => ⟨hx, fun _ => only_end⟩⟩⟩

theorem only_clearIntrusion (ha : a.channel = none) (h : regConfig ∈ c.type.tables.targets a) :
    (c.clearIntrusion buf).Only (c.Confined a) := by
  refine only_ite (fun _ => only_pure _) fun _ => ⟨trivial, fun _ => ⟨trivial, fun config => ?_⟩⟩
  exact ⟨h, fun _ => ⟨confined_data ha fun _ => ⟨rfl, rfl, rfl, rfl, .inr rfl⟩,
    fun _ => only_end⟩⟩

theorem only_setBeep {bitnr : ℕ} (ha : a.channel = none)
    (h : regBeepEnable ∈ c.type.tables.targets a) :
    (c.setBeep bitnr buf).Only (c.Confined a) := by
  unfold setBeep
  split
  · exact only_pure _
  · refine only_ite (fun _ => only_pure _) fun _ => ⟨trivial, fun _ => ⟨trivial, fun reg => ?_⟩⟩
    exact ⟨confined_data ha fun _ => ⟨rfl, rfl, rfl, rfl, .inl rfl⟩,
      fun _ => ⟨h, fun _ => only_end⟩⟩

theorem only_storeVrmReg (ha : a.channel = none) :
    (c.storeVrmReg buf).Only (c.Confined a) := by
  unfold storeVrmReg
  split
  · exact only_pure _
  · exact ⟨confined_data ha fun _ => ⟨rfl, rfl, rfl, rfl, .inl rfl⟩,
      fun _ => trivial⟩

theorem only_storeOf {f : List Char → Driver ℤ} (h : c.storeOf a = some f) :
    (f buf).Only (c.Confined a) := by
  cases a
  case inMin i =>
    cases h
    exact only_setIn rfl (by simp [Tables.targets])
  case inMax i =>
    cases h
    exact only_setIn rfl (by simp [Tables.targets])
  case inBeep i =>
    simp only [storeOf, Option.ite_none_right_eq_some, Option.some.injEq] at h
    obtain ⟨-, rfl⟩ := h
    exact only_setBeep rfl (by simp [Tables.targets])
  case tempBeep i =>
    simp only [storeOf, Option.ite_none_right_eq_some, Option.some.injEq] at h
    obtain ⟨-, rfl⟩ := h
    exact only_setBeep rfl (by simp [Tables.targets])
  case fanBeep i =>
    cases h
    exact only_setBeep rfl (by simp [Tables.targets])
  case tempMin i =>
    cases h
    exact only_setTemp rfl (by simp) (by simp [Tables.targets, regTempLow])
  case tempMax i =>
    cases h
    exact only_setTemp rfl (by simp) (by simp [Tables.targets, regTempHigh])
  case tempOffset i =>
    cases h
    exact only_setTemp rfl (by simp [Tables.targets]) (by simp [Tables.targets, regTempOffset])
  case tempType i =>
    cases h
    exact only_setTempType rfl (by simp [Tables.targets]) (by simp [Tables.targets])
  case fanMin i =>
    cases h
    exact only_setFan rfl (.inl ⟨i, rfl⟩) (by simp [Tables.targets, regFanMin])
      (by simp [Tables.targets, regFanxMin])
  case fanDiv i =>
    cases h
    exact only_setFanDiv rfl ⟨i, rfl⟩ (by simp [Tables.targets])
      (by simp [Tables.targets, regFanMin])
  case pwmEnable i =>
    cases h
    exact only_setPwmEnable
  case pwm i =>
    cases h
    exact only_setPwm rfl (by simp [Tables.targets]) (by simp [Tables.targets, regPwm])
  case pwmFreq i =>
    simp only [storeOf, Option.ite_none_right_eq_some, Option.some.injEq] at h
    obtain ⟨-, rfl⟩ := h
    exact only_setPwmFreq rfl (by simp [Tables.targets]) (by simp [Tables.targets])
  case pwmAutoChannelsTemp i =>
    cases h
    exact only_setPwmTempMap rfl (by simp [Tables.targets, regPwm])
  case pwmAutoPointPwm i k =>
    simp only [storeOf, Option.ite_none_right_eq_some, Option.some.injEq] at h
    obtain ⟨hk, rfl⟩ := h
    exact only_setAutoPwm rfl (by split <;> simp [Tables.targets, hk])
  case pwmAutoStart i =>
    cases h
    exact only_setAutoPwm rfl (by split <;> simp [Tables.targets])
  case pwmAutoPointTemp i k =>
    cases h
    exact only_setAutoTemp rfl (by simp) (by split <;> simp [Tables.targets])
  case pwmAutoPoint4Temp i =>
    cases h
    exact only_setAutoTemp rfl (by simp) (by split <;> simp [Tables.targets])
  case pwmAutoPoint1TempHyst i =>
    cases h
    exact only_setAutoTemp rfl (by simp [Tables.targets]) (by split <;> simp [Tables.targets])
  case pwmAutoSlope i =>
    cases h
    exact only_setAutoPwmSlope rfl (by simp [Tables.targets])
  case intrusion0Alarm =>
    cases h
    exact only_clearIntrusion rfl (by simp [Tables.targets])
  case vrm =>
    cases h
    exact only_storeVrmReg rfl
  all_goals cases h

end It87Chip

/-! ### What a store leaves alone -/

theorem Untouched.refl (a : Attribute) (d : It87Data) : Untouched a d d :=
  ⟨fun _ _ => rfl, fun _ _ => rfl, fun _ => rfl, rfl, fun _ => rfl, fun h => h, fun _ => rfl,
    fun _ => rfl⟩

theorem Untouched.trans {a : Attribute} {d d' d'' : It87Data} (h : Untouched a d d')
    (h' : Untouched a d' d'') : Untouched a d d'' where
  channel nr hn := (h'.channel nr hn).trans (h.channel nr hn)
  fanDiv h1 h2 := (h'.fanDiv h1 h2).trans (h.fanDiv h1 h2)
  fanMainCtrl hn := (h'.fanMainCtrl hn).trans (h.fanMainCtrl hn)
  lastUpdated := h'.lastUpdated.trans h.lastUpdated
  valid hn := (h'.valid hn).trans (h.valid hn)
  invalid hv := h.invalid (h'.invalid hv)
  fanCtl hn := (h'.fanCtl hn).trans (h.fanCtl hn)
  extra hn := (h'.extra hn).trans (h.extra hn)

namespace It87Chip

variable {c : It87Chip} {a : Attribute} {buf : List Char}

theorem only_attempt_confined : (c.attempt a buf).Only (c.Confined a) :=
  c.only_attempt fun _ _ hs => only_storeOf hs

/-- Storing in an attribute leaves the data that is not its own alone. -/
theorem untouched_attempt (a : Attribute) (buf : List Char) (w : World) :
    Untouched a w.data ((c.attempt a buf).run device w).2.data := by
  refine only_attempt_confined.run_invariant (I := fun t : World => Untouched a w.data t.data) ?_
    (.refl _ _)
  intro o t ho ht
  cases o
  case assign f => exact ht.trans (ho t.data)
  all_goals exact ht

/-- Storing in an attribute leaves the registers that are not its targets alone. -/
theorem regs_attempt {reg : Word} (h : reg ∉ c.type.tables.targets a) (buf : List Char)
    (w : World) :
    ((c.attempt a buf).run device w).2.regs reg = w.regs reg := by
  refine only_attempt_confined.run_invariant (I := fun t : World => t.regs reg = w.regs reg) ?_ rfl
  intro o t ho ht
  cases o
  case writeValue r v =>
    have hne : reg ≠ r := by
      rintro rfl
      exact h ho
    exact (Function.update_of_ne hne v t.regs).trans ht
  all_goals exact ht

theorem clock_attempt (w : World) : ((c.attempt a buf).run device w).2.clock = w.clock := by
  refine only_attempt_confined.run_invariant (I := fun t : World => t.clock = w.clock) ?_ rfl
  intro o t ho ht
  cases o
  case jiffies => exact absurd ho id
  all_goals exact ht

end It87Chip

namespace It87Chip

variable {c : It87Chip} {reg : Word} {w : World}

/-! ### Registers that an event leaves alone -/

theorem data_vbat (w : World) : (c.vbat w).data = w.data := by
  unfold vbat
  split <;> rfl

theorem regs_vbat (h : reg ≠ regConfig) (w : World) : (c.vbat w).regs reg = w.regs reg := by
  unfold vbat
  split
  · exact Function.update_of_ne h _ _
  · rfl

theorem regs_updated (h : reg ≠ regConfig) : (c.updated w).regs reg = w.regs reg := by
  unfold updated
  split
  · exact regs_vbat h w.ticked
  · rfl

theorem regs_shown (h : reg ≠ regConfig) (a : Attribute) :
    (c.step w (.shown a)).regs reg = w.regs reg := by
  rw [step_shown]
  split
  · exact regs_updated h
  · rfl

theorem regs_measured (h : reg ∉ c.inputs) (r : Word) (v : Byte) :
    (c.step w (.measured r v)).regs reg = w.regs reg := by
  simp only [step]
  split
  case isTrue hr =>
    have hne : reg ≠ r := by
      rintro rfl
      exact h hr
    exact Function.update_of_ne hne v w.regs
  case isFalse => rfl

end It87Chip

end BuffaloNas.It87
