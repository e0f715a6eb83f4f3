import BuffaloNas.It87.Access
import BuffaloNas.It87.Started

/-! Two attributes at a time: which of them keep their accesses under the lock. -/
namespace BuffaloNas.It87
open Interaction Program SuperIo

/-! ### Under the lock -/

/-- What the driver does while it has the lock. -/
def It87Op.Sheltered : It87Op → Prop
  | mutexLock => False
  | mutexUnlock => False
  | writeValue reg _ => reg.setWidth 8 ≠ regBank
  | _ => True

theorem It87Op.Sheltered.inner {o : It87Op} (h : o.Sheltered) : Part.Inner part o := by
  cases o with
  | mutexLock => exact h.elim
  | mutexUnlock => exact h.elim
  | readValue reg => exact .inl rfl
  | writeValue reg v => exact .inl rfl
  | _ => exact .inr rfl

theorem It87Op.Sheltered.sparesBank {o : It87Op} (h : o.Sheltered) : o.SparesBank := by
  cases o with
  | writeValue reg v => exact h
  | _ => trivial

namespace It87Chip

variable {c : It87Chip} {nr : ℕ}

theorem sheltered_updatePwmCtrl : (c.updatePwmCtrl nr).Only It87Op.Sheltered := by
  refine ofChannel_updatePwmCtrl.mono fun o h => ?_
  cases o with
  | readValue reg => trivial
  | assign f => trivial
  | _ => exact h.elim

theorem sheltered_updateIn (i : ℕ) : (c.updateIn i).Only It87Op.Sheltered := by
  refine only_ite (fun _ => only_pure _) fun _ => ?_
  refine only_op trivial fun _ => only_op trivial fun _ => ?_
  refine only_ite (fun _ => only_pure _) fun _ => ?_
  exact ⟨trivial, fun _ => ⟨trivial, fun _ => ⟨trivial, fun _ => ⟨trivial, fun _ => trivial⟩⟩⟩⟩

theorem sheltered_updateFan (i : ℕ) : (c.updateFan i).Only It87Op.Sheltered := by
  refine only_ite (fun _ => only_pure _) fun _ => ?_
  refine ⟨trivial, fun _ => ⟨trivial, fun _ => ⟨trivial, fun _ => ⟨trivial, fun _ => ?_⟩⟩⟩⟩
  refine only_ite (fun _ => ?_) fun _ => only_pure _
  exact ⟨trivial, fun _ => ⟨trivial, fun _ => ⟨trivial, fun _ => ⟨trivial, fun _ => trivial⟩⟩⟩⟩

theorem sheltered_updateTemp (i : ℕ) : (c.updateTemp i).Only It87Op.Sheltered := by
  have hlimits : (do
      let v ← readValue (c.regTempLow i)
      assign fun d => { d with temp := put d.temp i 1 v }
      let v ← readValue (c.regTempHigh i)
      assign fun d => { d with temp := put d.temp i 2 v }).Only It87Op.Sheltered :=
    ⟨trivial, fun _ => ⟨trivial, fun _ => ⟨trivial, fun _ => ⟨trivial, fun _ => trivial⟩⟩⟩⟩
  refine only_ite (fun _ => only_pure _) fun _ => ⟨trivial, fun _ => ⟨trivial, fun _ => ?_⟩⟩
  refine only_ite (fun _ => only_pure _) fun _ => only_ite (fun _ => ?_) fun _ => hlimits
  exact ⟨trivial, fun _ => ⟨trivial, fun _ => hlimits⟩⟩

theorem sheltered_refresh : c.refresh.Only It87Op.Sheltered := by
  have hconfig : regConfig.setWidth 8 ≠ regBank := by decide
  have hvbat : c.updateVbatBit.Only It87Op.Sheltered :=
    only_ite (fun _ => ⟨trivial, fun _ => ⟨hconfig, fun _ => trivial⟩⟩) fun _ => only_pure _
  have hdiv : c.updateFanDiv.Only It87Op.Sheltered :=
    only_ite (fun _ => ⟨trivial, fun _ => ⟨trivial, fun _ => trivial⟩⟩) fun _ => only_pure _
  have halarms : updateAlarms.Only It87Op.Sheltered :=
    ⟨trivial, fun _ => ⟨trivial, fun _ => ⟨trivial, fun _ => ⟨trivial, fun _ =>
      ⟨trivial, fun _ => ⟨trivial, fun _ => trivial⟩⟩⟩⟩⟩⟩
  have hctrl : updateFanCtrl.Only It87Op.Sheltered :=
    ⟨trivial, fun _ => ⟨trivial, fun _ => ⟨trivial, fun _ => ⟨trivial, fun _ => trivial⟩⟩⟩⟩
  have hsensors : updateSensors.Only It87Op.Sheltered :=
    ⟨trivial, fun _ => ⟨trivial, fun _ => ⟨trivial, fun _ => ⟨trivial, fun _ => trivial⟩⟩⟩⟩
  have hpwm : ∀ i, (c.updatePwm i).Only It87Op.Sheltered := fun i =>
    only_ite (fun _ => sheltered_updatePwmCtrl) fun _ => only_pure _
  have hvid : c.updateVid.Only It87Op.Sheltered :=
    only_ite (fun _ => ⟨trivial, fun _ => ⟨trivial, fun _ => trivial⟩⟩) fun _ => only_pure _
  refine only_bind hvbat fun _ => ?_
  refine only_bind (only_forM fun i _ => sheltered_updateIn i) fun _ => ?_
  refine only_bind (only_forM fun i _ => sheltered_updateFan i) fun _ => ?_
  refine only_bind (only_forM fun i _ => sheltered_updateTemp i) fun _ => ?_
  refine only_bind hdiv fun _ => only_bind halarms fun _ => only_bind hctrl fun _ => ?_
  refine only_bind (only_forM fun i _ => hpwm i) fun _ => only_bind hsensors fun _ => ?_
  exact only_bind hvid fun _ => ⟨trivial, fun _ => ⟨trivial, fun _ => trivial⟩⟩

/-! ### Showing and storing -/

theorem locks_sheltered {α β : Type} {p : Driver α} {f : α → Driver β} {left : Bool}
    (hp : p.Only It87Op.Sheltered) (hf : ∀ a, (f a).Locks It87Op.part true left) :
    (p >>= f).Locks It87Op.part true left := locks_inner (hp.mono fun _ h => h.inner) hf

theorem locks_mutexLock {α : Type} {f : Unit → Driver α} {left : Bool}
    (hf : ∀ r, (f r).Locks It87Op.part true left) :
    (mutexLock >>= f).Locks It87Op.part false left := ⟨rfl, hf⟩

theorem locks_getData {α : Type} {f : It87Data → Driver α} {held left : Bool}
    (hf : ∀ r, (f r).Locks It87Op.part held left) :
    (getData >>= f).Locks It87Op.part held left := hf

/-- Giving the lock back is the last thing a store function does. -/
theorem locks_end {x : ℤ} : (do
    mutexUnlock
    return x : Driver ℤ).Locks It87Op.part true false := ⟨rfl, fun _ => rfl⟩

variable {buf : List Char} {index point bitnr : ℕ}

theorem locks_updateDevice : c.updateDevice.Locks It87Op.part false false := by
  have hend : (do
      mutexUnlock
      getData).Locks It87Op.part true false := ⟨rfl, fun _ _ => rfl⟩
  refine ⟨rfl, fun _ _ d => locks_ite (fun _ => ?_) fun _ => hend⟩
  exact locks_sheltered sheltered_refresh fun _ => hend

theorem locks_showing (f : It87Data → ℤ) : (c.showing f).Locks It87Op.part false false :=
  locks_bind locks_updateDevice fun _ => rfl

theorem locks_setIn : (c.setIn nr index buf).Locks It87Op.part false false := by
  unfold setIn
  split
  · exact locks_pure _
  · exact ⟨rfl, fun _ _ => ⟨rfl, fun _ => locks_end⟩⟩

theorem locks_setTemp : (c.setTemp nr index buf).Locks It87Op.part false false := by
  have hput : ∀ reg v, (do
      assign fun d => { d with temp := put d.temp nr index v }
      writeValue reg v
      mutexUnlock
      return (buf.length : ℤ)).Locks It87Op.part true false :=
    fun _ _ _ => ⟨rfl, fun _ => locks_end⟩
  have hoffsets : enableOffsets.Locks It87Op.part true true :=
    ⟨rfl, fun _ => locks_ite (fun _ => ⟨rfl, fun _ _ => rfl⟩) fun _ _ => rfl⟩
  unfold setTemp
  split
  · exact locks_pure _
  · refine ⟨rfl, fun _ => locks_ite (fun _ => ?_) fun _ => hput _ _⟩
    exact locks_bind hoffsets fun _ => hput _ _

theorem locks_setFan : (c.setFan nr index buf).Locks It87Op.part false false := by
  have h16 : ∀ val, (c.setFan16 nr index val).Locks It87Op.part true true := fun val => by
    unfold setFan16
    split
    · trivial
    · exact fun _ => ⟨rfl, fun _ => ⟨rfl, fun _ => rfl⟩⟩
  have h8 : ∀ val, (c.setFan8 nr index val).Locks It87Op.part true true := fun val =>
    ⟨rfl, fun _ => locks_ite (fun _ _ _ _ => ⟨rfl, fun _ => rfl⟩) fun _ _ _ => ⟨rfl, fun _ => rfl⟩⟩
  unfold setFan
  split
  · exact locks_pure _
  · refine ⟨rfl, fun _ => locks_ite (fun _ => ?_) fun _ => ?_⟩
    · exact locks_bind (h16 _) fun _ => locks_end
    · exact locks_bind (h8 _) fun _ => locks_end

theorem locks_setFanDiv : (c.setFanDiv nr buf).Locks It87Op.part false false := by
  unfold setFanDiv
  split
  · exact locks_pure _
  · exact ⟨rfl, fun _ => ⟨rfl, fun _ _ _ => ⟨rfl, fun _ _ => ⟨rfl, fun _ => locks_end⟩⟩⟩⟩

theorem locks_storeCtrl {ctrl : Byte} : (c.storeCtrl nr ctrl).Locks It87Op.part true true :=
  fun _ => ⟨rfl, fun _ => rfl⟩

theorem locks_setPwmEnable : (c.setPwmEnable nr buf).Locks It87Op.part false false := by
  have honOff : (setOnOff nr).Locks It87Op.part true true :=
    ⟨rfl, fun _ => ⟨rfl, fun _ _ _ => ⟨rfl, fun _ => rfl⟩⟩⟩
  have hfull : (c.setFullSpeed nr).Locks It87Op.part true true :=
    fun _ => ⟨rfl, fun _ _ => locks_storeCtrl⟩
  have hmode : ∀ val, (c.setMode nr val).Locks It87Op.part true true := fun val =>
    locks_getData fun _ => locks_bind locks_storeCtrl fun _ =>
      locks_ite (fun _ _ => ⟨rfl, fun _ => rfl⟩) fun _ => locks_pure _
  unfold setPwmEnable
  split
  · exact locks_pure _
  · refine locks_ite (fun _ => locks_pure _) fun _ d => ?_
    refine locks_ite (fun _ => locks_pure _) fun _ => ?_
    refine ⟨rfl, fun _ => locks_ite (fun _ => ?_) fun _ => ?_⟩
    · refine locks_ite (fun _ => ?_) fun _ => ?_
      · exact locks_bind honOff fun _ => locks_end
      · exact locks_bind hfull fun _ => locks_end
    · exact locks_bind (hmode _) fun _ => locks_end

theorem locks_setPwm : (c.setPwm nr buf).Locks It87Op.part false false := by
  have hduty : ∀ val, (c.setDuty nr val).Locks It87Op.part true true := fun val _ =>
    locks_ite (fun _ => ⟨rfl, fun _ => rfl⟩) fun _ _ =>
      locks_ite (fun _ => locks_storeCtrl) fun _ => locks_pure _
  unfold setPwm
  split
  · exact locks_pure _
  · refine locks_ite (fun _ => locks_pure _) fun _ => locks_mutexLock fun _ => ?_
    refine locks_sheltered sheltered_updatePwmCtrl fun _ => locks_getData fun d => ?_
    refine locks_ite (fun _ => locks_end) fun _ => ?_
    exact locks_bind (hduty _) fun _ => locks_end

theorem locks_setPwmFreq : (c.setPwmFreq nr buf).Locks It87Op.part false false := by
  unfold setPwmFreq
  split
  · exact locks_pure _
  · refine ⟨rfl, fun _ => locks_ite (fun _ => ?_) fun _ => ?_⟩
    · exact ⟨rfl, fun _ _ => ⟨rfl, fun _ => locks_end⟩⟩
    · exact ⟨rfl, fun _ _ => ⟨rfl, fun _ => locks_end⟩⟩

theorem locks_setPwmTempMap : (c.setPwmTempMap nr buf).Locks It87Op.part false false := by
  unfold setPwmTempMap
  split
  · exact locks_pure _
  · refine locks_mutexLock fun _ => locks_sheltered sheltered_updatePwmCtrl fun _ _ d => ?_
    refine locks_ite (fun _ => ?_) fun _ => locks_end
    exact locks_bind locks_storeCtrl fun _ => locks_end

theorem locks_setAutoPwm : (c.setAutoPwm nr point buf).Locks It87Op.part false false := by
  unfold setAutoPwm
  split
  · exact locks_pure _
  · exact locks_ite (fun _ => locks_pure _) fun _ => ⟨rfl, fun _ _ => ⟨rfl, fun _ => locks_end⟩⟩

theorem locks_setAutoPwmSlope : (c.setAutoPwmSlope nr buf).Locks It87Op.part false false := by
  unfold setAutoPwmSlope
  split
  · exact locks_pure _
  · exact locks_ite (fun _ => locks_pure _) fun _ => ⟨rfl, fun _ _ _ => ⟨rfl, fun _ => locks_end⟩⟩

theorem locks_setAutoTemp : (c.setAutoTemp nr point buf).Locks It87Op.part false false := by
  unfold setAutoTemp
  split
  · exact locks_pure _
  · refine locks_ite (fun _ => locks_pure _) fun _ => ?_
    refine ⟨rfl, fun _ => locks_ite (fun _ => ?_) fun _ => ?_⟩
    · exact fun _ _ => ⟨rfl, fun _ => locks_end⟩
    · exact fun _ => ⟨rfl, fun _ => locks_end⟩

theorem locks_clearIntrusion : (c.clearIntrusion buf).Locks It87Op.part false false :=
  locks_ite (fun _ => locks_pure _) fun _ =>
    ⟨rfl, fun _ => ⟨rfl, fun _ => ⟨rfl, fun _ _ => locks_end⟩⟩⟩

theorem locks_setBeep : (c.setBeep bitnr buf).Locks It87Op.part false false := by
  unfold setBeep
  split
  · exact locks_pure _
  · exact locks_ite (fun _ => locks_pure _) fun _ =>
      ⟨rfl, fun _ => ⟨rfl, fun _ _ => ⟨rfl, fun _ => locks_end⟩⟩⟩

theorem locks_storeVrmReg : (c.storeVrmReg buf).Locks It87Op.part false false := by
  unfold storeVrmReg
  split
  · exact locks_pure _
  · exact fun _ => rfl

/-- Showing anything but the type of a sensor accesses the controller under the lock only. -/
theorem locks_showOf {a : Attribute} (ha : ∀ i, a = .tempType i → ¬ c.has .bankSel ∧ 3 ≤ i.val) :
    (c.showOf a).Locks It87Op.part false false := by
  cases a
  case tempType i =>
    obtain ⟨hsel, hi⟩ := ha i rfl
    have htype : c.getTempType i = pure 0 := by
      simp only [getTempType, hsel, Bool.false_eq_true, if_false, sensorType, hi, if_true]
    refine locks_bind locks_updateDevice fun _ => ?_
    rw [htype]
    exact locks_pure _
  case vrm => exact fun _ => rfl
  case in3Label => exact locks_pure _
  case in7Label => exact locks_pure _
  case in8Label => exact locks_pure _
  case in9Label => exact locks_pure _
  all_goals exact locks_showing _

/-- So does storing anything but the type of a sensor. -/
theorem locks_storeOf {a : Attribute} {f : List Char → Driver ℤ} (hf : c.storeOf a = some f)
    (ha : ∀ i, a = .tempType i → c.kstrtol buf = none) :
    (f buf).Locks It87Op.part false false := by
  cases a
  case tempType i =>
    cases hf
    simp only [setTempType, ha i rfl]
    exact locks_pure _
  case inMin i =>
    cases hf
    exact locks_setIn
  case inMax i =>
    cases hf
    exact locks_setIn
  case tempMin i =>
    cases hf
    exact locks_setTemp
  case tempMax i =>
    cases hf
    exact locks_setTemp
  case tempOffset i =>
    cases hf
    exact locks_setTemp
  case fanMin i =>
    cases hf
    exact locks_setFan
  case fanDiv i =>
    cases hf
    exact locks_setFanDiv
  case fanBeep i =>
    cases hf
    exact locks_setBeep
  case pwmEnable i =>
    cases hf
    exact locks_setPwmEnable
  case pwm i =>
    cases hf
    exact locks_setPwm
  case pwmAutoChannelsTemp i =>
    cases hf
    exact locks_setPwmTempMap
  case pwmAutoStart i =>
    cases hf
    exact locks_setAutoPwm
  case pwmAutoSlope i =>
    cases hf
    exact locks_setAutoPwmSlope
  case pwmAutoPointTemp i k =>
    cases hf
    exact locks_setAutoTemp
  case pwmAutoPoint4Temp i =>
    cases hf
    exact locks_setAutoTemp
  case pwmAutoPoint1TempHyst i =>
    cases hf
    exact locks_setAutoTemp
  case intrusion0Alarm =>
    cases hf
    exact locks_clearIntrusion
  case vrm =>
    cases hf
    exact locks_storeVrmReg
  case inBeep i =>
    obtain ⟨-, hf⟩ := Option.ite_none_right_eq_some.mp hf
    cases hf
    exact locks_setBeep
  case tempBeep i =>
    obtain ⟨-, hf⟩ := Option.ite_none_right_eq_some.mp hf
    cases hf
    exact locks_setBeep
  case pwmFreq i =>
    obtain ⟨-, hf⟩ := Option.ite_none_right_eq_some.mp hf
    cases hf
    exact locks_setPwmFreq
  case pwmAutoPointPwm i k =>
    obtain ⟨-, hf⟩ := Option.ite_none_right_eq_some.mp hf
    cases hf
    exact locks_setAutoPwm
  all_goals cases hf

/-! ### The register of the bank -/

theorem sparesBank_updateDevice : c.updateDevice.Only It87Op.SparesBank := by
  have hend : (do
      mutexUnlock
      getData).Only It87Op.SparesBank := ⟨trivial, fun _ => ⟨trivial, fun _ => trivial⟩⟩
  refine ⟨trivial, fun _ => ⟨trivial, fun _ => ⟨trivial, fun _ => only_ite (fun _ => ?_) ?_⟩⟩⟩
  · exact only_bind (sheltered_refresh.mono fun _ h => h.sparesBank) fun _ => hend
  · exact fun _ => hend

theorem sparesBank_getTempType (i : ℕ) : (c.getTempType i).Only It87Op.SparesBank := by
  have hsensor : ∀ i, (c.sensorType i).Only It87Op.SparesBank := fun i =>
    only_ite (fun _ => only_pure _) fun _ => ⟨trivial, fun _ => ⟨trivial, fun _ => trivial⟩⟩
  refine only_ite (fun _ => ⟨trivial, fun src1 => ⟨trivial, fun src2 => ?_⟩⟩) fun _ => hsensor i
  dsimp only [Program.bind, bind_eq]
  split
  · exact only_pure _
  · exact hsensor _

theorem sparesBank_showOf (a : Attribute) : (c.showOf a).Only It87Op.SparesBank := by
  have hshowing : ∀ f, (c.showing f).Only It87Op.SparesBank := fun f =>
    only_bind sparesBank_updateDevice fun _ => only_pure _
  cases a
  case tempType i =>
    refine only_bind sparesBank_updateDevice fun _ => ?_
    exact only_bind (sparesBank_getTempType i) fun _ => only_pure _
  case vrm => exact ⟨trivial, fun _ => trivial⟩
  case in3Label => exact only_pure _
  case in7Label => exact only_pure _
  case in8Label => exact only_pure _
  case in9Label => exact only_pure _
  all_goals exact hshowing _

theorem sparesBank_attempt (a : Attribute) :
    (c.attempt a buf).Only It87Op.SparesBank := by
  have htargets : ∀ a ∈ Attribute.all,
      (c.type.tables.targets a).all fun reg => !(reg.toNat % 256).beq 6 := by
    refine c.type.forall_tables (P := fun t => ∀ a ∈ Attribute.all,
      (t.targets a).all fun reg => !(reg.toNat % 256).beq 6) ?_ ?_ ?_ ?_
    all_goals decide +kernel
  refine only_attempt_confined.mono fun o ho => ?_
  cases o with
  | writeValue reg v =>
    have hreg := List.all_eq_true.mp (htargets a a.mem_all) reg ho
    intro he
    have hmod : reg.toNat % 256 = 6 :=
      (BitVec.toNat_setWidth 8 reg).symm.trans (congrArg BitVec.toNat he)
    simp [hmod] at hreg
  | _ => trivial

end It87Chip

/-! ### Two attributes at a time -/

/-- An attribute is shown, or stored. -/
inductive Request
  | shown (a : Attribute)
  | stored (a : Attribute) (buf : List Char)

namespace Request

def program (c : It87Chip) : Request → Driver (List Char ⊕ ℤ)
  | shown a => Sum.inl <$> c.look a
  | stored a buf => Sum.inr <$> c.attempt a buf

/-- It gets as far as reading the type of a sensor, for which it does not take the lock. -/
def Unlocked (c : It87Chip) : Request → Prop
  | shown (.tempType i) => c.mode (.tempType i) ≠ .hidden ∧ (c.has .bankSel ∨ i.val < 3)
  | stored (.tempType i) buf => c.mode (.tempType i) = .writable ∧ c.kstrtol buf ≠ none
  | _ => False

variable {c : It87Chip} {q : Request}

theorem sparesBank_program : (q.program c).Only It87Op.SparesBank := by
  cases q with
  | shown a =>
    exact only_map _ (only_ite (fun _ => only_pure _) fun _ => It87Chip.sparesBank_showOf a)
  | stored a buf => exact only_map _ (It87Chip.sparesBank_attempt a)

theorem locks_program (h : ¬ q.Unlocked c) : (q.program c).Locks It87Op.part false false := by
  cases q with
  | shown a =>
    refine locks_map _ (locks_ite (fun _ => locks_pure _) fun hm => ?_)
    refine It87Chip.locks_showOf fun i hi => ?_
    subst hi
    have hn : ¬ (c.has .bankSel ∨ i.val < 3) := fun hs => h ⟨hm, hs⟩
    exact ⟨fun hs => hn (.inl hs), Nat.le_of_not_lt fun hs => hn (.inr hs)⟩
  | stored a buf =>
    refine locks_map _ ?_
    by_cases hm : c.mode a = .writable
    · cases hf : c.storeOf a with
      | none =>
        rw [c.attempt_of_store hf]
        exact locks_pure _
      | some f =>
        rw [c.attempt_eq hm hf]
        refine It87Chip.locks_storeOf hf fun i hi => ?_
        subst hi
        by_contra hn
        exact h ⟨hm, hn⟩
    · rw [c.attempt_of_mode hm]
      exact locks_pure _

end Request

/-- Two attributes that have not been begun with. -/
def race (c : It87Chip) (calls : Fin 2 → Request) (s : Bus) :
    Pool (Fin 2) PortOp PortOp.Answer Fault (List Char ⊕ ℤ) Bus where
  threads i := ((calls i).program c).interp c.access
  state := s

/-- In every interleaving, what is read is what is in the register that is meant, and what is
written changes that register and no other. -/
def RaceFree (c : It87Chip) (calls : Fin 2 → Request) (s : Bus) : Prop :=
  ∀ schedule, (race c calls s).Along (Bus.device c)
    (fun _ o r s t => c.Faithful o r s.controller t.controller) schedule

/-- Two attributes, neither of them the type of a sensor, and any attribute together with one that
accesses nothing. -/
theorem raceFree_of_locked (c : It87Chip) (calls : Fin 2 → Request) (s : Bus)
    (hfree : s.owner = none) (ha : c.Aligned s.controller)
    (h : (∀ i, ¬ (calls i).Unlocked c) ∨ ∃ i, ((calls i).program c).Only It87Op.Idle) :
    RaceFree c calls s := by
  refine along_faithful hfree ha (fun i => Request.sparesBank_program) ?_
  rcases h with h | h
  · exact .inl fun i => Request.locks_program (h i)
  · exact .inr h

/-- What is found: the first sensor is a diode. -/
def diode : List (Word × Byte) := [(regTempEnable, 0x01)]

/-- The driver has probed what it found. -/
def diodeBus : Bus where
  controller := { latch := 0, regs := (Chips.it87.probe diode).2.regs, bank := 0xff }
  data := (Chips.it87.probe diode).2.data
  clock := (Chips.it87.probe diode).2.clock
  owner := none

/-- Its chip has one bank. -/
theorem aligned_diodeBus : (Chips.it87.known diode).Aligned diodeBus.controller := by
  have hsel : (Chips.it87.known diode).has .bankSel = false := by decide +kernel
  intro h
  rw [hsel] at h
  cases h

/-- A limit is stored while another is shown. -/
def twoLimits : Fin 2 → Request
  | 0 => .shown (.inMax 0)
  | 1 => .stored (.inMin 0) "1000\n".toList

theorem raceFree_twoLimits : RaceFree (Chips.it87.known diode) twoLimits diodeBus := by
  refine raceFree_of_locked _ _ _ rfl aligned_diodeBus (.inl ?_)
  rw [Fin.forall_fin_two]
  exact ⟨id, id⟩

/-- A limit is stored while the type of a sensor is. -/
def typeAndLimit : Fin 2 → Request
  | 0 => .stored (.tempType 0) "3\n".toList
  | 1 => .stored (.inMin 0) "1000\n".toList

/-- The write that a caller is about to make. -/
def writing {α : Type} : Ported α → Option (Word × Byte)
  | .call (.dataWrite reg v) _ => some (reg, v)
  | _ => none

theorem call_of_writing {α : Type} {p : Ported α} {reg : Word} {v : Byte}
    (h : writing p = some (reg, v)) : ∃ k, p = .call (.dataWrite reg v) k := by
  unfold writing at h
  split at h
  · cases h
    exact ⟨_, rfl⟩
  · cases h

/-- A write of another register than the one that is meant shows, unless it changes nothing. -/
theorem selected_of_faithful {c : It87Chip} {k : Controller} {reg : Word} {v : Byte}
    (h : c.Faithful (.dataWrite reg v) () k
      { k with regs := Function.update k.regs (c.selected k) v }) :
    c.selected k = c.meant reg ∨ k.regs (c.selected k) = v := by
  by_cases he : c.selected k = c.meant reg
  · exact .inl he
  · have hreg : Function.update k.regs (c.selected k) v (c.selected k) =
        Function.update k.regs (c.meant reg) v (c.selected k) := congrFun h _
    rw [Function.update_self, Function.update_of_ne he] at hreg
    exact .inr hreg.symm

/-- Between the two messages of the limit's write, the other caller has given the address of the
register that it is about to read. -/
theorem misled :
    let pool := (race (Chips.it87.known diode) typeAndLimit diodeBus).run
      (Bus.device (Chips.it87.known diode)) [1, 1, 1, 0]
    writing (pool.threads 1) = some (regVinMin 0, 63) ∧
      (Chips.it87.known diode).selected pool.state.controller = regTempEnable ∧
      (Chips.it87.known diode).meant (regVinMin 0) = regVinMin 0 ∧
      pool.state.controller.regs regTempEnable = 0x01 := by
  decide +kernel

/-- The limit of a voltage has become the types of the sensors. -/
theorem not_raceFree : ¬ ∀ (c : It87Chip) (calls : Fin 2 → Request) (s : Bus),
    s.owner = none → c.Aligned s.controller → RaceFree c calls s := by
  intro h
  have hrace := h _ typeAndLimit _ rfl aligned_diodeBus ([1, 1, 1, 0] ++ [1])
  obtain ⟨hwriting, hselected, hmeant, hold⟩ := misled
  obtain ⟨k, hk⟩ := call_of_writing hwriting
  rcases selected_of_faithful (hrace.last hk rfl) with he | he
  · rw [hselected, hmeant] at he
    cases he
  · rw [hselected, hold] at he
    cases he

end BuffaloNas.It87
