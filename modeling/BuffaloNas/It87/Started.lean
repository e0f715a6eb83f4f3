import BuffaloNas.It87.Stores

/-! What a probe leaves behind: a cache that nothing has been read into. -/
namespace BuffaloNas.It87
open Interaction Program SuperIo World

/-- The driver has taken over a chip and knows `c` of it. -/
def Probed (c : It87Chip) (w : World) : Prop :=
  ∃ p sio w0, (it87Probe p sio).run device w0 = (.ok (.ok c), w)

/-- The cache after `it87_init_device`, but for `FAN_MAIN_CTRL`. -/
def It87Data.defaults : It87Data :=
  { It87Data.zero with
    pwmTempMap := fun i => if i < 6 then BitVec.ofNat 8 i else 0
    pwmDuty := fun i => if i < 6 then 0x7f else 0
    autoPwm := fun i => if i < 6 then Function.update (fun _ => 0) 3 0x7f else fun _ => 0 }

/-- Of the registers, only `FAN_MAIN_CTRL` is in the cache. -/
def Started (w : World) : Prop :=
  ∃ vrm vid, w.data = { It87Data.defaults with fanMainCtrl := w.regs regFanMainCtrl, vrm, vid }

/-- An operation of the probe that concerns neither the data nor `FAN_MAIN_CTRL`. -/
def Apart : It87Op → Prop
  | .assign _ => False
  | .writeValue reg _ => reg ≠ regFanMainCtrl
  | _ => True

/-- What such operations leave alone. -/
theorem Apart.yields {α : Type} {p : Driver α} (h : p.Only Apart) {I : It87Data → Byte → Prop}
    {w : World} (hw : I w.data (w.regs regFanMainCtrl)) :
    p.Yields device (fun _ _ => True) w fun _ t => I t.data (t.regs regFanMainCtrl) := by
  intro _ a t hr
  suffices hi : I (p.run device w).2.data ((p.run device w).2.regs regFanMainCtrl) by
    rw [hr] at hi
    exact hi
  refine h.run_invariant (I := fun t : World => I t.data (t.regs regFanMainCtrl)) ?_ hw
  intro o t ho ht
  cases o
  case assign f => exact absurd ho id
  case writeValue reg v =>
    have hne : reg ≠ regFanMainCtrl := ho
    simpa [device, hne.symm] using ht
  all_goals exact ht

namespace It87Chip

variable {c : It87Chip} {sio : It87SioData}

theorem numTempLimit_le (c : It87Chip) : c.numTempLimit ≤ 6 := by
  unfold numTempLimit
  cases c.type <;> decide

theorem apart_checkPwm : c.checkPwm.Only Apart := by
  refine only_op trivial fun tmp => only_ite (fun _ => only_pure _) fun _ => ?_
  exact only_ite (fun _ => only_raise _) fun _ => only_pure _

theorem apart_probeTemp : (c.probeTemp sio).Only Apart :=
  only_ite (fun _ => only_op trivial fun _ => only_pure _) fun _ => only_pure _

theorem apart_probeSixTemp {hasTemp : Byte} {hasIn : Word} :
    (c.probeSixTemp hasTemp hasIn).Only Apart :=
  only_ite (fun _ => only_op trivial fun _ => only_pure _) fun _ => only_pure _

theorem apart_initLimit {reg : Word} {v : Byte} (h : reg ≠ regFanMainCtrl) :
    (initLimit reg v).Only Apart :=
  only_op trivial fun _ => only_ite (fun _ => ⟨h, fun _ => trivial⟩) fun _ => only_pure _

theorem apart_initLimits : c.initLimits.Only Apart := by
  have hvin : regVinEnable ≠ regFanMainCtrl := by decide
  refine only_bind (only_forM fun i hi => ?_) fun _ => only_bind (only_forM fun i hi => ?_) fun _ =>
    only_op trivial fun tmp => only_ite (fun _ => ⟨hvin, fun _ => trivial⟩) fun _ => only_pure _
  · exact apart_initLimit (c.type.laidOut.limits i (List.mem_range.mp hi)).1
  · have hle := c.numTempLimit_le
    have hi := List.mem_range.mp hi
    exact apart_initLimit ((c.type.laidOut.limits i (by omega)).2.1 (by omega))

theorem apart_sixthFan {tmp : Byte} : (c.sixthFan tmp).Only Apart := by
  unfold sixthFan
  refine only_ite (fun _ => only_pure _) fun _ => ?_
  split
  case h_4 => exact only_op trivial fun _ => only_pure _
  all_goals exact only_pure _

theorem apart_initSkipPwm : (c.initSkipPwm sio).Only Apart :=
  only_ite (fun _ => only_op trivial fun _ => only_pure _) fun _ => only_pure _

theorem apart_startMonitoring : c.startMonitoring.Only Apart := by
  have hconfig : regConfig ≠ regFanMainCtrl := by decide
  exact only_op trivial fun _ => ⟨hconfig, fun _ => trivial⟩

theorem apart_getTempType {index : ℕ} : (c.getTempType index).Only Apart := by
  have hsensor : ∀ index, (c.sensorType index).Only Apart := fun index =>
    only_ite (fun _ => only_pure _) fun _ => only_op trivial fun _ => only_op trivial fun _ =>
      only_pure _
  refine only_ite (fun _ => only_op trivial fun src1 => only_op trivial fun src2 => ?_) fun _ =>
    hsensor index
  split
  · exact only_pure _
  · exact hsensor _

theorem apart_probeTypes : c.probeTypes.Only Apart := by
  have h : ∀ (l : List ℕ) (types : Byte), (l.foldlM (fun types i => do
      if c.hasTemp.getLsbD i ∧ i < c.numTempLimit then
        let type ← c.getTempType i
        return types ||| bitIf (type ≠ 0) i
      else return types) types : Driver Byte).Only Apart := fun l => by
    induction l with
    | nil => exact fun _ => only_pure _
    | cons i l ih =>
      intro types
      rw [List.foldlM_cons]
      refine only_bind (only_ite (fun _ => ?_) fun _ => only_pure _) ih
      exact only_bind apart_getTempType fun _ => only_pure _
  exact h _ _

/-- `FAN_MAIN_CTRL` and the cache agree once the driver has looked at the tachometers. -/
theorem yields_initFans {w : World} (hw : w.data = .defaults) :
    (c.initFans sio).Yields device (fun _ _ => True) w fun _ t =>
      t.data = { It87Data.defaults with fanMainCtrl := t.regs regFanMainCtrl } := by
  have hmain : (initFanMainCtrl sio).Yields device (fun _ _ => True) w fun _ t =>
      t.data = { It87Data.defaults with fanMainCtrl := t.regs regFanMainCtrl } := by
    intro _ a t hr
    suffices hi : ((initFanMainCtrl sio).run device w).2.data = { It87Data.defaults with
        fanMainCtrl := ((initFanMainCtrl sio).run device w).2.regs regFanMainCtrl } by
      rw [hr] at hi
      exact hi
    unfold initFanMainCtrl
    simp only [run_bind, run_readValue, andThen_ok, run_assign]
    split <;> simp [World.assign, hw]
  have h16 : regFan16bit ≠ regFanMainCtrl := by decide
  have hrest : ∀ (hasFan tmp : Byte), (do
      let six ← c.sixthFan tmp
      let more := bitIf (c.hasFourFans && tmp.getLsbD 4) 3 |||
        bitIf (c.hasFiveFans && tmp.getLsbD 5) 4 ||| bitIf six 5
      return (hasFan ||| more) &&& ~~~sio.skipFan : Driver Byte).Only Apart := fun _ _ =>
    only_bind apart_sixthFan fun _ => only_pure _
  refine yields_bind hmain fun hasFan t ht => ?_
  refine Apart.yields (I := fun d v => d = { It87Data.defaults with fanMainCtrl := v }) ?_ ht
  refine only_op trivial fun tmp => only_ite (fun _ => only_op h16 fun _ => ?_) fun _ => ?_
  · exact hrest hasFan tmp
  · exact hrest hasFan tmp

theorem yields_initDevice {w : World} (hw : w.data = .zero) :
    (c.initDevice sio).Yields device (fun _ _ => True) w fun _ t =>
      t.data = { It87Data.defaults with fanMainCtrl := t.regs regFanMainCtrl } := by
  have hdefaults : initDefaults.Yields device (fun _ _ => True) w fun _ t => t.data = .defaults :=
    yields_perform fun _ r t hr => by
      cases hr
      simp [hw, It87Data.defaults, It87Data.zero]
  refine yields_bind hdefaults fun _ t ht => ?_
  have hlimits : c.initLimits.Yields device (fun _ _ => True) t fun _ t => t.data = .defaults :=
    Apart.yields (I := fun d _ => d = .defaults) apart_initLimits ht
  refine yields_bind hlimits fun _ t ht => ?_
  refine yields_bind (yields_initFans ht) fun hasFan t ht => ?_
  refine Apart.yields (I := fun d v => d = { It87Data.defaults with fanMainCtrl := v }) ?_ ht
  exact only_bind apart_initSkipPwm fun _ => only_bind apart_startMonitoring fun _ => only_pure _

end It87Chip

open It87Chip

theorem Probed.started {c : It87Chip} {w : World} (h : Probed c w) : Started w := by
  obtain ⟨p, sio, w0, hr⟩ := h
  suffices hy : (it87Probe p sio).Yields device (fun _ _ => True) w0 fun r t =>
      (∃ c, r = .ok c) → Started t from
    hy (always_of_forall (fun _ _ => trivial) _) (.ok c) w hr ⟨c, rfl⟩
  have herror : ∀ {t : World}, (return .error (-enodev) : Driver (Except ℤ It87Chip)).Yields device
      (fun _ _ => True) t fun r t => (∃ c, r = .ok c) → Started t := fun {t} =>
    yields_pure fun h => by
      obtain ⟨c, hc⟩ := h
      cases hc
  have hzero : (assign fun _ => It87Data.zero).Yields device (fun _ _ => True) w0
      fun _ t => t.data = .zero :=
    yields_perform fun _ r t hr => by
      cases hr
      rfl
  refine yields_bind hzero fun _ t ht => ?_
  have hapart : ∀ {α : Type} {p : Driver α}, p.Only Apart → ∀ {t : World}, t.data = .zero →
      p.Yields device (fun _ _ => True) t fun _ t => t.data = .zero := fun hp t ht =>
    Apart.yields (I := fun d _ => d = .zero) hp ht
  have hread : ∀ {reg : Word}, (readValue reg).Only Apart := fun {reg} =>
    (only_perform (It87Op.readValue reg)).mpr trivial
  refine yields_bind (hapart hread ht) fun config t ht => yields_ite (fun _ => herror) fun _ => ?_
  refine yields_bind (hapart hread ht) fun chipid t ht => yields_ite (fun _ => herror) fun _ => ?_
  refine yields_bind (hapart apart_checkPwm ht) fun enable t ht => ?_
  refine yields_bind (hapart apart_probeTemp ht) fun hasTemp t ht => ?_
  refine yields_bind (hapart apart_probeSixTemp ht) fun sensors t ht => ?_
  obtain ⟨hasTemp, hasIn⟩ := sensors
  refine yields_bind (yields_initDevice ht) fun fans t ht => ?_
  obtain ⟨hasFan, skipPwm⟩ := fans
  have hend : ∀ {c c' : It87Chip} {t : World}, Started t → (do
      let hasType ← c.probeTypes
      return .ok { c' with hasType } : Driver (Except ℤ It87Chip)).Yields device
        (fun _ _ => True) t fun r t => (∃ c, r = .ok c) → Started t := fun {c c' t} ht => by
    have htypes : c.probeTypes.Yields device (fun _ _ => True) t fun _ t => Started t :=
      Apart.yields (I := fun d v => ∃ vrm vid,
        d = { It87Data.defaults with fanMainCtrl := v, vrm, vid }) apart_probeTypes ht
    exact yields_bind htypes fun _ t ht => yields_pure fun _ => ht
  refine yields_ite (fun _ => ?_) fun _ => ?_
  · have hvid : (assign fun d => { d with vrm := p.vidWhichVrm, vid := sio.vidValue }).Yields device
        (fun _ _ => True) t fun _ t => Started t :=
      yields_perform fun _ r t hr => by
        cases hr
        refine ⟨p.vidWhichVrm, sio.vidValue, ?_⟩
        rw [data_assign, regs_assign, ht]
    exact yields_bind hvid fun _ t ht => hend ht
  · exact hend ⟨_, _, ht⟩

/-! ### A plain machine -/

/-- A machine on which nothing is out of the ordinary. -/
def plain : Platform where
  long64 := true
  hz := 100
  updateVbat := false
  fixPwmPolarity := false
  vidWhichVrm := 0
  vidFromReg _ _ := 0

/-- A chip whose pins are all used for what they are there for, but those of the core voltage. -/
def Chips.bare (type : Chips) : It87SioData :=
  { type, revision := 0, vidValue := 0, beepPin := 0, internal := 0, skipIn := 0, skipVid := true,
    skipFan := 0, skipPwm := 0, skipTemp := 0 : It87SioData }.configured (it87Devices type)

/-- The firmware has switched three fans and their control on, and left some contents. -/
def found (contents : List (Word × Byte)) : World where
  data := .zero
  regs reg :=
    ((contents ++ [(regChipid, 0x90), (regFanMainCtrl, 0x70), (regFanCtl, 0x87)]).lookup reg).getD 0
  clock n := 1000 + n

namespace Chips

variable (type : Chips) (contents : List (Word × Byte))

def probe : Except Fault (Except ℤ It87Chip) × World :=
  (it87Probe plain type.bare).run device (found contents)

/-- What the driver knows of such a chip. -/
def known : It87Chip :=
  match (type.probe contents).1 with
  | .ok (.ok c) => c
  | _ => unprobed plain type.bare

def isKnown : Bool :=
  match (type.probe contents).1 with
  | .ok (.ok _) => true
  | _ => false

theorem probed {type : Chips} {contents : List (Word × Byte)} (h : type.isKnown contents = true) :
    Probed (type.known contents) (type.probe contents).2 := by
  refine ⟨plain, type.bare, found contents, ?_⟩
  change type.probe contents = _
  unfold known
  unfold isKnown at h
  generalize type.probe contents = x at h ⊢
  obtain ⟨e | e | c, w⟩ := x
  · cases h
  · cases h
  · rfl

end Chips

end BuffaloNas.It87
