import BuffaloNas.It87.Modes
import BuffaloNas.It87.TripPoints

/-! Channels that do not disturb one another, and the trip points that some of them share. -/
namespace BuffaloNas.It87
open Interaction Program SuperIo World

/-! ### The switches of a channel -/

/-- Only the switch of fan `nr` may differ; the later fans have none. -/
def OtherBits (nr : ℕ) (x y : Byte) : Prop := ∀ j, (nr < 3 → j ≠ nr) → y.getLsbD j = x.getLsbD j

theorem OtherBits.refl (nr : ℕ) (x : Byte) : OtherBits nr x x := fun _ _ => rfl

theorem OtherBits.trans {nr : ℕ} {x y z : Byte} (h : OtherBits nr x y) (h' : OtherBits nr y z) :
    OtherBits nr x z := fun j hj => (h' j hj).trans (h j hj)

/-- The frequency of the fans is in the same register as their switches. -/
theorem OtherBits.freq {nr : ℕ} {x y : Byte} (h : OtherBits nr x y) :
    (y >>> 4) &&& (0x07 : Byte) = (x >>> 4) &&& (0x07 : Byte) := by
  refine BitVec.eq_of_getLsbD_eq fun i hi => ?_
  rw [BitVec.getLsbD_and, BitVec.getLsbD_and, BitVec.getLsbD_ushiftRight,
    BitVec.getLsbD_ushiftRight, h (4 + i) fun hnr => by omega]

namespace It87Chip

variable {c : It87Chip} {w : World} {buf : List Char} {a : Attribute} {nr m : ℕ}

theorem getLsbD_bitOf {n j : ℕ} (h : j ≠ n) : (bitOf n).getLsbD j = false := by
  rw [bitOf, BitVec.natCast_eq_ofNat, BitVec.getLsbD_ofNat, Nat.one_shiftLeft,
    Nat.testBit_two_pow_of_ne h.symm, Bool.and_false]

theorem otherBits_set {n : ℕ} (hn : n < 3) (x : Byte) : OtherBits n x (x ||| bitOf n) := by
  intro j hj
  rw [BitVec.getLsbD_or, getLsbD_bitOf (hj hn), Bool.or_false]

theorem otherBits_clear {n : ℕ} (hn : n < 3) (x : Byte) : OtherBits n x (x &&& ~~~bitOf n) := by
  intro j hj
  by_cases h8 : j < 8
  · rw [BitVec.getLsbD_and, BitVec.getLsbD_not, getLsbD_bitOf (hj hn)]
    simp [h8]
  · rw [BitVec.getLsbD_of_ge _ _ (by omega), BitVec.getLsbD_of_ge _ _ (by omega)]

/-- Storing a mode switches no other fan. -/
structure Switched (nr : ℕ) (w t : World) : Prop where
  agrees : t.data.fanMainCtrl = t.regs regFanMainCtrl
  mainCtrl : OtherBits nr (w.regs regFanMainCtrl) (t.regs regFanMainCtrl)
  ctl : OtherBits nr (w.regs regFanCtl) (t.regs regFanCtl)

theorem Switched.refl (nr : ℕ) (h : w.data.fanMainCtrl = w.regs regFanMainCtrl) :
    Switched nr w w := ⟨h, .refl nr _, .refl nr _⟩

/-- Data and a register that have nothing to do with switches. -/
theorem Switched.write {t : World} (h : Switched nr w t) {f : It87Data → It87Data} {r : Word}
    (hf : ∀ d, (f d).fanMainCtrl = d.fanMainCtrl) (hr : r ≠ regFanCtl ∧ r ≠ regFanMainCtrl)
    (v : Byte) : Switched nr w ((t.assign f).write r v) := by
  have hctl : ((t.assign f).write r v).regs regFanCtl = t.regs regFanCtl := by
    rw [regs_write, Function.update_of_ne hr.1.symm, regs_assign]
  have hmain : ((t.assign f).write r v).regs regFanMainCtrl = t.regs regFanMainCtrl := by
    rw [regs_write, Function.update_of_ne hr.2.symm, regs_assign]
  refine ⟨?_, ?_, ?_⟩
  · rw [data_write, data_assign, hf, hmain]
    exact h.agrees
  · rw [hmain]
    exact h.mainCtrl
  · rw [hctl]
    exact h.ctl

/-- The switch itself. -/
theorem Switched.main {t : World} (h : Switched nr w t) {v : Byte}
    (hv : OtherBits nr (t.regs regFanMainCtrl) v) :
    Switched nr w ((t.assign fun d => { d with fanMainCtrl := v }).write regFanMainCtrl v) := by
  have hne : regFanCtl ≠ regFanMainCtrl := by decide
  refine ⟨?_, ?_, ?_⟩
  · rw [regs_write, Function.update_self]
    rfl
  · rw [regs_write, Function.update_self]
    exact h.mainCtrl.trans hv
  · rw [regs_write, Function.update_of_ne hne]
    exact h.ctl

theorem switched_setPwmEnable {i : Fin 6} (h : w.data.fanMainCtrl = w.regs regFanMainCtrl) :
    Switched i w ((c.setPwmEnable i buf).run device w).2 := by
  have hctrl : ∀ ctrl t, Switched i w t → Switched i w ((c.storeCtrl i ctrl).run device t).2 :=
    fun ctrl t ht => by
      rw [run_storeCtrl]
      refine ht.write (fun d => ?_) (c.regPwm_ne i).2.2 ctrl
      rfl
  by_cases hen : ∃ val, c.enables w.data i buf val
  case neg =>
    rw [run_setPwmEnable_refused hen]
    exact .refl i h
  obtain ⟨val, hval⟩ := hen
  rw [run_setPwmEnable hval]
  split
  · split
    case isTrue hi =>
      simp only [setOnOff, run_bind, run_readValue, andThen_ok, run_writeValue, run_getData,
        run_assign]
      have hne : regFanMainCtrl ≠ regFanCtl := by decide
      have hctl : Switched i w (w.write regFanCtl (w.regs regFanCtl ||| bitOf i)) := by
        refine ⟨?_, ?_, ?_⟩
        · rw [regs_write, Function.update_of_ne hne]
          exact h
        · rw [regs_write, Function.update_of_ne hne]
          exact .refl i _
        · rw [regs_write, Function.update_self]
          exact otherBits_set hi.1 _
      refine hctl.main ?_
      rw [← hctl.agrees]
      exact otherBits_clear hi.1 _
    case isFalse =>
      have hduty : ∀ i : Fin 6, regPwmDuty i ≠ regFanCtl ∧ regPwmDuty i ≠ regFanMainCtrl := by
        decide
      simp only [setFullSpeed, run_bind, run_assign, andThen_ok, run_writeValue, run_getData]
      refine hctrl _ _ ((Switched.refl i h).write (fun d => ?_) (hduty i) _)
      rfl
  · simp only [setMode, run_bind, run_getData, andThen_ok]
    have hstore := hctrl (c.modeCtrl w.data i val) w (.refl i h)
    have hmain : w.data.fanMainCtrl =
        ((c.storeCtrl i (c.modeCtrl w.data i val)).run device w).2.regs regFanMainCtrl := by
      rw [← hstore.agrees, run_storeCtrl]
      rfl
    rw [run_storeCtrl] at hstore hmain ⊢
    simp only [andThen_ok]
    split
    case isTrue hi =>
      simp only [run_bind, run_assign, andThen_ok, run_writeValue]
      refine hstore.main ?_
      rw [hmain]
      exact otherBits_set hi.2 _
    case isFalse => exact hstore

/-! ### What the cache and the registers agree on -/

/-- `FAN_MAIN_CTRL` is in the cache; so are, while the cache is valid, the trip points of the
channels that are enabled. -/
structure Coherent (c : It87Chip) (w : World) : Prop where
  mainCtrl : w.data.fanMainCtrl = w.regs regFanMainCtrl
  points : w.data.valid = true → ∀ nr < 3, c.hasPwm.getLsbD nr = true → ∀ point < 4, ∀ reg,
    c.autoTempReg nr point = some reg → w.data.autoTemp nr point = w.regs reg

theorem coherent_probed (h : Probed c w) : c.Coherent w := by
  obtain ⟨vrm, vid, hdata⟩ := h.started
  refine ⟨by rw [hdata], fun hv => ?_⟩
  rw [hdata] at hv
  cases hv

theorem coherent_updated (h : c.Coherent w) : c.Coherent (c.updated w) := by
  unfold updated
  split
  case isFalse => exact ⟨h.mainCtrl, h.points⟩
  case isTrue =>
    refine ⟨rfl, fun _ nr hnr hpwm point _ reg hreg => ?_⟩
    have hlt : nr < 6 := by omega
    simp [refreshed, rows_of_lt hlt, channelRow, hpwm, channelRead, hreg]

/-- No register of a trip point is measured. -/
theorem autoTempReg_notMem_inputs {point : ℕ} {reg : Word} (hnr : nr < 6) (hp : point < 4)
    (h : c.autoTempReg nr point = some reg) : reg ∉ c.inputs := by
  obtain ⟨rfl, hlt, -, hold, -⟩ := autoTempReg_some hp h
  intro hi
  refine (autoTemp_apart c.type hnr hlt).2.2 _ (fun h3 => ?_) (c.inputs_subset hi)
  exact (onOff_of_old (hold h3)).1

theorem autoTempReg_target (nr : ℕ) {point : ℕ} (hp : point < 4) (hauto : c.hasAutopwm = true) :
    c.autoTempReg nr point = some (c.autoTempTarget nr point) := by
  unfold autoTempReg autoTempTarget
  cases ho : c.has .oldAutopwm
  · have hn : c.has .newerAutopwm = true := by simpa [hasAutopwm, ho] using hauto
    by_cases h0 : point = 0 <;> simp [hn, h0, hp]
  · have h5 : point < 5 := by omega
    simp [(onOff_of_old ho).1, h5]

/-- A trip point is stored in the cache and in its register; the others are as they were. -/
theorem points_setAutoTemp {nr point : ℕ} {val : ℤ} (hnr : nr < 6) (hp : point < 4)
    (hauto : c.hasAutopwm = true) (hval : c.kstrtol buf = some val)
    (hrange : -128000 ≤ val ∧ val ≤ 127000) {nr' point' : ℕ} {reg : Word} (hnr' : nr' < 6)
    (hp' : point' < 4) (hreg : c.autoTempReg nr' point' = some reg) :
    let t := ((c.setAutoTemp nr point buf).run device w).2
    if nr' = nr ∧ point' = point then t.data.autoTemp nr' point' = t.regs reg
    else t.data.autoTemp nr' point' = w.data.autoTemp nr' point' ∧ t.regs reg = w.regs reg := by
  have htarget := autoTempReg_target (c := c) nr hp hauto
  rw [run_setAutoTemp hval hrange]
  dsimp only
  split
  case isTrue hsame =>
    obtain ⟨rfl, rfl⟩ := hsame
    obtain rfl := Option.some.inj (htarget.symm.trans hreg)
    rw [regs_write, Function.update_self, data_write, data_assign]
    exact put_self ..
  case isFalse hother =>
    have hne : reg ≠ c.autoTempTarget nr point := by
      rintro rfl
      exact hother (autoTempReg_inj hnr' hnr hp' hp hreg htarget)
    rw [regs_write, Function.update_of_ne hne, data_write, data_assign]
    refine ⟨?_, rfl⟩
    by_cases hrow : nr' = nr
    · subst hrow
      have hpoint : point' ≠ point := fun hp => hother ⟨rfl, hp⟩
      exact (congrFun (put_row ..) point').trans (Function.update_of_ne hpoint _ _)
    · exact congrFun (put_of_ne _ hrow _ _) point'

theorem coherent_setAutoTemp {nr point : ℕ} (hnr : nr < 3) (hp : point < 4)
    (hauto : c.hasAutopwm = true) (h : c.Coherent w) :
    c.Coherent ((c.setAutoTemp nr point buf).run device w).2 := by
  by_cases hval : ∃ val, c.kstrtol buf = some val ∧ -128000 ≤ val ∧ val ≤ 127000
  case neg =>
    rw [run_setAutoTemp_refused hval]
    exact h
  obtain ⟨val, hparse, hrange⟩ := hval
  have hmain : regFanMainCtrl ≠ c.autoTempTarget nr point := by
    intro heq
    exact autoTempReg_ne_others (by omega) (by simp) point hp (heq ▸ autoTempReg_target nr hp hauto)
  refine ⟨?_, fun hv nr' hnr' hpwm point' hp' reg hreg => ?_⟩
  · rw [run_setAutoTemp hparse hrange, regs_write, Function.update_of_ne hmain]
    exact h.mainCtrl
  · have hlt : nr < 6 := by omega
    have hlt' : nr' < 6 := by omega
    have hpoints := points_setAutoTemp (w := w) hlt hp hauto hparse hrange hlt' hp' hreg
    have hvalid : w.data.valid = true := by
      rw [run_setAutoTemp hparse hrange] at hv
      exact hv
    dsimp only at hpoints
    split at hpoints
    · exact hpoints
    · rw [hpoints.1, hpoints.2]
      exact h.points hvalid nr' hnr' hpwm point' hp' reg hreg

theorem autoTempIndex_lt (i : ℕ) : autoTempIndex i < 3 := by
  unfold autoTempIndex
  split <;> omega

/-- The registers of trip points are among those of their channel. -/
theorem autoTempReg_mem {point : ℕ} {reg : Word} (hnr : nr < 6) (hp : point < 4)
    (h : c.autoTempReg nr point = some reg) : reg ∈ c.type.tables.channelRegs nr := by
  obtain ⟨rfl, hlt, -⟩ := autoTempReg_some hp h
  exact (autoTemp_apart c.type hnr hlt).1

theorem coherent_isPoint (ha : a.isPoint = true) (hm : c.mode a = .writable) (h : c.Coherent w) :
    c.Coherent ((c.attempt a buf).run device w).2 := by
  cases a
  case pwmAutoPointTemp i k =>
    have hauto : c.hasAutopwm = true := by
      simp only [mode, shownIf] at hm
      grind
    rw [c.attempt_eq hm rfl]
    exact coherent_setAutoTemp (autoTempIndex_lt i) (by omega) hauto h
  case pwmAutoPoint1TempHyst i =>
    have hauto : c.hasAutopwm = true := by
      simp only [mode, shownIf] at hm
      grind
    rw [c.attempt_eq hm rfl]
    exact coherent_setAutoTemp (autoTempIndex_lt i) (by omega) hauto h
  all_goals cases ha

theorem coherent_attempt (h : c.Coherent w) : c.Coherent ((c.attempt a buf).run device w).2 := by
  by_cases hm : c.mode a = .writable
  case neg =>
    rw [c.attempt_of_mode hm]
    exact h
  cases hp : a.isPoint
  case true => exact coherent_isPoint hp hm h
  have hu := untouched_attempt (c := c) a buf w
  constructor
  · by_cases ha : ∃ i, a = .pwmEnable i
    · obtain ⟨i, rfl⟩ := ha
      rw [c.attempt_eq hm rfl]
      exact (switched_setPwmEnable h.mainCtrl).agrees
    · have hne : ∀ i, a ≠ .pwmEnable i := fun i hi => ha ⟨i, hi⟩
      rw [hu.fanMainCtrl hne, regs_attempt (c.mainCtrl_apart.2 a hne)]
      exact h.mainCtrl
  · intro hv nr hnr hpwm point hpt reg hreg
    have hold := h.points (hu.invalid hv) nr hnr hpwm point hpt reg hreg
    by_cases ha : a.channel = some nr
    · obtain ⟨hregs, hdata⟩ := pointsKept_attempt (by omega) (fun _ => hnr) ha hp buf w point hpt
      rw [hregs reg hreg]
      rcases hdata with hd | ⟨reg', hreg', hd⟩
      · exact hd.trans hold
      · obtain rfl := Option.some.inj (hreg.symm.trans hreg')
        exact hd
    · have hapart := targets_apart c.type (by omega) ha (autoTempReg_mem (by omega) hpt hreg)
      have hd := congrArg (fun x => Channel.autoTemp x point) (hu.channel nr ha)
      rw [regs_attempt hapart]
      exact hd.trans hold

theorem coherent_step (e : Event) (h : c.Coherent w) : c.Coherent (c.step w e) := by
  cases e with
  | shown a =>
    rw [step_shown]
    split
    · exact coherent_updated h
    · exact h
  | stored a buf => exact coherent_attempt h
  | measured r v =>
    have hdata : (c.step w (.measured r v)).data = w.data := by
      simp only [step]
      split <;> rfl
    refine ⟨?_, fun hv nr hnr hpwm point hp reg hreg => ?_⟩
    · rw [hdata, regs_measured c.mainCtrl_apart.1]
      exact h.mainCtrl
    · rw [hdata] at hv ⊢
      rw [regs_measured (autoTempReg_notMem_inputs (by omega) hp hreg)]
      exact h.points hv nr hnr hpwm point hp reg hreg

theorem coherent_run (h : Probed c w) (events : List Event) : c.Coherent (c.run w events) :=
  foldl_history (I := fun _ t => c.Coherent t) (coherent_probed h)
    (fun _ e _ ht => coherent_step e ht) events

/-! ### What the attributes of a channel show -/

/-- The data that the attributes of channel `m` show. -/
structure SameView (m : ℕ) (d d' : It87Data) : Prop where
  channel : d'.channel m = d.channel m
  points : ∀ point < 4, d'.autoTemp (autoTempIndex m) point = d.autoTemp (autoTempIndex m) point
  onOff : m < 3 → d'.fanMainCtrl.getLsbD m = d.fanMainCtrl.getLsbD m
  freq : (d'.fanCtl >>> 4) &&& (0x07 : Byte) = (d.fanCtl >>> 4) &&& (0x07 : Byte)
  extra : d'.extra = d.extra

/-- An attribute of the channel shows nothing else. -/
theorem showOf_owner (ha : a.owner = some m) :
    ∃ f, c.showOf a = c.showing f ∧ ∀ d d', SameView m d d' → f d' = f d := by
  cases a
  case pwmEnable i =>
    cases ha
    refine ⟨_, rfl, fun d d' h => ?_⟩
    have hctrl : d'.pwmCtrl i = d.pwmCtrl i := congrArg Channel.ctrl h.channel
    have hduty : d'.pwmDuty i = d.pwmDuty i := congrArg Channel.duty h.channel
    simp only [pwmMode, hctrl, hduty]
    by_cases hi : i.val < 3
    · rw [h.onOff hi]
    · simp [hi]
  case pwm i =>
    cases ha
    exact ⟨_, rfl, fun d d' h => congrArg (fun x => c.pwmFromReg (Channel.duty x)) h.channel⟩
  case pwmFreq i =>
    cases ha
    refine ⟨_, rfl, fun d d' h => ?_⟩
    rw [h.extra, h.freq]
  case pwmAutoChannelsTemp i =>
    cases ha
    refine ⟨_, rfl, fun d d' h => ?_⟩
    have hmap : d'.pwmTempMap i = d.pwmTempMap i := congrArg Channel.tempMap h.channel
    rw [hmap]
  case pwmAutoPointPwm i k =>
    cases ha
    exact ⟨_, rfl, fun d d' h => congrArg (fun x => c.pwmFromReg (Channel.autoPwm x k)) h.channel⟩
  case pwmAutoStart i =>
    cases ha
    exact ⟨_, rfl, fun d d' h => congrArg (fun x => c.pwmFromReg (Channel.autoPwm x 0)) h.channel⟩
  case pwmAutoSlope i =>
    cases ha
    exact ⟨_, rfl, fun d d' h =>
      congrArg (fun x => ((Channel.autoPwm x 1 &&& 0x7f).toNat : ℤ)) h.channel⟩
  case pwmAutoPoint4Temp i =>
    cases ha
    refine ⟨_, rfl, fun d d' h => ?_⟩
    have hrow : d'.autoTemp i = d.autoTemp i := congrArg Channel.autoTemp h.channel
    rw [hrow]
  case pwmAutoPointTemp i k =>
    cases ha
    refine ⟨_, rfl, fun d d' h => ?_⟩
    have h0 : ¬ k.val + 1 = 0 := by omega
    simp only [h0, ne_eq, not_false_eq_true, or_true, if_true]
    rw [h.points (k + 1) (by omega)]
  case pwmAutoPoint1TempHyst i =>
    cases ha
    refine ⟨_, rfl, fun d d' h => ?_⟩
    rw [h.points 0 (by omega), h.points 1 (by omega)]
  all_goals cases ha

/-! ### States that are the same to a channel -/

/-- Nothing that channel `m` depends on differs, but for trip points that have been read again. -/
structure Spared (c : It87Chip) (m : ℕ) (w t : World) : Prop where
  clock : t.clock = w.clock
  lastUpdated : t.data.lastUpdated = w.data.lastUpdated
  valid : t.data.valid = w.data.valid
  channel : t.data.channel m = w.data.channel m
  regs : ∀ reg ∈ c.type.tables.channelRegs m, t.regs reg = w.regs reg
  points : c.PointsKept (autoTempIndex m) w t
  disabled : c.hasPwm.getLsbD (autoTempIndex m) = false → ∀ point < 4,
    t.data.autoTemp (autoTempIndex m) point = w.data.autoTemp (autoTempIndex m) point
  mainCtrl : m < 3 → (t.regs regFanMainCtrl).getLsbD m = (w.regs regFanMainCtrl).getLsbD m
  mainCtrlData : m < 3 → t.data.fanMainCtrl.getLsbD m = w.data.fanMainCtrl.getLsbD m
  ctl : m < 3 → (t.regs regFanCtl).getLsbD m = (w.regs regFanCtl).getLsbD m
  freq : (t.regs regFanCtl >>> 4) &&& (0x07 : Byte) = (w.regs regFanCtl >>> 4) &&& (0x07 : Byte)
  ctlData : t.data.fanCtl = w.data.fanCtl
  extra : t.regs regTempExtra = w.regs regTempExtra
  extraData : t.data.extra = w.data.extra

theorem Spared.refl (c : It87Chip) (m : ℕ) (w : World) : c.Spared m w w where
  clock := rfl
  lastUpdated := rfl
  valid := rfl
  channel := rfl
  regs _ _ := rfl
  points := .refl c _ w
  disabled _ _ _ := rfl
  mainCtrl _ := rfl
  mainCtrlData _ := rfl
  ctl _ := rfl
  freq := rfl
  ctlData := rfl
  extra := rfl
  extraData := rfl

/-- A channel is read from its own registers. -/
theorem channelRead_congr {regs regs' : Word → Byte} (hm : m < 6)
    (h : ∀ reg ∈ c.type.tables.channelRegs m, regs' reg = regs reg) (x : Channel) :
    c.channelRead regs' m x = c.channelRead regs m x := by
  have hpwm : regs' (c.regPwm m) = regs (c.regPwm m) := h _ (by simp [Tables.channelRegs, regPwm])
  have hduty : regs' (regPwmDuty m) = regs (regPwmDuty m) := h _ (by simp [Tables.channelRegs])
  have hauto : ∀ i < 8, regs' (regAutoTemp m i) = regs (regAutoTemp m i) := fun i hi =>
    h _ (List.mem_append_right _ (List.mem_map.mpr ⟨i, List.mem_range.mpr hi, rfl⟩))
  have hpoints : ∀ point, (c.autoTempReg m point).map regs' = (c.autoTempReg m point).map regs := by
    intro point
    cases hreg : c.autoTempReg m point with
    | none => rfl
    | some reg =>
      refine congrArg some ?_
      unfold autoTempReg at hreg
      grind
  have hstarts : ∀ point, (c.autoPwmReg m point).map regs' = (c.autoPwmReg m point).map regs := by
    intro point
    have hreg5 := (regs_autoTemp hm).2
    cases hreg : c.autoPwmReg m point with
    | none => rfl
    | some reg =>
      refine congrArg some ?_
      unfold autoPwmReg at hreg
      grind
  simp only [channelRead, hpwm, hduty, hpoints, hstarts]

/-- A refresh brings a channel's attributes to show the same. -/
theorem view_refreshed {t : World} (hm : m < 6) (h : c.Spared m w t) :
    SameView m (c.refreshed (c.vbat w.ticked).regs ((c.vbat w.ticked).clock 0) w.data)
      (c.refreshed (c.vbat t.ticked).regs ((c.vbat t.ticked).clock 0) t.data) := by
  have hvbat : ∀ (x : World) {reg : Word}, reg ≠ regConfig →
      (c.vbat x.ticked).regs reg = x.regs reg := fun x _ hreg => regs_vbat hreg x.ticked
  have hne : ∀ {k : ℕ} {reg : Word}, k < 6 → reg ∈ c.type.tables.channelRegs k →
      reg ≠ regConfig := by
    rintro k reg hk hr rfl
    exact channelRegs_ne_config c.type hk hr
  have hctl : regFanCtl ≠ regConfig := by decide
  have hmain : regFanMainCtrl ≠ regConfig := by decide
  have hextra : regTempExtra ≠ regConfig := by decide
  refine ⟨?_, fun point hp => ?_, fun hm3 => ?_, ?_, ?_⟩
  · have hrow : ∀ x : World, (c.refreshed (c.vbat x.ticked).regs ((c.vbat x.ticked).clock 0)
        x.data).channel m = c.channelRow (c.vbat x.ticked).regs m (x.data.channel m) :=
      fun x => rows_of_lt hm _ _
    have hregs : ∀ reg ∈ c.type.tables.channelRegs m,
        (c.vbat t.ticked).regs reg = (c.vbat w.ticked).regs reg := fun reg hr => by
      rw [hvbat t (hne hm hr), hvbat w (hne hm hr)]
      exact h.regs reg hr
    rw [hrow, hrow, h.channel, channelRow, channelRow, channelRead_congr hm hregs]
  · have hidx : autoTempIndex m < 6 := by
      have := autoTempIndex_lt m
      omega
    obtain ⟨hregs, hdata⟩ := h.points point hp
    simp only [refreshed, rows_of_lt hidx, channelRow]
    cases hpwm : c.hasPwm.getLsbD (autoTempIndex m)
    · exact h.disabled hpwm point hp
    · simp only [if_true, channelRead]
      cases hreg : c.autoTempReg (autoTempIndex m) point with
      | none =>
        rcases hdata with heq | ⟨reg, hsome, -⟩
        · exact heq
        · rw [hreg] at hsome
          cases hsome
      | some reg =>
        have hconfig := hne hidx (autoTempReg_mem hidx hp hreg)
        simp only [Option.map_some, Option.getD_some]
        rw [hvbat t hconfig, hvbat w hconfig]
        exact hregs reg hreg
  · simp only [refreshed]
    rw [hvbat t hmain, hvbat w hmain]
    exact h.mainCtrl hm3
  · simp only [refreshed]
    rw [hvbat t hctl, hvbat w hctl]
    exact h.freq
  · simp only [refreshed]
    rw [hvbat t hextra, hvbat w hextra]
    exact h.extra

/-- What a channel's attributes show is the same in states that are the same to it. -/
theorem view_updated {t : World} (hm : m < 6) (hw : c.Coherent w) (h : c.Spared m w t) :
    SameView m (c.updated w).data (c.updated t).data := by
  have hstale : c.stale (t.clock 0) t.data = c.stale (w.clock 0) w.data := by
    simp only [stale, h.clock, h.lastUpdated, h.valid]
  unfold updated
  rw [hstale]
  by_cases hs : c.stale (w.clock 0) w.data
  · simp only [hs, if_true, data_vbat, data_ticked]
    exact view_refreshed hm h
  · have hvalid : w.data.valid = true := by
      by_contra hv
      simp [stale, hv] at hs
    simp only [hs, Bool.false_eq_true, if_false, data_ticked]
    refine ⟨h.channel, fun point hp => ?_, h.mainCtrlData, by rw [h.ctlData], h.extraData⟩
    cases hpwm : c.hasPwm.getLsbD (autoTempIndex m)
    · exact h.disabled hpwm point hp
    · rcases (h.points point hp).2 with heq | ⟨reg, hreg, heq⟩
      · exact heq
      · exact heq.trans (hw.points hvalid _ (autoTempIndex_lt m) hpwm point hp reg hreg).symm

/-! ### Stores that spare the other channels -/

/-- A trip point of channel 3 gets another value, in its register or in the cache. -/
def Resets (c : It87Chip) (w : World) (point : ℕ) (val : ℤ) : Prop :=
  c.autoTempValue w.data 2 point val ≠ w.regs (c.autoTempTarget 2 point) ∨
    c.autoTempValue w.data 2 point val ≠ w.data.autoTemp 2 point

/-- Storing in an attribute of channel `n` changes a trip point that channel `m` shares: it is
channel 3's own, or shown by a later channel that is enabled. -/
def SetsShared (c : It87Chip) (w : World) (n m : ℕ) (a : Attribute) (buf : List Char) : Prop :=
  a.isPoint = true ∧ 2 ≤ n ∧ 2 ≤ m ∧ (2 < m → c.hasPwm.getLsbD m = true) ∧
    c.mode a = .writable ∧
      ∃ val, c.kstrtol buf = some val ∧ (-128000 ≤ val ∧ val ≤ 127000) ∧ c.Resets w a.point val

/-- The channel that an attribute is bound to, by the one in whose name it is. -/
theorem channel_of_owner {n : ℕ} (ha : a.owner = some n) (hf : ∀ i, a ≠ .pwmFreq i) :
    a.channel = some (if a.isPoint then autoTempIndex n else n) := by
  cases a
  case pwmFreq i => exact absurd rfl (hf i)
  all_goals
    cases ha
    try rfl

theorem storeOf_point {n : ℕ} (hp : a.isPoint = true) (ha : a.owner = some n) :
    c.storeOf a = some (c.setAutoTemp (autoTempIndex n) a.point) := by
  cases a
  case pwmAutoPointTemp i k =>
    cases ha
    rfl
  case pwmAutoPoint1TempHyst i =>
    cases ha
    rfl
  all_goals cases hp

theorem put_eq_self {α : Type} (x : ℕ → ℕ → α) (i j : ℕ) : put x i j (x i j) = x := by
  rw [put, Function.update_eq_self, Function.update_eq_self]

/-- A point that is not accepted, or is what it was, changes nothing. -/
theorem attempt_point_self {n : ℕ} (hp : a.isPoint = true) (ha : a.owner = some n) (hn : 2 ≤ n)
    (h : c.mode a = .writable → ∀ val, c.kstrtol buf = some val →
      -128000 ≤ val ∧ val ≤ 127000 → ¬ c.Resets w a.point val) :
    ((c.attempt a buf).run device w).2 = w := by
  by_cases hm : c.mode a = .writable
  case neg =>
    rw [c.attempt_of_mode hm]
    rfl
  have hidx : autoTempIndex n = 2 := by
    unfold autoTempIndex
    split <;> omega
  rw [c.attempt_eq hm (storeOf_point hp ha), hidx]
  by_cases hval : ∃ val, c.kstrtol buf = some val ∧ -128000 ≤ val ∧ val ≤ 127000
  · obtain ⟨val, hparse, hrange⟩ := hval
    obtain ⟨hreg, hdata⟩ := not_or.mp (h hm val hparse hrange)
    rw [run_setAutoTemp hparse hrange, not_not.mp hdata]
    have hsame : w.data.autoTemp 2 a.point = w.regs (c.autoTempTarget 2 a.point) :=
      (not_not.mp hdata).symm.trans (not_not.mp hreg)
    simp only [World.assign, World.write, put_eq_self]
    rw [hsame, Function.update_eq_self]
  · rw [run_setAutoTemp_refused hval]

/-- The switches of the other fans. -/
theorem switched_attempt {n : ℕ} (ha : a.owner = some n) (hf : ∀ i, a ≠ .pwmFreq i)
    (buf : List Char) (hw : c.Coherent w) : Switched n w ((c.attempt a buf).run device w).2 := by
  have hc : a.channel ≠ none := by
    rw [channel_of_owner ha hf]
    exact Option.some_ne_none _
  by_cases he : ∃ i, a = .pwmEnable i
  · obtain ⟨i, rfl⟩ := he
    cases ha
    by_cases hm : c.mode (.pwmEnable i) = .writable
    · rw [c.attempt_eq hm rfl]
      exact switched_setPwmEnable hw.mainCtrl
    · rw [c.attempt_of_mode hm]
      exact .refl i hw.mainCtrl
  · have hne : ∀ i, a ≠ .pwmEnable i := fun i hi => he ⟨i, hi⟩
    have hmain := regs_attempt (c.mainCtrl_apart.2 a hne) buf w
    refine ⟨(coherent_attempt hw).mainCtrl, ?_, ?_⟩
    · rw [hmain]
      exact .refl n _
    · rw [regs_attempt (c.ctl_apart hc hne)]
      exact .refl n _

/-- Storing in an attribute of another channel, but for a shared trip point. -/
theorem spared_attempt {n : ℕ} (hw : c.Coherent w) (ha : a.owner = some n)
    (hf : ∀ i, a ≠ .pwmFreq i) (hm : m < 6) (hne : n ≠ m)
    (hon : 2 < m → c.hasPwm.getLsbD m = true) (hs : ¬ c.SetsShared w n m a buf) :
    c.Spared m w ((c.attempt a buf).run device w).2 := by
  by_cases hshared : a.isPoint = true ∧ 2 ≤ n ∧ 2 ≤ m
  · obtain ⟨h1, h2, h3⟩ := hshared
    rw [attempt_point_self h1 ha h2 fun hmode val hval hrange hreset =>
      hs ⟨h1, h2, h3, hon, hmode, val, hval, hrange, hreset⟩]
    exact .refl c m w
  have hc := channel_of_owner ha hf
  have hsome : a.channel ≠ none := by
    rw [hc]
    exact Option.some_ne_none _
  have hmine : a.channel ≠ some m := by
    rw [hc]
    unfold autoTempIndex
    grind
  have hu := untouched_attempt (c := c) a buf w
  have hsw := switched_attempt ha hf buf hw
  have hidx := autoTempIndex_lt m
  have hother : a.channel = some (autoTempIndex m) → a.isPoint = false ∧ n = autoTempIndex m := by
    intro heq
    rw [hc, Option.some.injEq] at heq
    unfold autoTempIndex at *
    grind
  have hdata : a.channel ≠ some (autoTempIndex m) → ∀ point,
      ((c.attempt a buf).run device w).2.data.autoTemp (autoTempIndex m) point =
        w.data.autoTemp (autoTempIndex m) point := fun hk point =>
    congrArg (fun x => Channel.autoTemp x point) (hu.channel _ hk)
  exact {
    clock := clock_attempt w
    lastUpdated := hu.lastUpdated
    valid := hu.valid hsome
    channel := hu.channel m hmine
    regs := fun reg hr => regs_attempt (targets_apart c.type hm hmine hr) buf w
    points := by
      by_cases hk : a.channel = some (autoTempIndex m)
      · exact pointsKept_attempt (by omega) (fun _ => hidx) hk (hother hk).1 buf w
      · intro point hp
        refine ⟨fun reg hreg => ?_, .inl (hdata hk point)⟩
        exact regs_attempt (targets_apart c.type (by omega) hk
          (autoTempReg_mem (by omega) hp hreg)) buf w
    disabled := by
      intro hpwm point hp
      by_cases hk : a.channel = some (autoTempIndex m)
      · have hmode : c.mode a ≠ .writable := fun hmode => by
          have hon := hasPwm_of_writable ha hmode
          rw [(hother hk).2, hpwm] at hon
          cases hon
        rw [c.attempt_of_mode hmode]
        rfl
      · exact hdata hk point
    mainCtrl := fun _ => hsw.mainCtrl m fun _ => hne.symm
    mainCtrlData := fun _ => by
      rw [hsw.agrees, hw.mainCtrl]
      exact hsw.mainCtrl m fun _ => hne.symm
    ctl := fun _ => hsw.ctl m fun _ => hne.symm
    freq := hsw.ctl.freq
    ctlData := hu.fanCtl hsome
    extra := regs_attempt (c.extra_apart hsome) buf w
    extraData := hu.extra hsome }

/-- No register and no bit of channel `m` has changed, and its attributes show the same. -/
structure Undisturbed (c : It87Chip) (m : Fin 6) (w t : World) : Prop where
  regs : ∀ reg ∈ c.type.tables.channelRegs m, t.regs reg = w.regs reg
  mainCtrl : m.val < 3 → (t.regs regFanMainCtrl).getLsbD m = (w.regs regFanMainCtrl).getLsbD m
  ctl : m.val < 3 → (t.regs regFanCtl).getLsbD m = (w.regs regFanCtl).getLsbD m
  shows : ∀ b : Attribute, b.owner = some m.val →
    ((c.look b).run device t).1 = ((c.look b).run device w).1

/-- A channel that is not enabled shows nothing, and a later one has no trip points of its own. -/
theorem undisturbed_of_disabled {n : ℕ} {m : Fin 6} (ha : a.owner = some n)
    (hf : ∀ i, a ≠ .pwmFreq i) (hne : n ≠ m) (hlate : 2 < m.val)
    (hoff : c.hasPwm.getLsbD m = false) : c.Undisturbed m w (c.step w (.stored a buf)) := by
  have hmine : a.channel ≠ some m.val := by
    rw [channel_of_owner ha hf]
    unfold autoTempIndex
    grind
  refine ⟨fun reg hr => regs_attempt (targets_apart c.type m.isLt hmine hr) buf w,
    fun h3 => by omega, fun h3 => by omega, fun b hb => ?_⟩
  have hhidden : c.mode b = .hidden := mode_of_disabled hb hoff
  rw [look, if_pos hhidden]
  rfl

/-- Storing in an attribute of a channel, other than its frequency, disturbs no other channel,
unless it changes a trip point that both share. -/
theorem store_undisturbed (h : Probed c w) (events : List Event) (n m : Fin 6) (hne : n ≠ m)
    (a : Attribute) (ha : a.owner = some n.val) (hf : ∀ i, a ≠ .pwmFreq i) (buf : List Char)
    (hs : ¬ c.SetsShared (c.run w events) n m a buf) :
    c.Undisturbed m (c.run w events) (c.step (c.run w events) (.stored a buf)) := by
  have hw := coherent_run h events
  have hother : n.val ≠ m := fun heq => hne (Fin.ext heq)
  by_cases hoff : 2 < m.val ∧ c.hasPwm.getLsbD m = false
  · exact undisturbed_of_disabled ha hf hother hoff.1 hoff.2
  have hon : 2 < m.val → c.hasPwm.getLsbD m = true := fun hlate => by
    rw [← Bool.not_eq_false]
    exact fun h0 => hoff ⟨hlate, h0⟩
  have hspared := spared_attempt hw ha hf m.isLt hother hon hs
  refine ⟨hspared.regs, hspared.mainCtrl, hspared.ctl, fun b hb => ?_⟩
  obtain ⟨f, hshow, hview⟩ := showOf_owner (c := c) hb
  have hsame := hview _ _ (view_updated m.isLt hw hspared)
  unfold look
  split
  · rfl
  · rw [hshow, run_showing, run_showing, step, hsame]

/-- A duty cycle of the first channel, and the second one. -/
theorem store_undisturbed_duty :
    (Chips.it8665.known []).Undisturbed 1
      ((Chips.it8665.known []).run (Chips.it8665.probe []).2 [.shown (.pwm 0)])
      ((Chips.it8665.known []).step
        ((Chips.it8665.known []).run (Chips.it8665.probe []).2 [.shown (.pwm 0)])
        (.stored (.pwm 0) "128\n".toList)) := by
  refine store_undisturbed (Chips.probed (by decide +kernel)) _ 0 1 (by decide) (.pwm 0) rfl ?_ _ ?_
  · intro i hi
    cases hi
  · rintro ⟨h, -⟩
    cases h

/-- A trip point of the fourth channel is one of the third. -/
theorem store_disturbs :
    ¬ ∀ (c : It87Chip) (w : World) (events : List Event) (n m : Fin 6) (a : Attribute)
      (buf : List Char), Probed c w → n ≠ m → a.owner = some n.val → (∀ i, a ≠ .pwmFreq i) →
      c.Undisturbed m (c.run w events) (c.step (c.run w events) (.stored a buf)) := by
  intro h
  have hregs := (h (Chips.it8665.known []) (Chips.it8665.probe []).2 [] 3 2 (.pwmAutoPointTemp 3 0)
    "50000\n".toList (Chips.probed (by decide +kernel)) (by decide) rfl
    (by
      intro i hi
      cases hi)).regs 0x70 (by decide +kernel)
  revert hregs
  decide +kernel

end It87Chip

end BuffaloNas.It87
