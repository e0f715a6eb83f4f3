import BuffaloNas.It87.Channels

/-! What a probe finds out about a chip, and how it leaves the registers that told it. -/
namespace BuffaloNas.It87
open Interaction Program SuperIo World

/-- All but the listed registers are as they were. -/
def SameBut (l : List Word) (regs regs' : Word → Byte) : Prop := ∀ r, r ∉ l → regs' r = regs r

namespace SameBut

variable {l l' : List Word} {regs regs' regs'' : Word → Byte}

theorem refl (l : List Word) (regs : Word → Byte) : SameBut l regs regs := fun _ _ => rfl

theorem trans (h : SameBut l regs regs') (h' : SameBut l regs' regs'') : SameBut l regs regs'' :=
  fun r hr => (h' r hr).trans (h r hr)

theorem update (h : SameBut l regs regs') {r : Word} (hr : r ∈ l) (v : Byte) :
    SameBut l regs (Function.update regs' r v) := by
  intro r' hr'
  have hne : r' ≠ r := by
    rintro rfl
    exact hr' hr
  exact (Function.update_of_ne hne v regs').trans (h r' hr')

end SameBut

/-! ### The registers a probe goes by -/

/-- The registers that a probe writes where a limit has been left at 0xff. -/
def Tables.limitRegs (t : Tables) : List Word :=
  (List.range 8).map regVinMin ++ (List.range 6).map (entry t.tempHigh) ++ [regVinEnable]

/-- The other registers that a probe goes by. -/
def probeRegs : List Word :=
  [regConfig, regChipid, regFanCtl, regTempExtra, regTemp456Enable, regFanMainCtrl, regFan16bit,
    regFanDiv]

/-- They are no limits. -/
theorem Chips.probeApart (type : Chips) : apart probeRegs type.tables.limitRegs := by
  refine type.forall_tables (P := fun t => apart probeRegs t.limitRegs) ?_ ?_ ?_ ?_
  all_goals decide +kernel

/-! ### Findings -/

/-- The tachometers that the driver switches on if none of them is. -/
def It87SioData.tachometers (sio : It87SioData) : Byte := 0x70 &&& ~~~(sio.skipFan <<< 4)

/-- `FAN_MAIN_CTRL` once some tachometer is on. -/
def It87SioData.switchedOn (sio : It87SioData) (reg : Byte) : Byte :=
  if reg &&& sio.tachometers = 0 then reg ||| sio.tachometers else reg

namespace It87Chip

variable (c : It87Chip) (sio : It87SioData) (regs : Word → Byte)

/-- The firmware has set up the channels. -/
def pwmFound : Bool := regs regFanCtl &&& 0x87 ≠ 0

/-- The third temperature of the IT8782F may have no pin. -/
def AsksTemp : Prop := sio.skipTemp.getLsbD 2 ∧ c.type = .it8782

instance : Decidable (c.AsksTemp sio) := inferInstanceAs (Decidable (_ ∧ _))

def tempFound : Byte :=
  if c.AsksTemp sio then if (regs regTempExtra).getLsbD 7 then 0x07 else 0x03 else 0x07

def sixTempFound (hasTemp : Byte) (hasIn : Word) : Byte × Word :=
  if c.has .sixTemp then
    let reg := regs regTemp456Enable
    let temps := bitIf (2 ≤ pinUse reg 0) 3 ||| bitIf (2 ≤ pinUse reg 1) 4 |||
      bitIf (2 ≤ pinUse reg 2) 5
    let ins := bitIf (pinUse reg 0 = 1) 10 ||| bitIf (pinUse reg 1 = 1) 11 |||
      bitIf (pinUse reg 2 = 1) 12
    (hasTemp ||| temps, hasIn ||| ins)
  else (hasTemp, hasIn)

def sixthFound (tmp : Byte) : Bool :=
  c.has .sixFans && match c.type with
    | .it8620 | .it8628 | .it8686 => tmp.getLsbD 2
    | .it8665 => (regs regFanDiv).getLsbD 3
    | _ => false

def fansFound : Byte :=
  let hasFan := (sio.switchedOn (regs regFanMainCtrl) >>> 4) &&& 0x07
  let tmp := regs regFan16bit
  let more := bitIf (c.hasFourFans && tmp.getLsbD 4) 3 |||
    bitIf (c.hasFiveFans && tmp.getLsbD 5) 4 ||| bitIf (c.sixthFound regs tmp) 5
  (hasFan ||| more) &&& ~~~sio.skipFan

def skipPwmFound : Byte :=
  if c.has .sixPwm ∧ (c.type = .it8620 ∨ c.type = .it8686) then
    sio.skipPwm ||| bitIf (!(regs regFanDiv).getLsbD 3) 5
  else sio.skipPwm

end It87Chip

open It87Chip in
/-- The chip that a probe makes of the registers. -/
def It87SioData.found (sio : It87SioData) (p : Platform) (regs : Word → Byte) (hasType : Byte) :
    It87Chip :=
  let c := unprobed p sio
  let sensors := c.sixTempFound regs (c.tempFound sio regs) (0x3ff &&& ~~~sio.skipIn)
  { c with
    inScaled := c.scaledOf sio
    hasIn := sensors.2
    hasFan := c.fansFound sio regs
    hasTemp := sensors.1
    hasPwm := if pwmFound regs then 0x3f &&& ~~~c.skipPwmFound sio regs else 0
    hasVid := !sio.skipVid
    hasType }

/-! ### The probe, step by step -/

namespace It87Chip

variable {c : It87Chip} {sio : It87SioData} {w : World}

theorem run_checkPwm {regs : Word → Byte} (hw : w.regs = regs)
    (h : c.fixPwmPolarity = true → pwmFound regs = true) :
    c.checkPwm.run device w = (.ok (pwmFound regs), w) := by
  simp only [checkPwm, run_bind, run_readValue, andThen_ok, hw]
  cases hfound : pwmFound regs
  · have hset : ¬ regs regFanCtl &&& 0x87 ≠ 0 := of_decide_eq_false hfound
    have hfix : ¬ c.fixPwmPolarity = true := fun hfix => by
      rw [h hfix] at hfound
      cases hfound
    rw [if_neg hset, if_neg hfix]
    rfl
  · rw [if_pos (of_decide_eq_true hfound)]
    rfl

/-- The driver cannot set up the channels itself, though it can be told to. -/
theorem run_checkPwm_fix (hfix : c.fixPwmPolarity = true) (h : pwmFound w.regs = false) :
    c.checkPwm.run device w = (.error .nullPointer, w) := by
  simp only [checkPwm, run_bind, run_readValue, andThen_ok]
  rw [if_neg (of_decide_eq_false h), if_pos hfix]
  rfl

theorem run_probeTemp (sio : It87SioData) (w : World) :
    (c.probeTemp sio).run device w = (.ok (c.tempFound sio w.regs), w) := by
  unfold probeTemp tempFound
  by_cases h : c.AsksTemp sio
  · have h' : sio.skipTemp.getLsbD 2 = true ∧ c.type = .it8782 := h
    rw [if_pos h, if_pos h']
    rfl
  · have h' : ¬ (sio.skipTemp.getLsbD 2 = true ∧ c.type = .it8782) := h
    rw [if_neg h, if_neg h']
    rfl

theorem run_probeSixTemp (hasTemp : Byte) (hasIn : Word) (w : World) :
    (c.probeSixTemp hasTemp hasIn).run device w =
      (.ok (c.sixTempFound w.regs hasTemp hasIn), w) := by
  unfold probeSixTemp sixTempFound
  split <;> simp

theorem run_initLimit {reg : Word} (h : reg ∈ c.type.tables.limitRegs) (v : Byte) (w : World) :
    ∃ t, (initLimit reg v).run device w = (.ok (), t) ∧
      SameBut c.type.tables.limitRegs w.regs t.regs := by
  simp only [initLimit, run_bind, run_readValue, andThen_ok]
  split
  · exact ⟨_, run_writeValue w reg v, (SameBut.refl _ _).update h v⟩
  · exact ⟨w, rfl, .refl _ _⟩

/-- A loop whose rounds leave all but the listed registers alone. -/
theorem run_forM_sameBut {α : Type} {l : List Word} {f : α → Driver Unit} {as : List α}
    (h : ∀ a ∈ as, ∀ w, ∃ t, (f a).run device w = (.ok (), t) ∧ SameBut l w.regs t.regs)
    (w : World) : ∃ t, (as.forM f).run device w = (.ok (), t) ∧ SameBut l w.regs t.regs := by
  induction as generalizing w with
  | nil => exact ⟨w, rfl, .refl _ _⟩
  | cons a as ih =>
    obtain ⟨t, hrun, ht⟩ := h a (List.mem_cons_self ..) w
    obtain ⟨u, hrun', hu⟩ := ih (fun b hb => h b (List.mem_cons_of_mem a hb)) t
    refine ⟨u, ?_, ht.trans hu⟩
    rw [List.forM_eq_forM, List.forM_cons, run_bind, hrun, andThen_ok]
    exact hrun'

theorem run_initLimits (w : World) : ∃ t, c.initLimits.run device w = (.ok (), t) ∧
    SameBut c.type.tables.limitRegs w.regs t.regs := by
  have hins : ∀ i ∈ List.range 8, regVinMin i ∈ c.type.tables.limitRegs := fun i hi =>
    List.mem_append_left _ (List.mem_append_left _ (List.mem_map_of_mem hi))
  have htemps : ∀ i ∈ List.range c.numTempLimit, c.regTempHigh i ∈ c.type.tables.limitRegs := by
    intro i hi
    have hle := c.numTempLimit_le
    have hlt := List.mem_range.mp hi
    refine List.mem_append_left _ (List.mem_append_right _ (List.mem_map.mpr ⟨i, ?_, rfl⟩))
    exact List.mem_range.mpr (by omega)
  obtain ⟨t, hrun, ht⟩ := run_forM_sameBut (fun i hi => run_initLimit (hins i hi) 0) w
  obtain ⟨u, hrun', hu⟩ := run_forM_sameBut (fun i hi => run_initLimit (htemps i hi) 127) t
  simp only [initLimits, run_bind, hrun, andThen_ok, hrun', run_readValue]
  split
  · refine ⟨_, run_writeValue u _ _, (ht.trans hu).update ?_ _⟩
    exact List.mem_append_right _ (List.mem_singleton_self _)
  · exact ⟨u, rfl, ht.trans hu⟩

/-- What the driver makes of the registers of the tachometers. -/
structure Spun (c : It87Chip) (sio : It87SioData) (regs regs' : Word → Byte) : Prop where
  others : SameBut [regFanMainCtrl, regFan16bit] regs regs'
  mainCtrl : regs' regFanMainCtrl = sio.switchedOn (regs regFanMainCtrl)
  fan16bit : regs' regFan16bit = regs regFan16bit ∨
    c.has .fan16Config = true ∧ regs' regFan16bit = regs regFan16bit ||| 0x07

theorem run_sixthFan (tmp : Byte) (w : World) :
    (c.sixthFan tmp).run device w = (.ok (c.sixthFound w.regs tmp), w) := by
  unfold sixthFan sixthFound
  cases c.has .sixFans
  · rfl
  · simp only [Bool.not_true, Bool.false_eq_true, if_false, Bool.true_and]
    split <;> simp [*]

theorem run_initFanMainCtrl (sio : It87SioData) (w : World) :
    ∃ t, (initFanMainCtrl sio).run device w =
      (.ok ((sio.switchedOn (w.regs regFanMainCtrl) >>> 4) &&& 0x07), t) ∧
    t.regs = Function.update w.regs regFanMainCtrl (sio.switchedOn (w.regs regFanMainCtrl)) := by
  simp only [initFanMainCtrl, run_bind, run_readValue, andThen_ok, run_assign]
  by_cases h : w.regs regFanMainCtrl &&& sio.tachometers = 0
  · have hon : sio.switchedOn (w.regs regFanMainCtrl) =
        w.regs regFanMainCtrl ||| sio.tachometers := if_pos h
    rw [hon]
    unfold It87SioData.tachometers at h ⊢
    simp only [if_pos h, run_bind, run_writeValue, andThen_ok, run_pure]
    exact ⟨_, rfl, rfl⟩
  · have hon : sio.switchedOn (w.regs regFanMainCtrl) = w.regs regFanMainCtrl := if_neg h
    rw [hon]
    unfold It87SioData.tachometers at h
    simp only [if_neg h, run_pure]
    exact ⟨_, rfl, (Function.update_eq_self _ _).symm⟩

theorem run_initFans (sio : It87SioData) (w : World) : ∃ t, (c.initFans sio).run device w =
      (.ok (c.fansFound sio w.regs), t) ∧ c.Spun sio w.regs t.regs := by
  obtain ⟨t, hrun, ht⟩ := run_initFanMainCtrl sio w
  have h16 : regFan16bit ≠ regFanMainCtrl := by decide
  have hdiv : ∀ u : World, u.regs regFanDiv = w.regs regFanDiv →
      ∀ tmp, c.sixthFound u.regs tmp = c.sixthFound w.regs tmp := fun u hu tmp => by
    unfold sixthFound
    rw [hu]
  have htmp : t.regs regFan16bit = w.regs regFan16bit := by
    rw [ht, Function.update_of_ne h16]
  have hsame : SameBut [regFanMainCtrl, regFan16bit] w.regs t.regs := by
    rw [ht]
    exact (SameBut.refl _ _).update (List.mem_cons_self ..) _
  have hmain : t.regs regFanMainCtrl = sio.switchedOn (w.regs regFanMainCtrl) := by
    rw [ht, Function.update_self]
  unfold initFans fansFound
  simp only [run_bind, hrun, andThen_ok, run_readValue, htmp]
  split
  case isTrue h =>
    simp only [run_bind, run_writeValue, andThen_ok, run_sixthFan, run_pure]
    rw [hdiv _ (by
      rw [regs_write, Function.update_of_ne (by decide)]
      exact hsame _ (by decide))]
    refine ⟨_, rfl, hsame.update (by simp) _, ?_, .inr ⟨h.1, ?_⟩⟩
    · rw [regs_write, Function.update_of_ne h16.symm, hmain]
    · rw [regs_write, Function.update_self]
  case isFalse =>
    simp only [run_bind, run_sixthFan, andThen_ok, run_pure]
    rw [hdiv _ (hsame _ (by decide))]
    exact ⟨_, rfl, hsame, hmain, .inl htmp⟩

theorem run_initSkipPwm (sio : It87SioData) (w : World) :
    (c.initSkipPwm sio).run device w = (.ok (c.skipPwmFound sio w.regs), w) := by
  unfold initSkipPwm skipPwmFound
  split <;> simp

theorem run_startMonitoring (w : World) :
    ∃ v, c.startMonitoring.run device w = (.ok (), w.write regConfig v) ∧ v.getLsbD 7 = false := by
  simp only [startMonitoring, run_bind, run_readValue, andThen_ok, run_writeValue]
  refine ⟨_, rfl, ?_⟩
  have hbits : ∀ x : Byte, ∀ b : Bool,
      (x &&& 0x3e ||| if b then 0x41 else 0x01).getLsbD 7 = false := by
    decide +kernel
  exact hbits _ _

theorem run_probeTypes (w : World) : ∃ types, c.probeTypes.run device w = (.ok types, w) := by
  have h : ∀ (l : List ℕ) (types : Byte), ∃ types', (l.foldlM (fun types i => do
      if c.hasTemp.getLsbD i ∧ i < c.numTempLimit then
        let type ← c.getTempType i
        return types ||| bitIf (type ≠ 0) i
      else return types) types : Driver Byte).run device w = (.ok types', w) := by
    intro l
    induction l with
    | nil => exact fun types => ⟨types, rfl⟩
    | cons i l ih =>
      intro types
      rw [List.foldlM_cons, run_bind]
      split
      · obtain ⟨n, hn⟩ := c.run_getTempType i w
        simp only [run_bind, hn, andThen_ok, run_pure]
        exact ih _
      · exact ih _
  exact h _ _

/-! ### The probe as a whole -/

theorem sixTempFound_congr {regs regs' : Word → Byte}
    (h : c.has .sixTemp = true → regs' regTemp456Enable = regs regTemp456Enable) (hasTemp : Byte)
    (hasIn : Word) : c.sixTempFound regs' hasTemp hasIn = c.sixTempFound regs hasTemp hasIn := by
  unfold sixTempFound
  by_cases h6 : c.has .sixTemp = true
  · rw [h h6]
  · rw [if_neg h6, if_neg h6]

theorem skipPwmFound_congr {regs regs' : Word → Byte} (h : regs' regFanDiv = regs regFanDiv) :
    c.skipPwmFound sio regs' = c.skipPwmFound sio regs := by
  rw [skipPwmFound, h]
  rfl

theorem fansFound_congr {regs regs' : Word → Byte} (hdiv : regs' regFanDiv = regs regFanDiv)
    (hmain : regs' regFanMainCtrl = regs regFanMainCtrl)
    (h16 : regs' regFan16bit = regs regFan16bit) :
    c.fansFound sio regs' = c.fansFound sio regs := by
  simp only [fansFound, sixthFound, hdiv, hmain, h16]

/-- How the initialisation leaves the registers that a probe goes by. -/
structure Initialised (c : It87Chip) (sio : It87SioData) (regs regs' : Word → Byte) : Prop where
  config : (regs' regConfig).getLsbD 7 = false
  others : ∀ r ∈ [regChipid, regFanCtl, regTemp456Enable, regFanDiv], regs' r = regs r
  mainCtrl : regs' regFanMainCtrl = sio.switchedOn (regs regFanMainCtrl)
  fan16bit : regs' regFan16bit = regs regFan16bit ∨
    c.has .fan16Config = true ∧ regs' regFan16bit = regs regFan16bit ||| 0x07

theorem run_initDefaults (w : World) :
    ∃ t, initDefaults.run device w = (.ok (), t) ∧ t.regs = w.regs := ⟨_, run_assign w _, rfl⟩

theorem run_initDevice (sio : It87SioData) (w : World) : ∃ t, (c.initDevice sio).run device w =
      (.ok (c.fansFound sio w.regs, c.skipPwmFound sio w.regs), t) ∧
    c.Initialised sio w.regs t.regs := by
  obtain ⟨s, hdefaults, hs⟩ := run_initDefaults w
  obtain ⟨t, hlimits, ht⟩ := run_initLimits (c := c) s
  obtain ⟨u, hfans, hu⟩ := run_initFans (c := c) sio t
  obtain ⟨v, hmonitor, hv⟩ := run_startMonitoring (c := c) u
  have ht : ∀ {r}, r ∈ probeRegs → t.regs r = w.regs r := fun hr => by
    rw [ht _ (apart_iff.mp c.type.probeApart _ hr), hs]
  have hdiv : t.regs regFanDiv = w.regs regFanDiv := ht (by decide)
  have hmain : t.regs regFanMainCtrl = w.regs regFanMainCtrl := ht (by decide)
  have h16 : t.regs regFan16bit = w.regs regFan16bit := ht (by decide)
  have hmonitored : ∀ {r}, r ≠ regConfig → (u.write regConfig v).regs r = u.regs r := fun hr =>
    Function.update_of_ne hr _ _
  have hothers : ∀ {r}, r ∈ probeRegs → r ≠ regConfig → r ∉ [regFanMainCtrl, regFan16bit] →
      (u.write regConfig v).regs r = w.regs r :=
    fun hr hconfig hfan => by rw [hmonitored hconfig, hu.others _ hfan, ht hr]
  refine ⟨u.write regConfig v, ?_, ⟨?_, fun r hr => ?_, ?_, ?_⟩⟩
  · have hdivU : u.regs regFanDiv = w.regs regFanDiv := (hu.others _ (by decide)).trans hdiv
    simp only [initDevice, run_bind, hdefaults, andThen_ok, hlimits, hfans, run_initSkipPwm,
      hmonitor, run_pure, skipPwmFound_congr hdivU, fansFound_congr hdiv hmain h16]
  · rw [regs_write, Function.update_self]
    exact hv
  · simp only [List.mem_cons, List.not_mem_nil, or_false] at hr
    rcases hr with rfl | rfl | rfl | rfl
    all_goals exact hothers (by decide) (by decide) (by decide)
  · rw [hmonitored (by decide), hu.mainCtrl, hmain]
  · rw [hmonitored (by decide), ← h16]
    exact hu.fan16bit

/-- The chip lets itself be taken over. -/
structure Takes (p : Platform) (regs : Word → Byte) : Prop where
  config : (regs regConfig).getLsbD 7 = false
  chipid : regs regChipid = 0x90
  setUp : p.fixPwmPolarity = true → pwmFound regs = true

theorem run_it87Probe (p : Platform) (sio : It87SioData) {w : World} (h : Takes p w.regs) :
    ∃ types t, (it87Probe p sio).run device w = (.ok (.ok (sio.found p w.regs types)), t) ∧
      (unprobed p sio).Initialised sio w.regs t.regs := by
  obtain ⟨s, hs, hzero⟩ : ∃ s : World, (assign fun _ => It87Data.zero).run device w = (.ok (), s) ∧
      s.regs = w.regs := ⟨_, run_assign w _, rfl⟩
  have hcheck := run_checkPwm (c := unprobed p sio) hzero h.setUp
  have htemp := run_probeTemp (c := unprobed p sio) sio s
  have hsix := fun hasTemp hasIn => run_probeSixTemp (c := unprobed p sio) hasTemp hasIn s
  obtain ⟨u, hinit, hu⟩ := run_initDevice (c := unprobed p sio) sio s
  simp only [hzero] at htemp hsix hinit hu
  have hend : ∀ c : It87Chip, ∀ v : World, v.regs = u.regs → ∃ types t, (do
        let hasType ← c.probeTypes
        return .ok { c with hasType } : Driver (Except ℤ It87Chip)).run device v =
          (.ok (.ok { c with hasType := types }), t) ∧
      (unprobed p sio).Initialised sio w.regs t.regs := fun c v hv => by
    obtain ⟨types, htypes⟩ := run_probeTypes (c := c) v
    exact ⟨types, v, run_bind_of htypes, hv ▸ hu⟩
  have hconfig : ¬ (s.regs regConfig).getLsbD 7 = true := by
    rw [hzero, h.config]
    exact Bool.false_ne_true
  have hchipid : ¬ s.regs regChipid ≠ 0x90 := by
    rw [hzero, h.chipid]
    exact not_not.mpr rfl
  rw [it87Probe, run_bind_of hs, run_bind_of (run_readValue s _), if_neg hconfig,
    run_bind_of (run_readValue s _), if_neg hchipid, run_bind_of hcheck, run_bind_of htemp,
    run_bind_of (hsix _ _), run_bind_of hinit]
  dsimp only
  split
  · rw [run_bind_of (run_assign u _)]
    exact hend _ _ rfl
  · exact hend _ u rfl

/-- Any other chip is refused, or the driver trips over the channels that it has been told to set
up. -/
theorem run_it87Probe_refused (p : Platform) (sio : It87SioData) {w : World}
    (h : ¬ Takes p w.regs) : ((it87Probe p sio).run device w).1 = .ok (.error (-enodev)) ∨
      ((it87Probe p sio).run device w).1 = .error .nullPointer := by
  obtain ⟨s, hs, hzero⟩ : ∃ s : World, (assign fun _ => It87Data.zero).run device w = (.ok (), s) ∧
      s.regs = w.regs := ⟨_, run_assign w _, rfl⟩
  rw [it87Probe, run_bind_of hs, run_bind_of (run_readValue s _)]
  by_cases hconfig : (s.regs regConfig).getLsbD 7 = true
  · rw [if_pos hconfig]
    exact .inl rfl
  rw [if_neg hconfig, run_bind_of (run_readValue s _)]
  by_cases hchipid : s.regs regChipid ≠ 0x90
  · rw [if_pos hchipid]
    exact .inl rfl
  rw [hzero] at hconfig hchipid
  have hset : ¬ (p.fixPwmPolarity = true → pwmFound w.regs = true) := fun hset =>
    h ⟨by simpa using hconfig, not_not.mp hchipid, hset⟩
  obtain ⟨hfix, hfound⟩ := Classical.not_imp.mp hset
  rw [← hzero] at hchipid hfound
  rw [if_neg hchipid, run_bind, run_checkPwm_fix (c := unprobed p sio) hfix (by simpa using hfound)]
  exact .inr rfl

end It87Chip

end BuffaloNas.It87
