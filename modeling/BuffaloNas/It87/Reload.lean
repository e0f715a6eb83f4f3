import BuffaloNas.It87.Findings

/-! Loading the driver again and again: every probe finds what the first one found. -/
namespace BuffaloNas.It87
open Interaction Program SuperIo World

/-- The attributes that a chip without channels does not have. -/
def Attribute.ofPwm : Attribute → Bool
  | .pwmFreq _ => true
  | a => a.channel.isSome

/-- Which attributes can write the registers that a probe goes by. -/
structure Tables.ProbeKept (t : Tables) : Prop where
  fixed : ∀ a ∈ Attribute.all, apart [regChipid, regFan16bit] (t.targets a)
  sixTemp : ∀ a ∈ Attribute.all, (∀ i k, a ≠ .pwmAutoPointPwm i k) →
    apart [regTemp456Enable] (t.targets a)
  config : ∀ a ∈ Attribute.all, a ≠ .intrusion0Alarm → apart [regConfig] (t.targets a)
  pwm : ∀ a ∈ Attribute.all, a.ofPwm = false → apart [regFanCtl] (t.targets a)
  switch : ∀ a ∈ Attribute.all, (∀ i, a ≠ .pwmEnable i) → (∀ i, a ≠ .pwmFreq i) →
    apart [regFanCtl] (t.targets a)
  measured : ∀ newer, apart probeRegs (t.inputs newer)

theorem Chips.probeKept (type : Chips) : type.tables.ProbeKept := by
  refine type.forall_tables ?_ ?_ ?_ ?_
  all_goals constructor <;> decide +kernel

/-! ### Bits -/

theorem and_eq_zero_of_or {x y m : Byte} (h : (x ||| y) &&& m = 0) : x &&& m = 0 := by
  rw [BitVec.and_comm, BitVec.and_or_distrib_left] at h
  rw [BitVec.and_comm]
  exact (BitVec.or_eq_zero_iff.mp h).1

theorem It87SioData.tachometers_low (sio : It87SioData) {j : ℕ} (hj : j < 4) :
    sio.tachometers.getLsbD j = false := by
  have hmask : ∀ j < 4, ((0x70 : ℕ) : Byte).getLsbD j = false := by decide
  rw [tachometers, BitVec.getLsbD_and, hmask j hj, Bool.false_and]

/-- Some tachometer is on then, if there is one. -/
theorem It87SioData.switchedOn_and (sio : It87SioData) {x : Byte}
    (h : sio.switchedOn x &&& sio.tachometers = 0) : sio.tachometers = 0 := by
  by_cases hx : x &&& sio.tachometers = 0
  · rw [switchedOn, if_pos hx, BitVec.and_comm, BitVec.and_or_distrib_left, BitVec.and_self] at h
    exact (BitVec.or_eq_zero_iff.mp h).2
  · rw [switchedOn, if_neg hx] at h
    exact absurd h hx

/-- The tachometers are left as they are once some of them are on. -/
theorem It87SioData.switchedOn_again (sio : It87SioData) {x y : Byte}
    (h : ∀ j, 3 ≤ j → y.getLsbD j = (sio.switchedOn x).getLsbD j) (m : Byte) :
    (sio.switchedOn y >>> 4) &&& m = (sio.switchedOn x >>> 4) &&& m := by
  have hmask : y &&& sio.tachometers = sio.switchedOn x &&& sio.tachometers := by
    refine BitVec.eq_of_getLsbD_eq fun j _ => ?_
    rw [BitVec.getLsbD_and, BitVec.getLsbD_and]
    by_cases hj : 3 ≤ j
    · rw [h j hj]
    · rw [sio.tachometers_low (by omega), Bool.and_false, Bool.and_false]
  have hy : sio.switchedOn y = y := by
    by_cases h0 : y &&& sio.tachometers = 0
    · rw [switchedOn, if_pos h0, sio.switchedOn_and (hmask ▸ h0)]
      exact BitVec.or_zero
    · rw [switchedOn, if_neg h0]
  rw [hy]
  refine BitVec.eq_of_getLsbD_eq fun j _ => ?_
  rw [BitVec.getLsbD_and, BitVec.getLsbD_and, BitVec.getLsbD_ushiftRight,
    BitVec.getLsbD_ushiftRight, h (4 + j) (by omega)]

namespace It87Chip

variable {c : It87Chip} {w : World} {a : Attribute} {buf : List Char}

/-! ### What an event keeps -/

/-- What the driver leaves as it is while it runs. -/
structure Stays (c : It87Chip) (regs regs' : Word → Byte) : Prop where
  config : (regs regConfig).getLsbD 7 = false → (regs' regConfig).getLsbD 7 = false
  chipid : regs' regChipid = regs regChipid
  sixTemp : c.has .sixTemp = true → regs' regTemp456Enable = regs regTemp456Enable
  mainCtrl : ∀ j, 3 ≤ j → (regs' regFanMainCtrl).getLsbD j = (regs regFanMainCtrl).getLsbD j
  fan16bit : regs' regFan16bit = regs regFan16bit
  fanDiv : c.has .fans16bit = true → regs' regFanDiv = regs regFanDiv
  switches : regs regFanCtl &&& 0x87 ≠ 0 → regs' regFanCtl &&& 0x87 ≠ 0
  idle : c.hasPwm = 0 → regs' regFanCtl = regs regFanCtl

theorem Stays.refl (c : It87Chip) (regs : Word → Byte) : c.Stays regs regs :=
  ⟨id, rfl, fun _ => rfl, fun _ _ => rfl, rfl, fun _ => rfl, id, fun _ => rfl⟩

theorem Stays.trans {regs regs' regs'' : Word → Byte} (h : c.Stays regs regs')
    (h' : c.Stays regs' regs'') : c.Stays regs regs'' where
  config hc := h'.config (h.config hc)
  chipid := h'.chipid.trans h.chipid
  sixTemp h6 := (h'.sixTemp h6).trans (h.sixTemp h6)
  mainCtrl j hj := (h'.mainCtrl j hj).trans (h.mainCtrl j hj)
  fan16bit := h'.fan16bit.trans h.fan16bit
  fanDiv h16 := (h'.fanDiv h16).trans (h.fanDiv h16)
  switches hc := h'.switches (h.switches hc)
  idle h0 := (h'.idle h0).trans (h.idle h0)

/-- The registers that a probe goes by are as they were. -/
theorem Stays.same {regs regs' : Word → Byte}
    (hconfig : (regs regConfig).getLsbD 7 = false → (regs' regConfig).getLsbD 7 = false)
    (h : ∀ r, r ≠ regConfig → r ∈ probeRegs → regs' r = regs r) : c.Stays regs regs' := by
  have hctl : regs' regFanCtl = regs regFanCtl := h _ (by decide) (by decide)
  refine ⟨hconfig, h _ (by decide) (by decide), fun _ => h _ (by decide) (by decide),
    fun j _ => ?_, h _ (by decide) (by decide), fun _ => h _ (by decide) (by decide),
    fun hc => ?_, fun _ => hctl⟩
  · rw [h regFanMainCtrl (by decide) (by decide)]
  · rwa [hctl]

theorem stays_shown (a : Attribute) (w : World) : c.Stays w.regs (c.step w (.shown a)).regs := by
  refine .same (fun hc => ?_) fun r hr _ => regs_shown hr a
  have hvbat : ∀ t : World, t.regs = w.regs → ((c.vbat t).regs regConfig).getLsbD 7 = false := by
    intro t ht
    unfold vbat
    split
    · rw [regs_write, Function.update_self, ht, BitVec.getLsbD_or, hc]
      decide
    · rw [ht]
      exact hc
  rw [step_shown]
  split
  · unfold updated
    split
    · exact hvbat w.ticked rfl
    · exact hc
  · exact hc

theorem stays_measured (r : Word) (v : Byte) (w : World) :
    c.Stays w.regs (c.step w (.measured r v)).regs := by
  have hmem : ∀ {r}, r ∈ probeRegs → r ∉ c.inputs := fun hr hi =>
    apart_iff.mp (c.type.probeKept.measured _) _ hr (c.inputs_subset hi)
  refine .same (fun hc => ?_) fun r' _ hr => regs_measured (hmem hr) r v
  rw [regs_measured (hmem (by decide)) r v]
  exact hc

/-- Storing a mode switches fans on, in this register, and none off. -/
theorem switches_setPwmEnable {i : Fin 6} : ∃ x,
    ((c.setPwmEnable i buf).run device w).2.regs regFanCtl = w.regs regFanCtl ||| x := by
  have hpwm : regFanCtl ≠ c.regPwm i := (c.regPwm_ne i).2.2.1.symm
  have hduty : ∀ i : Fin 6, regFanCtl ≠ regPwmDuty i := by decide
  have hmain : regFanCtl ≠ regFanMainCtrl := by decide
  have hsame : w.regs regFanCtl = w.regs regFanCtl ||| 0 := (BitVec.or_zero).symm
  by_cases hen : ∃ val, c.enables w.data i buf val
  case neg =>
    rw [run_setPwmEnable_refused hen]
    exact ⟨0, hsame⟩
  obtain ⟨val, hval⟩ := hen
  rw [run_setPwmEnable hval]
  split
  · split
    · refine ⟨bitOf i, ?_⟩
      simp only [setOnOff, run_bind, run_readValue, andThen_ok, run_writeValue, run_getData,
        run_assign, regs_write, regs_assign]
      rw [Function.update_of_ne hmain, Function.update_self]
    · refine ⟨0, ?_⟩
      simp only [setFullSpeed, run_bind, run_assign, andThen_ok, run_writeValue, run_getData,
        run_storeCtrl, regs_write, regs_assign]
      rw [Function.update_of_ne hpwm, Function.update_of_ne (hduty i)]
      exact hsame
  · refine ⟨0, ?_⟩
    simp only [setMode, run_bind, run_getData, andThen_ok, run_storeCtrl]
    split
    · simp only [run_bind, run_assign, andThen_ok, run_writeValue, regs_write, regs_assign]
      rw [Function.update_of_ne hmain, Function.update_of_ne hpwm]
      exact hsame
    · simp only [run_pure, regs_write, regs_assign]
      rw [Function.update_of_ne hpwm]
      exact hsame

theorem switches_setPwmFreq {nr : ℕ} (h : w.regs regFanCtl &&& 0x87 ≠ 0) :
    ((c.setPwmFreq nr buf).run device w).2.regs regFanCtl &&& 0x87 ≠ 0 := by
  have hextra : regFanCtl ≠ regTempExtra := by decide
  unfold setPwmFreq
  cases c.kstrtoul buf with
  | none => exact h
  | some val =>
    simp only [run_bind, run_mutexLock, andThen_ok]
    split
    · simp only [run_bind, run_readValue, andThen_ok, run_assign, run_writeValue, run_mutexUnlock,
        run_pure, regs_write, regs_assign, Function.update_self]
      intro h0
      have hand := and_eq_zero_of_or h0
      rw [BitVec.and_assoc] at hand
      exact h hand
    · simp only [run_bind, run_readValue, andThen_ok, run_assign, run_writeValue, run_mutexUnlock,
        run_pure, regs_write, regs_assign]
      rw [Function.update_of_ne hextra]
      exact h

theorem config_clearIntrusion (h : (w.regs regConfig).getLsbD 7 = false) :
    (((c.clearIntrusion buf).run device w).2.regs regConfig).getLsbD 7 = false := by
  unfold clearIntrusion
  split
  · exact h
  · simp only [run_bind, run_mutexLock, andThen_ok, run_readValue, run_writeValue, run_assign,
      run_mutexUnlock, run_pure, regs_write, regs_assign, Function.update_self,
      BitVec.getLsbD_or, h]
    decide

theorem mode_ofPwm (h : c.hasPwm = 0) (ha : a.ofPwm = true) : c.mode a ≠ .writable := by
  cases a
  all_goals first
    | exact absurd ha Bool.false_ne_true
    | simp [mode, shownIf, h]

theorem has_of_type (f : Feature) (h : c.type ≠ .it87 ∧ c.type ≠ .it8712) :
    c.has f = (it87Devices c.type).has f := by
  unfold has features
  split
  case h_1 htype => exact absurd htype h.1
  case h_2 htype => exact absurd htype h.2
  case h_3 => rfl

theorem type_of_sixTemp (h6 : c.has .sixTemp = true) :
    c.type = .it8620 ∨ c.type = .it8628 ∨ c.type = .it8686 := by
  unfold has at h6
  cases htype : c.type
  case it8620 => exact .inl rfl
  case it8628 => exact .inr (.inl rfl)
  case it8686 => exact .inr (.inr rfl)
  all_goals
    rw [htype] at h6
    simp [features, it87Devices] at h6
  -- the two chips whose features depend on their revision
  case it87 | it8712 => split at h6 <;> simp at h6

theorem newer_of_sixTemp (h6 : c.has .sixTemp = true) : c.has .newerAutopwm = true := by
  have hnewer : ∀ f, c.type = .it8620 ∨ c.type = .it8628 ∨ c.type = .it8686 →
      c.has f = (it87Devices c.type).has f := fun f h => by
    refine c.has_of_type f ⟨?_, ?_⟩
    all_goals rcases h with h | h | h <;> simp [h]
  have htype := type_of_sixTemp h6
  rw [hnewer _ htype]
  rcases htype with htype | htype | htype
  all_goals
    rw [htype]
    decide

theorem stays_attempt (h : c.Coherent w) (a : Attribute) (buf : List Char) :
    c.Stays w.regs ((c.attempt a buf).run device w).2.regs := by
  by_cases hm : c.mode a = .writable
  case neg =>
    rw [c.attempt_of_mode hm]
    exact .refl _ _
  have hkept := c.type.probeKept
  have hfixed := apart_iff.mp (hkept.fixed a a.mem_all)
  refine ⟨fun hc => ?_, regs_attempt (hfixed _ (by decide)) _ _, fun h6 => ?_, fun j hj => ?_,
    regs_attempt (hfixed _ (by decide)) _ _, fun h16 => ?_, fun hctl => ?_, fun h0 => ?_⟩
  · by_cases ha : a = .intrusion0Alarm
    · obtain rfl := ha
      rw [c.attempt_eq hm rfl]
      exact config_clearIntrusion hc
    · rw [regs_attempt (notMem_of_apart (hkept.config a a.mem_all ha))]
      exact hc
  · refine regs_attempt (notMem_of_apart (hkept.sixTemp a a.mem_all ?_)) _ _
    rintro i k rfl
    simp [mode, shownIf, newer_of_sixTemp h6] at hm
  · by_cases ha : ∃ i, a = .pwmEnable i
    · obtain ⟨i, rfl⟩ := ha
      rw [c.attempt_eq hm rfl]
      exact (switched_setPwmEnable h.mainCtrl).mainCtrl j fun hi => by omega
    · rw [regs_attempt (c.mainCtrl_apart.2 a fun i hi => ha ⟨i, hi⟩)]
  · refine regs_attempt (c.fanDiv_apart.2 a ?_) _ _
    rintro i rfl
    simp [mode, shownIf, h16] at hm
  · by_cases ha : ∃ i, a = .pwmEnable i
    · obtain ⟨i, rfl⟩ := ha
      obtain ⟨x, hx⟩ := @switches_setPwmEnable c w buf i
      rw [c.attempt_eq hm rfl, hx]
      exact fun h0 => hctl (and_eq_zero_of_or h0)
    by_cases hf : ∃ i, a = .pwmFreq i
    · obtain ⟨i, rfl⟩ := hf
      by_cases hi : i.val < 2
      · rw [c.attempt_eq hm (if_pos hi)]
        exact switches_setPwmFreq hctl
      · have hstore : c.storeOf (.pwmFreq i) = none := if_neg hi
        rw [c.attempt_of_store hstore]
        exact hctl
    rw [regs_attempt (notMem_of_apart (hkept.switch a a.mem_all (fun i hi => ha ⟨i, hi⟩)
      fun i hi => hf ⟨i, hi⟩))]
    exact hctl
  · cases ha : a.ofPwm
    · exact regs_attempt (notMem_of_apart (hkept.pwm a a.mem_all ha)) _ _
    · exact absurd hm (mode_ofPwm h0 ha)

theorem stays_step (h : c.Coherent w) (e : Event) : c.Stays w.regs (c.step w e).regs := by
  cases e with
  | shown a => exact stays_shown a w
  | stored a buf => exact stays_attempt h a buf
  | measured r v => exact stays_measured r v w

theorem stays_run (h : c.Coherent w) (events : List Event) :
    c.Stays w.regs (c.run w events).regs := by
  induction events generalizing w with
  | nil => exact .refl _ _
  | cons e events ih => exact (stays_step h e).trans (ih (coherent_step e h))

/-! ### The next probe -/

/-- Where the driver has to ask for the sixth fan, it has not changed the answer. -/
theorem sixthFound_again {regs regs' : Word → Byte}
    (hdiv : c.has .fans16bit = true → regs' regFanDiv = regs regFanDiv)
    (h16 : regs' regFan16bit = regs regFan16bit ∨
      c.has .fan16Config = true ∧ regs' regFan16bit = regs regFan16bit ||| 0x07) :
    c.sixthFound regs' (regs' regFan16bit) = c.sixthFound regs (regs regFan16bit) := by
  have hconfig : c.type = .it8620 ∨ c.type = .it8628 ∨ c.type = .it8686 →
      regs' regFan16bit = regs regFan16bit := fun htype => by
    refine h16.resolve_right fun h => ?_
    rw [c.has_of_type _ (by rcases htype with h | h | h <;> simp [h])] at h
    rcases htype with htype | htype | htype
    all_goals
      rw [htype] at h
      exact absurd h.1 (by decide)
  unfold sixthFound
  congr 1
  split
  case h_1 htype => rw [hconfig (.inl htype)]
  case h_2 htype => rw [hconfig (.inr (.inl htype))]
  case h_3 htype => rw [hconfig (.inr (.inr htype))]
  case h_4 htype =>
    rw [hdiv]
    rw [c.has_of_type _ (by simp [htype]), htype]
    decide
  case h_5 => rfl

theorem fansFound_again {sio : It87SioData} {regs regs' regs'' : Word → Byte}
    (hp : c.Initialised sio regs regs') (hs : c.Stays regs' regs'') :
    c.fansFound sio regs'' = c.fansFound sio regs := by
  have hdiv : c.has .fans16bit = true → regs'' regFanDiv = regs regFanDiv := fun h16 =>
    (hs.fanDiv h16).trans (hp.others _ (by decide))
  have h16 : regs'' regFan16bit = regs regFan16bit ∨
      c.has .fan16Config = true ∧ regs'' regFan16bit = regs regFan16bit ||| 0x07 := by
    rw [hs.fan16bit]
    exact hp.fan16bit
  have hbits : ∀ j ∈ [4, 5], (regs'' regFan16bit).getLsbD j = (regs regFan16bit).getLsbD j := by
    have hlow : ∀ j ∈ [4, 5], (0x07 : Byte).getLsbD j = false := by decide
    intro j hj
    rcases h16 with h | h
    · rw [h]
    · rw [h.2, BitVec.getLsbD_or, hlow j hj, Bool.or_false]
  have hmain : ∀ j, 3 ≤ j → (regs'' regFanMainCtrl).getLsbD j =
      (sio.switchedOn (regs regFanMainCtrl)).getLsbD j := fun j hj => by
    rw [hs.mainCtrl j hj, hp.mainCtrl]
  simp only [fansFound, sio.switchedOn_again hmain, sixthFound_again hdiv h16,
    hbits 4 (by decide), hbits 5 (by decide)]

theorem skipPwmFound_again {sio : It87SioData} {regs regs' : Word → Byte}
    (hdiv : c.has .fans16bit = true → regs' regFanDiv = regs regFanDiv) :
    c.skipPwmFound sio regs' = c.skipPwmFound sio regs := by
  unfold skipPwmFound
  by_cases h : c.has .sixPwm ∧ (c.type = .it8620 ∨ c.type = .it8686)
  · have h16 : c.has .fans16bit = true := by
      rw [c.has_of_type _ (by rcases h.2 with h | h <;> simp [h])]
      rcases h.2 with h | h
      all_goals
        rw [h]
        decide
    rw [hdiv h16]
  · rw [if_neg h, if_neg h]

/-- The channels are found set up again, or as they were. -/
theorem pwmFound_again {sio : It87SioData} {regs regs' regs'' : Word → Byte}
    (hp : c.Initialised sio regs regs') (hs : c.Stays regs' regs'')
    (hidle : pwmFound regs = false → c.hasPwm = 0) : pwmFound regs'' = pwmFound regs := by
  have hctl : regs' regFanCtl = regs regFanCtl := hp.others _ (by decide)
  cases hfound : pwmFound regs
  · rw [← hfound, pwmFound, hs.idle (hidle hfound), hctl]
    rfl
  · have hset : regs' regFanCtl &&& 0x87 ≠ 0 := hctl ▸ of_decide_eq_true hfound
    exact decide_eq_true (hs.switches hset)

/-- The temperatures of the second probe: those of the IT8782F depend on the type of a sensor. -/
theorem sensorsFound_again {sio : It87SioData} {regs regs' : Word → Byte}
    (h6 : c.has .sixTemp = true → regs' regTemp456Enable = regs regTemp456Enable) (hasIn : Word) :
    c.sixTempFound regs' (c.tempFound sio regs') hasIn =
      (if c.AsksTemp sio then c.tempFound sio regs'
        else (c.sixTempFound regs (c.tempFound sio regs) hasIn).1,
      (c.sixTempFound regs (c.tempFound sio regs) hasIn).2) := by
  rw [sixTempFound_congr h6]
  by_cases hasks : c.AsksTemp sio
  · have hsix : ¬ c.has .sixTemp = true := fun h => by
      have htype := type_of_sixTemp h
      rw [hasks.2] at htype
      simp at htype
    rw [if_pos hasks]
    unfold sixTempFound
    rw [if_neg hsix, if_neg hsix]
  · have htemp : c.tempFound sio regs' = c.tempFound sio regs := by
      unfold tempFound
      rw [if_neg hasks, if_neg hasks]
    rw [if_neg hasks, htemp]

/-- The next probe makes the same chip of the registers; only what may have changed with the types
of its sensors is looked up again. -/
theorem found_again {sio : It87SioData} {p : Platform} {regs regs' regs'' : Word → Byte}
    {types : Byte} (hp : (unprobed p sio).Initialised sio regs regs')
    (hs : (sio.found p regs types).Stays regs' regs'') (types' : Byte) :
    sio.found p regs'' types' = { sio.found p regs types with
      hasTemp := if (unprobed p sio).AsksTemp sio then (unprobed p sio).tempFound sio regs''
        else (sio.found p regs types).hasTemp
      hasType := types' } := by
  have hp' : (sio.found p regs types).Initialised sio regs regs' :=
    ⟨hp.config, hp.others, hp.mainCtrl, hp.fan16bit⟩
  have hdiv : (unprobed p sio).has .fans16bit = true → regs'' regFanDiv = regs regFanDiv :=
    fun h16 => (hs.fanDiv h16).trans (hp.others _ (by decide))
  have h6 : (unprobed p sio).has .sixTemp = true →
      regs'' regTemp456Enable = regs regTemp456Enable := fun h6 =>
    (hs.sixTemp h6).trans (hp.others _ (by decide))
  have hfans : (unprobed p sio).fansFound sio regs'' = (unprobed p sio).fansFound sio regs :=
    fansFound_again (c := sio.found p regs types) hp' hs
  have hpwm : pwmFound regs'' = pwmFound regs :=
    pwmFound_again (c := sio.found p regs types) hp' hs fun h => by
      have hnot : ¬ pwmFound regs = true := ne_true_of_eq_false h
      exact if_neg hnot
  simp only [It87SioData.found, sensorsFound_again h6, hfans, hpwm, skipPwmFound_again hdiv]

/-! ### Loads -/

/-- The driver knows the same of its chip, but for the types of its sensors; where it had to ask for
the third temperature, that may have gone or come. -/
structure Alike (sio : It87SioData) (c c' : It87Chip) : Prop where
  same : c' = { c with hasTemp := c'.hasTemp, hasType := c'.hasType }
  temp : ¬ c.AsksTemp sio → c'.hasTemp = c.hasTemp

theorem Alike.refl (sio : It87SioData) (c : It87Chip) : Alike sio c c := ⟨rfl, fun _ => rfl⟩

theorem Alike.trans {sio : It87SioData} {c c' c'' : It87Chip} (h : Alike sio c c')
    (h' : Alike sio c' c'') : Alike sio c c'' where
  same := by
    rw [h'.same, h.same]
  temp hasks := by
    have htype : c'.type = c.type := by rw [h.same]
    rw [h'.temp fun hasks' => hasks ⟨hasks'.1, htype ▸ hasks'.2⟩, h.temp hasks]

/-- What a probe that has taken over a chip has found, and how it has left it. -/
theorem of_it87Probe {p : Platform} {sio : It87SioData} {w t : World}
    (h : (it87Probe p sio).run device w = (.ok (.ok c), t)) :
    Takes p w.regs ∧ ∃ types, c = sio.found p w.regs types ∧
      (unprobed p sio).Initialised sio w.regs t.regs := by
  by_cases htakes : Takes p w.regs
  · obtain ⟨types, t', hrun, hp⟩ := run_it87Probe p sio htakes
    rw [hrun] at h
    cases h
    exact ⟨htakes, types, rfl, hp⟩
  · have hrun := run_it87Probe_refused p sio htakes
    rw [h] at hrun
    rcases hrun with hrun | hrun <;> cases hrun

/-- The next probe succeeds, whatever has been done to the attributes. -/
theorem it87Probe_again {p : Platform} {sio : It87SioData} {w t : World}
    (h : (it87Probe p sio).run device w = (.ok (.ok c), t)) (events : List Event) :
    ∃ c' u, (it87Probe p sio).run device (c.run t events) = (.ok (.ok c'), u) ∧
      Alike sio c c' := by
  obtain ⟨hold, types, hc, hp⟩ := of_it87Probe h
  have hs := stays_run (coherent_probed ⟨p, sio, w, h⟩) events
  have hctl : t.regs regFanCtl = w.regs regFanCtl := hp.others _ (by decide)
  have htakes : Takes p (c.run t events).regs := by
    refine ⟨hs.config hp.config, hs.chipid.trans ((hp.others _ (by decide)).trans hold.chipid),
      fun hfix => decide_eq_true (hs.switches ?_)⟩
    rw [hctl]
    exact of_decide_eq_true (hold.setUp hfix)
  obtain ⟨types', u, hrun, -⟩ := run_it87Probe p sio htakes
  rw [hc] at hs
  rw [hc] at hrun ⊢
  refine ⟨_, u, hrun, ?_⟩
  rw [found_again hp hs types']
  exact ⟨rfl, fun hasks => if_neg hasks⟩

end It87Chip

open It87Chip

/-- The driver is loaded and unloaded again and again, and runs in between; what each load finds. -/
def loads (p : Platform) (sio : It87SioData) : List (List Event) → World → List (Option It87Chip)
  | [], _ => []
  | events :: more, w =>
    match (it87Probe p sio).run device w with
    | (.ok (.ok c), t) => some c :: loads p sio more (c.run t events)
    | (_, t) => none :: loads p sio more t

/-- Once the driver has taken over a chip, every load after any stores and measurements takes it
over again, with the same inputs, fans and channels, and the same temperatures too unless it is
an IT8782F whose third one may have no pin. -/
theorem loads_alike {p : Platform} {sio : It87SioData} {w t : World} {c : It87Chip}
    (h : (it87Probe p sio).run device w = (.ok (.ok c), t)) (sessions : List (List Event)) :
    ∀ load ∈ loads p sio sessions w, ∃ c', load = some c' ∧ Alike sio c c' := by
  induction sessions generalizing w t c with
  | nil => exact nofun
  | cons events more ih =>
    intro load hload
    rw [loads, h] at hload
    rcases List.mem_cons.mp hload with rfl | hmore
    · exact ⟨c, rfl, .refl sio c⟩
    · obtain ⟨c', u, hrun, halike⟩ := it87Probe_again h events
      obtain ⟨c'', hsome, halike'⟩ := ih hrun load hmore
      exact ⟨c'', hsome, halike.trans halike'⟩

theorem Chips.run_probe {type : Chips} {contents : List (Word × Byte)}
    (h : type.isKnown contents = true) : (it87Probe plain type.bare).run device (found contents) =
      (.ok (.ok (type.known contents)), (type.probe contents).2) := by
  change type.probe contents = _
  unfold known
  unfold isKnown at h
  generalize type.probe contents = x at h ⊢
  obtain ⟨e | e | c, w⟩ := x
  · cases h
  · cases h
  · rfl

theorem length_loads (p : Platform) (sio : It87SioData) (sessions : List (List Event))
    (w : World) : (loads p sio sessions w).length = sessions.length := by
  induction sessions generalizing w with
  | nil => rfl
  | cons events more ih =>
    rw [loads]
    split <;> simp [ih]

theorem loads_alike_switchedOff : ∃ c',
    (loads plain Chips.it8721.bare [[.stored (.pwmEnable 0) "0\n".toList], [], []]
      (found []))[2]? = some (some c') ∧ Alike Chips.it8721.bare (Chips.it8721.known []) c' := by
  have hknown : Chips.it8721.isKnown [] = true := by decide +kernel
  have h := loads_alike (Chips.run_probe hknown) [[.stored (.pwmEnable 0) "0\n".toList], [], []]
  have hthree : 2 < (loads plain Chips.it8721.bare
      [[.stored (.pwmEnable 0) "0\n".toList], [], []] (found [])).length := by
    rw [length_loads]
    decide
  obtain ⟨c', hload, halike⟩ := h _ (List.getElem_mem hthree)
  exact ⟨c', by rw [List.getElem?_eq_getElem hthree, hload], halike⟩

end BuffaloNas.It87
