import BuffaloNas.It87.Events
import BuffaloNas.It87.Started

/-! The types of the temperature sensors: what they are read from, and what storing one changes. -/
namespace BuffaloNas.It87
open Interaction Program SuperIo World

namespace It87Chip

variable {c : It87Chip} {w : World} {nr index : ℕ}

/-! ### What is read -/

/-- The type of a sensor that has enable bits of its own. -/
def sensed (c : It87Chip) (regs : Word → Byte) (index : ℕ) : ℕ :=
  if 3 ≤ index then 0 else c.typeOf (regs regTempEnable) (regs regTempExtra) index

theorem run_sensorType (c : It87Chip) (index : ℕ) (w : World) :
    (c.sensorType index).run device w = (.ok (c.sensed w.regs index), w) := by
  unfold sensorType sensed
  split <;> rfl

theorem run_getTempType_plain (hsel : c.has .bankSel = false) (index : ℕ) (w : World) :
    (c.getTempType index).run device w = (.ok (c.sensed w.regs index), w) := by
  rw [getTempType, hsel]
  exact c.run_sensorType index w

/-- The type for the contents of a source field. -/
def decoded (c : It87Chip) (field : Byte) (regs : Word → Byte) (index : ℕ) : ℕ :=
  match c.sourceOf field (regs regTempSrc2) index with
  | .inl type => type
  | .inr index => c.sensed regs index

/-- Four bits of a register, in the lower or the upper half. -/
def nibble (v : Byte) (index : ℕ) : Byte := v >>> (index % 2 * 4) &&& 0x0f

theorem run_getTempType_banked (hsel : c.has .bankSel = true) (index : ℕ) (w : World) :
    (c.getTempType index).run device w =
      (.ok (c.decoded (nibble (w.regs (regTempSrc1 (index / 2) >>> (index % 2 * 4))) index) w.regs
        index), w) := by
  rw [getTempType, if_pos hsel, run_bind, run_readValue, andThen_ok, run_bind, run_readValue,
    andThen_ok]
  unfold decoded nibble
  generalize c.sourceOf _ (w.regs regTempSrc2) index = source
  cases source with
  | inl type => exact run_pure type
  | inr i => exact c.run_sensorType i w

/-! ### What it depends on -/

/-- The source field of a sensor. -/
def sourceField (regs : Word → Byte) (index : ℕ) : Byte :=
  nibble (regs (regTempSrc1 (index / 2))) index

/-- The contents agree on what is to say which type a sensor has. -/
structure SameSource (index : ℕ) (regs regs' : Word → Byte) : Prop where
  field : sourceField regs index = sourceField regs' index
  src2 : regs regTempSrc2 = regs' regTempSrc2
  enable : regs regTempEnable = regs' regTempEnable
  extra : regs regTempExtra = regs' regTempExtra

/-- The type of a sensor is read from its source field and the enable registers alone. -/
def DependsOnSource (c : It87Chip) (index : ℕ) : Prop :=
  ∀ w w' : World, SameSource index w.regs w'.regs →
    ((c.getTempType index).run device w).1 = ((c.getTempType index).run device w').1

theorem decoded_congr {regs regs' : Word → Byte} {field : Byte} (h : SameSource nr regs regs')
    (index : ℕ) : c.decoded field regs index = c.decoded field regs' index := by
  have hsensed : ∀ index, c.sensed regs index = c.sensed regs' index := fun index => by
    unfold sensed
    rw [h.enable, h.extra]
  unfold decoded
  rw [h.src2]
  split
  · rfl
  · exact hsensed _

/-- The number of the register is shifted by nothing for even sensors. -/
theorem dependsOnSource_even (hsel : c.has .bankSel = true) (h : index % 2 = 0) :
    c.DependsOnSource index := by
  intro w w' hs
  have hreg : regTempSrc1 (index / 2) >>> (index % 2 * 4) = regTempSrc1 (index / 2) := by
    rw [h, Nat.zero_mul, BitVec.ushiftRight_zero]
  rw [run_getTempType_banked hsel, run_getTempType_banked hsel, hreg]
  have hfield : nibble (w.regs (regTempSrc1 (index / 2))) index =
      nibble (w'.regs (regTempSrc1 (index / 2))) index := hs.field
  rw [hfield, decoded_congr hs]

/-- Where the odd sensors look for their source: a voltage input. -/
theorem shifted_regTempSrc1 {i : ℕ} (h : i < 3) : regTempSrc1 i >>> 4 = regVin 1 := by
  interval_cases i <;> rfl

/-- All registers are zero but the one of that input. -/
def onInput (v : Byte) : World where
  data := .zero
  regs reg := if reg = regVin 1 then v else 0
  clock _ := 0

theorem sameSource_onInput (h : index < 6) (v v' : Byte) :
    SameSource index (onInput v).regs (onInput v').regs := by
  have hsource : ∀ v : Byte, (onInput v).regs (regTempSrc1 (index / 2)) = 0 := fun v => by
    interval_cases index <;> rfl
  refine ⟨?_, rfl, rfl, rfl⟩
  rw [sourceField, sourceField, hsource, hsource]

theorem type_of_bankSel (hsel : c.has .bankSel = true) :
    c.type = .it8655 ∨ c.type = .it8665 ∨ c.type = .it8686 := by
  unfold has at hsel
  cases htype : c.type
  case it8655 => exact .inl rfl
  case it8665 => exact .inr (.inl rfl)
  case it8686 => exact .inr (.inr rfl)
  all_goals
    rw [htype] at hsel
    simp [features, it87Devices] at hsel
  -- the two chips whose features depend on their revision
  case it87 | it8712 => split at hsel <;> simp at hsel

/-- Two contents of that input that stand for sensors of different types. -/
theorem decoded_onInput (hsel : c.has .bankSel = true) (hlt : index < 6) (hodd : index % 2 = 1) :
    ∃ v v' : Byte, c.decoded (nibble v index) (onInput v).regs index ≠
      c.decoded (nibble v' index) (onInput v').regs index := by
  have hindex : index = 1 ∨ index = 3 ∨ index = 5 := by omega
  have hsrc2 : ∀ v, (onInput v).regs regTempSrc2 = 0 := fun _ => rfl
  have henable : ∀ v, (onInput v).regs regTempEnable = 0 := fun _ => rfl
  have hextra : ∀ v, (onInput v).regs regTempExtra = 0 := fun _ => rfl
  rcases type_of_bankSel hsel with htype | htype | htype
  · refine ⟨0x30, 0x90, ?_⟩
    rcases hindex with rfl | rfl | rfl <;> simp [decoded, sourceOf, htype, nibble, hsrc2]
  · refine ⟨0x30, 0x90, ?_⟩
    rcases hindex with rfl | rfl | rfl <;> simp [decoded, sourceOf, htype, nibble, hsrc2]
  · rcases hindex with rfl | rfl | rfl
    · refine ⟨0x10, 0x30, ?_⟩
      simp [decoded, sourceOf, htype, nibble, sensed, typeOf, henable, hextra]
    · exact ⟨0x00, 0x30, by simp [decoded, sourceOf, htype, nibble, sensed]⟩
    · exact ⟨0x00, 0x30, by simp [decoded, sourceOf, htype, nibble, sensed]⟩

theorem not_dependsOnSource_odd (hsel : c.has .bankSel = true) (hlt : index < 6)
    (hodd : index % 2 = 1) : ¬ c.DependsOnSource index := by
  obtain ⟨v, v', hne⟩ := decoded_onInput hsel hlt hodd
  have hreg : ∀ v : Byte,
      (onInput v).regs (regTempSrc1 (index / 2) >>> (index % 2 * 4)) = v := fun v => by
    rw [hodd, Nat.one_mul, shifted_regTempSrc1 (by omega)]
    rfl
  intro h
  have hsame := h (onInput v) (onInput v') (sameSource_onInput hlt v v')
  rw [run_getTempType_banked hsel, run_getTempType_banked hsel, hreg, hreg] at hsame
  exact hne (Except.ok.inj hsame)

/-- On a chip with banks, the type of every other sensor goes by a register that has nothing to do
with it. -/
theorem dependsOnSource_iff (hsel : c.has .bankSel = true) (index : Fin 6) :
    c.DependsOnSource index ↔ index.val % 2 = 0 := by
  constructor
  · intro h
    by_contra hodd
    exact not_dependsOnSource_odd hsel index.isLt (by omega) h
  · exact dependsOnSource_even hsel

theorem dependsOnSource_iff_third :
    (Chips.it8665.known []).DependsOnSource (2 : Fin 6) ↔ (2 : Fin 6).val % 2 = 0 :=
  dependsOnSource_iff (by decide +kernel) 2

/-- The voltage of an IT8665E's second input makes its second sensor another one. -/
theorem not_dependsOnSource :
    ¬ ∀ (c : It87Chip) (index : Fin 6), c.has .bankSel = true → c.DependsOnSource index := by
  intro h
  have hsame := h (Chips.it8665.known []) 1 (by decide +kernel) (onInput 0x30) (onInput 0x90)
    (sameSource_onInput (by decide) _ _)
  have hdiode : (((Chips.it8665.known []).getTempType 1).run device (onInput 0x30)).1 = .ok 5 := rfl
  have hnone : (((Chips.it8665.known []).getTempType 1).run device (onInput 0x90)).1 = .ok 0 := rfl
  rw [Fin.val_one, hdiode, hnone] at hsame
  cases hsame

/-! ### What is stored -/

/-- The types that a sensor can be given. -/
def Settable (c : It87Chip) (nr : ℕ) (v : ℤ) : Prop :=
  v = 0 ∨ v = 2 ∨ v = 3 ∨ v = 4 ∨ v = 6 ∧ (c.hasTempPeci nr = true ∨ c.hasTempOldPeci nr = true)

/-- Type 2 is an old name of type 4. -/
def modern (v : ℤ) : ℤ := if v = 2 then 4 else v

variable {reg extra sensor : Byte} {v : ℤ}

theorem isSome_typed (reg extra : Byte) :
    (c.typed reg extra nr (modern v)).isSome ↔ c.Settable nr v := by
  unfold typed modern Settable
  grind

/-- The enable bits of the sensor, and no others, are cleared. -/
theorem getLsbD_clearType (c : It87Chip) (reg : Byte) (v : ℤ) (hnr : nr < 3) {i : ℕ} (hi : i < 6) :
    (c.clearType reg nr v).getLsbD i = (reg.getLsbD i && decide (i ≠ nr ∧ i ≠ nr + 3)) := by
  unfold clearType
  interval_cases nr <;> interval_cases i <;> simp only <;> split <;> simp

theorem and_shift (x : Byte) : (x &&& 0x3f) >>> 6 = 0 := by
  ext n hn
  interval_cases n <;> simp

/-- The selector no longer says that the sensor is a digital one, and is free for a new one. -/
theorem clearType_peci (reg : Byte) (v : ℤ) (hpeci : c.hasTempPeci nr = true) :
    (c.clearType reg nr v >>> 6).toNat ≠ nr + 1 ∧
      (v = 6 → c.clearType reg nr v >>> 6 = 0) := by
  rw [clearType, hpeci, Bool.true_and]
  split
  case isTrue =>
    rw [and_shift]
    exact ⟨Nat.zero_ne_add_one nr, fun _ => rfl⟩
  case isFalse h =>
    simp only [Bool.or_eq_true, beq_iff_eq, not_or] at h
    exact ⟨h.1, fun hv => absurd hv h.2⟩

theorem typeOf_diode (h : sensor.getLsbD nr = true) : c.typeOf sensor extra nr = 3 := by
  rw [typeOf, if_pos h]

theorem typeOf_thermistor (h : sensor.getLsbD nr = false)
    (h' : sensor.getLsbD (nr + 3) = true) : c.typeOf sensor extra nr = 4 := by
  rw [typeOf, h, if_neg Bool.false_ne_true, if_pos h']

/-- A sensor without enable bits is a digital one, or none. -/
theorem typeOf_clear (h : sensor.getLsbD nr = false) (h' : sensor.getLsbD (nr + 3) = false) :
    c.typeOf sensor extra nr =
      if (c.hasTempPeci nr = true ∧ (sensor >>> 6).toNat = nr + 1) ∨
        (c.hasTempOldPeci nr = true ∧ extra.getLsbD 7 = true) then 6 else 0 := by
  rw [typeOf, h, h', if_neg Bool.false_ne_true, if_neg Bool.false_ne_true]
  simp only [Bool.or_eq_true, Bool.and_eq_true, beq_iff_eq]

/-- The selector of a digital sensor, above the enable bits. -/
theorem select_shift (hnr : nr < 3) {x : Byte} (hx : x >>> 6 = 0) :
    ((x ||| BitVec.ofNat 8 (nr + 1) <<< 6) >>> 6).toNat = nr + 1 := by
  have hor : (x ||| BitVec.ofNat 8 (nr + 1) <<< 6) >>> 6 =
      x >>> 6 ||| (BitVec.ofNat 8 (nr + 1) <<< 6) >>> 6 := BitVec.ushiftRight_or_distrib ..
  rw [hor, hx]
  interval_cases nr <;> rfl

/-- What each type makes of the two registers. -/
theorem typed_cases {extra' : Byte} (h : c.typed reg extra nr v = some (sensor, extra')) :
    (v = 3 ∧ sensor = reg ||| 1 <<< nr ∧ extra' = extra) ∨
    (v = 4 ∧ sensor = reg ||| 8 <<< nr ∧ extra' = extra) ∨
    (v = 6 ∧ c.hasTempPeci nr = true ∧ sensor = reg ||| BitVec.ofNat 8 (nr + 1) <<< 6 ∧
      extra' = extra) ∨
    (v = 6 ∧ c.hasTempOldPeci nr = true ∧ sensor = reg ∧ extra' = extra ||| 0x80) ∨
    (v = 0 ∧ sensor = reg ∧ extra' = extra) := by
  unfold typed at h
  split at h
  case isTrue h3 =>
    cases h
    exact .inl ⟨h3, rfl, rfl⟩
  split at h
  case isTrue h4 =>
    cases h
    exact .inr (.inl ⟨h4, rfl, rfl⟩)
  split at h
  case isTrue h6 =>
    cases h
    exact .inr (.inr (.inl ⟨h6.2, h6.1, rfl, rfl⟩))
  split at h
  case isTrue h6 =>
    cases h
    exact .inr (.inr (.inr (.inl ⟨h6.2, h6.1, rfl, rfl⟩)))
  split at h
  case isTrue => cases h
  case isFalse h0 =>
    cases h
    exact .inr (.inr (.inr (.inr ⟨not_not.mp h0, rfl, rfl⟩)))

/-- The sensor has the type that it was given. -/
theorem typeOf_typed {extra' stored : Byte} (hnr : nr < 3)
    (hextra : c.hasTempOldPeci nr = true → extra.getLsbD 7 = false)
    (h : c.typed (c.clearType reg nr v) extra nr (modern v) = some (sensor, extra'))
    (hstored : c.hasTempOldPeci nr = true → stored = extra') :
    (c.typeOf sensor stored nr : ℤ) = modern v := by
  have hdiode : (c.clearType reg nr v).getLsbD nr = false := by
    simp [getLsbD_clearType c reg v hnr (i := nr) (by omega)]
  have htherm : (c.clearType reg nr v).getLsbD (nr + 3) = false := by
    simp [getLsbD_clearType c reg v hnr (i := nr + 3) (by omega)]
  have hpeci := @clearType_peci c nr reg v
  generalize c.clearType reg nr v = x at h hdiode htherm hpeci
  have hsix : modern v = 6 → v = 6 := by
    unfold modern
    split <;> omega
  rcases typed_cases h with ⟨hv, rfl, rfl⟩ | ⟨hv, rfl, rfl⟩ | ⟨hv, hp, rfl, rfl⟩ |
    ⟨hv, ho, rfl, rfl⟩ | ⟨hv, rfl, rfl⟩
  · rw [typeOf_diode, hv]
    · rfl
    · interval_cases nr <;> simp
  · rw [typeOf_thermistor, hv]
    · rfl
    · interval_cases nr <;> simpa using hdiode
    · interval_cases nr <;> simp
  · have hbits : (x ||| BitVec.ofNat 8 (nr + 1) <<< 6).getLsbD nr = false ∧
        (x ||| BitVec.ofNat 8 (nr + 1) <<< 6).getLsbD (nr + 3) = false := by
      interval_cases nr <;> simp_all
    have hselect := select_shift hnr ((hpeci hp).2 (hsix hv))
    rw [typeOf_clear hbits.1 hbits.2, if_pos (.inl ⟨hp, hselect⟩), hv]
    rfl
  · have hbit : stored.getLsbD 7 = true := by
      rw [hstored ho]
      simp
    rw [typeOf_clear hdiode htherm, if_pos (.inr ⟨ho, hbit⟩), hv]
    rfl
  · rw [typeOf_clear hdiode htherm, if_neg, hv]
    · rfl
    · rintro (⟨hp, hselect⟩ | ⟨ho, hbit⟩)
      · exact (hpeci hp).1 hselect
      · rw [hstored ho, hextra ho] at hbit
        cases hbit

/-- The enable bits of the other sensors are as they were. -/
theorem getLsbD_typed {extra' : Byte} {m i : ℕ} (hnr : nr < 3) (hm : m < 3) (hne : m ≠ nr)
    (hi : i = m ∨ i = m + 3)
    (h : c.typed (c.clearType reg nr v) extra nr (modern v) = some (sensor, extra')) :
    sensor.getLsbD i = reg.getLsbD i := by
  have hclear : (c.clearType reg nr v).getLsbD i = reg.getLsbD i := by
    rw [getLsbD_clearType c _ _ hnr (by omega), decide_eq_true (by omega), Bool.and_true]
  generalize c.clearType reg nr v = x at h hclear
  rw [← hclear]
  rcases typed_cases h with ⟨-, rfl, -⟩ | ⟨-, rfl, -⟩ | ⟨-, -, rfl, -⟩ | ⟨-, -, rfl, -⟩ |
    ⟨-, rfl, -⟩
  · have hbit : (1 <<< nr : Byte).getLsbD i = false := by
      interval_cases nr <;> interval_cases m <;> rcases hi with rfl | rfl <;> first | rfl | omega
    rw [BitVec.getLsbD_or, hbit, Bool.or_false]
  · have hbit : (8 <<< nr : Byte).getLsbD i = false := by
      interval_cases nr <;> interval_cases m <;> rcases hi with rfl | rfl <;> first | rfl | omega
    rw [BitVec.getLsbD_or, hbit, Bool.or_false]
  · have hbit : (BitVec.ofNat 8 (nr + 1) <<< 6).getLsbD i = false := by
      rw [BitVec.getLsbD_shiftLeft]
      simp
      omega
    rw [BitVec.getLsbD_or, hbit, Bool.or_false]
  · rfl
  · rfl

/-- `TEMP_EXTRA` without the type of a sensor. -/
def clearExtra (c : It87Chip) (extra : Byte) (nr : ℕ) (v : ℤ) : Byte :=
  if c.hasTempOldPeci nr && (extra.getLsbD 7 || v == 6) then extra &&& 0x7f else extra

theorem getLsbD_clearExtra (h : c.hasTempOldPeci nr = true) :
    (c.clearExtra extra nr v).getLsbD 7 = false := by
  rw [clearExtra, h, Bool.true_and]
  split
  case isTrue => simp
  case isFalse hbit =>
    simp only [Bool.or_eq_true, not_or, Bool.not_eq_true] at hbit
    exact hbit.1

/-- After a type has been stored. -/
def retyped (c : It87Chip) (w : World) (nr : ℕ) (sensor extra : Byte) : World :=
  let t := (w.assign fun d => { d with sensor, extra }).write regTempEnable sensor
  (if c.hasTempOldPeci nr then t.write regTempExtra extra else t).assign
    fun d => { d with valid := false }

theorem regs_retyped_enable {extra' : Byte} :
    (c.retyped w nr sensor extra').regs regTempEnable = sensor := by
  unfold retyped
  split <;> simp [regTempEnable, regTempExtra]

theorem regs_retyped_extra (w : World) (sensor : Byte) {extra' : Byte}
    (h : c.hasTempOldPeci nr = true) :
    (c.retyped w nr sensor extra').regs regTempExtra = extra' := by
  simp [retyped, h]

variable {buf : List Char}

theorem run_setTempType_refused (hv : c.kstrtol buf = some v) (h : ¬ c.Settable nr v) :
    (c.setTempType nr buf).run device w = (.ok (-einval), w) := by
  have hnone : c.typed (c.clearType (w.regs regTempEnable) nr v)
      (c.clearExtra (w.regs regTempExtra) nr v) nr (modern v) = none := by
    rw [← Option.not_isSome_iff_eq_none, isSome_typed]
    exact h
  unfold clearExtra modern at hnone
  simp only [setTempType, hv, run_bind, run_readValue, andThen_ok, hnone, run_pure]

theorem run_setTempType {extra' : Byte} (hv : c.kstrtol buf = some v)
    (h : c.typed (c.clearType (w.regs regTempEnable) nr v)
      (c.clearExtra (w.regs regTempExtra) nr v) nr (modern v) = some (sensor, extra')) :
    (c.setTempType nr buf).run device w =
      (.ok (buf.length : ℤ), c.retyped w nr sensor extra') := by
  unfold clearExtra modern at h
  simp only [setTempType, hv, run_bind, run_readValue, andThen_ok, h, run_mutexLock, run_assign,
    run_writeValue, run_ite, run_pure]
  unfold retyped
  split <;> rfl

/-- A type that can be stored is the sensor's type from then on, and the other sensors keep their
enable bits; nothing comes of any other. -/
theorem setTempType_spec (hsel : c.has .bankSel = false) (nr : Fin 3) (w : World)
    (hv : c.kstrtol buf = some v) :
    ∃ ret t, (c.setTempType nr buf).run device w = (.ok ret, t) ∧
      (0 ≤ ret ↔ c.Settable nr v) ∧
      (0 ≤ ret → (c.getTempType nr).run device t = (.ok (modern v).toNat, t) ∧
        ∀ m : Fin 3, m ≠ nr → ∀ i, i = m.val ∨ i = m.val + 3 →
          (t.regs regTempEnable).getLsbD i = (w.regs regTempEnable).getLsbD i) ∧
      (ret < 0 → t = w) := by
  by_cases hset : c.Settable nr v
  · obtain ⟨⟨sensor, extra⟩, htyped⟩ := Option.isSome_iff_exists.mp
      ((isSome_typed (c.clearType (w.regs regTempEnable) nr v)
        (c.clearExtra (w.regs regTempExtra) nr v)).mpr hset)
    refine ⟨_, _, run_setTempType hv htyped, ?_, fun _ => ⟨?_, ?_⟩, fun hlt => by omega⟩
    · exact ⟨fun _ => hset, fun _ => Int.natCast_nonneg _⟩
    · have htype := typeOf_typed nr.isLt getLsbD_clearExtra htyped
        (regs_retyped_extra w sensor)
      rw [run_getTempType_plain hsel, sensed, if_neg (by omega), regs_retyped_enable, ← htype]
      rfl
    · intro m hm i hi
      rw [regs_retyped_enable]
      exact getLsbD_typed nr.isLt m.isLt (fun h => hm (Fin.ext h)) hi htyped
  · refine ⟨_, _, run_setTempType_refused hv hset, ?_, fun h => absurd h (by decide), fun _ => rfl⟩
    exact ⟨fun h => absurd h (by decide), fun h => absurd h hset⟩

/-- The digital sensor of an IT8721F, which has one of each style. -/
theorem setTempType_spec_digital :
    ∃ ret t, ((Chips.it8721.known []).setTempType (1 : Fin 3) "6\n".toList).run device
        (Chips.it8721.probe []).2 = (.ok ret, t) ∧
      (0 ≤ ret ↔ (Chips.it8721.known []).Settable (1 : Fin 3) 6) ∧
      (0 ≤ ret → ((Chips.it8721.known []).getTempType (1 : Fin 3)).run device t =
          (.ok (modern 6).toNat, t) ∧
        ∀ m : Fin 3, m ≠ 1 → ∀ i, i = m.val ∨ i = m.val + 3 →
          (t.regs regTempEnable).getLsbD i =
            ((Chips.it8721.probe []).2.regs regTempEnable).getLsbD i) ∧
      (ret < 0 → t = (Chips.it8721.probe []).2) :=
  setTempType_spec (by decide +kernel) 1 _ (by decide +kernel)

end It87Chip

end BuffaloNas.It87
