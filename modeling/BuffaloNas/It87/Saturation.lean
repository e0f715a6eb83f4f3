import BuffaloNas.It87.Divisors
import Mathlib.Algebra.Order.Ring.Int
import Mathlib.Data.Nat.Log
import Mathlib.Tactic.Linarith

/-! Requests at the ends of their ranges: where the arithmetic of the store functions wraps. -/
namespace BuffaloNas.It87
open Interaction Program SuperIo World

/-! ### What a `long` can hold -/

namespace Platform

variable (p : Platform) {x : ℤ}

/-- The least positive number that a `long` cannot hold. -/
def longTop : ℤ := 2 ^ (p.longBits - 1)

def fits (x : ℤ) : Prop := -p.longTop ≤ x ∧ x < p.longTop

instance (x : ℤ) : Decidable (p.fits x) := inferInstanceAs (Decidable (_ ∧ _))

theorem longTop_cases : p.longTop = 2147483648 ∨ p.longTop = 9223372036854775808 := by
  cases h : p.long64 <;> simp [longTop, longBits, h]

theorem two_pow_longBits : ((2 ^ p.longBits : ℕ) : ℤ) = 2 * p.longTop := by
  cases h : p.long64 <;> simp [longTop, longBits, h]

/-- Wrapping takes a number to its remainder around zero. -/
theorem long_eq (x : ℤ) : p.long x =
    if x % (2 * p.longTop) < p.longTop then x % (2 * p.longTop)
    else x % (2 * p.longTop) - 2 * p.longTop := by
  rw [long, Int.bmod_def, two_pow_longBits]
  have : (2 * p.longTop + 1) / 2 = p.longTop := by omega
  rw [this]

variable {p}

theorem long_of_fits (h : p.fits x) : p.long x = x := by
  obtain ⟨hlow, hhigh⟩ := h
  rw [long_eq]
  rcases p.longTop_cases with ht | ht
  all_goals
    rw [ht] at hlow hhigh ⊢
    split <;> omega

theorem long_of_ge (h : p.longTop ≤ x) (h' : x < 3 * p.longTop) :
    p.long x = x - 2 * p.longTop := by
  rw [long_eq]
  rcases p.longTop_cases with ht | ht
  all_goals
    rw [ht] at h h' ⊢
    split <;> omega

theorem long_of_lt (h : x < -p.longTop) (h' : -3 * p.longTop ≤ x) :
    p.long x = x + 2 * p.longTop := by
  rw [long_eq]
  rcases p.longTop_cases with ht | ht
  all_goals
    rw [ht] at h h' ⊢
    split <;> omega

end Platform

theorem clampVal_mono {x y : ℤ} (low high : ℤ) (h : x ≤ y) :
    clampVal x low high ≤ clampVal y low high := by
  unfold clampVal
  omega

theorem toNat_ofInt {n : ℕ} {x : ℤ} (h0 : 0 ≤ x) (h : x < 2 ^ n) :
    ((BitVec.ofInt n x).toNat : ℤ) = x := by
  rw [BitVec.toNat_ofInt]
  have hm : x % ((2 ^ n : ℕ) : ℤ) = x := Int.emod_eq_of_lt h0 (by exact_mod_cast h)
  rw [hm]
  exact Int.toNat_of_nonneg h0

namespace It87Chip

variable {c : It87Chip}

/-! ### The limits of fans with 16 bits -/

/-- No operation of `FAN16_TO_REG` overflows or divides by zero. -/
def Fan16Evaluates (c : It87Chip) (rpm : ℤ) : Prop :=
  rpm = 0 ∨ c.fits (1350000 + rpm) ∧ c.fits (rpm * 2) ∧ rpm * 2 ≠ 0 ∧
    c.fits ((1350000 + rpm).tdiv (rpm * 2))

/-- The request is evaluated; if it is positive, its register value is in range, and no smaller
positive request has a smaller one. -/
structure Fan16Sound (c : It87Chip) (rpm : ℤ) : Prop where
  evaluates : c.Fan16Evaluates rpm
  ordered : 0 < rpm → ∃ v, c.fan16ToReg rpm = some v ∧ 1 ≤ v.toNat ∧ v.toNat ≤ 0xfffe ∧
    ∀ r, 0 < r → r ≤ rpm → ∃ u, c.fan16ToReg r = some u ∧ v.toNat ≤ u.toNat

theorem fits_quotient {a b : ℤ} (ha : c.fits a) (hb : b % 2 = 0) (hne : b ≠ 0) :
    c.fits (a.tdiv b) := by
  have hq : (a.tdiv b).natAbs ≤ a.natAbs / 2 := by
    rw [Int.natAbs_tdiv]
    exact Nat.div_le_div_left (by omega) (by omega)
  obtain ⟨h1, h2⟩ := ha
  have ht := c.longTop_cases
  constructor <;> omega

/-- The register value of a positive request that can be doubled. -/
theorem fan16ToReg_pos {rpm : ℤ} (h0 : 0 < rpm) (h : c.fits (rpm * 2)) :
    ∃ v, c.fan16ToReg rpm = some v ∧
      (v.toNat : ℤ) = clampVal ((1350000 + rpm) / (rpm * 2)) 1 0xfffe := by
  obtain ⟨h1, h2⟩ := h
  have ht := c.longTop_cases
  have hsum : c.long (1350000 + rpm) = 1350000 + rpm := Platform.long_of_fits ⟨by omega, by omega⟩
  have hdbl : c.long (rpm * 2) = rpm * 2 := Platform.long_of_fits ⟨h1, h2⟩
  have hdiv : (1350000 + rpm).tdiv (rpm * 2) = (1350000 + rpm) / (rpm * 2) :=
    Int.tdiv_eq_ediv_of_nonneg (by omega)
  have hne : rpm ≠ 0 := by omega
  have hne2 : rpm * 2 ≠ 0 := by omega
  refine ⟨BitVec.ofInt 16 (clampVal ((1350000 + rpm) / (rpm * 2)) 1 0xfffe), ?_, ?_⟩
  · rw [fan16ToReg, if_neg hne, hdbl, if_neg hne2, hsum, hdiv]
  · refine toNat_ofInt ?_ ?_
    · unfold clampVal
      omega
    · unfold clampVal
      omega

/-- More turns take no more clock ticks. -/
theorem ticks_anti {r s : ℤ} (h0 : 0 < r) (h : r ≤ s) :
    (1350000 + s) / (s * 2) ≤ (1350000 + r) / (r * 2) := by
  have hs : 0 < s := by omega
  have hq := Int.mul_ediv_self_le (x := 1350000 + s) (k := s * 2) (by omega)
  generalize hq' : (1350000 + s) / (s * 2) = q at hq ⊢
  by_cases hpos : 1 ≤ q
  · rw [Int.le_ediv_iff_mul_le (by omega)]
    have hmul : r * (2 * q - 1) ≤ s * (2 * q - 1) := Int.mul_le_mul_of_nonneg_right h (by omega)
    linarith
  · have : 0 ≤ (1350000 + r) / (r * 2) := Int.ediv_nonneg (by omega) (by omega)
    omega

/-- A request is evaluated and ordered exactly if it can be doubled. -/
theorem fan16Sound_iff (c : It87Chip) (rpm : ℤ) : c.Fan16Sound rpm ↔ c.fits (rpm * 2) := by
  have ht := c.longTop_cases
  constructor
  · rintro ⟨h | ⟨-, h, -⟩, -⟩
    · subst h
      constructor <;> omega
    · exact h
  · intro h
    obtain ⟨h1, h2⟩ := h
    refine ⟨?_, fun h0 => ?_⟩
    · by_cases hz : rpm = 0
      · exact .inl hz
      · have hsum : c.fits (1350000 + rpm) := ⟨by omega, by omega⟩
        exact .inr ⟨hsum, ⟨h1, h2⟩, by omega, fits_quotient hsum (by omega) (by omega)⟩
    · obtain ⟨v, hv, hval⟩ := fan16ToReg_pos h0 ⟨h1, h2⟩
      refine ⟨v, hv, ?_, ?_, fun r hr hle => ?_⟩
      · unfold clampVal at hval
        omega
      · unfold clampVal at hval
        omega
      · obtain ⟨u, hu, huval⟩ := fan16ToReg_pos (c := c) hr ⟨by omega, by omega⟩
        have hmono := clampVal_mono 1 0xfffe (ticks_anti hr hle)
        exact ⟨u, hu, by omega⟩

/-- The least request of all divides by zero. -/
theorem not_fan16Sound :
    (unprobed plain Chips.it8718.bare).has .fans16bit = true ∧
    (unprobed plain Chips.it8718.bare).kstrtol "-9223372036854775808\n".toList =
      some (-9223372036854775808) ∧
    (unprobed plain Chips.it8718.bare).fan16ToReg (-9223372036854775808) = none ∧
    ¬ (unprobed plain Chips.it8718.bare).Fan16Sound (-9223372036854775808) := by
  refine ⟨by decide, by decide, by decide, fun h => ?_⟩
  rcases h.evaluates with h | ⟨-, h, -⟩
  · revert h
    decide
  · revert h
    decide

/-! ### Voltages -/

theorem adcLsb_bounds (c : It87Chip) (nr : ℕ) : 109 ≤ c.adcLsb nr ∧ c.adcLsb nr ≤ 320 := by
  unfold adcLsb
  grind

/-- Rounding a number to which half the divisor can be added. -/
theorem divRoundClosest_of_nonneg {x d : ℤ} (h0 : 0 ≤ x) (hd : 1 < d)
    (h : x + d / 2 < c.longTop) : c.divRoundClosest x d = (x + d / 2) / d := by
  have ht := c.longTop_cases
  unfold divRoundClosest
  split
  case isTrue hx =>
    rw [Platform.long_of_fits ⟨by omega, h⟩, Int.tdiv_eq_ediv_of_nonneg (by omega)]
  case isFalse hx =>
    obtain rfl : x = 0 := by omega
    have hhalf : (0 + d / 2) / d = 0 := Int.ediv_eq_zero_of_lt (by omega) (by omega)
    rw [Platform.long_of_fits ⟨by omega, by omega⟩, hhalf, zero_sub, Int.neg_tdiv,
      Int.tdiv_eq_ediv_of_nonneg (by omega), Int.ediv_eq_zero_of_lt (by omega) (by omega)]
    rfl

theorem inToReg_low (nr : ℕ) {v : ℕ} (h : (v * 10 : ℤ) + c.adcLsb nr / 2 < c.longTop) :
    ((c.inToReg nr (c.long v)).toNat : ℤ) =
      clampVal ((v * 10 + c.adcLsb nr / 2) / c.adcLsb nr) 0 255 := by
  have hd := c.adcLsb_bounds nr
  have ht := c.longTop_cases
  have hv : c.long v = v := Platform.long_of_fits ⟨by omega, by omega⟩
  have hten : c.long (v * 10) = v * 10 := Platform.long_of_fits ⟨by omega, by omega⟩
  rw [inToReg, hv, hten, divRoundClosest_of_nonneg (by omega) (by omega) h]
  refine toNat_ofInt ?_ ?_
  · unfold clampVal
    omega
  · unfold clampVal
    omega

/-- The first request for which half the divisor cannot be added. -/
theorem inToReg_wraps {nr v : ℕ} (h : c.longTop ≤ (v * 10 : ℤ) + c.adcLsb nr / 2)
    (h' : (v * 10 : ℤ) + c.adcLsb nr / 2 < c.longTop + 10) :
    c.inToReg nr (c.long v) = 0 := by
  have hd := c.adcLsb_bounds nr
  have ht := c.longTop_cases
  have hv : c.long v = v := Platform.long_of_fits ⟨by omega, by omega⟩
  have hten : c.long (v * 10) = v * 10 := Platform.long_of_fits ⟨by omega, by omega⟩
  have hsum : c.long (v * 10 + c.adcLsb nr / 2) = v * 10 + c.adcLsb nr / 2 - 2 * c.longTop :=
    Platform.long_of_ge h (by omega)
  have hquot : (v * 10 + c.adcLsb nr / 2 - 2 * c.longTop).tdiv (c.adcLsb nr) ≤ 0 := by
    generalize hx : v * 10 + c.adcLsb nr / 2 - 2 * c.longTop = x
    obtain ⟨y, rfl⟩ : ∃ y, x = -y := ⟨-x, by omega⟩
    rw [Int.neg_tdiv]
    have : 0 ≤ y.tdiv (c.adcLsb nr) := Int.tdiv_nonneg (by omega) (by omega)
    omega
  have hclamp :
      clampVal ((v * 10 + c.adcLsb nr / 2 - 2 * c.longTop).tdiv (c.adcLsb nr)) 0 255 = 0 := by
    unfold clampVal
    omega
  rw [inToReg, hv, hten, divRoundClosest, if_pos (by omega), hsum, hclamp]
  rfl

/-! ### Temperatures -/

theorem toInt_ofInt {x : ℤ} (hlow : -128 ≤ x) (hhigh : x ≤ 127) :
    (BitVec.ofInt 8 x).toInt = x := by
  rw [BitVec.toInt_ofInt]
  exact Int.bmod_eq_of_le (by omega) (by omega)

theorem toInt_tempToReg (val : ℤ) : (BitVec.ofInt 8 (c.tempToReg val)).toInt = c.tempToReg val := by
  refine toInt_ofInt ?_ ?_
  · unfold tempToReg clampVal
    omega
  · unfold tempToReg clampVal
    omega

/-- The nearest degree, between the ends. -/
theorem tempToReg_eq {val : ℤ} (hlow : -c.longTop ≤ val - 500) (hhigh : val + 500 < c.longTop) :
    c.tempToReg val =
      clampVal (if val < 0 then -((500 - val) / 1000) else (val + 500) / 1000) (-128) 127 := by
  unfold tempToReg
  split
  · rw [Platform.long_of_fits ⟨hlow, by omega⟩, ← Int.neg_sub 500 val, Int.neg_tdiv,
      Int.tdiv_eq_ediv_of_nonneg (by omega)]
  · rw [Platform.long_of_fits ⟨by omega, hhigh⟩, Int.tdiv_eq_ediv_of_nonneg (by omega)]

theorem tempToReg_mono {x y : ℤ} (hlow : -c.longTop ≤ x - 500) (h : x ≤ y)
    (hhigh : y + 500 < c.longTop) : c.tempToReg x ≤ c.tempToReg y := by
  rw [tempToReg_eq hlow (by omega), tempToReg_eq (by omega) hhigh]
  refine clampVal_mono (-128) 127 ?_
  split
  · split <;> omega
  · split <;> omega

/-- Half a degree more than the biggest number is a small one. -/
theorem tempToReg_top : c.tempToReg (c.longTop - 500) = -128 := by
  have hwrap : c.long (c.longTop - 500 + 500) = -c.longTop := by
    have ht := c.longTop_cases
    rw [Platform.long_of_ge (by omega) (by omega)]
    omega
  rw [tempToReg]
  rcases c.longTop_cases with ht | ht
  · rw [if_neg (by omega), hwrap, ht]
    decide
  · rw [if_neg (by omega), hwrap, ht]
    decide

/-- Half a degree less than the smallest number is a big one. -/
theorem tempToReg_bottom : c.tempToReg (499 - c.longTop) = 127 := by
  have hwrap : c.long (499 - c.longTop - 500) = c.longTop - 1 := by
    have ht := c.longTop_cases
    rw [Platform.long_of_lt (by omega) (by omega)]
    omega
  rw [tempToReg]
  rcases c.longTop_cases with ht | ht
  · rw [if_pos (by omega), hwrap, ht]
    decide
  · rw [if_pos (by omega), hwrap, ht]
    decide

/-! ### Divisors -/

theorem divLoop_natCast (n x : ℕ) : divLoop n x = min n (Nat.log 2 x) := by
  induction n generalizing x with
  | zero => simp [divLoop]
  | succ n ih =>
    have hshift : (x : ℤ) >>> (1 : ℕ) = ((x / 2 : ℕ) : ℤ) := by
      rw [Int.shiftRight_eq_div_pow]
      norm_num
    rw [divLoop, hshift, ih]
    by_cases hx : x < 2
    · have hhalf : x / 2 = 0 := by omega
      simp [hhalf, Nat.log_of_lt hx]
    · have hhalf : ((x / 2 : ℕ) : ℤ) ≠ 0 := by omega
      have hlog : Nat.log 2 x = Nat.log 2 (x / 2) + 1 :=
        Nat.log_of_one_lt_of_le (by omega) (by omega)
      rw [if_pos hhalf, hlog]
      omega

/-- A negative number never becomes zero. -/
theorem divLoop_neg (n : ℕ) {x : ℤ} (h : x < 0) : divLoop n x = n := by
  induction n generalizing x with
  | zero => rfl
  | succ n ih =>
    have hshift : x >>> (1 : ℕ) < 0 := by
      rw [Int.shiftRight_eq_div_pow]
      omega
    rw [divLoop, if_pos (by omega), ih hshift]

theorem divToReg_eq (val : ℕ) : divToReg val =
    if val % 2 ^ 32 < 2 ^ 31 then min 7 (Nat.log 2 (val % 2 ^ 32)) else 7 := by
  rw [divToReg, Int.bmod_def]
  by_cases h : val % 2 ^ 32 < 2 ^ 31
  · have hcast : ((val : ℤ) % ((2 ^ 32 : ℕ) : ℤ)) = ((val % 2 ^ 32 : ℕ) : ℤ) := by omega
    rw [if_pos h, if_pos (by omega), hcast, divLoop_natCast]
  · rw [if_neg h, if_neg (by omega), divLoop_neg 7 (by omega)]

theorem seven_le_log {x : ℕ} (h : 128 ≤ x) : 7 ≤ Nat.log 2 x :=
  Nat.le_log_of_pow_le (by decide) h

theorem log_lt_seven {x : ℕ} (h : x < 128) : Nat.log 2 x < 7 := by
  rcases Nat.eq_zero_or_pos x with rfl | hpos
  · decide
  · exact Nat.log_lt_of_lt_pow (by omega) h

/-- The exponent is right unless the lower half of a big number is a small one. -/
theorem divToReg_eq_log_iff (val : ℕ) :
    divToReg val = min 7 (Nat.log 2 val) ↔ val < 128 ∨ 128 ≤ val % 2 ^ 32 := by
  rw [divToReg_eq]
  by_cases hval : val < 128
  · have hmod : val % 2 ^ 32 = val := Nat.mod_eq_of_lt (by omega)
    simp only [hmod, hval, true_or, iff_true]
    rw [if_pos (by omega)]
  · have hlog := seven_le_log (x := val) (by omega)
    by_cases hlow : val % 2 ^ 32 < 128
    · have := log_lt_seven hlow
      rw [if_pos (by omega)]
      omega
    · have := seven_le_log (x := val % 2 ^ 32) (by omega)
      split <;> omega

/-! ### What the stores write -/

/-- The number that a text requests, where none may be negative. -/
def requested (c : It87Chip) (buf : List Char) : Option ℤ :=
  (c.kstrtoul buf).map fun n : ℕ => (n : ℤ)

/-- Of two requests from `low` to `high`, the bigger one does not get the smaller contents. -/
def Ordered (request : List Char → Option ℤ) (stored : List Char → ℤ) (low high : ℤ) : Prop :=
  ∀ buf buf' x y, request buf = some x → request buf' = some y →
    low ≤ x → x ≤ y → y ≤ high → stored buf ≤ stored buf'

/-- The contents of the register of a voltage limit when a text has been stored. -/
def inStored (c : It87Chip) (nr index : ℕ) (w : World) (buf : List Char) : ℤ :=
  (((c.setIn nr index buf).run device w).2.regs
    (if index = 1 then regVinMin nr else regVinMax nr)).toNat

/-- The contents of the register of a temperature limit, or an offset. -/
def tempStored (c : It87Chip) (nr index : ℕ) (w : World) (buf : List Char) : ℤ :=
  (((c.setTemp nr index buf).run device w).2.regs
    (if index = 2 then c.regTempHigh nr else if index = 3 then c.regTempOffset nr
      else c.regTempLow nr)).toInt

/-- The exponent that `FAN_DIV` has for a fan. -/
def divStored (c : It87Chip) (i : Fin 2) (w : World) (buf : List Char) : ℤ :=
  (fanDivOf (((c.setFanDiv i buf).run device w).2.regs regFanDiv) i).toNat

theorem run_enableOffsets (w : World) : ∃ t, enableOffsets.run device w = (.ok (), t) := by
  simp only [enableOffsets, run_bind, run_readValue, andThen_ok]
  split <;> simp

section

variable (nr index : ℕ) (w : World) {buf : List Char}

theorem run_setIn {v : ℕ} (h : c.kstrtoul buf = some v) :
    (c.setIn nr index buf).run device w = (.ok (buf.length : ℤ),
      (w.assign fun d => { d with ins := put d.ins nr index (c.inToReg nr (c.long v)) }).write
        (if index = 1 then regVinMin nr else regVinMax nr) (c.inToReg nr (c.long v))) := by
  simp [setIn, h]

/-- A limit, which unlike an offset needs nothing to be switched on. -/
theorem run_setTemp {v : ℤ} (h : c.kstrtol buf = some v) (h3 : index ≠ 3) :
    (c.setTemp nr index buf).run device w = (.ok (buf.length : ℤ),
      (w.assign fun d =>
        { d with temp := put d.temp nr index (BitVec.ofInt 8 (c.tempToReg v)) }).write
        (if index = 2 then c.regTempHigh nr else c.regTempLow nr)
        (BitVec.ofInt 8 (c.tempToReg v))) := by
  simp [setTemp, h, h3]

theorem inStored_eq {v : ℕ} (h : c.kstrtoul buf = some v) :
    c.inStored nr index w buf = (c.inToReg nr (c.long v)).toNat := by
  simp [inStored, run_setIn nr index w h]

theorem tempStored_eq {v : ℤ} (h : c.kstrtol buf = some v) :
    c.tempStored nr index w buf = c.tempToReg v := by
  rw [← toInt_tempToReg]
  by_cases h3 : index = 3
  · obtain ⟨t, ht⟩ := run_enableOffsets w
    simp [tempStored, setTemp, h, h3, ht]
  · simp [tempStored, run_setTemp nr index w h h3, h3]

theorem divStored_eq (i : Fin 2) {v : ℕ} (h : c.kstrtoul buf = some v) :
    c.divStored i w buf = divToReg v := by
  have hi := i.isLt
  have hle : divToReg v ≤ 7 := by
    rw [divToReg_eq]
    split <;> omega
  obtain ⟨t, ht, hdiv, hreg⟩ := run_setFanDiv i h (c.regFanMin_ne ⟨i, by omega⟩) w
  rw [divStored, ht, hreg, fanDivOf_packDivs _ _ (by omega), hdiv, Function.update_self, packed,
    if_pos hi, newDiv, if_pos hi]
  interval_cases divToReg v <;> rfl

end

/-! ### The ranges in which requests are ordered -/

theorem kstrtoul_line {n : ℕ} (h : (n : ℤ) < 2 * c.longTop) : c.kstrtoul (line n) = some n := by
  rw [← c.two_pow_longBits] at h
  exact Decimal.unsigned_text (by exact_mod_cast h)

theorem kstrtol_line {x : ℤ} (h : c.fits x) : c.kstrtol (line x) = some x :=
  Decimal.signed_text h.1 h.2

theorem requested_eq {buf : List Char} {x : ℤ} (h : c.requested buf = some x) :
    ∃ v : ℕ, c.kstrtoul buf = some v ∧ x = v := by
  obtain ⟨v, hv, rfl⟩ := Option.map_eq_some_iff.mp h
  exact ⟨v, hv, rfl⟩

theorem requested_line {n : ℕ} (h : (n : ℤ) < 2 * c.longTop) :
    c.requested (line n) = some (n : ℤ) := by
  rw [requested, kstrtoul_line h]
  rfl

theorem inStored_ordered_iff (c : It87Chip) (nr index top : ℕ) (w : World) :
    Ordered c.requested (c.inStored nr index w) 0 top ↔
      (top * 10 : ℤ) + c.adcLsb nr / 2 < c.longTop := by
  have hd := c.adcLsb_bounds nr
  have ht := c.longTop_cases
  constructor
  · intro h
    by_contra hge
    -- the last request that does not wrap, and the next
    obtain ⟨k, hk⟩ : ∃ k : ℕ, (k : ℤ) = (c.longTop - c.adcLsb nr / 2 - 1) / 10 :=
      ⟨((c.longTop - c.adcLsb nr / 2 - 1) / 10).toNat, by omega⟩
    have hlast : c.kstrtoul (line (k : ℕ)) = some k := kstrtoul_line (by omega)
    have hnext : c.kstrtoul (line (k + 1 : ℕ)) = some (k + 1) := kstrtoul_line (by omega)
    have hle := h (line (k : ℕ)) (line (k + 1 : ℕ)) k (k + 1 : ℕ) (requested_line (by omega))
      (requested_line (by omega)) (by omega) (by omega) (by omega)
    rw [inStored_eq nr index w hlast, inStored_eq nr index w hnext, inToReg_low nr (by omega),
      inToReg_wraps (by omega) (by omega)] at hle
    have hquot : 255 ≤ (k * 10 + c.adcLsb nr / 2) / c.adcLsb nr := by
      rw [Int.le_ediv_iff_mul_le (by omega)]
      omega
    have hzero : (0 : Byte).toNat = 0 := rfl
    unfold clampVal at hle
    omega
  · intro h buf buf' x y hx hy _ hxy hytop
    obtain ⟨u, hu, rfl⟩ := requested_eq hx
    obtain ⟨v, hv, rfl⟩ := requested_eq hy
    rw [inStored_eq nr index w hu, inStored_eq nr index w hv, inToReg_low nr (by omega),
      inToReg_low nr (by omega)]
    exact clampVal_mono 0 255 (Int.ediv_le_ediv (by omega) (by omega))

theorem tempStored_ordered_iff (c : It87Chip) (nr index bottom top : ℕ) (w : World) :
    Ordered c.kstrtol (c.tempStored nr index w) (-bottom) top ↔
      (bottom + 500 : ℤ) ≤ c.longTop ∧ (top + 500 : ℤ) < c.longTop := by
  have ht := c.longTop_cases
  constructor
  · intro h
    refine ⟨?_, ?_⟩
    · by_contra hge
      have hlow : c.kstrtol (line (499 - c.longTop)) = some (499 - c.longTop) :=
        kstrtol_line ⟨by omega, by omega⟩
      have hnext : c.kstrtol (line (500 - c.longTop)) = some (500 - c.longTop) :=
        kstrtol_line ⟨by omega, by omega⟩
      have hle := h _ _ _ _ hlow hnext (by omega) (by omega) (by omega)
      rw [tempStored_eq nr index w hlow, tempStored_eq nr index w hnext, tempToReg_bottom,
        tempToReg_eq (by omega) (by omega), if_pos (by omega)] at hle
      unfold clampVal at hle
      omega
    · by_contra hge
      have hlast : c.kstrtol (line (c.longTop - 501)) = some (c.longTop - 501) :=
        kstrtol_line ⟨by omega, by omega⟩
      have hhigh : c.kstrtol (line (c.longTop - 500)) = some (c.longTop - 500) :=
        kstrtol_line ⟨by omega, by omega⟩
      have hle := h _ _ _ _ hlast hhigh (by omega) (by omega) (by omega)
      rw [tempStored_eq nr index w hlast, tempStored_eq nr index w hhigh, tempToReg_top,
        tempToReg_eq (by omega) (by omega), if_neg (by omega)] at hle
      unfold clampVal at hle
      omega
  · rintro ⟨h1, h2⟩ buf buf' x y hx hy hxlow hxy hytop
    rw [tempStored_eq nr index w hx, tempStored_eq nr index w hy]
    exact tempToReg_mono (by omega) hxy (by omega)

/-- Numbers that need more than 32 bits are taken where `long` has more. -/
theorem divStored_ordered_iff (c : It87Chip) (i : Fin 2) (top : ℕ) (w : World) :
    Ordered c.requested (c.divStored i w) 0 top ↔ (c.long64 = true → top < 2 ^ 32) := by
  constructor
  · intro h h64
    by_contra hge
    have ht : c.longTop = 9223372036854775808 := by simp [Platform.longTop, Platform.longBits, h64]
    have hsmall : c.kstrtoul (line (128 : ℕ)) = some 128 := kstrtoul_line (by omega)
    have hbig : c.kstrtoul (line (2 ^ 32 : ℕ)) = some (2 ^ 32) := kstrtoul_line (by omega)
    have hle := h _ _ _ _ (requested_line (n := 128) (by omega))
      (requested_line (n := 2 ^ 32) (by omega)) (by omega) (by omega) (by omega)
    rw [divStored_eq w i hsmall, divStored_eq w i hbig] at hle
    revert hle
    decide
  · intro h buf buf' x y hx hy _ hxy hytop
    obtain ⟨u, hu, rfl⟩ := requested_eq hx
    obtain ⟨v, hv, rfl⟩ := requested_eq hy
    have hlt : v < 2 ^ 32 := by
      cases h64 : c.long64
      · have hbits : v < 2 ^ c.longBits := by
          have := (Option.mem_filter_iff.mp hv).2
          simpa using this
        simpa [Platform.longBits, h64] using hbits
      · have := h h64
        omega
    rw [divStored_eq w i hu, divStored_eq w i hv]
    have hlow : divToReg u = min 7 (Nat.log 2 u) := (divToReg_eq_log_iff u).mpr (by omega)
    have hhigh : divToReg v = min 7 (Nat.log 2 v) := (divToReg_eq_log_iff v).mpr (by omega)
    have hlog : Nat.log 2 u ≤ Nat.log 2 v := Nat.log_mono_right (by omega)
    omega

/-- How far the requests can go before the arithmetic wraps. -/
theorem stored_ordered_iff (c : It87Chip) (nr index bottom top : ℕ) (i : Fin 2) (w : World) :
    (Ordered c.requested (c.inStored nr index w) 0 top ↔
      (top * 10 : ℤ) + c.adcLsb nr / 2 < c.longTop) ∧
    (Ordered c.kstrtol (c.tempStored nr index w) (-bottom) top ↔
      (bottom + 500 : ℤ) ≤ c.longTop ∧ (top + 500 : ℤ) < c.longTop) ∧
    (Ordered c.requested (c.divStored i w) 0 top ↔ (c.long64 = true → top < 2 ^ 32)) ∧
    ∀ buf v, c.kstrtoul buf = some v →
      (c.divStored i w buf = min 7 (Nat.log 2 v) ↔ v < 128 ∨ 128 ≤ v % 2 ^ 32) := by
  refine ⟨c.inStored_ordered_iff nr index top w, c.tempStored_ordered_iff nr index bottom top w,
    c.divStored_ordered_iff i top w, fun buf v hv => ?_⟩
  rw [divStored_eq w i hv, ← divToReg_eq_log_iff]
  omega

/-- Numbers that are accepted and not stored in their order. -/
theorem not_stored_ordered :
    ¬ ∀ (c : It87Chip) (nr index : ℕ) (i : Fin 2) (w : World) (low high : ℤ),
      Ordered c.requested (c.inStored nr index w) low high ∧
      Ordered c.kstrtol (c.tempStored nr index w) low high ∧
      Ordered c.requested (c.divStored i w) low high := by
  intro h
  have htop : (unprobed plain Chips.it87.bare).kstrtol "9223372036854775807\n".toList =
      some 9223372036854775807 := by decide
  have hzero : (unprobed plain Chips.it87.bare).kstrtol "0\n".toList = some 0 := by decide
  have hle := (h (unprobed plain Chips.it87.bare) 0 2 0 (found []) 0 9223372036854775807).2.1
    _ _ _ _ hzero htop (by decide) (by decide) (by decide)
  rw [tempStored_eq 0 2 _ hzero, tempStored_eq 0 2 _ htop] at hle
  revert hle
  decide

end It87Chip

end BuffaloNas.It87
