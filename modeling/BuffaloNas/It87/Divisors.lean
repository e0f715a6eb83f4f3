import BuffaloNas.It87.Started
import BuffaloNas.Interaction.History

/-! The divisors of three fans share a register, and each of them has a copy in the cache. -/
namespace BuffaloNas.It87
open Interaction Program SuperIo World

variable {c : It87Chip} {w : World} {buf : List Char}

/-! ### The register -/

/-- What storing the divisors makes of one of them. -/
def packed (j : ℕ) (v : Byte) : Byte := if j < 2 then v &&& 0x07 else if v = 3 then 3 else 1

theorem packDivs_getLsbD (old : Byte) (f : ℕ → Byte) {i : ℕ} (hi : i < 8) :
    (It87Chip.packDivs old f).getLsbD i =
      if i < 3 then (f 0).getLsbD i
      else if i < 6 then (f 1).getLsbD (i - 3)
      else if i = 6 then decide (f 2 = 3) else old.getLsbD 7 := by
  rw [It87Chip.packDivs]
  by_cases h2 : f 2 = 3
  · simp only [h2, if_true]
    interval_cases i <;> simp
  · simp only [h2, if_false]
    interval_cases i <;> simp

theorem fanDivOf_packDivs (old : Byte) (f : ℕ → Byte) {j : ℕ} (hj : j < 3) :
    It87Chip.fanDivOf (It87Chip.packDivs old f) j = packed j (f j) := by
  have hbit : ∀ i < 8, (It87Chip.packDivs old f).getLsbD i = _ := fun i hi =>
    packDivs_getLsbD old f hi
  generalize It87Chip.packDivs old f = reg at hbit
  interval_cases j
  · refine BitVec.eq_of_getLsbD_eq fun i hi => ?_
    simp only [It87Chip.fanDivOf, packed, BitVec.getLsbD_and, hbit i hi]
    interval_cases i <;> simp
  · refine BitVec.eq_of_getLsbD_eq fun i hi => ?_
    simp only [It87Chip.fanDivOf, packed, BitVec.getLsbD_and, BitVec.getLsbD_ushiftRight]
    have h3 : i < 3 → reg.getLsbD (3 + i) = (f 1).getLsbD i := fun hi => by
      rw [hbit (3 + i) (by omega), if_neg (by omega), if_pos (by omega)]
      congr 1
      omega
    interval_cases i <;> simp_all
  · simp only [It87Chip.fanDivOf, packed, hbit 6 (by omega)]
    simp

/-- Bit 7 is kept, whatever the divisors are. -/
theorem bit7_packDivs (old : Byte) (f : ℕ → Byte) :
    (It87Chip.packDivs old f).getLsbD 7 = old.getLsbD 7 := packDivs_getLsbD old f (by omega)

/-- A divisor that comes from the register is stored as it is. -/
theorem packed_fanDivOf (reg : Byte) (j : ℕ) :
    packed j (It87Chip.fanDivOf reg j) = It87Chip.fanDivOf reg j := by
  rcases j with _ | _ | j
  · simp [packed, It87Chip.fanDivOf, BitVec.and_assoc]
  · simp [packed, It87Chip.fanDivOf, BitVec.and_assoc]
  · cases h : reg.getLsbD 6 <;> simp [packed, It87Chip.fanDivOf, h]

theorem packed_zero (j : ℕ) : packed j 0 = It87Chip.fanDivOf 0 j := by
  rcases j with _ | _ | j
  · rfl
  · rfl
  · simp [packed, It87Chip.fanDivOf]

/-- `FAN_DIV` as it is when a store on fan `i` has left the others' divisors and bit 7 alone. -/
def KeepsDivisors (i : ℕ) (old new : Byte) : Prop :=
  (∀ j < 3, j ≠ i → It87Chip.fanDivOf new j = It87Chip.fanDivOf old j) ∧
    new.getLsbD 7 = old.getLsbD 7

instance (i : ℕ) (old new : Byte) : Decidable (KeepsDivisors i old new) :=
  inferInstanceAs (Decidable (_ ∧ _))

namespace It87Chip

/-! ### Storing a limit or a divisor -/

theorem run_setFan8 (nr index : ℕ) (val : ℤ) (w : World) :
    ∃ t, (c.setFan8 nr index val).run device w = (.ok (), t) ∧ t.data.fanDiv =
      if nr < 3 then Function.update w.data.fanDiv nr (fanDivOf (w.regs regFanDiv) nr)
      else w.data.fanDiv := by
  unfold setFan8
  by_cases hnr : nr < 3
  · simp [hnr]
  · simp [hnr]

/-- Storing the limit of a fan reads its divisor again. -/
theorem run_setFan (h16 : c.has .fans16bit = false) (nr index : ℕ) {val : ℤ}
    (hval : c.kstrtol buf = some val) (w : World) :
    ∃ t, (c.setFan nr index buf).run device w = (.ok (buf.length : ℤ), t) ∧ t.data.fanDiv =
      if nr < 3 then Function.update w.data.fanDiv nr (fanDivOf (w.regs regFanDiv) nr)
      else w.data.fanDiv := by
  obtain ⟨t, ht, hdiv⟩ := c.run_setFan8 nr index val w
  refine ⟨t, ?_, hdiv⟩
  simp [setFan, hval, h16, ht]

/-- Storing a divisor writes all three, as the cache has them. -/
theorem run_setFanDiv (nr : ℕ) {val : ℕ} (hval : c.kstrtoul buf = some val)
    (hmin : c.regFanMin nr ≠ regFanDiv) (w : World) :
    ∃ t, (c.setFanDiv nr buf).run device w = (.ok (buf.length : ℤ), t) ∧
      t.data.fanDiv = Function.update w.data.fanDiv nr (newDiv nr val) ∧
      t.regs regFanDiv = packDivs (w.regs regFanDiv) t.data.fanDiv := by
  unfold setFanDiv
  simp [hval, hmin.symm]

/-! ### What the cache knows -/

/-- The event makes the cache and `FAN_DIV` agree on the divisor of fan `j`. -/
def TellsDiv (c : It87Chip) (j : ℕ) (w : World) : Event → Prop
  | .shown a => c.mode a ≠ .hidden ∧ a.refreshes ∧ c.stale (w.clock 0) w.data ∧
      c.hasFan &&& 0x07 ≠ 0
  | .stored (.fanMin i) buf => i.val = j ∧ c.mode (.fanMin i) = .writable ∧
      (c.kstrtol buf).isSome
  | .stored (.fanDiv i) buf => c.mode (.fanDiv i) = .writable ∧ (c.kstrtoul buf).isSome
  | _ => False

/-- Storing the divisor again would not change it. -/
def DivKnown (j : ℕ) (w : World) : Prop :=
  packed j (w.data.fanDiv j) = fanDivOf (w.regs regFanDiv) j

/-- Showing an attribute leaves the cached divisors alone, or reads all of them. -/
theorem fanDiv_shown (a : Attribute) (w : World) :
    (c.step w (.shown a)).data.fanDiv =
      if c.mode a ≠ .hidden ∧ a.refreshes ∧ c.stale (w.clock 0) w.data ∧
          c.hasFan &&& 0x07 ≠ 0 ∧ !c.has .fans16bit then
        fun i => if i < 3 then fanDivOf (w.regs regFanDiv) i else w.data.fanDiv i
      else w.data.fanDiv := by
  have hconfig : regFanDiv ≠ regConfig := by decide
  have hregs := regs_shown (c := c) (w := w) hconfig a
  rw [step_shown] at hregs ⊢
  by_cases ha : c.mode a ≠ .hidden ∧ a.refreshes
  · rw [if_pos ha] at hregs ⊢
    unfold updated at hregs ⊢
    by_cases hs : c.stale (w.clock 0) w.data
    · simp only [hs, if_true, regs_ticked] at hregs ⊢
      simp only [ha, refreshed, hregs, data_vbat, data_ticked, true_and, ne_eq, not_false_eq_true]
    · simp [hs]
  · rw [if_neg ha, if_neg]
    rintro ⟨h1, h2, -⟩
    exact ha ⟨h1, h2⟩

/-- Other events leave the divisor alone, in the register and in the cache. -/
theorem div_unchanged (h16 : c.has .fans16bit = false) {j : ℕ} {e : Event}
    (h : ¬ c.TellsDiv j w e) :
    (c.step w e).data.fanDiv j = w.data.fanDiv j ∧
      (c.step w e).regs regFanDiv = w.regs regFanDiv := by
  have hconfig : regFanDiv ≠ regConfig := by decide
  obtain ⟨hinputs, htargets⟩ := c.fanDiv_apart
  cases e with
  | shown a =>
    refine ⟨?_, regs_shown hconfig a⟩
    rw [fanDiv_shown, if_neg]
    rintro ⟨h1, h2, h3, h4, -⟩
    exact h ⟨h1, h2, h3, h4⟩
  | stored a buf =>
    by_cases hm : c.mode a = .writable
    case neg =>
      simp only [step, c.attempt_of_mode hm, run_pure, and_self]
    cases a
    case fanMin i =>
      refine ⟨?_, regs_attempt (htargets _ (by simp)) buf w⟩
      rw [step, c.attempt_eq hm rfl]
      cases hval : c.kstrtol buf with
      | none => simp [setFan, hval]
      | some val =>
        have hij : j ≠ i := by
          rintro rfl
          exact h ⟨rfl, hm, by simp [hval]⟩
        obtain ⟨t, ht, hdiv⟩ := run_setFan h16 i 1 hval w
        rw [ht, hdiv]
        split
        · exact Function.update_of_ne hij _ _
        · rfl
    case fanDiv i =>
      cases hval : c.kstrtoul buf with
      | none => simp [step, c.attempt_eq hm rfl, setFanDiv, hval]
      | some val => exact absurd ⟨hm, by simp [hval]⟩ h
    all_goals
      refine ⟨congrFun ((untouched_attempt _ buf w).fanDiv ?_ ?_) j,
        regs_attempt (htargets _ ?_) buf w⟩
      all_goals simp
  | measured r v =>
    refine ⟨?_, regs_measured hinputs r v⟩
    simp only [step]
    split <;> rfl

/-- What the events that tell a divisor leave behind. -/
theorem divKnown_of_tells (h16 : c.has .fans16bit = false) {j : ℕ} (hj : j < 3) {e : Event}
    (h : c.TellsDiv j w e) : DivKnown j (c.step w e) := by
  have hconfig : regFanDiv ≠ regConfig := by decide
  cases e with
  | shown a =>
    obtain ⟨h1, h2, h3, h4⟩ := h
    rw [DivKnown, regs_shown hconfig, fanDiv_shown, if_pos ⟨h1, h2, h3, h4, by simp [h16]⟩]
    simp only [hj, if_true]
    exact packed_fanDivOf _ j
  | stored a buf =>
    cases a
    case fanMin i =>
      obtain ⟨rfl, hm, hval⟩ := h
      obtain ⟨val, hval⟩ := Option.isSome_iff_exists.mp hval
      have hregs := regs_attempt (c.fanDiv_apart.2 (.fanMin i) (by simp)) buf w
      obtain ⟨t, ht, hdiv⟩ := run_setFan h16 i 1 hval w
      rw [c.attempt_eq hm rfl, ht] at hregs
      rw [DivKnown, step, c.attempt_eq hm rfl, ht, hregs, hdiv, if_pos hj, Function.update_self]
      exact packed_fanDivOf _ i
    case fanDiv i =>
      obtain ⟨hm, hval⟩ := h
      obtain ⟨val, hval⟩ := Option.isSome_iff_exists.mp hval
      obtain ⟨t, ht, -, hreg⟩ := run_setFanDiv i hval (c.regFanMin_ne i) w
      rw [DivKnown, step, c.attempt_eq hm rfl, ht, hreg]
      exact (fanDivOf_packDivs _ _ hj).symm
    all_goals exact absurd h id
  | measured r v => exact absurd h id

/-- Once an event has told a divisor it stays known, and before that it is as at the probe. -/
theorem div_history (h : Probed c w) (h16 : c.has .fans16bit = false) {j : ℕ} (hj : j < 3)
    (events : List Event) :
    (Once c.step (c.TellsDiv j) w events → DivKnown j (c.run w events)) ∧
      (¬ Once c.step (c.TellsDiv j) w events → (c.run w events).data.fanDiv j = 0) := by
  refine known_of_once (S := fun t : World => t.data.fanDiv j = 0) ?_ ?_ ?_ ?_ events
  · obtain ⟨vrm, vid, hdata⟩ := h.started
    rw [hdata]
    rfl
  · intro t e ht he
    obtain ⟨hd, hr⟩ := div_unchanged h16 he
    rw [DivKnown, hd, hr]
    exact ht
  · intro t e ht he
    exact (div_unchanged h16 he).1.trans ht
  · intro t e he
    exact divKnown_of_tells h16 hj he

/-! ### The divisors of the other fans -/

/-- Every other fan's divisor has been told, or is what nothing but the probe would make it. -/
def DivisorsTold (c : It87Chip) (w : World) (events : List Event) (i : ℕ) : Prop :=
  ∀ j < 3, j ≠ i → Once c.step (c.TellsDiv j) w events ∨
    fanDivOf ((c.run w events).regs regFanDiv) j = fanDivOf 0 j

theorem accepts_fanDiv {i : Fin 3} (h : c.accepts w (.fanDiv i) buf = true) :
    c.mode (.fanDiv i) = .writable ∧ ∃ val, c.kstrtoul buf = some val := by
  by_cases hm : c.mode (.fanDiv i) = .writable
  · refine ⟨hm, ?_⟩
    cases hval : c.kstrtoul buf with
    | none =>
      rw [accepts, c.attempt_eq hm rfl] at h
      simp [setFanDiv, hval, einval] at h
    | some val => exact ⟨val, rfl⟩
  · rw [accepts, c.attempt_of_mode hm] at h
    simp [eacces] at h

/-- Storing a divisor leaves the others alone exactly where they have been told. -/
theorem setFanDiv_keeps_iff (h : Probed c w) (h16 : c.has .fans16bit = false)
    (events : List Event) (i : Fin 3) (buf : List Char)
    (ha : c.accepts (c.run w events) (.fanDiv i) buf = true) :
    KeepsDivisors i ((c.run w events).regs regFanDiv)
        ((c.step (c.run w events) (.stored (.fanDiv i) buf)).regs regFanDiv) ↔
      c.DivisorsTold w events i := by
  obtain ⟨hm, val, hval⟩ := accepts_fanDiv ha
  obtain ⟨t, ht, hdiv, hreg⟩ := run_setFanDiv i hval (c.regFanMin_ne i) (c.run w events)
  have hother : ∀ j < 3, j ≠ i.val → fanDivOf (t.regs regFanDiv) j =
      packed j ((c.run w events).data.fanDiv j) := fun j hj hne => by
    rw [hreg, fanDivOf_packDivs _ _ hj, hdiv, Function.update_of_ne hne]
  rw [step, c.attempt_eq hm rfl, ht]
  constructor
  · rintro ⟨hkeep, -⟩ j hj hne
    by_cases ho : Once c.step (c.TellsDiv j) w events
    · exact .inl ho
    · refine .inr ?_
      rw [← hkeep j hj hne, hother j hj hne, (div_history h h16 hj events).2 ho]
      exact packed_zero j
  · intro htold
    refine ⟨fun j hj hne => ?_, ?_⟩
    · rw [hother j hj hne]
      rcases htold j hj hne with ho | hzero
      · exact (div_history h h16 hj events).1 ho
      · by_cases ho : Once c.step (c.TellsDiv j) w events
        · exact (div_history h h16 hj events).1 ho
        · rw [(div_history h h16 hj events).2 ho, hzero]
          exact packed_zero j
    · rw [hreg]
      exact bit7_packDivs _ _

/-- A look at a fan before its neighbour's divisor is stored. -/
theorem setFanDiv_keeps_iff_shown :
    KeepsDivisors 0 (((Chips.it87.known [(regFanDiv, 0x89)]).run
        (Chips.it87.probe [(regFanDiv, 0x89)]).2 [.shown (.fanInput 1)]).regs regFanDiv)
      (((Chips.it87.known [(regFanDiv, 0x89)]).step ((Chips.it87.known [(regFanDiv, 0x89)]).run
        (Chips.it87.probe [(regFanDiv, 0x89)]).2 [.shown (.fanInput 1)])
        (.stored (.fanDiv 0) "2\n".toList)).regs regFanDiv) ↔
      (Chips.it87.known [(regFanDiv, 0x89)]).DivisorsTold
        (Chips.it87.probe [(regFanDiv, 0x89)]).2 [.shown (.fanInput 1)] 0 :=
  setFanDiv_keeps_iff (Chips.probed (by decide +kernel)) (by decide +kernel) _ 0 _
    (by decide +kernel)

/-- Right after the probe nothing has been told. -/
theorem setFanDiv_clears :
    ¬ ∀ (c : It87Chip) (w : World) (events : List Event) (i : Fin 3) (buf : List Char),
      Probed c w → c.has .fans16bit = false →
      c.accepts (c.run w events) (.fanDiv i) buf = true →
      KeepsDivisors i ((c.run w events).regs regFanDiv)
        ((c.step (c.run w events) (.stored (.fanDiv i) buf)).regs regFanDiv) := by
  intro h
  have hkeep := h (Chips.it87.known [(regFanDiv, 0x89)]) (Chips.it87.probe [(regFanDiv, 0x89)]).2
    [] 0 "2\n".toList (Chips.probed (by decide +kernel)) (by decide +kernel) (by decide +kernel)
  revert hkeep
  decide +kernel

end It87Chip

end BuffaloNas.It87
