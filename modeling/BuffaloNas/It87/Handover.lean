import BuffaloNas.It87.Channels

/-! Handing a fan over to the chip, and the trip points that the chip then goes by. -/
namespace BuffaloNas.It87
open Interaction Program SuperIo World

namespace It87Chip

variable {c : It87Chip} {w t : World} {a : Attribute} {buf : List Char} {nr point : ℕ}

/-! ### The trip points of a channel -/

/-- A trip point, or the hysteresis of the old automatic mode, as the chip has it. -/
def pointTemp (c : It87Chip) (regs : Word → Byte) (nr point : ℕ) : ℤ :=
  (regs (regAutoTemp nr (c.pointOffset point))).toInt

/-- The hysteresis of newer chips is a difference, and none of the points. -/
def firstPoint (c : It87Chip) : ℕ := if c.has .oldAutopwm then 0 else 1

def lastPoint (c : It87Chip) : ℕ := if c.has .oldAutopwm then 4 else 3

/-- The trip points of a channel, as the chip has them, are nondecreasing. -/
def PointsOrdered (c : It87Chip) (regs : Word → Byte) (nr : ℕ) : Prop :=
  ∀ point, c.firstPoint ≤ point → point < c.lastPoint →
    c.pointTemp regs nr point ≤ c.pointTemp regs nr (point + 1)

theorem autoTempReg_offset (nr : ℕ) (hp : point < 4) (hauto : c.hasAutopwm = true) :
    c.autoTempReg nr point = some (regAutoTemp nr (c.pointOffset point)) := by
  have htarget := autoTempReg_target (c := c) nr hp hauto
  rw [htarget, (autoTempReg_some hp htarget).1]

theorem pointOffset_lt (hp : point < c.lastPoint + 1) : c.pointOffset point < 6 := by
  unfold lastPoint at hp
  unfold pointOffset
  grind

/-- The check compares the cached points, but never the third of old chips with the fourth. -/
theorem checked_le {d : It87Data} (hauto : c.hasAutopwm = true)
    (h : 0 ≤ c.checkTripPoints d nr) (hlow : c.firstPoint ≤ point) (hhigh : point < 3) :
    (d.autoTemp nr point).toInt ≤ (d.autoTemp nr (point + 1)).toInt := by
  have h3 : List.range 3 = [0, 1, 2] := rfl
  unfold checkTripPoints at h
  unfold firstPoint at hlow
  cases ho : c.has .oldAutopwm
  · have hn : c.has .newerAutopwm = true := by simpa [hasAutopwm, ho] using hauto
    simp only [ho, hn, if_true, Bool.false_eq_true, if_false] at h hlow
    split at h
    case isTrue hle =>
      simp only [List.all_cons, List.all_nil, Bool.and_true, Bool.and_eq_true,
        decide_eq_true_eq] at hle
      obtain rfl | rfl : point = 1 ∨ point = 2 := by omega
      · exact hle.1
      · exact hle.2
    case isFalse => exact absurd h (by decide)
  · simp only [ho, if_true, h3] at h hlow
    split at h
    case isTrue hle =>
      have hle := hle.1
      simp only [List.all_cons, List.all_nil, Bool.and_true, Bool.and_eq_true,
        decide_eq_true_eq] at hle
      obtain rfl | rfl | rfl : point = 0 ∨ point = 1 ∨ point = 2 := by omega
      · exact hle.1
      · exact hle.2.1
      · exact hle.2.2
    case isFalse => exact absurd h (by decide)

/-! ### What the cache knows of them -/

/-- A trip point is in the cache as it is in its register. -/
def PointKnown (c : It87Chip) (nr point : ℕ) (w : World) : Prop :=
  w.data.autoTemp nr point = w.regs (regAutoTemp nr (c.pointOffset point))

/-- The event reads a trip point from the chip, or stores it. -/
def TellsPoint (c : It87Chip) (nr point : ℕ) (w : World) : Event → Prop
  | .shown a => c.mode a ≠ .hidden ∧ a.refreshes ∧ c.stale (w.clock 0) w.data ∧
      c.hasPwm.getLsbD nr
  | .stored (.pwm i) buf => i.val = nr ∧ c.mode (.pwm i) = .writable ∧
      ∃ val, c.kstrtol buf = some val ∧ 0 ≤ val ∧ val ≤ 255
  | .stored (.pwmAutoChannelsTemp i) buf => i.val = nr ∧
      c.mode (.pwmAutoChannelsTemp i) = .writable ∧ (c.mappingIn i buf).isSome
  | .stored (.pwmAutoPointTemp i k) buf => autoTempIndex i = nr ∧ k.val + 1 = point ∧
      c.mode (.pwmAutoPointTemp i k) = .writable ∧
      ∃ val, c.kstrtol buf = some val ∧ -128000 ≤ val ∧ val ≤ 127000
  | .stored (.pwmAutoPoint1TempHyst i) buf => autoTempIndex i = nr ∧ point = 0 ∧
      c.mode (.pwmAutoPoint1TempHyst i) = .writable ∧
      ∃ val, c.kstrtol buf = some val ∧ -128000 ≤ val ∧ val ≤ 127000
  | _ => False

theorem PointsKept.known (h : c.PointsKept nr w t) (hp : point < 4) (hauto : c.hasAutopwm = true)
    (hw : c.PointKnown nr point w) : c.PointKnown nr point t := by
  have hreg := autoTempReg_offset (c := c) nr hp hauto
  obtain ⟨hregs, hdata⟩ := h point hp
  rw [PointKnown, hregs _ hreg]
  rcases hdata with hd | ⟨reg, hreg', hd⟩
  · exact hd.trans hw
  · obtain rfl := Option.some.inj (hreg.symm.trans hreg')
    exact hd

/-- A point that has just been read, and not written since. -/
theorem PointsKept.known_of_read (h : c.PointsKept nr w t) (hp : point < 4)
    (hauto : c.hasAutopwm = true)
    (hread : t.data.autoTemp nr = (c.channelRead w.regs nr (w.data.channel nr)).autoTemp) :
    c.PointKnown nr point t := by
  have hreg := autoTempReg_offset (c := c) nr hp hauto
  rw [PointKnown, (h point hp).1 _ hreg, hread]
  simp [channelRead, hreg]

theorem autoTemp_setPwm {val : ℤ} (hval : c.kstrtol buf = some val)
    (hrange : 0 ≤ val ∧ val ≤ 255) :
    ((c.setPwm nr buf).run device w).2.data.autoTemp nr =
      (c.channelRead w.regs nr (w.data.channel nr)).autoTemp := by
  have hread := congrFun (c.readChannel_autoTemp w.regs nr w.data) nr
  rw [Function.update_self] at hread
  rw [run_setPwm hval hrange]
  dsimp only
  split
  · exact hread
  · simp only [setDuty, run_bind, run_assign, andThen_ok]
    split
    · exact hread
    · simp only [run_bind, run_getData, andThen_ok]
      split
      · rw [run_storeCtrl]
        exact hread
      · exact hread

theorem autoTemp_setPwmTempMap {m : Byte} (h : c.mappingIn nr buf = some m) :
    ((c.setPwmTempMap nr buf).run device w).2.data.autoTemp nr =
      (c.channelRead w.regs nr (w.data.channel nr)).autoTemp := by
  have hread := congrFun (c.readChannel_autoTemp w.regs nr w.data) nr
  rw [Function.update_self] at hread
  rw [run_setPwmTempMap h]
  dsimp only
  split
  · rw [run_storeCtrl]
    exact hread
  · exact hread

/-- A refresh reads the trip points of the channels that are enabled. -/
theorem known_updated (hnr : nr < 6) (hp : point < 4) (hauto : c.hasAutopwm = true)
    (h : c.PointKnown nr point w ∨ c.stale (w.clock 0) w.data ∧ c.hasPwm.getLsbD nr) :
    c.PointKnown nr point (c.updated w) := by
  have hreg := autoTempReg_offset (c := c) nr hp hauto
  have hoffset : c.pointOffset point < 6 := (autoTempReg_some hp hreg).2.1
  have hconfig : regAutoTemp nr (c.pointOffset point) ≠ regConfig := by
    have := (autoTemp_apart c.type hnr hoffset).2.1
    grind
  have hvbat := regs_vbat (c := c) hconfig w.ticked
  unfold updated
  by_cases hs : c.stale (w.clock 0) w.data
  · rw [if_pos hs]
    unfold PointKnown at h ⊢
    by_cases hpwm : c.hasPwm.getLsbD nr = true
    · simp [refreshed, rows_of_lt hnr, channelRow, hpwm, channelRead, hreg]
    · have hw := h.resolve_right fun hr => hpwm hr.2
      simp only [refreshed, rows_of_lt hnr, channelRow, hpwm, Bool.false_eq_true, if_false,
        regs_ticked, data_vbat, data_ticked] at hvbat ⊢
      rw [hvbat]
      exact hw
  · rw [if_neg hs]
    exact h.resolve_right fun hr => hs hr.1

/-- Storing in an attribute leaves a known point known. -/
theorem known_attempt (hnr : nr < 6) (hthree : c.has .oldAutopwm = true → nr < 3) (hp : point < 4)
    (hauto : c.hasAutopwm = true) (h : c.PointKnown nr point w) :
    c.PointKnown nr point ((c.attempt a buf).run device w).2 := by
  have hreg := autoTempReg_offset (c := c) nr hp hauto
  by_cases ha : a.channel = some nr
  case neg =>
    have hapart := targets_apart c.type hnr ha (autoTempReg_mem hnr hp hreg)
    have hd := congrArg (fun x => Channel.autoTemp x point)
      ((untouched_attempt (c := c) a buf w).channel nr ha)
    rw [PointKnown, regs_attempt hapart]
    exact hd.trans h
  cases hpoint : a.isPoint
  case false => exact (pointsKept_attempt hnr hthree ha hpoint buf w).known hp hauto h
  -- the points that are stored
  have hset : ∀ i q : ℕ, q < 4 → c.PointKnown nr point
      ((c.setAutoTemp (autoTempIndex i) q buf).run device w).2 := fun i q hq => by
    have hidx := autoTempIndex_lt i
    have hidx6 : autoTempIndex i < 6 := by omega
    by_cases hval : ∃ val, c.kstrtol buf = some val ∧ -128000 ≤ val ∧ val ≤ 127000
    · obtain ⟨val, hval, hrange⟩ := hval
      have hpoints := points_setAutoTemp (w := w) hidx6 hq hauto hval hrange hnr hp hreg
      dsimp only at hpoints
      split at hpoints
      · exact hpoints
      · rw [PointKnown, hpoints.1, hpoints.2]
        exact h
    · rw [run_setAutoTemp_refused hval]
      exact h
  by_cases hm : c.mode a = .writable
  case neg =>
    rw [c.attempt_of_mode hm]
    exact h
  cases a
  case pwmAutoPointTemp i k =>
    rw [c.attempt_eq hm rfl]
    exact hset i (k + 1) (by omega)
  case pwmAutoPoint1TempHyst i =>
    rw [c.attempt_eq hm rfl]
    exact hset i 0 (by omega)
  all_goals cases hpoint

theorem known_step (hnr : nr < 6) (hthree : c.has .oldAutopwm = true → nr < 3) (hp : point < 4)
    (hauto : c.hasAutopwm = true) (e : Event) (h : c.PointKnown nr point w) :
    c.PointKnown nr point (c.step w e) := by
  cases e with
  | shown a =>
    rw [step_shown]
    split
    · exact known_updated hnr hp hauto (.inl h)
    · exact h
  | stored a buf => exact known_attempt hnr hthree hp hauto h
  | measured r v =>
    have hreg := autoTempReg_offset (c := c) nr hp hauto
    have hdata : (c.step w (.measured r v)).data = w.data := by
      simp only [step]
      split <;> rfl
    rw [PointKnown, hdata, regs_measured (autoTempReg_notMem_inputs hnr hp hreg)]
    exact h

/-- What the events that tell a point leave behind. -/
theorem known_of_tells (hnr : nr < 6) (hp : point < 4) (hauto : c.hasAutopwm = true) {e : Event}
    (h : c.TellsPoint nr point w e) : c.PointKnown nr point (c.step w e) := by
  have hreg := autoTempReg_offset (c := c) nr hp hauto
  have hset : ∀ (i q : ℕ) (buf : List Char), autoTempIndex i = nr → q = point →
      (∃ val, c.kstrtol buf = some val ∧ -128000 ≤ val ∧ val ≤ 127000) →
      c.PointKnown nr point ((c.setAutoTemp (autoTempIndex i) q buf).run device w).2 := by
    rintro i q buf rfl rfl ⟨val, hval, hrange⟩
    have hpoints := points_setAutoTemp (w := w) hnr hp hauto hval hrange hnr hp hreg
    dsimp only at hpoints
    rw [if_pos ⟨rfl, rfl⟩] at hpoints
    exact hpoints
  cases e with
  | shown a =>
    obtain ⟨hm, hr, hs, hpwm⟩ := h
    rw [step_shown, if_pos ⟨hm, hr⟩]
    exact known_updated hnr hp hauto (.inr ⟨hs, hpwm⟩)
  | stored a buf =>
    cases a
    case pwm i =>
      obtain ⟨rfl, hm, val, hval, hrange⟩ := h
      rw [step, c.attempt_eq hm rfl]
      exact (pointsKept_setPwm i.isLt w).known_of_read hp hauto (autoTemp_setPwm hval hrange)
    case pwmAutoChannelsTemp i =>
      obtain ⟨rfl, hm, hmap⟩ := h
      obtain ⟨m, hmap⟩ := Option.isSome_iff_exists.mp hmap
      rw [step, c.attempt_eq hm rfl]
      exact (pointsKept_setPwmTempMap i.isLt w).known_of_read hp hauto
        (autoTemp_setPwmTempMap hmap)
    case pwmAutoPointTemp i k =>
      obtain ⟨hi, hk, hm, hval⟩ := h
      rw [step, c.attempt_eq hm rfl]
      exact hset i (k + 1) buf hi hk hval
    case pwmAutoPoint1TempHyst i =>
      obtain ⟨hi, hk, hm, hval⟩ := h
      rw [step, c.attempt_eq hm rfl]
      exact hset i 0 buf hi hk.symm hval
    all_goals exact absurd h id
  | measured r v => exact absurd h id

/-- A point that has been told stays known. -/
theorem known_of_told (hnr : nr < 6) (hthree : c.has .oldAutopwm = true → nr < 3) (hp : point < 4)
    (hauto : c.hasAutopwm = true) {events : List Event}
    (h : Once c.step (c.TellsPoint nr point) w events) :
    c.PointKnown nr point (c.run w events) := by
  refine (known_of_once (S := fun _ => True) trivial (fun t e ht _ => ?_) (fun _ _ _ _ => trivial)
    (fun t e he => ?_) events).1 h
  · exact known_step hnr hthree hp hauto e ht
  · exact known_of_tells hnr hp hauto he

/-! ### Handing over -/

/-- Handing a fan over writes none of the trip points. -/
theorem regs_handover {i : Fin 6} {k : ℕ} (hk : k < 6) (h : c.enables w.data i buf 2) :
    ((c.setPwmEnable i buf).run device w).2.regs (regAutoTemp i k) = w.regs (regAutoTemp i k) := by
  have hapart := (autoTemp_apart c.type i.isLt hk).2.1
  have hpwm : regAutoTemp i k ≠ c.regPwm i := by
    rintro heq
    exact hapart (heq ▸ by simp [regPwm])
  have hmain : regAutoTemp i k ≠ regFanMainCtrl := by
    rintro heq
    exact hapart (heq ▸ by simp)
  rw [run_setPwmEnable h, if_neg (by decide)]
  simp only [setMode, run_bind, run_getData, andThen_ok, run_storeCtrl]
  split
  · simp [hpwm, hmain]
  · simp [hpwm]

/-- Both points of a pair have been told, on a channel that the chip has: those with the old
automatic mode have three. -/
def PairTold (c : It87Chip) (w : World) (events : List Event) (nr point : ℕ) : Prop :=
  (c.has .oldAutopwm = true → nr < 3) ∧ Once c.step (c.TellsPoint nr point) w events ∧
    Once c.step (c.TellsPoint nr (point + 1)) w events

/-- Where the check fails to look, the trip points are in order all the same. -/
structure UncheckedOrdered (c : It87Chip) (w : World) (events : List Event) (nr : ℕ) : Prop where
  untold : ∀ point, c.firstPoint ≤ point → point < 3 → ¬ c.PairTold w events nr point →
    c.pointTemp (c.run w events).regs nr point ≤ c.pointTemp (c.run w events).regs nr (point + 1)
  fourth : c.has .oldAutopwm = true →
    c.pointTemp (c.run w events).regs nr 3 ≤ c.pointTemp (c.run w events).regs nr 4

/-- A pair that has been told is in order, for the check has compared it. -/
theorem pointTemp_le_of_told {events : List Event} {i : Fin 6} (hauto : c.hasAutopwm = true)
    (h : c.PairTold w events i point) (hlow : c.firstPoint ≤ point) (hhigh : point < 3)
    (hcheck : 0 ≤ c.checkTripPoints (c.run w events).data i) :
    c.pointTemp (c.run w events).regs i point ≤
      c.pointTemp (c.run w events).regs i (point + 1) := by
  obtain ⟨hthree, htold, htold'⟩ := h
  have hknown := known_of_told i.isLt hthree (by omega) hauto htold
  have hknown' := known_of_told i.isLt hthree (by omega) hauto htold'
  have hle := checked_le hauto hcheck hlow hhigh
  unfold PointKnown at hknown hknown'
  rw [hknown, hknown'] at hle
  exact hle

/-- A fan is handed over with its trip points in order exactly if those are that the check does
not see. -/
theorem handover_ordered_iff (c : It87Chip) (w : World) (events : List Event) (i : Fin 6)
    (buf : List Char) (hauto : c.hasAutopwm = true) (hval : c.kstrtol buf = some 2)
    (ha : c.accepts (c.run w events) (.pwmEnable i) buf = true) :
    c.PointsOrdered (c.step (c.run w events) (.stored (.pwmEnable i) buf)).regs i ↔
      c.UncheckedOrdered w events i := by
  obtain ⟨hm, val, henables⟩ := enables_of_accepts ha
  obtain rfl : val = 2 := Option.some.inj (henables.1.symm.trans hval)
  have hcheck := henables.2.2.2 rfl
  have htemp : ∀ point < c.lastPoint + 1,
      c.pointTemp (c.step (c.run w events) (.stored (.pwmEnable i) buf)).regs i point =
        c.pointTemp (c.run w events).regs i point := fun point hp => by
    rw [step, c.attempt_eq hm rfl, pointTemp, regs_handover (pointOffset_lt hp) henables]
    rfl
  have hlast : 3 ≤ c.lastPoint ∧ (c.has .oldAutopwm = true ↔ c.lastPoint = 4) := by
    unfold lastPoint
    grind
  have hfirst : c.firstPoint ≤ 3 := by
    unfold firstPoint
    grind
  constructor
  · intro h
    refine ⟨fun point hlow hhigh _ => ?_, fun hold => ?_⟩
    · rw [← htemp point (by omega), ← htemp (point + 1) (by omega)]
      exact h point hlow (by omega)
    · have h4 := hlast.2.mp hold
      rw [← htemp 3 (by omega), ← htemp 4 (by omega)]
      exact h 3 hfirst (by omega)
  · intro h point hlow hhigh
    rw [htemp point (by omega), htemp (point + 1) (by omega)]
    by_cases h3 : point = 3
    · subst h3
      refine h.fourth (hlast.2.mpr ?_)
      unfold lastPoint at *
      grind
    · have hlt : point < 3 := by
        unfold lastPoint at hhigh
        grind
      by_cases htold : c.PairTold w events i point
      · exact pointTemp_le_of_told hauto htold hlow hlt hcheck
      · exact h.untold point hlow hlt htold

/-- What an IT8705F is found with: the fourth point of the first channel is below the third. -/
def swapped : List (Word × Byte) := [(0x62, 10), (0x63, 30), (0x64, 20)]

/-- A look at the channel, and then the chip is given the fan. -/
theorem handover_ordered_iff_shown :
    (Chips.it87.known swapped).PointsOrdered
        ((Chips.it87.known swapped).step ((Chips.it87.known swapped).run
          (Chips.it87.probe swapped).2 [.shown (.pwm 0)])
          (.stored (.pwmEnable 0) "2\n".toList)).regs (0 : Fin 6) ↔
      (Chips.it87.known swapped).UncheckedOrdered (Chips.it87.probe swapped).2
        [.shown (.pwm 0)] (0 : Fin 6) :=
  handover_ordered_iff _ _ _ 0 _ (by decide +kernel) (by decide +kernel) (by decide +kernel)

/-- The fan is handed over although its points are not in order. -/
theorem not_handover_ordered :
    ¬ ∀ (c : It87Chip) (w : World) (events : List Event) (i : Fin 6) (buf : List Char),
      Probed c w → c.hasAutopwm = true → c.kstrtol buf = some 2 →
      c.accepts (c.run w events) (.pwmEnable i) buf = true →
      c.PointsOrdered (c.step (c.run w events) (.stored (.pwmEnable i) buf)).regs i := by
  intro h
  have hle := h (Chips.it87.known swapped) (Chips.it87.probe swapped).2 [.shown (.pwm 0)] 0
    "2\n".toList (Chips.probed (by decide +kernel)) (by decide +kernel) (by decide +kernel)
    (by decide +kernel) 3 (by decide +kernel) (by decide +kernel)
  revert hle
  decide +kernel

end It87Chip

end BuffaloNas.It87
