import BuffaloNas.Fan.Daemon
import BuffaloNas.Interaction.LastWrite

/-! The daemon on a fan that takes every value: what is programmed after each reading. -/
namespace BuffaloNas.Fan
open Interaction Program Micon

/-- The readings to come and the value that was set last. -/
structure FanState where
  readings : List (Option ℤ)
  programmed : Option ℤ

def FanState.device : Device DaemonOp DaemonOp.Answer PyError FanState
  | .getHDDtemp, s => (.ok (s.readings.head?.join), { s with readings := s.readings.tail })
  | .setMiconPWM value, s => (.ok (), { s with programmed := some value })
  | .sleep _, s => (.ok (), s)

variable (fl : FloatOps) (cfg : Config)

/-! ### One iteration -/

/-- The reading as the loop takes it: 0 counts as no reading. -/
def reported (reading : Option ℤ) : Option ℤ := if equalsFalse reading then none else reading

/-- The pwm that the loop remembers after one more reading. -/
def nextPwm (pwm : ℤ) (reading : Option ℤ) : ℤ :=
  ((reported reading).map (curve fl cfg)).getD pwm

theorem nextPwm_zero (pwm : ℤ) : nextPwm fl cfg pwm (some 0) = pwm := rfl

theorem nextPwm_some (pwm : ℤ) {temp : ℤ} (h : temp ≠ 0) :
    nextPwm fl cfg pwm (some temp) = curve fl cfg temp := by
  simp [nextPwm, reported, equalsFalse, h]

/-- If the fan has the remembered value before an iteration, it has it afterwards. -/
theorem run_iteration (pwm : ℤ) (reading : Option ℤ) (rest : List (Option ℤ)) :
    (iteration fl cfg pwm).run FanState.device ⟨reading :: rest, some pwm⟩ =
      (.ok (nextPwm fl cfg pwm reading), ⟨rest, some (nextPwm fl cfg pwm reading)⟩) := by
  simp only [iteration, run_bind, run_perform, FanState.device, List.head?_cons, Option.join_some,
    List.tail_cons, andThen_ok, run_ite, run_pure]
  cases reading with
  | none => rfl
  | some temp =>
    by_cases h0 : temp = 0
    · subst h0
      rfl
    · rw [nextPwm_some fl cfg pwm h0]
      by_cases hp : curve fl cfg temp = pwm
      · simp [equalsFalse, h0, hp]
      · simp [equalsFalse, h0, hp]

/-! ### Every run -/

/-- The pwm remembered after some readings. -/
def remembered (readings : List (Option ℤ)) : ℤ := readings.foldl (nextPwm fl cfg) cfg.minpwm

/-- After each iteration the fan has the remembered value. -/
theorem run_daemon (hv : cfg.Valid) (readings rest : List (Option ℤ)) (p : Option ℤ) :
    (daemon fl cfg readings.length).run FanState.device ⟨readings ++ rest, p⟩ =
      (.ok (remembered fl cfg readings), ⟨rest, some (remembered fl cfg readings)⟩) := by
  induction readings using List.reverseRecOn generalizing rest with
  | nil =>
    have hne : ¬ cfg.maxtemp - cfg.mintemp = 0 := by
      have := hv.temps
      omega
    simp [daemon, startup, hne, FanState.device, remembered]
  | append_singleton readings reading ih =>
    rw [List.length_append, List.length_singleton, daemon, run_bind, List.append_assoc, ih,
      andThen_ok, List.singleton_append, run_iteration]
    simp only [remembered, List.foldl_append, List.foldl_cons, List.foldl_nil]

/-- The remembered pwm belongs to the last reading that was not taken for a missing one. -/
theorem remembered_eq (readings : List (Option ℤ)) :
    remembered fl cfg readings =
      ((lastWrite reported readings).map (curve fl cfg)).getD cfg.minpwm := by
  have h : Overwrites id (nextPwm fl cfg) fun r => (reported r).map (curve fl cfg) :=
    fun _ _ => rfl
  rw [← lastWrite_map]
  exact h.foldl readings cfg.minpwm

/-- The value in the fan after as many iterations as there are readings. -/
def programmedAfter (readings : List (Option ℤ)) : Option ℤ :=
  ((daemon fl cfg readings.length).run FanState.device ⟨readings, none⟩).2.programmed

theorem programmedAfter_eq (hv : cfg.Valid) (readings : List (Option ℤ)) :
    programmedAfter fl cfg readings = some (remembered fl cfg readings) := by
  have h := run_daemon fl cfg hv readings [] none
  rw [List.append_nil] at h
  rw [programmedAfter, h]

/-- After each reading the fan has its curve value, after a missing one it is left alone. -/
def Tracks (readings : List (Option ℤ)) : Prop :=
  ∀ before reading after, readings = before ++ reading :: after →
    match reading with
    | some temp => programmedAfter fl cfg (before ++ [reading]) = some (curve fl cfg temp)
    | none => programmedAfter fl cfg (before ++ [reading]) = programmedAfter fl cfg before

/-- The fan follows the curve exactly if every reading 0 comes while the pwm of the last other
reading, or at first the least pwm, happens to be that of 0. -/
theorem tracks_iff (hv : cfg.Valid) (readings : List (Option ℤ)) :
    Tracks fl cfg readings ↔
      ∀ before after, readings = before ++ some 0 :: after →
        ((lastWrite reported before).map (curve fl cfg)).getD cfg.minpwm = curve fl cfg 0 := by
  have hstep : ∀ before reading, remembered fl cfg (before ++ [reading]) =
      nextPwm fl cfg (remembered fl cfg before) reading := by
    intro before reading
    simp only [remembered, List.foldl_append, List.foldl_cons, List.foldl_nil]
  simp only [Tracks, programmedAfter_eq fl cfg hv, hstep, ← remembered_eq]
  constructor
  · intro h before after hr
    simpa [nextPwm_zero] using h before (some 0) after hr
  · intro h before reading after hr
    cases reading with
    | none => rfl
    | some temp =>
      by_cases h0 : temp = 0
      · subst h0
        exact congrArg some (h before after hr)
      · exact congrArg some (nextPwm_some fl cfg _ h0)

theorem tracks_default : Tracks .exact .default [some 45, none, some 36] := by
  refine (tracks_iff .exact .default Config.valid_default _).mpr ?_
  intro before after h
  have hmem : some 0 ∈ [some 45, none, some (36 : ℤ)] := h ▸ by simp
  exact absurd hmem (by decide)

/-- A disk at 0 degrees after one at 45: the fan stays at full speed. -/
theorem not_tracks_zero : ¬ Tracks .exact .default [some 45, some 0] := by
  intro h
  exact absurd (h [some 45] (some 0) [] rfl) (by decide)

end BuffaloNas.Fan
