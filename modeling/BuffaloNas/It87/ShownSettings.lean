import BuffaloNas.It87.Channels
import BuffaloNas.It87.SettingStores

/-! What is shown of a setting is what the registers hold, however old the cache is. -/
namespace BuffaloNas.It87
open Interaction Program SuperIo World

namespace It87Chip

variable {c : It87Chip} {w : World} {x : Setting} {a : Attribute} {buf : List Char}

/-! ### Every store -/

theorem sets_attempt (a : Attribute) (buf : List Char) (w : World) :
    c.Sets a w ((c.attempt a buf).run device w).2 := by
  by_cases hm : c.mode a = .writable
  case neg =>
    rw [c.attempt_of_mode hm]
    exact .refl c a w
  cases hs : c.storeOf a with
  | none =>
    rw [c.attempt_of_store hs]
    exact .refl c a w
  | some f =>
    rw [c.attempt_eq hm hs]
    cases a
    case inMin i =>
      cases hs
      exact sets_inMin i w
    case inMax i =>
      cases hs
      exact sets_inMax i w
    case inBeep i =>
      simp only [storeOf, Option.ite_none_right_eq_some, Option.some.injEq] at hs
      obtain ⟨-, rfl⟩ := hs
      exact sets_beep rfl w
    case tempMin i =>
      cases hs
      exact sets_tempMin i w
    case tempMax i =>
      cases hs
      exact sets_tempMax i w
    case tempOffset i =>
      cases hs
      exact sets_tempOffset i w
    case tempType i =>
      cases hs
      exact sets_tempType i w
    case tempBeep i =>
      simp only [storeOf, Option.ite_none_right_eq_some, Option.some.injEq] at hs
      obtain ⟨-, rfl⟩ := hs
      exact sets_beep rfl w
    case fanMin i =>
      cases hs
      have hfan : c.hasFan.getLsbD i = true := by
        simp only [mode, shownIf] at hm
        grind
      exact sets_fanMin hfan w
    case fanBeep i =>
      cases hs
      exact sets_beep rfl w
    case fanDiv i =>
      cases hs
      have h16 : c.has .fans16bit = false := by
        simp only [mode, shownIf] at hm
        grind
      exact sets_fanDiv h16 w
    case pwmEnable i =>
      cases hs
      exact .bystander rfl fun _ => cached_setPwmEnable w
    case pwm i =>
      cases hs
      exact .bystander rfl fun _ => cached_setPwm w
    case pwmFreq i =>
      simp only [storeOf, Option.ite_none_right_eq_some, Option.some.injEq] at hs
      obtain ⟨-, rfl⟩ := hs
      exact sets_pwmFreq i w
    case pwmAutoChannelsTemp i =>
      cases hs
      exact .bystander rfl fun _ => cached_setPwmTempMap w
    case pwmAutoPointPwm i k =>
      simp only [storeOf, Option.ite_none_right_eq_some, Option.some.injEq] at hs
      obtain ⟨-, rfl⟩ := hs
      exact .bystander rfl fun _ => cached_setAutoPwm w
    case pwmAutoPointTemp i k =>
      cases hs
      exact .bystander rfl fun _ => cached_setAutoTemp w
    case pwmAutoPoint4Temp i =>
      cases hs
      exact .bystander rfl fun _ => cached_setAutoTemp w
    case pwmAutoPoint1TempHyst i =>
      cases hs
      exact .bystander rfl fun _ => cached_setAutoTemp w
    case pwmAutoStart i =>
      cases hs
      exact .bystander rfl fun _ => cached_setAutoPwm w
    case pwmAutoSlope i =>
      cases hs
      exact .bystander rfl fun _ => cached_setAutoPwmSlope w
    case intrusion0Alarm =>
      cases hs
      refine .bystander rfl fun x => ?_
      rcases data_clearIntrusion c buf w with h | h
      · rw [h]
      · rw [h]
        cases x <;> rfl
    case vrm =>
      cases hs
      refine .bystander rfl fun x => ?_
      cases hval : c.kstrtoul buf with
      | none => simp [storeVrmReg, hval]
      | some val =>
        simp only [storeVrmReg, hval, run_bind, run_assign, andThen_ok, run_pure, data_assign]
        cases x <;> rfl
    all_goals cases hs

theorem settingOf_attempt (hw : c.Coherent w) (hx : x ∉ a.sets) :
    c.settingOf ((c.attempt a buf).run device w).2.regs x = c.settingOf w.regs x := by
  by_cases hshared : x = .freq ∧ ∃ i, a = .pwmEnable i
  · obtain ⟨rfl, i, rfl⟩ := hshared
    by_cases hm : c.mode (.pwmEnable i) = .writable
    · have hswitched : Switched i w ((c.setPwmEnable i buf).run device w).2 :=
        switched_setPwmEnable hw.mainCtrl
      rw [c.attempt_eq hm rfl, settingOf, settingOf, hswitched.ctl.freq]
    · rw [c.attempt_of_mode hm]
      rfl
  · refine settingOf_congr fun reg hr => regs_attempt ?_ buf w
    have hfreq : x = .freq → ∀ i, a ≠ .pwmEnable i := fun hf i ha => hshared ⟨hf, i, ha⟩
    exact apart_iff.mp (c.type.settingsApart.stores a a.mem_all x x.mem_all hx hfreq) reg hr

/-- A store leaves the settings of other attributes as they are. -/
theorem setting_attempt (hw : c.Coherent w) (hx : x ∉ a.sets) :
    c.setting ((c.attempt a buf).run device w).2 x = c.setting w x := by
  rw [setting, setting, settingOf_attempt hw hx]
  cases hread : c.reads x
  · rcases (sets_attempt a buf w).others x hx with h | ⟨h, -⟩
    · exact h
    · rw [hread] at h
      cases h
  · rfl

theorem mirrored_attempt (hw : c.Coherent w) (h : c.Mirrored w) :
    c.Mirrored ((c.attempt a buf).run device w).2 := by
  intro hv x
  have hold : w.data.valid = true := (untouched_attempt a buf w).invalid hv
  cases hread : c.reads x
  · rw [setting, hread]
    rfl
  rw [setting_of_reads hread]
  by_cases hx : x ∈ a.sets
  · exact (sets_attempt a buf w).own hv h x hx hread
  · rcases (sets_attempt a buf w).others x hx with hkept | ⟨-, hread⟩
    · rw [hkept, h.cached hold hread, settingOf_attempt hw hx]
    · exact hread

theorem mirrored_step (hw : c.Coherent w) (h : c.Mirrored w) (e : Event) :
    c.Mirrored (c.step w e) := by
  cases e with
  | shown a =>
    rw [step_shown]
    split
    · exact mirrored_updated h
    · exact h
  | stored a buf => exact mirrored_attempt hw h
  | measured r v => exact mirrored_measured h r v

theorem mirrored_run (h : Probed c w) (events : List Event) : c.Mirrored (c.run w events) := by
  have hstart : c.Mirrored w := by
    obtain ⟨vrm, vid, hdata⟩ := h.started
    intro hv
    rw [hdata] at hv
    cases hv
  refine (foldl_history (I := fun _ t => c.Coherent t ∧ c.Mirrored t)
    ⟨coherent_probed h, hstart⟩ (fun _ e t ht => ?_) events).2
  exact ⟨coherent_step e ht.1, mirrored_step ht.1 ht.2 e⟩

/-- Other settings are as they were after an event. -/
theorem setting_step (hw : c.Coherent w) {e : Event}
    (h : ∀ a buf, e = .stored a buf → x ∉ a.sets) :
    c.setting (c.step w e) x = c.setting w x := by
  cases e with
  | shown a =>
    rw [step_shown]
    split
    · exact setting_updated
    · rfl
  | stored a buf => exact setting_attempt hw (h a buf rfl)
  | measured r v => exact setting_measured r v

end It87Chip

/-! ### What is shown -/

/-- The settings that an attribute shows; the others show what is measured, or a channel. -/
def Attribute.settings : Attribute → List Setting
  | .inMin i => [.inMin i]
  | .inMax i => [.inMax i]
  | .inBeep _ | .tempBeep _ | .fanBeep _ => [.beeps]
  | .tempMin i => [.tempMin i]
  | .tempMax i => [.tempMax i]
  | .tempOffset i => [.tempOffset i]
  | .fanMin i => [.fanMin i, .fanDiv i]
  | .fanDiv i => [.fanDiv (i.castAdd 3)]
  | .pwmFreq _ => [.freq, .freq2]
  | _ => []

namespace It87Chip

variable {c : It87Chip} {w t : World} {a : Attribute}

theorem showOf_settings (ha : a.settings ≠ []) : a.refreshes = true ∧
    ∃ f, c.showOf a = c.showing f ∧
      ∀ d d', (∀ x ∈ a.settings, x.cached d' = x.cached d) → f d' = f d := by
  cases a
  case inMin i =>
    refine ⟨rfl, _, rfl, fun d d' h => ?_⟩
    rw [widened (h (.inMin i) (List.mem_singleton_self _))]
  case inMax i =>
    refine ⟨rfl, _, rfl, fun d d' h => ?_⟩
    rw [widened (h (.inMax i) (List.mem_singleton_self _))]
  case inBeep i =>
    refine ⟨rfl, _, rfl, fun d d' h => ?_⟩
    rw [widened (h .beeps (List.mem_singleton_self _))]
  case tempBeep i =>
    refine ⟨rfl, _, rfl, fun d d' h => ?_⟩
    rw [widened (h .beeps (List.mem_singleton_self _))]
  case fanBeep i =>
    refine ⟨rfl, _, rfl, fun d d' h => ?_⟩
    rw [widened (h .beeps (List.mem_singleton_self _))]
  case tempMin i =>
    refine ⟨rfl, _, rfl, fun d d' h => ?_⟩
    rw [widened (h (.tempMin i) (List.mem_singleton_self _))]
  case tempMax i =>
    refine ⟨rfl, _, rfl, fun d d' h => ?_⟩
    rw [widened (h (.tempMax i) (List.mem_singleton_self _))]
  case tempOffset i =>
    refine ⟨rfl, _, rfl, fun d d' h => ?_⟩
    rw [widened (h (.tempOffset i) (List.mem_singleton_self _))]
  case fanMin i =>
    refine ⟨rfl, _, rfl, fun d d' h => ?_⟩
    have hmin : d'.fan i 1 = d.fan i 1 := h (.fanMin i) (by simp [Attribute.settings])
    have hdiv : d'.fanDiv i = d.fanDiv i :=
      widened (h (.fanDiv i) (by simp [Attribute.settings]))
    rw [hmin, hdiv]
  case fanDiv i =>
    refine ⟨rfl, _, rfl, fun d d' h => ?_⟩
    have hdiv : d'.fanDiv i = d.fanDiv i :=
      widened (h (.fanDiv (i.castAdd 3)) (List.mem_singleton_self _))
    rw [hdiv]
  case pwmFreq i =>
    refine ⟨rfl, _, rfl, fun d d' h => ?_⟩
    have hfreq : d'.fanCtl >>> 4 &&& (0x07 : Byte) = d.fanCtl >>> 4 &&& (0x07 : Byte) :=
      widened (h .freq (by simp [Attribute.settings]))
    have hfreq2 : d'.extra >>> 4 &&& (0x07 : Byte) = d.extra >>> 4 &&& (0x07 : Byte) :=
      widened (h .freq2 (by simp [Attribute.settings]))
    rw [hfreq, hfreq2]
  all_goals exact absurd rfl ha

/-- Looks agree where the settings do, however old the copies are. -/
theorem look_congr (hw : c.Mirrored w) (ht : c.Mirrored t) (ha : a.settings ≠ [])
    (h : ∀ x ∈ a.settings, c.setting t x = c.setting w x) :
    ((c.look a).run device t).1 = ((c.look a).run device w).1 := by
  unfold look
  split
  · rfl
  · obtain ⟨-, f, hshow, hf⟩ := showOf_settings (c := c) ha
    rw [hshow, run_showing, run_showing]
    have hsame : f (c.updated t).data = f (c.updated w).data := by
      refine hf _ _ fun x hx => ?_
      rw [cached_updated ht, cached_updated hw]
      exact h x hx
    rw [hsame]

/-- In every state the driver comes to, a limit, a divisor, a beep or a frequency is shown from the
cache as it would be shown if the cache were read again. -/
theorem look_as_refreshed (h : Probed c w) (events : List Event) (ha : a.settings ≠ []) :
    ((c.look a).run device (c.run w events)).1 =
      ((c.look a).run device ((c.run w events).assign fun d => { d with valid := false })).1 := by
  have hset := mirrored_run h events
  refine look_congr (fun hv => ?_) hset ha fun x _ => ?_
  · cases hv
  · refine (setting_congr (fun _ _ => rfl) ?_).symm
    cases x <;> rfl

/-- A limit that has been stored after a look. -/
theorem look_as_refreshed_stored :
    (((Chips.it87.known [(regFanDiv, 0x89)]).look (.inMin 2)).run device
        ((Chips.it87.known [(regFanDiv, 0x89)]).run (Chips.it87.probe [(regFanDiv, 0x89)]).2
          [.shown (.inInput 0), .stored (.inMin 2) "1600\n".toList])).1 =
      (((Chips.it87.known [(regFanDiv, 0x89)]).look (.inMin 2)).run device
        (((Chips.it87.known [(regFanDiv, 0x89)]).run (Chips.it87.probe [(regFanDiv, 0x89)]).2
          [.shown (.inInput 0), .stored (.inMin 2) "1600\n".toList]).assign fun d =>
            { d with valid := false })).1 :=
  look_as_refreshed (Chips.probed (by decide +kernel)) _ (List.cons_ne_nil _ _)

/-- What is shown of a setting stays the same until an attribute that sets it is stored: whatever
else is stored, shown or measured, and whenever the cache is read again. -/
theorem look_persists (h : Probed c w) (events later : List Event) (ha : a.settings ≠ [])
    (hlater : ∀ a' buf, .stored a' buf ∈ later → ∀ x ∈ a.settings, x ∉ a'.sets) :
    ((c.look a).run device (c.run w (events ++ later))).1 =
      ((c.look a).run device (c.run w events)).1 := by
  refine look_congr (mirrored_run h events) (mirrored_run h (events ++ later)) ha fun x hx => ?_
  induction later using List.reverseRecOn with
  | nil => rw [List.append_nil]
  | append_singleton later e ih =>
    have hstep : c.run w (events ++ (later ++ [e])) =
        c.step (c.run w (events ++ later)) e := by
      simp [run, List.foldl_append]
    rw [hstep, setting_step (coherent_run h _)]
    · exact ih fun a' buf hmem => hlater a' buf (List.mem_append_left _ hmem)
    · rintro a' buf rfl
      exact hlater a' buf (by simp) x hx

/-- The limit of one input, while those of others and the divisor of a fan are stored. -/
theorem look_persists_others :
    (((Chips.it87.known [(regFanDiv, 0x89)]).look (.inMin 2)).run device
        ((Chips.it87.known [(regFanDiv, 0x89)]).run (Chips.it87.probe [(regFanDiv, 0x89)]).2
          ([.stored (.inMin 2) "1600\n".toList] ++
            [.stored (.inMax 2) "2000\n".toList, .shown (.inInput 2),
              .stored (.fanDiv 0) "2\n".toList]))).1 =
      (((Chips.it87.known [(regFanDiv, 0x89)]).look (.inMin 2)).run device
        ((Chips.it87.known [(regFanDiv, 0x89)]).run (Chips.it87.probe [(regFanDiv, 0x89)]).2
          [.stored (.inMin 2) "1600\n".toList])).1 := by
  refine look_persists (Chips.probed (by decide +kernel)) _ _ (List.cons_ne_nil _ _) ?_
  intro a buf hmem x hx
  obtain rfl := List.mem_singleton.mp hx
  simp only [List.mem_cons, Event.stored.injEq, reduceCtorEq, List.not_mem_nil, or_false,
    false_or] at hmem
  rcases hmem with ⟨rfl, -⟩ | ⟨rfl, -⟩
  · decide
  · decide

end It87Chip

end BuffaloNas.It87
