import BuffaloNas.It87.Modes

/-! What is left of a control register, and of a chosen mapping, when a mode is stored. -/
namespace BuffaloNas.It87
open Interaction Program SuperIo World

namespace It87Chip

variable {c : It87Chip} {w : World} {nr : Fin 6} {buf : List Char} {val : ℤ}

/-! ### What a mode is stored from -/

theorem control_run_probed (h : Probed c w) :
    (c.control nr w).ctrl = 0 ∧ (c.control nr w).tempMap = BitVec.ofNat 8 nr := by
  obtain ⟨vrm, vid, hdata⟩ := h.started
  rw [control, hdata]
  refine ⟨rfl, ?_⟩
  simp [It87Data.defaults]

/-- The event reads the control register of channel `nr`, or stores into it. -/
def ActsOn (c : It87Chip) (nr : Fin 6) (w : World) (e : Event) : Prop :=
  c.action nr w e ≠ .keep

/-- A mapping for channel `nr` is stored, and accepted. -/
def MapsTo (c : It87Chip) (nr : Fin 6) (m : Byte) (w : World) (e : Event) : Prop :=
  ∃ buf, e = .stored (.pwmAutoChannelsTemp nr) buf ∧
    c.accepts w (.pwmAutoChannelsTemp nr) buf = true ∧ c.mappingIn nr buf = some m

theorem action_mapsTo {m : Byte} {e : Event} (h : c.MapsTo nr m w e) :
    c.action nr w e = .remap m := by
  obtain ⟨buf, rfl, ha, hm⟩ := h
  have hw := (mappingIn_of_accepts ha).1
  simp only [action, hw, if_true, storeAction, hm]

theorem mapsTo_of_action {m : Byte} {e : Event} (h : c.action nr w e = .remap m) :
    c.MapsTo nr m w e := by
  cases e with
  | shown a =>
    simp only [action] at h
    split at h <;> cases h
  | measured r v => cases h
  | stored a buf =>
    by_cases hw : c.mode a = .writable
    case neg =>
      rw [action, if_neg hw] at h
      cases h
    rw [action, if_pos hw] at h
    cases a
    case pwmAutoChannelsTemp i =>
      simp only [storeAction] at h
      split at h
      case isFalse => cases h
      case isTrue hi =>
        obtain rfl := Fin.ext hi
        cases hm : c.mappingIn i buf with
        | none => simp [hm] at h
        | some m' =>
          simp only [hm, Control.Action.remap.injEq] at h
          subst h
          refine ⟨buf, rfl, ?_, hm⟩
          rw [accepts, c.attempt_eq hw rfl, run_setPwmTempMap hm]
          simp
    case pwmEnable i =>
      simp only [storeAction] at h
      grind
    case pwm i =>
      simp only [storeAction] at h
      grind
    all_goals cases h

/-- A text that stands for a mode, and is accepted, is stored from the cache. -/
theorem control_stored_mode (hn : c.has .newerAutopwm = true) (hval : c.kstrtol buf = some val)
    (h12 : val = 1 ∨ val = 2) (ha : c.accepts w (.pwmEnable nr) buf = true) :
    c.control nr (c.step w (.stored (.pwmEnable nr) buf)) =
      (c.control nr w).act (.store (decide (val = 2))) := by
  obtain ⟨hm, val', hval', -, -, htrip⟩ := enables_of_accepts ha
  obtain rfl : val = val' := Option.some.inj (hval.symm.trans hval')
  rw [control_step hn, action, if_pos hm]
  simp only [storeAction, if_true, hval]
  rcases h12 with rfl | rfl
  · rfl
  · simp [htrip rfl]

/-- The copies of a control register, by what has happened since the probe. -/
structure Followed (c : It87Chip) (nr : Fin 6) (w : World) (events : List Event) (t : World) :
    Prop where
  settled : Once c.step (c.ActsOn nr) w events → (c.control nr t).Settled
  mapped : Once c.step (c.ActsOn nr) w events →
    (c.control nr t).tempMap &&& 0x03 = (c.control nr t).reg &&& 0x03 ∨
      Once c.step (c.MapsTo nr ((c.control nr t).tempMap &&& 0x03)) w events
  fresh : ¬ Once c.step (c.ActsOn nr) w events →
    (c.control nr t).ctrl = 0 ∧ (c.control nr t).tempMap = BitVec.ofNat 8 nr

theorem followed (h : Probed c w) (hn : c.has .newerAutopwm = true) (nr : Fin 6)
    (events : List Event) : c.Followed nr w events (c.run w events) := by
  suffices hI : c.run w events = events.foldl c.step w ∧
      c.Followed nr w events (c.run w events) from hI.2
  refine foldl_history (I := fun as t => t = as.foldl c.step w ∧ c.Followed nr w as t)
    ⟨rfl, ⟨fun ho => absurd ho not_once_nil, fun ho => absurd ho not_once_nil,
      fun _ => control_run_probed h⟩⟩ ?_ events
  rintro as e t ⟨rfl, hf⟩
  refine ⟨by rw [List.foldl_append]; rfl, ?_⟩
  generalize ht : as.foldl c.step w = t at hf
  have hstep := control_step hn nr t e
  by_cases hk : c.action nr t e = .keep
  · -- nothing has been done to the register, and what was known of it still is
    have hno : ¬ c.ActsOn nr t e := fun ha => ha hk
    rw [hk] at hstep
    have hctrl : c.control nr (c.step t e) = c.control nr t := hstep
    have honce : Once c.step (c.ActsOn nr) w (as ++ [e]) ↔ Once c.step (c.ActsOn nr) w as := by
      rw [once_append_singleton, ht]
      simp [hno]
    refine ⟨fun ho => ?_, fun ho => ?_, fun ho => ?_⟩
    · rw [hctrl]
      exact hf.settled (honce.mp ho)
    · rw [hctrl]
      rcases hf.mapped (honce.mp ho) with heq | hm
      · exact .inl heq
      · exact .inr (once_append_singleton.mpr (.inl hm))
    · rw [hctrl]
      exact hf.fresh fun h => ho (honce.mpr h)
  · have honce : Once c.step (c.ActsOn nr) w (as ++ [e]) :=
      once_append_singleton.mpr (.inr (by rw [ht]; exact hk))
    refine ⟨fun _ => ?_, fun _ => ?_, fun ho => absurd honce ho⟩
    · rw [hstep]
      exact Control.settled_act (c.action_fits nr t e) fun h => absurd h hk
    · rw [hstep]
      cases ha : c.action nr t e with
      | keep => exact absurd ha hk
      | look => exact .inl (by simp [Control.act, BitVec.and_assoc])
      | remap m =>
        have hfits := c.action_fits nr t e
        rw [ha] at hfits
        refine .inr (once_append_singleton.mpr (.inr ?_))
        have hm : ((c.control nr t).act (.remap m)).tempMap &&& 0x03 = m := hfits
        rw [hm, ht]
        exact mapsTo_of_action ha
      | store auto => exact .inl (Control.mapping_store (x := c.control nr t) auto).symm

/-- The control register as it is when a mode has been stored and nothing else: bits 2 to 6 are
kept, and so are bits 0 and 1, unless another mapping has been stored since the probe. -/
def KeepsControl (c : It87Chip) (nr : Fin 6) (w : World) (events : List Event) (old new : Byte) :
    Prop :=
  new &&& 0x7c = old &&& 0x7c ∧ (new &&& 0x03 = old &&& 0x03 ∨
    ∃ m, m ≠ old &&& 0x03 ∧ Once c.step (c.MapsTo nr m) w events)

/-- Storing a mode keeps the control register exactly where an event before has read it or stored
into it, or where it has, but for bit 7, what the probe has put into the cache. -/
theorem setPwmEnable_keeps_iff (h : Probed c w) (hn : c.has .newerAutopwm = true)
    (events : List Event) (nr : Fin 6) (buf : List Char) (val : ℤ)
    (hval : c.kstrtol buf = some val) (h12 : val = 1 ∨ val = 2)
    (ha : c.accepts (c.run w events) (.pwmEnable nr) buf = true) :
    c.KeepsControl nr w events ((c.run w events).regs (c.regPwm nr))
        ((c.step (c.run w events) (.stored (.pwmEnable nr) buf)).regs (c.regPwm nr)) ↔
      Once c.step (c.ActsOn nr) w events ∨
        (c.run w events).regs (c.regPwm nr) &&& 0x7f = BitVec.ofNat 8 nr := by
  have hf := followed h hn nr events
  have hnew : (c.step (c.run w events) (.stored (.pwmEnable nr) buf)).regs (c.regPwm nr) =
      ((c.control nr (c.run w events)).act (.store (decide (val = 2)))).reg :=
    congrArg Control.reg (control_stored_mode hn hval h12 ha)
  have hold : (c.run w events).regs (c.regPwm nr) = (c.control nr (c.run w events)).reg := rfl
  rw [hnew, hold, KeepsControl, Control.mask_store, Control.mapping_store]
  by_cases ho : Once c.step (c.ActsOn nr) w events
  · refine ⟨fun _ => .inl ho, fun _ => ⟨hf.settled ho, ?_⟩⟩
    rcases hf.mapped ho with heq | hm
    · exact .inl heq
    · by_cases heq : (c.control nr (c.run w events)).tempMap &&& 0x03 =
          (c.control nr (c.run w events)).reg &&& 0x03
      · exact .inl heq
      · exact .inr ⟨_, heq, hm⟩
  · obtain ⟨hctrl, hmap⟩ := hf.fresh ho
    have hnone : ¬ ∃ m, m ≠ (c.control nr (c.run w events)).reg &&& 0x03 ∧
        Once c.step (c.MapsTo nr m) w events := by
      rintro ⟨m, -, pre, e, post, hs, hm⟩
      refine ho ⟨pre, e, post, hs, ?_⟩
      rw [ActsOn, action_mapsTo hm]
      intro hk
      cases hk
    have hnr : ∀ n : Fin 6, BitVec.ofNat 8 n.val = BitVec.ofNat 8 n &&& 0x7c |||
        BitVec.ofNat 8 n &&& 0x03 := by decide
    simp only [ho, hnone, or_false, false_or]
    have hzero : (0 : Byte) &&& 0x7c ||| BitVec.ofNat 8 nr.val &&& 0x7c =
        BitVec.ofNat 8 nr.val &&& 0x7c := BitVec.zero_or
    rw [Control.kept_mask, hctrl, hmap, hzero]
    constructor
    · rintro ⟨h1, h2⟩
      rw [Control.mask_ctrl, ← h1, ← h2]
      exact (hnr nr).symm
    · intro heq
      have hmasks : ∀ a : Byte, a &&& 0x7f &&& 0x7c = a &&& 0x7c ∧
          a &&& 0x7f &&& 0x03 = a &&& 0x03 := by decide +kernel
      rw [← heq]
      exact hmasks _

/-- A look at the channel before its mode is stored. -/
theorem setPwmEnable_keeps_iff_shown :
    (Chips.it8721.known [(0x15, 0xa1)]).KeepsControl 0 (Chips.it8721.probe [(0x15, 0xa1)]).2
      [.shown (.pwm 0)]
      (((Chips.it8721.known [(0x15, 0xa1)]).run (Chips.it8721.probe [(0x15, 0xa1)]).2
        [.shown (.pwm 0)]).regs ((Chips.it8721.known [(0x15, 0xa1)]).regPwm 0))
      (((Chips.it8721.known [(0x15, 0xa1)]).step ((Chips.it8721.known [(0x15, 0xa1)]).run
        (Chips.it8721.probe [(0x15, 0xa1)]).2 [.shown (.pwm 0)])
        (.stored (.pwmEnable 0) "1\n".toList)).regs
        ((Chips.it8721.known [(0x15, 0xa1)]).regPwm 0)) ↔
    Once (Chips.it8721.known [(0x15, 0xa1)]).step ((Chips.it8721.known [(0x15, 0xa1)]).ActsOn 0)
      (Chips.it8721.probe [(0x15, 0xa1)]).2 [.shown (.pwm 0)] ∨
    ((Chips.it8721.known [(0x15, 0xa1)]).run (Chips.it8721.probe [(0x15, 0xa1)]).2
      [.shown (.pwm 0)]).regs ((Chips.it8721.known [(0x15, 0xa1)]).regPwm 0) &&& 0x7f = 0#8 :=
  setPwmEnable_keeps_iff (Chips.probed (by decide +kernel)) (by decide +kernel) _ 0 _ 1
    (by decide +kernel) (.inl rfl) (by decide +kernel)

/-- Right after the probe, manual mode clears what the firmware has put into the register. -/
theorem setPwmEnable_clears :
    ¬ ∀ (c : It87Chip) (w : World) (events : List Event) (nr : Fin 6) (buf : List Char) (val : ℤ),
      Probed c w → c.has .newerAutopwm = true → c.kstrtol buf = some val → val = 1 ∨ val = 2 →
      c.accepts (c.run w events) (.pwmEnable nr) buf = true →
      c.KeepsControl nr w events ((c.run w events).regs (c.regPwm nr))
        ((c.step (c.run w events) (.stored (.pwmEnable nr) buf)).regs (c.regPwm nr)) := by
  intro h
  have hkeep := (h (Chips.it8721.known [(0x15, 0xa1)]) (Chips.it8721.probe [(0x15, 0xa1)]).2 [] 0
    "1\n".toList 1 (Chips.probed (by decide +kernel)) (by decide +kernel) (by decide +kernel)
    (.inl rfl) (by decide +kernel)).1
  revert hkeep
  decide +kernel

/-! ### A chosen mapping -/

/-- No mapping for channel `nr` is accepted. -/
def NoneMapped (c : It87Chip) (nr : Fin 6) (w : World) (events : List Event) : Prop :=
  Each (fun pre e => ∀ m, ¬ c.MapsTo nr m (c.run w pre) e) events

theorem noneMapped_of_ne {events : List Event}
    (h : ∀ e ∈ events, ∀ buf, e ≠ .stored (.pwmAutoChannelsTemp nr) buf) (w : World) :
    c.NoneMapped nr w events := by
  rintro pre e post rfl m ⟨buf, he, -⟩
  exact h e (List.mem_append_right pre (List.mem_cons_self ..)) buf he

/-- Whenever the control register is read again, mapping `m` is in it. -/
def ReadBack (c : It87Chip) (nr : Fin 6) (m : Byte) (w : World) (events : List Event) : Prop :=
  Each (fun pre e => c.action nr (c.run w pre) e = .look →
    (c.run w pre).regs (c.regPwm nr) &&& 0x03 = m) events

/-- A chosen mapping is kept for as long as nothing else is read back. -/
theorem mapping_history (hn : c.has .newerAutopwm = true) {m : Byte}
    (hw : (c.control nr w).tempMap = m) {events : List Event} (hnone : c.NoneMapped nr w events) :
    (c.ReadBack nr m w events ∧ (c.control nr (c.run w events)).tempMap = m) ∨
      (¬ c.ReadBack nr m w events ∧ (c.control nr (c.run w events)).Lost m) := by
  induction events using List.reverseRecOn with
  | nil =>
    refine .inl ⟨?_, hw⟩
    intro pre e post hs
    cases pre <;> cases hs
  | append_singleton as e ih =>
    obtain ⟨hnone, hlast⟩ := each_append_singleton.mp hnone
    have ih := ih hnone
    have hrun : c.run w (as ++ [e]) = c.step (c.run w as) e := by
      rw [run, List.foldl_append]
      rfl
    have hread : c.ReadBack nr m w (as ++ [e]) ↔ c.ReadBack nr m w as ∧
        (c.action nr (c.run w as) e = .look → (c.control nr (c.run w as)).reg &&& 0x03 = m) :=
      each_append_singleton
    rw [hrun, hread, control_step hn]
    generalize c.control nr (c.run w as) = x at ih
    cases ha : c.action nr (c.run w as) e with
    | keep =>
      have hno : Control.Action.keep ≠ .look := by decide
      simpa [hno, Control.act] using ih
    | look =>
      rcases ih with ⟨hr, hx⟩ | ⟨hr, hx⟩
      · by_cases heq : x.reg &&& 0x03 = m
        · exact .inl ⟨⟨hr, fun _ => heq⟩, heq⟩
        · exact .inr ⟨fun h => heq (h.2 rfl), Control.lost_look heq⟩
      · exact .inr ⟨fun h => hr h.1, Control.lost_look hx.reg⟩
    | remap m' => exact absurd (mapsTo_of_action ha) (hlast m')
    | store auto =>
      rcases ih with ⟨hr, hx⟩ | ⟨hr, hx⟩
      · refine .inl ⟨⟨hr, fun h => ?_⟩, hx⟩
        cases h
      · exact .inr ⟨fun h => hr h.1, Control.lost_store auto hx⟩

/-- The chips with another automatic mode choose the first temperature with it. -/
theorem regs_stored_auto (hn : c.has .newerAutopwm = false) (hval : c.kstrtol buf = some 2)
    (ha : c.accepts w (.pwmEnable nr) buf = true) :
    (c.step w (.stored (.pwmEnable nr) buf)).regs (c.regPwm nr) = 0x80 := by
  obtain ⟨hm, val, hen⟩ := enables_of_accepts ha
  obtain rfl : 2 = val := Option.some.inj (hval.symm.trans hen.1)
  have hne := (c.regPwm_ne nr).2.2.2
  have h20 : ¬ (2 : ℤ) = 0 := by decide
  have h21 : ¬ (2 : ℤ) = 1 := by decide
  rw [step, c.attempt_eq hm rfl, run_setPwmEnable hen, if_neg h20]
  simp only [setMode, modeCtrl, hn, if_neg h21, run_bind, run_getData, andThen_ok, run_storeCtrl]
  split <;> simp [hne]

/-- After a mapping has been chosen for a channel, and no other, the automatic mode selects it
exactly where, on a newer chip, it has been in the control register whenever that has been read
again in between and where, on an old one, it is the first. Other chips take no mappings. -/
theorem mapping_selected_iff (c : It87Chip) (w : World) (nr : Fin 6) (m : Byte) (e : Event)
    (he : c.MapsTo nr m w e) (events : List Event)
    (hnone : c.NoneMapped nr (c.step w e) events) (buf : List Char)
    (hval : c.kstrtol buf = some 2)
    (ha : c.accepts (c.run (c.step w e) events) (.pwmEnable nr) buf = true) :
    (c.step (c.run (c.step w e) events) (.stored (.pwmEnable nr) buf)).regs (c.regPwm nr) &&& 0x03
        = m ↔
      if c.has .newerAutopwm then c.ReadBack nr m (c.step w e) events else m = 0 := by
  cases hn : c.has .newerAutopwm
  · rw [regs_stored_auto hn hval ha]
    exact eq_comm
  · have hfits : m &&& 0x03 = m := by
      obtain ⟨buf, -, -, hm⟩ := he
      exact mappingIn_fits hm
    have hw : (c.control nr (c.step w e)).tempMap = m := by
      rw [control_step hn, action_mapsTo he]
      rfl
    have hnew := congrArg Control.reg (control_stored_mode hn hval (.inr rfl) ha)
    have hreg : (c.step (c.run (c.step w e) events) (.stored (.pwmEnable nr) buf)).regs
        (c.regPwm nr) &&& 0x03 = (c.control nr (c.run (c.step w e) events)).tempMap &&& 0x03 :=
      (congrArg (· &&& 0x03) hnew).trans (Control.mapping_store _)
    rw [hreg, if_pos rfl]
    rcases mapping_history hn hw hnone with ⟨hr, hmap⟩ | ⟨hr, hlost⟩
    · refine iff_of_true ?_ hr
      rw [hmap, hfits]
    · have hne : (c.control nr (c.run (c.step w e) events)).tempMap &&& 0x03 ≠ m := by
        rw [hlost.fits]
        exact hlost.kept
      exact iff_of_false hne hr

/-- A mapping is chosen right after the probe, and then the automatic mode; once that has been
looked at, it is chosen again. -/
theorem mapping_selected_iff_probed :
    let c := Chips.it8721.known []
    let w := c.step (Chips.it8721.probe []).2 (.stored (.pwmAutoChannelsTemp 0) "2\n".toList)
    let events := [.stored (.pwmEnable 0) "2\n".toList, .shown (.pwm 0)]
    (c.step (c.run w events) (.stored (.pwmEnable 0) "2\n".toList)).regs (c.regPwm 0) &&& 0x03 =
        1 ↔
      if c.has .newerAutopwm then c.ReadBack 0 1 w events else (1 : Byte) = 0 :=
  mapping_selected_iff _ _ 0 1 _ ⟨_, rfl, by decide +kernel, by decide +kernel⟩ _
    (noneMapped_of_ne (by simp) _) _ (by decide +kernel) (by decide +kernel)

/-- A mapping chosen in manual mode is lost with the next look at the chip. -/
theorem mapping_lost :
    ¬ ∀ (c : It87Chip) (w : World) (before : List Event) (nr : Fin 6) (m : Byte) (e : Event)
      (events : List Event) (buf : List Char),
      Probed c w → c.hasAutopwm = true → c.MapsTo nr m (c.run w before) e →
      c.NoneMapped nr (c.step (c.run w before) e) events → c.kstrtol buf = some 2 →
      c.accepts (c.run (c.step (c.run w before) e) events) (.pwmEnable nr) buf = true →
      (c.step (c.run (c.step (c.run w before) e) events)
        (.stored (.pwmEnable nr) buf)).regs (c.regPwm nr) &&& 0x03 = m := by
  intro h
  have hnone : ∀ w, (Chips.it8721.known []).NoneMapped 0 w [.shown (.pwm 0)] :=
    noneMapped_of_ne (by simp)
  have hm := h (Chips.it8721.known []) (Chips.it8721.probe []).2 [] 0 1
    (.stored (.pwmAutoChannelsTemp 0) "2\n".toList) [.shown (.pwm 0)] "2\n".toList
    (Chips.probed (by decide +kernel)) (by decide +kernel)
    ⟨_, rfl, by decide +kernel, by decide +kernel⟩ (hnone _) (by decide +kernel)
    (by decide +kernel)
  revert hm
  decide +kernel

end It87Chip

end BuffaloNas.It87
