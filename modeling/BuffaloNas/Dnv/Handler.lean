import BuffaloNas.Dnv.Interrupts

/-! Which pads the interrupt handler of the Denverton driver finds to be its own. -/
namespace BuffaloNas.Dnv
open Interaction Program

variable {s t : Pads} {p q a : ℕ}

/-! ### The handler -/

def dnvGpioIrqChk (gpi : ℕ) : Mmio Bool := do
  let reg ← dnvGpioReg gpi .gpiGpeSts
  let bitMask ← dnvGpioMask gpi .gpiGpeSts
  if reg = none ∨ bitMask = 0 then return false
  let sts ← readl reg
  return sts &&& bitMask ≠ 0

/-- One round of the loop in `dnv_gpio_irq_handler`; the kernel's `generic_handle_irq` is given the
pin. -/
def handlePin (genericHandleIrq : ℕ → Mmio Unit) (ret : Bool) (gpi : ℕ) : Mmio Bool := do
  let irqType ← perform (DnvOp.irqType gpi)
  if irqType = irqTypeNone then return ret
  if ← dnvGpioIrqChk gpi then
    genericHandleIrq gpi
    return true
  return ret

/-- Whether the interrupt was one of the pads'. -/
def dnvGpioIrqHandler (genericHandleIrq : ℕ → Mmio Unit) : Mmio Bool :=
  (List.range npads).foldlM (handlePin genericHandleIrq) false

/-! ### Who is told of an interrupt -/

section Handler
variable {beyond : Table → ℕ → ℤ} {stray : ℕ → Option ℕ} {handle : ℕ → Mmio Unit}

/-- The pin has a type, and its bit in the status register is set. -/
def Pending (s : Pads) (p : ℕ) : Prop :=
  s.irqType p ≠ irqTypeNone ∧ peek s.mem .gpiGpeSts p &&& maskOf .gpiGpeSts p ≠ 0

instance (s : Pads) (p : ℕ) : Decidable (Pending s p) := inferInstanceAs (Decidable (_ ∧ _))

/-- The same pads, whatever the hardware is going to do to them. -/
def Alike (s t : Pads) : Prop := ∃ noise, t = { s with noise }

theorem Alike.trans {u : Pads} (h : Alike s t) (h' : Alike t u) : Alike s u := by
  obtain ⟨noise, rfl⟩ := h
  obtain ⟨noise', rfl⟩ := h'
  exact ⟨noise', rfl⟩

theorem Alike.pending (h : Alike s t) : Pending t p ↔ Pending s p := by
  obtain ⟨noise, rfl⟩ := h
  exact Iff.rfl

/-- On plain registers a program makes the same of the same pads. -/
theorem simulates_alike :
    Program.Simulates Alike (Pads.device (plain beyond stray))
      (Pads.device (plain beyond stray)) := by
  rintro o s t ⟨noise, rfl⟩
  cases o with
  | readl a =>
    simp only [Pads.device, settle_plain, true_and]
    exact ⟨_, rfl⟩
  | writel val a =>
    simp only [Pads.device, settle_plain, true_and]
    exact ⟨_, rfl⟩
  | _ => exact ⟨rfl, noise, rfl⟩

theorem run_dnvGpioIrqChk (beyond : Table → ℕ → ℤ) (stray : ℕ → Option ℕ) (s : Pads)
    (hp : p < npads) :
    ∃ t, Alike s t ∧ (dnvGpioIrqChk p).run (Pads.device (plain beyond stray)) s =
      (.ok (decide (peek s.mem .gpiGpeSts p &&& maskOf .gpiGpeSts p ≠ 0)), t) := by
  obtain ⟨a, ha⟩ := exists_of_lt hp .gpiGpeSts
  refine ⟨s.settle (plain beyond stray), by rw [settle_plain]; exact ⟨_, rfl⟩, ?_⟩
  rw [dnvGpioIrqChk, run_reg, run_mask, ha, run_ite, if_neg (not_refused (by decide) hp), run_bind,
    run_readl, andThen_ok, settle_plain, peek_eq ha]
  rfl

/-- The kernel's handler of a pin comes to its end, and no later pin gains or loses an interrupt. -/
def Local (beyond : Table → ℕ → ℤ) (stray : ℕ → Option ℕ) (handle : ℕ → Mmio Unit) : Prop :=
  ∀ p s, ∃ t, (handle p).run (Pads.device (plain beyond stray)) s = (.ok (), t) ∧
    ∀ q, p < q → (Pending t q ↔ Pending s q)

theorem run_handlePin (beyond : Table → ℕ → ℤ) (stray : ℕ → Option ℕ) (handle : ℕ → Mmio Unit)
    (s : Pads) (hp : p < npads) (ret : Bool) :
    ∃ t, Alike s t ∧ (handlePin handle ret p).run (Pads.device (plain beyond stray)) s =
      if Pending s p then
        andThen ((handle p).run (Pads.device (plain beyond stray)) t) fun _ u => (.ok true, u)
      else (.ok ret, t) := by
  obtain ⟨t, ht, hrun⟩ := run_dnvGpioIrqChk beyond stray s hp
  rw [handlePin, run_bind, run_perform]
  by_cases htype : s.irqType p = irqTypeNone
  · refine ⟨s, ⟨s.noise, rfl⟩, ?_⟩
    rw [if_neg fun h => h.1 htype]
    simp only [Pads.device, andThen_ok, run_ite, if_pos htype, run_pure]
  · refine ⟨t, ht, ?_⟩
    simp only [Pads.device, andThen_ok, run_ite, if_neg htype]
    rw [run_bind, hrun, andThen_ok, run_ite]
    by_cases hsts : peek s.mem .gpiGpeSts p &&& maskOf .gpiGpeSts p ≠ 0
    · rw [if_pos (decide_eq_true hsts), if_pos ⟨htype, hsts⟩, run_bind]
      rfl
    · rw [if_neg (fun h => hsts (of_decide_eq_true h)), if_neg fun h => hsts h.2]
      rfl

/-- What a program makes of the same pads. -/
theorem run_alike {α : Type} {q : Mmio α} {x : Except Fault α} {u : Pads} (h : Alike s t)
    (hrun : q.run (Pads.device (plain beyond stray)) t = (x, u)) :
    ∃ v, q.run (Pads.device (plain beyond stray)) s = (x, v) ∧ Alike v u := by
  obtain ⟨hx, hu⟩ := run_simulates simulates_alike q h
  rw [hrun] at hx hu
  generalize q.run (Pads.device (plain beyond stray)) s = y at hx hu
  obtain ⟨x', v⟩ := y
  obtain rfl : x' = x := hx
  exact ⟨v, rfl, hu⟩

/-- The pins to come are told of what they had before. -/
theorem filter_pending {l : List ℕ} (h : ∀ q ∈ l, (Pending t q ↔ Pending s q)) :
    l.filter (Pending t ·) = l.filter (Pending s ·) :=
  List.filter_congr fun q hq => decide_eq_decide.mpr (h q hq)

theorem run_handlePins (hlocal : Local beyond stray handle) {l : List ℕ}
    (hl : ∀ p ∈ l, p < npads) (hsorted : l.Pairwise (· < ·)) (ret : Bool) :
    ∃ t u, (l.foldlM (handlePin handle) ret).run (Pads.device (plain beyond stray)) s =
        (.ok (ret || !(l.filter (Pending s ·)).isEmpty), t) ∧
      ((l.filter (Pending s ·)).forM handle).run (Pads.device (plain beyond stray)) s =
        (.ok (), u) ∧ Alike u t := by
  induction l generalizing s ret with
  | nil =>
    refine ⟨s, s, ?_, rfl, s.noise, rfl⟩
    rw [List.filter_nil, List.isEmpty_nil]
    cases ret <;> rfl
  | cons p l ih =>
    obtain ⟨hfirst, hsorted⟩ := List.pairwise_cons.mp hsorted
    have hlater := fun q hq => hl q (List.mem_cons_of_mem p hq)
    obtain ⟨t, ht, hrun⟩ := run_handlePin beyond stray handle s
      (hl p (List.mem_cons_self ..)) ret
    rw [List.foldlM_cons, run_bind, hrun]
    by_cases hp : Pending s p
    · -- the pin is served; the later ones have what they had
      obtain ⟨v, hv, hkeep⟩ := hlocal p t
      obtain ⟨v', hv', hvv'⟩ := run_alike ht hv
      have hfilter := filter_pending (l := l) (s := s) fun q hq =>
        (hkeep q (hfirst q hq)).trans ht.pending
      obtain ⟨x, y, hx, hy, hxy⟩ := ih (s := v) hlater hsorted true
      rw [hfilter] at hx hy
      obtain ⟨y', hy', hyy'⟩ := run_alike hvv' hy
      refine ⟨x, y', ?_, ?_, hyy'.trans hxy⟩
      · rw [if_pos hp, hv, andThen_ok, andThen_ok, hx, List.filter_cons_of_pos (by simpa using hp)]
        simp
      · rw [List.filter_cons_of_pos (by simpa using hp), List.forM_eq_forM, List.forM_cons,
          run_bind, hv', andThen_ok]
        exact hy'
    · obtain ⟨x, y, hx, hy, hxy⟩ := ih (s := t) hlater hsorted ret
      rw [filter_pending (s := s) fun q _ => ht.pending] at hx hy
      obtain ⟨y', hy', hyy'⟩ := run_alike ht hy
      refine ⟨x, y', ?_, ?_, hyy'.trans hxy⟩
      · rw [if_neg hp, andThen_ok, hx, List.filter_cons_of_neg (by simpa using hp)]
      · rw [List.filter_cons_of_neg (by simpa using hp)]
        exact hy'

/-- With a flow handler that keeps to its pin, the interrupt handler does what serving the pins
that have an interrupt does, in the order of their numbers and each once, and says whether there
are any. -/
theorem serves_pending (hlocal : Local beyond stray handle) (s : Pads) :
    let pins := (List.range npads).filter (Pending s ·)
    ∃ t u, (dnvGpioIrqHandler handle).run (Pads.device (plain beyond stray)) s =
        (.ok (!pins.isEmpty), t) ∧
      (pins.forM handle).run (Pads.device (plain beyond stray)) s = (.ok (), u) ∧ Alike u t :=
  run_handlePins hlocal (fun _ hp => List.mem_range.mp hp) List.pairwise_lt_range false

/-! ### A flow handler that acknowledges -/

/-- What is pending for the pin. -/
def statusOf (mem : Memory) (p : ℕ) : Word32 := peek mem .gpiGpeSts p &&& maskOf .gpiGpeSts p

theorem statusOf_unset (hp : p < npads) (hq : q < npads) (mem : Memory) :
    statusOf (unset .gpiGpeSts p mem) q = if q = p then 0 else statusOf mem q := by
  obtain ⟨a, ha⟩ := exists_of_lt hp .gpiGpeSts
  obtain ⟨b, hb⟩ := exists_of_lt hq .gpiGpeSts
  rw [statusOf, statusOf]
  split
  case isTrue h =>
    subst h
    rw [peek_unset_self, not_and_self]
  case isFalse h =>
    rw [unset, peek_poke_shared ha hb]
    split
    case isTrue hba =>
      have hd := disjoint_shared (show ¬ Config .gpiGpeSts by decide) p hp q hq h
        (by rw [hb, ha, hba])
      rw [peek_eq ha, peek_eq hb, hba, BitVec.and_assoc, hd]
    case isFalse => rfl

/-- The next edge that the pin is to see is the other one. -/
def turned (s : Pads) (p : ℕ) : Memory :=
  if s.irqType p = irqTypeEdgeBoth then
    poke s.mem .padCfgDw0 p (peek s.mem .padCfgDw0 p ^^^ rxinv)
  else s.mem

/-- What `dnv_irq_ack` leaves in the registers. -/
def acked (s : Pads) (p : ℕ) : Memory :=
  if statusOf s.mem p = 0 then s.mem else unset .gpiGpeSts p (turned s p)

theorem store_status (h : Status a) (val : Word32) :
    s.store a val = { s with mem := Function.update s.mem a (s.mem a &&& ~~~val) } := by
  rw [Pads.store, if_pos h]

theorem store_config (h : ¬ Status a) (val : Word32) :
    s.store a val = { s with mem := Function.update s.mem a val } := by
  rw [Pads.store, if_neg h]

theorem run_dnvIrqAck (beyond : Table → ℕ → ℤ) (stray : ℕ → Option ℕ) (s : Pads)
    (hp : p < npads) : ∃ noise,
    (dnvIrqAck p).run (Pads.device (plain beyond stray)) s =
      (.ok (), { s with noise, mem := acked s p }) := by
  obtain ⟨a, ha⟩ := exists_of_lt hp .padCfgDw0
  obtain ⟨b, hb⟩ := exists_of_lt hp .gpiGpeSts
  have hst : Status b := (status_iff hb).mpr rfl
  rw [dnvIrqAck, run_reg, run_mask, hb, run_ite, if_neg (not_refused (by decide) hp), run_lock,
    run_bind, run_readl, andThen_ok, settle_plain, run_ite]
  have hsts : statusOf s.mem p = s.mem b &&& maskOf .gpiGpeSts p := by rw [statusOf, peek_eq hb]
  by_cases h0 : s.mem b &&& maskOf .gpiGpeSts p = 0
  · rw [if_neg (not_not.mpr h0), acked, if_pos (hsts.trans h0)]
    exact ⟨_, rfl⟩
  · rw [if_pos h0, acked, if_neg (by rwa [hsts]), run_bind, run_perform]
    simp only [Pads.device, andThen_ok, run_ite]
    by_cases hboth : s.irqType p = irqTypeEdgeBoth
    · rw [if_pos hboth, turned, if_pos hboth, run_reg, ha, run_bind, run_readl, andThen_ok,
        settle_plain, run_bind, run_writel, andThen_ok, settle_plain,
        store_config (not_status (by decide) ha), run_bind, run_writel, andThen_ok, settle_plain,
        store_status hst, run_perform, unset, poke_eq ha, poke_eq hb, peek_eq ha, peek_eq hb]
      exact ⟨_, rfl⟩
    · rw [if_neg hboth, turned, if_neg hboth, run_bind, run_writel, andThen_ok, settle_plain,
        store_status hst, run_perform, unset, poke_eq hb, peek_eq hb]
      exact ⟨_, rfl⟩

theorem statusOf_acked (hp : p < npads) (hq : q < npads) :
    statusOf (acked s p) q = if q = p then 0 else statusOf s.mem q := by
  have hturned : statusOf (turned s p) q = statusOf s.mem q := by
    rw [turned]
    split
    · rw [statusOf, peek_poke_group (by decide), statusOf]
    · rfl
  rw [acked]
  split
  case isTrue h0 =>
    split
    case isTrue hq =>
      subst hq
      exact h0
    case isFalse => rfl
  case isFalse => rw [statusOf_unset hp hq, hturned]

theorem not_pending_of_ge (hp : ¬ p < npads) : ¬ Pending s p := by
  rintro ⟨-, h⟩
  rw [mask_eq_zero _ hp] at h
  exact h BitVec.and_zero

theorem local_dnvIrqAck (beyond : Table → ℕ → ℤ) (stray : ℕ → Option ℕ) :
    Local beyond stray dnvIrqAck := by
  intro p s
  by_cases hp : p < npads
  · obtain ⟨noise, hrun⟩ := run_dnvIrqAck beyond stray s hp
    refine ⟨_, hrun, fun q hq => ?_⟩
    by_cases hq' : q < npads
    · have hst := statusOf_acked (s := s) hp hq'
      rw [if_neg (Nat.ne_of_gt hq)] at hst
      exact and_congr_right fun _ => not_congr (iff_of_eq (congrArg (· = 0) hst))
    · exact iff_of_false (not_pending_of_ge hq') (not_pending_of_ge hq')
  · refine ⟨s, ?_, fun q hq => Iff.rfl⟩
    rw [dnvIrqAck, run_reg, run_mask, run_ite, if_pos (.inr (mask_eq_zero _ hp)), run_pure]

/-- Pins 2 and 5 have interrupts; pin 7 has one too, but nobody has asked for it. -/
def busy : Pads where
  mem a := if a = 0x144 then 0x4 else if a = 0x30144 then 0x50000000 else 0
  noise _ _ := 0
  irqType p := if p = 2 then irqTypeLevelLow else if p = 5 then irqTypeEdgeBoth else 0
  conf0 _ := 0
  conf1 _ := 0

theorem serves_busy :
    ∃ t u, (dnvGpioIrqHandler dnvIrqAck).run
        (Pads.device (plain (fun _ _ => 0) fun _ => none)) busy = (.ok true, t) ∧
      (do dnvIrqAck 2; dnvIrqAck 5 : Mmio Unit).run
        (Pads.device (plain (fun _ _ => 0) fun _ => none)) busy = (.ok (), u) ∧ Alike u t := by
  have h := serves_pending (local_dnvIrqAck (fun _ _ => 0) fun _ => none) busy
  have hpins : (List.range npads).filter (Pending busy ·) = [2, 5] := by decide +kernel
  rw [hpins] at h
  exact h

end Handler

end BuffaloNas.Dnv
