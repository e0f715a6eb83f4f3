import BuffaloNas.Dnv.Lines
import BuffaloNas.Dnv.Suspend
import BuffaloNas.Interaction.Only

/-! Which operations of the Denverton driver stay within its tables. -/
namespace BuffaloNas.Dnv
open Interaction Program

variable {w : World} {s : Pads} {p : ℕ} {reg : RegType} {α : Type}

/-- A table is looked up within its bounds. -/
def InTable : DnvOp → Prop
  | .entry t i => i < t.entries.length
  | _ => True

/-! ### The lookups -/

theorem only_regMapOffsetDnv (hp : p < reg.gpioLimit) : (regMapOffsetDnv reg p).Only InTable := by
  refine only_bind ((only_perform _).mpr ?_) fun _ => only_pure _
  rw [InTable, length_map]
  exact hp

theorem only_dnvGpioReg (hp : p < reg.gpioLimit) : (dnvGpioReg p reg).Only InTable := by
  refine only_bind (only_regMapOffsetDnv hp) fun offset => ?_
  refine only_ite (fun _ => only_pure _) fun _ => ?_
  exact only_ite (fun _ => only_pure _) fun _ => only_pure _

/-- The bit tables are guarded. -/
theorem only_dnvGpioMask (p : ℕ) (reg : RegType) : (dnvGpioMask p reg).Only InTable := by
  have hbit : ∀ t : Table, (if p < t.entries.length then perform (DnvOp.entry t p)
      else return -einval : Mmio ℤ).Only InTable :=
    fun t => only_ite (fun h => (only_perform _).mpr h) fun _ => only_pure _
  refine only_bind ?_ fun shift => only_ite (fun _ => only_pure _) fun _ => ?_
  · cases reg with
    | padOwn => exact hbit .padOwnBit
    | padCfgDw0 => exact only_pure _
    | padCfgDw1 => exact only_pure _
    | _ => exact hbit .gpeBit
  · cases reg <;> exact only_pure _

/-- Without looking anything up, a pin beyond the pads has no bits. -/
theorem dnvGpioMask_of_ge (hp : ¬ p < npads) (reg : RegType) : dnvGpioMask p reg = pure 0 := by
  have hbit : ∀ t : Table, t.entries.length = npads →
      (if p < t.entries.length then perform (DnvOp.entry t p) else return -einval : Mmio ℤ) =
        pure (-einval) := by
    intro t ht
    rw [ht, if_neg hp]
  have hshift : regBitShiftDnv reg p = pure (-einval) := by
    cases reg with
    | padOwn => exact hbit .padOwnBit rfl
    | padCfgDw0 => rfl
    | padCfgDw1 => rfl
    | _ => exact hbit .gpeBit rfl
  rw [dnvGpioMask, hshift, pure_bind, if_pos (Or.inl (Nat.not_lt.mp hp))]

theorem only_readl (reg : Option ℕ) : (readl reg).Only InTable := by
  cases reg with
  | none => exact only_raise _
  | some a => exact (only_perform _).mpr trivial

theorem only_writel (val : Word32) (reg : Option ℕ) : (writel val reg).Only InTable := by
  cases reg with
  | none => exact only_raise _
  | some a => exact (only_perform _).mpr trivial

/-! ### Operations within bounds -/

/-- The operations of a pin that has a register look up its DW0 first. -/
theorem only_config {body : Option ℕ → Mmio α} (hp : p < ngpio)
    (h : ∀ reg, (body reg).Only InTable) :
    (dnvGpioReg p .padCfgDw0 >>= body).Only InTable :=
  only_bind (only_dnvGpioReg hp) h

theorem only_locked {body : Mmio α} (h : body.Only InTable) :
    (perform DnvOp.rawSpinLock >>= fun _ => body).Only InTable :=
  only_bind ((only_perform _).mpr trivial) fun _ => h

theorem only_unlock : (perform DnvOp.rawSpinUnlock : Mmio Unit).Only InTable :=
  (only_perform _).mpr trivial

theorem only_return {x : α} : (do perform DnvOp.rawSpinUnlock; return x : Mmio α).Only InTable :=
  only_bind only_unlock fun _ => only_pure _

theorem only_dnvGpioRequest (hp : p < ngpio) : (dnvGpioRequest p).Only InTable := by
  refine only_config hp fun reg => only_ite (fun _ => only_pure _) fun _ => ?_
  refine only_locked (only_bind (only_readl reg) fun val => only_ite (fun _ => ?_) fun _ => ?_)
  · exact only_bind (only_readl reg) fun val => only_bind (only_writel _ reg) fun _ => only_return
  · exact only_return

theorem only_dnvGpioGet (hp : p < ngpio) : (dnvGpioGet p).Only InTable := by
  refine only_config hp fun reg => only_ite (fun _ => only_pure _) fun _ => ?_
  exact only_bind (only_readl reg) fun val => only_pure _

theorem only_dnvGpioSet (hp : p < ngpio) (val : Bool) : (dnvGpioSet p val).Only InTable := by
  refine only_config hp fun reg => only_ite (fun _ => only_pure _) fun _ => ?_
  refine only_locked (only_bind (only_readl reg) fun oldVal => only_ite (fun _ => ?_) fun _ => ?_)
  · exact only_bind (only_writel _ reg) fun _ => only_unlock
  · exact only_bind (only_writel _ reg) fun _ => only_unlock

theorem only_dnvGpioDirectionInput (hp : p < ngpio) :
    (dnvGpioDirectionInput p).Only InTable := by
  refine only_config hp fun reg => only_ite (fun _ => only_pure _) fun _ => ?_
  refine only_locked (only_bind (only_readl reg) fun val => ?_)
  exact only_bind (only_writel _ reg) fun _ => only_return

theorem only_dnvGpioDirectionOutput (hp : p < ngpio) (val : Bool) :
    (dnvGpioDirectionOutput p val).Only InTable := by
  refine only_config hp fun reg => only_ite (fun _ => only_pure _) fun _ => ?_
  refine only_locked (only_bind (only_readl reg) fun regVal => only_ite (fun _ => ?_) fun _ => ?_)
  · exact only_bind (only_writel _ reg) fun _ => only_return
  · exact only_bind (only_writel _ reg) fun _ => only_return

/-- A pin beyond the pads is given up before the shared registers are looked up. -/
theorem only_dnvGpioClearTriggering (hp : p < ngpio) :
    (dnvGpioClearTriggering p).Only InTable := by
  by_cases hpad : p < npads
  · refine only_config hp fun reg => only_bind (only_dnvGpioMask p _) fun mask => ?_
    refine only_ite (fun _ => only_pure _) fun _ => only_locked ?_
    refine only_bind (only_readl reg) fun val => only_bind (only_writel _ reg) fun _ => ?_
    refine only_bind (only_dnvGpioReg hpad) fun enreg => ?_
    refine only_ite (fun _ => ?_) fun _ => only_unlock
    refine only_bind (only_readl enreg) fun val => only_bind (only_writel _ enreg) fun _ => ?_
    refine only_bind (only_dnvGpioReg hpad) fun stsreg => ?_
    refine only_ite (fun _ => ?_) fun _ => only_unlock
    exact only_bind (only_readl stsreg) fun val =>
      only_bind (only_writel _ stsreg) fun _ => only_unlock
  · rw [dnvGpioClearTriggering, dnvGpioMask_of_ge hpad]
    exact only_config hp fun reg => only_ite (fun _ => only_pure _) fun hn => absurd (Or.inr rfl) hn

theorem only_dnvIrqAck (hp : p < npads) : (dnvIrqAck p).Only InTable := by
  have hpin : p < ngpio := Nat.lt_trans hp (by decide)
  refine only_bind (only_dnvGpioReg hp) fun stsreg => ?_
  refine only_bind (only_dnvGpioMask p _) fun mask => ?_
  refine only_ite (fun _ => only_pure _) fun _ => only_locked ?_
  refine only_bind (only_readl stsreg) fun sts => only_ite (fun _ => ?_) fun _ => only_unlock
  have hack := only_bind (only_writel mask stsreg) fun _ => only_unlock
  refine only_bind ((only_perform _).mpr trivial) fun irqType => ?_
  refine only_ite (fun _ => ?_) fun _ => hack
  refine only_config hpin fun reg => only_bind (only_readl reg) fun val => ?_
  exact only_bind (only_writel _ reg) fun _ => hack

theorem only_dnvIrqSetType (hp : p < npads) (type : Word32) :
    (dnvIrqSetType p type).Only InTable := by
  have hpin : p < ngpio := Nat.lt_trans hp (by decide)
  refine only_config hpin fun cfgreg => ?_
  refine only_bind (only_dnvGpioReg hp) fun pownreg => ?_
  refine only_bind (only_dnvGpioReg hp) fun hownreg => ?_
  refine only_bind (only_dnvGpioReg hp) fun enreg => ?_
  refine only_bind (only_dnvGpioMask p _) fun enmask => ?_
  refine only_bind (only_dnvGpioMask p _) fun pownmask => ?_
  refine only_bind (only_dnvGpioMask p _) fun hownmask => ?_
  refine only_ite (fun _ => only_pure _) fun _ => only_locked ?_
  refine only_bind (only_readl pownreg) fun padOwn => only_bind (only_writel _ pownreg) fun _ => ?_
  refine only_bind (only_readl hownreg) fun own => only_bind (only_writel _ hownreg) fun _ => ?_
  refine only_bind (only_readl cfgreg) fun dw0 => only_bind (only_readl enreg) fun gpeEn => ?_
  extract_lets update
  clear_value update
  rcases update with - | ⟨padCfgDw0, gpeEn⟩
  · exact only_return
  · refine only_bind (only_writel _ cfgreg) fun _ => only_bind (only_writel _ enreg) fun _ => ?_
    exact only_bind ((only_perform _).mpr trivial) fun _ => only_return

theorem only_dbgShowPin (hp : p < ngpio) (requested : ℕ → Option String) (gbase : ℕ) :
    (dbgShowPin requested gbase p).Only InTable := by
  refine only_config hp fun reg => only_ite (fun _ => only_pure _) fun _ => ?_
  refine only_config hp fun reg => only_bind (only_readl reg) fun conf0 => ?_
  refine only_bind (only_dnvGpioReg hp) fun reg => only_bind (only_readl reg) fun conf1 => ?_
  exact only_map _ (only_bind (only_regMapOffsetDnv hp) fun offset => only_pure _)

theorem only_dnvGpioDbgShow (requested : ℕ → Option String) (gbase : ℕ) :
    (dnvGpioDbgShow requested gbase).Only InTable := by
  refine only_bind (only_mapM fun p hp => ?_) fun lines => only_pure _
  exact only_dbgShowPin (List.mem_range.mp hp) requested gbase

theorem only_restore {mask : Word32} {saved : Mmio Word32} (hs : saved.Only InTable)
    (reg : Option ℕ) : (restore mask saved reg).Only InTable := by
  refine only_bind (only_readl reg) fun val => only_bind hs fun conf => ?_
  exact only_ite (fun _ => only_writel _ reg) fun _ => only_pure _

theorem only_resumePin (hp : p < ngpio) : (resumePin p).Only InTable := by
  by_cases hpad : p < npads
  · refine only_bind (only_dnvGpioMask p _) fun bitMask => ?_
    refine only_bind ((only_perform _).mpr trivial) fun reg => ?_
    refine only_ite (fun _ => only_pure _) fun _ => only_bind (only_dnvGpioReg hpad) fun reg => ?_
    refine only_bind (only_readl reg) fun val => only_ite (fun _ => only_pure _) fun _ => ?_
    refine only_config hp fun reg => only_bind ?_ fun _ => ?_
    · exact only_restore ((only_perform _).mpr trivial) reg
    · exact only_bind (only_dnvGpioReg hp) fun reg =>
        only_restore ((only_perform _).mpr trivial) reg
  · rw [resumePin, dnvGpioMask_of_ge hpad, pure_bind]
    refine only_bind ((only_perform _).mpr trivial) fun reg => ?_
    exact only_ite (fun _ => only_pure _) fun hn => absurd (Or.inr rfl) hn

theorem only_dnvGpioResume : dnvGpioResume.Only InTable :=
  only_forM fun _ hp => only_resumePin (List.mem_range.mp hp)

/-! ### Operations beyond the bounds -/

/-- The limit is checked after the lookup. -/
theorem lt_of_always_dnvGpioReg
    (h : (dnvGpioReg p reg).Always (Pads.device w) (fun o _ => InTable o) s) :
    p < reg.gpioLimit := by
  have hentry := (always_perform _).mp ((always_bind ..).mp ((always_bind ..).mp h).1).1
  rw [InTable, length_map] at hentry
  exact hentry

theorem always_reg {f : Option ℕ → Mmio α}
    (h : (dnvGpioReg p reg >>= f).Always (Pads.device w) (fun o _ => InTable o) s) :
    p < reg.gpioLimit ∧
      (f (address? reg p)).Always (Pads.device w) (fun o _ => InTable o) s := by
  obtain ⟨hreg, hf⟩ := (always_bind ..).mp h
  rw [run_dnvGpioReg] at hf
  exact ⟨lt_of_always_dnvGpioReg hreg, hf _ rfl⟩

theorem always_mask {f : Word32 → Mmio α}
    (h : (dnvGpioMask p reg >>= f).Always (Pads.device w) (fun o _ => InTable o) s) :
    (f (maskOf reg p)).Always (Pads.device w) (fun o _ => InTable o) s := by
  have hf := ((always_bind ..).mp h).2
  rw [run_dnvGpioMask] at hf
  exact hf _ rfl

theorem exists_run_suspendPin (w : World) (p : ℕ) (s : Pads) :
    ∃ t, (suspendPin p).run (Pads.device w) s = (.ok (), t) := by
  rw [suspendPin, run_mask, run_reg]
  cases hl : address? .padcfglock p with
  | none => exact ⟨s, rfl⟩
  | some l =>
    have hp := lt_of_address hl
    obtain ⟨a, ha⟩ := exists_of_lt hp .padCfgDw0
    obtain ⟨b, hb⟩ := exists_of_lt hp .padCfgDw1
    rw [run_ite, if_neg (not_refused (by decide) hp), run_bind, run_readl, andThen_ok, run_ite]
    split
    · exact ⟨_, rfl⟩
    · rw [run_reg, ha, run_bind, run_readl, andThen_ok, run_bind, run_perform]
      exact ⟨_, by rw [Pads.device, andThen_ok, run_reg, hb]; rfl⟩

/-- The suspension looks for a lock beyond the pads. -/
theorem not_always_dnvGpioSuspend (w : World) (s : Pads) :
    ¬ dnvGpioSuspend.Always (Pads.device w) (fun o _ => InTable o) s := by
  intro h
  have hpad : npads ∈ List.range ngpio := by decide
  obtain ⟨t, ht⟩ := exists_always_of_forM (fun p _ => exists_run_suspendPin w p) h npads hpad
  have hlt := (always_reg (always_mask ht)).1
  exact Nat.lt_irrefl _ hlt

/-! ### Every operation -/

/-- What the driver is asked for by the kernel. -/
inductive Operation
  | call (c : Call)
  | get (p : Fin ngpio)
  | dbgShow (requested : ℕ → Option String) (gbase : ℕ)
  | suspend
  | resume

namespace Operation

def program : Operation → Mmio Unit
  | call c => (fun _ => ()) <$> c.program
  | get p => (fun _ => ()) <$> dnvGpioGet p
  | dbgShow requested gbase => (fun _ => ()) <$> dnvGpioDbgShow requested gbase
  | suspend => dnvGpioSuspend
  | resume => dnvGpioResume

/-- Interrupts are for the pads only, and there is no suspension. -/
def Within : Operation → Prop
  | call (.irqSetType p _) => p < npads
  | call (.irqAck p) => p < npads
  | suspend => False
  | _ => True

theorem only_program (op : Operation) (h : op.Within) : op.program.Only InTable := by
  cases op with
  | call c =>
    refine only_map _ ?_
    cases c with
    | request p => exact only_dnvGpioRequest p.isLt
    | free p => exact only_map _ (only_dnvGpioClearTriggering p.isLt)
    | directionInput p => exact only_dnvGpioDirectionInput p.isLt
    | directionOutput p val => exact only_dnvGpioDirectionOutput p.isLt val
    | set p val => exact only_map _ (only_dnvGpioSet p.isLt val)
    | irqSetType p type => exact only_dnvIrqSetType h type
    | irqAck p => exact only_map _ (only_dnvIrqAck h)
  | get p => exact only_map _ (only_dnvGpioGet p.isLt)
  | dbgShow requested gbase => exact only_map _ (only_dnvGpioDbgShow requested gbase)
  | suspend => exact h.elim
  | resume => exact only_dnvGpioResume

theorem within_of_always {op : Operation}
    (h : op.program.Always (Pads.device w) (fun o _ => InTable o) s) : op.Within := by
  cases op with
  | call c =>
    have hc := (always_map _ _).mp h
    cases c with
    | irqSetType p type => exact (always_reg (always_reg hc).2).1
    | irqAck p => exact (always_reg ((always_map _ _).mp hc)).1
    | _ => trivial
  | suspend => exact not_always_dnvGpioSuspend w s h
  | _ => trivial

/-- Exactly the operations that keep to the tables, whatever the registers hold. -/
theorem inTables_iff (w : World) (s : Pads) (op : Operation) :
    op.program.Always (Pads.device w) (fun o _ => InTable o) s ↔ op.Within := by
  constructor
  · exact within_of_always
  · intro h
    exact (op.only_program h).always

/-- Pin 13 is asked for an interrupt; and any suspension. -/
theorem not_inTables_noisy :
    ¬ (call (.irqSetType (pinOf 13) irqTypeEdgeRising)).program.Always (Pads.device board)
        (fun o _ => InTable o) noisy ∧
      ¬ suspend.program.Always (Pads.device board) (fun o _ => InTable o) noisy := by
  constructor
  · intro h
    have hlt : pinOf 13 < npads := within_of_always h
    revert hlt
    decide
  · intro h
    exact within_of_always h

end Operation

end BuffaloNas.Dnv
