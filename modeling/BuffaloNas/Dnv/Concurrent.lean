import BuffaloNas.Dnv.Lines
import BuffaloNas.Interaction.Serial

/-! Calls into the Denverton driver by several threads at once. -/
namespace BuffaloNas.Dnv
open Interaction Program

variable {ι α : Type} {w : World} {s : Pads} {p a : ℕ} {phase : Phase} {reg : RegType}

/-- What each operation has to do with `dnv_gpio_lock`; the tables never change. -/
def DnvOp.part : DnvOp → Part
  | rawSpinLock => .lock
  | rawSpinUnlock => .unlock
  | entry .. => .free
  | unassigned _ => .free
  | _ => .guarded

theorem total_device (w : World) : Total (Pads.device w) := by
  intro o s
  cases o <;> exact ⟨_, _, rfl⟩

/-! ### Sections -/

section Rules

theorem only_entry (w : World) (t : Table) (i : ℕ) :
    (perform (DnvOp.entry t i) : Mmio ℤ).Only fun o =>
      o.part = .free ∧ ∃ r, Still (Pads.device w) o r :=
  (only_perform _).mpr ⟨rfl, _, fun _ => rfl⟩

theorem looks_reg (w : World) (p : ℕ) (reg : RegType) :
    (dnvGpioReg p reg).Looks (Pads.device w) DnvOp.part (address? reg p) := by
  have hrun : ∀ s, (dnvGpioReg p reg).run (Pads.device w) s = (.ok (address? reg p), s) :=
    fun s => run_dnvGpioReg w s p reg
  refine looks_of_run ?_ (hrun ⟨fun _ => 0, fun _ _ => 0, fun _ => 0, fun _ => 0, fun _ => 0⟩)
  refine only_bind (only_bind (only_entry ..) fun _ => only_pure _) fun offset => ?_
  exact only_ite (fun _ => only_pure _) fun _ =>
    only_ite (fun _ => only_pure _) fun _ => only_pure _

theorem looks_mask (w : World) (p : ℕ) (reg : RegType) :
    (dnvGpioMask p reg).Looks (Pads.device w) DnvOp.part (maskOf reg p) := by
  have hrun : ∀ s, (dnvGpioMask p reg).run (Pads.device w) s = (.ok (maskOf reg p), s) :=
    fun s => run_dnvGpioMask w s p reg
  refine looks_of_run ?_ (hrun ⟨fun _ => 0, fun _ _ => 0, fun _ => 0, fun _ => 0, fun _ => 0⟩)
  refine only_bind ?_ fun shift => only_ite (fun _ => only_pure _) fun _ => ?_
  · cases reg <;> first
      | exact only_pure _
      | exact only_ite (fun _ => only_entry ..) fun _ => only_pure _
  · cases reg <;> exact only_pure _

theorem sectioned_reg {f : Option ℕ → Mmio α}
    (h : (f (address? reg p)).Sectioned (Pads.device w) DnvOp.part phase) :
    (dnvGpioReg p reg >>= f).Sectioned (Pads.device w) DnvOp.part phase :=
  sectioned_looks (looks_reg w p reg) h

theorem sectioned_mask {f : Word32 → Mmio α}
    (h : (f (maskOf reg p)).Sectioned (Pads.device w) DnvOp.part phase) :
    (dnvGpioMask p reg >>= f).Sectioned (Pads.device w) DnvOp.part phase :=
  sectioned_looks (looks_mask w p reg) h

theorem sectioned_readl {f : Word32 → Mmio α}
    (h : ∀ val, (f val).Sectioned (Pads.device w) DnvOp.part .inside) :
    (readl (some a) >>= f).Sectioned (Pads.device w) DnvOp.part .inside :=
  sectioned_guarded rfl h

theorem sectioned_writel {val : Word32} {f : Unit → Mmio α}
    (h : (f ()).Sectioned (Pads.device w) DnvOp.part .inside) :
    (writel val (some a) >>= f).Sectioned (Pads.device w) DnvOp.part .inside :=
  sectioned_guarded rfl fun _ => h

theorem sectioned_rawSpinLock {f : Unit → Mmio α}
    (h : (f ()).Sectioned (Pads.device w) DnvOp.part .inside) :
    (perform DnvOp.rawSpinLock >>= f).Sectioned (Pads.device w) DnvOp.part .before :=
  sectioned_lock rfl fun _ => h

/-- The lock is given back, and a result is all that is left. -/
theorem sectioned_return (x : α) :
    (do perform DnvOp.rawSpinUnlock
        return x : Mmio α).Sectioned (Pads.device w) DnvOp.part .inside :=
  sectioned_unlock rfl fun _ => sectioned_pure (by decide)

/-- A pin without a register is refused before the lock is taken. -/
theorem sectioned_config {x : α} {body : Option ℕ → Mmio α}
    (h : ∀ a, (body (some a)).Sectioned (Pads.device w) DnvOp.part .before) :
    (do let reg ← dnvGpioReg p .padCfgDw0
        if reg = none then return x
        body reg).Sectioned (Pads.device w) DnvOp.part .before := by
  apply sectioned_reg
  cases address? .padCfgDw0 p with
  | none => exact sectioned_ite (fun _ => sectioned_pure (by decide)) fun hn => absurd rfl hn
  | some a =>
    refine sectioned_ite (fun hn => ?_) fun _ => h a
    cases hn

end Rules

theorem sectioned_dnvGpioRequest :
    (dnvGpioRequest p).Sectioned (Pads.device w) DnvOp.part .before := by
  apply sectioned_config
  intro a
  apply sectioned_rawSpinLock
  apply sectioned_readl
  intro val
  refine sectioned_ite (fun _ => ?_) fun _ => sectioned_return 0
  apply sectioned_readl
  intro val
  apply sectioned_writel
  exact sectioned_return 0

theorem sectioned_dnvGpioSet (val : Bool) :
    (dnvGpioSet p val).Sectioned (Pads.device w) DnvOp.part .before := by
  apply sectioned_config
  intro a
  apply sectioned_rawSpinLock
  apply sectioned_readl
  intro oldVal
  refine sectioned_ite (fun _ => ?_) fun _ => ?_
  · exact sectioned_writel (sectioned_unlock' rfl)
  · exact sectioned_writel (sectioned_unlock' rfl)

theorem sectioned_dnvGpioDirectionInput :
    (dnvGpioDirectionInput p).Sectioned (Pads.device w) DnvOp.part .before := by
  apply sectioned_config
  intro a
  apply sectioned_rawSpinLock
  apply sectioned_readl
  intro val
  apply sectioned_writel
  exact sectioned_return 0

theorem sectioned_dnvGpioDirectionOutput (val : Bool) :
    (dnvGpioDirectionOutput p val).Sectioned (Pads.device w) DnvOp.part .before := by
  apply sectioned_config
  intro a
  apply sectioned_rawSpinLock
  apply sectioned_readl
  intro regVal
  refine sectioned_ite (fun _ => ?_) fun _ => ?_
  · exact sectioned_writel (sectioned_return 0)
  · exact sectioned_writel (sectioned_return 0)

theorem sectioned_dnvGpioClearTriggering :
    (dnvGpioClearTriggering p).Sectioned (Pads.device w) DnvOp.part .before := by
  apply sectioned_reg
  apply sectioned_mask
  refine sectioned_ite (fun _ => sectioned_pure (by decide)) fun hn => ?_
  obtain ⟨a, ha⟩ := Option.ne_none_iff_exists'.mp (not_or.mp hn).1
  rw [ha]
  apply sectioned_rawSpinLock
  apply sectioned_readl
  intro val
  apply sectioned_writel
  apply sectioned_reg
  cases address? .gpiGpeEn p with
  | none => exact sectioned_ite (fun hn => absurd rfl hn) fun _ => sectioned_unlock' rfl
  | some b =>
    refine sectioned_ite (fun _ => ?_) fun hn => absurd (by simp) hn
    apply sectioned_readl
    intro val
    apply sectioned_writel
    apply sectioned_reg
    cases address? .gpiGpeSts p with
    | none => exact sectioned_ite (fun hn => absurd rfl hn) fun _ => sectioned_unlock' rfl
    | some b' =>
      refine sectioned_ite (fun _ => ?_) fun hn => absurd (by simp) hn
      apply sectioned_readl
      intro val
      exact sectioned_writel (sectioned_unlock' rfl)

theorem sectioned_dnvIrqAck : (dnvIrqAck p).Sectioned (Pads.device w) DnvOp.part .before := by
  apply sectioned_reg
  apply sectioned_mask
  refine sectioned_ite (fun _ => sectioned_pure (by decide)) fun hn => ?_
  obtain ⟨b, hb⟩ := Option.ne_none_iff_exists'.mp (not_or.mp hn).1
  obtain ⟨a, ha⟩ := exists_address (by decide) hb .padCfgDw0
  rw [hb]
  apply sectioned_rawSpinLock
  apply sectioned_readl
  intro sts
  refine sectioned_ite (fun _ => ?_) fun _ => sectioned_unlock' rfl
  refine sectioned_guarded rfl fun irqType => ?_
  refine sectioned_ite (fun _ => ?_) fun _ => sectioned_writel (sectioned_unlock' rfl)
  apply sectioned_reg
  rw [ha]
  apply sectioned_readl
  intro val
  exact sectioned_writel (sectioned_writel (sectioned_unlock' rfl))

theorem sectioned_dnvIrqSetType (type : Word32) :
    (dnvIrqSetType p type).Sectioned (Pads.device w) DnvOp.part .before := by
  apply sectioned_reg
  apply sectioned_reg
  apply sectioned_reg
  apply sectioned_reg
  apply sectioned_mask
  apply sectioned_mask
  apply sectioned_mask
  refine sectioned_ite (fun _ => sectioned_pure (by decide)) fun hn => ?_
  simp only [not_or] at hn
  obtain ⟨b, hb⟩ := Option.ne_none_iff_exists'.mp hn.2.2.1
  obtain ⟨a, ha⟩ := exists_address (by decide) hb .padCfgDw0
  obtain ⟨d, hd⟩ := exists_address (by decide) hb .hostswOwn
  obtain ⟨e, he⟩ := exists_address (by decide) hb .gpiGpeEn
  rw [ha, hb, hd, he]
  apply sectioned_rawSpinLock
  refine sectioned_readl fun _ => sectioned_writel ?_
  refine sectioned_readl fun _ => sectioned_writel ?_
  refine sectioned_readl fun _ => sectioned_readl fun _ => ?_
  extract_lets update
  clear_value update
  rcases update with - | ⟨y, en⟩
  · exact sectioned_return _
  · apply sectioned_writel
    apply sectioned_writel
    refine sectioned_guarded rfl fun _ => ?_
    exact sectioned_return 0

theorem Call.sectioned (call : Call) :
    call.program.Sectioned (Pads.device w) DnvOp.part .before := by
  cases call with
  | request p => exact sectioned_dnvGpioRequest
  | free p => exact sectioned_map _ sectioned_dnvGpioClearTriggering
  | directionInput p => exact sectioned_dnvGpioDirectionInput
  | directionOutput p val => exact sectioned_dnvGpioDirectionOutput val
  | set p val => exact sectioned_map _ (sectioned_dnvGpioSet val)
  | irqSetType p type => exact sectioned_dnvIrqSetType type
  | irqAck p => exact sectioned_map _ sectioned_dnvIrqAck

/-! ### Threads -/

section Threads
variable [DecidableEq ι]

/-- What the calls of the threads share. -/
abbrev Threads (ι : Type) := Pool ι DnvOp DnvOp.Answer Fault ℤ (Pads × Option ι)

def begin (calls : ι → Call) (s : Pads) : Threads ι := Pool.start (fun i => (calls i).program) s

/-- The threads run against registers that only one of them may use at a time. -/
def Threads.run (w : World) (x : Threads ι) (schedule : List ι) : Threads ι :=
  Pool.run (locked (Pads.device w) DnvOp.part) x schedule

/-- The order in which the threads give the lock back. -/
def unlocks (w : World) (calls : ι → Call) (s : Pads) (schedule : List ι) : List ι :=
  Pool.released (Pads.device w) DnvOp.part (begin calls s) schedule

/-- However the calls of any threads interleave, they take effect one after the other, in the order
in which they give the lock back, and whatever was done, every call can still come to its end. -/
theorem calls_linearize (w : World) (calls : ι → Call) (s : Pads) (schedule : List ι) :
    Pool.Linearizes (Pads.device w) DnvOp.part (fun i => (calls i).program) s schedule
      (unlocks w calls s schedule) ∧
    ∀ l : List ι, ∃ rest, ∀ i ∈ l, ∃ a,
      (((begin calls s).run w (schedule ++ rest)).threads i).returned = some a := by
  have hp : ∀ i, (calls i).program.Sectioned (Pads.device w) DnvOp.part .before :=
    fun i => (calls i).sectioned
  refine ⟨Pool.linearizes (total_device w) hp s schedule, fun l => ?_⟩
  exact Pool.finish (total_device w) hp s schedule l

omit [DecidableEq ι] in
theorem inTurn_calls (w : World) (calls : ι → Call) (s : Pads) (g : Fin ngpio → Option Bool)
    (order : List ι) :
    inTurn (Pads.device w) (fun i => (calls i).program) s order =
      ((order.map calls).foldl (Call.step w) (s, g)).1 := by
  induction order generalizing s g with
  | nil => rfl
  | cons i order ih => exact ih _ _

/-- Once nobody is in the section, every output reads back the value it was given last, in the order
in which the calls took effect. -/
theorem reads_of_threads (hw : OnlyRxstate w) (calls : ι → Call) (s : Pads) (schedule : List ι) :
    let x := (begin calls s).run w schedule
    let given := (((unlocks w calls s schedule).map calls).foldl (Call.step w) (s, fun _ => none)).2
    x.state.2 = none → ∀ (p : Fin ngpio) v, given p = some v → (address? .padCfgDw0 p).isSome →
      ((dnvGpioGet p).run (Pads.device w) x.state.1).1 = .ok (if v then 1 else 0) := by
  intro x given hx p v hv hvalid
  have h := Pool.linearizes (total_device w) (fun i => (calls i).sectioned) s schedule
  have hstate := h.state hx
  rw [inTurn_calls w calls s fun _ => none] at hstate
  obtain ⟨a, ha⟩ := Option.isSome_iff_exists.mp hvalid
  have hout := out_run hw (x := (s, fun _ => none)) (fun p a _ => bits_none _)
    ((unlocks w calls s schedule).map calls) p
  have hread := out_settle hw hout
  rw [show (((unlocks w calls s schedule).map calls).foldl (Call.step w) (s, fun _ => none)).2 p =
    some v from hv] at hread
  rw [show x.state.1 = _ from hstate]
  exact congrArg Prod.fst (run_dnvGpioGet ha (hread a ha))

/-- Thread 0 makes pin 5 an output and thread 1 sets it low, while thread 2 has an interrupt on it
acknowledged. -/
def threads : ℕ → Call
  | 0 => .directionOutput (pinOf 5) true
  | 1 => .set (pinOf 5) false
  | _ => .irqAck (pinOf 5)

/-- They are called in turn, and thread 0 gets the lock first. -/
def turns : List ℕ := (List.replicate 16 [0, 1, 2]).flatten

theorem reads_turns :
    ((dnvGpioGet 5).run (Pads.device board) ((begin threads noisy).run board turns).state.1).1 =
      .ok 0 := by
  have h := reads_of_threads onlyRxstate_board threads noisy turns
  exact h (by decide +kernel) (pinOf 5) false (by decide +kernel) (by decide +kernel)

end Threads

end BuffaloNas.Dnv
