import BuffaloNas.Gpio.Lifecycle
import BuffaloNas.Gpio.Lines
import BuffaloNas.Interaction.Serial

/-! Calls into the GPIO driver of the IT87xx chips by several threads at once. -/
namespace BuffaloNas.Gpio
open Interaction Program SuperIo

variable {ι : Type} {c : It87Gpio} {lines : Lines}

/-- What each operation has to do with the driver's lock. -/
def kernelPart : KernelOp → Part
  | .spinLock => .lock
  | .spinUnlock => .unlock
  | _ => .guarded

theorem total_lines (c : It87Gpio) : Total (Lines.device c) := by
  intro o s
  generalize Lines.device c o s = x
  obtain ⟨e | r, t⟩ := x
  · exact e.elim
  · exact ⟨r, t, rfl⟩

/-! ### Sections -/

/-- The operation is for who has the lock. -/
def Guarded (o : KernelOp) : Prop := kernelPart o = .guarded

theorem guarded_outb (v : Byte) (port : Word) : (outb v port).Only Guarded :=
  (only_perform _).mpr rfl

theorem guarded_inb (port : Word) : (inb port).Only Guarded := (only_perform _).mpr rfl

theorem guarded_superioEnter : superioEnter.Only Guarded := by
  refine only_bind ((only_perform _).mpr rfl) fun granted => only_ite (fun _ => ?_) fun _ => ?_
  · exact only_bind (guarded_outb ..) fun _ => only_bind (guarded_outb ..) fun _ =>
      only_bind (guarded_outb ..) fun _ => only_bind (guarded_outb ..) fun _ => only_pure _
  · exact only_pure _

theorem guarded_superioExit : superioExit.Only Guarded :=
  only_bind (guarded_outb ..) fun _ => only_bind (guarded_outb ..) fun _ =>
    (only_perform _).mpr rfl

theorem guarded_superioInb (r : Byte) : (superioInb r).Only Guarded :=
  only_bind (guarded_outb ..) fun _ => guarded_inb _

theorem guarded_superioOutb (v r : Byte) : (superioOutb v r).Only Guarded :=
  only_bind (guarded_outb ..) fun _ => guarded_outb ..

theorem guarded_superioSetMask (mask r : Byte) : (superioSetMask mask r).Only Guarded :=
  only_bind (guarded_superioInb r) fun _ =>
    only_ite (fun _ => guarded_superioOutb ..) fun _ => only_pure _

theorem guarded_superioClearMask (mask r : Byte) : (superioClearMask mask r).Only Guarded :=
  only_bind (guarded_superioInb r) fun _ =>
    only_ite (fun _ => guarded_superioOutb ..) fun _ => only_pure _

theorem guarded_it87GpioSet (gpioNum : ℕ) (value : Bool) :
    (it87GpioSet c gpioNum value).Only Guarded :=
  only_bind (guarded_inb _) fun _ =>
    only_ite (fun _ => guarded_outb ..) fun _ => guarded_outb ..

theorem sectioned_locked {body : Kernel Unit} (h : body.Only Guarded) :
    (locked body).Sectioned (Lines.device c) kernelPart .before := by
  have hend : ∀ rc : ℤ, (do perform KernelOp.spinUnlock; return rc : Kernel ℤ).Sectioned
      (Lines.device c) kernelPart .inside :=
    fun rc => sectioned_unlock rfl fun _ => sectioned_pure (by decide)
  refine sectioned_lock rfl fun _ => sectioned_inner guarded_superioEnter fun rc => ?_
  refine sectioned_ite (fun _ => ?_) fun _ => hend rc
  exact sectioned_inner h fun _ => sectioned_inner guarded_superioExit fun _ => hend rc

/-- The calls that take the lock: all but the set hook. -/
def Call.TakesLock : Call c → Prop
  | set .. => False
  | _ => True

instance : (call : Call c) → Decidable call.TakesLock
  | .set .. => isFalse id
  | .request .. | .directionIn .. | .directionOut .. => isTrue trivial

theorem Call.sectioned (call : Call c) (h : call.TakesLock) :
    call.program.Sectioned (Lines.device c) kernelPart .before := by
  cases call with
  | request gpioNum =>
    refine sectioned_locked ?_
    by_cases hs : lineGroup gpioNum < c.simpleSize
    · rw [if_pos hs]
      exact only_bind (guarded_superioSetMask ..) fun _ => guarded_superioClearMask ..
    · rw [if_neg hs]
      exact guarded_superioClearMask ..
  | directionIn gpioNum => exact sectioned_locked (guarded_superioClearMask ..)
  | directionOut gpioNum value =>
    exact sectioned_locked
      (only_bind (guarded_superioSetMask ..) fun _ => guarded_it87GpioSet ..)
  | set gpioNum value => exact h.elim

/-! ### Threads -/

section Threads
variable [DecidableEq ι]

omit [DecidableEq ι] in
theorem inTurn_calls (calls : ι → Call c) (s : Lines) (given : Given) (order : List ι) :
    inTurn (Lines.device c) (fun i => (calls i).program) s order =
      ((order.map calls).foldl Call.step (s, given)).1 := by
  induction order generalizing s given with
  | nil => rfl
  | cons i order ih => exact ih _ _

/-- What threads do with the lines of one chip, each call as a program. -/
abbrev Threads (ι : Type) := Pool ι KernelOp KernelOp.Answer Empty ℤ (Lines × Option ι)

def begin (calls : ι → Call c) (s : Lines) : Threads ι :=
  Pool.start (fun i => (calls i).program) s

def Threads.run (c : It87Gpio) (x : Threads ι) (schedule : List ι) : Threads ι :=
  Pool.run (Interaction.locked (Lines.device c) kernelPart) x schedule

/-- The order in which the threads give the lock back. -/
def unlocks (calls : ι → Call c) (s : Lines) (schedule : List ι) : List ι :=
  Pool.released (Lines.device c) kernelPart (begin calls s) schedule

/-- However the calls that take the lock interleave, on any lines of a chip that the driver has
registered, they take effect one after the other; once nobody is in the configuration mode, every
output drives the value it was given last; and every call can still come to its end. -/
theorem drives_of_threads {b b' : Board} (h : it87GpioInit.run Board.device b = (.ok (.ok c), b'))
    (latch : ℕ → Byte) (before : List (Call c)) (calls : ι → Call c)
    (hcalls : ∀ i, (calls i).TakesLock) (schedule : List ι) :
    let x := before.foldl Call.step ({ board := b', latch }, fun _ => none)
    let t := (begin calls x.1).run c schedule
    let order := unlocks calls x.1 schedule
    Pool.Linearizes (Lines.device c) kernelPart (fun i => (calls i).program) x.1 schedule order ∧
      (t.state.2 = none → ∀ n < c.ngpio, ∀ v, ((order.map calls).foldl Call.step x).2 n = some v →
        Drives c t.state.1 n v) ∧
      ∀ l : List ι, ∃ rest, ∀ i ∈ l, ∃ a,
        (((begin calls x.1).run c (schedule ++ rest)).threads i).returned = some a := by
  intro x t order
  have hp : ∀ i, (calls i).program.Sectioned (Lines.device c) kernelPart .before :=
    fun i => (calls i).sectioned (hcalls i)
  have hl := Pool.linearizes (total_lines c) hp x.1 schedule
  have hk : Kept c ((order.map calls).foldl Call.step x) :=
    kept_run (kept_run ⟨started_of_init h, apart_of_init h, fun n _ v hv => by cases hv⟩ before) _
  refine ⟨hl, fun ht n hn v hv => ?_, fun l => Pool.finish (total_lines c) hp x.1 schedule l⟩
  have hstate := hl.state ht
  rw [inTurn_calls calls x.1 x.2] at hstate
  rw [show t.state.1 = _ from hstate]
  exact hk.drives n hn v hv

/-- Three threads: two raise lines of one group, and one takes line 1 back. -/
def callers : Fin 3 → Call it8721Lines
  | 0 => .directionOut (line 0) true
  | 1 => .directionOut (line 1) true
  | 2 => .directionIn (line 2)

/-- Whoever has the lock is the only one to get on. -/
def rounds : List (Fin 3) := (List.replicate 52 (List.finRange 3)).flatten

/-- The module is loaded, and their lines have been requested. -/
def loadedBoard : Board := ((loadModule.interp forgetting).run Board.device (it8721Board true)).2

theorem load_it8721Board : (loadModule.interp forgetting).run Board.device (it8721Board true) =
    (.ok (.ok ⟨it8721Lines, 0, 0⟩), loadedBoard) :=
  Prod.ext (by decide +kernel) rfl

def requests : List (Call it8721Lines) := [.request (line 0), .request (line 1), .request (line 2)]

def requested : Lines × Given :=
  requests.foldl Call.step ({ board := loadedBoard, latch := fun _ => 0 }, fun _ => none)

theorem drives_callers :
    let t := (begin callers requested.1).run it8721Lines rounds
    Drives it8721Lines t.state.1 0 true ∧ Drives it8721Lines t.state.1 1 true := by
  have hinit : it87GpioInit.run Board.device (it8721Board true) =
      (.ok (.ok it8721Lines), loadedBoard) := init_of_load load_it8721Board
  have h := drives_of_threads hinit (fun _ => 0) requests callers (by decide) rounds
  rw [← requested] at h
  have hd := h.2.1 (by decide +kernel)
  exact ⟨hd 0 (by decide) true (by decide +kernel), hd 1 (by decide) true (by decide +kernel)⟩

end Threads

end BuffaloNas.Gpio
