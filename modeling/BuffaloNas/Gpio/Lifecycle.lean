import BuffaloNas.Gpio.Driver
import BuffaloNas.SuperIo.Resources
import Mathlib.Algebra.Order.Group.Multiset
import Mathlib.Tactic.Abel

/-! What the GPIO driver holds from its initialisation to its exit: ports, memory, its chip and its
lock. -/
namespace BuffaloNas.Gpio
open Interaction Program SuperIo

/-- What the module asks of the kernel; memory is known by its address here. -/
inductive ModuleOp
  | kernel (o : KernelOp)
  | kcalloc (n : ℕ)
  | kfree (p : Option Pointer)
  | gpiochipRemove

abbrev ModuleOp.Answer : ModuleOp → Type
  | kernel o => o.Answer
  | kcalloc _ => Option Pointer
  | kfree _ => Unit
  | gpiochipRemove => Unit

abbrev ModuleCode (α : Type) := Program ModuleOp ModuleOp.Answer Empty α

def kernel {α : Type} (p : Kernel α) : ModuleCode α := p.interp fun o => perform (ModuleOp.kernel o)

def kcalloc (n : ℕ) : ModuleCode (Option Pointer) := perform (ModuleOp.kcalloc n)

def kfree (p : Option Pointer) : ModuleCode Unit := perform (ModuleOp.kfree p)

def requestRegion (port : Word) (size : ℕ) : ModuleCode Bool :=
  perform (ModuleOp.kernel (.requestRegion port size))

def releaseRegion (port : Word) (size : ℕ) : ModuleCode Unit :=
  perform (ModuleOp.kernel (.releaseRegion port size))

def gpiochipAddData (names : List String) : ModuleCode ℤ :=
  perform (ModuleOp.kernel (.gpiochipAddData names))

/-- `it87_gpio_chip`, and where its labels are: `names` and what `names[0]` points to. -/
structure Loaded where
  chip : It87Gpio
  labels : Pointer
  labelsTable : Pointer
  deriving DecidableEq

/-! ### Loading and unloading -/

/-- `labels_free` -/
def labelsFree (it87Gpio : It87Gpio) (labels labelsTable : Option Pointer) (rc : ℤ) :
    ModuleCode (Except ℤ Loaded) := do
  kfree labelsTable
  kfree labels
  releaseRegion it87Gpio.ioBase it87Gpio.ioSize.toNat
  return .error rc

/-- Label the lines and register them, or give everything back. -/
def registerLines (it87Gpio : It87Gpio) : ModuleCode (Except ℤ Loaded) := do
  let labels ← kcalloc it87Gpio.ngpio
  let labelsTable ← kcalloc it87Gpio.ngpio
  match labels, labelsTable with
  | some p, some q =>
    let rc ← gpiochipAddData ((List.range it87Gpio.ngpio).map label)
    if rc ≠ 0 then labelsFree it87Gpio labels labelsTable rc
    else return .ok { chip := it87Gpio, labels := p, labelsTable := q }
  | _, _ => labelsFree it87Gpio labels labelsTable (-enomem)

def claimChip (gpioBaReg : Byte) (it87Gpio : It87Gpio) : ModuleCode (Except ℤ Loaded) := do
  let rc ← kernel superioEnter
  if rc ≠ 0 then return .error rc
  let ioBase ← kernel (readBase gpioBaReg)
  let it87Gpio := { it87Gpio with ioBase }
  if !(← requestRegion ioBase it87Gpio.ioSize.toNat) then return .error (-ebusy)
  registerLines it87Gpio

/-- `it87_gpio_init` with the memory it allocates and frees. -/
def loadModule : ModuleCode (Except ℤ Loaded) := do
  let rc ← kernel superioEnter
  if rc ≠ 0 then return .error rc
  let chipType ← kernel (superioInw chipid)
  let _chipRev ← kernel (superioInb chiprev)
  kernel superioExit
  match supported chipType with
  | none => return .error (-enodev)
  | some (gpioBaReg, it87Gpio) => claimChip gpioBaReg it87Gpio

/-- `it87_gpio_exit` -/
def it87GpioExit (module : Loaded) : ModuleCode Unit := do
  perform ModuleOp.gpiochipRemove
  releaseRegion module.chip.ioBase module.chip.ioSize.toNat
  kfree (some module.labels)
  kfree (some module.labelsTable)

/-- What a line reads. -/
def it87GpioGet (it87Gpio : It87Gpio) (gpioNum : ℕ) : Kernel Bool := do
  let value ← inb (BitVec.ofNat 16 (gpioNum / 8) + it87Gpio.ioBase)
  return value &&& lineMask gpioNum ≠ 0

/-! ### The memory apart -/

/-- The layer below, to which one block of memory is as good as another. -/
def forgetting : (o : ModuleOp) → Kernel o.Answer
  | .kernel o => perform o
  | .kcalloc n => do
    let granted ← perform (KernelOp.kcalloc n)
    return if granted then some 0 else none
  | .kfree _ => pure ()
  | .gpiochipRemove => pure ()

theorem interp_kernel {α : Type} (p : Kernel α) : (kernel p).interp forgetting = p := by
  induction p with
  | done a => rfl
  | raise e => rfl
  | call o k ih => exact congrArg (Program.call o) (funext ih)

/-- Apart from the memory, loading the module is the initialisation of the driver. -/
theorem load_forgetting :
    Except.map Loaded.chip <$> loadModule.interp forgetting = it87GpioInit := by
  have hfree : ∀ c p q rc, Except.map Loaded.chip <$> (labelsFree c p q rc).interp forgetting =
      (do
        perform (KernelOp.releaseRegion c.ioBase c.ioSize.toNat)
        return .error rc : Kernel (Except ℤ It87Gpio)) := fun _ _ _ _ => rfl
  have hlines : ∀ c, Except.map Loaded.chip <$> (registerLines c).interp forgetting =
      addLines c := fun c => by
    simp only [registerLines, addLines, kcalloc, interp_bind, interp_perform, forgetting, map_bind,
      bind_assoc, pure_bind]
    refine bind_congr fun granted => bind_congr fun granted' => ?_
    cases granted
    · exact hfree c _ _ _
    cases granted'
    · exact hfree c _ _ _
    simp only [gpiochipAddData, if_true, Bool.not_true, Bool.or_self, Bool.false_eq_true, if_false,
      interp_bind, interp_perform, forgetting, map_bind]
    refine bind_congr fun rc => ?_
    by_cases hrc : rc = 0
    · subst hrc
      rfl
    · simp only [ne_eq, hrc, not_false_eq_true, if_true]
      exact hfree c _ _ _
  have hchip : ∀ r c, Except.map Loaded.chip <$> (claimChip r c).interp forgetting =
      addChip r c := fun r c => by
    unfold claimChip addChip
    simp only [interp_bind, interp_kernel, map_bind]
    refine bind_congr fun rc => ?_
    by_cases hrc : rc = 0
    · subst hrc
      simp only [ne_eq, not_true_eq_false, if_false, interp_bind, interp_kernel, map_bind,
        requestRegion, interp_perform, forgetting]
      refine bind_congr fun ioBase => bind_congr fun granted => ?_
      cases granted
      · rfl
      · exact hlines _
    · simp only [ne_eq, hrc, not_false_eq_true, if_true]
      rfl
  unfold loadModule it87GpioInit
  simp only [interp_bind, interp_kernel, map_bind]
  refine bind_congr fun rc => ?_
  by_cases hrc : rc = 0
  · subst hrc
    simp only [ne_eq, not_true_eq_false, if_false, interp_bind, interp_kernel, map_bind]
    refine bind_congr fun chipType => bind_congr fun _ => bind_congr fun _ => ?_
    cases hs : supported chipType with
    | none => rfl
    | some found => exact hchip _ _
  · simp only [ne_eq, hrc, not_false_eq_true, if_true]
    rfl

/-- So the chip of a module that has been loaded is one that the driver has initialised. -/
theorem init_of_load {σ : Type} {d : Device KernelOp KernelOp.Answer Empty σ} {s t : σ}
    {module : Loaded} (h : (loadModule.interp forgetting).run d s = (.ok (.ok module), t)) :
    it87GpioInit.run d s = (.ok (.ok module.chip), t) := by
  rw [← load_forgetting, run_map, h]
  rfl

/-! ### The books -/

def moduleBooks : Books ModuleOp ModuleOp.Answer Resource
  | .kernel o, r => kernelBooks o r
  | .kcalloc _, p => p.elim .nothing fun p => .take (.memory p)
  | .kfree p, _ => p.elim .nothing fun p => .give (.memory p)
  | .gpiochipRemove, _ => .give .chip

/-- What the module holds while it is loaded. -/
def Loaded.owned (module : Loaded) : Multiset Resource :=
  .chip ::ₘ .region module.chip.ioBase module.chip.ioSize.toNat ::ₘ .memory module.labels ::ₘ
    {.memory module.labelsTable}

theorem holds_kernel {α : Type} {p : Kernel α} {Q : α → Multiset Resource → Prop}
    {held : Multiset Resource} (h : p.Holds kernelBooks Q held) :
    (kernel p).Holds moduleBooks Q held :=
  holds_interp (h := fun o => perform (ModuleOp.kernel o)) (fun _ _ _ ho => ho) h

/-! ### Sessions -/

section

variable {held : Multiset Resource}

theorem unbooked_superioInb (r : Byte) : (superioInb r).Only (Unbooked kernelBooks) :=
  only_bind (unbooked_outb r reg) fun _ => unbooked_inb val

theorem unbooked_superioInw (r : Byte) : (superioInw r).Only (Unbooked kernelBooks) :=
  only_bind (unbooked_superioInb r) fun _ =>
    only_bind (unbooked_superioInb (r + 1)) fun _ => only_pure _

theorem unbooked_superioOutb (v r : Byte) : (superioOutb v r).Only (Unbooked kernelBooks) :=
  only_bind (unbooked_outb r reg) fun _ => unbooked_outb v val

theorem unbooked_superioSelect (l : Byte) : (superioSelect l).Only (Unbooked kernelBooks) :=
  only_bind (unbooked_outb ldnreg reg) fun _ => unbooked_outb l val

theorem unbooked_superioSetMask (mask r : Byte) :
    (superioSetMask mask r).Only (Unbooked kernelBooks) :=
  only_bind (unbooked_superioInb r) fun _ =>
    only_ite (fun _ => unbooked_superioOutb _ r) fun _ => only_pure _

theorem unbooked_superioClearMask (mask r : Byte) :
    (superioClearMask mask r).Only (Unbooked kernelBooks) :=
  only_bind (unbooked_superioInb r) fun _ =>
    only_ite (fun _ => unbooked_superioOutb _ r) fun _ => only_pure _

theorem unbooked_it87GpioSet (c : It87Gpio) (i : ℕ) (value : Bool) :
    (it87GpioSet c i value).Only (Unbooked kernelBooks) :=
  only_bind (unbooked_inb _) fun _ =>
    only_ite (fun _ => unbooked_outb _ _) fun _ => unbooked_outb _ _

/-- The chip is entered holding its address pair, or not at all. -/
theorem holds_superioEnter : superioEnter.Holds kernelBooks (fun rc rest =>
    rc = 0 ∧ rest = .region reg 2 ::ₘ held ∨ rc = -ebusy ∧ rest = held) held := by
  refine holds_bind (holds_requestMuxedRegion reg 2) ?_
  rintro granted rest hrest
  refine holds_ite (fun hg => ?_) fun hg => ?_
  · refine (unbooked_outb 0x87 reg).holds_bind fun _ => ?_
    refine (unbooked_outb 0x01 reg).holds_bind fun _ => ?_
    refine (unbooked_outb 0x55 reg).holds_bind fun _ => ?_
    refine (unbooked_outb 0x55 reg).holds_bind fun _ => ?_
    exact holds_pure (.inl ⟨rfl, hrest.trans (if_pos hg)⟩)
  · exact holds_pure (.inr ⟨rfl, hrest.trans (if_neg hg)⟩)

theorem holds_superioExit : superioExit.Holds kernelBooks (fun _ rest => rest = held)
    (.region reg 2 ::ₘ held) := by
  refine (unbooked_outb 0x02 reg).holds_bind fun _ => ?_
  refine (unbooked_outb 0x02 val).holds_bind fun _ => ?_
  exact holds_releaseRegion reg 2

/-- A line operation gives back the lock and the address pair. -/
theorem holds_locked {body : Kernel Unit} (hbody : body.Only (Unbooked kernelBooks)) :
    (locked body).Holds kernelBooks (fun _ rest => rest = held) held := by
  have hunlock : ∀ rc : ℤ, (do
      perform KernelOp.spinUnlock
      return rc : Kernel ℤ).Holds kernelBooks (fun _ rest => rest = held) (.lock ::ₘ held) := by
    intro rc
    exact holds_bind (holds_giving fun _ => rfl) fun _ _ h => holds_pure h
  refine holds_bind (S := fun _ rest => rest = .lock ::ₘ held) ?_ ?_
  · exact holds_perform fun _ => ⟨_, Entry.book_take _ held, rfl⟩
  rintro _ _ rfl
  refine holds_bind holds_superioEnter ?_
  rintro rc rest (⟨rfl, rfl⟩ | ⟨rfl, rfl⟩)
  · refine hbody.holds_bind fun _ => ?_
    exact holds_bind holds_superioExit fun _ _ h => h ▸ hunlock 0
  · exact hunlock (-ebusy)

/-! ### Loading, calling, unloading -/

theorem holds_kernel_unbooked {α : Type} {p : Kernel α} (h : p.Only (Unbooked kernelBooks)) :
    (kernel p).Holds moduleBooks (fun _ rest => rest = held) held := holds_kernel h.holds

/-- The memory that an allocation has returned, if any. -/
def memory (p : Option Pointer) : Multiset Resource := p.elim 0 fun p => {.memory p}

theorem holds_kcalloc (n : ℕ) :
    (kcalloc n).Holds moduleBooks (fun p rest => rest = memory p + held) held := by
  have hbooks : ∀ p : ModuleOp.Answer (.kcalloc n), moduleBooks (.kcalloc n) p =
      Option.elim p Entry.nothing fun p => Entry.take (.memory p) := fun _ => rfl
  exact holds_allocating hbooks

theorem holds_gpiochipAddData (names : List String) : (gpiochipAddData names).Holds moduleBooks
    (fun rc rest => rest = if rc = 0 then .chip ::ₘ held else held) held := by
  have hbooks : ∀ rc : ModuleOp.Answer (.kernel (.gpiochipAddData names)),
      moduleBooks (.kernel (.gpiochipAddData names)) rc =
        if (show ℤ from rc) = 0 then Entry.take .chip else Entry.nothing := fun _ => rfl
  exact holds_taking hbooks

theorem holds_kfree (p : Option Pointer) :
    (kfree p).Holds moduleBooks (fun _ rest => rest = held) (memory p + held) := by
  refine holds_perform fun _ => ⟨held, ?_, rfl⟩
  cases p with
  | none => simp [moduleBooks, memory]
  | some p =>
    rw [memory, Option.elim_some, Multiset.singleton_add]
    exact Entry.book_give _ held

theorem holds_release (port : Word) (size : ℕ) :
    (releaseRegion port size).Holds moduleBooks (fun _ rest => rest = held)
      (.region port size ::ₘ held) := holds_giving fun _ => rfl

/-- A driver that could not be loaded holds nothing, and one that could what it owns. -/
def Settles (held : Multiset Resource) (r : Except ℤ Loaded) (rest : Multiset Resource) : Prop :=
  match r with
  | .ok module => rest = module.owned + held
  | .error _ => rest = held

theorem holds_labelsFree (c : It87Gpio) (p q : Option Pointer) (rc : ℤ) :
    (labelsFree c p q rc).Holds moduleBooks (Settles held)
      (memory q + (memory p + (.region c.ioBase c.ioSize.toNat ::ₘ held))) := by
  refine holds_bind (holds_kfree q) ?_
  rintro _ _ rfl
  refine holds_bind (holds_kfree p) ?_
  rintro _ _ rfl
  refine holds_bind (holds_release _ _) ?_
  rintro _ _ rfl
  exact holds_pure rfl

theorem holds_registerLines (c : It87Gpio) :
    (registerLines c).Holds moduleBooks (Settles held)
      (.region c.ioBase c.ioSize.toNat ::ₘ held) := by
  refine holds_bind (holds_kcalloc _) ?_
  rintro p _ rfl
  refine holds_bind (holds_kcalloc _) ?_
  rintro q _ rfl
  cases p with
  | none => exact holds_labelsFree c none q _
  | some p =>
    cases q with
    | none => exact holds_labelsFree c (some p) none _
    | some q =>
      refine holds_bind (holds_gpiochipAddData _) ?_
      rintro rc rest hrest
      refine holds_ite (fun hrc => ?_) fun hrc => ?_
      · rw [hrest, if_neg hrc]
        exact holds_labelsFree c (some p) (some q) rc
      · rw [hrest, if_pos (not_not.mp hrc)]
        refine holds_pure ?_
        simp only [Settles, Loaded.owned, memory, Option.elim_some, ← Multiset.singleton_add]
        abel

theorem holds_readBase (r : Byte) : (readBase r).Holds kernelBooks (fun _ rest => rest = held)
    (.region reg 2 ::ₘ held) := by
  refine (unbooked_superioSelect gpio).holds_bind fun _ => ?_
  refine (unbooked_superioInw r).holds_bind fun _ => ?_
  exact holds_bind holds_superioExit fun _ _ h => holds_pure h

theorem holds_claimChip (r : Byte) (c : It87Gpio) :
    (claimChip r c).Holds moduleBooks (Settles held) held := by
  refine holds_bind (holds_kernel holds_superioEnter) ?_
  rintro rc rest (⟨rfl, rfl⟩ | ⟨rfl, rfl⟩)
  · refine holds_bind (holds_kernel (holds_readBase r)) ?_
    rintro ioBase rest hrest
    rw [hrest]
    refine holds_bind (S := fun granted rest => rest =
      if granted then .region ioBase c.ioSize.toNat ::ₘ held else held)
      (holds_taking fun _ => rfl) ?_
    rintro granted _ rfl
    cases granted
    · exact holds_pure rfl
    · exact holds_registerLines { c with ioBase }
  · exact holds_pure rfl

/-- A load that fails, wherever it does, leaves nothing behind. -/
theorem holds_loadModule (held : Multiset Resource) :
    loadModule.Holds moduleBooks (Settles held) held := by
  refine holds_bind (holds_kernel holds_superioEnter) ?_
  rintro rc rest (⟨rfl, rfl⟩ | ⟨rfl, rfl⟩)
  · refine holds_bind (holds_kernel_unbooked (unbooked_superioInw chipid)) ?_
    rintro chipType _ rfl
    refine holds_bind (holds_kernel_unbooked (unbooked_superioInb chiprev)) ?_
    rintro _ _ rfl
    refine holds_bind (holds_kernel holds_superioExit) ?_
    rintro _ _ rfl
    cases hs : supported chipType with
    | none => exact holds_pure rfl
    | some found => exact holds_claimChip _ _
  · exact holds_pure rfl

theorem holds_it87GpioExit (held : Multiset Resource) (module : Loaded) :
    (it87GpioExit module).Holds moduleBooks (fun _ rest => rest = held)
      (module.owned + held) := by
  have howned : module.owned + held =
      .chip ::ₘ .region module.chip.ioBase module.chip.ioSize.toNat ::ₘ
        (memory (some module.labels) + (memory (some module.labelsTable) + held)) := by
    simp only [Loaded.owned, memory, Option.elim_some, ← Multiset.singleton_add]
    abel
  rw [howned]
  refine holds_bind (S := fun _ rest => rest = .region module.chip.ioBase
    module.chip.ioSize.toNat ::ₘ (memory (some module.labels) +
      (memory (some module.labelsTable) + held))) (holds_giving fun _ => rfl) ?_
  rintro _ _ rfl
  refine holds_bind (holds_release _ _) ?_
  rintro _ _ rfl
  refine holds_bind (holds_kfree (some module.labels)) ?_
  rintro _ _ rfl
  exact holds_kfree (some module.labelsTable)

end

/-- What is done with the module, and through it with its lines. -/
inductive ModuleCall
  | load
  | unload
  | request (gpioNum : ℕ)
  | get (gpioNum : ℕ)
  | directionIn (gpioNum : ℕ)
  | directionOut (gpioNum : ℕ) (value : Bool)
  | set (gpioNum : ℕ) (value : Bool)

/-- A module is loaded at most once, and its lines are there while it is. -/
def moduleCall : ModuleCall → Option Loaded → ModuleCode (Option Loaded)
  | .load, none => do
    let loaded ← loadModule
    return loaded.toOption
  | .unload, some module => do
    it87GpioExit module
    return none
  | .request i, some module => do
    let _ ← kernel (it87GpioRequest module.chip i)
    return some module
  | .get i, some module => do
    let _ ← kernel (it87GpioGet module.chip i)
    return some module
  | .directionIn i, some module => do
    let _ ← kernel (it87GpioDirectionIn module.chip i)
    return some module
  | .directionOut i value, some module => do
    let _ ← kernel (it87GpioDirectionOut module.chip i value)
    return some module
  | .set i value, some module => do
    kernel (it87GpioSet module.chip i value)
    return some module
  | _, loaded => return loaded

def owned (loaded : Option Loaded) : Multiset Resource := loaded.elim 0 Loaded.owned

theorem holds_line {α : Type} {p : Kernel α} {module : Loaded}
    (h : p.Holds kernelBooks (fun _ rest => rest = module.owned) module.owned) :
    (do
      let _ ← kernel p
      return some module : ModuleCode (Option Loaded)).Holds moduleBooks
        (fun loaded rest => rest = owned loaded) (owned (some module)) :=
  holds_bind (holds_kernel h) fun _ _ hrest => holds_pure hrest

theorem holds_moduleCall (k : ModuleCall) (loaded : Option Loaded) :
    (moduleCall k loaded).Holds moduleBooks (fun loaded rest => rest = owned loaded)
      (owned loaded) := by
  cases loaded with
  | none =>
    cases k
    case load =>
      refine holds_bind (holds_loadModule 0) ?_
      rintro (e | module) rest hrest
      · exact holds_pure hrest
      · exact holds_pure (hrest.trans (Multiset.add_zero _))
    all_goals exact holds_pure rfl
  | some module =>
    cases k
    case load => exact holds_pure rfl
    case unload =>
      have hexit := holds_it87GpioExit 0 module
      rw [Multiset.add_zero] at hexit
      exact holds_bind hexit fun _ _ hrest => holds_pure hrest
    case request i =>
      refine holds_line (holds_locked (only_ite (fun _ => ?_) fun _ => ?_))
      · exact only_bind (unbooked_superioSetMask _ _) fun _ => unbooked_superioClearMask _ _
      · exact unbooked_superioClearMask _ _
    case get i =>
      exact holds_line (only_bind (unbooked_inb _) fun _ => only_pure _).holds
    case directionIn i => exact holds_line (holds_locked (unbooked_superioClearMask _ _))
    case directionOut i value =>
      exact holds_line (holds_locked (only_bind (unbooked_superioSetMask _ _) fun _ =>
        unbooked_it87GpioSet _ i value))
    case set i value => exact holds_line (unbooked_it87GpioSet _ i value).holds

/-- Whatever the kernel grants and the ports return: after any loads, unloads and calls of lines,
nothing has been given back that was not held, and all that is held is the ports, the labels and
the chip of the module while it is loaded. -/
theorem owned_of_run {σ : Type} (d : Device ModuleOp ModuleOp.Answer Empty σ) (s : σ)
    (ks : List ModuleCall) :
    (calls (ledger moduleBooks d) moduleCall ks (none, s, some 0)).2.2 =
      some (owned (calls (ledger moduleBooks d) moduleCall ks (none, s, some 0)).1) :=
  owned_of_calls holds_moduleCall d ks none s

end BuffaloNas.Gpio
