import BuffaloNas.It87.Find
import BuffaloNas.SuperIo.Resources
import Mathlib.Algebra.Order.Group.Multiset
import Mathlib.Tactic.Abel

/-! What the environment controller driver holds from its initialisation to its exit: the address
pairs of the chips, its registration, and a device for each chip that it has found. -/
namespace BuffaloNas.It87
open Interaction Program SuperIo

/-- What the module asks of the kernel. -/
inductive ModuleOp
  | kernel (o : KernelOp)
  | platformDriverRegister
  | platformDriverUnregister
  | acpiCheckResourceConflict (start : Word) (size : ℕ)
  | platformDeviceAlloc (address : Word)
  | platformDeviceAddResources (pdev : Pointer) (start : Word) (size : ℕ)
  | platformDeviceAddData (pdev : Pointer) (sioData : It87SioData)
  | platformDeviceAdd (pdev : Pointer)
  | platformDevicePut (pdev : Pointer)
  | platformDeviceUnregister (pdev : Option Pointer)

abbrev ModuleOp.Answer : ModuleOp → Type
  | kernel o => o.Answer
  | platformDriverRegister => ℤ
  | platformDriverUnregister => Unit
  | acpiCheckResourceConflict .. => ℤ
  | platformDeviceAlloc _ => Option Pointer
  | platformDeviceAddResources .. => ℤ
  | platformDeviceAddData .. => ℤ
  | platformDeviceAdd _ => ℤ
  | platformDevicePut _ => Unit
  | platformDeviceUnregister _ => Unit

abbrev ModuleCode (α : Type) := Program ModuleOp ModuleOp.Answer Empty α

def kernel {α : Type} (p : Kernel α) : ModuleCode α :=
  p.interp fun o => perform (ModuleOp.kernel o)

def platformDriverUnregister : ModuleCode Unit := perform ModuleOp.platformDriverUnregister

def platformDeviceUnregister (pdev : Option Pointer) : ModuleCode Unit :=
  perform (ModuleOp.platformDeviceUnregister pdev)

def ecOffset : Word := 5

def ecExtent : ℕ := 2

/-- What is known of some boards. -/
structure It87DmiData where
  sio4eBroken : Bool
  skipPwm : Byte

/-- `memset` -/
def It87SioData.zero : It87SioData where
  type := .it87
  revision := 0
  vidValue := 0
  beepPin := 0
  internal := 0
  skipIn := 0
  skipVid := false
  skipFan := 0
  skipPwm := 0
  skipTemp := 0

/-! ### Loading and unloading -/

/-- `exit_device_put` -/
def exitDevicePut (pdev : Pointer) (err : ℤ) : ModuleCode (Except ℤ Pointer) := do
  perform (ModuleOp.platformDevicePut pdev)
  return .error err

def it87DeviceAdd (address : Word) (sioData : It87SioData) : ModuleCode (Except ℤ Pointer) := do
  let start := address + ecOffset
  let err ← perform (ModuleOp.acpiCheckResourceConflict start ecExtent)
  if err ≠ 0 then return .error err
  match ← perform (ModuleOp.platformDeviceAlloc address) with
  | none => return .error (-enomem)
  | some pdev =>
    let err ← perform (ModuleOp.platformDeviceAddResources pdev start ecExtent)
    if err ≠ 0 then exitDevicePut pdev err
    else
      let err ← perform (ModuleOp.platformDeviceAddData pdev sioData)
      if err ≠ 0 then exitDevicePut pdev err
      else
        let err ← perform (ModuleOp.platformDeviceAdd pdev)
        if err ≠ 0 then exitDevicePut pdev err else return .ok pdev

/-- One round of the loop: no chip, an error, or the device of the chip. -/
def addFound (m : ModuleState) (dmi : Option It87DmiData) (sioaddr : Word) :
    ModuleCode (Except ℤ (Option Pointer)) := do
  let (err, isaAddress, sioData) ← kernel (it87Find m sioaddr 0 It87SioData.zero)
  if err ≠ 0 ∨ isaAddress = 0 then return .ok none
  let skipPwm := dmi.elim sioData.skipPwm fun dmi => sioData.skipPwm ||| dmi.skipPwm
  let added ← it87DeviceAdd isaAddress { sioData with skipPwm }
  return added.map some

/-- The devices of the chips at 0x2e and 0x4e. -/
structure Loaded where
  first : Option Pointer
  second : Option Pointer

/-- `exit_unregister` -/
def exitUnregister (err : ℤ) : ModuleCode (Except ℤ Loaded) := do
  platformDriverUnregister
  return .error err

/-- `exit_dev_unregister` -/
def exitDevUnregister (first : Option Pointer) (err : ℤ) : ModuleCode (Except ℤ Loaded) := do
  platformDeviceUnregister first
  exitUnregister err

def smIt87Init (forceId : Word) (dmi : Option It87DmiData) : ModuleCode (Except ℤ Loaded) := do
  let m : ModuleState := { forceId, sio4eBroken := dmi.elim false It87DmiData.sio4eBroken }
  let err ← perform ModuleOp.platformDriverRegister
  if err ≠ 0 then return .error err
  match ← addFound m dmi reg2e with
  | .error err => exitDevUnregister none err
  | .ok first =>
    match ← addFound m dmi reg4e with
    | .error err => exitDevUnregister first err
    | .ok second =>
      if first.isNone ∧ second.isNone then exitUnregister (-enodev)
      else return .ok { first, second }

def smIt87Exit (module : Loaded) : ModuleCode Unit := do
  platformDeviceUnregister module.second
  platformDeviceUnregister module.first
  platformDriverUnregister

/-! ### The search -/

/-- What the answers mean to the books. -/
def moduleBooks : Books ModuleOp ModuleOp.Answer Resource
  | .kernel o, r => kernelBooks o r
  | .platformDriverRegister, rc => if rc = 0 then .take .driver else .nothing
  | .platformDriverUnregister, _ => .give .driver
  | .platformDeviceAlloc _, p => p.elim .nothing fun p => .take (.device p)
  | .platformDeviceAdd p, rc => if rc = 0 then .take (.added p) else .nothing
  | .platformDevicePut p, _ => .give (.device p)
  | .platformDeviceUnregister p, _ => p.elim .nothing fun p => ⟨.device p ::ₘ {.added p}, 0⟩
  | _, _ => .nothing

section

variable {held : Multiset Resource} (m : ModuleState) (ioreg : Word)

theorem unbooked_superioKey : (superioKey ioreg).Only (Unbooked kernelBooks) := by
  refine only_bind (unbooked_outb _ _) fun _ => only_bind (unbooked_outb _ _) fun _ => ?_
  exact only_bind (unbooked_outb _ _) fun _ => unbooked_outb _ _

theorem unbooked_superioInb (r : Byte) : (superioInb m ioreg r).Only (Unbooked kernelBooks) := by
  refine only_bind (unbooked_outb _ _) fun _ => only_bind (unbooked_inb _) fun v => ?_
  refine only_ite (fun _ => ?_) fun _ => only_pure _
  refine only_bind (unbooked_superioKey ioreg) fun _ => ?_
  exact only_bind (unbooked_outb _ _) fun _ => unbooked_inb _

theorem unbooked_superioOutb (r v : Byte) : (superioOutb ioreg r v).Only (Unbooked kernelBooks) :=
  only_bind (unbooked_outb _ _) fun _ => unbooked_outb _ _

theorem unbooked_superioInw (r : Byte) : (superioInw m ioreg r).Only (Unbooked kernelBooks) :=
  only_bind (unbooked_superioInb m ioreg r) fun _ =>
    only_bind (unbooked_superioInb m ioreg (r + 1)) fun _ => only_pure _

theorem unbooked_readBeepPin (d : It87SioData) :
    (readBeepPin m ioreg d).Only (Unbooked kernelBooks) :=
  only_bind (unbooked_superioInb m ioreg _) fun _ => only_pure _

/-- A register is read before the rest. -/
theorem unbooked_reading {r : Byte} {f : Byte → Kernel It87SioData}
    (h : ∀ v, (f v).Only (Unbooked kernelBooks)) :
    (superioInb m ioreg r >>= f).Only (Unbooked kernelBooks) :=
  only_bind (unbooked_superioInb m ioreg r) h

theorem unbooked_readIt8783 (d : It87SioData) :
    (readIt8783 m ioreg d).Only (Unbooked kernelBooks) := by
  refine unbooked_reading m ioreg fun reg25 => unbooked_reading m ioreg fun reg27 => ?_
  refine unbooked_reading m ioreg fun reg2a => unbooked_reading m ioreg fun reg2c => ?_
  refine unbooked_reading m ioreg fun regef => only_ite (fun _ => ?_) fun _ => ?_
  · exact only_bind (unbooked_superioOutb ioreg _ _) fun _ => unbooked_readBeepPin m ioreg _
  · exact unbooked_readBeepPin m ioreg _

theorem unbooked_readIt8603 (d : It87SioData) :
    (readIt8603 m ioreg d).Only (Unbooked kernelBooks) :=
  unbooked_reading m ioreg fun _ => unbooked_reading m ioreg fun _ => unbooked_readBeepPin m ioreg _

theorem unbooked_readIt8620 (d : It87SioData) :
    (readIt8620 m ioreg d).Only (Unbooked kernelBooks) := by
  refine unbooked_reading m ioreg fun reg25 => unbooked_reading m ioreg fun reg26 => ?_
  refine unbooked_reading m ioreg fun reg27 => unbooked_reading m ioreg fun reg28 => ?_
  refine unbooked_reading m ioreg fun reg29 => unbooked_reading m ioreg fun reg2c => ?_
  exact unbooked_readBeepPin m ioreg _

theorem unbooked_readIt8613 (d : It87SioData) :
    (readIt8613 m ioreg d).Only (Unbooked kernelBooks) := by
  refine unbooked_reading m ioreg fun reg25 => unbooked_reading m ioreg fun reg27 => ?_
  refine unbooked_reading m ioreg fun reg29 => unbooked_reading m ioreg fun reg2c => ?_
  exact unbooked_readBeepPin m ioreg _

theorem unbooked_readIt8732 (d : It87SioData) :
    (readIt8732 m ioreg d).Only (Unbooked kernelBooks) := by
  refine unbooked_reading m ioreg fun reg29 => unbooked_reading m ioreg fun reg27 => ?_
  exact unbooked_reading m ioreg fun reg2c => unbooked_readBeepPin m ioreg _

theorem unbooked_readPinx4 (d : It87SioData) :
    (readPinx4 m ioreg d).Only (Unbooked kernelBooks) := by
  refine unbooked_reading m ioreg fun reg29 => unbooked_reading m ioreg fun reg2d => ?_
  exact unbooked_reading m ioreg fun reg27 => only_pure _

theorem unbooked_readIt8665 (d : It87SioData) :
    (readIt8665 m ioreg d).Only (Unbooked kernelBooks) := by
  refine only_bind (unbooked_readPinx4 m ioreg d) fun d => ?_
  refine unbooked_reading m ioreg fun reg26 => unbooked_reading m ioreg fun regd3 => ?_
  exact unbooked_readBeepPin m ioreg _

theorem unbooked_readFiveFans (d : It87SioData) :
    (readFiveFans m ioreg d).Only (Unbooked kernelBooks) := by
  refine only_ite (fun _ => only_pure _) fun _ => unbooked_reading m ioreg fun reg26 => ?_
  split <;> exact only_pure _

theorem unbooked_readVid (d : It87SioData) : (readVid m ioreg d).Only (Unbooked kernelBooks) :=
  only_ite (fun _ => only_pure _) fun _ => unbooked_reading m ioreg fun _ => only_pure _

theorem unbooked_readOther (d : It87SioData) :
    (readOther m ioreg d).Only (Unbooked kernelBooks) := by
  refine only_bind (unbooked_readFiveFans m ioreg d) fun d => ?_
  refine unbooked_reading m ioreg fun reg27 => unbooked_reading m ioreg fun reg29 => ?_
  refine only_bind (unbooked_readVid m ioreg _) fun d => unbooked_reading m ioreg fun reg2c => ?_
  refine only_ite (fun _ => ?_) fun _ => unbooked_readBeepPin m ioreg _
  exact only_bind (unbooked_superioOutb ioreg _ _) fun _ => unbooked_readBeepPin m ioreg _

theorem unbooked_readConfig (d : It87SioData) :
    (readConfig m ioreg d).Only (Unbooked kernelBooks) := by
  unfold readConfig
  split
  · exact unbooked_readBeepPin m ioreg d
  · exact unbooked_readIt8783 m ioreg d
  · exact unbooked_readIt8603 m ioreg d
  · exact unbooked_readIt8603 m ioreg d
  · exact unbooked_readIt8620 m ioreg d
  · exact unbooked_readIt8620 m ioreg d
  · exact unbooked_readIt8620 m ioreg d
  · exact unbooked_readIt8613 m ioreg d
  · exact unbooked_readIt8613 m ioreg d
  · exact unbooked_readIt8732 m ioreg d
  · exact only_bind (unbooked_readPinx4 m ioreg d) fun _ => unbooked_readBeepPin m ioreg _
  · exact unbooked_readIt8665 m ioreg d
  · exact unbooked_readOther m ioreg d

theorem unbooked_probe (address : Word) (d : It87SioData) :
    (probe m ioreg address d).Only (Unbooked kernelBooks) := by
  have hselect : ∀ l, (superioSelect ioreg l).Only (Unbooked kernelBooks) := fun l =>
    only_bind (unbooked_outb _ _) fun _ => unbooked_outb _ _
  refine only_bind (hselect pme) fun _ => ?_
  refine only_bind (unbooked_superioInb m ioreg _) fun act => ?_
  refine only_ite (fun _ => only_pure _) fun _ => ?_
  refine only_bind (unbooked_superioInw m ioreg _) fun base => ?_
  refine only_ite (fun _ => only_pure _) fun _ => ?_
  refine only_bind (unbooked_superioInb m ioreg _) fun rev => ?_
  refine only_bind (only_bind (hselect _) fun _ => unbooked_readConfig m ioreg _) fun _ => ?_
  exact only_pure _

theorem unbooked_detect (address : Word) (d : It87SioData) :
    (detect m ioreg address d).Only (Unbooked kernelBooks) := by
  refine only_bind (unbooked_superioInw m ioreg _) fun id => ?_
  refine only_ite (fun _ => only_pure _) fun _ => ?_
  split
  · exact only_pure _
  · exact unbooked_probe m ioreg address _

/-- However the search for a chip ends, the address pair has been given back. -/
theorem holds_it87Find (address : Word) (d : It87SioData) :
    (it87Find m ioreg address d).Holds kernelBooks (fun _ rest => rest = held) held := by
  refine holds_bind (S := fun err rest => err = 0 ∧ rest = .region ioreg 2 ::ₘ held ∨
    err = -ebusy ∧ rest = held) ?_ ?_
  · refine holds_bind (holds_requestMuxedRegion ioreg 2) ?_
    rintro granted rest hrest
    refine holds_ite (fun hg => ?_) fun hg => ?_
    · refine (unbooked_superioKey ioreg).holds_bind fun _ => ?_
      exact holds_pure (.inl ⟨rfl, hrest.trans (if_pos hg)⟩)
    · exact holds_pure (.inr ⟨rfl, hrest.trans (if_neg hg)⟩)
  · rintro err rest (⟨rfl, rfl⟩ | ⟨rfl, rfl⟩)
    · refine (unbooked_detect m ioreg address d).holds_bind fun found => ?_
      refine holds_bind (S := fun _ rest => rest = held) ?_ fun _ _ h => holds_pure h
      refine holds_ite (fun _ => ?_) fun _ => holds_releaseRegion ioreg 2
      refine (unbooked_outb _ _).holds_bind fun _ => (unbooked_outb _ _).holds_bind fun _ => ?_
      exact holds_releaseRegion ioreg 2
    · exact holds_pure rfl

/-! ### Devices -/

theorem holds_kernel {α : Type} {p : Kernel α} {Q : α → Multiset Resource → Prop}
    (h : p.Holds kernelBooks Q held) : (kernel p).Holds moduleBooks Q held :=
  holds_interp (h := fun o => perform (ModuleOp.kernel o)) (fun _ _ _ ho => ho) h

/-- A device that the bus knows, if there is one. -/
def deviceOf (pdev : Option Pointer) : Multiset Resource :=
  pdev.elim 0 fun p => .device p ::ₘ {.added p}

theorem holds_platformDeviceUnregister (pdev : Option Pointer) :
    (platformDeviceUnregister pdev).Holds moduleBooks (fun _ rest => rest = held)
      (deviceOf pdev + held) := by
  refine holds_perform fun _ => ⟨held, ?_, rfl⟩
  cases pdev with
  | none => simp [moduleBooks, deviceOf]
  | some p => simp [moduleBooks, deviceOf, Entry.book]

theorem holds_platformDriverUnregister :
    platformDriverUnregister.Holds moduleBooks (fun _ rest => rest = held) (.driver ::ₘ held) :=
  holds_giving fun _ => rfl

/-- The device that is there in the end, if one is. -/
def added : Except ℤ (Option Pointer) → Option Pointer
  | .ok pdev => pdev
  | .error _ => none

theorem holds_exitDevicePut (held : Multiset Resource) (p : Pointer) (err : ℤ) :
    (exitDevicePut p err).Holds moduleBooks
      (fun r rest => rest = deviceOf (added (r.map some)) + held) (.device p ::ₘ held) := by
  refine holds_bind (holds_giving fun _ => rfl) ?_
  rintro _ rest hrest
  exact holds_pure (hrest.trans (Multiset.zero_add held).symm)

/-- A request that means nothing to the books. -/
theorem holds_asking {o : ModuleOp} (ho : Unbooked moduleBooks o) {α : Type}
    {f : o.Answer → ModuleCode α} {Q : α → Multiset Resource → Prop}
    (hf : ∀ r, (f r).Holds moduleBooks Q held) :
    (perform o >>= f : ModuleCode α).Holds moduleBooks Q held :=
  ((only_perform o).mpr ho).holds_bind hf

/-- A device that could not be added, whatever was wrong, has been given back. -/
theorem holds_it87DeviceAdd (address : Word) (d : It87SioData) :
    (it87DeviceAdd address d).Holds moduleBooks
      (fun r rest => rest = deviceOf (added (r.map some)) + held) held := by
  have hnone : held = deviceOf none + held := (Multiset.zero_add held).symm
  refine holds_asking (fun _ => rfl) fun err => holds_ite (fun _ => holds_pure hnone) fun _ => ?_
  refine holds_bind (holds_allocating (f := Resource.device) (g := id) fun _ => rfl) ?_
  rintro p rest hrest
  cases p with
  | none => exact holds_pure hrest
  | some p =>
    have hheld : rest = .device p ::ₘ held := hrest.trans (Multiset.singleton_add _ held)
    rw [hheld]
    have hput := fun err => holds_exitDevicePut held p err
    refine holds_asking (fun _ => rfl) fun err => holds_ite (fun _ => hput err) fun _ => ?_
    refine holds_asking (fun _ => rfl) fun err => holds_ite (fun _ => hput err) fun _ => ?_
    refine holds_bind (holds_taking (x := Resource.added p) (g := fun rc : ℤ => rc = 0)
      fun _ => rfl) ?_
    rintro rc rest hrest
    rw [hrest]
    refine holds_ite (fun hrc => ?_) fun hrc => ?_
    · rw [if_neg hrc]
      exact hput rc
    · rw [if_pos (not_not.mp hrc)]
      refine holds_pure ?_
      simp only [added, Except.map, deviceOf, Option.elim_some, ← Multiset.singleton_add]
      abel

/-! ### The module -/

theorem holds_addFound (dmi : Option It87DmiData) (sioaddr : Word) :
    (addFound m dmi sioaddr).Holds moduleBooks
      (fun r rest => rest = deviceOf (added r) + held) held := by
  refine holds_bind (holds_kernel (holds_it87Find m sioaddr 0 .zero)) ?_
  rintro ⟨err, isaAddress, sioData⟩ rest hrest
  rw [hrest]
  refine holds_ite (fun _ => holds_pure (Multiset.zero_add held).symm) fun _ => ?_
  refine holds_bind (holds_it87DeviceAdd isaAddress _) ?_
  rintro r rest hrest
  exact holds_pure hrest

/-- A driver that could not be loaded holds nothing, and one that could what it owns. -/
def Loaded.owned (module : Loaded) : Multiset Resource :=
  deviceOf module.second + (deviceOf module.first + {.driver})

def Settles (held : Multiset Resource) (r : Except ℤ Loaded) (rest : Multiset Resource) : Prop :=
  match r with
  | .ok module => rest = module.owned + held
  | .error _ => rest = held

theorem holds_exitUnregister (err : ℤ) :
    (exitUnregister err).Holds moduleBooks (Settles held) (.driver ::ₘ held) := by
  refine holds_bind holds_platformDriverUnregister ?_
  rintro _ rest hrest
  exact holds_pure hrest

theorem holds_exitDevUnregister (first : Option Pointer) (err : ℤ) :
    (exitDevUnregister first err).Holds moduleBooks (Settles held)
      (deviceOf first + (.driver ::ₘ held)) := by
  refine holds_bind (holds_platformDeviceUnregister first) ?_
  rintro _ rest hrest
  rw [hrest]
  exact holds_exitUnregister err

end

theorem holds_smIt87Init (held : Multiset Resource) (forceId : Word) (dmi : Option It87DmiData) :
    (smIt87Init forceId dmi).Holds moduleBooks (Settles held) held := by
  refine holds_bind (holds_taking (x := Resource.driver) (g := fun rc : ℤ => rc = 0)
    fun _ => rfl) ?_
  rintro rc rest hrest
  refine holds_ite (fun hrc => ?_) fun hrc => ?_
  · exact holds_pure (hrest.trans (if_neg hrc))
  rw [hrest, if_pos (not_not.mp hrc)]
  refine holds_bind (holds_addFound _ dmi reg2e) ?_
  rintro (err | first) rest hrest
  · rw [hrest]
    exact holds_exitDevUnregister none err
  rw [hrest]
  refine holds_bind (holds_addFound _ dmi reg4e) ?_
  rintro (err | second) rest hrest
  · have hheld : rest = deviceOf first + (.driver ::ₘ held) := hrest.trans (Multiset.zero_add _)
    rw [hheld]
    exact holds_exitDevUnregister first err
  rw [hrest]
  refine holds_ite (fun hnone => ?_) fun _ => ?_
  · obtain ⟨hfirst, hsecond⟩ := hnone
    obtain rfl := Option.isNone_iff_eq_none.mp hfirst
    obtain rfl := Option.isNone_iff_eq_none.mp hsecond
    simp only [added, deviceOf, Option.elim_none, Multiset.zero_add]
    exact holds_exitUnregister _
  · refine holds_pure ?_
    simp only [Settles, Loaded.owned, added, ← Multiset.singleton_add]
    abel

theorem holds_smIt87Exit (held : Multiset Resource) (module : Loaded) :
    (smIt87Exit module).Holds moduleBooks (fun _ rest => rest = held) (module.owned + held) := by
  have howned : module.owned + held =
      deviceOf module.second + (deviceOf module.first + (.driver ::ₘ held)) := by
    simp only [Loaded.owned, ← Multiset.singleton_add]
    abel
  rw [howned]
  refine holds_bind (holds_platformDeviceUnregister module.second) ?_
  rintro _ rest hrest
  rw [hrest]
  refine holds_bind (holds_platformDeviceUnregister module.first) ?_
  rintro _ rest hrest
  rw [hrest]
  exact holds_platformDriverUnregister

/-- The module is loaded, with a chip's identification for its parameter or none, and unloaded. -/
inductive ModuleCall
  | load (forceId : Word)
  | unload

def moduleCall (dmi : Option It87DmiData) : ModuleCall → Option Loaded → ModuleCode (Option Loaded)
  | .load forceId, none => do
    let loaded ← smIt87Init forceId dmi
    return loaded.toOption
  | .unload, some module => do
    smIt87Exit module
    return none
  | _, loaded => return loaded

def owned (loaded : Option Loaded) : Multiset Resource := loaded.elim 0 Loaded.owned

theorem holds_moduleCall (dmi : Option It87DmiData) (k : ModuleCall) (loaded : Option Loaded) :
    (moduleCall dmi k loaded).Holds moduleBooks (fun loaded rest => rest = owned loaded)
      (owned loaded) := by
  cases loaded with
  | none =>
    cases k
    case load forceId =>
      refine holds_bind (holds_smIt87Init 0 forceId dmi) ?_
      rintro (e | module) rest hrest
      · exact holds_pure hrest
      · exact holds_pure (hrest.trans (Multiset.add_zero _))
    case unload => exact holds_pure rfl
  | some module =>
    cases k
    case load => exact holds_pure rfl
    case unload =>
      have hexit := holds_smIt87Exit 0 module
      rw [Multiset.add_zero] at hexit
      exact holds_bind hexit fun _ _ hrest => holds_pure hrest

/-- On every board, and wherever loading fails: after any loads and unloads nothing has been given
back that was not held, and all that is held is the driver's registration and the devices of the
chips that were found, while the module is loaded. -/
theorem owned_of_loads {σ : Type} (dmi : Option It87DmiData)
    (d : Device ModuleOp ModuleOp.Answer Empty σ) (s : σ) (ks : List ModuleCall) :
    (calls (ledger moduleBooks d) (moduleCall dmi) ks (none, s, some 0)).2.2 =
      some (owned (calls (ledger moduleBooks d) (moduleCall dmi) ks (none, s, some 0)).1) :=
  owned_of_calls (holds_moduleCall dmi) d ks none s

end BuffaloNas.It87
