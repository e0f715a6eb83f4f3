import BuffaloNas.Dnv.Lines
import BuffaloNas.Dnv.Triggering

/-! Which interrupts the Denverton pads are set up for, over whole runs. -/
namespace BuffaloNas.Dnv
open Interaction Program

variable {w : World} {s t : Pads} {p q a : ℕ} {reg : RegType} {type val m : Word32} {α β : Type}

/-! ### The initialisation -/

/-- The registers in the order of the C enumeration. -/
def regTypes : List RegType :=
  [.padcfglock, .gpiGpeEn, .gpiGpeSts, .hostswOwn, .padOwn, .padCfgDw0, .padCfgDw1]

/-- One round of the loop in `dnv_gpio_range_init`, which gives the pin for the register and the
register for the pin. -/
def rangePin (gpi : ℕ) : Mmio Word32 :=
  match regTypes[gpi]? with
  | some reg => BitVec.ofInt 32 <$> regMapOffsetDnv reg (regTypes.idxOf .padCfgDw0)
  | none => return BitVec.ofInt 32 (-einval)

def dnvGpioRangeInit : Mmio (List Word32) := (List.range ngpio).mapM rangePin

/-- One round of the loop in `dnv_gpio_irq_init_hw`; the entries of the range are unsigned. -/
def initPin (pins : List Word32) (gpi : ℕ) : Mmio Unit := do
  if pins.getD gpi 0 < 0 then return
  dnvGpioClearTriggering gpi

def dnvGpioIrqInitHw (pins : List Word32) : Mmio Unit :=
  (List.range npads).forM (initPin pins)

/-- What `dnv_gpio_probe` does to the pads; `irqRc` is the start of the resource for the interrupt,
if the device has one. -/
def probePads (irqRc : Option ℕ) : Mmio Unit := do
  let pins ← dnvGpioRangeInit
  if irqRc.getD 0 ≠ 0 then dnvGpioIrqInitHw pins

/-! ### The setup of a pin -/

/-- The bits of DW0 that have to do with interrupts. -/
def trigMask : Word32 := gpiroutMask ||| rxevcfgMask ||| rxinv

/-- What a pin is set up for, apart from what is pending. -/
@[ext]
structure Setup where
  config : Word32
  enable : Word32
  padOwn : Word32
  hostswOwn : Word32
  type : Word32

/-- The bits of a register that set up the pin. -/
def setupBits (reg : RegType) (p : ℕ) : Word32 :=
  if reg = .padCfgDw0 then trigMask else maskOf reg p

def bitsOf (w : World) (s : Pads) (reg : RegType) (p : ℕ) : Word32 :=
  peek (s.own w) reg p &&& setupBits reg p

def setupOf (w : World) (s : Pads) (p : ℕ) : Setup where
  config := bitsOf w s .padCfgDw0 p
  enable := bitsOf w s .gpiGpeEn p
  padOwn := bitsOf w s .padOwn p
  hostswOwn := bitsOf w s .hostswOwn p
  type := s.irqType p

/-- The hardware moves the state of the inputs and what is pending, nothing else. -/
structure Steady (w : World) : Prop where
  config : OnlyRxstate w
  shared : ∀ reg p a, address? reg p = some a → ¬ Config reg → reg ≠ .gpiGpeSts → w.driven a = 0

namespace Setup

/-- One of the registers has other bits. -/
def set (reg : RegType) (val : Word32) (x : Setup) : Setup :=
  match reg with
  | .padCfgDw0 => { x with config := val }
  | .gpiGpeEn => { x with enable := val }
  | .padOwn => { x with padOwn := val }
  | .hostswOwn => { x with hostswOwn := val }
  | _ => x

/-- The trigger is cleared. -/
def freed (x : Setup) : Setup := { x with config := x.config &&& ~~~gpiroutsci, enable := 0 }

/-- The pin is taken over, and gets the trigger if that is known. -/
def retyped (p : ℕ) (type : Word32) (x : Setup) : Setup :=
  let taken := { x with padOwn := 0, hostswOwn := 0 }
  match retrigger type x.config 0 (maskOf .gpiGpeEn p) with
  | some (config, enable) => { taken with config, enable, type }
  | none => taken

/-- The next edge is the other one. -/
def flipped (x : Setup) : Setup :=
  if x.type = irqTypeEdgeBoth then { x with config := x.config ^^^ rxinv } else x

/-- What a call can do to the setup of its pin. -/
def Moves (x : Setup) : Call → Setup → Prop
  | .free _, y => y = x.freed
  | .irqSetType p type, y => y = x.retyped p type
  | .irqAck _, y => y = x ∨ y = x.flipped
  | _, y => y = x

end Setup

/-! ### What a register write does to it -/

theorem setup_settle : setupOf w (s.settle w) p = setupOf w s p := by
  simp only [setupOf, bitsOf, own_settle]
  rfl

theorem bitsOf_ne {reg' : RegType} (hne : reg' ≠ reg) (ha : address? reg p = some a) :
    bitsOf w (s.store a val) reg' q = bitsOf w s reg' q := by
  have hown : ∃ x, (s.store a val).own w = poke (s.own w) reg p x := by
    simp only [poke_eq ha]
    by_cases h : Status a
    · exact ⟨_, own_store_status h val⟩
    · exact ⟨_, own_store h val⟩
  obtain ⟨x, hx⟩ := hown
  rw [bitsOf, hx, peek_poke_group hne, bitsOf]

/-- Pins that share a register have bits of their own in it. -/
theorem disjoint_shared (hc : ¬ Config reg) : ∀ p < npads, ∀ q < npads, q ≠ p →
    address? reg q = address? reg p → ~~~maskOf reg p &&& maskOf reg q = maskOf reg q := by
  cases reg with
  | padCfgDw0 => exact absurd (Or.inl rfl) hc
  | padCfgDw1 => exact absurd (Or.inr rfl) hc
  | _ => decide +kernel

theorem lt_of_shared (hc : ¬ Config reg) (ha : address? reg p = some a) : p < npads := by
  have hp := lt_of_address ha
  cases reg with
  | padCfgDw0 => exact absurd (Or.inl rfl) hc
  | padCfgDw1 => exact absurd (Or.inr rfl) hc
  | _ => exact hp

/-- The write of a pin's own register. -/
theorem bitsOf_config (hw : OnlyRxstate w) (ha : address? .padCfgDw0 p = some a) :
    bitsOf w (s.store a val) .padCfgDw0 q =
      if q = p then val &&& setupBits .padCfgDw0 p else bitsOf w s .padCfgDw0 q := by
  rw [bitsOf, bitsOf, own_store (not_status (by decide) ha), ← poke_eq ha]
  split
  case isTrue hq =>
    subst hq
    rw [peek_poke_self (by simp [ha]), hw q a ha, BitVec.and_assoc, setupBits, if_pos rfl]
    exact congrArg (val &&& ·) (by decide)
  case isFalse hq => rw [peek_poke_ne (Or.inl rfl) fun _ => hq]

section Shared
variable (hw : Steady w) (hc : ¬ Config reg) (hr : reg ≠ .gpiGpeSts)
  (ha : address? reg p = some a)
include hw hc hr ha

theorem own_shared (s : Pads) : s.own w a = s.mem a := by
  rw [Pads.own, hw.shared reg p a ha hc hr]
  exact BitVec.and_allOnes

theorem read_shared (s : Pads) : (s.settle w).mem a = s.own w a := by
  rw [← own_shared hw hc hr ha (s.settle w), own_settle]

/-- A write of a shared register that leaves the other pins' bits as they are. -/
theorem bitsOf_shared (hv : val &&& ~~~maskOf reg p = s.own w a &&& ~~~maskOf reg p) :
    bitsOf w (s.store a val) reg q =
      if q = p then val &&& setupBits reg p else bitsOf w s reg q := by
  have hown : (s.store a val).own w = Function.update (s.own w) a val := by
    rw [own_store (not_status hr ha), hw.shared reg p a ha hc hr]
    exact congrArg _ BitVec.and_allOnes
  have hbits : ∀ q, setupBits reg q = maskOf reg q := fun q => if_neg fun h => hc (Or.inl h)
  rw [bitsOf, bitsOf, hown, hbits, hbits]
  split
  case isTrue hq =>
    subst hq
    rw [peek_eq ha, Function.update_self]
  case isFalse hq =>
    cases hb : address? reg q with
    | none => simp only [peek, hb, Option.map_none]
    | some b =>
      rw [peek_eq hb, peek_eq hb]
      by_cases hba : b = a
      · subst hba
        have hd := disjoint_shared hc p (lt_of_shared hc ha) q (lt_of_shared hc hb) hq
          (hb.trans ha.symm)
        rw [Function.update_self, ← hd, ← BitVec.and_assoc, hv, BitVec.and_assoc]
      · rw [Function.update_of_ne hba]

end Shared

/-- A write of one pin's bits, as it shows in the setups. -/
theorem setup_store (hr : reg ≠ .gpiGpeSts) (ha : address? reg p = some a)
    (hbits : ∀ q, bitsOf w (s.store a val) reg q =
      if q = p then val &&& setupBits reg p else bitsOf w s reg q) :
    setupOf w (s.store a val) q =
      if q = p then (setupOf w s q).set reg (val &&& setupBits reg p) else setupOf w s q := by
  have hne : ∀ reg', reg' ≠ reg → bitsOf w (s.store a val) reg' q = bitsOf w s reg' q :=
    fun reg' hne => bitsOf_ne hne ha
  have hself := hbits q
  cases reg <;> split at hself <;>
    simp_all [setupOf, Setup.set, Pads.store]

/-- A write of a status register shows in no setup. -/
theorem setup_status (ha : address? .gpiGpeSts p = some a) :
    setupOf w (s.store a val) q = setupOf w s q := by
  simp only [setupOf, bitsOf_ne (show RegType.padCfgDw0 ≠ .gpiGpeSts by decide) ha,
    bitsOf_ne (show RegType.gpiGpeEn ≠ .gpiGpeSts by decide) ha,
    bitsOf_ne (show RegType.padOwn ≠ .gpiGpeSts by decide) ha,
    bitsOf_ne (show RegType.hostswOwn ≠ .gpiGpeSts by decide) ha]
  rfl

/-! ### What the calls do to it -/

/-- The setups are those of `s`. -/
def Same (w : World) (s t : Pads) : Prop := ∀ q, setupOf w t q = setupOf w s q

theorem Same.refl : Same w s s := fun _ => rfl

theorem Same.settle (h : Same w s t) : Same w s (t.settle w) :=
  fun q => setup_settle.trans (h q)

theorem read_config (hw : OnlyRxstate w) (ha : address? .padCfgDw0 p = some a) :
    (s.settle w).mem a &&& trigMask = (setupOf w s p).config := by
  have hown : (s.settle w).mem a &&& trigMask = (s.settle w).own w a &&& trigMask := by
    rw [Pads.own, hw p a ha, BitVec.and_assoc]
    exact congrArg ((s.settle w).mem a &&& ·) (by decide)
  rw [hown, own_settle, setupOf, bitsOf, peek_eq ha, setupBits, if_pos rfl]

theorem setup_store_config (hw : OnlyRxstate w) (ha : address? .padCfgDw0 p = some a) :
    setupOf w (s.store a val) q =
      if q = p then { setupOf w s q with config := val &&& trigMask } else setupOf w s q :=
  setup_store (by decide) ha fun _ => bitsOf_config hw ha

/-- DW0 is written without a change of its bits for interrupts. -/
theorem Same.store (hw : OnlyRxstate w) (h : Same w s t) (ha : address? .padCfgDw0 p = some a)
    (hv : val &&& trigMask = (setupOf w s p).config) : Same w s (t.store a val) := by
  intro q
  rw [setup_store_config hw ha]
  split
  case isTrue hq =>
    subst hq
    rw [h q, hv]
  case isFalse => exact h q

/-- Bits outside of a mask do not show in it. -/
theorem and_not_off {x k : Word32} (h : m &&& k = 0) : x &&& ~~~m &&& k = x &&& k := by
  ext i hi
  have hi' : m[i] = true → k[i] = true → False := by
    intro hm hk
    have h' := congrArg (·[i]) h
    simp [hm, hk] at h'
  cases hm : m[i] <;> cases hk : k[i] <;> simp_all

theorem or_off {x k : Word32} (h : m &&& k = 0) : (x ||| m) &&& k = x &&& k := by
  change m &&& k = 0#32 at h
  rw [BitVec.and_comm, BitVec.and_or_distrib_left, BitVec.and_comm k m, h, BitVec.or_zero,
    BitVec.and_comm]

section Calls
variable (hw : OnlyRxstate w)
include hw

omit hw in
/-- A pin without a register is refused. -/
theorem same_config {x : β} {body : Option ℕ → Mmio β}
    (h : ∀ a, address? .padCfgDw0 p = some a →
      (body (some a)).Keeps (Pads.device w) (Own p) s fun _ t => Same w s t) :
    (do let reg ← dnvGpioReg p .padCfgDw0
        if reg = none then return x
        body reg).Keeps (Pads.device w) (Own p) s fun _ t => Same w s t := by
  apply keeps_reg
  cases ha : address? .padCfgDw0 p with
  | none => exact keeps_ite (fun _ => keeps_pure .refl) fun hn => absurd rfl hn
  | some a =>
    refine keeps_ite (fun hn => ?_) fun _ => h a ha
    cases hn

theorem same_dnvGpioRequest :
    (dnvGpioRequest p).Keeps (Pads.device w) (Own p) s fun _ t => Same w s t := by
  apply same_config
  intro a ha
  apply keeps_lock
  apply keeps_readl
  have h1 : Same w s (s.settle w) := Same.refl.settle
  refine keeps_ite (fun _ => ?_) fun _ => keeps_unlock (keeps_pure h1)
  apply keeps_readl
  apply keeps_writel ha
  apply keeps_unlock
  refine keeps_pure (h1.settle.settle.store hw ha ?_)
  rw [and_not_off (by decide), read_config hw ha, h1]

theorem same_dnvGpioDirectionInput :
    (dnvGpioDirectionInput p).Keeps (Pads.device w) (Own p) s fun _ t => Same w s t := by
  apply same_config
  intro a ha
  apply keeps_lock
  apply keeps_readl
  apply keeps_writel ha
  apply keeps_unlock
  refine keeps_pure (Same.refl.settle.settle.store hw ha ?_)
  rw [and_not_off (by decide), or_off (by decide), read_config hw ha]

theorem same_dnvGpioSet (val : Bool) :
    (dnvGpioSet p val).Keeps (Pads.device w) (Own p) s fun _ t => Same w s t := by
  apply same_config
  intro a ha
  apply keeps_lock
  apply keeps_readl
  refine keeps_ite (fun _ => ?_) fun _ => ?_
  · apply keeps_writel ha
    apply keeps_unlock'
    refine Same.refl.settle.settle.store hw ha ?_
    rw [or_off (by decide), read_config hw ha]
  · apply keeps_writel ha
    apply keeps_unlock'
    refine Same.refl.settle.settle.store hw ha ?_
    rw [and_not_off (by decide), read_config hw ha]

theorem same_dnvGpioDirectionOutput (val : Bool) :
    (dnvGpioDirectionOutput p val).Keeps (Pads.device w) (Own p) s fun _ t => Same w s t := by
  apply same_config
  intro a ha
  apply keeps_lock
  apply keeps_readl
  refine keeps_ite (fun _ => ?_) fun _ => ?_
  · apply keeps_writel ha
    apply keeps_unlock
    refine keeps_pure (Same.refl.settle.settle.store hw ha ?_)
    rw [or_off (by decide), and_not_off (by decide), or_off (by decide), read_config hw ha]
  · apply keeps_writel ha
    apply keeps_unlock
    refine keeps_pure (Same.refl.settle.settle.store hw ha ?_)
    rw [and_not_off (by decide), and_not_off (by decide), or_off (by decide), read_config hw ha]

end Calls

/-! ### What the calls for interrupts do to it -/

section Mask
variable {x e r k : Word32}

/-- What is done with bits inside of a mask shows in it. -/
theorem or_inside (he : e &&& k = e) : (x ||| e) &&& k = x &&& k ||| e := by
  rw [BitVec.and_comm, BitVec.and_or_distrib_left, BitVec.and_comm k e, he, BitVec.and_comm]

theorem and_not_inside : x &&& ~~~r &&& k = x &&& k &&& ~~~r := by
  rw [BitVec.and_assoc, BitVec.and_comm (~~~r), ← BitVec.and_assoc]

theorem xor_inside (hr : r &&& k = r) : (x ^^^ r) &&& k = x &&& k ^^^ r := by
  conv_rhs => rw [← hr]
  ext i hi
  cases hk : k[i] <;> simp [hk]

end Mask

theorem triggered_masked (type x : Word32) :
    (triggered type x).map (· &&& trigMask) = triggered type (x &&& trigMask) := by
  have hedge : rxevcfgTrigEdge &&& trigMask = rxevcfgTrigEdge := by decide
  have hlvl : rxevcfgTrigLvl &&& trigMask = rxevcfgTrigLvl := by decide
  have hinv : rxinv &&& trigMask = rxinv := by decide
  unfold triggered
  split_ifs <;>
    simp only [Option.map_some, Option.map_none, and_not_inside, or_inside hedge, or_inside hlvl,
      or_inside hinv, xor_inside hinv]

theorem retrigger_masked (type dw0 gpeEn enmask : Word32) :
    (retrigger type dw0 gpeEn enmask).map (fun u => (u.1 &&& trigMask, u.2 &&& enmask)) =
      retrigger type (dw0 &&& trigMask) 0 enmask := by
  have hsci : gpiroutsci &&& trigMask = gpiroutsci := by decide
  simp only [retrigger]
  split
  case isTrue =>
    rw [← and_not_inside, ← or_inside hsci, ← triggered_masked, Option.map_map, Option.map_map]
    congr 1
    funext u
    simp only [Function.comp, Prod.mk.injEq, true_and]
    rw [BitVec.and_comm, BitVec.and_or_distrib_left, BitVec.and_self, BitVec.or_comm]
    ext i hi
    cases hm : enmask[i] <;> simp [hm]
  case isFalse =>
    rw [Option.map_some, and_not_inside, not_and_self]
    exact congrArg (fun y => some (_, y)) BitVec.zero_and.symm

/-- The pin's setup has changed by `f`, and no other pin's. -/
def Moved (w : World) (p : ℕ) (f : Setup → Setup) (s t : Pads) : Prop :=
  ∀ q, setupOf w t q = if q = p then f (setupOf w s q) else setupOf w s q

section Moved
variable {f g : Setup → Setup}

theorem Moved.refl : Moved w p id s s := by
  intro q
  split <;> rfl

theorem Moved.settle (h : Moved w p f s t) : Moved w p f s (t.settle w) :=
  fun q => setup_settle.trans (h q)

theorem Moved.store (h : Moved w p f s t) (hr : reg ≠ .gpiGpeSts) (ha : address? reg p = some a)
    (hbits : ∀ q, bitsOf w (t.store a val) reg q =
      if q = p then val &&& setupBits reg p else bitsOf w t reg q) :
    Moved w p (fun x => (f x).set reg (val &&& setupBits reg p)) s (t.store a val) := by
  intro q
  rw [setup_store hr ha hbits]
  split
  case isTrue hq => rw [h q, if_pos hq]
  case isFalse hq => rw [h q, if_neg hq]

theorem Moved.config (hw : OnlyRxstate w) (h : Moved w p f s t)
    (ha : address? .padCfgDw0 p = some a) :
    Moved w p (fun x => { f x with config := val &&& trigMask }) s (t.store a val) :=
  h.store (by decide) ha fun _ => bitsOf_config hw ha

theorem Moved.shared (hw : Steady w) (h : Moved w p f s t) (hc : ¬ Config reg)
    (hr : reg ≠ .gpiGpeSts) (ha : address? reg p = some a)
    (hv : val &&& ~~~maskOf reg p = t.own w a &&& ~~~maskOf reg p) :
    Moved w p (fun x => (f x).set reg (val &&& maskOf reg p)) s (t.store a val) := by
  have hb : setupBits reg p = maskOf reg p := if_neg fun h => hc (Or.inl h)
  have hs := h.store hr ha fun _ => bitsOf_shared hw hc hr ha hv
  rwa [hb] at hs

theorem Moved.status (h : Moved w p f s t) (ha : address? .gpiGpeSts p = some a) :
    Moved w p f s (t.store a val) :=
  fun q => (setup_status ha).trans (h q)

theorem Moved.setIrqType (h : Moved w p f s t) (type : Word32) :
    Moved w p (fun x => { f x with type }) s
      { t with irqType := Function.update t.irqType p type } := by
  have hset : ∀ q, setupOf w { t with irqType := Function.update t.irqType p type } q =
      { setupOf w t q with type := Function.update t.irqType p type q } := fun _ => rfl
  intro q
  rw [hset, h q]
  split
  case isTrue hq =>
    subst hq
    rw [Function.update_self]
  case isFalse hq =>
    rw [Function.update_of_ne hq, ← show setupOf w t q = setupOf w s q from (h q).trans (if_neg hq)]
    rfl

theorem Moved.congr (h : Moved w p f s t) (hfg : f (setupOf w s p) = g (setupOf w s p)) :
    Moved w p g s t := by
  intro q
  rw [h q]
  split
  case isTrue hq =>
    subst hq
    exact hfg
  case isFalse => rfl

end Moved

/-! ### Steps of a program -/

section Steps
variable (hw : Steady w) {f : Setup → Setup} {k : Unit → Mmio β} {Q : Except Fault β → Pads → Prop}
include hw

/-- The pin's bits of a shared register are cleared. -/
theorem keeps_unset (h : Moved w p f s t) (hc : ¬ Config reg) (hr : reg ≠ .gpiGpeSts)
    (ha : address? reg p = some a)
    (hk : ∀ u, Moved w p (fun x => (f x).set reg 0) s u →
      (k ()).Keeps (Pads.device w) (Own p) u Q) :
    (do let val ← readl (some a)
        writel (val &&& ~~~maskOf reg p) (some a) >>= k).Keeps (Pads.device w) (Own p) t Q := by
  apply keeps_readl
  apply keeps_writel ha
  apply hk
  have hv : (t.settle w).mem a &&& ~~~maskOf reg p &&& ~~~maskOf reg p =
      ((t.settle w).settle w).own w a &&& ~~~maskOf reg p := by
    rw [read_shared hw hc hr ha, own_settle, own_settle, BitVec.and_assoc, BitVec.and_self]
  have hs := h.settle.settle.shared hw hc hr ha hv
  rwa [not_and_self] at hs

/-- DW0 is read and written. -/
theorem keeps_config' {g : Word32 → Word32} (gc : Word32 → Word32) (h : Moved w p f s t)
    (ha : address? .padCfgDw0 p = some a)
    (hg : ∀ val, g val &&& trigMask = gc (val &&& trigMask))
    (hk : ∀ u, Moved w p (fun x => { f x with config := gc (f x).config }) s u →
      (k ()).Keeps (Pads.device w) (Own p) u Q) :
    (do let val ← readl (some a)
        writel (g val) (some a) >>= k).Keeps (Pads.device w) (Own p) t Q := by
  apply keeps_readl
  apply keeps_writel ha
  apply hk
  refine (h.settle.settle.config hw.config ha).congr ?_
  rw [hg, read_config hw.config ha, h p, if_pos rfl]

omit hw in
/-- A status register is read and written. -/
theorem keeps_status {g : Word32 → Word32} (h : Moved w p f s t)
    (ha : address? .gpiGpeSts p = some a)
    (hk : ∀ u, Moved w p f s u → (k ()).Keeps (Pads.device w) (Own p) u Q) :
    (do let val ← readl (some a)
        writel (g val) (some a) >>= k).Keeps (Pads.device w) (Own p) t Q := by
  apply keeps_readl
  apply keeps_writel ha
  exact hk _ (h.settle.settle.status ha)

end Steps

section Triggers
variable (hw : Steady w) (hp : p < npads)
include hw hp

theorem moved_dnvGpioClearTriggering :
    (dnvGpioClearTriggering p).Keeps (Pads.device w) (Own p) s
      fun _ t => Moved w p Setup.freed s t := by
  obtain ⟨a, ha⟩ := exists_of_lt hp .padCfgDw0
  obtain ⟨b, hb⟩ := exists_of_lt hp .gpiGpeEn
  obtain ⟨d, hd⟩ := exists_of_lt hp .gpiGpeSts
  apply keeps_reg
  apply keeps_mask
  rw [ha]
  refine keeps_ite (fun h => absurd h (not_refused (by decide) hp)) fun _ => ?_
  apply keeps_lock
  refine keeps_config' hw (· &&& ~~~gpiroutsci) .refl ha (fun _ => and_not_inside) ?_
  intro t ht
  apply keeps_reg
  rw [hb]
  refine keeps_ite (fun _ => ?_) fun h => absurd (by simp) h
  refine keeps_unset hw ht (by decide) (by decide) hb fun u hu => ?_
  apply keeps_reg
  rw [hd]
  refine keeps_ite (fun _ => ?_) fun h => absurd (by simp) h
  exact keeps_status hu hd fun v hv => keeps_unlock' hv

theorem moved_dnvIrqAck :
    (dnvIrqAck p).Keeps (Pads.device w) (Own p) s
      fun _ t => Moved w p id s t ∨ Moved w p Setup.flipped s t := by
  obtain ⟨a, ha⟩ := exists_of_lt hp .padCfgDw0
  obtain ⟨b, hb⟩ := exists_of_lt hp .gpiGpeSts
  apply keeps_reg
  apply keeps_mask
  rw [hb]
  refine keeps_ite (fun h => absurd h (not_refused (by decide) hp)) fun _ => ?_
  apply keeps_lock
  apply keeps_readl
  have h1 := (Moved.refl (w := w) (s := s) (p := p)).settle
  refine keeps_ite (fun _ => ?_) fun _ => keeps_unlock' (.inl h1)
  apply keeps_irqType
  refine keeps_ite (fun hboth => ?_) fun _ => ?_
  · apply keeps_reg
    rw [ha]
    refine keeps_config' hw (· ^^^ rxinv) h1 ha (fun _ => xor_inside (by decide)) ?_
    intro t ht
    apply keeps_writel hb
    apply keeps_unlock'
    refine .inr ((ht.settle.status hb).congr ?_)
    have htype : (setupOf w s p).type = irqTypeEdgeBoth := hboth
    rw [Setup.flipped, if_pos htype]
    rfl
  · apply keeps_writel hb
    apply keeps_unlock'
    exact .inl (h1.settle.status hb)

theorem moved_dnvIrqSetType (type : Word32) :
    (dnvIrqSetType p type).Keeps (Pads.device w) (Own p) s
      fun _ t => Moved w p (Setup.retyped p type) s t := by
  obtain ⟨a, ha⟩ := exists_of_lt hp .padCfgDw0
  obtain ⟨b, hb⟩ := exists_of_lt hp .padOwn
  obtain ⟨d, hd⟩ := exists_of_lt hp .hostswOwn
  obtain ⟨e, he⟩ := exists_of_lt hp .gpiGpeEn
  have hmask : ¬ (some a = none ∨ some e = none ∨ some b = none ∨ maskOf .gpiGpeEn p = 0 ∨
      maskOf .hostswOwn p = 0 ∨ maskOf .padOwn p = 0) := by
    rintro (h | h | h | h | h | h)
    · cases h
    · cases h
    · cases h
    · exact mask_ne_zero (by decide) hp h
    · exact mask_ne_zero (by decide) hp h
    · exact mask_ne_zero (by decide) hp h
  apply keeps_reg
  apply keeps_reg
  apply keeps_reg
  apply keeps_reg
  apply keeps_mask
  apply keeps_mask
  apply keeps_mask
  rw [ha, hb, hd, he]
  refine keeps_ite (fun h => absurd h hmask) fun _ => ?_
  apply keeps_lock
  refine keeps_unset hw .refl (by decide) (by decide) hb fun t ht => ?_
  refine keeps_unset hw ht (by decide) (by decide) hd fun u hu => ?_
  -- the pin is taken over; now for its trigger
  apply keeps_readl
  apply keeps_readl
  extract_lets update
  have hconfig : (setupOf w u p).config = (setupOf w s p).config := by
    rw [hu p, if_pos rfl]
    rfl
  have hupdate : update.map (fun v => (v.1 &&& trigMask, v.2 &&& maskOf .gpiGpeEn p)) =
      retrigger type (setupOf w s p).config 0 (maskOf .gpiGpeEn p) := by
    rw [← hconfig, ← read_config hw.config ha]
    exact retrigger_masked type _ _ _
  have henable : ∀ x y, update = some (x, y) → y &&& ~~~maskOf .gpiGpeEn p =
      u.own w e &&& ~~~maskOf .gpiGpeEn p := by
    intro x y hxy
    have hread := read_shared hw (by decide) (by decide) he (u.settle w)
    rw [own_settle] at hread
    rw [← hread]
    exact enable_retrigger hxy
  clear_value update
  rcases update with - | ⟨x, y⟩
  · apply keeps_unlock
    refine keeps_pure (hu.settle.settle.congr ?_)
    rw [Setup.retyped, ← hupdate]
    rfl
  · apply keeps_writel ha
    apply keeps_writel he
    apply keeps_setIrqType
    apply keeps_unlock
    apply keeps_pure
    have hy : y &&& ~~~maskOf .gpiGpeEn p =
        ((((((u.settle w).settle w).settle w).store a x).settle w).own w e) &&&
          ~~~maskOf .gpiGpeEn p := by
      have hne : e ≠ a := ne_of_group (by decide) he ha
      rw [henable x y rfl, own_settle, own_store (not_status (by decide) ha),
        Function.update_of_ne hne, own_settle, own_settle, own_settle]
    have h3 := ((hu.settle.settle.settle.config hw.config ha).settle.shared hw (by decide)
      (by decide) he hy).setIrqType type
    refine h3.congr ?_
    rw [Setup.retyped, ← hupdate]
    rfl

end Triggers

/-! ### Runs of calls -/

/-- The call moves the setup of its pin as it may, and leaves those of the others. -/
def Obeys (w : World) (call : Call) (s t : Pads) : Prop := ∀ q < npads,
  if q = call.pin then (setupOf w s q).Moves call (setupOf w t q)
  else setupOf w t q = setupOf w s q

section Obeys
variable {call : Call} {f : Setup → Setup}

theorem obeys_same (h : Same w s t) (hm : ∀ x : Setup, x.Moves call x) : Obeys w call s t := by
  intro q _
  rw [h q]
  split
  · exact hm _
  · rfl

theorem obeys_moved (h : Moved w call.pin f s t)
    (hm : (setupOf w s call.pin).Moves call (f (setupOf w s call.pin))) : Obeys w call s t := by
  intro q _
  rw [h q]
  split
  case isTrue hq => rwa [hq]
  case isFalse => rfl

/-- A pin that cannot have interrupts has no setup. -/
theorem obeys_beyond (hp : ¬ (call.pin : ℕ) < npads) : Obeys w call s s := by
  intro q hq
  have hne : q ≠ call.pin := fun h => hp (h ▸ hq)
  rw [if_neg hne]

end Obeys

theorem obeys (hw : Steady w) (call : Call) (s : Pads) :
    Obeys w call s (call.program.run (Pads.device w) s).2 := by
  cases call with
  | request p => exact obeys_same (same_dnvGpioRequest hw.config).2 fun _ => rfl
  | free p =>
    by_cases hp : (p : ℕ) < npads
    · exact obeys_moved (keeps_map _ (moved_dnvGpioClearTriggering hw hp)).2 rfl
    · have hrun : (Call.free p).program.run (Pads.device w) s = (.ok 0, s) := by
        rw [Call.program, run_map, dnvGpioFree, run_dnvGpioClearTriggering_of_ge hp, andThen_ok]
      rw [hrun]
      exact obeys_beyond hp
  | directionInput p =>
    exact obeys_same (same_dnvGpioDirectionInput hw.config).2 fun _ => rfl
  | directionOutput p val =>
    exact obeys_same (same_dnvGpioDirectionOutput hw.config val).2 fun _ => rfl
  | set p val => exact obeys_same (keeps_map _ (same_dnvGpioSet hw.config val)).2 fun _ => rfl
  | irqSetType p type =>
    by_cases hp : (p : ℕ) < npads
    · exact obeys_moved (moved_dnvIrqSetType hw hp type).2 rfl
    · have hrun : (Call.irqSetType p type).program.run (Pads.device w) s = (.ok (-einval), s) :=
        run_dnvIrqSetType_of_ge hp type
      rw [hrun]
      exact obeys_beyond hp
  | irqAck p =>
    by_cases hp : (p : ℕ) < npads
    · rcases (keeps_map (fun _ => (0 : ℤ)) (moved_dnvIrqAck hw hp)).2 with h | h
      · exact obeys_moved h (.inl rfl)
      · exact obeys_moved h (.inr rfl)
    · have hrun : (Call.irqAck p).program.run (Pads.device w) s = (.ok 0, s) := by
        rw [Call.program, run_map, dnvIrqAck, run_reg, run_mask, run_ite,
          if_pos (.inr (mask_eq_zero _ hp)), run_pure, andThen_ok]
      rw [hrun]
      exact obeys_beyond hp

/-! ### Which trigger a pin has -/

/-- The trigger bits of a type. -/
def edgeOf (type : Word32) : Word32 :=
  if type = irqTypeLevelHigh ∨ type = irqTypeLevelLow then rxevcfgTrigLvl else rxevcfgTrigEdge

def inversionOf (type : Word32) : Word32 :=
  if type = irqTypeEdgeFalling ∨ type = irqTypeLevelLow then rxinv else 0

/-- What a pin is set up for. -/
inductive Purpose
  /-- No interrupt of the driver's; of the other routes, these are left of the firmware's. -/
  | nothing (routes : Word32)
  | trigger (type : Word32)

/-- The other routes of a pin: one that has had a type has none. -/
def Purpose.routes : Purpose → Word32
  | nothing routes => routes
  | trigger _ => 0

/-- What a pin's registers are to be: without a type the pin is neither enabled nor routed by the
driver; with one, the pin is the driver's, it is enabled and routed with the trigger of this type,
and the type is recorded. With both edges, the level of the next one is left open. -/
def Setup.Armed (p : ℕ) (x : Setup) : Purpose → Prop
  | .nothing routes =>
    x.enable = 0 ∧ x.config &&& gpiroutsci = 0 ∧ x.config &&& otherRoutes = routes
  | .trigger type => x.enable = maskOf .gpiGpeEn p ∧ x.padOwn = 0 ∧ x.hostswOwn = 0 ∧
      x.type = type ∧ x.config &&& (gpiroutMask ||| rxevcfgMask) = gpiroutsci ||| edgeOf type ∧
      (type ≠ irqTypeEdgeBoth → x.config &&& rxinv = inversionOf type)

/-- What a pin is for after a call for it: a type that is refused changes nothing. -/
def Call.arm (g : Purpose) : Call → Purpose
  | .free _ => .nothing g.routes
  | .irqSetType _ type =>
    if type &&& irqTypeSenseMask = 0 then .nothing 0
    else if Accepted type then .trigger type else g
  | _ => g

section Armed
variable {x y : Setup} {g : Purpose}

theorem xor_off {x k : Word32} (h : m &&& k = 0) : (x ^^^ m) &&& k = x &&& k := by
  ext i hi
  have hi' : m[i] = true → k[i] = true → False := by
    intro hm hk
    have h' := congrArg (·[i]) h
    simp [hm, hk] at h'
  cases hm : m[i] <;> cases hk : k[i] <;> simp_all

theorem and_or_absorb (x m : Word32) : x &&& m ||| m = m := by
  ext i hi
  cases hm : m[i] <;> simp [hm]

theorem armed_cleared (p : ℕ) (x : Setup) :
    x.freed.Armed p (.nothing (x.config &&& otherRoutes)) :=
  ⟨rfl, not_and_self _ _, and_not_off (by decide)⟩

theorem Setup.Armed.routes (h : x.Armed p g) : x.config &&& otherRoutes = g.routes := by
  cases g with
  | nothing routes => exact h.2.2
  | trigger type =>
    have hsub : otherRoutes = (gpiroutMask ||| rxevcfgMask) &&& otherRoutes := by decide
    have hnone : (gpiroutsci ||| edgeOf type) &&& otherRoutes = 0 := by
      unfold edgeOf
      split <;> decide
    rw [hsub, ← BitVec.and_assoc, h.2.2.2.2.1]
    exact hnone

theorem armed_freed (h : x.Armed p g) : x.freed.Armed p (.nothing g.routes) := by
  rw [← h.routes]
  exact armed_cleared p x

theorem armed_flipped (h : x.Armed p g) : x.flipped.Armed p g := by
  rw [Setup.flipped]
  split
  case isFalse => exact h
  case isTrue hboth =>
    cases g with
    | nothing routes =>
      exact ⟨h.1, (xor_off (by decide)).trans h.2.1, (xor_off (by decide)).trans h.2.2⟩
    | trigger type =>
      obtain ⟨hen, hpad, hhost, htype, hconfig, -⟩ := h
      refine ⟨hen, hpad, hhost, htype, (xor_off (by decide)).trans hconfig, fun hne => ?_⟩
      exact absurd (htype.symm.trans hboth) hne

/-- What the switch makes of a pin without a trigger. -/
theorem triggered_config {c : Word32} (hacc : Accepted type) (hs : type &&& irqTypeSenseMask ≠ 0) :
    ∃ config, triggered type (c &&& ~~~(gpiroutMask ||| rxevcfgMask) ||| gpiroutsci) =
        some config ∧
      config &&& (gpiroutMask ||| rxevcfgMask) = gpiroutsci ||| edgeOf type ∧
      (type ≠ irqTypeEdgeBoth → config &&& rxinv = inversionOf type) := by
  generalize hk : gpiroutMask ||| rxevcfgMask = k
  have hinv : rxinv &&& k = 0 := by rw [← hk]; decide
  have hsci : gpiroutsci &&& k = gpiroutsci := by rw [← hk]; decide
  have hbase : ∀ e, e &&& k = e →
      (c &&& ~~~k ||| gpiroutsci ||| e) &&& k = gpiroutsci ||| e := by
    intro e he
    rw [or_inside he, or_inside hsci, not_and_self]
    exact congrArg (· ||| e) BitVec.zero_or
  have hedge := hbase rxevcfgTrigEdge (by rw [← hk]; decide)
  have hlvl := hbase rxevcfgTrigLvl (by rw [← hk]; decide)
  rcases hacc with h0 | rfl | rfl | rfl | rfl | rfl
  · exact absurd h0 hs
  · exact ⟨_, rfl, (and_not_off hinv).trans hedge, fun _ => not_and_self _ _⟩
  · refine ⟨_, rfl, (or_off hinv).trans hedge, fun _ => ?_⟩
    exact (or_inside (by decide)).trans (and_or_absorb _ _)
  · exact ⟨_, rfl, (xor_off hinv).trans hedge, fun h => absurd rfl h⟩
  · exact ⟨_, rfl, (and_not_off hinv).trans hlvl, fun _ => not_and_self _ _⟩
  · refine ⟨_, rfl, (or_off hinv).trans hlvl, fun _ => ?_⟩
    exact (or_inside (by decide)).trans (and_or_absorb _ _)

theorem armed_retyped (h : x.Armed p g) (type : Word32) (pin : Fin ngpio) :
    (x.retyped p type).Armed p ((Call.irqSetType pin type).arm g) := by
  simp only [Call.arm]
  by_cases hs : type &&& irqTypeSenseMask = 0
  · have hr : retrigger type x.config 0 (maskOf .gpiGpeEn p) =
        some (x.config &&& ~~~(gpiroutMask ||| rxevcfgMask), 0 &&& ~~~maskOf .gpiGpeEn p) :=
      if_neg (not_not.mpr hs)
    have hoff : ∀ m, ~~~(gpiroutMask ||| rxevcfgMask) &&& m = 0#32 →
        x.config &&& ~~~(gpiroutMask ||| rxevcfgMask) &&& m = 0 := fun m hm => by
      rw [BitVec.and_assoc, hm]
      exact BitVec.and_zero
    rw [if_pos hs, Setup.retyped, hr]
    exact ⟨BitVec.zero_and, hoff _ (by decide), hoff _ (by decide)⟩
  · have hr : retrigger type x.config 0 (maskOf .gpiGpeEn p) =
        (triggered type (x.config &&& ~~~(gpiroutMask ||| rxevcfgMask) ||| gpiroutsci)).map
          (·, 0 ||| maskOf .gpiGpeEn p) := if_pos hs
    rw [if_neg hs, Setup.retyped, hr]
    by_cases hacc : Accepted type
    · obtain ⟨config, hconfig, hroute, hinv⟩ := triggered_config (c := x.config) hacc hs
      rw [if_pos hacc, hconfig]
      exact ⟨BitVec.zero_or, rfl, rfl, rfl, hroute, hinv⟩
    · have hnone : triggered type
          (x.config &&& ~~~(gpiroutMask ||| rxevcfgMask) ||| gpiroutsci) = none :=
        Option.not_isSome_iff_eq_none.mp fun hsome => hacc ((isSome_triggered hs _).mp hsome)
      rw [if_neg hacc, hnone]
      cases g with
      | nothing routes => exact h
      | trigger type' => exact ⟨h.1, rfl, rfl, h.2.2.2⟩

theorem armed_moves {call : Call} (h : x.Armed call.pin g) (hm : x.Moves call y) :
    y.Armed call.pin (call.arm g) := by
  cases call with
  | free p =>
    obtain rfl : y = x.freed := hm
    exact armed_freed h
  | irqSetType p type =>
    obtain rfl : y = x.retyped p type := hm
    exact armed_retyped h type p
  | irqAck p =>
    rcases hm with rfl | rfl
    · exact h
    · exact armed_flipped h
  | _ =>
    obtain rfl : y = x := hm
    exact h

end Armed

/-! ### From the probe on -/

theorem run_rangePin (w : World) (s : Pads) (gpi : ℕ) :
    ∃ x, (rangePin gpi).run (Pads.device w) s = (.ok x, s) := by
  rw [rangePin]
  cases regTypes[gpi]? with
  | none => exact ⟨_, rfl⟩
  | some reg => exact ⟨_, rfl⟩

theorem run_dnvGpioRangeInit (w : World) (s : Pads) :
    ∃ pins, dnvGpioRangeInit.run (Pads.device w) s = (.ok pins, s) := by
  rw [dnvGpioRangeInit]
  induction List.range ngpio with
  | nil => exact ⟨[], rfl⟩
  | cons gpi gpis ih =>
    obtain ⟨x, hx⟩ := run_rangePin w s gpi
    obtain ⟨pins, hpins⟩ := ih
    refine ⟨x :: pins, ?_⟩
    rw [List.mapM_cons, run_bind, hx, andThen_ok, run_bind, hpins]
    rfl

/-- No entry of the range is below zero: the trigger of every pin is cleared. -/
theorem run_initPin (pins : List Word32) (gpi : ℕ) :
    (initPin pins gpi).run (Pads.device w) s =
      (dnvGpioClearTriggering gpi).run (Pads.device w) s := by
  have hneg : ¬ pins.getD gpi 0 < 0 := Nat.not_lt_zero _
  rw [initPin, run_ite, if_neg hneg]

/-- The probe of a device that has an interrupt. -/
theorem run_probePads (hw : Steady w) (s : Pads) {irqRc : Option ℕ} (hirq : irqRc.getD 0 ≠ 0) :
    ∃ t, (probePads irqRc).run (Pads.device w) s = (.ok (), t) ∧
      ∀ q < npads, setupOf w t q = (setupOf w s q).freed := by
  obtain ⟨pins, hpins⟩ := run_dnvGpioRangeInit w s
  rw [probePads, run_bind, hpins, andThen_ok, run_ite, if_pos hirq]
  obtain ⟨t, hrun, ht⟩ : ∃ t, (dnvGpioIrqInitHw pins).run (Pads.device w) s = (.ok (), t) ∧
      ∀ q, setupOf w t q = if q < npads then (setupOf w s q).freed else setupOf w s q := by
    refine run_forM_range (J := fun n t => ∀ q, setupOf w t q =
      if q < n then (setupOf w s q).freed else setupOf w s q) (fun q => rfl) fun i hi t ht => ?_
    obtain ⟨u, hu, -⟩ := run_dnvGpioClearTriggering (w := w) (s := t) hi
    refine ⟨u, (run_initPin pins i).trans hu, fun q => ?_⟩
    have hmoved := (moved_dnvGpioClearTriggering hw hi (s := t)).2 q
    rw [hu] at hmoved
    rw [hmoved, ht q]
    by_cases hq : q = i
    · rw [if_pos hq, if_neg (by omega), if_pos (by omega)]
    · rw [if_neg hq]
      exact if_congr (by omega) rfl rfl
  exact ⟨t, hrun, fun q hq => (ht q).trans (if_pos hq)⟩

/-- The pads, and what each pin is for. -/
def Call.typed (w : World) (x : Pads × (Fin ngpio → Purpose)) (call : Call) :
    Pads × (Fin ngpio → Purpose) :=
  ((call.program.run (Pads.device w) x.1).2,
    Function.update x.2 call.pin (call.arm (x.2 call.pin)))

/-- Nothing is for interrupts yet, but what the firmware has routed otherwise stays. -/
def untyped (w : World) (s : Pads) (p : Fin ngpio) : Purpose :=
  .nothing ((setupOf w s p).config &&& otherRoutes)

theorem armed_step (hw : Steady w) {x : Pads × (Fin ngpio → Purpose)}
    (hx : ∀ p : Fin ngpio, (p : ℕ) < npads → (setupOf w x.1 p).Armed p (x.2 p)) (call : Call) :
    ∀ p : Fin ngpio, (p : ℕ) < npads →
      (setupOf w (call.typed w x).1 p).Armed p ((call.typed w x).2 p) := by
  intro p hp
  have ho := obeys hw call x.1 p hp
  simp only [Call.typed]
  by_cases hpin : p = call.pin
  · subst hpin
    rw [if_pos rfl] at ho
    rw [Function.update_self]
    exact armed_moves (hx _ hp) ho
  · rw [if_neg fun h => hpin (Fin.ext h)] at ho
    rw [Function.update_of_ne hpin, ho]
    exact hx p hp

/-- Whatever the firmware has left in the registers of a device with an interrupt, after the probe
and any calls each pin is set up for the type that it was given last, and if it was freed since or
never had one, it is neither enabled nor routed to the SCI. The next call leaves the setup of every
other pin as it is. -/
theorem armed_of_run (hw : Steady w) (s : Pads) {irqRc : Option ℕ} (hirq : irqRc.getD 0 ≠ 0)
    (calls : List Call) :
    let x := calls.foldl (Call.typed w)
      (((probePads irqRc).run (Pads.device w) s).2, untyped w s)
    (∀ p : Fin ngpio, (p : ℕ) < npads → (setupOf w x.1 p).Armed p (x.2 p)) ∧
      ∀ (call : Call) (p : Fin ngpio), (p : ℕ) < npads → p ≠ call.pin →
        setupOf w (call.typed w x).1 p = setupOf w x.1 p := by
  obtain ⟨t, ht, hfreed⟩ := run_probePads hw s hirq
  intro x
  constructor
  · suffices h : ∀ x : Pads × (Fin ngpio → Purpose),
        (∀ p : Fin ngpio, (p : ℕ) < npads → (setupOf w x.1 p).Armed p (x.2 p)) →
        ∀ p : Fin ngpio, (p : ℕ) < npads →
          (setupOf w (calls.foldl (Call.typed w) x).1 p).Armed p
            ((calls.foldl (Call.typed w) x).2 p) by
      refine h _ fun p hp => ?_
      rw [ht, hfreed p hp]
      exact armed_cleared p _
    clear x
    induction calls with
    | nil => exact fun x hx => hx
    | cons call calls ih => exact fun x hx => ih _ (armed_step hw hx call)
  · intro call p hp hne
    have ho := obeys hw call x.1 p hp
    rwa [if_neg fun h => hne (Fin.ext h)] at ho

/-- The hardware moves the inputs, and everything in the status registers. -/
def steadyBoard : World where
  driven a := if Status a then ~~~0 else if a % 0x10000 < 0x400 then 0 else rxstate
  beyond _ i := i
  stray _ := none

theorem low_of_address (hc : ¬ Config reg) (ha : address? reg p = some a) :
    a % 0x10000 < 0x400 := by
  by_contra hlow
  have hg := groupOf_address ha
  rw [groupOf_config (by omega)] at hg
  split at hg
  · exact hc (.inl hg.symm)
  · exact hc (.inr hg.symm)

theorem steady_board : Steady steadyBoard where
  config p a ha := by
    obtain ⟨-, hlow⟩ := aligned_dw0 p (lt_of_address ha) a ha
    simp only [steadyBoard, if_neg (not_status (by decide) ha), if_neg (Nat.not_lt.mpr hlow)]
  shared reg p a ha hc hr := by
    simp only [steadyBoard, if_neg (not_status hr ha), if_pos (low_of_address hc ha)]

/-- Pin 5 is to see both edges; its neighbour had a level for a while. -/
def typeFive : List Call :=
  [.irqSetType (pinOf 5) irqTypeEdgeBoth, .irqSetType (pinOf 4) irqTypeLevelLow,
    .directionOutput (pinOf 5) true, .irqAck (pinOf 5), .free (pinOf 4),
    .irqSetType (pinOf 5) 0xb]

theorem armed_typeFive :
    let x := typeFive.foldl (Call.typed steadyBoard)
      (((probePads (some 14)).run (Pads.device steadyBoard) noisy).2, untyped steadyBoard noisy)
    (setupOf steadyBoard x.1 5).Armed 5 (.trigger irqTypeEdgeBoth) ∧
      (setupOf steadyBoard x.1 4).Armed 4 (.nothing 0) ∧
      setupOf steadyBoard ((Call.free (pinOf 4)).typed steadyBoard x).1 5 =
        setupOf steadyBoard x.1 5 := by
  have hirq : (some 14 : Option ℕ).getD 0 ≠ 0 := by decide
  have h := armed_of_run steady_board noisy hirq typeFive
  exact ⟨h.1 (pinOf 5) (by decide), h.1 (pinOf 4) (by decide),
    h.2 (.free (pinOf 4)) (pinOf 5) (by decide) (by decide)⟩

end BuffaloNas.Dnv
