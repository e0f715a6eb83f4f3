import BuffaloNas.Dnv.Suspend
import Mathlib.Tactic.Set

/-! How a Denverton pin is set up for interrupts, and how it is cleared of them. -/
namespace BuffaloNas.Dnv
open Interaction Program

variable {w : World} {s : Pads} {mem mem' mem'' : Memory} {regs : List RegType}
  {reg reg' : RegType} {p q a b : ℕ} {m val type : Word32} {α : Type}

/-! ### Clearing bits of a pin -/

theorem peek_poke_group (hne : reg' ≠ reg) :
    peek (poke mem reg p val) reg' q = peek mem reg' q :=
  peek_poke_of_ne fun _ _ ha hb => ne_of_group hne hb ha

/-- The pin's bits of a register cleared. -/
def unset (reg : RegType) (p : ℕ) (mem : Memory) : Memory :=
  poke mem reg p (peek mem reg p &&& ~~~maskOf reg p)

theorem and_not_eq_self {x m : Word32} : x &&& ~~~m = x ↔ x &&& m = 0 := by
  change x &&& ~~~m = x ↔ x &&& m = 0#32
  have hbit : ∀ a b : Bool, (a && !b) = a ↔ (a && b) = false := by decide
  simp only [BitVec.eq_of_getElem_eq_iff, BitVec.getElem_and, BitVec.getElem_not,
    BitVec.getElem_zero, hbit]

theorem or_and_not (x m : Word32) : (x ||| m) &&& ~~~m = x &&& ~~~m := by
  ext i hi
  cases hm : m[i] <;> simp [hm]

theorem unset_eq_self_iff : unset reg p mem = mem ↔ peek mem reg p &&& maskOf reg p = 0 := by
  rw [← and_not_eq_self]
  cases ha : address? reg p with
  | none => simp [unset, poke, peek, ha]
  | some a => rw [unset, poke_eq ha, peek_eq ha, Function.update_eq_self_iff]

theorem peek_unset_self : peek (unset reg p mem) reg p = peek mem reg p &&& ~~~maskOf reg p := by
  cases ha : address? reg p with
  | none => simp [peek, ha]
  | some a => rw [unset, peek_poke_self (by simp [ha])]

theorem peek_unset_group (hne : reg' ≠ reg) :
    peek (unset reg p mem) reg' q = peek mem reg' q := peek_poke_group hne

/-! ### What the driver does to a register -/

/-- The bits that the hardware leaves to the driver. -/
def Pads.own (w : World) (s : Pads) : Memory := fun a => s.mem a &&& ~~~w.driven a

theorem own_settle : (s.settle w).own w = s.own w := by
  funext a
  exact masked_driven _ _ _

theorem own_update (s : Pads) (a : ℕ) (val : Word32) :
    Pads.own w { s with mem := Function.update s.mem a val } =
      Function.update (s.own w) a (val &&& ~~~w.driven a) := by
  funext b
  simp only [Pads.own]
  by_cases hb : b = a
  · subst hb
    rw [Function.update_self, Function.update_self]
  · rw [Function.update_of_ne hb, Function.update_of_ne hb, Pads.own]

theorem own_store (h : ¬ Status a) (val : Word32) :
    (s.store a val).own w = Function.update (s.own w) a (val &&& ~~~w.driven a) := by
  rw [Pads.store, own_update, if_neg h]

theorem own_store_status (h : Status a) (val : Word32) :
    (s.store a val).own w = Function.update (s.own w) a (s.own w a &&& ~~~val) := by
  rw [Pads.store, own_update, if_pos h, Pads.own, BitVec.and_assoc, BitVec.and_comm (~~~val),
    ← BitVec.and_assoc]

/-- Some bits of a register are cleared, by a read and a write. -/
def Pads.clear (w : World) (s : Pads) (a : ℕ) (m : Word32) : Pads :=
  ((s.settle w).settle w).store a ((s.settle w).mem a &&& ~~~m)

theorem run_clear {k : Unit → Mmio α} :
    (do let val ← readl (some a)
        writel (val &&& ~~~m) (some a) >>= k).run (Pads.device w) s =
      (k ()).run (Pads.device w) (s.clear w a m) := by
  rw [run_bind, run_readl, andThen_ok, run_bind, run_writel, andThen_ok]
  rfl

theorem read_own (s : Pads) (a : ℕ) (m : Word32) :
    (s.settle w).mem a &&& ~~~m &&& ~~~w.driven a = s.own w a &&& ~~~m := by
  rw [← own_settle, Pads.own, BitVec.and_assoc, BitVec.and_assoc, BitVec.and_comm (~~~m)]

theorem own_clear (h : ¬ Status a) :
    (s.clear w a m).own w = Function.update (s.own w) a (s.own w a &&& ~~~m) := by
  rw [Pads.clear, own_store h, own_settle, own_settle, read_own]

theorem own_clear_mask (hr : reg ≠ .gpiGpeSts) (ha : address? reg p = some a) :
    (s.clear w a (maskOf reg p)).own w = unset reg p (s.own w) := by
  rw [own_clear (not_status hr ha), unset, poke_eq ha, peek_eq ha]

/-! ### `dnv_irq_set_type` -/

/-- The words without a trigger, and those that the switch knows. -/
def Accepted (type : Word32) : Prop :=
  type &&& irqTypeSenseMask = 0 ∨ type = irqTypeEdgeRising ∨ type = irqTypeEdgeFalling ∨
    type = irqTypeEdgeBoth ∨ type = irqTypeLevelHigh ∨ type = irqTypeLevelLow

instance (type : Word32) : Decidable (Accepted type) := inferInstanceAs (Decidable (_ ∨ _))

theorem isSome_triggered (hs : type &&& irqTypeSenseMask ≠ 0) (x : Word32) :
    (triggered type x).isSome ↔ Accepted type := by
  rw [Accepted, or_iff_right hs, triggered]
  split_ifs <;> simp [*]

theorem isSome_retrigger (type dw0 gpeEn enmask : Word32) :
    (retrigger type dw0 gpeEn enmask).isSome ↔ Accepted type := by
  simp only [retrigger]
  split
  case isTrue hs => rw [Option.isSome_map, isSome_triggered hs]
  case isFalse hs => exact ⟨fun _ => Or.inl (not_not.mp hs), fun _ => rfl⟩

/-- The enable bits of the other pins are written as they were read. -/
theorem enable_retrigger {dw0 gpeEn enmask x y : Word32}
    (h : retrigger type dw0 gpeEn enmask = some (x, y)) :
    y &&& ~~~enmask = gpeEn &&& ~~~enmask := by
  rcases retrigger_eq_some h with ⟨-, rfl⟩ | ⟨-, rfl⟩
  · exact or_and_not _ _
  · rw [BitVec.and_assoc, BitVec.and_self]

/-- The bits of a register that belong to the pin. -/
def RegType.bits (reg : RegType) (p : ℕ) : Word32 := if Config reg then ~~~0 else maskOf reg p

/-- `mem'` differs from `mem` in nothing but the pin's bits of these registers. -/
structure OnlyPin (regs : List RegType) (p : ℕ) (mem mem' : Memory) : Prop where
  others : ∀ a, (∀ reg ∈ regs, address? reg p ≠ some a) → mem' a = mem a
  rest : ∀ reg ∈ regs, ∀ a, address? reg p = some a →
    mem' a &&& ~~~reg.bits p = mem a &&& ~~~reg.bits p

theorem OnlyPin.trans (h : OnlyPin regs p mem mem') (h' : OnlyPin regs p mem' mem'') :
    OnlyPin regs p mem mem'' := by
  constructor
  · intro a ha
    exact (h'.others a ha).trans (h.others a ha)
  · intro reg hr a ha
    exact (h'.rest reg hr a ha).trans (h.rest reg hr a ha)

theorem onlyPin_update (hr : reg ∈ regs) (ha : address? reg p = some a)
    (hv : val &&& ~~~reg.bits p = mem a &&& ~~~reg.bits p) :
    OnlyPin regs p mem (Function.update mem a val) := by
  constructor
  · intro b hb
    have hne : b ≠ a := by
      rintro rfl
      exact hb reg hr ha
    exact Function.update_of_ne hne ..
  · intro reg' hr' b hb
    by_cases he : b = a
    · subst he
      obtain rfl : reg = reg' := (groupOf_address ha).symm.trans (groupOf_address hb)
      rw [Function.update_self, hv]
    · rw [Function.update_of_ne he]

theorem onlyPin_unset (hc : ¬ Config reg) (hr : reg ∈ regs) :
    OnlyPin regs p mem (unset reg p mem) := by
  rw [unset]
  cases ha : address? reg p with
  | none =>
    simp only [poke, ha]
    exact ⟨fun _ _ => rfl, fun _ _ _ _ => rfl⟩
  | some a =>
    rw [poke_eq ha, peek_eq ha]
    refine onlyPin_update hr ha ?_
    rw [RegType.bits, if_neg hc, BitVec.and_assoc, BitVec.and_self]

/-- The pin is taken over from the firmware: this comes before the switch. -/
def takenOver (p : ℕ) (mem : Memory) : Memory := unset .hostswOwn p (unset .padOwn p mem)

theorem takenOver_eq_self_iff : takenOver p mem = mem ↔
    peek mem .padOwn p &&& maskOf .padOwn p = 0 ∧
      peek mem .hostswOwn p &&& maskOf .hostswOwn p = 0 := by
  rw [← unset_eq_self_iff, ← unset_eq_self_iff]
  constructor
  · intro h
    have hpad : unset .padOwn p mem = mem := by
      have hpeek : peek (takenOver p mem) .padOwn p = peek mem .padOwn p := by rw [h]
      rw [takenOver, peek_unset_group (by decide), peek_unset_self] at hpeek
      exact unset_eq_self_iff.mpr (and_not_eq_self.mp hpeek)
    rw [takenOver, hpad] at h
    exact ⟨hpad, h⟩
  · rintro ⟨hpad, hhost⟩
    rw [takenOver, hpad, hhost]

/-- The registers that the function writes. -/
def setTypeRegs : List RegType := [.padOwn, .hostswOwn, .padCfgDw0, .gpiGpeEn]

theorem onlyPin_takenOver : OnlyPin setTypeRegs p mem (takenOver p mem) :=
  (onlyPin_unset (by decide) (by decide)).trans (onlyPin_unset (by decide) (by decide))

/-- The last two writes: a register of the pin's own, and one whose other bits were read before. -/
theorem onlyPin_retrigger {v : Pads} {x y : Word32} (ha : address? .padCfgDw0 p = some a)
    (hb : address? .gpiGpeEn p = some b)
    (hy : y &&& ~~~maskOf .gpiGpeEn p = v.mem b &&& ~~~maskOf .gpiGpeEn p) :
    OnlyPin setTypeRegs p (v.own w)
      (((((v.settle w).store a x).settle w).store b y).own w) := by
  rw [own_store (not_status (by decide) hb), own_settle,
    own_store (not_status (by decide) ha), own_settle]
  have hne : b ≠ a := ne_of_group (by decide) hb ha
  refine (onlyPin_update (by decide) ha ?_).trans (onlyPin_update (by decide) hb ?_)
  · have hall : ~~~(RegType.bits .padCfgDw0 p) = 0#32 := by
      rw [RegType.bits, if_pos (by decide)]
      decide
    rw [hall, BitVec.and_zero, BitVec.and_zero]
  · rw [Function.update_of_ne hne, RegType.bits, if_neg (by decide), Pads.own]
    calc y &&& ~~~w.driven b &&& ~~~maskOf .gpiGpeEn p
      _ = y &&& ~~~maskOf .gpiGpeEn p &&& ~~~w.driven b := by ac_rfl
      _ = v.mem b &&& ~~~maskOf .gpiGpeEn p &&& ~~~w.driven b := by rw [hy]
      _ = v.mem b &&& ~~~w.driven b &&& ~~~maskOf .gpiGpeEn p := by ac_rfl

/-- A pin that has the shared registers is taken over; then the type is looked at. -/
theorem run_dnvIrqSetType (hp : p < npads) (type : Word32) :
    ∃ t, (dnvIrqSetType p type).run (Pads.device w) s =
        (.ok (if Accepted type then 0 else -einval), t) ∧
      (¬ Accepted type → t.own w = takenOver p (s.own w) ∧ t.irqType = s.irqType) ∧
      (Accepted type → OnlyPin setTypeRegs p (takenOver p (s.own w)) (t.own w) ∧
        t.irqType = Function.update s.irqType p type) := by
  obtain ⟨a, ha⟩ := exists_of_lt hp .padCfgDw0
  obtain ⟨b, hb⟩ := exists_of_lt hp .padOwn
  obtain ⟨d, hd⟩ := exists_of_lt hp .hostswOwn
  obtain ⟨e, he⟩ := exists_of_lt hp .gpiGpeEn
  have hen : maskOf .gpiGpeEn p ≠ 0 := mask_ne_zero (by decide) hp
  have hhost : maskOf .hostswOwn p ≠ 0 := mask_ne_zero (by decide) hp
  have hpad : maskOf .padOwn p ≠ 0 := mask_ne_zero (by decide) hp
  have hmask : ¬ (some a = none ∨ some e = none ∨ some b = none ∨ maskOf .gpiGpeEn p = 0 ∨
      maskOf .hostswOwn p = 0 ∨ maskOf .padOwn p = 0) := by
    rintro (h | h | h | h | h | h)
    · cases h
    · cases h
    · cases h
    · exact hen h
    · exact hhost h
    · exact hpad h
  rw [dnvIrqSetType, run_reg, run_reg, run_reg, run_reg, run_mask, run_mask, run_mask, ha, hb, hd,
    he, run_ite, if_neg hmask, run_lock, run_clear, run_clear]
  set u := (s.clear w b (maskOf .padOwn p)).clear w d (maskOf .hostswOwn p) with hu
  have hown : u.own w = takenOver p (s.own w) := by
    rw [hu, own_clear_mask (by decide) hd, own_clear_mask (by decide) hb, takenOver]
  rw [run_bind, run_readl, andThen_ok, run_bind, run_readl, andThen_ok]
  set v := (u.settle w).settle w with hv
  have hvown : v.own w = takenOver p (s.own w) := by rw [hv, own_settle, own_settle, hown]
  extract_lets update
  have haccepted : update.isSome ↔ Accepted type := isSome_retrigger ..
  have henable : ∀ x y, update = some (x, y) →
      y &&& ~~~maskOf .gpiGpeEn p = v.mem e &&& ~~~maskOf .gpiGpeEn p :=
    fun _ _ hxy => enable_retrigger hxy
  clear_value update
  rcases update with - | ⟨x, y⟩
  · have hn : ¬ Accepted type := fun h => by cases haccepted.mpr h
    refine ⟨v, ?_, fun _ => ⟨hvown, rfl⟩, fun h => absurd h hn⟩
    rw [run_bind, run_perform, if_neg hn]
    rfl
  · have hacc := haccepted.mp rfl
    have honly := onlyPin_retrigger (w := w) (x := x) ha he (henable x y rfl)
    rw [hvown] at honly
    refine ⟨{ (((v.settle w).store a x).settle w).store e y with
      irqType := Function.update s.irqType p type }, ?_, fun h => absurd hacc h,
      fun _ => ⟨honly, rfl⟩⟩
    rw [run_bind, run_writel, andThen_ok, run_bind, run_writel, andThen_ok, if_pos hacc]
    rfl

theorem run_dnvIrqSetType_of_ge (hp : ¬ p < npads) (type : Word32) :
    (dnvIrqSetType p type).run (Pads.device w) s = (.ok (-einval), s) := by
  rw [dnvIrqSetType, run_reg, run_reg, run_reg, run_reg, run_mask, run_mask, run_mask, run_ite,
    if_pos, run_pure]
  exact Or.inr (Or.inr (Or.inr (Or.inl (mask_eq_zero _ hp))))

/-- An error leaves the registers and the recorded types; a success changes what is the pin's. -/
def Atomic (w : World) (p : ℕ) (s : Pads) (r : Except Fault ℤ × Pads) : Prop :=
  (r.1 = .ok (-einval) → r.2.own w = s.own w ∧ r.2.irqType = s.irqType) ∧
    (r.1 = .ok 0 → OnlyPin setTypeRegs p (s.own w) (r.2.own w) ∧
      ∀ q, q ≠ p → r.2.irqType q = s.irqType q)

/-- A type that is refused in the switch is atomic only where the pin is the driver's already. -/
theorem atomic_iff (w : World) (s : Pads) (p : ℕ) (type : Word32) :
    Atomic w p s ((dnvIrqSetType p type).run (Pads.device w) s) ↔
      (p < npads → Accepted type ∨ peek (s.own w) .padOwn p &&& maskOf .padOwn p = 0 ∧
        peek (s.own w) .hostswOwn p &&& maskOf .hostswOwn p = 0) := by
  by_cases hp : p < npads
  · obtain ⟨t, hrun, hrefused, hdone⟩ := run_dnvIrqSetType (w := w) (s := s) hp type
    rw [hrun, Atomic, ← takenOver_eq_self_iff]
    by_cases hacc : Accepted type
    · obtain ⟨honly, hirq⟩ := hdone hacc
      rw [if_pos hacc]
      constructor
      · intro _ _
        exact Or.inl hacc
      · intro _
        refine ⟨fun h => ?_, fun _ => ⟨onlyPin_takenOver.trans honly, fun q hq => ?_⟩⟩
        · cases h
        · rw [hirq, Function.update_of_ne hq]
    · obtain ⟨hown, hirq⟩ := hrefused hacc
      rw [if_neg hacc]
      constructor
      · intro h _
        exact Or.inr (hown.symm.trans (h.1 rfl).1)
      · intro h
        have htaken := (h hp).resolve_left hacc
        refine ⟨fun _ => ⟨hown.trans htaken, hirq⟩, fun hok => ?_⟩
        cases hok
  · rw [run_dnvIrqSetType_of_ge hp, Atomic]
    constructor
    · intro _ h
      exact absurd h hp
    · intro _
      refine ⟨fun _ => ⟨rfl, rfl⟩, fun h => ?_⟩
      cases h

/-- Every pad belongs to the firmware. -/
def firmwares : Pads where
  mem _ := ~~~0
  noise _ _ := 0
  irqType _ := 0
  conf0 _ := 0
  conf1 _ := 0

/-- Both edges and a low level at once are refused, after pin 0 has been taken over. -/
theorem not_atomic_firmwares : ¬ Atomic (plain (fun _ _ => 0) fun _ => none) 0 firmwares
    ((dnvIrqSetType 0 0xb).run (Pads.device (plain (fun _ _ => 0) fun _ => none)) firmwares) := by
  have hp : 0 < npads := by decide
  obtain ⟨t, hrun, hrefused, -⟩ := run_dnvIrqSetType
    (w := plain (fun _ _ => 0) fun _ => none) (s := firmwares) hp 0xb
  have hn : ¬ Accepted 0xb := by decide
  rw [hrun, Atomic, if_neg hn]
  intro h
  have htaken := takenOver_eq_self_iff.mp ((hrefused hn).1.symm.trans (h.1 rfl).1)
  revert htaken
  decide

/-! ### `dnv_gpio_clear_triggering` -/

/-- What a pin has in the way of interrupts. -/
@[ext]
structure Trigger where
  routing : Word32
  enable : Word32
  status : Word32

def triggerOf (mem : Memory) (p : ℕ) : Trigger where
  routing := peek mem .padCfgDw0 p &&& gpiroutMask
  enable := peek mem .gpiGpeEn p &&& maskOf .gpiGpeEn p
  status := peek mem .gpiGpeSts p &&& maskOf .gpiGpeSts p

/-- The routes that the driver does not clear: it takes back `gpiroutsci` alone. -/
def otherRoutes : Word32 := gpiroutMask &&& ~~~gpiroutsci

/-- The pin has no interrupt any more, and the others have theirs. -/
def Clears (p : ℕ) (mem mem' : Memory) : Prop :=
  triggerOf mem' p = ⟨0, 0, 0⟩ ∧ ∀ q, q ≠ p → triggerOf mem' q = triggerOf mem q

/-- The registers afterwards: the pending bits of a whole status register are gone. -/
def cleared (p : ℕ) (mem : Memory) : Memory :=
  poke (unset .gpiGpeEn p (poke mem .padCfgDw0 p (peek mem .padCfgDw0 p &&& ~~~gpiroutsci)))
    .gpiGpeSts p 0

theorem and_not_or (x m n : Word32) : x &&& ~~~n &&& ~~~(x ||| m) = 0 := by
  ext i hi
  cases hx : x[i] <;> simp [hx]

theorem run_dnvGpioClearTriggering (hp : p < npads) :
    ∃ t, (dnvGpioClearTriggering p).run (Pads.device w) s = (.ok (), t) ∧
      t.own w = cleared p (s.own w) := by
  obtain ⟨a, ha⟩ := exists_of_lt hp .padCfgDw0
  obtain ⟨b, hb⟩ := exists_of_lt hp .gpiGpeEn
  obtain ⟨d, hd⟩ := exists_of_lt hp .gpiGpeSts
  have hsome : ∀ a : ℕ, some a ≠ none := fun a h => by cases h
  set u := (s.clear w a gpiroutsci).clear w b (maskOf .gpiGpeEn p) with hu
  refine ⟨((u.settle w).settle w).store d ((u.settle w).mem d ||| maskOf .gpiGpeEn p), ?_, ?_⟩
  · rw [dnvGpioClearTriggering, run_reg, run_mask, ha, run_ite,
      if_neg (not_refused (by decide) hp), run_lock, run_clear, run_reg, hb, run_ite, if_pos (hsome b)]
    rw [run_clear, run_reg, hd, run_ite, if_pos (hsome d), run_bind, run_readl, andThen_ok,
      run_bind, run_writel, andThen_ok, run_perform]
    rfl
  · have hown : u.own w = unset .gpiGpeEn p
        (poke (s.own w) .padCfgDw0 p (peek (s.own w) .padCfgDw0 p &&& ~~~gpiroutsci)) := by
      rw [hu, own_clear_mask (by decide) hb, own_clear (not_status (by decide) ha),
        poke_eq ha, peek_eq ha]
    have hzero : ((u.settle w).settle w).own w d &&&
        ~~~((u.settle w).mem d ||| maskOf .gpiGpeEn p) = 0 := by
      rw [own_settle, Pads.own, and_not_or]
    rw [own_store_status ((status_iff hd).mpr rfl), hzero, own_settle, own_settle, hown, cleared,
      poke_eq hd]

theorem run_dnvGpioClearTriggering_of_ge (hp : ¬ p < npads) :
    (dnvGpioClearTriggering p).run (Pads.device w) s = (.ok (), s) := by
  rw [dnvGpioClearTriggering, run_reg, run_mask, run_ite, if_pos (Or.inr (mask_eq_zero _ hp)),
    run_pure]

/-- Pins that share an enable register have bits of their own in it. -/
theorem disjoint_masks : ∀ p < npads, ∀ q < npads, q ≠ p →
    address? .gpiGpeEn q = address? .gpiGpeEn p →
      ~~~maskOf .gpiGpeEn p &&& maskOf .gpiGpeEn q = maskOf .gpiGpeEn q := by
  decide +kernel

theorem not_and_self (x m : Word32) : x &&& ~~~m &&& m = 0 := by
  ext i hi
  cases hm : m[i] <;> simp [hm]

/-- A register is seen by all the pins that share it. -/
theorem peek_poke_shared (ha : address? reg p = some a) (hb : address? reg q = some b) :
    peek (poke mem reg p val) reg q = if b = a then val else peek mem reg q := by
  rw [peek_eq hb, peek_eq hb, poke_eq ha, Function.update_apply]

/-- No other pin sees the bits of a pin cleared. -/
theorem unset_other (hq : q ≠ p) :
    peek (unset .gpiGpeEn p mem) .gpiGpeEn q &&& maskOf .gpiGpeEn q =
      peek mem .gpiGpeEn q &&& maskOf .gpiGpeEn q := by
  cases hb : address? .gpiGpeEn q with
  | none => simp only [peek, hb, Option.map_none]
  | some b =>
    cases ha : address? .gpiGpeEn p with
    | none => simp only [unset, poke, ha]
    | some a =>
      rw [unset, peek_poke_shared ha hb]
      split
      case isTrue h =>
        have hshared : address? .gpiGpeEn q = address? .gpiGpeEn p := by rw [ha, hb, h]
        rw [peek_eq ha, peek_eq hb, h, BitVec.and_assoc,
          disjoint_masks p (lt_of_address ha) q (lt_of_address hb) hq hshared]
      case isFalse => rfl

section Cleared
variable (hp : p < npads)
include hp

theorem routing_cleared : (triggerOf (cleared p mem) q).routing =
    if q = p then peek mem .padCfgDw0 p &&& otherRoutes else (triggerOf mem q).routing := by
  simp only [triggerOf, cleared]
  rw [peek_poke_group (by decide), peek_unset_group (by decide)]
  by_cases hq : q = p
  · subst hq
    rw [if_pos rfl, peek_poke_self (isSome_of_lt _ q hp), otherRoutes, BitVec.and_assoc,
      BitVec.and_comm gpiroutMask]
  · rw [if_neg hq, peek_poke_ne (Or.inl rfl) fun _ => hq]

omit hp in
theorem enable_cleared : (triggerOf (cleared p mem) q).enable =
    if q = p then 0 else (triggerOf mem q).enable := by
  simp only [triggerOf, cleared]
  rw [peek_poke_group (by decide)]
  by_cases hq : q = p
  · subst hq
    rw [if_pos rfl, peek_unset_self, not_and_self]
  · rw [if_neg hq, unset_other hq, peek_poke_group (by decide)]

/-- Every pin of the status register loses its pending bit. -/
theorem status_cleared : (triggerOf (cleared p mem) q).status =
    if address? .gpiGpeSts q = address? .gpiGpeSts p then 0 else (triggerOf mem q).status := by
  obtain ⟨a, ha⟩ := exists_of_lt hp .gpiGpeSts
  simp only [triggerOf, cleared]
  rw [ha]
  cases hb : address? .gpiGpeSts q with
  | none =>
    rw [if_neg fun h => by cases h]
    simp only [peek, hb, Option.map_none]
  | some b =>
    rw [peek_poke_shared ha hb, peek_unset_group (by decide), peek_poke_group (by decide)]
    by_cases hba : b = a
    · rw [if_pos hba, if_pos (congrArg some hba)]
      exact BitVec.zero_and
    · rw [if_neg hba, if_neg fun h => hba (Option.some.inj h)]

/-- The pin must have no other route, and the others keep their interrupts as long as none is
pending in the pin's status register. -/
theorem clears_cleared_iff : Clears p mem (cleared p mem) ↔
    peek mem .padCfgDw0 p &&& otherRoutes = 0 ∧
      ∀ q, q ≠ p → address? .gpiGpeSts q = address? .gpiGpeSts p →
        (triggerOf mem q).status = 0 := by
  have hrouting : (triggerOf (cleared p mem) p).routing =
      peek mem .padCfgDw0 p &&& otherRoutes := by
    rw [routing_cleared hp, if_pos rfl]
  constructor
  · intro h
    refine ⟨?_, fun q hq hshared => ?_⟩
    · rw [← hrouting, h.1]
    · rw [← h.2 q hq, status_cleared hp, if_pos hshared]
  · rintro ⟨hroutes, h⟩
    refine ⟨Trigger.ext ?_ ?_ ?_, fun q hq => Trigger.ext ?_ ?_ ?_⟩
    · rw [hrouting, hroutes]
    · rw [enable_cleared, if_pos rfl]
    · rw [status_cleared hp, if_pos rfl]
    · rw [routing_cleared hp, if_neg hq]
    · rw [enable_cleared, if_neg hq]
    · rw [status_cleared hp]
      split
      case isTrue hshared => exact (h q hq hshared).symm
      case isFalse => rfl

end Cleared

/-- A pin that has no interrupt bits is left as it is. -/
theorem clears_self_iff (hp : ¬ p < npads) :
    Clears p mem mem ↔ (triggerOf mem p).routing = 0 := by
  have hzero : ∀ reg, peek mem reg p &&& maskOf reg p = 0 := by
    intro reg
    rw [mask_eq_zero _ hp]
    exact BitVec.and_zero
  constructor
  · intro h
    rw [h.1]
  · intro h
    exact ⟨Trigger.ext h (hzero .gpiGpeEn) (hzero .gpiGpeSts), fun _ _ => rfl⟩

/-- Exactly when a pin is cleared and the others are left alone. -/
theorem clears_iff (w : World) (s : Pads) (p : ℕ) :
    Clears p (s.own w) (((dnvGpioClearTriggering p).run (Pads.device w) s).2.own w) ↔
      if p < npads then peek (s.own w) .padCfgDw0 p &&& otherRoutes = 0 ∧
        ∀ q, q ≠ p → address? .gpiGpeSts q = address? .gpiGpeSts p →
          (triggerOf (s.own w) q).status = 0
      else (triggerOf (s.own w) p).routing = 0 := by
  by_cases hp : p < npads
  · obtain ⟨t, hrun, hown⟩ := run_dnvGpioClearTriggering (w := w) (s := s) hp
    rw [hrun, hown, if_pos hp]
    exact clears_cleared_iff hp
  · rw [run_dnvGpioClearTriggering_of_ge hp, if_neg hp]
    exact clears_self_iff hp

/-- Pin 4 keeps the other routes, and pin 5 loses its pending interrupt to it. -/
theorem not_clears_firmwares : ¬ Clears 4 (firmwares.own (plain (fun _ _ => 0) fun _ => none))
    (((dnvGpioClearTriggering 4).run (Pads.device (plain (fun _ _ => 0) fun _ => none))
      firmwares).2.own (plain (fun _ _ => 0) fun _ => none)) := by
  have hp : 4 < npads := by decide
  obtain ⟨t, hrun, hown⟩ := run_dnvGpioClearTriggering
    (w := plain (fun _ _ => 0) fun _ => none) (s := firmwares) hp
  rw [hrun, hown, clears_cleared_iff hp]
  intro h
  have hpending := h.2 5 (by decide) (by decide)
  revert hpending
  decide

end BuffaloNas.Dnv
