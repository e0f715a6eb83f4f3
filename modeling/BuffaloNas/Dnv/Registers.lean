import BuffaloNas.Dnv.Driver
import BuffaloNas.Interaction.Triple
import Mathlib.Data.List.Pairwise
import Mathlib.Logic.Function.Basic
import Mathlib.Tactic.SplitIfs

/-! The registers of the Denverton pads, and where the driver finds them. -/
namespace BuffaloNas.Dnv
open Interaction Program

/-! ### Addresses and masks -/

/-- What `dnv_gpio_reg` returns. -/
def address? (reg : RegType) (gpi : ℕ) : Option ℕ :=
  let offset := window gpi (reg.map.entries.getD gpi 0)
  if gpi < reg.gpioLimit ∧ 0 ≤ offset then some (offset + reg.regMapBase).toNat else none

/-- What `dnv_gpio_mask` returns. -/
def maskOf (reg : RegType) (gpi : ℕ) : Word32 :=
  match reg with
  | .padcfglock | .gpiGpeEn | .gpiGpeSts | .hostswOwn =>
    if gpi < npads then 1 <<< (Table.gpeBit.entries.getD gpi 0).toNat else 0
  | .padOwn => if gpi < npads then 3 <<< (Table.padOwnBit.entries.getD gpi 0).toNat else 0
  | _ => 0

/-- The registers that a pad has of its own. -/
def Config (reg : RegType) : Prop := reg = .padCfgDw0 ∨ reg = .padCfgDw1

instance (reg : RegType) : Decidable (Config reg) := inferInstanceAs (Decidable (_ ∨ _))

variable {reg : RegType} {p q a b : ℕ} {α : Type}

theorem lt_of_address (h : address? reg p = some a) : p < reg.gpioLimit := by
  simp only [address?] at h
  split at h
  case isTrue hp => exact hp.1
  case isFalse => cases h

/-- The pads that have shared registers have them all. -/
theorem isSome_of_lt (reg : RegType) : ∀ p < npads, (address? reg p).isSome := by
  cases reg <;> decide

theorem exists_address (hr : ¬ Config reg) (h : address? reg p = some a) (reg' : RegType) :
    ∃ b, address? reg' p = some b := by
  have hp := lt_of_address h
  apply Option.isSome_iff_exists.mp
  cases reg with
  | padCfgDw0 => exact absurd (Or.inl rfl) hr
  | padCfgDw1 => exact absurd (Or.inr rfl) hr
  | _ => exact isSome_of_lt reg' p hp

/-- A pad's two registers lie side by side, above all the shared ones. -/
theorem dw1_eq : ∀ p < ngpio, address? .padCfgDw1 p = (address? .padCfgDw0 p).map (· + 4) := by
  decide +kernel

theorem aligned_dw0 :
    ∀ p < ngpio, ∀ a ∈ address? .padCfgDw0 p, a % 8 = 0 ∧ 0x400 ≤ a % 0x10000 := by
  decide +kernel

/-- The group that an address belongs to. -/
def groupOf (a : ℕ) : RegType :=
  if a % 0x10000 < 0x60 then .padOwn
  else if a % 0x10000 < 0xc0 then .padcfglock
  else if a % 0x10000 < 0x140 then .hostswOwn
  else if a % 0x10000 < 0x160 then .gpiGpeSts
  else if a % 0x10000 < 0x400 then .gpiGpeEn
  else if a % 8 = 0 then .padCfgDw0
  else .padCfgDw1

theorem groupOf_config (hlow : 0x400 ≤ a % 0x10000) :
    groupOf a = if a % 8 = 0 then .padCfgDw0 else .padCfgDw1 := by
  rw [groupOf, if_neg (by omega), if_neg (by omega), if_neg (by omega), if_neg (by omega),
    if_neg (by omega)]

theorem groupOf_address (h : address? reg p = some a) : groupOf a = reg := by
  have hp := lt_of_address h
  have hshared : ∀ reg, ¬ Config reg → ∀ p < npads, ∀ a ∈ address? reg p, groupOf a = reg := by
    intro reg hc
    cases reg with
    | padCfgDw0 => exact absurd (Or.inl rfl) hc
    | padCfgDw1 => exact absurd (Or.inr rfl) hc
    | _ => decide +kernel
  cases reg with
  | padCfgDw0 =>
    obtain ⟨h8, hlow⟩ := aligned_dw0 p hp a h
    rw [groupOf_config hlow, if_pos h8]
  | padCfgDw1 =>
    rw [dw1_eq p hp, Option.map_eq_some_iff] at h
    obtain ⟨a', ha', rfl⟩ := h
    obtain ⟨h8, hlow⟩ := aligned_dw0 p hp a' ha'
    rw [groupOf_config (by omega), if_neg (by omega)]
  | _ => exact hshared _ (by decide) p hp a h

/-- Registers of two groups are two registers. -/
theorem ne_of_group {reg' : RegType} (hne : reg ≠ reg') (ha : address? reg p = some a)
    (hb : address? reg' q = some b) : a ≠ b := by
  rintro rfl
  exact hne ((groupOf_address ha).symm.trans (groupOf_address hb))

theorem nodup_dw0 : ((List.range ngpio).filterMap (address? .padCfgDw0)).Nodup := by
  decide +kernel

/-- No two pads share a register. -/
theorem dw0_ne (hp : address? .padCfgDw0 p = some a) (hq : address? .padCfgDw0 q = some b)
    (hpq : p ≠ q) : a ≠ b := by
  have hs : Std.Symm fun p q => ∀ a, address? .padCfgDw0 p = some a →
      ∀ b, address? .padCfgDw0 q = some b → a ≠ b :=
    ⟨fun p q h b hb a ha => (h a ha b hb).symm⟩
  have h := List.pairwise_filterMap.mp nodup_dw0
  have hp' := List.mem_range.mpr (lt_of_address hp)
  have hq' := List.mem_range.mpr (lt_of_address hq)
  exact h.forall hp' hq' hpq a hp b hq

/-- A pad's first register is no other register at all. -/
theorem ne_dw0 (hr : reg = .padCfgDw0 → p ≠ q) (hp : address? reg p = some a)
    (hq : address? .padCfgDw0 q = some b) : a ≠ b := by
  by_cases hreg : reg = .padCfgDw0
  · subst hreg
    exact dw0_ne hp hq (hr rfl)
  · exact ne_of_group hreg hp hq

/-- The registers of the pads are apart from one another and from the shared ones. -/
theorem address_ne {reg' : RegType} (hr : Config reg) (hne : reg' = reg → q ≠ p)
    (hp : address? reg p = some a) (hq : address? reg' q = some b) : b ≠ a := by
  by_cases hreg : reg' = reg
  · subst hreg
    rcases hr with rfl | rfl
    · exact dw0_ne hq hp (hne rfl)
    · rw [dw1_eq p (lt_of_address hp), Option.map_eq_some_iff] at hp
      rw [dw1_eq q (lt_of_address hq), Option.map_eq_some_iff] at hq
      obtain ⟨a', ha', rfl⟩ := hp
      obtain ⟨b', hb', rfl⟩ := hq
      have hn := dw0_ne hb' ha' (hne rfl)
      omega
  · exact ne_of_group hreg hq hp

theorem mask_ne_zero (hc : ¬ Config reg) (hp : p < npads) : maskOf reg p ≠ 0 := by
  revert p
  cases reg with
  | padCfgDw0 => exact absurd (Or.inl rfl) hc
  | padCfgDw1 => exact absurd (Or.inr rfl) hc
  | _ => decide

theorem mask_eq_zero (reg : RegType) (hp : ¬ p < npads) : maskOf reg p = 0 := by
  cases reg with
  | padCfgDw0 => rfl
  | padCfgDw1 => rfl
  | _ => exact if_neg hp

theorem exists_of_lt (hp : p < npads) (reg : RegType) : ∃ a, address? reg p = some a :=
  Option.isSome_iff_exists.mp (isSome_of_lt reg p hp)

/-- The check that the operations of interrupts and sleep begin with. -/
theorem not_refused (hc : ¬ Config reg) (hp : p < npads) :
    ¬ (some a = none ∨ maskOf reg p = 0) := by
  rintro (h | h)
  · cases h
  · exact mask_ne_zero hc hp h

/-! ### Triggers -/

/-- What `dnv_irq_set_type` is going to write to DW0 and to the enable register. -/
def retrigger (type dw0 gpeEn enmask : Word32) : Option (Word32 × Word32) :=
  let padCfgDw0 := dw0 &&& ~~~(gpiroutMask ||| rxevcfgMask)
  if type &&& irqTypeSenseMask ≠ 0 then
    (triggered type (padCfgDw0 ||| gpiroutsci)).map (·, gpeEn ||| enmask)
  else some (padCfgDw0, gpeEn &&& ~~~enmask)

theorem retrigger_eq_some {type dw0 gpeEn enmask x y : Word32}
    (h : retrigger type dw0 gpeEn enmask = some (x, y)) :
    triggered type (dw0 &&& ~~~(gpiroutMask ||| rxevcfgMask) ||| gpiroutsci) = some x ∧
        y = gpeEn ||| enmask ∨
      x = dw0 &&& ~~~(gpiroutMask ||| rxevcfgMask) ∧ y = gpeEn &&& ~~~enmask := by
  simp only [retrigger] at h
  split at h
  case isTrue =>
    obtain ⟨x', hx', he⟩ := Option.map_eq_some_iff.mp h
    cases he
    exact Or.inl ⟨hx', rfl⟩
  case isFalse =>
    cases h
    exact Or.inr ⟨rfl, rfl⟩

/-! ### The pads -/

/-- The bits that the hardware drives, what the driver reads beyond its tables, and what it finds
in a pointer before it assigns it. -/
structure World where
  driven : ℕ → Word32
  beyond : Table → ℕ → ℤ
  stray : ℕ → Option ℕ

/-- The registers, what the hardware is going to put in the bits it drives, and the driver's
data. -/
structure Pads where
  mem : ℕ → Word32
  noise : ℕ → ℕ → Word32
  irqType : ℕ → Word32
  conf0 : ℕ → Word32
  conf1 : ℕ → Word32

/-- A status register: a bit that is written as one is cleared. -/
def Status (a : ℕ) : Prop := ∃ p < npads, address? .gpiGpeSts p = some a

instance (a : ℕ) : Decidable (Status a) :=
  inferInstanceAs (Decidable (∃ p < npads, address? .gpiGpeSts p = some a))

theorem status_iff (ha : address? reg p = some a) : Status a ↔ reg = .gpiGpeSts := by
  constructor
  · rintro ⟨q, -, hq⟩
    by_contra hne
    exact ne_of_group hne ha hq rfl
  · rintro rfl
    exact ⟨p, lt_of_address ha, ha⟩

theorem not_status (hr : reg ≠ .gpiGpeSts) (ha : address? reg p = some a) : ¬ Status a :=
  mt (status_iff ha).mp hr

theorem masked_driven (x y m : Word32) : (x &&& ~~~m ||| y &&& m) &&& ~~~m = x &&& ~~~m := by
  ext i hi
  cases hm : m[i] <;> simp [hm]

namespace Pads

variable (w : World)

/-- The hardware moves between two accesses. -/
def settle (s : Pads) : Pads :=
  { s with
    mem := fun a => s.mem a &&& ~~~w.driven a ||| s.noise 0 a &&& w.driven a
    noise := fun n => s.noise (n + 1) }

def store (a : ℕ) (val : Word32) (s : Pads) : Pads :=
  { s with mem := Function.update s.mem a (if Status a then s.mem a &&& ~~~val else val) }

def device : Device DnvOp DnvOp.Answer Fault Pads
  | .entry t i, s => (.ok (t.entries.getD i (w.beyond t i)), s)
  | .readl a, s => (.ok ((s.settle w).mem a), s.settle w)
  | .writel val a, s => (.ok (), (s.settle w).store a val)
  | .rawSpinLock, s => (.ok (), s)
  | .rawSpinUnlock, s => (.ok (), s)
  | .irqType gpi, s => (.ok (s.irqType gpi), s)
  | .setIrqType gpi type, s => (.ok (), { s with irqType := Function.update s.irqType gpi type })
  | .savedConf0 pin, s => (.ok (s.conf0 pin), s)
  | .savedConf1 pin, s => (.ok (s.conf1 pin), s)
  | .saveConf0 pin val, s => (.ok (), { s with conf0 := Function.update s.conf0 pin val })
  | .saveConf1 pin val, s => (.ok (), { s with conf1 := Function.update s.conf1 pin val })
  | .unassigned pin, s => (.ok (w.stray pin), s)

end Pads

section Lookup
variable (w : World) (s : Pads)

theorem length_map (reg : RegType) : reg.map.entries.length = reg.gpioLimit := by
  cases reg <;> rfl

/-- Beyond its tables the driver reads what it likes: it returns no register there. -/
theorem run_dnvGpioReg (p : ℕ) (reg : RegType) :
    (dnvGpioReg p reg).run (Pads.device w) s = (.ok (address? reg p), s) := by
  have hw : (regMapOffsetDnv reg p).run (Pads.device w) s =
      (.ok (window p (reg.map.entries.getD p (w.beyond reg.map p))), s) := by
    simp [regMapOffsetDnv, Pads.device]
  rw [dnvGpioReg, run_bind, hw, andThen_ok]
  by_cases hp : p < reg.gpioLimit
  · have hl := length_map reg
    have hd : reg.map.entries.getD p (w.beyond reg.map p) = reg.map.entries.getD p 0 := by
      rw [List.getD_eq_getElem?_getD, List.getD_eq_getElem?_getD,
        List.getElem?_eq_getElem (by omega)]
      rfl
    rw [hd]
    simp only [address?]
    generalize window p (reg.map.entries.getD p 0) = offset
    by_cases h0 : offset < 0
    · simp [h0, Int.not_le.mpr h0]
    · simp [h0, hp, Int.not_lt.mp h0, Nat.not_le.mpr hp]
  · have ha : address? reg p = none := if_neg fun h => hp h.1
    rw [ha]
    generalize window p (reg.map.entries.getD p (w.beyond reg.map p)) = offset
    by_cases h0 : offset < 0
    · simp [h0]
    · simp [h0, Nat.not_lt.mp hp]

theorem nonneg_bits : ∀ p < npads,
    0 ≤ Table.gpeBit.entries.getD p 0 ∧ 0 ≤ Table.padOwnBit.entries.getD p 0 := by decide

theorem run_dnvGpioMask (p : ℕ) (reg : RegType) :
    (dnvGpioMask p reg).run (Pads.device w) s = (.ok (maskOf reg p), s) := by
  have hl : Table.gpeBit.entries.length = npads ∧ Table.padOwnBit.entries.length = npads :=
    ⟨rfl, rfl⟩
  by_cases hp : p < npads
  · obtain ⟨h0, h0'⟩ := nonneg_bits p hp
    have hd : ∀ (t : Table) (x : ℤ), t.entries.length = npads →
        t.entries.getD p x = t.entries.getD p 0 := by
      intro t x ht
      rw [List.getD_eq_getElem?_getD, List.getD_eq_getElem?_getD,
        List.getElem?_eq_getElem (by omega)]
      rfl
    have hge : ¬ p ≥ npads := Nat.not_le.mpr hp
    cases reg <;>
      simp only [dnvGpioMask, regBitShiftDnv, hl.1, hl.2, hp, hge, Pads.device, hd _ _ hl.1,
        hd _ _ hl.2, Int.not_lt.mpr h0, Int.not_lt.mpr h0', maskOf, run_bind, run_ite, run_perform,
        run_pure, andThen_ok, if_true, if_false, or_self, ite_self]
  · have hge : p ≥ npads := Nat.not_lt.mp hp
    cases reg <;> simp [dnvGpioMask, regBitShiftDnv, hl, hp, hge, maskOf]

theorem run_readl (a : ℕ) :
    (readl (some a)).run (Pads.device w) s = (.ok ((s.settle w).mem a), s.settle w) := rfl

theorem run_writel (a : ℕ) (val : Word32) :
    (writel val (some a)).run (Pads.device w) s = (.ok (), (s.settle w).store a val) := rfl

variable {w s}

theorem run_reg {k : Option ℕ → Mmio α} : (dnvGpioReg p reg >>= k).run (Pads.device w) s =
    (k (address? reg p)).run (Pads.device w) s := by
  rw [run_bind, run_dnvGpioReg, andThen_ok]

theorem run_mask {k : Word32 → Mmio α} : (dnvGpioMask p reg >>= k).run (Pads.device w) s =
    (k (maskOf reg p)).run (Pads.device w) s := by
  rw [run_bind, run_dnvGpioMask, andThen_ok]

theorem run_lock {k : Unit → Mmio α} : (perform DnvOp.rawSpinLock >>= k).run (Pads.device w) s =
    (k ()).run (Pads.device w) s := by
  rw [run_bind, run_perform]
  rfl

end Lookup

end BuffaloNas.Dnv
