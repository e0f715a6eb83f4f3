import BuffaloNas.Interaction.Triple
import Mathlib.Data.Int.Notation
import Mathlib.Logic.Function.Basic
import Mathlib.Tactic.SplitIfs

/-! What drivers ask of the kernel, and a Super I/O chip behind an index port and a data port. -/
namespace BuffaloNas.SuperIo
open Interaction Program

abbrev Byte := BitVec 8

abbrev Word := BitVec 16

inductive KernelOp
  | requestMuxedRegion (port : Word) (size : ℕ)
  | requestRegion (port : Word) (size : ℕ)
  | releaseRegion (port : Word) (size : ℕ)
  | outb (value : Byte) (port : Word)
  | inb (port : Word)
  | spinLock
  | spinUnlock
  | kcalloc (n : ℕ)
  | gpiochipAddData (names : List String)
  deriving DecidableEq

abbrev KernelOp.Answer : KernelOp → Type
  | requestMuxedRegion .. => Bool
  | requestRegion .. => Bool
  | releaseRegion .. => Unit
  | outb .. => Unit
  | inb _ => Byte
  | spinLock => Unit
  | spinUnlock => Unit
  | kcalloc _ => Bool
  | gpiochipAddData _ => ℤ

abbrev Kernel (α : Type) := Program KernelOp KernelOp.Answer Empty α

def outb (value : Byte) (port : Word) : Kernel Unit := perform (KernelOp.outb value port)

def inb (port : Word) : Kernel Byte := perform (KernelOp.inb port)

/-- `errno` values of a function are negative. -/
def ebusy : ℤ := 16

def enodev : ℤ := 19

def enomem : ℤ := 12

/-! ### The chip -/

/-- How much of the key 0x87, 0x01, 0x55, 0x55 a sleeping chip has seen. -/
inductive Mode
  | sleeping
  | seen87
  | seen01
  | seen55
  | config
  deriving DecidableEq

def Mode.restart (value : Byte) : Mode := if value = 0x87 then seen87 else sleeping

def Mode.feed (value : Byte) : Mode → Mode
  | sleeping => restart value
  | seen87 => if value = 0x01 then seen01 else restart value
  | seen01 => if value = 0x55 then seen55 else restart value
  | seen55 => if value = 0x55 then config else restart value
  | config => config

/-- Registers below 0x25 are shared, the others exist once for each logical device. -/
structure Chip where
  mode : Mode
  index : Byte
  ldn : Byte
  global : Byte → Byte
  device : Byte → Byte → Byte

/-- The contents of the registers, by device and register. -/
abbrev Contents := Byte → Byte → Byte

def Contents.word (k : Contents) (l reg : Byte) : Word :=
  (k l reg).setWidth 16 <<< 8 ||| (k l (reg + 1)).setWidth 16

namespace Chip

/-- A byte on the index port. -/
def point (c : Chip) (value : Byte) : Chip :=
  match c.mode with
  | .config => { c with index := value }
  | mode => { c with mode := mode.feed value }

def read (c : Chip) (reg : Byte) : Byte :=
  if reg = 0x07 then c.ldn else if reg < 0x25 then c.global reg else c.device c.ldn reg

/-- What the registers hold for each device. -/
def contents (c : Chip) : Contents := fun l reg => { c with ldn := l }.read reg

/-- A byte on the data port; bit 1 of register 0x02 sends the chip to sleep. -/
def store (c : Chip) (value : Byte) : Chip :=
  if c.mode ≠ .config then c
  else if c.index = 0x02 then
    if value.getLsbD 1 then { c with mode := .sleeping } else c
  else if c.index = 0x07 then { c with ldn := value }
  else if c.index < 0x25 then { c with global := Function.update c.global c.index value }
  else
    let registers := Function.update (c.device c.ldn) c.index value
    { c with device := Function.update c.device c.ldn registers }

/-- What the data port reads. -/
def load (c : Chip) : Byte := if c.mode = .config then c.read c.index else 0xff

/-- The key on the index port. -/
def wake (c : Chip) : Chip := (((c.point 0x87).point 0x01).point 0x55).point 0x55

variable {c : Chip}

theorem point_config (h : c.mode = .config) (value : Byte) :
    c.point value = { c with index := value } := by
  simp only [point, h]

@[simp] theorem point_ldn (value : Byte) : (c.point value).ldn = c.ldn := by
  unfold point; split <;> rfl

@[simp] theorem point_global (value : Byte) : (c.point value).global = c.global := by
  unfold point; split <;> rfl

@[simp] theorem point_device (value : Byte) : (c.point value).device = c.device := by
  unfold point; split <;> rfl

@[simp] theorem wake_ldn : c.wake.ldn = c.ldn := by simp [wake]

@[simp] theorem wake_global : c.wake.global = c.global := by simp [wake]

@[simp] theorem wake_device : c.wake.device = c.device := by simp [wake]

@[simp] theorem wake_contents : c.wake.contents = c.contents := by
  funext l reg
  simp [contents, read]

/-- The key opens the chip in whatever mode it finds it. -/
@[simp] theorem wake_mode : c.wake.mode = .config := by
  cases h : c.mode <;> simp [wake, point, h, Mode.feed, Mode.restart]

/-- Storing in a register other than 0x02 and 0x07 changes neither mode nor device. -/
theorem store_same (h2 : c.index ≠ 0x02) (h7 : c.index ≠ 0x07) (value : Byte) :
    (c.store value).mode = c.mode ∧ (c.store value).ldn = c.ldn := by
  rw [store, if_neg h2, if_neg h7]
  split_ifs <;> exact ⟨rfl, rfl⟩

end Chip

/-! ### The board -/

/-- The address pair of the chip. -/
def indexPort : Word := 0x2e

def dataPort : Word := 0x2f

/-- A region of ports: its first port and how many there are. -/
abbrev Region := Word × ℕ

def Region.overlaps (r s : Region) : Bool :=
  r.1.toNat < s.1.toNat + s.2 && s.1.toNat < r.1.toNat + r.2

theorem Region.not_overlaps_iff {r s : Region} :
    r.overlaps s = false ↔ s.1.toNat + s.2 ≤ r.1.toNat ∨ r.1.toNat + r.2 ≤ s.1.toNat := by
  rw [overlaps, Bool.and_eq_false_iff, decide_eq_false_iff_not, decide_eq_false_iff_not, Nat.not_lt,
    Nat.not_lt]

/-- A chip among other devices. -/
structure Board where
  chip : Chip
  /-- The regions that drivers hold. -/
  held : List Region
  /-- What the kernel makes of the coming requests; 0 lets them pass. -/
  verdicts : ℕ → ℤ
  /-- What the coming reads of other devices return. -/
  inputs : ℕ → Byte

namespace Board

/-- The kernel grants a region that is free; one shared by turns is waited for. -/
def grants (b : Board) (r : Region) : Bool :=
  b.verdicts 0 = 0 && r.1.toNat + r.2 ≤ 0x10000 && b.held.all fun s => !r.overlaps s

def judged (b : Board) : Board := { b with verdicts := fun n => b.verdicts (n + 1) }

def request (b : Board) (r : Region) : Bool × Board :=
  if b.grants r then (true, { b.judged with held := r :: b.held }) else (false, b.judged)

def device : Device KernelOp KernelOp.Answer Empty Board
  | .requestMuxedRegion port size, b => (.ok (b.request (port, size)).1, (b.request (port, size)).2)
  | .requestRegion port size, b => (.ok (b.request (port, size)).1, (b.request (port, size)).2)
  | .releaseRegion port size, b => (.ok (), { b with held := b.held.erase (port, size) })
  | .outb value port, b =>
    (.ok (), if port = indexPort then { b with chip := b.chip.point value }
      else if port = dataPort then { b with chip := b.chip.store value } else b)
  | .inb port, b =>
    if port = dataPort then (.ok b.chip.load, b)
    else (.ok (b.inputs 0), { b with inputs := fun n => b.inputs (n + 1) })
  | .spinLock, b => (.ok (), b)
  | .spinUnlock, b => (.ok (), b)
  | .kcalloc _, b => (.ok (b.verdicts 0 = 0), b.judged)
  | .gpiochipAddData _, b => (.ok (b.verdicts 0), b.judged)

theorem not_overlaps_of_grants {b : Board} {r s : Region} (h : b.grants r) (hs : s ∈ b.held) :
    r.overlaps s = false := by
  simp only [grants, Bool.and_eq_true, List.all_eq_true] at h
  simpa using h.2 s hs

theorem within_of_grants {b : Board} {r : Region} (h : b.grants r) :
    r.1.toNat + r.2 ≤ 0x10000 := by
  simp only [grants, Bool.and_eq_true, decide_eq_true_eq] at h
  exact h.1.2

end Board

end BuffaloNas.SuperIo
