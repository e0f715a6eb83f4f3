import BuffaloNas.It87.Probe
import BuffaloNas.Interaction.Only
import Mathlib.Logic.Function.Basic
import Mathlib.Tactic.Ring

/-! The driver at work on the registers of its chip, one operation after the other. -/
namespace BuffaloNas.It87
open Interaction Program SuperIo

/-- The driver's data, the contents of the registers, and what the coming looks at the clock see. -/
structure World where
  data : It87Data
  regs : Word → Byte
  clock : ℕ → ℕ

namespace World

def assign (w : World) (f : It87Data → It87Data) : World := { w with data := f w.data }

def write (w : World) (reg : Word) (v : Byte) : World :=
  { w with regs := Function.update w.regs reg v }

def ticked (w : World) : World := { w with clock := fun n => w.clock (n + 1) }

def device : Device It87Op It87Op.Answer Fault World
  | .readValue reg, w => (.ok (w.regs reg), w)
  | .writeValue reg v, w => (.ok (), w.write reg v)
  | .mutexLock, w => (.ok (), w)
  | .mutexUnlock, w => (.ok (), w)
  | .data, w => (.ok w.data, w)
  | .assign f, w => (.ok (), w.assign f)
  | .jiffies, w => (.ok (w.clock 0), w.ticked)

variable (w : World)

@[simp] theorem data_assign (f : It87Data → It87Data) : (w.assign f).data = f w.data := rfl

@[simp] theorem regs_assign (f : It87Data → It87Data) : (w.assign f).regs = w.regs := rfl

@[simp] theorem clock_assign (f : It87Data → It87Data) : (w.assign f).clock = w.clock := rfl

@[simp] theorem data_write (reg : Word) (v : Byte) : (w.write reg v).data = w.data := rfl

@[simp] theorem regs_write (reg : Word) (v : Byte) :
    (w.write reg v).regs = Function.update w.regs reg v := rfl

@[simp] theorem clock_write (reg : Word) (v : Byte) : (w.write reg v).clock = w.clock := rfl

@[simp] theorem data_ticked : w.ticked.data = w.data := rfl

@[simp] theorem regs_ticked : w.ticked.regs = w.regs := rfl

@[simp] theorem assign_assign (f g : It87Data → It87Data) :
    (w.assign f).assign g = w.assign fun d => g (f d) := rfl

@[simp] theorem run_readValue (reg : Word) :
    (readValue reg).run device w = (.ok (w.regs reg), w) := run_perform _

@[simp] theorem run_writeValue (reg : Word) (v : Byte) :
    (writeValue reg v).run device w = (.ok (), w.write reg v) := run_perform _

@[simp] theorem run_mutexLock : mutexLock.run device w = (.ok (), w) := run_perform _

@[simp] theorem run_mutexUnlock : mutexUnlock.run device w = (.ok (), w) := run_perform _

@[simp] theorem run_getData : getData.run device w = (.ok w.data, w) := run_perform _

@[simp] theorem run_assign (f : It87Data → It87Data) :
    (It87.assign f).run device w = (.ok (), w.assign f) := run_perform _

@[simp] theorem run_jiffies : jiffies.run device w = (.ok (w.clock 0), w.ticked) := run_perform _

end World

end BuffaloNas.It87
