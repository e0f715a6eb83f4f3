import BuffaloNas.It87.Access
import BuffaloNas.It87.Started

/-! A single caller at a controller with banks, from the probe on: the register that the driver asks
for is the one it reaches. -/
namespace BuffaloNas.It87
open Interaction Program SuperIo

/-- The controller, the driver's data and clock, and the registers that the data port has stood for
whenever data went through it, the last one at the end. -/
structure Watched where
  controller : Controller
  data : It87Data
  clock : ℕ → ℕ
  reached : List Word

namespace Watched

/-- Data goes through the port. -/
def passed (c : It87Chip) (s : Watched) (regs : Word → Byte) : Watched :=
  { s with
    controller := { s.controller with regs }
    reached := s.reached ++ [c.selected s.controller] }

def device (c : It87Chip) : Device PortOp PortOp.Answer Fault Watched
  | .address low, s => (.ok (), { s with controller := { s.controller with latch := low } })
  | .dataRead _, s =>
    (.ok (s.controller.regs (c.selected s.controller)), s.passed c s.controller.regs)
  | .dataWrite _ v, s =>
    (.ok (), s.passed c (Function.update s.controller.regs (c.selected s.controller) v))
  | .bank, s => (.ok s.controller.bank, s)
  | .setBank b, s => (.ok (), { s with controller := { s.controller with bank := b } })
  | .mutexLock, s => (.ok (), s)
  | .mutexUnlock, s => (.ok (), s)
  | .data, s => (.ok s.data, s)
  | .assign f, s => (.ok (), { s with data := f s.data })
  | .jiffies, s => (.ok (s.clock 0), { s with clock := fun n => s.clock (n + 1) })

/-- The bits of the register of the bank that do not select one. -/
def lowFive (s : Watched) : Byte := s.controller.regs bankReg &&& 0x1f

variable {c : It87Chip} {s : Watched} {bank : Byte} {reg : Word}

/-- The address of a register is sent. -/
def addressed (s : Watched) (reg : Word) : Watched :=
  { s with controller := { s.controller with latch := reg.setWidth 8 } }

theorem run_readLow (reg : Word) :
    (readLow reg).run (device c) s =
      (.ok (s.controller.regs (c.selected (s.addressed reg).controller)),
        (s.addressed reg).passed c s.controller.regs) := by
  rw [readLow, run_bind, run_perform]
  rfl

theorem run_writeLow (reg : Word) (v : Byte) :
    (writeLow reg v).run (device c) s =
      (.ok (), (s.addressed reg).passed c
        (Function.update s.controller.regs (c.selected (s.addressed reg).controller) v)) := by
  rw [writeLow, run_bind, run_perform]
  rfl

/-- The driver's note is right, or it is that of the probe. -/
def Ready (c : It87Chip) (s : Watched) : Prop :=
  s.controller.bank = 0xff ∨ c.Aligned s.controller

theorem selected_of_latch {k : Controller} (h : k.latch = bankReg.setWidth 8) :
    c.selected k = bankReg := by
  rw [It87Chip.selected, h]
  exact place_regBank

/-- After `it87_set_bank`. -/
def switched (s : Watched) (bank : Byte) : Watched :=
  if bank ≠ s.controller.bank then
    { s with
      controller :=
        { latch := bankReg.setWidth 8
          regs := Function.update s.controller.regs bankReg
            (s.controller.regs bankReg &&& 0x1f ||| bank <<< 5)
          bank }
      reached := s.reached ++ [bankReg] ++ [bankReg] }
  else s

theorem run_setBank (hsel : c.has .bankSel = true) (bank : Byte) :
    (c.setBank bank).run (device c) s = (.ok (), s.switched bank) := by
  rw [It87Chip.setBank, run_ite, if_pos hsel, run_bind, run_perform, device, andThen_ok, run_ite]
  unfold switched
  by_cases hne : bank ≠ s.controller.bank
  · rw [if_pos hne, if_pos hne, run_bind, run_readLow, andThen_ok, run_bind, run_perform, device,
      andThen_ok, run_writeLow]
    simp only [passed, addressed, selected_of_latch]
  · rw [if_neg hne, if_neg hne]
    rfl

theorem regs_switched (bank : Byte) (hr : reg ≠ bankReg) :
    (s.switched bank).controller.regs reg = s.controller.regs reg := by
  unfold switched
  split
  · exact Function.update_of_ne hr ..
  · rfl

theorem lowFive_switched (s : Watched) (bank : Byte) : (s.switched bank).lowFive = s.lowFive := by
  unfold switched lowFive
  split
  · simp only [Function.update_self]
    ext n hn
    interval_cases n <;> simp
  · rfl

/-- The register of the bank is read and written, or not touched. -/
theorem reached_switched (s : Watched) (bank : Byte) :
    ∃ detour, (s.switched bank).reached = s.reached ++ detour ∧ ∀ r ∈ detour, r = bankReg := by
  unfold switched
  split
  · exact ⟨[bankReg, bankReg], List.append_assoc .., by simp⟩
  · exact ⟨[], by simp, by simp⟩

/-- There is no bank with the number that the probe notes. -/
theorem aligned_switched (hs : s.Ready c) (hb : bank ≠ 0xff) :
    c.Aligned (s.switched bank).controller ∧ (s.switched bank).controller.bank = bank := by
  unfold switched
  split
  case isTrue =>
    refine ⟨fun _ => ?_, rfl⟩
    simp only [Function.update_self]
    exact shift_bankReg ..
  case isFalse heq =>
    have heq : bank = s.controller.bank := not_not.mp heq
    rcases hs with hs | hs
    · exact absurd (heq.trans hs) hb
    · exact ⟨hs, heq.symm⟩

end Watched

/-! ### The register that is reached -/

/-- In one of the eight banks, and not the register that selects them. -/
def InBank (reg : Word) : Prop := reg < 0x800 ∧ reg.setWidth 8 ≠ regBank

/-- The accesses are of registers in a bank. -/
def It87Op.Banked : It87Op → Prop
  | readValue reg => InBank reg
  | writeValue reg _ => InBank reg
  | _ => True

namespace It87Chip

variable {c : It87Chip} {s : Watched} {reg : Word}

theorem getElem_inBank (h : InBank reg) {n : ℕ} (hn : n < 16) (h11 : 11 ≤ n) :
    reg[n] = false := by
  have hlt : reg.toNat < 2 ^ 11 := h.1
  have hpow : (2 : ℕ) ^ 11 ≤ 2 ^ n := Nat.pow_le_pow_right Nat.two_pos h11
  exact Nat.testBit_lt_two_pow (Nat.lt_of_lt_of_le hlt hpow)

/-- Register numbers are those of the banks' registers, the bank in the upper byte. -/
theorem meant_of_inBank (hsel : c.has .bankSel = true) (h : InBank reg) : c.meant reg = reg := by
  rw [meant, place, if_pos ⟨hsel, h.2⟩]
  ext n hn
  interval_cases n <;> simp [getElem_inBank h]

theorem bank_of_inBank (h : InBank reg) : (reg >>> 8).setWidth 8 ≠ (0xff : Byte) := by
  intro heq
  have hbit : ((reg >>> 8).setWidth 8 : Byte).getLsbD 3 = true := by
    rw [heq]
    rfl
  simp [getElem_inBank h] at hbit

theorem ne_bankReg_of_inBank (h : InBank reg) : reg ≠ bankReg := by
  rintro rfl
  exact h.2 rfl

/-- After `it87_set_bank` and the address, the data port stands for the register in the bank. -/
theorem selected_addressed (hsel : c.has .bankSel = true) (hs : s.Ready c) (h : InBank reg) :
    c.selected ((s.switched ((reg >>> 8).setWidth 8)).addressed reg).controller = reg := by
  obtain ⟨ha, hb⟩ := Watched.aligned_switched hs (bank_of_inBank h)
  exact (selected_of_aligned ha fun _ => hb).trans (meant_of_inBank hsel h)

/-- After an access. -/
def accessed (s : Watched) (reg : Word) (f : (Word → Byte) → Word → Byte) : Watched :=
  let t := (s.switched ((reg >>> 8).setWidth 8)).addressed reg
  { t with
    controller := { t.controller with regs := f t.controller.regs }
    reached := t.reached ++ [reg] }

theorem run_access_read (hsel : c.has .bankSel = true) (hs : s.Ready c) (h : InBank reg) :
    (c.access (.readValue reg)).run (Watched.device c) s =
      (.ok (s.controller.regs reg), accessed s reg id) := by
  have hreg := Watched.regs_switched (s := s) ((reg >>> 8).setWidth 8)
    (ne_bankReg_of_inBank h)
  rw [access, run_bind, Watched.run_setBank hsel, andThen_ok, Watched.run_readLow, Watched.passed,
    selected_addressed hsel hs h, hreg]
  rfl

theorem run_access_write (hsel : c.has .bankSel = true) (hs : s.Ready c) (h : InBank reg)
    (v : Byte) :
    (c.access (.writeValue reg v)).run (Watched.device c) s =
      (.ok (), accessed s reg fun regs => Function.update regs reg v) := by
  rw [access, run_bind, Watched.run_setBank hsel, andThen_ok, Watched.run_writeLow, Watched.passed,
    selected_addressed hsel hs h]
  rfl

/-- Data went through the port for the register, and before that at most for the register of the
bank; all other registers are as in `regs`. -/
structure Reached (s t : Watched) (reg : Word) (regs : Word → Byte) : Prop where
  last : ∃ detour, t.reached = s.reached ++ detour ++ [reg] ∧ ∀ r ∈ detour, r = bankReg
  regs : ∀ r, r ≠ bankReg → t.controller.regs r = regs r

theorem reached_accessed {f : (Word → Byte) → Word → Byte}
    (hf : ∀ regs regs' : Word → Byte, ∀ r, regs r = regs' r → f regs r = f regs' r) :
    Reached s (accessed s reg f) reg (f s.controller.regs) where
  last := by
    obtain ⟨detour, hd, hall⟩ := Watched.reached_switched s ((reg >>> 8).setWidth 8)
    exact ⟨detour, congrArg (fun l => l ++ [reg]) hd, hall⟩
  regs r hr := hf _ _ r (Watched.regs_switched _ hr)

/-- An access goes to the register in the bank that its number names. -/
def Reaches (c : It87Chip) : It87Op → Watched → Prop
  | .readValue reg, s => ∃ t,
    (c.access (.readValue reg)).run (Watched.device c) s = (.ok (s.controller.regs reg), t) ∧
      Reached s t reg s.controller.regs
  | .writeValue reg v, s => ∃ t,
    (c.access (.writeValue reg v)).run (Watched.device c) s = (.ok (), t) ∧
      Reached s t reg (Function.update s.controller.regs reg v)
  | _, _ => True

theorem reaches_of_ready (hsel : c.has .bankSel = true) (hs : s.Ready c) {o : It87Op}
    (ho : o.Banked) : c.Reaches o s := by
  cases o with
  | readValue reg =>
    exact ⟨_, run_access_read hsel hs ho, reached_accessed fun _ _ _ hr => hr⟩
  | writeValue reg v =>
    refine ⟨_, run_access_write hsel hs ho v, reached_accessed fun regs regs' r hr => ?_⟩
    rw [Function.update_apply, Function.update_apply, hr]
  | _ => trivial

/-! ### Step and run -/

/-- What the driver relies on between two accesses: its note of the bank, and the five bits. -/
def Settled (c : It87Chip) (five : Byte) (s : Watched) : Prop := s.Ready c ∧ s.lowFive = five

variable {five : Byte}

theorem settled_accessed {f : (Word → Byte) → Word → Byte} (hs : c.Settled five s)
    (h : InBank reg) (hf : ∀ regs : Word → Byte, f regs bankReg = regs bankReg) :
    c.Settled five (accessed s reg f) := by
  obtain ⟨ha, -⟩ := Watched.aligned_switched hs.1 (bank_of_inBank h)
  have hlow := Watched.lowFive_switched s ((reg >>> 8).setWidth 8)
  have hbank : (accessed s reg f).controller.regs bankReg =
      (s.switched ((reg >>> 8).setWidth 8)).controller.regs bankReg := hf _
  refine ⟨.inr fun hsel => ?_, ?_⟩
  · rw [hbank]
    exact ha hsel
  · rw [Watched.lowFive, hbank]
    exact hlow.trans hs.2

/-- Up to its last message `it87_set_bank` leaves all registers alone. -/
theorem always_setBank (hs : s.lowFive = five) (bank : Byte) :
    (c.setBank bank).Always (Watched.device c) (fun _ t => t.lowFive = five) s := by
  rw [setBank, always_ite]
  split
  · rw [always_bind, always_perform]
    refine ⟨hs, fun selected _ => ?_⟩
    rw [always_ite]
    split
    · exact ⟨hs, fun _ _ => ⟨hs, fun _ _ => ⟨hs, fun _ _ => ⟨hs, fun _ _ => ⟨hs, fun _ _ =>
        trivial⟩⟩⟩⟩⟩
    · trivial
  · trivial

/-- So the five bits are as they were before every message of an access, and after the last. -/
theorem keeps_access (hsel : c.has .bankSel = true) (hs : c.Settled five s) {o : It87Op}
    (ho : o.Banked) :
    (c.access o).Keeps (Watched.device c) (fun _ t => t.lowFive = five) s
      fun _ t => c.Settled five t := by
  have hbank : ∀ (bank : Byte) {α : Type} (f : Unit → Ported α),
      (f ()).Always (Watched.device c) (fun _ t => t.lowFive = five) (s.switched bank) →
      (c.setBank bank >>= f).Always (Watched.device c) (fun _ t => t.lowFive = five) s := by
    intro bank α f hf
    rw [always_bind, Watched.run_setBank hsel]
    exact ⟨always_setBank hs.2 bank, fun _ _ => hf⟩
  have hlow : ∀ bank, (s.switched bank).lowFive = five := fun _ =>
    (Watched.lowFive_switched ..).trans hs.2
  cases o with
  | readValue reg =>
    refine ⟨hbank _ _ ⟨hlow _, fun _ _ => ⟨hlow _, fun _ _ => trivial⟩⟩, ?_⟩
    rw [run_access_read hsel hs.1 ho]
    exact settled_accessed hs ho fun _ => rfl
  | writeValue reg v =>
    refine ⟨hbank _ _ ⟨hlow _, fun _ _ => ⟨hlow _, fun _ _ => trivial⟩⟩, ?_⟩
    rw [run_access_write hsel hs.1 ho]
    exact settled_accessed hs ho fun _ =>
      Function.update_of_ne (ne_bankReg_of_inBank ho).symm ..
  | _ => exact ⟨⟨hs.2, fun _ _ => trivial⟩, hs⟩

variable {α : Type} {p : Driver α}

theorem reaches_of_settled (hsel : c.has .bankSel = true) (hp : p.Only It87Op.Banked)
    (hs : c.Settled five s) :
    p.Always (through c.access (Watched.device c)) c.Reaches s := by
  induction p generalizing s with
  | done a => trivial
  | raise e => trivial
  | call o k ih =>
    obtain ⟨ho, hk⟩ := hp
    refine ⟨reaches_of_ready hsel hs.1 ho, fun r _ => ih r (hk r) ?_⟩
    exact (keeps_access hsel hs ho).2

theorem keeps_of_settled (hsel : c.has .bankSel = true) (hp : p.Only It87Op.Banked)
    (hs : c.Settled five s) :
    (p.interp c.access).Keeps (Watched.device c) (fun _ t => t.lowFive = five) s
      fun _ t => c.Settled five t := by
  induction p generalizing s with
  | done a => exact ⟨trivial, hs⟩
  | raise e => exact ⟨trivial, hs⟩
  | call o k ih =>
    obtain ⟨ho, hk⟩ := hp
    exact keeps_bind (keeps_access hsel hs ho) (fun r t ht => ih r (hk r) ht) fun _ _ ht => ht

/-- From the probe on, whatever bank was selected then, every access of a register in a bank
reaches that register, and the five bits beside the bank never change. -/
theorem reaches_of_probe (hsel : c.has .bankSel = true) (hp : p.Only It87Op.Banked)
    (hbank : s.controller.bank = 0xff) :
    p.Always (through c.access (Watched.device c)) c.Reaches s ∧
      (p.interp c.access).Keeps (Watched.device c) (fun _ t => t.lowFive = s.lowFive) s
        fun _ t => t.lowFive = s.lowFive := by
  have hs : c.Settled s.lowFive s := ⟨.inl hbank, rfl⟩
  obtain ⟨halways, hend⟩ := keeps_of_settled hsel hp hs
  exact ⟨reaches_of_settled hsel hp hs, halways, hend.2⟩

/-- The firmware has left bank 5 of an IT8665E selected. -/
def fifthBank : Watched where
  controller := { latch := 0, regs := Function.update (fun _ => 0) bankReg 0xb3, bank := 0xff }
  data := It87Data.zero
  clock _ := 0
  reached := []

/-- The source of a sensor, in bank 2, is copied to a register of bank 0. -/
def copySource : Driver Unit := do
  let src ← readValue (regTempSrc1 0)
  writeValue regTempEnable src

theorem reaches_fifthBank :
    copySource.Always (through (Chips.it8665.known []).access
        (Watched.device (Chips.it8665.known []))) (Chips.it8665.known []).Reaches fifthBank ∧
      (copySource.interp (Chips.it8665.known []).access).Keeps
        (Watched.device (Chips.it8665.known [])) (fun _ t => t.lowFive = fifthBank.lowFive)
        fifthBank fun _ t => t.lowFive = fifthBank.lowFive :=
  reaches_of_probe (by decide +kernel)
    ⟨⟨by decide, by decide⟩, fun _ => ⟨⟨by decide, by decide⟩, fun _ => trivial⟩⟩ rfl

end It87Chip

/-! ### The registers of all banks as one store -/

/-- The store that the attributes work on is that of the banks. -/
structure Refines (c : It87Chip) (s : Watched) (w : World) : Prop where
  ready : s.Ready c
  data : s.data = w.data
  clock : s.clock = w.clock
  regs : ∀ reg, InBank reg → s.controller.regs reg = w.regs reg

namespace It87Chip

variable {c : It87Chip} {s : Watched} {w : World} {reg : Word} {α : Type} {p : Driver α}

theorem refines_accessed {f : (Word → Byte) → Word → Byte} {regs : Word → Byte}
    (hs : Refines c s w) (hready : (accessed s reg f).Ready c)
    (hf : ∀ r, InBank r → f (s.switched ((reg >>> 8).setWidth 8)).controller.regs r = regs r) :
    Refines c (accessed s reg f) { w with regs } := by
  have hrest : (s.switched ((reg >>> 8).setWidth 8)).data = s.data ∧
      (s.switched ((reg >>> 8).setWidth 8)).clock = s.clock := by
    unfold Watched.switched
    split <;> exact ⟨rfl, rfl⟩
  exact ⟨hready, hrest.1.trans hs.data, hrest.2.trans hs.clock, hf⟩

/-- An access through the ports does what it does on the store. -/
theorem refines_access (hsel : c.has .bankSel = true) (o : It87Op) (s : Watched) (w : World)
    (ho : o.Banked) (hs : Refines c s w) :
    (through c.access (Watched.device c) o s).1 = (World.device o w).1 ∧
      Refines c (through c.access (Watched.device c) o s).2 (World.device o w).2 := by
  have hsettled : c.Settled s.lowFive s := ⟨hs.ready, rfl⟩
  have hready := (keeps_access hsel hsettled ho).2.1
  have hregs : ∀ bank r, InBank r → (s.switched bank).controller.regs r = w.regs r :=
    fun bank r hr => (Watched.regs_switched bank (ne_bankReg_of_inBank hr)).trans (hs.regs r hr)
  cases o with
  | readValue reg =>
    rw [run_access_read hsel hs.ready ho] at hready
    rw [through, run_access_read hsel hs.ready ho]
    exact ⟨congrArg Except.ok (hs.regs reg ho), refines_accessed hs hready (hregs _)⟩
  | writeValue reg v =>
    rw [run_access_write hsel hs.ready ho] at hready
    rw [through, run_access_write hsel hs.ready ho]
    refine ⟨rfl, refines_accessed hs hready fun r hr => ?_⟩
    rw [Function.update_apply, Function.update_apply, hregs _ r hr]
  | mutexLock => exact ⟨rfl, hs⟩
  | mutexUnlock => exact ⟨rfl, hs⟩
  | data => exact ⟨congrArg Except.ok hs.data, hs⟩
  | assign f => exact ⟨rfl, hs.ready, congrArg f hs.data, hs.clock, hs.regs⟩
  | jiffies =>
    refine ⟨congrArg (fun clock : ℕ → ℕ => Except.ok (clock 0)) hs.clock, hs.ready, hs.data, ?_,
      hs.regs⟩
    exact congrArg (fun (clock : ℕ → ℕ) n => clock (n + 1)) hs.clock

/-- Whatever the driver does, it does on a chip with banks as on the one store. -/
theorem run_refines (hsel : c.has .bankSel = true) (hp : p.Only It87Op.Banked)
    (hs : Refines c s w) :
    ((p.interp c.access).run (Watched.device c) s).1 = (p.run World.device w).1 ∧
      Refines c ((p.interp c.access).run (Watched.device c) s).2 (p.run World.device w).2 := by
  rw [run_interp]
  exact hp.run_simulates (refines_access hsel) hs

end It87Chip

end BuffaloNas.It87
