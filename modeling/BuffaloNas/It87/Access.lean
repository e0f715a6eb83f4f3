import BuffaloNas.It87.Stores
import BuffaloNas.Interaction.Interleave
import BuffaloNas.Interaction.Lock

/-! The accesses of the driver as messages to the controller, and two callers on one controller. -/
namespace BuffaloNas.It87
open Interaction Program SuperIo

/-! ### Messages -/

/-- What the driver does, one message to the controller at a time. With the data goes the register
that the driver means, of which the controller hears nothing. -/
inductive PortOp
  | address (low : Byte)
  | dataRead (reg : Word)
  | dataWrite (reg : Word) (v : Byte)
  | bank
  | setBank (b : Byte)
  | mutexLock
  | mutexUnlock
  | data
  | assign (f : It87Data → It87Data)
  | jiffies

abbrev PortOp.Answer : PortOp → Type
  | address _ => Unit
  | dataRead _ => Byte
  | dataWrite .. => Unit
  | bank => Byte
  | setBank _ => Unit
  | mutexLock => Unit
  | mutexUnlock => Unit
  | data => It87Data
  | assign _ => Unit
  | jiffies => ℕ

abbrev Ported (α : Type) := Program PortOp PortOp.Answer Fault α

/-- The register that selects the bank; it is in every bank. -/
def bankReg : Word := regBank.setWidth 16

/-- `_it87_read_value` -/
def readLow (reg : Word) : Ported Byte := do
  perform (PortOp.address (reg.setWidth 8))
  perform (PortOp.dataRead reg)

/-- `_it87_write_value` -/
def writeLow (reg : Word) (v : Byte) : Ported Unit := do
  perform (PortOp.address (reg.setWidth 8))
  perform (PortOp.dataWrite reg v)

namespace It87Chip

variable (c : It87Chip)

/-- `it87_set_bank` -/
def setBank (bank : Byte) : Ported Unit := do
  if c.has .bankSel then
    let selected ← perform PortOp.bank
    if bank ≠ selected then
      let breg ← readLow bankReg
      perform (PortOp.setBank bank)
      writeLow bankReg (breg &&& 0x1f ||| bank <<< 5)

/-- `it87_read_value`, `it87_write_value`, and what is no access. -/
def access : (o : It87Op) → Ported o.Answer
  | .readValue reg => do
    c.setBank ((reg >>> 8).setWidth 8)
    readLow reg
  | .writeValue reg v => do
    c.setBank ((reg >>> 8).setWidth 8)
    writeLow reg v
  | .mutexLock => perform PortOp.mutexLock
  | .mutexUnlock => perform PortOp.mutexUnlock
  | .data => perform PortOp.data
  | .assign f => perform (PortOp.assign f)
  | .jiffies => perform PortOp.jiffies

end It87Chip

/-! ### The controller -/

/-- The controller, and the bank that the driver takes to be selected. -/
structure Controller where
  latch : Byte
  regs : Word → Byte
  bank : Byte

namespace It87Chip

variable (c : It87Chip)

/-- The register at an address, in a bank if the chip has banks. -/
def place (bank low : Byte) : Word :=
  if c.has .bankSel ∧ low ≠ regBank then (bank &&& 7).setWidth 16 <<< 8 ||| low.setWidth 16
  else low.setWidth 16

/-- The register that the driver means by a number. -/
def meant (reg : Word) : Word := c.place ((reg >>> 8).setWidth 8) (reg.setWidth 8)

/-- The register that the data port stands for. -/
def selected (k : Controller) : Word := c.place (k.regs bankReg >>> 5) k.latch

/-- What comes of a message, and of a look at the driver's note of the bank. -/
def answer : (o : PortOp) → Controller → Option (o.Answer × Controller)
  | .address low, k => some ((), { k with latch := low })
  | .dataRead _, k => some (k.regs (c.selected k), k)
  | .dataWrite _ v, k => some ((), { k with regs := Function.update k.regs (c.selected k) v })
  | .bank, k => some (k.bank, k)
  | .setBank b, k => some ((), { k with bank := b })
  | _, _ => none

/-- The register that is meant is the one that is read, or the one that changes. -/
def Faithful : (o : PortOp) → o.Answer → Controller → Controller → Prop
  | .dataRead reg, r, k, k' => r = k.regs (c.meant reg) ∧ k'.regs = k.regs
  | .dataWrite reg v, _, k, k' => k'.regs = Function.update k.regs (c.meant reg) v
  | _, _, k, k' => k'.regs = k.regs

/-- The driver knows which bank is selected. -/
def Aligned (k : Controller) : Prop := c.has .bankSel → k.regs bankReg >>> 5 = k.bank &&& 7

end It87Chip

/-- The driver's data, the controller and the clock, and who has `update_lock`. -/
structure Bus where
  controller : Controller
  data : It87Data
  clock : ℕ → ℕ
  owner : Option (Fin 2)

namespace Bus

/-- Only the lock makes a caller wait. -/
def device (c : It87Chip) : Shared (Fin 2) PortOp PortOp.Answer Bus
  | i, .mutexLock, s => if s.owner = none then some ((), { s with owner := some i }) else none
  | _, .mutexUnlock, s => some ((), { s with owner := none })
  | _, .data, s => some (s.data, s)
  | _, .assign f, s => some ((), { s with data := f s.data })
  | _, .jiffies, s => some (s.clock 0, { s with clock := fun n => s.clock (n + 1) })
  | _, o, s => (c.answer o s.controller).map fun (r, k) => (r, { s with controller := k })

end Bus

/-! ### Where a message goes -/

section Place
variable {c : It87Chip} {k : Controller} {bank low : Byte} {reg : Word}

theorem setWidth_place : (c.place bank low).setWidth 8 = low := by
  unfold It87Chip.place
  split
  · ext n hn
    simp
  · exact BitVec.setWidth_setWidth_of_le low (by decide)

theorem place_regBank : c.place bank regBank = bankReg := by
  simp [It87Chip.place, bankReg]

theorem meant_bankReg : c.meant bankReg = bankReg := place_regBank

theorem selected_regBank : c.selected { k with latch := bankReg.setWidth 8 } = bankReg :=
  place_regBank

/-- A driver that knows which bank is selected reaches the address that it wants. -/
theorem selected_of_aligned (ha : c.Aligned k) (hb : c.has .bankSel → k.bank = bank) :
    c.selected { k with latch := low } = c.place bank low := by
  unfold It87Chip.selected It87Chip.place
  by_cases hsel : c.has .bankSel
  · have hbank : k.regs bankReg >>> 5 &&& 7 = bank &&& 7 := by
      rw [ha hsel, hb hsel, BitVec.and_assoc, BitVec.and_self]
    simp only [hbank]
  · simp only [hsel, Bool.false_eq_true, false_and, if_false]

/-- Only a write of the register that selects the bank selects another. -/
theorem meant_ne_bankReg (h : reg.setWidth 8 ≠ regBank) : c.meant reg ≠ bankReg := by
  intro he
  have hplace : (c.meant reg).setWidth 8 = reg.setWidth 8 := setWidth_place
  rw [he] at hplace
  exact h hplace.symm

/-- What is written in the register of the bank selects it. -/
theorem shift_bankReg (breg bank : Byte) : (breg &&& 0x1f ||| bank <<< 5) >>> 5 = bank &&& 7 := by
  ext n hn
  interval_cases n <;> simp

end Place

/-! ### What a caller may rely on -/

section Contract
variable {c : It87Chip} {solo : Option (Fin 2)} {i j : Fin 2} {s t u : Bus}

/-- The caller has the controller to itself: it is the only one that accesses it at all, or it has
the lock. -/
def Owns (solo : Option (Fin 2)) (i : Fin 2) (s : Bus) : Prop :=
  solo = some i ∨ solo = none ∧ s.owner = some i

theorem Owns.unique (hi : Owns solo i s) (hj : Owns solo j s) : i = j := by
  rcases hi with hi | ⟨hi, hs⟩ <;> rcases hj with hj | ⟨hj, hs'⟩
  · exact Option.some.inj (hi.symm.trans hj)
  · cases hi.symm.trans hj
  · cases hi.symm.trans hj
  · exact Option.some.inj (hs.symm.trans hs')

/-- What caller `i` may rely on: the other leaves the controller alone while `i` owns it, and gives
the lock back with the bank known. -/
structure Rely (c : It87Chip) (solo : Option (Fin 2)) (i : Fin 2) (s t : Bus) : Prop where
  mine : Owns solo i s → Owns solo i t ∧ t.controller = s.controller
  others : s.owner ≠ some i → t.owner ≠ some i
  free : solo = none → (s.owner = none → c.Aligned s.controller) →
    t.owner = none → c.Aligned t.controller

theorem Rely.refl : Rely c solo i s s := ⟨fun h => ⟨h, rfl⟩, id, fun _ h => h⟩

theorem Rely.trans (h : Rely c solo i s t) (h' : Rely c solo i t u) : Rely c solo i s u where
  mine hs := by
    obtain ⟨ht, hk⟩ := h.mine hs
    obtain ⟨hu, hk'⟩ := h'.mine ht
    exact ⟨hu, hk'.trans hk⟩
  others hs := h'.others (h.others hs)
  free hn hs := h'.free hn (h.free hn hs)

/-- Every access is of the register that is meant. -/
def contract (c : It87Chip) (solo : Option (Fin 2)) (i : Fin 2) :
    Contract PortOp PortOp.Answer Bus where
  device := Bus.device c i
  rely := Rely c solo i
  counts _ _ := True
  does o r s t := c.Faithful o r s.controller t.controller ∧ ∀ j, i ≠ j → Rely c solo j s t
  refl _ := .refl
  trans := .trans

theorem rely_controller (hs : Owns solo i s) (hj : i ≠ j) (k : Controller) :
    Rely c solo j s { s with controller := k } where
  mine h := absurd (hs.unique h) hj
  others h := h
  free hn _ ho := by
    rcases hs with hs | ⟨-, hs⟩
    · cases hn.symm.trans hs
    · cases hs.symm.trans ho

theorem rely_of_eq (hk : t.controller = s.controller) (ho : t.owner = s.owner) :
    Rely c solo j s t := by
  refine ⟨fun h => ⟨?_, hk⟩, fun h => ho ▸ h, fun _ h hn => hk ▸ h (ho ▸ hn)⟩
  rwa [Owns, ho]

theorem rely_lock (hs : s.owner = none) (hj : i ≠ j) :
    Rely c solo j s { s with owner := some i } := by
  refine ⟨fun h => ?_, fun _ h => hj (Option.some.inj h), fun _ _ h => by cases h⟩
  rcases h with h | ⟨-, h⟩
  · exact ⟨.inl h, rfl⟩
  · cases hs.symm.trans h

theorem rely_unlock (hs : solo = none → s.owner = some i ∧ c.Aligned s.controller) (hj : i ≠ j) :
    Rely c solo j s { s with owner := none } := by
  refine ⟨fun h => ?_, fun _ h => (by cases h), fun hn _ _ => (hs hn).2⟩
  rcases h with h | ⟨hn, h⟩
  · exact ⟨.inl h, rfl⟩
  · exact absurd (Option.some.inj ((hs hn).1.symm.trans h)) hj

/-! ### Accesses -/

variable {α : Type} {Q : Except Fault α → Bus → Prop}

theorem device_message {o : PortOp} {r : o.Answer} {k : Controller}
    (h : c.answer o s.controller = some (r, k)) :
    Bus.device c i o s = some (r, { s with controller := k }) := by
  cases o with
  | mutexLock => cases h
  | mutexUnlock => cases h
  | data => cases h
  | assign f => cases h
  | jiffies => cases h
  | _ => simp only [Bus.device, h, Option.map_some]

/-- The owner's message is answered as if there were no other caller. -/
theorem secure_message {o : PortOp} {r : o.Answer} {k : Controller} {f : o.Answer → Ported α}
    (hs : Owns solo i s) (ha : c.answer o s.controller = some (r, k))
    (hf : c.Faithful o r s.controller k)
    (hn : ∀ u, Owns solo i u → u.controller = k → (f r).Secure (contract c solo i) Q u) :
    (perform o >>= f).Secure (contract c solo i) Q s := by
  intro u hu _ r' t hd
  obtain ⟨hown, hk⟩ := hu.mine hs
  rw [← hk] at ha hf
  have hd' : Bus.device c i o u = some (r', t) := hd
  rw [device_message ha] at hd'
  cases hd'
  exact ⟨⟨hf, fun j hj => rely_controller hown hj k⟩, hn _ hown rfl⟩

/-- The owner's last message. -/
theorem secure_message_last {o : PortOp} {r : o.Answer} {k : Controller}
    {Q : Except Fault o.Answer → Bus → Prop} (hs : Owns solo i s)
    (ha : c.answer o s.controller = some (r, k)) (hf : c.Faithful o r s.controller k)
    (hq : ∀ u, Owns solo i u → u.controller = k → Q (.ok r) u) :
    (perform o : Ported o.Answer).Secure (contract c solo i) Q s := by
  rw [← bind_pure (perform o)]
  refine secure_message hs ha hf fun u hu hk => secure_pure fun v hv => ?_
  obtain ⟨hv, hk'⟩ := hv.mine hu
  exact hq v hv (hk'.trans hk)

/-- The caller owns the controller, and knows which bank is selected. -/
structure InCharge (c : It87Chip) (solo : Option (Fin 2)) (i : Fin 2) (s : Bus) : Prop where
  owns : Owns solo i s
  aligned : c.Aligned s.controller

theorem InCharge.rely (h : InCharge c solo i s) (hu : Rely c solo i s u) : InCharge c solo i u := by
  obtain ⟨hown, hk⟩ := hu.mine h.owns
  exact ⟨hown, hk ▸ h.aligned⟩

/-- The register that selects the bank is in every bank, so that any bank can be left. -/
theorem secure_setBank {bank : Byte} (hs : Owns solo i s)
    (ha : bank = s.controller.bank → c.Aligned s.controller) :
    (c.setBank bank).Secure (contract c solo i)
      (fun a t => a = .ok () ∧ InCharge c solo i t ∧
        (c.has .bankSel → t.controller.bank = bank)) s := by
  refine secure_ite (fun hsel => ?_) fun hsel => secure_pure fun u hu => ?_
  · refine secure_message hs rfl rfl fun u hu hk => secure_ite (fun hne => ?_) fun he => ?_
    · rw [readLow, bind_assoc]
      refine secure_message hu rfl rfl fun u1 hu1 hk1 => ?_
      have hread : c.selected u1.controller = bankReg := by
        rw [hk1]
        exact selected_regBank
      refine secure_message hu1 rfl ⟨by rw [hread, meant_bankReg], rfl⟩ fun u2 hu2 hk2 => ?_
      refine secure_message hu2 rfl rfl fun u3 hu3 hk3 => ?_
      refine secure_message hu3 rfl rfl fun u4 hu4 hk4 => ?_
      have hwrite : c.selected u4.controller = bankReg := by
        rw [hk4]
        exact selected_regBank
      refine secure_message_last hu4 rfl ?_ fun u5 hu5 hk5 => ?_
      · exact congrArg (fun reg => Function.update u4.controller.regs reg _)
          (hwrite.trans meant_bankReg.symm)
      · refine ⟨rfl, ⟨hu5, fun _ => ?_⟩, fun _ => ?_⟩
        · rw [hk5, hwrite, hk4, hk3]
          simp only [Function.update_self]
          exact shift_bankReg ..
        · rw [hk5, hk4, hk3]
    · refine secure_pure fun v hv => ?_
      obtain ⟨hv, hk'⟩ := hv.mine hu
      rw [hk] at hk'
      have heq : bank = s.controller.bank := not_not.mp he
      exact ⟨rfl, ⟨hv, hk' ▸ ha heq⟩, fun _ => by rw [hk', heq]⟩
  · exact ⟨rfl, ⟨(hu.mine hs).1, fun h => absurd h hsel⟩, fun h => absurd h hsel⟩

/-- Once its address is sent, the data port stands for the register that is meant; the bank is
known, or it is not the one noted. -/
theorem secure_addressed {reg : Word} {f : Unit → Ported α} (hs : Owns solo i s)
    (ha : (reg >>> 8).setWidth 8 = s.controller.bank → c.Aligned s.controller)
    (hf : ∀ u, InCharge c solo i u → c.selected u.controller = c.meant reg →
      (f ()).Secure (contract c solo i) Q u) :
    (c.setBank ((reg >>> 8).setWidth 8) >>= fun _ =>
      perform (PortOp.address (reg.setWidth 8)) >>= f).Secure (contract c solo i) Q s := by
  refine secure_bind (secure_setBank hs ha) (fun _ t ht => ?_) fun _ _ ht => by cases ht.1
  obtain ⟨-, ht, hbank⟩ := ht
  refine secure_message ht.owns rfl rfl fun u hu hk => hf u ⟨hu, ?_⟩ ?_
  · rw [hk]
    exact ht.aligned
  · rw [hk]
    exact selected_of_aligned ht.aligned hbank

theorem secure_readValue {reg : Word} (hs : Owns solo i s)
    (ha : (reg >>> 8).setWidth 8 = s.controller.bank → c.Aligned s.controller) :
    (c.access (.readValue reg)).Secure (contract c solo i) (fun _ t => InCharge c solo i t) s := by
  refine secure_addressed hs ha fun u hu hread => ?_
  refine secure_message_last hu.owns rfl ⟨by rw [hread], rfl⟩ fun v hv hk => ⟨hv, ?_⟩
  rw [hk]
  exact hu.aligned

theorem secure_writeValue (hs : InCharge c solo i s) {reg : Word} (hreg : reg.setWidth 8 ≠ regBank)
    (v : Byte) : (c.access (.writeValue reg v)).Secure (contract c solo i)
      (fun _ t => InCharge c solo i t) s := by
  refine secure_addressed hs.owns (fun _ => hs.aligned) fun u hu hwrite => ?_
  refine secure_message_last hu.owns rfl ?_ fun w hw hk => ⟨hw, fun hsel => ?_⟩
  · exact congrArg (fun reg => Function.update u.controller.regs reg v) hwrite
  · rw [hk, hwrite]
    simp only [Function.update_of_ne (meant_ne_bankReg hreg).symm]
    exact hu.aligned hsel

/-- The probe notes a bank that there is not, so that its first access sets the note right. -/
theorem secure_first (hs : Owns solo i s) (hbank : s.controller.bank = 0xff) :
    (c.access (.readValue regConfig)).Secure (contract c solo i)
      (fun _ t => InCharge c solo i t) s :=
  secure_readValue hs fun h => by
    rw [hbank] at h
    cases h

/-! ### Callers -/

end Contract

/-- What an operation of the driver has to do with `update_lock`. -/
def It87Op.part : It87Op → Part
  | readValue _ => .guarded
  | writeValue .. => .guarded
  | mutexLock => .lock
  | mutexUnlock => .unlock
  | _ => .free

/-- The driver leaves the bank to `it87_set_bank`. -/
def It87Op.SparesBank : It87Op → Prop
  | writeValue reg _ => reg.setWidth 8 ≠ regBank
  | _ => True

section Callers
variable {c : It87Chip} {solo : Option (Fin 2)} {i j : Fin 2} {s t u : Bus} {P P' : Bus → Prop}
  {α : Type}

theorem secure_free {o : It87Op} (ho : o.part = .free)
    (hrely : ∀ {s u}, P s → Rely c solo i s u → P u) (hs : P s) :
    (c.access o).Secure (contract c solo i) (fun _ t => P t) s := by
  have hop : ∀ o : PortOp, (∀ u r t, Bus.device c i o u = some (r, t) →
      c.Faithful o r u.controller t.controller ∧ t.controller = u.controller ∧
        t.owner = u.owner) →
      (perform o : Ported o.Answer).Secure (contract c solo i) (fun _ t => P t) s := by
    intro o ho
    refine secure_perform fun u hu _ r t hd => ?_
    obtain ⟨hf, hk, how⟩ := ho u r t hd
    exact ⟨⟨hf, fun j _ => rely_of_eq hk how⟩,
      fun v hv => hrely (hrely (hrely hs hu) (rely_of_eq hk how)) hv⟩
  cases o with
  | readValue reg => cases ho
  | writeValue reg v => cases ho
  | mutexLock => cases ho
  | mutexUnlock => cases ho
  | data =>
    refine hop _ fun u r t hd => ?_
    cases hd
    exact ⟨rfl, rfl, rfl⟩
  | assign f =>
    refine hop _ fun u r t hd => ?_
    cases hd
    exact ⟨rfl, rfl, rfl⟩
  | jiffies =>
    refine hop _ fun u r t hd => ?_
    cases hd
    exact ⟨rfl, rfl, rfl⟩

theorem secure_mutexLock (hrely : ∀ {s u}, P s → Rely c solo i s u → P u)
    (hrely' : ∀ {s u}, P' s → Rely c solo i s u → P' u)
    (hlock : ∀ u, P u → u.owner = none → P' { u with owner := some i }) (hs : P s) :
    (c.access .mutexLock).Secure (contract c solo i) (fun _ t => P' t) s := by
  refine secure_perform fun u hu _ r t hd => ?_
  have hd' : Bus.device c i .mutexLock u = some (r, t) := hd
  rw [Bus.device] at hd'
  split at hd'
  case isTrue ho =>
    cases hd'
    exact ⟨⟨rfl, fun j hj => rely_lock ho hj⟩, fun v hv => hrely' (hlock u (hrely hs hu) ho) hv⟩
  case isFalse => cases hd'

theorem secure_mutexUnlock (hrely : ∀ {s u}, P s → Rely c solo i s u → P u)
    (hrely' : ∀ {s u}, P' s → Rely c solo i s u → P' u)
    (hheld : ∀ u, P u → solo = none → u.owner = some i ∧ c.Aligned u.controller)
    (hunlock : ∀ u, P u → P' { u with owner := none }) (hs : P s) :
    (c.access .mutexUnlock).Secure (contract c solo i) (fun _ t => P' t) s := by
  refine secure_perform fun u hu _ r t hd => ?_
  have hu' := hrely hs hu
  cases hd
  exact ⟨⟨rfl, fun j hj => rely_unlock (hheld u hu') hj⟩, fun v hv => hrely' (hunlock u hu') hv⟩

/-- How a caller stands to the lock. -/
def Stands (c : It87Chip) (i : Fin 2) : Bool → Bus → Prop
  | true, s => s.owner = some i ∧ c.Aligned s.controller
  | false, s => s.owner ≠ some i ∧ (s.owner = none → c.Aligned s.controller)

/-- Having the lock is being in charge where everyone takes the lock. -/
theorem stands_true_iff : Stands c i true s ↔ InCharge c none i s := by
  constructor
  · rintro ⟨ho, ha⟩
    exact ⟨.inr ⟨rfl, ho⟩, ha⟩
  · rintro ⟨ho, ha⟩
    rcases ho with ho | ⟨-, ho⟩
    · cases ho
    · exact ⟨ho, ha⟩

theorem Stands.rely {held : Bool} (h : Stands c i held s) (hu : Rely c none i s u) :
    Stands c i held u := by
  cases held with
  | true => exact stands_true_iff.mpr ((stands_true_iff.mp h).rely hu)
  | false => exact ⟨hu.others h.1, hu.free rfl h.2⟩

/-- A caller that accesses the controller only under the lock reaches what it means, whatever
others do under the lock. -/
theorem secure_locked {p : Driver α} {held left : Bool} (hl : p.Locks It87Op.part held left)
    (hp : p.Only It87Op.SparesBank) (hs : Stands c i held s) :
    (p.interp c.access).Secure (contract c none i) (fun _ _ => True) s := by
  induction p generalizing held s with
  | done a => exact fun _ _ => trivial
  | raise e => exact fun _ _ => trivial
  | call o k ih =>
    obtain ⟨ho, hk⟩ := hp
    have hnext : ∀ {held' : Bool}, (∀ r, (k r).Locks It87Op.part held' left) →
        (c.access o).Secure (contract c none i) (fun _ t => Stands c i held' t) s →
        ((Program.call o k).interp c.access).Secure (contract c none i) (fun _ _ => True) s :=
      fun hlk hop => secure_bind hop (fun r t ht => ih r (hlk r) (hk r) ht) fun _ _ _ => trivial
    cases o with
    | readValue reg =>
      obtain ⟨rfl, hl⟩ := hl
      have hin := stands_true_iff.mp hs
      have hread : (c.access (.readValue reg)).Secure (contract c none i)
          (fun _ t => InCharge c none i t) s := secure_readValue hin.owns fun _ => hin.aligned
      exact hnext hl (hread.mono fun _ t ht => stands_true_iff.mpr ht)
    | writeValue reg v =>
      obtain ⟨rfl, hl⟩ := hl
      have hwrite := secure_writeValue (stands_true_iff.mp hs) ho v
      exact hnext hl (hwrite.mono fun _ t ht => stands_true_iff.mpr ht)
    | mutexLock =>
      obtain ⟨rfl, hl⟩ := hl
      exact hnext hl (secure_mutexLock .rely .rely (fun u hu ho => ⟨rfl, hu.2 ho⟩) hs)
    | mutexUnlock =>
      obtain ⟨rfl, hl⟩ := hl
      refine hnext hl (secure_mutexUnlock (P := Stands c i true) .rely .rely (fun u hu _ => hu)
        (fun u hu => ?_) hs)
      exact ⟨fun h => (by cases h), fun _ => hu.2⟩
    | data => exact hnext hl (secure_free rfl .rely hs)
    | assign f => exact hnext hl (secure_free rfl .rely hs)
    | jiffies => exact hnext hl (secure_free rfl .rely hs)

/-- The only caller that accesses the controller reaches what it means. -/
theorem secure_solo {p : Driver α} (hp : p.Only It87Op.SparesBank)
    (hs : InCharge c (some i) i s) :
    (p.interp c.access).Secure (contract c (some i) i) (fun _ _ => True) s := by
  induction p generalizing s with
  | done a => exact fun _ _ => trivial
  | raise e => exact fun _ _ => trivial
  | call o k ih =>
    obtain ⟨ho, hk⟩ := hp
    refine secure_bind (R := fun _ t => InCharge c (some i) i t) ?_
      (fun r t ht => ih r (hk r) ht) fun _ _ _ => trivial
    cases o with
    | readValue reg => exact secure_readValue hs.owns fun _ => hs.aligned
    | writeValue reg v => exact secure_writeValue hs ho v
    | mutexLock =>
      exact secure_mutexLock .rely .rely (fun u hu _ => ⟨.inl rfl, hu.aligned⟩) hs
    | mutexUnlock =>
      exact secure_mutexUnlock .rely .rely (fun u hu h => by cases h)
        (fun u hu => ⟨.inl rfl, hu.aligned⟩) hs
    | data => exact secure_free rfl .rely hs
    | assign f => exact secure_free rfl .rely hs
    | jiffies => exact secure_free rfl .rely hs

/-- The operation is no access. -/
def It87Op.Idle (o : It87Op) : Prop := o.part ≠ .guarded

/-- A caller that accesses nothing is in nobody's way. -/
theorem secure_idle {p : Driver α} (hp : p.Only It87Op.Idle) :
    (p.interp c.access).Secure (contract c (some j) i) (fun _ _ => True) s := by
  induction p generalizing s with
  | done a => exact fun _ _ => trivial
  | raise e => exact fun _ _ => trivial
  | call o k ih =>
    obtain ⟨ho, hk⟩ := hp
    refine secure_bind (R := fun _ _ => True) ?_ (fun r t _ => ih r (hk r)) fun _ _ _ => trivial
    cases o with
    | readValue reg => exact absurd rfl ho
    | writeValue reg v => exact absurd rfl ho
    | mutexLock =>
      exact secure_mutexLock (P := fun _ => True) (fun h _ => h) (fun h _ => h)
        (fun _ _ _ => trivial) trivial
    | mutexUnlock =>
      exact secure_mutexUnlock (P := fun _ => True) (fun h _ => h) (fun h _ => h)
        (fun _ _ h => by cases h) (fun _ _ => trivial) trivial
    | data => exact secure_free rfl (fun h _ => h) trivial
    | assign f => exact secure_free rfl (fun h _ => h) trivial
    | jiffies => exact secure_free rfl (fun h _ => h) trivial

/-- Callers that access the controller only under the lock all reach what they mean, and so does
one that accesses it at all. -/
theorem along_faithful {threads : Fin 2 → Driver α} (hfree : s.owner = none)
    (ha : c.Aligned s.controller) (hbank : ∀ i, (threads i).Only It87Op.SparesBank)
    (h : (∀ i, (threads i).Locks It87Op.part false false) ∨ ∃ i, (threads i).Only It87Op.Idle)
    (schedule : List (Fin 2)) :
    Pool.Along (Bus.device c) (fun _ o r s t => c.Faithful o r s.controller t.controller)
      { threads := fun i => (threads i).interp c.access, state := s } schedule := by
  have hall : ∀ solo : Option (Fin 2), (∀ i, ((threads i).interp c.access).Secure
      (contract c solo i) (fun _ _ => True) s) →
      Pool.Along (Bus.device c) (fun _ o r s t => c.Faithful o r s.controller t.controller)
        { threads := fun i => (threads i).interp c.access, state := s } schedule := by
    intro solo hsecure
    have hsuit : ∀ i j, i ≠ j → ∀ o r s t, (contract c solo i).does o r s t →
        (contract c solo j).rely s t := fun i j hj o r s t hd => hd.2 j hj
    have hcounts := Pool.along_of_forall (d := fun i => (contract c solo i).device)
      (P := fun i o _ s _ => (contract c solo i).counts o s) (fun _ _ _ _ _ => trivial)
      { threads := fun i => (threads i).interp c.access, state := s } schedule
    exact (Pool.along_of_secure hsuit hsecure hcounts).1.mono fun _ _ _ _ _ hd => hd.1
  rcases h with hlocks | ⟨i, hidle⟩
  · refine hall none fun i => secure_locked (hlocks i) (hbank i) ⟨?_, fun _ => ha⟩
    rw [hfree]
    exact fun h => by cases h
  · refine hall (some (1 - i)) fun j => ?_
    by_cases hj : j = i
    · subst hj
      exact secure_idle hidle
    · have hother : j = 1 - i := by omega
      exact hother ▸ secure_solo (hbank _) ⟨.inl rfl, ha⟩

end Callers

end BuffaloNas.It87
