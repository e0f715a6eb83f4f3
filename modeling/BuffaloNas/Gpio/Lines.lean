import BuffaloNas.Gpio.Selected
import BuffaloNas.Interaction.Only

/-! Which lines of the GPIO driver drive, and what. -/
namespace BuffaloNas.Gpio
open Interaction Program SuperIo

/-! ### The data ports -/

/-- A board with the output latches of the lines, one byte for each group of eight. -/
structure Lines where
  board : Board
  latch : ℕ → Byte

/-- The group whose data port this is. -/
def It87Gpio.group? (c : It87Gpio) (port : Word) : Option ℕ :=
  if (port - c.ioBase).toNat < c.ngpio / 8 then some (port - c.ioBase).toNat else none

namespace Lines

variable (c : It87Gpio)

/-- The output-enable register of a group. -/
def enabled (s : Lines) (group : ℕ) : Byte :=
  s.board.chip.contents gpio (BitVec.ofNat 8 group + c.outputBase)

/-- A data port shows the latch of its outputs and the level of its inputs, whatever that is. -/
def shown (s : Lines) (group : ℕ) : Byte :=
  s.latch group &&& s.enabled c group ||| s.board.inputs 0 &&& ~~~s.enabled c group

def onBoard (s : Lines) (r : Except Empty α × Board) : Except Empty α × Lines :=
  (r.1, { s with board := r.2 })

def device : Device KernelOp KernelOp.Answer Empty Lines
  | .inb port, s =>
    match c.group? port with
    | some group =>
      (.ok (s.shown c group),
        { s with board := { s.board with inputs := fun n => s.board.inputs (n + 1) } })
    | none => s.onBoard (Board.device (.inb port) s.board)
  | .outb value port, s =>
    match c.group? port with
    | some group => (.ok (), { s with latch := Function.update s.latch group value })
    | none => s.onBoard (Board.device (.outb value port) s.board)
  | o, s => s.onBoard (Board.device o s.board)

end Lines

/-- The line is an output and its latch holds the value. -/
def Drives (c : It87Gpio) (s : Lines) (gpioNum : ℕ) (value : Bool) : Prop :=
  (s.enabled c (gpioNum / 8)).getLsbD (gpioNum % 8) ∧
    (s.latch (gpioNum / 8)).getLsbD (gpioNum % 8) = value

instance (c : It87Gpio) (s : Lines) (gpioNum : ℕ) (value : Bool) :
    Decidable (Drives c s gpioNum value) := inferInstanceAs (Decidable (_ ∧ _))

variable {c : It87Gpio} {s : Lines} {b : Board} {gpioNum n : ℕ}

@[simp] theorem getLsbD_lineMask {i : ℕ} (hi : i < 8) :
    (lineMask gpioNum).getLsbD i = decide (i = gpioNum % 8) := by
  change (BitVec.ofNat 8 (1 <<< (gpioNum % 8))).getLsbD i = _
  rw [BitVec.getLsbD_ofNat, Nat.one_shiftLeft, Nat.testBit_two_pow]
  simp [hi, eq_comm]

/-- Changing one bit of a byte. -/
def setBit (value : Bool) (mask x : Byte) : Byte := if value then x ||| mask else x &&& ~~~mask

theorem getLsbD_setBit {i : ℕ} (hi : i < 8) (value : Bool) (x : Byte) :
    (setBit value (lineMask gpioNum) x).getLsbD i =
      if i = gpioNum % 8 then value else x.getLsbD i := by
  cases value
  · simp only [setBit, Bool.false_eq_true, if_false, BitVec.getLsbD_and, BitVec.getLsbD_not, hi,
      getLsbD_lineMask]
    split <;> simp_all
  · simp only [setBit, if_true, BitVec.getLsbD_or, hi, getLsbD_lineMask]
    split <;> simp_all

/-- The port of a line belongs to its group. -/
theorem group?_linePort (hc : c.Tabled) (hn : gpioNum < c.ngpio) :
    c.group? (BitVec.ofNat 16 (gpioNum / 8) + c.ioBase) = some (gpioNum / 8) := by
  have hg := hc.groups
  have hp := hc.ports
  have hs := c.ioSize.isLt
  have hd : (BitVec.ofNat 16 (gpioNum / 8) + c.ioBase - c.ioBase).toNat = gpioNum / 8 := by
    rw [BitVec.add_sub_cancel, BitVec.toNat_ofNat]
    omega
  rw [It87Gpio.group?, hd, if_pos (by omega)]

/-- What `it87_gpio_set` leaves in the latch of the group. -/
theorem run_it87GpioSet (hc : c.Tabled) (hn : gpioNum < c.ngpio) (value : Bool) :
    (it87GpioSet c gpioNum value).run (Lines.device c) s =
      (.ok (),
        { board := { s.board with inputs := fun n => s.board.inputs (n + 1) }
          latch := Function.update s.latch (gpioNum / 8)
            (setBit value (lineMask gpioNum) (s.shown c (gpioNum / 8))) }) := by
  have hg := group?_linePort hc hn
  cases value <;>
    simp [it87GpioSet, inb, outb, Lines.device, hg, setBit]

/-- Setting a line leaves what the other outputs drive. -/
theorem drives_set (hc : c.Tabled) (hn : gpioNum < c.ngpio) (value : Bool) {v : Bool}
    (h : Drives c s n v) :
    Drives c ((it87GpioSet c gpioNum value).run (Lines.device c) s).2 n
      (if n = gpioNum then value else v) := by
  obtain ⟨he, hv⟩ := h
  rw [run_it87GpioSet hc hn]
  refine ⟨he, ?_⟩
  dsimp only
  by_cases hg : n / 8 = gpioNum / 8
  · rw [hg, Function.update_self, getLsbD_setBit (Nat.mod_lt _ (by decide))]
    by_cases hm : n % 8 = gpioNum % 8
    · rw [if_pos hm, if_pos (by omega)]
    · rw [if_neg hm, if_neg (by rintro rfl; exact hm rfl), ← hg]
      simp [Lines.shown, he, hv]
  · rw [Function.update_of_ne hg, if_neg (by rintro rfl; exact hg rfl)]
    exact hv

/-! ### The configuration mode -/

/-- The operation is on none of the data ports. -/
def OffLines (c : It87Gpio) : KernelOp → Prop
  | .inb port => c.group? port = none
  | .outb _ port => c.group? port = none
  | _ => True

theorem device_offLines {o : KernelOp} (h : OffLines c o) :
    Lines.device c o s = s.onBoard (Board.device o s.board) := by
  cases o with
  | inb port => simp only [Lines.device, show c.group? port = none from h]
  | outb value port => simp only [Lines.device, show c.group? port = none from h]
  | _ => rfl

/-- What stays off the data ports happens on the board alone. -/
theorem run_offLines {α : Type} {p : Kernel α} (h : p.Only (OffLines c)) :
    p.run (Lines.device c) s = s.onBoard (p.run Board.device s.board) := by
  have hstep : ∀ o (t : Lines) (b : Board), OffLines c o → t.board = b ∧ t.latch = s.latch →
      (Lines.device c o t).1 = (Board.device o b).1 ∧
        (Lines.device c o t).2.board = (Board.device o b).2 ∧
          (Lines.device c o t).2.latch = s.latch := by
    rintro o t b ho ⟨rfl, hl⟩
    rw [device_offLines ho]
    exact ⟨rfl, rfl, hl⟩
  obtain ⟨hr, ht, hl⟩ := h.run_simulates (R := fun t b => t.board = b ∧ t.latch = s.latch) hstep
    (s := s) ⟨rfl, rfl⟩
  generalize p.run (Lines.device c) s = x at hr ht hl
  obtain ⟨a, board, latch⟩ := x
  obtain rfl : board = _ := ht
  obtain rfl : latch = _ := hl
  exact congrArg (fun r => (r, _)) hr

/-- The ports of the chip are no data ports, when the driver's region keeps off them. -/
theorem group?_eq_none (hc : c.Tabled) (hw : c.ioBase.toNat + c.ioSize.toNat ≤ 0x10000)
    (ha : Region.overlaps (reg, 2) (c.ioBase, c.ioSize.toNat) = false) :
    c.group? reg = none ∧ c.group? val = none := by
  have hp := hc.ports
  have hr : (reg : Word).toNat = 0x2e := rfl
  have hv : (val : Word).toNat = 0x2f := rfl
  have hb := c.ioBase.isLt
  simp only [Region.not_overlaps_iff, hr] at ha
  constructor
  · rw [It87Gpio.group?, if_neg]
    rw [BitVec.toNat_sub, hr]
    omega
  · rw [It87Gpio.group?, if_neg]
    rw [BitVec.toNat_sub, hv]
    omega

section Off
variable (hr : c.group? reg = none) (hv : c.group? val = none)
include hr hv

theorem only_superioInb (r : Byte) : (superioInb r).Only (OffLines c) :=
  only_bind ((only_perform _).mpr hr) fun _ => (only_perform _).mpr hv

theorem only_superioOutb (v r : Byte) : (superioOutb v r).Only (OffLines c) :=
  only_bind ((only_perform _).mpr hr) fun _ => (only_perform _).mpr hv

/-- A register is read, and written back when that changes it. -/
theorem only_change (f : Byte → Byte) (r : Byte) :
    (do let value ← superioInb r
        if value ≠ f value then superioOutb (f value) r : Kernel Unit).Only (OffLines c) :=
  only_bind (only_superioInb hr hv r) fun _ =>
    only_ite (fun _ => only_superioOutb hr hv _ r) fun _ => only_pure _

omit hv in
theorem only_superioEnter : superioEnter.Only (OffLines c) := by
  refine only_bind ((only_perform _).mpr trivial) fun _ => only_ite (fun _ => ?_) fun _ => ?_
  · exact only_bind ((only_perform _).mpr hr) fun _ => only_bind ((only_perform _).mpr hr) fun _ =>
      only_bind ((only_perform _).mpr hr) fun _ => only_bind ((only_perform _).mpr hr) fun _ =>
        only_pure _
  · exact only_pure _

theorem only_superioExit : superioExit.Only (OffLines c) :=
  only_bind ((only_perform _).mpr hr) fun _ => only_bind ((only_perform _).mpr hv) fun _ =>
    (only_perform _).mpr trivial

end Off

/-- The contents with one register changed. -/
def put (k : Contents) (l r v : Byte) : Contents := fun l' r' =>
  if l' = l ∧ r' = r then v else k l' r'

theorem contents_store {chip : Chip} {r : Byte} (hm : chip.mode = .config) (hr : Enables r)
    (v : Byte) : ({ chip with index := r }.store v).contents = put chip.contents chip.ldn r v := by
  obtain ⟨h2, h7⟩ := ne_of_enables hr
  have h25 : ¬ r < 0x25 := by rcases hr with hr | hr <;> bv_omega
  funext l' r'
  simp only [Chip.store, hm, ne_eq, not_true, if_false, h2, h7, h25, put, Chip.contents, Chip.read]
  by_cases h7' : r' = 0x07
  · simp only [h7', if_true]
    exact (if_neg fun h => h7 h.2.symm).symm
  by_cases hl : l' = chip.ldn
  · subst hl
    by_cases hrr : r' = r
    · subst hrr
      rw [if_neg h7, if_neg h25, Function.update_self, Function.update_self, if_pos ⟨rfl, rfl⟩]
    · simp [hrr]
  · simp [hl]

theorem run_change {r : Byte} (hb : Inside c gpio b) (hr : Enables r) (f : Byte → Byte) :
    ∃ t, (do let value ← superioInb r
             if value ≠ f value then superioOutb (f value) r : Kernel Unit).run Board.device b =
        (.ok (), t) ∧ Inside c gpio t ∧
      t.chip.contents = put b.chip.contents gpio r (f (b.chip.contents gpio r)) := by
  obtain ⟨hm, hl, hh⟩ := hb
  obtain ⟨h2, h7⟩ := ne_of_enables hr
  have hread : b.chip.read r = b.chip.contents gpio r := by rw [← hl]; rfl
  rw [run_bind, run_superioInb hm, andThen_ok, hread, run_ite]
  split
  · have hs := Chip.store_same (c := { b.chip with index := r }) h2 h7
      (f (b.chip.contents gpio r))
    refine ⟨_, run_superioOutb (b := pointed b r) hm _ r, ⟨hs.1.trans hm, hs.2.trans hl, hh⟩, ?_⟩
    rw [← hl]
    exact contents_store hm hr _
  · rename_i he
    refine ⟨pointed b r, rfl, ⟨hm, hl, hh⟩, ?_⟩
    funext l' r'
    rw [put]
    split
    · rename_i h
      rw [h.1, h.2]
      exact not_not.mp he
    · rfl

/-! ### One call -/

/-- A call that is refused has changed nothing. -/
theorem run_locked_refused (hg : ¬ s.board.grants (reg, 2)) (body : Kernel Unit) :
    (locked body).run (Lines.device c) s = (.ok (-ebusy), { s with board := s.board.judged }) := by
  have he : superioEnter.run (Lines.device c) s =
      (.ok (-ebusy), { s with board := s.board.judged }) := by
    have h : (s.board.request (reg, 2)) = (false, s.board.judged) := if_neg hg
    simp [superioEnter, Lines.device, Lines.onBoard, Board.device, h]
  simp [locked, he, Lines.device, Lines.onBoard, Board.device, ebusy]

theorem run_locked_granted (hs : Started c s.board) (hg : s.board.grants (reg, 2))
    {body : Kernel Unit} {t : Lines}
    (hbody : body.run (Lines.device c) { s with board := entered s.board } = (.ok (), t))
    (ht : Inside c gpio t.board) :
    ∃ u, (locked body).run (Lines.device c) s = (.ok 0, u) ∧ u.latch = t.latch ∧
      u.board.chip.contents = t.board.chip.contents ∧ Started c u.board := by
  have ha := Board.not_overlaps_of_grants hg hs.between.held
  obtain ⟨hr, hv⟩ := group?_eq_none hs.tabled hs.within ha
  have he : superioEnter.run (Lines.device c) s = (.ok 0, { s with board := entered s.board }) := by
    rw [run_offLines (only_superioEnter hr), run_superioEnter, if_pos hg]
    rfl
  have hx := run_offLines (s := t) (only_superioExit hr hv)
  rw [run_superioExit ht.config] at hx
  refine ⟨(superioExit.run (Lines.device c) t).2, ?_, ?_, ?_, ?_⟩
  · simp [locked, he, hbody, hx, Lines.device, Lines.onBoard, Board.device]
  · rw [hx]
    rfl
  · rw [hx]
    rfl
  · rw [hx]
    refine ⟨hs.tabled, hs.within, ht.ldn, ?_⟩
    refine (List.mem_erase_of_ne fun h => hs.tabled.size_ne ?_).mpr ht.held
    exact congrArg Prod.snd h

/-! ### The registers of the lines -/

/-- No two groups share a register. -/
structure It87Gpio.Apart (c : It87Gpio) : Prop where
  simple : ∀ group < c.simpleSize.toNat, ∀ group' < c.ngpio / 8,
    BitVec.ofNat 8 group' + c.outputBase ≠ BitVec.ofNat 8 group + c.simpleBase
  output : ∀ group < c.ngpio / 8, ∀ group' < c.ngpio / 8,
    BitVec.ofNat 8 group' + c.outputBase = BitVec.ofNat 8 group + c.outputBase → group' = group

theorem apart_of_supported {id : Word} {gpioBaReg : Byte}
    (h : supported id = some (gpioBaReg, c)) : c.Apart := by
  unfold supported at h
  split at h <;> cases h <;> constructor <;> decide

/-- If a chip is registered, then that one. -/
def Registers (c : It87Gpio) (p : Kernel (Except ℤ It87Gpio)) : Prop :=
  ∀ b, p.Keeps Board.device (fun _ _ => True) b fun r _ =>
    ∀ c', r = .ok (.ok c') → ∃ ioBase, c' = { c with ioBase }

theorem registers_error (e : ℤ) : Registers c (pure (.error e)) :=
  fun _ => keeps_pure fun _ h => by cases h

theorem registers_bind {α : Type} {p : Kernel α} {f : α → Kernel (Except ℤ It87Gpio)}
    (hf : ∀ a, Registers c (f a)) : Registers c (p >>= f) :=
  fun _ => keeps_bind_total (keeps_outcome (Q := fun _ _ => True) trivial) fun a t _ => hf a t

theorem registers_ite {x : Prop} [Decidable x] {p q : Kernel (Except ℤ It87Gpio)}
    (hp : Registers c p) (hq : Registers c q) : Registers c (if x then p else q) :=
  fun b => keeps_ite (fun _ => hp b) fun _ => hq b

theorem registers_addLines (ioBase : Word) : Registers c (addLines { c with ioBase }) := by
  refine registers_bind fun labels => registers_bind fun table => registers_ite ?_ ?_
  · exact registers_bind fun _ => registers_error _
  · refine registers_bind fun rc => registers_ite ?_ ?_
    · exact registers_bind fun _ => registers_error _
    · exact fun _ => keeps_pure fun c' h => by
        cases h
        exact ⟨ioBase, rfl⟩

theorem registers_addChip (gpioBaReg : Byte) : Registers c (addChip gpioBaReg c) := by
  refine registers_bind fun rc => registers_ite (registers_error _) ?_
  refine registers_bind fun ioBase => registers_bind fun granted => ?_
  exact registers_ite (registers_error _) (registers_addLines ioBase)

/-- The initialisation registers a chip of the table. -/
theorem apart_of_init {b' : Board} (h : it87GpioInit.run Board.device b = (.ok (.ok c), b')) :
    c.Apart := by
  suffices hk : it87GpioInit.Keeps Board.device (fun _ _ => True) b fun r _ =>
      ∀ c, r = .ok (.ok c) → c.Apart by
    have hq := hk.2
    rw [h] at hq
    exact hq c rfl
  have herror : ∀ (e : ℤ) b, (pure (.error e) : Kernel (Except ℤ It87Gpio)).Keeps Board.device
      (fun _ _ => True) b fun r _ => ∀ c, r = .ok (.ok c) → c.Apart :=
    fun e b => keeps_pure fun _ h => by cases h
  refine keeps_bind_total (keeps_outcome (Q := fun _ _ => True) trivial) fun rc t _ => ?_
  refine keeps_ite (fun _ => herror _ _) fun _ => ?_
  refine keeps_bind_total (keeps_outcome (Q := fun _ _ => True) trivial) fun chipType u _ => ?_
  refine keeps_bind_total (keeps_outcome (Q := fun _ _ => True) trivial) fun chipRev v _ => ?_
  refine keeps_bind_total (keeps_outcome (Q := fun _ _ => True) trivial) fun _ w _ => ?_
  rcases hs : supported chipType with _ | ⟨gpioBaReg, c⟩
  · exact herror _ _
  · refine ⟨always_true _, fun c' hc' => ?_⟩
    obtain ⟨ioBase, rfl⟩ := (registers_addChip gpioBaReg w).2 c' hc'
    have ha := apart_of_supported hs
    exact ⟨ha.simple, ha.output⟩

theorem lineGroup_eq : BitVec.ofNat 8 (lineGroup gpioNum).toNat = lineGroup gpioNum := by
  rw [BitVec.ofNat_toNat, BitVec.setWidth_eq]

section Drives
variable (hc : c.Tabled) (ha : c.Apart) (hn : gpioNum < c.ngpio)
include hc hn

theorem group_lt : gpioNum / 8 < c.ngpio / 8 := by
  have := hc.groups
  omega

variable {t : Lines} {f : Byte → Byte} {r : Byte} (hl : t.latch = s.latch)
include hl ha

omit hn in
/-- A change of a simple-I/O register leaves the outputs. -/
theorem drives_simple {group : ℕ} (hg : group < c.simpleSize.toNat) {x : Byte}
    (hk : t.board.chip.contents =
      put s.board.chip.contents gpio (BitVec.ofNat 8 group + c.simpleBase) x)
    (hm : n < c.ngpio) {v : Bool} (h : Drives c s n v) : Drives c t n v := by
  refine ⟨?_, by rw [hl]; exact h.2⟩
  rw [Lines.enabled, hk, put, if_neg fun he => ha.simple _ hg _ (group_lt hc hm) he.2]
  exact h.1

/-- A line of another group, or whose bit the change leaves set, drives what it drove. -/
theorem drives_output
    (hk : t.board.chip.contents = put s.board.chip.contents gpio
      (lineGroup gpioNum + c.outputBase) (f (s.enabled c (gpioNum / 8))))
    (hm : n < c.ngpio)
    (hf : n / 8 = gpioNum / 8 → ∀ x : Byte, x.getLsbD (n % 8) → (f x).getLsbD (n % 8)) {v : Bool}
    (h : Drives c s n v) : Drives c t n v := by
  refine ⟨?_, by rw [hl]; exact h.2⟩
  rw [Lines.enabled, hk, put]
  by_cases hg : n / 8 = gpioNum / 8
  · rw [if_pos ⟨rfl, by rw [hg, lineGroup]⟩]
    exact hf hg _ (hg ▸ h.1)
  · rw [if_neg fun he => hg (ha.output _ (group_lt hc hn) _ (group_lt hc hm) he.2)]
    exact h.1

end Drives

/-! ### Runs of calls -/

/-- What `gpiolib` asks of the driver. -/
inductive Call (c : It87Gpio)
  | request (gpioNum : Fin c.ngpio)
  | directionIn (gpioNum : Fin c.ngpio)
  | directionOut (gpioNum : Fin c.ngpio) (value : Bool)
  | set (gpioNum : Fin c.ngpio) (value : Bool)

/-- The values given to the lines that are outputs. -/
abbrev Given := ℕ → Option Bool

namespace Call

/-- `it87_gpio_set` returns nothing. -/
def program : Call c → Kernel ℤ
  | request gpioNum => it87GpioRequest c gpioNum
  | directionIn gpioNum => it87GpioDirectionIn c gpioNum
  | directionOut gpioNum value => it87GpioDirectionOut c gpioNum value
  | set gpioNum value => (fun _ => 0) <$> it87GpioSet c gpioNum value

/-- A successful call makes a line an output with a value, gives an output another value, or
takes it back. -/
def give (given : Given) : Call c → Given
  | request gpioNum => Function.update given gpioNum none
  | directionIn gpioNum => Function.update given gpioNum none
  | directionOut gpioNum value => Function.update given gpioNum (some value)
  | set gpioNum value => Function.update given gpioNum ((given gpioNum).map fun _ => value)

/-- One call, and what it gives when it returns no error. -/
def step (x : Lines × Given) (call : Call c) : Lines × Given :=
  let r := call.program.run (Lines.device c) x.1
  (r.2, match r.1 with
    | .ok rc => if rc = 0 then call.give x.2 else x.2)

end Call

/-- Every output of the driver drives the value it was given. -/
structure Kept (c : It87Gpio) (x : Lines × Given) : Prop where
  started : Started c x.1.board
  apart : c.Apart
  drives : ∀ n < c.ngpio, ∀ v, x.2 n = some v → Drives c x.1 n v

/-- The same lines, whatever else has happened to the board. -/
structure Same (s t : Lines) : Prop where
  latch : t.latch = s.latch
  contents : t.board.chip.contents = s.board.chip.contents

theorem Drives.same {t : Lines} {v : Bool} (hst : Same s t) (h : Drives c s n v) :
    Drives c t n v := by
  obtain ⟨he, hv⟩ := h
  refine ⟨?_, by rw [hst.latch]; exact hv⟩
  rw [Lines.enabled, hst.contents]
  exact he

variable {given given' : Given}

/-- A call either succeeds, and the outputs drive what they are given then, or it is refused and
changes nothing. -/
def Served (c : It87Gpio) (s : Lines) (given' : Given) (r : Except Empty ℤ × Lines) : Prop :=
  r.1 = .ok 0 ∧ Kept c (r.2, given') ∨ r = (.ok (-ebusy), { s with board := s.board.judged })

/-- A call in the configuration mode: its body runs inside, or it is refused. -/
theorem served_locked {body : Kernel Unit} (hk : Kept c (s, given))
    (hbody : ∀ t, Same s t → Inside c gpio t.board → c.group? reg = none → c.group? val = none →
      ∃ u, body.run (Lines.device c) t = (.ok (), u) ∧ Inside c gpio u.board ∧
        ∀ n < c.ngpio, ∀ v, given' n = some v → Drives c u n v) :
    Served c s given' ((locked body).run (Lines.device c) s) := by
  have hs := hk.started
  by_cases hg : s.board.grants (reg, 2)
  · left
    have ho := Board.not_overlaps_of_grants hg hs.between.held
    obtain ⟨hr, hv⟩ := group?_eq_none hs.tabled hs.within ho
    have hin : Inside c gpio (entered s.board) :=
      ⟨Chip.wake_mode, Chip.wake_ldn.trans hs.between.ldn,
        List.mem_cons_of_mem _ hs.between.held⟩
    obtain ⟨u, hu, hui, hd⟩ :=
      hbody { s with board := entered s.board } ⟨rfl, Chip.wake_contents⟩ hin hr hv
    obtain ⟨t, ht, hl, hc, hst⟩ := run_locked_granted hs hg hu hui
    rw [ht]
    exact ⟨rfl, hst, hk.apart, fun n hn v hv => (hd n hn v hv).same ⟨hl, hc⟩⟩
  · right
    exact run_locked_refused hg body

/-- Inside, a register of the driver is changed and nothing else. -/
theorem run_change_lines {r : Byte} (hb : Inside c gpio s.board) (hr : c.group? reg = none)
    (hv : c.group? val = none) (ho : Enables r) (f : Byte → Byte) :
    ∃ t, (do let value ← superioInb r
             if value ≠ f value then superioOutb (f value) r : Kernel Unit).run (Lines.device c) s =
        (.ok (), t) ∧ Inside c gpio t.board ∧ t.latch = s.latch ∧
      t.board.chip.contents = put s.board.chip.contents gpio r (f (s.board.chip.contents gpio r)) := by
  obtain ⟨t, ht, hi, hk⟩ := run_change hb ho f
  refine ⟨{ s with board := t }, ?_, hi, rfl, hk⟩
  rw [run_offLines (only_change hr hv f r), ht]
  rfl

section Step
variable (hk : Kept c (s, given)) (gpioNum : Fin c.ngpio)
include hk

/-- Clearing a line's output-enable bit is what both ways back to an input do. -/
theorem run_disable {t : Lines} (ht : Inside c gpio t.board) (hr : c.group? reg = none)
    (hv : c.group? val = none) (hd : ∀ n < c.ngpio, ∀ v, given n = some v → Drives c t n v) :
    ∃ u, (superioClearMask (lineMask gpioNum) (lineGroup gpioNum + c.outputBase)).run
        (Lines.device c) t = (.ok (), u) ∧ Inside c gpio u.board ∧
      ∀ n < c.ngpio, ∀ v, Function.update given gpioNum none n = some v → Drives c u n v := by
  have hc := hk.started.tabled
  have ho := hc.enables (owns_output hc gpioNum.isLt)
  obtain ⟨u, hu, hi, hl, hku⟩ := run_change_lines ht hr hv ho (· &&& ~~~lineMask gpioNum)
  refine ⟨u, hu, hi, fun n hn v hnv => ?_⟩
  have hne : n ≠ gpioNum := by
    rintro rfl
    simp at hnv
  rw [Function.update_of_ne hne] at hnv
  refine drives_output (f := (· &&& ~~~lineMask gpioNum)) hc hk.apart gpioNum.isLt hl hku hn ?_
    (hd n hn v hnv)
  intro hg x hx
  have hm : n % 8 ≠ gpioNum % 8 := fun he => hne (by omega)
  exact (getLsbD_setBit (Nat.mod_lt n (by decide)) false x).trans ((if_neg hm).trans hx)

theorem served_request :
    Served c s ((Call.request gpioNum).give given)
      ((Call.request gpioNum).program.run (Lines.device c) s) := by
  refine served_locked hk fun t hst ht hr hv => ?_
  have hc := hk.started.tabled
  have hd : ∀ n < c.ngpio, ∀ v, given n = some v → Drives c t n v :=
    fun n hn v hnv => (hk.drives n hn v hnv).same hst
  by_cases hg : lineGroup gpioNum < c.simpleSize
  · rw [if_pos hg, run_bind]
    have ho := hc.enables (owns_simple hg)
    obtain ⟨u, hu, hi, hl, hku⟩ := run_change_lines ht hr hv ho (· ||| lineMask gpioNum)
    have hu' : (superioSetMask (lineMask gpioNum) (lineGroup gpioNum + c.simpleBase)).run
        (Lines.device c) t = (.ok (), u) := hu
    rw [hu', andThen_ok]
    refine run_disable hk gpioNum hi hr hv fun n hn v hnv => ?_
    rw [← lineGroup_eq] at hku
    exact drives_simple hc hk.apart hl hg hku hn (hd n hn v hnv)
  · rw [if_neg hg]
    exact run_disable hk gpioNum ht hr hv hd

theorem served_directionIn :
    Served c s ((Call.directionIn gpioNum).give given)
      ((Call.directionIn gpioNum).program.run (Lines.device c) s) := by
  refine served_locked hk fun t hst ht hr hv => ?_
  exact run_disable hk gpioNum ht hr hv fun n hn v hnv => (hk.drives n hn v hnv).same hst

theorem served_directionOut (value : Bool) :
    Served c s ((Call.directionOut gpioNum value).give given)
      ((Call.directionOut gpioNum value).program.run (Lines.device c) s) := by
  refine served_locked hk fun t hst ht hr hv => ?_
  have hc := hk.started.tabled
  have hn := gpioNum.isLt
  have ho := hc.enables (owns_output hc hn)
  obtain ⟨u, hu, hi, hl, hku⟩ := run_change_lines ht hr hv ho (· ||| lineMask gpioNum)
  have hu' : (superioSetMask (lineMask gpioNum) (lineGroup gpioNum + c.outputBase)).run
      (Lines.device c) t = (.ok (), u) := hu
  rw [run_bind, hu', andThen_ok]
  refine ⟨_, Prod.ext (by rw [run_it87GpioSet hc hn]) rfl, ?_, fun n hn' v hnv => ?_⟩
  · rw [run_it87GpioSet hc hn]
    exact ⟨hi.config, hi.ldn, hi.held⟩
  by_cases hne : n = gpioNum
  · subst hne
    obtain rfl : value = v := by simpa [Call.give] using hnv
    have he : (u.enabled c (gpioNum / 8)).getLsbD (gpioNum % 8) := by
      rw [Lines.enabled, hku, put, if_pos ⟨rfl, rfl⟩]
      exact (getLsbD_setBit (Nat.mod_lt _ (by decide)) true _).trans (if_pos rfl)
    have hd := drives_set hc hn value (n := gpioNum) ⟨he, rfl⟩
    rwa [if_pos rfl] at hd
  · rw [Call.give, Function.update_of_ne hne] at hnv
    have hd : Drives c u n v := by
      refine drives_output (f := (· ||| lineMask gpioNum)) hc hk.apart hn hl hku hn' ?_
        ((hk.drives n hn' v hnv).same hst)
      intro _ x hx
      rw [BitVec.getLsbD_or, hx, Bool.true_or]
    have hd := drives_set hc hn value hd
    rwa [if_neg hne] at hd

theorem served_set (value : Bool) :
    Served c s ((Call.set gpioNum value).give given)
      ((Call.set gpioNum value).program.run (Lines.device c) s) := by
  have hs := hk.started
  have hn := gpioNum.isLt
  have hrun : (Call.set gpioNum value).program.run (Lines.device c) s =
      (.ok 0, ((it87GpioSet c gpioNum value).run (Lines.device c) s).2) := by
    rw [Call.program, run_map, run_it87GpioSet hs.tabled hn, andThen_ok]
  rw [hrun]
  left
  refine ⟨rfl, ?_, hk.apart, fun n hn' v hnv => ?_⟩
  · rw [run_it87GpioSet hs.tabled hn]
    exact ⟨hs.tabled, hs.within, hs.between.ldn, hs.between.held⟩
  · by_cases hne : n = gpioNum
    · subst hne
      simp only [Call.give, Function.update_self, Option.map_eq_some_iff] at hnv
      obtain ⟨w, hw, rfl⟩ := hnv
      have hd := drives_set hs.tabled hn value (hk.drives _ hn' w hw)
      rwa [if_pos rfl] at hd
    · simp only [Call.give, Function.update_of_ne hne] at hnv
      have hd := drives_set hs.tabled hn value (hk.drives n hn' v hnv)
      rwa [if_neg hne] at hd

end Step

theorem served (hk : Kept c (s, given)) (call : Call c) :
    Served c s (call.give given) (call.program.run (Lines.device c) s) := by
  cases call with
  | request gpioNum => exact served_request hk gpioNum
  | directionIn gpioNum => exact served_directionIn hk gpioNum
  | directionOut gpioNum value => exact served_directionOut hk gpioNum value
  | set gpioNum value => exact served_set hk gpioNum value

theorem kept_step {x : Lines × Given} (hk : Kept c x) (call : Call c) : Kept c (call.step x) := by
  obtain ⟨s, given⟩ := x
  rcases served hk call with ⟨h0, hk'⟩ | hr
  · rw [Call.step, h0]
    exact hk'
  · rw [Call.step, hr]
    exact ⟨hk.started.judged, hk.apart, fun n hn v hv => (hk.drives n hn v hv).same ⟨rfl, rfl⟩⟩

theorem kept_run {x : Lines × Given} (hk : Kept c x) (calls : List (Call c)) :
    Kept c (calls.foldl Call.step x) := by
  induction calls generalizing x with
  | nil => exact hk
  | cons call calls ih => exact ih (kept_step hk call)

/-- Only a refused call returns an error. -/
theorem eq_of_error {x : Lines × Given} (hk : Kept c x) {call : Call c} {rc : ℤ} {t : Lines}
    (h : call.program.run (Lines.device c) x.1 = (.ok rc, t)) (h0 : rc ≠ 0) :
    t = { x.1 with board := x.1.board.judged } := by
  rcases served hk call with ⟨hrc, -⟩ | hr
  · rw [h] at hrc
    exact absurd (Except.ok.inj hrc) h0
  · rw [h] at hr
    exact congrArg Prod.snd hr

/-- In every run of calls from the registration of the chip on, the outputs drive the values that
they were given last, and a call that returns an error has changed nothing. -/
theorem drives_of_run {b' : Board} (h : it87GpioInit.run Board.device b = (.ok (.ok c), b'))
    (latch : ℕ → Byte) (calls : List (Call c)) :
    let x := calls.foldl Call.step ({ board := b', latch }, fun _ => none)
    (∀ n < c.ngpio, ∀ v, x.2 n = some v → Drives c x.1 n v) ∧
      ∀ (call : Call c) (rc : ℤ) (t : Lines),
        call.program.run (Lines.device c) x.1 = (.ok rc, t) → rc ≠ 0 →
          t = { x.1 with board := x.1.board.judged } := by
  intro x
  have hk : Kept c x :=
    kept_run ⟨started_of_init h, apart_of_init h, fun n _ v hv => by cases hv⟩ calls
  exact ⟨hk.drives, fun call rc t hrun h0 => eq_of_error hk hrun h0⟩

theorem line_lt (n : ℕ) : n % 64 < it8721Lines.ngpio := Nat.mod_lt n (by decide)

/-- A line of the IT8721. -/
def line (n : ℕ) : Fin it8721Lines.ngpio := ⟨n % 64, line_lt n⟩

/-- Line 0 high and line 1 low, and line 2 of the same group driven in between. -/
def driveThree : List (Call it8721Lines) :=
  [.request (line 0), .directionOut (line 0) true, .directionOut (line 2) true,
    .directionOut (line 1) true, .set (line 2) false, .set (line 1) false]

theorem drives_it8721 :
    let x := driveThree.foldl Call.step
      ({ board := it8721Started true, latch := fun _ => 0xf0 }, fun _ => none)
    Drives it8721Lines x.1 0 true ∧ Drives it8721Lines x.1 1 false := by
  have h := (drives_of_run (init_it8721Board true) (fun _ => 0xf0) driveThree).1
  exact ⟨h 0 (by decide) true (by decide +kernel), h 1 (by decide) false (by decide +kernel)⟩

end BuffaloNas.Gpio
