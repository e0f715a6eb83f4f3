import BuffaloNas.Gpio.Driver

/-! What one session of the GPIO driver does to the chip, and with which device selected. -/
namespace BuffaloNas.Gpio
open Interaction Program SuperIo Board

variable {c : It87Gpio} {b : Board} {r l : Byte}

/-! ### The driver's registers -/

/-- The registers for simple I/O and for output enable. -/
def It87Gpio.Owns (c : It87Gpio) (r : Byte) : Prop :=
  (∃ group < c.simpleSize.toNat, r = BitVec.ofNat 8 group + c.simpleBase) ∨
    ∃ group < c.ngpio / 8, r = BitVec.ofNat 8 group + c.outputBase

/-- Where the driver's registers are in the address space of the chip. -/
def Enables (r : Byte) : Prop := 0xc0 ≤ r ∧ r < 0xd0 ∨ 0xf0 ≤ r ∧ r < 0xf2

instance (r : Byte) : Decidable (Enables r) := inferInstanceAs (Decidable (_ ∨ _))

/-- What the table of chips guarantees. -/
structure It87Gpio.Tabled (c : It87Gpio) : Prop where
  simple : ∀ group < c.simpleSize.toNat, Enables (BitVec.ofNat 8 group + c.simpleBase)
  output : ∀ group < c.ngpio / 8, Enables (BitVec.ofNat 8 group + c.outputBase)
  groups : c.ngpio = 8 * (c.ngpio / 8)
  ports : c.ngpio / 8 ≤ c.ioSize.toNat
  size_ne : c.ioSize.toNat ≠ 2

theorem tabled_of_supported {id : Word} {gpioBaReg : Byte}
    (h : supported id = some (gpioBaReg, c)) : c.Tabled := by
  unfold supported at h
  split at h <;> cases h <;> constructor <;> decide

theorem It87Gpio.Tabled.enables (h : c.Tabled) (hr : c.Owns r) : Enables r := by
  rcases hr with ⟨group, hg, rfl⟩ | ⟨group, hg, rfl⟩
  · exact h.simple group hg
  · exact h.output group hg

/-- A register that enables nothing is none of the driver's. -/
theorem It87Gpio.Tabled.ldn_of_owns (h : c.Tabled) (hr : ¬ Enables r) (ho : c.Owns r) : l = gpio :=
  absurd (h.enables ho) hr

/-! ### The accesses -/

/-- The operation reads or writes the chip's data port. -/
def OnData : KernelOp → Prop
  | .inb port => port = val
  | .outb _ port => port = val
  | _ => False

/-- An access to one of the driver's registers finds the GPIO device selected. -/
def Selected (c : It87Gpio) (o : KernelOp) (b : Board) : Prop :=
  OnData o → c.Owns b.chip.index → b.chip.ldn = gpio

def pointed (b : Board) (r : Byte) : Board := { b with chip := { b.chip with index := r } }

theorem run_outb_reg (v : Byte) :
    (outb v reg).run device b = (.ok (), { b with chip := b.chip.point v }) := rfl

theorem run_outb_val (v : Byte) :
    (outb v val).run device b = (.ok (), { b with chip := b.chip.store v }) := rfl

theorem run_inb_val : (inb val).run device b = (.ok b.chip.load, b) := rfl

theorem always_outb_reg (v : Byte) : (outb v reg).Always device (Selected c) b :=
  (always_perform _).mpr fun h => absurd (show reg = val from h) (by decide)

theorem always_outb_val (v : Byte) :
    (outb v val).Always device (Selected c) b ↔ (c.Owns b.chip.index → b.chip.ldn = gpio) :=
  (always_perform _).trans ⟨fun h => h rfl, fun h _ => h⟩

theorem always_inb_val :
    (inb val).Always device (Selected c) b ↔ (c.Owns b.chip.index → b.chip.ldn = gpio) :=
  (always_perform _).trans ⟨fun h => h rfl, fun h _ => h⟩

/-- What another device is written changes nothing here. -/
theorem maintains_outb_other {I : Board → Prop} {port : Word} (h1 : port ≠ reg) (h2 : port ≠ val)
    (v : Byte) : (outb v port).Maintains device (Selected c) I := by
  intro b hb
  refine keeps_perform (fun hd => absurd hd h2) ?_
  simp only [device, if_neg (show port ≠ indexPort from h1), if_neg (show port ≠ dataPort from h2)]
  exact hb

theorem maintains_inb_other {I : Board → Prop} {port : Word} (h2 : port ≠ val)
    (hI : ∀ b inputs, I b → I { b with inputs }) :
    (inb port).Maintains device (Selected c) I := by
  intro b hb
  refine keeps_perform (fun hd => absurd hd h2) ?_
  simp only [device, if_neg (show port ≠ dataPort from h2)]
  exact hI b _ hb

section Config
variable (h : b.chip.mode = .config)
include h

theorem run_superioInb (r : Byte) :
    (superioInb r).run device b = (.ok (b.chip.read r), pointed b r) := by
  rw [superioInb, run_bind, run_outb_reg, andThen_ok, run_inb_val, Chip.point_config h]
  exact congrArg (fun value => (Except.ok value, pointed b r)) (if_pos h)

theorem always_superioInb (r : Byte) :
    (superioInb r).Always device (Selected c) b ↔ (c.Owns r → b.chip.ldn = gpio) := by
  rw [superioInb, always_bind, run_outb_reg, Chip.point_config h]
  simp only [always_outb_reg, always_inb_val, true_and, forall_const]

theorem run_superioInw (r : Byte) :
    (superioInw r).run device b = (.ok (b.chip.contents.word b.chip.ldn r), pointed b (r + 1)) := by
  rw [superioInw, run_bind, run_superioInb h, andThen_ok, run_bind,
    run_superioInb (b := pointed b r) h, andThen_ok]
  rfl

theorem run_superioOutb (v r : Byte) :
    (superioOutb v r).run device b =
      (.ok (), { b with chip := { b.chip with index := r }.store v }) := by
  rw [superioOutb, run_bind, run_outb_reg, andThen_ok, run_outb_val, Chip.point_config h]

theorem always_superioOutb (v r : Byte) :
    (superioOutb v r).Always device (Selected c) b ↔ (c.Owns r → b.chip.ldn = gpio) := by
  rw [superioOutb, always_bind, run_outb_reg, Chip.point_config h]
  simp only [always_outb_reg, always_outb_val, true_and, forall_const]

theorem run_superioSelect (l : Byte) :
    (superioSelect l).run device b =
      (.ok (), { b with chip := { b.chip with index := ldnreg, ldn := l } }) := by
  rw [superioSelect, run_bind, run_outb_reg, andThen_ok, run_outb_val, Chip.point_config h]
  simp [Chip.store, h, ldnreg]

theorem always_superioSelect (hc : c.Tabled) (l : Byte) :
    (superioSelect l).Always device (Selected c) b := by
  rw [superioSelect, always_bind, run_outb_reg, Chip.point_config h]
  simp only [always_outb_reg, always_outb_val, true_and, forall_const]
  exact hc.ldn_of_owns (by decide)

theorem run_superioExit :
    superioExit.run device b =
      (.ok (), { b with
        chip := { b.chip with index := 0x02, mode := .sleeping }
        held := b.held.erase (reg, 2) }) := by
  rw [superioExit, run_bind, run_outb_reg, andThen_ok, run_bind, run_outb_val, andThen_ok,
    run_perform, Chip.point_config h]
  simp [Chip.store, h, device]

theorem always_superioExit (hc : c.Tabled) : superioExit.Always device (Selected c) b := by
  rw [superioExit, always_bind, run_outb_reg, Chip.point_config h]
  refine ⟨always_outb_reg _, fun _ _ => (always_bind ..).mpr ⟨?_, fun _ _ => ?_⟩⟩
  · exact (always_outb_val _).mpr (hc.ldn_of_owns (r := 0x02) (by decide))
  · exact (always_perform _).mpr fun hd => hd.elim

end Config

/-- The board once the driver is in. -/
def entered (b : Board) : Board :=
  { b.judged with held := (reg, 2) :: b.held, chip := b.chip.wake }

theorem run_superioEnter :
    superioEnter.run device b =
      if b.grants (reg, 2) then (.ok 0, entered b) else (.ok (-ebusy), b.judged) := by
  rw [superioEnter, run_bind, run_perform]
  by_cases hg : b.grants (reg, 2)
  · simp [device, Board.request, hg, run_outb_reg, entered, judged, Chip.wake]
  · simp [device, Board.request, hg]

theorem always_superioEnter : superioEnter.Always device (Selected c) b := by
  rw [superioEnter, always_bind, always_perform]
  refine ⟨fun hd => hd.elim, fun granted _ => ?_⟩
  cases granted with
  | false => exact always_pure _
  | true => simp [always_outb_reg]

/-! ### The line operations -/

/-- In the configuration mode with device `l` selected; the driver holds its ports. -/
structure Inside (c : It87Gpio) (l : Byte) (b : Board) : Prop where
  config : b.chip.mode = .config
  ldn : b.chip.ldn = l
  held : (c.ioBase, c.ioSize.toNat) ∈ b.held

/-- Between two sessions, with device `l` selected. -/
structure Between (c : It87Gpio) (l : Byte) (b : Board) : Prop where
  ldn : b.chip.ldn = l
  held : (c.ioBase, c.ioSize.toNat) ∈ b.held

/-- A read returns what the chip holds, and leaves all of it. -/
theorem keeps_superioInb (hb : Inside c l b) (hr : c.Owns r → l = gpio) :
    (superioInb r).Keeps device (Selected c) b fun x t =>
      x = .ok (b.chip.contents l r) ∧ t.chip.contents = b.chip.contents ∧ Inside c l t := by
  obtain ⟨hm, rfl, hh⟩ := hb
  rw [Keeps, run_superioInb hm]
  exact ⟨(always_superioInb hm r).mpr hr, rfl, rfl, hm, rfl, hh⟩

theorem maintains_superioInb (hr : c.Owns r → l = gpio) :
    (superioInb r).Maintains device (Selected c) (Inside c l) := by
  intro b hb
  obtain ⟨ha, -, -, ht⟩ := keeps_superioInb hb hr
  exact ⟨ha, ht⟩

theorem keeps_superioInw (hb : Inside c l b) (hr : c.Owns r → l = gpio)
    (hr' : c.Owns (r + 1) → l = gpio) :
    (superioInw r).Keeps device (Selected c) b fun x t =>
      x = .ok (b.chip.contents.word l r) ∧ t.chip.contents = b.chip.contents ∧ Inside c l t := by
  refine keeps_bind_total (keeps_superioInb hb hr) ?_
  intro high t ht
  obtain ⟨hhigh, hs, ht⟩ := ht
  refine keeps_bind_total (keeps_superioInb ht hr') ?_
  intro low u hu
  obtain ⟨hlow, hs', hu⟩ := hu
  obtain rfl := Except.ok.inj hhigh
  obtain rfl := Except.ok.inj hlow
  exact keeps_pure ⟨by rw [Contents.word, hs], hs'.trans hs, hu⟩

theorem keeps_superioSelect (hc : c.Tabled) (hb : Inside c l b) (k : Byte) :
    (superioSelect k).Keeps device (Selected c) b fun _ t =>
      t.chip.contents = b.chip.contents ∧ Inside c k t := by
  rw [Keeps, run_superioSelect hb.config]
  exact ⟨always_superioSelect hb.config hc k, rfl, hb.config, rfl, hb.held⟩

theorem maintains_superioOutb (hr : c.Owns r → l = gpio) (h2 : r ≠ 0x02) (h7 : r ≠ 0x07)
    (v : Byte) : (superioOutb v r).Maintains device (Selected c) (Inside c l) := by
  intro b hb
  rw [Keeps, run_superioOutb hb.config]
  have hs := Chip.store_same (c := { b.chip with index := r }) h2 h7 v
  exact ⟨(always_superioOutb hb.config v r).mpr fun ho => hb.ldn.trans (hr ho),
    hs.1.trans hb.config, hs.2.trans hb.ldn, hb.held⟩

theorem ne_of_enables (h : Enables r) : r ≠ 0x02 ∧ r ≠ 0x07 := by
  constructor <;> rintro rfl <;> exact absurd h (by decide)

theorem owns_simple {gpioNum : ℕ} (hn : lineGroup gpioNum < c.simpleSize) :
    c.Owns (lineGroup gpioNum + c.simpleBase) :=
  Or.inl ⟨(lineGroup gpioNum).toNat, hn, by rw [BitVec.ofNat_toNat, BitVec.setWidth_eq]⟩

/-- Entering keeps the selection too, whether it succeeds or not. -/
theorem keeps_superioEnter (hb : Between c l b) :
    superioEnter.Keeps device (Selected c) b fun rc t =>
      rc = .ok 0 ∧ b.grants (reg, 2) ∧ t = entered b ∧ Inside c l t ∨
        (∃ e, rc = .ok e ∧ e ≠ 0) ∧ ¬ b.grants (reg, 2) ∧ Between c l t := by
  refine ⟨always_superioEnter, ?_⟩
  rw [run_superioEnter]
  by_cases hg : b.grants (reg, 2)
  · rw [if_pos hg]
    exact Or.inl ⟨rfl, hg, rfl, Chip.wake_mode, Chip.wake_ldn.trans hb.ldn,
      List.mem_cons_of_mem _ hb.held⟩
  · rw [if_neg hg]
    exact Or.inr ⟨⟨_, rfl, by decide⟩, hg, hb.ldn, hb.held⟩

theorem maintains_unlock {α : Type} {a : α} :
    (do perform KernelOp.spinUnlock; return a : Kernel α).Maintains device (Selected c)
      (Between c l) :=
  maintains_bind (fun _ hb => keeps_perform (fun hd => hd.elim) hb) fun _ => maintains_pure a

theorem ldn_of_always_change (hr : c.Owns r) {f : Byte → Kernel Unit} (hm : b.chip.mode = .config)
    (h : (superioInb r >>= f).Always device (Selected c) b) : b.chip.ldn = gpio :=
  (always_superioInb hm r).mp ((always_bind ..).mp h).1 hr

/-- Conversely, a body that starts at one of the driver's registers needs its device. -/
theorem ldn_of_always_locked {body : Kernel Unit}
    (hbody : ∀ t, t.chip.mode = .config → body.Always device (Selected c) t → t.chip.ldn = gpio)
    (hg : b.grants (reg, 2)) (h : (locked body).Always device (Selected c) b) :
    b.chip.ldn = gpio := by
  obtain ⟨-, h⟩ := (always_bind ..).mp h
  obtain ⟨-, h⟩ := (always_bind ..).mp (h () rfl)
  have he : superioEnter.run device b = (.ok 0, entered b) := by rw [run_superioEnter, if_pos hg]
  have h0 := h 0 (congrArg Prod.fst he)
  change Always device (Selected c) _ (superioEnter.run device b).2 at h0
  rw [he, always_ite, if_pos rfl] at h0
  have h1 : body.Always device (Selected c) (entered b) := ((always_bind ..).mp h0).1
  exact Chip.wake_ldn.symm.trans (hbody (entered b) Chip.wake_mode h1)

section Tabled
variable (hc : c.Tabled)
include hc

/-- A register is read, and written back when that changes it. -/
theorem maintains_change (hr : c.Owns r) (f : Byte → Byte) :
    (do let value ← superioInb r
        if value ≠ f value then superioOutb (f value) r : Kernel Unit).Maintains device (Selected c)
      (Inside c gpio) := by
  obtain ⟨h2, h7⟩ := ne_of_enables (hc.enables hr)
  refine maintains_bind (maintains_superioInb fun _ => rfl) ?_
  intro value
  exact maintains_ite (fun _ => maintains_superioOutb (fun _ => rfl) h2 h7 _)
    fun _ => maintains_pure ()

theorem maintains_superioSetMask (hr : c.Owns r) (mask : Byte) :
    (superioSetMask mask r).Maintains device (Selected c) (Inside c gpio) :=
  maintains_change hc hr (· ||| mask)

theorem maintains_superioClearMask (hr : c.Owns r) (mask : Byte) :
    (superioClearMask mask r).Maintains device (Selected c) (Inside c gpio) :=
  maintains_change hc hr (· &&& ~~~mask)

theorem owns_output {gpioNum : ℕ} (hn : gpioNum < c.ngpio) :
    c.Owns (lineGroup gpioNum + c.outputBase) :=
  Or.inr ⟨gpioNum / 8, by have := hc.groups; omega, rfl⟩

/-- Leaving keeps the selection. -/
theorem keeps_superioExit (hb : Inside c l b) :
    superioExit.Keeps device (Selected c) b fun _ t => Between c l t := by
  rw [Keeps, run_superioExit hb.config]
  refine ⟨always_superioExit hb.config hc, hb.ldn, ?_⟩
  refine (List.mem_erase_of_ne fun he => hc.size_ne ?_).mpr hb.held
  exact congrArg Prod.snd he

theorem maintains_locked {body : Kernel Unit}
    (hbody : Region.overlaps (reg, 2) (c.ioBase, c.ioSize.toNat) = false →
      body.Maintains device (Selected c) (Inside c gpio)) :
    (locked body).Maintains device (Selected c) (Between c gpio) := by
  intro b hb
  refine keeps_bind_run ((always_perform _).mpr fun hd => hd.elim) rfl ?_
  refine keeps_bind_total (keeps_superioEnter hb) ?_
  intro rc t ht
  rcases ht with ⟨hrc, hg, -, ht⟩ | ⟨⟨e, hrc, he⟩, -, ht⟩
  · obtain rfl := Except.ok.inj hrc
    refine keeps_ite (fun _ => ?_) fun h0 => absurd rfl h0
    have hb := hbody (not_overlaps_of_grants hg hb.held) t ht
    refine keeps_bind_total hb ?_
    intro _ u hu
    refine keeps_bind_total (keeps_superioExit hc hu) ?_
    intro _ v hv
    exact maintains_unlock v hv
  · obtain rfl := Except.ok.inj hrc
    refine keeps_ite (fun h0 => absurd h0 he) fun _ => ?_
    exact maintains_unlock t ht

section Line
variable {gpioNum : ℕ} (hn : gpioNum < c.ngpio)
include hn

theorem maintains_request :
    (it87GpioRequest c gpioNum).Maintains device (Selected c) (Between c gpio) := by
  have hclear := maintains_superioClearMask hc (owns_output hc hn) (lineMask gpioNum)
  refine maintains_locked hc fun _ => maintains_ite (fun hs => ?_) fun _ => hclear
  exact maintains_bind (maintains_superioSetMask hc (owns_simple hs) _) fun _ => hclear

theorem maintains_directionIn :
    (it87GpioDirectionIn c gpioNum).Maintains device (Selected c) (Between c gpio) :=
  maintains_locked hc fun _ => maintains_superioClearMask hc (owns_output hc hn) _

variable (hw : c.ioBase.toNat + c.ioSize.toNat ≤ 0x10000)
include hw

/-- The port of a line is none of the chip's, when the regions do not overlap. -/
theorem linePort_ne (ha : Region.overlaps (reg, 2) (c.ioBase, c.ioSize.toNat) = false) :
    BitVec.ofNat 16 (gpioNum / 8) + c.ioBase ≠ reg ∧
      BitVec.ofNat 16 (gpioNum / 8) + c.ioBase ≠ val := by
  have hp := hc.ports
  have hg := hc.groups
  have hs : (BitVec.ofNat 16 (gpioNum / 8) + c.ioBase).toNat = gpioNum / 8 + c.ioBase.toNat := by
    rw [BitVec.toNat_add, BitVec.toNat_ofNat]
    omega
  have hr : (reg : Word).toNat = 0x2e := rfl
  have hv : (val : Word).toNat = 0x2f := rfl
  simp only [Region.not_overlaps_iff, hr] at ha
  constructor <;> intro he <;> rw [he] at hs <;> omega

theorem maintains_it87GpioSet (ha : Region.overlaps (reg, 2) (c.ioBase, c.ioSize.toNat) = false)
    (value : Bool) :
    (it87GpioSet c gpioNum value).Maintains device (Selected c) (Inside c gpio) := by
  obtain ⟨h1, h2⟩ := linePort_ne hc hn hw ha
  refine maintains_bind (maintains_inb_other h2 fun _ _ hb => ⟨hb.config, hb.ldn, hb.held⟩) ?_
  intro currVals
  exact maintains_ite (fun _ => maintains_outb_other h1 h2 _) fun _ => maintains_outb_other h1 h2 _

theorem maintains_directionOut (value : Bool) :
    (it87GpioDirectionOut c gpioNum value).Maintains device (Selected c) (Between c gpio) :=
  maintains_locked hc fun ha =>
    maintains_bind (maintains_superioSetMask hc (owns_output hc hn) _) fun _ =>
      maintains_it87GpioSet hc hn hw ha value

end Line

end Tabled

end BuffaloNas.Gpio
