import BuffaloNas.Gpio.Lines
import BuffaloNas.Interaction.Interleave

/-! Two calls on the lines of one group at the same time: is an update lost? -/
namespace BuffaloNas.Gpio
open Interaction Program SuperIo

/-! ### Two callers on one chip -/

/-- A call of `it87_gpio_direction_out`, or of the set hook. -/
structure Output (c : It87Gpio) where
  gpioNum : Fin c.ngpio
  value : Bool
  direction : Bool

def Output.call {c : It87Gpio} (o : Output c) : Call c :=
  if o.direction then .directionOut o.gpioNum o.value else .set o.gpioNum o.value

/-- The lines between two callers: who has the driver's lock, and whether the other has written a
data port since a caller read one. -/
structure Bus where
  lines : Lines
  owner : Option (Fin 2)
  stale : Fin 2 → Bool

/-- A write of a data port. -/
def OnLatch (c : It87Gpio) : KernelOp → Prop
  | .outb _ port => c.group? port ≠ none
  | _ => False

instance (c : It87Gpio) (o : KernelOp) : Decidable (OnLatch c o) := by
  cases o <;> unfold OnLatch <;> infer_instance

namespace Bus

/-- What a caller's operation does to what the callers know. -/
def know (c : It87Gpio) (i : Fin 2) (s : Bus) : KernelOp → Fin 2 → Bool
  | .inb port => if c.group? port = none then s.stale else Function.update s.stale i false
  | .outb _ port => if c.group? port = none then s.stale else fun j => if j = i then s.stale i else true
  | _ => s.stale

/-- The chip takes the operations in the order they come; only the lock makes a caller wait. -/
def device (c : It87Gpio) : Shared (Fin 2) KernelOp KernelOp.Answer Bus
  | i, .spinLock, s => if s.owner = none then some ((), { s with owner := some i }) else none
  | _, .spinUnlock, s => some ((), { s with owner := none })
  | i, o, s =>
    match Lines.device c o s.lines with
    | (.ok r, lines) => some (r, { s with lines, stale := s.know c i o })

end Bus

/-! ### What each caller keeps -/

section Contract
variable {c : It87Gpio} (calls : Fin 2 → Output c)

/-- Both lines are outputs. -/
def Outputs (b : Board) : Prop :=
  ∀ i, (b.chip.contents gpio (lineGroup (calls i).gpioNum + c.outputBase)).getLsbD
    ((calls i).gpioNum % 8)

/-- The value that a caller's line drives. -/
def level (i : Fin 2) (s : Bus) : Bool :=
  (s.lines.latch ((calls i).gpioNum / 8)).getLsbD ((calls i).gpioNum % 8)

/-- A board whose other devices say nothing new. -/
def deaf (b : Board) : Board := { b with inputs := fun _ => 0 }

/-- What caller `i` may rely on: the other leaves its line and its time in the configuration mode
alone. If `locked`, the other also needs the lock to write a data port. -/
structure Rely (locked : Prop) (i : Fin 2) (s t : Bus) : Prop where
  outputs : Outputs calls s.lines.board → Outputs calls t.lines.board
  level : level calls i t = level calls i s
  mine : s.owner = some i → t.owner = some i ∧ deaf t.lines.board = deaf s.lines.board
  others : s.owner ≠ some i → t.owner ≠ some i
  free : (s.owner = none → Started c s.lines.board) → t.owner = none → Started c t.lines.board
  fresh : t.stale i = false → s.stale i = false ∧ t.lines.latch = s.lines.latch
  kept : locked → s.owner = some i → t.stale i = s.stale i

variable {calls} {locked : Prop} {i : Fin 2} {s t u : Bus}

theorem Rely.refl : Rely calls locked i s s :=
  ⟨id, rfl, fun h => ⟨h, rfl⟩, id, fun h => h, fun h => ⟨h, rfl⟩, fun _ _ => rfl⟩

theorem Rely.trans (h : Rely calls locked i s t) (h' : Rely calls locked i t u) :
    Rely calls locked i s u where
  outputs hs := h'.outputs (h.outputs hs)
  level := h'.level.trans h.level
  mine hs := by
    obtain ⟨ht, hd⟩ := h.mine hs
    obtain ⟨hu, hd'⟩ := h'.mine ht
    exact ⟨hu, hd'.trans hd⟩
  others hs := h'.others (h.others hs)
  free hs := h'.free (h.free hs)
  fresh hu := by
    obtain ⟨ht, hl⟩ := h'.fresh hu
    obtain ⟨hs, hl'⟩ := h.fresh ht
    exact ⟨hs, hl.trans hl'⟩
  kept hlocked hs := (h'.kept hlocked (h.mine hs).1).trans (h.kept hlocked hs)

/-- No caller writes a data port that the other has written since it read it; with the lock, that
is what both see to, without it, what they count on. -/
def contract (calls : Fin 2 → Output c) (locked : Prop) (i : Fin 2) :
    Contract KernelOp KernelOp.Answer Bus where
  device := Bus.device c i
  rely := Rely calls locked i
  counts o s := locked ∨ (OnLatch c o → s.stale i = false)
  does o _ s t := (OnLatch c o → s.stale i = false) ∧ ∀ j, i ≠ j → Rely calls locked j s t
  refl _ := .refl
  trans := .trans

theorem contract_device (o : KernelOp) :
    (contract calls locked i).device o s = Bus.device c i o s := rfl

/-! ### In the configuration mode -/

/-- The operation is neither on a data port nor on the lock, and hears of no other device. -/
def Quiet (c : It87Gpio) : KernelOp → Prop
  | .inb port => c.group? port = none ∧ port = val
  | .outb _ port => c.group? port = none
  | .spinLock => False
  | .spinUnlock => False
  | _ => True

theorem device_deaf {o : KernelOp} {b : Board} (h : Quiet c o) :
    Board.device o (deaf b) = ((Board.device o b).1, deaf (Board.device o b).2) := by
  cases o with
  | inb port =>
    obtain ⟨-, rfl⟩ := h
    rfl
  | outb value port =>
    simp only [Board.device]
    split
    · rfl
    · split <;> rfl
  | requestMuxedRegion port size =>
    simp only [Board.device, Board.request]
    split <;> split <;> first | rfl | contradiction
  | requestRegion port size =>
    simp only [Board.device, Board.request]
    split <;> split <;> first | rfl | contradiction
  | _ => rfl

theorem Quiet.offLines {o : KernelOp} (h : Quiet c o) : OffLines c o := by
  cases o with
  | inb port => exact h.1
  | outb value port => exact h
  | _ => trivial

theorem Quiet.know {o : KernelOp} (h : Quiet c o) : s.know c i o = s.stale := by
  cases o with
  | inb port => exact if_pos h.1
  | outb value port => exact if_pos h
  | _ => rfl

theorem Quiet.not_onLatch {o : KernelOp} (h : Quiet c o) : ¬ OnLatch c o := by
  cases o with
  | outb value port => exact not_not.mpr h
  | _ => exact id

/-- Such an operation changes the board and nothing else. -/
theorem device_quiet {o : KernelOp} (h : Quiet c o) {r : o.Answer}
    (hd : Bus.device c i o s = some (r, t)) :
    Board.device o s.lines.board = (.ok r, t.lines.board) ∧
      t = { s with lines := { s.lines with board := t.lines.board } } := by
  have hb : Bus.device c i o s =
      match Lines.device c o s.lines with
      | (.ok r, lines) => some (r, { s with lines, stale := s.know c i o }) := by
    cases o with
    | spinLock => exact h.elim
    | spinUnlock => exact h.elim
    | _ => rfl
  rw [hb, device_offLines h.offLines, h.know, Lines.onBoard] at hd
  generalize Board.device o s.lines.board = x at hd
  obtain ⟨e | r', b⟩ := x
  · exact e.elim
  · cases hd
    exact ⟨rfl, rfl⟩

/-- The operation is one of a caller's own, and takes no output away. -/
def Alone (calls : Fin 2 → Output c) (o : KernelOp) (b : Board) : Prop :=
  Quiet c o ∧ (Outputs calls b → Outputs calls (Board.device o b).2)

/-- Caller `i` has the lock, and its line and both outputs are as they should be. -/
structure Holds (calls : Fin 2 → Output c) (i : Fin 2) (v : Bool) (s : Bus) : Prop where
  owner : s.owner = some i
  level : level calls i s = v
  outputs : Outputs calls s.lines.board

theorem Holds.rely {v : Bool} (h : Holds calls i v s) (hu : Rely calls locked i s t) :
    Holds calls i v t ∧ deaf t.lines.board = deaf s.lines.board := by
  obtain ⟨ho, hd⟩ := hu.mine h.owner
  exact ⟨⟨ho, hu.level.trans h.level, hu.outputs h.outputs⟩, hd⟩

/-- A caller's own time in the configuration mode goes as if it were alone. -/
theorem secure_section {α : Type} {p : Kernel α} {v : Bool}
    (hp : p.Always Board.device (Alone calls) (deaf s.lines.board)) (hs : Holds calls i v s) :
    p.Secure (contract calls locked i) (fun a t => Holds calls i v t ∧
      p.run Board.device (deaf s.lines.board) = (a, deaf t.lines.board)) s := by
  refine secure_alone (fun s => deaf s.lines.board) (Holds calls i v) ?_ ?_ hp hs
  · exact fun s u hs hu => hs.rely hu
  · rintro o u r t hu ⟨hq, hout⟩ hd
    obtain ⟨hb, ht⟩ := device_quiet hq hd
    have hout' : Outputs calls u.lines.board → Outputs calls t.lines.board := by
      intro h
      have h' := hout h
      rw [device_deaf hq, hb] at h'
      exact h'
    rw [device_deaf hq, hb]
    have hlevel : level calls i t = v := by
      rw [ht]
      exact hu.level
    refine ⟨⟨fun hw => absurd hw hq.not_onLatch, fun j hj => ?_⟩,
      ⟨by rw [ht]; exact hu.owner, hlevel, hout' hu.outputs⟩, rfl⟩
    have hj : u.owner ≠ some j := by
      rw [hu.owner]
      exact fun h => hj (Option.some.inj h)
    rw [ht]
    exact ⟨hout', rfl, fun h => absurd h hj, fun _ => hj, fun _ h => (by simp [hu.owner] at h),
      fun h => ⟨h, rfl⟩, fun _ _ => rfl⟩

theorem contents_point (chip : Chip) (v : Byte) : (chip.point v).contents = chip.contents := by
  funext l r
  simp [Chip.contents, Chip.read]

/-- Only the data port of the chip changes what its registers hold. -/
theorem alone_of_ne {o : KernelOp} {b : Board} (hq : Quiet c o) (hb : ∀ w, o ≠ .outb w val) :
    Alone calls o b := by
  refine ⟨hq, fun h => ?_⟩
  have hk : (Board.device o b).2.chip.contents = b.chip.contents := by
    cases o with
    | outb w port =>
      have hport : port ≠ dataPort := fun he => hb w (by rw [he]; rfl)
      simp only [Board.device, if_neg hport]
      split
      · exact contents_point b.chip w
      · rfl
    | requestMuxedRegion port size =>
      simp only [Board.device, Board.request]
      split <;> rfl
    | requestRegion port size =>
      simp only [Board.device, Board.request]
      split <;> rfl
    | inb port =>
      obtain ⟨-, rfl⟩ := hq
      rfl
    | _ => rfl
  intro j
  rw [hk]
  exact h j

theorem always_enter {b : Board} (hs : Started c b) :
    superioEnter.Always Board.device (Alone calls) b := by
  rw [superioEnter, always_bind, always_perform]
  refine ⟨alone_of_ne trivial fun w h => (by cases h), fun granted hg => ?_⟩
  cases granted with
  | false => exact always_pure _
  | true =>
    have hg' : b.grants (reg, 2) := by
      by_contra hn
      simp [Board.device, Board.request, hn] at hg
    have ho := Board.not_overlaps_of_grants hg' hs.between.held
    have hr := (group?_eq_none hs.tabled hs.within ho).1
    have hout : ∀ (v : Byte) (b : Board), (outb v reg).Always Board.device (Alone calls) b :=
      fun v b => (always_perform _).mpr (alone_of_ne hr fun w h => by cases h)
    rw [if_pos rfl]
    exact (always_bind ..).mpr ⟨hout _ _, fun _ _ => (always_bind ..).mpr ⟨hout _ _, fun _ _ =>
      (always_bind ..).mpr ⟨hout _ _, fun _ _ => (always_bind ..).mpr ⟨hout _ _, fun _ _ =>
        always_pure _⟩⟩⟩⟩

/-- Setting bits of a register takes no output away. -/
theorem outputs_or {b b' : Board} {r mask : Byte}
    (h : b'.chip.contents = put b.chip.contents gpio r (b.chip.contents gpio r ||| mask)) :
    Outputs calls b → Outputs calls b' := by
  intro ho j
  rw [h, put]
  split
  · rename_i he
    rw [BitVec.getLsbD_or, ← he.2]
    exact Bool.or_eq_true_iff.mpr (Or.inl (ho j))
  · exact ho j

section Ports
variable (hr : c.group? reg = none) (hv : c.group? val = none)
include hr hv

theorem always_superioInb_alone (r : Byte) (b : Board) :
    (superioInb r).Always Board.device (Alone calls) b := by
  refine (always_bind ..).mpr ⟨(always_perform _).mpr (alone_of_ne hr fun w h => by cases h), ?_⟩
  intro _ _
  exact (always_perform _).mpr (alone_of_ne ⟨hv, rfl⟩ fun w h => by cases h)

theorem always_superioSetMask {b : Board} (hb : Inside c gpio b) {r : Byte} (ho : Enables r)
    (mask : Byte) : (superioSetMask mask r).Always Board.device (Alone calls) b := by
  have hm := hb.config
  refine (always_bind ..).mpr ⟨always_superioInb_alone hr hv r b, ?_⟩
  intro value hvalue
  rw [run_superioInb hm] at hvalue ⊢
  obtain rfl := Except.ok.inj hvalue
  refine (always_ite ..).mpr ?_
  split
  · refine (always_bind ..).mpr ⟨(always_perform _).mpr (alone_of_ne hr fun w h => by cases h), ?_⟩
    intro _ _
    rw [run_outb_reg, Chip.point_config (c := (pointed b r).chip) hm]
    have hread : b.chip.contents gpio r = b.chip.read r := by rw [← hb.ldn]; rfl
    have hput : ({ b.chip with index := r }.store (b.chip.read r ||| mask)).contents =
        put b.chip.contents gpio r (b.chip.contents gpio r ||| mask) :=
      (contents_store hm ho _).trans (by rw [hb.ldn, hread])
    exact (always_perform _).mpr ⟨hv, outputs_or hput⟩
  · exact always_pure _

theorem always_superioExit_alone {b : Board} (hm : b.chip.mode = .config) :
    superioExit.Always Board.device (Alone calls) b := by
  refine (always_bind ..).mpr ⟨(always_perform _).mpr (alone_of_ne hr fun w h => by cases h), ?_⟩
  intro _ _
  rw [run_outb_reg, Chip.point_config hm]
  refine (always_bind ..).mpr ⟨(always_perform _).mpr ⟨hv, fun h => ?_⟩, fun _ _ => ?_⟩
  · simpa [Outputs, Board.device, indexPort, dataPort, val, Chip.store, hm, Chip.contents,
      Chip.read] using h
  · exact (always_perform _).mpr (alone_of_ne trivial fun w h => by cases h)

end Ports

/-! ### The data port -/

section Calls
variable (hc : c.Tabled) (hne : ∀ i j, i ≠ j → (calls i).gpioNum ≠ (calls j).gpioNum)
  (hgroup : ∀ i j, ((calls i).gpioNum : ℕ) / 8 = (calls j).gpioNum / 8)

/-- What stays as it was at `s` while caller `i` works on a data port. -/
structure During (calls : Fin 2 → Output c) (i : Fin 2) (s t : Bus) : Prop where
  outputs : Outputs calls t.lines.board
  mine : s.owner = some i → t.owner = some i ∧ deaf t.lines.board = deaf s.lines.board

theorem During.rely (h : During calls i s t) (hu : Rely calls locked i t u) :
    During calls i s u where
  outputs := hu.outputs h.outputs
  mine hs := by
    obtain ⟨ht, hd⟩ := h.mine hs
    obtain ⟨hu, hd'⟩ := hu.mine ht
    exact ⟨hu, hd'.trans hd⟩

/-- The caller has read the port: until the other writes it, that is what both lines drive. -/
structure Copied (calls : Fin 2 → Output c) (locked : Prop) (i : Fin 2) (r : Byte) (s : Bus) :
    Prop where
  copy : s.stale i = false → ∀ j, r.getLsbD ((calls j).gpioNum % 8) = level calls j s
  fresh : locked → s.stale i = false

theorem Copied.rely {r : Byte} (h : Copied calls locked i r t)
    (hown : locked → t.owner = some i) (hu : Rely calls locked i t u) :
    Copied calls locked i r u where
  copy hs j := by
    obtain ⟨ht, hl⟩ := hu.fresh hs
    rw [h.copy ht j, level, level, hl]
  fresh hlocked := (hu.kept hlocked (hown hlocked)).trans (h.fresh hlocked)

/-- The port of the two lines. -/
def portOf (calls : Fin 2 → Output c) (i : Fin 2) : Word :=
  BitVec.ofNat 16 ((calls i).gpioNum / 8) + c.ioBase

/-- The lines once caller `i` has read their port. -/
def Bus.afterRead (i : Fin 2) (s : Bus) : Bus :=
  { s with
    lines := { s.lines with
      board := { s.lines.board with inputs := fun n => s.lines.board.inputs (n + 1) } }
    stale := Function.update s.stale i false }

/-- The lines once caller `i` has written their port. -/
def Bus.afterWrite (i : Fin 2) (group : ℕ) (w : Byte) (s : Bus) : Bus :=
  { s with
    lines := { s.lines with latch := Function.update s.lines.latch group w }
    stale := fun j => if j = i then s.stale i else true }

@[simp] theorem latch_afterWrite (group : ℕ) (w : Byte) :
    (s.afterWrite i group w).lines.latch group = w := Function.update_self ..

include hc in
theorem device_read : Bus.device c i (.inb (portOf calls i)) s =
    some (s.lines.shown c ((calls i).gpioNum / 8), s.afterRead i) := by
  simp [Bus.device, portOf, Lines.device, group?_linePort hc (calls i).gpioNum.isLt, Bus.know,
    Bus.afterRead]

include hc in
theorem device_write (w : Byte) : Bus.device c i (.outb w (portOf calls i)) s =
    some ((), s.afterWrite i ((calls i).gpioNum / 8) w) := by
  simp [Bus.device, portOf, Lines.device, group?_linePort hc (calls i).gpioNum.isLt, Bus.know,
    Bus.afterWrite]

variable {j : Fin 2}

theorem rely_afterRead (hj : i ≠ j) : Rely calls locked j s (s.afterRead i) where
  outputs := id
  level := rfl
  mine h := ⟨h, rfl⟩
  others := id
  free hs ho := ⟨(hs ho).tabled, (hs ho).within, (hs ho).between.ldn, (hs ho).between.held⟩
  fresh h := ⟨by simpa [Bus.afterRead, Function.update_of_ne hj.symm] using h, rfl⟩
  kept _ _ := by simp [Bus.afterRead, Function.update_of_ne hj.symm]

include hgroup in
theorem copied_afterRead (ho : Outputs calls s.lines.board) :
    Copied calls locked i (s.lines.shown c ((calls i).gpioNum / 8)) (s.afterRead i) := by
  refine ⟨fun _ j => ?_, fun _ => by simp [Bus.afterRead]⟩
  have he := ho j
  rw [lineGroup, ← hgroup i j] at he
  have he' : (s.lines.enabled c ((calls i).gpioNum / 8)).getLsbD ((calls j).gpioNum % 8) := he
  rw [Lines.shown, BitVec.getLsbD_or, BitVec.getLsbD_and, BitVec.getLsbD_and, BitVec.getLsbD_not,
    he', level, ← hgroup i j]
  simp [Bus.afterRead]

include hne hgroup in
/-- A caller that writes back what it has read, with its own bit changed, leaves the other's. -/
theorem rely_afterWrite {r : Byte} (hr : Copied calls locked i r s) (hst : s.stale i = false)
    (hown : locked → s.owner = some i) (hj : i ≠ j) (value : Bool) :
    Rely calls locked j s (s.afterWrite i ((calls i).gpioNum / 8)
      (setBit value (lineMask (calls i).gpioNum) r)) where
  outputs := id
  level := by
    have hm : (calls j).gpioNum % 8 ≠ ((calls i).gpioNum : ℕ) % 8 := by
      intro he
      have hg := hgroup i j
      exact hne i j hj (Fin.ext (by omega))
    have hmod : ((calls j).gpioNum : ℕ) % 8 < 8 := Nat.mod_lt _ (by decide)
    rw [← hr.copy hst j, level, ← hgroup i j, latch_afterWrite, getLsbD_setBit hmod, if_neg hm]
  mine h := ⟨h, rfl⟩
  others := id
  free hs := hs
  fresh h := by simp [Bus.afterWrite, hj.symm] at h
  kept hlocked h := by simp [hown hlocked, hj] at h

theorem level_afterWrite {r : Byte} (value : Bool) :
    level calls i (s.afterWrite i ((calls i).gpioNum / 8)
      (setBit value (lineMask (calls i).gpioNum) r)) = value := by
  rw [level, latch_afterWrite, getLsbD_setBit (Nat.mod_lt _ (by decide)), if_pos rfl]

include hc hgroup in
theorem secure_read (hs : Outputs calls s.lines.board) (hown : locked → s.owner = some i) :
    (inb (portOf calls i)).Secure (contract calls locked i)
      (fun r t => During calls i s t ∧ (locked → t.owner = some i) ∧
        ∀ v, r = .ok v → Copied calls locked i v t) s := by
  refine secure_perform fun u hu _ r t hd => ?_
  have hownu := fun h => (hu.mine (hown h)).1
  rw [contract_device, device_read hc] at hd
  cases hd
  refine ⟨⟨fun h => h.elim, fun j hj => rely_afterRead hj⟩, fun v hv => ⟨?_, ?_, fun r hr => ?_⟩⟩
  · have hdu : During calls i s (u.afterRead i) := ⟨hu.outputs hs, hu.mine⟩
    exact hdu.rely hv
  · exact fun h => (hv.mine (hownu h)).1
  · cases hr
    exact (copied_afterRead hgroup (hu.outputs hs)).rely hownu hv

include hc hne hgroup in
/-- Setting a line, with the lock or where nobody writes the port meanwhile. -/
theorem secure_set (hs : Outputs calls s.lines.board) (hown : locked → s.owner = some i) :
    (it87GpioSet c (calls i).gpioNum (calls i).value).Secure (contract calls locked i)
      (fun _ t => During calls i s t ∧ level calls i t = (calls i).value) s := by
  refine secure_bind_total (secure_read hc hgroup hs hown) fun r t ht => ?_
  obtain ⟨ht, hownt, hr⟩ := ht
  have hr := hr r rfl
  suffices h : (outb (setBit (calls i).value (lineMask (calls i).gpioNum) r)
      (portOf calls i)).Secure (contract calls locked i)
      (fun _ t => During calls i s t ∧ level calls i t = (calls i).value) t by
    cases hv : (calls i).value with
    | false =>
      rw [hv] at h
      exact h
    | true =>
      rw [hv] at h
      exact h
  refine secure_perform fun u hu hcounts _ t hd => ?_
  have hru := hr.rely hownt hu
  have hst : u.stale i = false := by
    rcases hcounts with hlocked | hcounts
    · exact hru.fresh hlocked
    · refine hcounts ?_
      have hg := group?_linePort hc (calls i).gpioNum.isLt
      simp [OnLatch, portOf, hg]
  have hownu := fun h => (hu.mine (hownt h)).1
  rw [contract_device, device_write hc] at hd
  cases hd
  refine ⟨⟨fun _ => hst, fun j hj => rely_afterWrite hne hgroup hru hst hownu hj _⟩, ?_⟩
  intro v hv
  have hdu := ht.rely hu
  have hdw : During calls i s (u.afterWrite i ((calls i).gpioNum / 8)
      (setBit (calls i).value (lineMask (calls i).gpioNum) r)) := ⟨hdu.outputs, hdu.mine⟩
  exact ⟨hdw.rely hv, hv.level.trans (level_afterWrite _)⟩

/-- What a call is to establish when it succeeds. -/
def Done (calls : Fin 2 → Output c) (i : Fin 2) (r : Except Empty ℤ) (s : Bus) : Prop :=
  r = .ok 0 → Outputs calls s.lines.board ∧ level calls i s = (calls i).value

theorem Done.rely {r : Except Empty ℤ} (h : Done calls i r s) (hu : Rely calls locked i s t) :
    Done calls i r t := by
  intro hr
  obtain ⟨ho, hl⟩ := h hr
  exact ⟨hu.outputs ho, hu.level.trans hl⟩

theorem started_deaf {b : Board} (h : Started c b) : Started c (deaf b) :=
  ⟨h.tabled, h.within, h.between.ldn, h.between.held⟩

theorem started_of_deaf {b : Board} (h : Started c (deaf b)) : Started c b :=
  ⟨h.tabled, h.within, h.between.ldn, h.between.held⟩

theorem secure_unlock {v : Bool} {rc : ℤ} (hs : Holds calls i v s)
    (hst : Started c (deaf s.lines.board)) (hv : rc = 0 → v = (calls i).value) :
    (do perform KernelOp.spinUnlock; return rc : Kernel ℤ).Secure (contract calls locked i)
      (Done calls i) s := by
  refine secure_bind_total (R := fun _ t => Done calls i (.ok rc) t)
    (secure_perform fun u hu _ r t hd => ?_) fun _ t ht => secure_pure fun u hu => ht.rely hu
  obtain ⟨hh, hdeaf⟩ := hs.rely hu
  cases hd
  have hne : ∀ j, i ≠ j → u.owner ≠ some j := fun j hj h => by
    rw [hh.owner] at h
    exact hj (Option.some.inj h)
  refine ⟨⟨fun h => h.elim, fun j hj => ⟨id, rfl, fun h => absurd h (hne j hj), fun _ => by simp,
    fun _ _ => ?_, fun h => ⟨h, rfl⟩, fun _ _ => rfl⟩⟩, fun w hw => ?_⟩
  · rw [← hdeaf] at hst
    exact started_of_deaf hst
  · refine Done.rely (s := { u with owner := none }) (fun hr => ⟨hh.outputs, ?_⟩) hw
    exact hh.level.trans (hv (Except.ok.inj hr))

theorem secure_lock (hs : Outputs calls s.lines.board)
    (hfree : s.owner = none → Started c s.lines.board) :
    (perform KernelOp.spinLock : Kernel Unit).Secure (contract calls locked i)
      (fun _ t => (∃ v, Holds calls i v t) ∧ Started c (deaf t.lines.board)) s := by
  refine secure_perform fun u hu _ r t hd => ?_
  have hou := hu.outputs hs
  by_cases hnone : u.owner = none
  · have hd' : Bus.device c i .spinLock u = some ((), { u with owner := some i }) := if_pos hnone
    rw [contract_device, hd'] at hd
    cases hd
    refine ⟨⟨fun h => h.elim, fun j hj => ?_⟩, fun v hv => ?_⟩
    · have hij : some i ≠ some j := fun h => hj (Option.some.inj h)
      refine ⟨id, rfl, fun h => ?_, fun _ => hij, fun _ h => ?_, fun h => ⟨h, rfl⟩, fun _ _ => rfl⟩
      · rw [hnone] at h
        cases h
      · cases h
    · have hh : Holds calls i (level calls i u) { u with owner := some i } := ⟨rfl, rfl, hou⟩
      obtain ⟨hh, hdeaf⟩ := hh.rely hv
      refine ⟨⟨_, hh⟩, ?_⟩
      rw [hdeaf]
      exact started_deaf (hu.free hfree hnone)
  · have hd' : Bus.device c i .spinLock u = none := if_neg hnone
    rw [contract_device, hd'] at hd
    cases hd

section Inside
variable (hr : c.group? reg = none) (hv : c.group? val = none) {v : Bool}
include hc hr hv

include hne hgroup in
/-- The body of `it87_gpio_direction_out`: the line is made an output and set. -/
theorem secure_output (hs : Holds calls i v s) (hin : Inside c gpio (deaf s.lines.board)) :
    (do superioSetMask (lineMask (calls i).gpioNum) (lineGroup (calls i).gpioNum + c.outputBase)
        it87GpioSet c (calls i).gpioNum (calls i).value : Kernel Unit).Secure
      (contract calls locked i) (fun _ t => Holds calls i (calls i).value t ∧
        Inside c gpio (deaf t.lines.board)) s := by
  have ho := hc.enables (owns_output hc (calls i).gpioNum.isLt)
  obtain ⟨b, hb, hi, -⟩ := run_change hin ho (· ||| lineMask (calls i).gpioNum)
  refine secure_bind_total (secure_section
    (always_superioSetMask hr hv hin ho (lineMask (calls i).gpioNum)) hs) ?_
  rintro a t ⟨ht, hrun⟩
  refine (secure_set hc hne hgroup ht.outputs fun _ => ht.owner).mono fun _ u hu => ?_
  obtain ⟨hd, hl⟩ := hu
  obtain ⟨hou, hdeaf⟩ := hd.mine ht.owner
  refine ⟨⟨hou, hl, hd.outputs⟩, ?_⟩
  have hbt : b = deaf t.lines.board := congrArg Prod.snd (hb.symm.trans hrun)
  rw [hdeaf, ← hbt]
  exact hi

theorem secure_superioExit (hw : c.ioBase.toNat + c.ioSize.toNat ≤ 0x10000)
    (hs : Holds calls i v s) (hin : Inside c gpio (deaf s.lines.board)) :
    superioExit.Secure (contract calls locked i) (fun _ t => Holds calls i v t ∧
      Started c (deaf t.lines.board)) s := by
  refine (secure_section (always_superioExit_alone hr hv hin.config) hs).mono fun _ t ht => ?_
  obtain ⟨ht, hrun⟩ := ht
  rw [run_superioExit hin.config] at hrun
  refine ⟨ht, ?_⟩
  rw [← show _ = deaf t.lines.board from congrArg Prod.snd hrun]
  refine ⟨hc, hw, hin.ldn, ?_⟩
  refine (List.mem_erase_of_ne fun h => hc.size_ne ?_).mpr hin.held
  exact congrArg Prod.snd h

end Inside

include hc hne hgroup in
theorem secure_directionOut (hs : Outputs calls s.lines.board)
    (hfree : s.owner = none → Started c s.lines.board) :
    (it87GpioDirectionOut c (calls i).gpioNum (calls i).value).Secure (contract calls locked i)
      (Done calls i) s := by
  refine secure_bind_total (secure_lock hs hfree) ?_
  rintro - t ⟨⟨v, ht⟩, hst⟩
  refine secure_bind_total (secure_section (always_enter hst) ht) ?_
  rintro rc u ⟨hu, hrun⟩
  rw [run_superioEnter] at hrun
  split at hrun
  · rename_i hg
    obtain ⟨hrc, hb⟩ := Prod.ext_iff.mp hrun
    obtain rfl := Except.ok.inj hrc
    have ha := Board.not_overlaps_of_grants hg hst.between.held
    obtain ⟨hr, hv⟩ := group?_eq_none hc hst.within ha
    have hin : Inside c gpio (deaf u.lines.board) := by
      rw [← show _ = deaf u.lines.board from hb]
      exact ⟨Chip.wake_mode, Chip.wake_ldn.trans hst.between.ldn,
        List.mem_cons_of_mem _ hst.between.held⟩
    refine secure_ite (fun _ => ?_) fun h0 => absurd rfl h0
    refine secure_bind_total (secure_output hc hne hgroup hr hv hu hin) ?_
    rintro - w ⟨hw, hin⟩
    refine secure_bind_total (secure_superioExit hc hr hv hst.within hw hin) ?_
    rintro - x ⟨hx, hst⟩
    exact secure_unlock hx hst fun _ => rfl
  · obtain ⟨hrc, hb⟩ := Prod.ext_iff.mp hrun
    obtain rfl := Except.ok.inj hrc
    refine secure_ite (fun h0 => absurd h0 (by decide)) fun _ => ?_
    refine secure_unlock hu ?_ fun h0 => absurd h0 (by decide)
    rw [← show _ = deaf u.lines.board from hb]
    exact hst.judged

include hc hne hgroup in
/-- The lock protects a call only from those that take it too. -/
theorem secure_call (hlocked : locked → (calls i).direction) (hs : Outputs calls s.lines.board)
    (hfree : s.owner = none → Started c s.lines.board) :
    (calls i).call.program.Secure (contract calls locked i) (Done calls i) s := by
  rw [Output.call]
  cases hd : (calls i).direction with
  | true => exact secure_directionOut hc hne hgroup hs hfree
  | false =>
    have hunlocked : locked → s.owner = some i := by
      intro h
      rw [hd] at hlocked
      exact absurd (hlocked h) (by decide)
    rw [if_neg (by decide), Call.program, map_eq_pure_bind]
    refine secure_bind_total (secure_set hc hne hgroup hs hunlocked) ?_
    rintro - t ⟨ht, hl⟩
    refine secure_pure fun u hu => ?_
    have hdone : Done calls i (.ok 0) t := fun _ => ⟨ht.outputs, hl⟩
    exact hdone.rely hu

end Calls

end Contract

/-! ### No update is lost -/

/-- Two calls that have not begun. -/
def race {c : It87Gpio} (calls : Fin 2 → Output c) (lines : Lines) :
    Pool (Fin 2) KernelOp KernelOp.Answer Empty ℤ Bus where
  threads i := (calls i).call.program
  state := { lines, owner := none, stale := fun _ => false }

/-- Two calls on different outputs of one group: whatever the interleaving, each line drives the
value of its caller once that has returned, if both calls are `it87_gpio_direction_out` or no
caller writes a data port that the other has written since it read it. -/
theorem drives_of_race {c : It87Gpio} {b b' : Board}
    (h : it87GpioInit.run Board.device b = (.ok (.ok c), b')) (latch : ℕ → Byte)
    (before : List (Call c)) (calls : Fin 2 → Output c)
    (hne : (calls 0).gpioNum ≠ (calls 1).gpioNum)
    (hgroup : ((calls 0).gpioNum : ℕ) / 8 = (calls 1).gpioNum / 8) (schedule : List (Fin 2)) :
    let x := before.foldl Call.step ({ board := b', latch }, fun _ => none)
    (∀ i, (x.2 (calls i).gpioNum).isSome) →
    (∀ i, (calls i).direction) ∨
      (race calls x.1).Along (Bus.device c) (fun i o _ s _ => OnLatch c o → s.stale i = false)
        schedule →
    ∀ i, (((race calls x.1).run (Bus.device c) schedule).threads i).returned = some 0 →
      Drives c ((race calls x.1).run (Bus.device c) schedule).state.lines (calls i).gpioNum
        (calls i).value := by
  intro x hgiven hsafe i hi
  have hk : Kept c x :=
    kept_run ⟨started_of_init h, apart_of_init h, fun n _ v hv => by cases hv⟩ before
  have hne' : ∀ i j, i ≠ j → (calls i).gpioNum ≠ (calls j).gpioNum := by
    rw [Fin.forall_fin_two, Fin.forall_fin_two, Fin.forall_fin_two]
    exact ⟨⟨fun h => absurd rfl h, fun _ => hne⟩, fun _ => hne.symm, fun h => absurd rfl h⟩
  have hgroup' : ∀ i j, ((calls i).gpioNum : ℕ) / 8 = (calls j).gpioNum / 8 := by
    rw [Fin.forall_fin_two, Fin.forall_fin_two, Fin.forall_fin_two]
    exact ⟨⟨rfl, hgroup⟩, hgroup.symm, rfl⟩
  have houtputs : Outputs calls x.1.board := by
    intro j
    obtain ⟨v, hv⟩ := Option.isSome_iff_exists.mp (hgiven j)
    exact (hk.drives _ (calls j).gpioNum.isLt v hv).1
  have hsecure : ∀ j, ((race calls x.1).threads j).Secure
      (contract calls (∀ i, (calls i).direction) j) (Done calls j) (race calls x.1).state :=
    fun j => secure_call hk.started.tabled hne' hgroup' (fun hl => hl j) houtputs
      fun _ => hk.started
  have hcounts : (race calls x.1).Along (Bus.device c)
      (fun i o _ s _ => (contract calls (∀ i, (calls i).direction) i).counts o s) schedule := by
    rcases hsafe with hlocked | halong
    · exact Pool.along_of_forall (fun _ _ _ _ _ => Or.inl hlocked) _ _
    · exact halong.mono fun i o _ s _ hc => Or.inr hc
  have hsuit : ∀ i j, i ≠ j → ∀ o r s t,
      (contract calls (∀ i, (calls i).direction) i).does o r s t →
        (contract calls (∀ i, (calls i).direction) j).rely s t :=
    fun i j hij o r s t hd => hd.2 j hij
  obtain ⟨ho, hl⟩ := Pool.holds_of_secure hsuit hsecure hcounts hi rfl
  exact ⟨ho i, hl⟩

/-- Lines 0 and 1 of the IT8721 are low. -/
def bothLow : List (Call it8721Lines) :=
  [.directionOut (line 0) false, .directionOut (line 1) false]

/-- Each caller raises one of them. -/
def raiseBoth (direction : Bool) (i : Fin 2) : Output it8721Lines :=
  { gpioNum := line i, value := true, direction }

def low : Lines × Given :=
  bothLow.foldl Call.step ({ board := it8721Started true, latch := fun _ => 0 }, fun _ => none)

/-- Two callers by turns. -/
def turns (n : ℕ) : List (Fin 2) := (List.replicate n (List.finRange 2)).flatten

/-- Under the lock both lines are raised. -/
theorem drives_raiseBoth :
    let pool := (race (raiseBoth true) low.1).run (Bus.device it8721Lines) (turns 40)
    Drives it8721Lines pool.state.lines 0 true ∧ Drives it8721Lines pool.state.lines 1 true := by
  have h := drives_of_race (init_it8721Board true) (fun _ => 0) bothLow (raiseBoth true)
    (by decide) (by decide) (turns 40) (by decide +kernel) (Or.inl fun _ => rfl)
  rw [← low] at h
  exact ⟨h 0 (by decide +kernel), h 1 (by decide +kernel)⟩

/-- Two sets that both read the port first: line 0 stays low. -/
theorem not_drives_raiseBoth :
    let pool := (race (raiseBoth false) low.1).run (Bus.device it8721Lines) (turns 2)
    (pool.threads 0).returned = some 0 ∧ (pool.threads 1).returned = some 0 ∧
      ¬ Drives it8721Lines pool.state.lines 0 true := by
  decide +kernel

end BuffaloNas.Gpio
