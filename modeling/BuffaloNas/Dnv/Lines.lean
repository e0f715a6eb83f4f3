import BuffaloNas.Dnv.Registers

/-! What a Denverton pin that is an output reads back. -/
namespace BuffaloNas.Dnv
open Interaction Program

variable {w : World} {s t : Pads} {p q a : ℕ} {g : Option Bool} {reg : RegType} {α β : Type}

/-! ### Operations of a pin -/

/-- What is written is a register of the pin. -/
def Own (p : ℕ) : DnvOp → Pads → Prop
  | .writel _ a, _ => ∃ reg, address? reg p = some a
  | _, _ => True

section Rules
variable {Q : Except Fault β → Pads → Prop}

theorem always_dnvGpioReg (q : ℕ) (reg : RegType) :
    (dnvGpioReg q reg).Always (Pads.device w) (Own p) s := by
  refine (always_bind ..).mpr ⟨(always_bind ..).mpr ⟨(always_perform _).mpr trivial, ?_⟩, ?_⟩
  · intro offset _
    exact always_pure _
  · intro offset _
    refine (always_ite ..).mpr ?_
    split
    · exact always_pure _
    · exact (always_ite ..).mpr (by split <;> exact always_pure _)

theorem always_dnvGpioMask (q : ℕ) (reg : RegType) :
    (dnvGpioMask q reg).Always (Pads.device w) (Own p) s := by
  refine (always_bind ..).mpr ⟨?_, fun shift _ => (always_ite ..).mpr ?_⟩
  · cases reg <;> first
      | exact always_pure _
      | exact (always_ite ..).mpr (by
          split
          · exact (always_perform _).mpr trivial
          · exact always_pure _)
  · split
    · exact always_pure _
    · cases reg <;> exact always_pure _

theorem keeps_reg {f : Option ℕ → Mmio β}
    (h : (f (address? reg q)).Keeps (Pads.device w) (Own p) s Q) :
    (dnvGpioReg q reg >>= f).Keeps (Pads.device w) (Own p) s Q :=
  keeps_bind_run (always_dnvGpioReg q reg) (run_dnvGpioReg w s q reg) h

theorem keeps_mask {f : Word32 → Mmio β}
    (h : (f (maskOf reg q)).Keeps (Pads.device w) (Own p) s Q) :
    (dnvGpioMask q reg >>= f).Keeps (Pads.device w) (Own p) s Q :=
  keeps_bind_run (always_dnvGpioMask q reg) (run_dnvGpioMask w s q reg) h

theorem keeps_readl {f : Word32 → Mmio β}
    (h : (f ((s.settle w).mem a)).Keeps (Pads.device w) (Own p) (s.settle w) Q) :
    (readl (some a) >>= f).Keeps (Pads.device w) (Own p) s Q :=
  keeps_bind_run ((always_perform _).mpr trivial) (run_readl w s a) h

theorem keeps_writel {val : Word32} {f : Unit → Mmio β} (ha : address? reg p = some a)
    (h : (f ()).Keeps (Pads.device w) (Own p) ((s.settle w).store a val) Q) :
    (writel val (some a) >>= f).Keeps (Pads.device w) (Own p) s Q :=
  keeps_bind_run ((always_perform _).mpr ⟨reg, ha⟩) (run_writel w s a val) h

theorem keeps_lock {f : Unit → Mmio β} (h : (f ()).Keeps (Pads.device w) (Own p) s Q) :
    (perform DnvOp.rawSpinLock >>= f).Keeps (Pads.device w) (Own p) s Q :=
  keeps_bind_run (t := s) ((always_perform _).mpr trivial) (run_perform _) h

theorem keeps_unlock {f : Unit → Mmio β} (h : (f ()).Keeps (Pads.device w) (Own p) s Q) :
    (perform DnvOp.rawSpinUnlock >>= f).Keeps (Pads.device w) (Own p) s Q :=
  keeps_bind_run (t := s) ((always_perform _).mpr trivial) (run_perform _) h

theorem keeps_irqType {f : Word32 → Mmio β}
    (h : (f (s.irqType q)).Keeps (Pads.device w) (Own p) s Q) :
    (perform (DnvOp.irqType q) >>= f).Keeps (Pads.device w) (Own p) s Q :=
  keeps_bind_run (t := s) ((always_perform _).mpr trivial) (run_perform _) h

theorem keeps_setIrqType {type : Word32} {f : Unit → Mmio β}
    (h : (f ()).Keeps (Pads.device w) (Own p)
      { s with irqType := Function.update s.irqType q type } Q) :
    (perform (DnvOp.setIrqType q type) >>= f).Keeps (Pads.device w) (Own p) s Q :=
  keeps_bind_run (t := { s with irqType := Function.update s.irqType q type })
    ((always_perform _).mpr trivial) (run_perform _) h

theorem keeps_unlock' {Q : Except Fault Unit → Pads → Prop} (h : Q (.ok ()) s) :
    (perform DnvOp.rawSpinUnlock).Keeps (Pads.device w) (Own p) s Q :=
  keeps_perform trivial h

end Rules

/-! ### The bits of an output -/

/-- The input is disabled and the level is the value given, if any. -/
def Bits (g : Option Bool) (x : Word32) : Prop :=
  ∀ v, g = some v → x.getLsbD 9 = true ∧ x.getLsbD 0 = v

/-- The pin's register has the bits of an output with the value given. -/
def Out (p : ℕ) (g : Option Bool) (s : Pads) : Prop :=
  ∀ a, address? .padCfgDw0 p = some a → Bits g (s.mem a)

theorem Bits.congr {x y : Word32} (h : Bits g x) (h9 : y.getLsbD 9 = x.getLsbD 9)
    (h0 : y.getLsbD 0 = x.getLsbD 0) : Bits g y := by
  intro v hv
  obtain ⟨hx9, hx0⟩ := h v hv
  exact ⟨h9.trans hx9, h0.trans hx0⟩

theorem Bits.and_not {x m : Word32} (h : Bits g x) (h9 : m.getLsbD 9 = false)
    (h0 : m.getLsbD 0 = false) : Bits g (x &&& ~~~m) := by
  apply h.congr
  · rw [BitVec.getLsbD_and, BitVec.getLsbD_not, h9]
    simp
  · rw [BitVec.getLsbD_and, BitVec.getLsbD_not, h0]
    simp

theorem Bits.or {x m : Word32} (h : Bits g x) (h9 : m.getLsbD 9 = false)
    (h0 : m.getLsbD 0 = false) : Bits g (x ||| m) := by
  apply h.congr
  · rw [BitVec.getLsbD_or, h9, Bool.or_false]
  · rw [BitVec.getLsbD_or, h0, Bool.or_false]

theorem Bits.xor {x m : Word32} (h : Bits g x) (h9 : m.getLsbD 9 = false)
    (h0 : m.getLsbD 0 = false) : Bits g (x ^^^ m) := by
  apply h.congr
  · rw [BitVec.getLsbD_xor, h9, Bool.xor_false]
  · rw [BitVec.getLsbD_xor, h0, Bool.xor_false]

/-- Only a pin that is an output has a value to change. -/
theorem Bits.set {x : Word32} (h : Bits g x) (val : Bool) :
    Bits (g.map fun _ => val) (if val then x ||| level else x &&& ~~~level) := by
  intro v hv
  obtain ⟨u, hu, rfl⟩ := Option.map_eq_some_iff.mp hv
  obtain ⟨h9, -⟩ := h u hu
  cases val with
  | true =>
    rw [if_pos rfl, BitVec.getLsbD_or, BitVec.getLsbD_or, h9]
    exact ⟨rfl, Bool.or_true _⟩
  | false =>
    rw [if_neg (by decide), BitVec.getLsbD_and, BitVec.getLsbD_and, h9]
    exact ⟨rfl, Bool.and_false _⟩

theorem bits_output (x : Word32) (val : Bool) :
    let y := (x ||| dirMask) &&& ~~~outputDis
    Bits (some val) (if val then y ||| level else y &&& ~~~level) := by
  intro y
  have hy : Bits (some (y.getLsbD 0)) y := by
    intro v hv
    have h9 : y.getLsbD 9 = true := by
      rw [BitVec.getLsbD_and, BitVec.getLsbD_or]
      have hd : dirMask.getLsbD 9 = true := by decide
      have ho : (~~~outputDis).getLsbD 9 = true := by decide
      rw [hd, ho, Bool.or_true, Bool.and_true]
    exact ⟨h9, Option.some.inj hv⟩
  exact hy.set val

/-- What the switch makes of the pin's register. -/
theorem bits_triggered {type x y : Word32} (hx : Bits g x) (h : triggered type x = some y) :
    Bits g y := by
  have he : ∀ m, m = rxevcfgTrigEdge ∨ m = rxevcfgTrigLvl → Bits g (x ||| m) := by
    rintro m (rfl | rfl)
    · exact hx.or (by decide) (by decide)
    · exact hx.or (by decide) (by decide)
  unfold triggered at h
  split_ifs at h
  · cases h
    exact (he _ (Or.inl rfl)).and_not (by decide) (by decide)
  · cases h
    exact (he _ (Or.inl rfl)).or (by decide) (by decide)
  · cases h
    exact (he _ (Or.inl rfl)).xor (by decide) (by decide)
  · cases h
    exact (he _ (Or.inr rfl)).and_not (by decide) (by decide)
  · cases h
    exact (he _ (Or.inr rfl)).or (by decide) (by decide)

theorem bits_none (x : Word32) : Bits none x := fun _ h => by cases h

/-- The hardware drives the state of the input and nothing else of these registers. -/
def OnlyRxstate (w : World) : Prop := ∀ p a, address? .padCfgDw0 p = some a → w.driven a = rxstate

section Out
variable (hw : OnlyRxstate w)
include hw

theorem out_settle (h : Out p g s) : Out p g (s.settle w) := by
  intro a ha
  have hd := hw p a ha
  refine (h a ha).congr ?_ ?_
  · simp [Pads.settle, hd, rxstate, bit]
  · simp [Pads.settle, hd, rxstate, bit]

omit hw in
/-- A write of another register leaves the output. -/
theorem out_store_ne (h : Out p g s) (hr : reg ≠ .padCfgDw0 ∨ q ≠ p)
    (ha : address? reg q = some a) (val : Word32) : Out p g (s.store a val) := by
  intro b hb
  have hne : b ≠ a := by
    refine (ne_dw0 (fun he => ?_) ha hb).symm
    rcases hr with hr | hr
    · exact absurd he hr
    · exact hr
  simp only [Pads.store, Function.update_of_ne hne]
  exact h b hb

omit hw in
theorem out_store (ha : address? .padCfgDw0 p = some a) {val : Word32} (h : Bits g val) :
    Out p g (s.store a val) := by
  intro b hb
  obtain rfl : a = b := Option.some.inj (ha.symm.trans hb)
  simp only [Pads.store, Function.update_self, if_neg (not_status (by decide) ha)]
  exact h

/-- A read of the pin's register shows the bits of the output. -/
theorem bits_read (ha : address? .padCfgDw0 p = some a) (h : Out p g s) :
    Bits g ((s.settle w).mem a) := out_settle hw h a ha

/-! ### The operations -/

omit hw in
/-- A pin without a register is refused. -/
theorem keeps_config {g' : Option Bool} {x : β} {body : Option ℕ → Mmio β}
    (h : ∀ a, address? .padCfgDw0 p = some a →
      (body (some a)).Keeps (Pads.device w) (Own p) s fun _ t => Out p g' t) :
    (do let reg ← dnvGpioReg p .padCfgDw0
        if reg = none then return x
        body reg).Keeps (Pads.device w) (Own p) s fun _ t => Out p g' t := by
  apply keeps_reg
  cases ha : address? .padCfgDw0 p with
  | none =>
    refine keeps_ite (fun _ => keeps_pure ?_) fun hn => absurd rfl hn
    intro a ha'
    rw [ha] at ha'
    cases ha'
  | some a =>
    refine keeps_ite (fun hn => ?_) fun _ => h a ha
    cases hn

theorem keeps_dnvGpioRequest (h : Out p g s) :
    (dnvGpioRequest p).Keeps (Pads.device w) (Own p) s fun _ t => Out p g t := by
  apply keeps_config
  intro a ha
  apply keeps_lock
  apply keeps_readl
  refine keeps_ite (fun _ => ?_) fun _ => ?_
  · apply keeps_readl
    apply keeps_writel ha
    apply keeps_unlock
    refine keeps_pure (out_store ha ?_)
    exact (bits_read hw ha (out_settle hw h)).and_not (by decide) (by decide)
  · apply keeps_unlock
    exact keeps_pure (out_settle hw h)

theorem keeps_dnvGpioSet (h : Out p g s) (val : Bool) :
    (dnvGpioSet p val).Keeps (Pads.device w) (Own p) s
      fun _ t => Out p (g.map fun _ => val) t := by
  apply keeps_config
  intro a ha
  apply keeps_lock
  apply keeps_readl
  have hx := (bits_read hw ha h).set val
  refine keeps_ite (fun hv => ?_) fun hv => ?_
  · apply keeps_writel ha
    apply keeps_unlock'
    rw [if_pos hv] at hx
    exact out_store ha hx
  · apply keeps_writel ha
    apply keeps_unlock'
    rw [if_neg hv] at hx
    exact out_store ha hx

omit hw in
theorem keeps_dnvGpioDirectionInput :
    (dnvGpioDirectionInput p).Keeps (Pads.device w) (Own p) s fun _ t => Out p none t := by
  apply keeps_config
  intro a ha
  apply keeps_lock
  apply keeps_readl
  apply keeps_writel ha
  apply keeps_unlock
  exact keeps_pure (out_store ha (bits_none _))

omit hw in
theorem keeps_dnvGpioDirectionOutput (val : Bool) :
    (dnvGpioDirectionOutput p val).Keeps (Pads.device w) (Own p) s
      fun _ t => Out p (some val) t := by
  apply keeps_config
  intro a ha
  apply keeps_lock
  apply keeps_readl
  have hx := bits_output ((s.settle w).mem a) val
  refine keeps_ite (fun hv => ?_) fun hv => ?_
  · apply keeps_writel ha
    apply keeps_unlock
    simp only [if_pos hv] at hx
    exact keeps_pure (out_store ha hx)
  · apply keeps_writel ha
    apply keeps_unlock
    simp only [if_neg hv] at hx
    exact keeps_pure (out_store ha hx)

/-- A shared register is read and written. -/
theorem keeps_shared {Q : Except Fault β → Pads → Prop} {f : Word32 → Word32} {k : Unit → Mmio β}
    (hr : reg ≠ .padCfgDw0) (ha : address? reg p = some a) (h : Out p g s)
    (hk : ∀ t, Out p g t → (k ()).Keeps (Pads.device w) (Own p) t Q) :
    (do let val ← readl (some a)
        writel (f val) (some a) >>= k).Keeps (Pads.device w) (Own p) s Q := by
  apply keeps_readl
  apply keeps_writel ha
  exact hk _ (out_store_ne (out_settle hw (out_settle hw h)) (Or.inl hr) ha _)

theorem keeps_dnvGpioClearTriggering (h : Out p g s) :
    (dnvGpioClearTriggering p).Keeps (Pads.device w) (Own p) s fun _ t => Out p g t := by
  apply keeps_reg
  apply keeps_mask
  refine keeps_ite (fun _ => keeps_pure h) fun hn => ?_
  obtain ⟨hreg, -⟩ := not_or.mp hn
  obtain ⟨a, ha⟩ := Option.ne_none_iff_exists'.mp hreg
  rw [ha]
  apply keeps_lock
  apply keeps_readl
  apply keeps_writel ha
  have h1 : Out p g (((s.settle w).settle w).store a ((s.settle w).mem a &&& ~~~gpiroutsci)) :=
    out_store ha ((bits_read hw ha h).and_not (by decide) (by decide))
  apply keeps_reg
  cases hen : address? .gpiGpeEn p with
  | none => exact keeps_ite (fun hn => absurd rfl hn) fun _ => keeps_unlock' h1
  | some b =>
    refine keeps_ite (fun _ => ?_) fun hn => absurd (by simp) hn
    refine keeps_shared hw (by decide) hen h1 fun t ht => ?_
    apply keeps_reg
    cases hsts : address? .gpiGpeSts p with
    | none => exact keeps_ite (fun hn => absurd rfl hn) fun _ => keeps_unlock' ht
    | some b' =>
      refine keeps_ite (fun _ => ?_) fun hn => absurd (by simp) hn
      exact keeps_shared hw (by decide) hsts ht fun u hu => keeps_unlock' hu

theorem keeps_dnvIrqAck (h : Out p g s) :
    (dnvIrqAck p).Keeps (Pads.device w) (Own p) s fun _ t => Out p g t := by
  apply keeps_reg
  apply keeps_mask
  refine keeps_ite (fun _ => keeps_pure h) fun hn => ?_
  obtain ⟨hreg, -⟩ := not_or.mp hn
  obtain ⟨b, hb⟩ := Option.ne_none_iff_exists'.mp hreg
  obtain ⟨a, ha⟩ := exists_address (by decide) hb .padCfgDw0
  rw [hb]
  apply keeps_lock
  apply keeps_readl
  have hack : ∀ t, Out p g t → (do
      writel (maskOf .gpiGpeSts p) (some b)
      perform DnvOp.rawSpinUnlock).Keeps (Pads.device w) (Own p) t fun _ t => Out p g t := by
    intro t ht
    apply keeps_writel hb
    apply keeps_unlock'
    exact out_store_ne (out_settle hw ht) (Or.inl (by decide)) hb _
  refine keeps_ite (fun _ => ?_) fun _ => keeps_unlock' (out_settle hw h)
  apply keeps_irqType
  refine keeps_ite (fun _ => ?_) fun _ => hack _ (out_settle hw h)
  apply keeps_reg
  rw [ha]
  apply keeps_readl
  apply keeps_writel ha
  have hx := bits_read hw ha (out_settle hw h)
  exact hack _ (out_store ha (hx.xor (by decide) (by decide)))

theorem keeps_dnvIrqSetType (h : Out p g s) (type : Word32) :
    (dnvIrqSetType p type).Keeps (Pads.device w) (Own p) s fun _ t => Out p g t := by
  apply keeps_reg
  apply keeps_reg
  apply keeps_reg
  apply keeps_reg
  apply keeps_mask
  apply keeps_mask
  apply keeps_mask
  refine keeps_ite (fun _ => keeps_pure h) fun hn => ?_
  simp only [not_or] at hn
  obtain ⟨b, hb⟩ := Option.ne_none_iff_exists'.mp hn.2.2.1
  obtain ⟨a, ha⟩ := exists_address (by decide) hb .padCfgDw0
  obtain ⟨d, hd⟩ := exists_address (by decide) hb .hostswOwn
  obtain ⟨e, he⟩ := exists_address (by decide) hb .gpiGpeEn
  rw [ha, hb, hd, he]
  apply keeps_lock
  refine keeps_shared hw (by decide) hb h fun t ht => ?_
  refine keeps_shared hw (by decide) hd ht fun u hu => ?_
  apply keeps_readl
  apply keeps_readl
  have hx : Bits g (((u.settle w).mem a) &&& ~~~(gpiroutMask ||| rxevcfgMask)) :=
    (bits_read hw ha hu).and_not (by decide) (by decide)
  have hv := out_settle hw (out_settle hw hu)
  extract_lets update
  have hupdate : ∀ y en, update = some (y, en) → Bits g y := by
    intro y en hup
    rcases retrigger_eq_some hup with ⟨hy, -⟩ | ⟨rfl, -⟩
    · exact bits_triggered (hx.or (by decide) (by decide)) hy
    · exact hx
  clear_value update
  rcases update with - | ⟨y, en⟩
  · exact keeps_unlock (keeps_pure hv)
  · apply keeps_writel ha
    apply keeps_writel he
    apply keeps_setIrqType
    apply keeps_unlock
    have hy := out_store (s := ((u.settle w).settle w).settle w) ha (hupdate y en rfl)
    exact keeps_pure (out_store_ne (out_settle hw hy) (Or.inl (by decide)) he en)

end Out

/-! ### Runs of operations -/

/-- What `gpiolib` and the interrupt core ask of the driver. -/
inductive Call
  | request (p : Fin ngpio)
  | free (p : Fin ngpio)
  | directionInput (p : Fin ngpio)
  | directionOutput (p : Fin ngpio) (val : Bool)
  | set (p : Fin ngpio) (val : Bool)
  | irqSetType (p : Fin ngpio) (type : Word32)
  | irqAck (p : Fin ngpio)

namespace Call

def pin : Call → Fin ngpio
  | request p => p
  | free p => p
  | directionInput p => p
  | directionOutput p _ => p
  | set p _ => p
  | irqSetType p _ => p
  | irqAck p => p

/-- Functions that return nothing return 0 here. -/
def program : Call → Mmio ℤ
  | request p => dnvGpioRequest p
  | free p => (fun _ => 0) <$> dnvGpioFree p
  | directionInput p => dnvGpioDirectionInput p
  | directionOutput p val => dnvGpioDirectionOutput p val
  | set p val => (fun _ => 0) <$> dnvGpioSet p val
  | irqSetType p type => dnvIrqSetType p type
  | irqAck p => (fun _ => 0) <$> dnvIrqAck p

/-- The value given to the pin, as long as it is an output. -/
def give (g : Option Bool) : Call → Option Bool
  | directionInput _ => none
  | directionOutput _ val => some val
  | set _ val => g.map fun _ => val
  | _ => g

theorem keeps (hw : OnlyRxstate w) (call : Call) (h : Out call.pin g s) :
    call.program.Keeps (Pads.device w) (Own call.pin) s
      fun _ t => Out call.pin (call.give g) t := by
  cases call with
  | request p => exact keeps_dnvGpioRequest hw h
  | free p => exact keeps_map _ (keeps_dnvGpioClearTriggering hw h)
  | directionInput p => exact keeps_dnvGpioDirectionInput
  | directionOutput p val => exact keeps_dnvGpioDirectionOutput val
  | set p val => exact keeps_map _ (keeps_dnvGpioSet hw h val)
  | irqSetType p type => exact keeps_dnvIrqSetType hw h type
  | irqAck p => exact keeps_map _ (keeps_dnvIrqAck hw h)

/-- The registers and what the pins were given. -/
def step (w : World) (x : Pads × (Fin ngpio → Option Bool)) (call : Call) :
    Pads × (Fin ngpio → Option Bool) :=
  ((call.program.run (Pads.device w) x.1).2,
    Function.update x.2 call.pin (call.give (x.2 call.pin)))

end Call

/-- An operation of one pin leaves the others' registers, but for what the hardware drives. -/
theorem frame (hw : OnlyRxstate w) (call : Call) (hq : call.pin ≠ q)
    (ha : address? .padCfgDw0 q = some a) :
    (call.program.run (Pads.device w) s).2.mem a &&& ~~~rxstate = s.mem a &&& ~~~rxstate := by
  have hsettle : ∀ t : Pads, (t.settle w).mem a &&& ~~~rxstate = t.mem a &&& ~~~rxstate := by
    intro t
    simp only [Pads.settle, hw q a ha]
    exact masked_driven _ _ _
  obtain ⟨halways, -⟩ := call.keeps hw (s := s) fun b _ => bits_none (s.mem b)
  refine halways.run_invariant (I := fun t => t.mem a &&& ~~~rxstate = s.mem a &&& ~~~rxstate)
    (fun o t ho ht => ?_) rfl
  cases o with
  | readl b => exact (hsettle t).trans ht
  | writel val b =>
    obtain ⟨reg, hb⟩ := ho
    have hne : a ≠ b := (ne_dw0 (fun _ => hq) hb ha).symm
    have hstore : ((t.settle w).store b val).mem a = (t.settle w).mem a :=
      Function.update_of_ne hne ..
    exact (congrArg (· &&& ~~~rxstate) hstore).trans ((hsettle t).trans ht)
  | _ => exact ht

theorem Bits.of_masked {x y : Word32} (h : Bits g x) (hxy : y &&& ~~~rxstate = x &&& ~~~rxstate) :
    Bits g y := by
  have hbit : ∀ n, (~~~rxstate).getLsbD n = true → y.getLsbD n = x.getLsbD n := by
    intro n hn
    have hn' := congrArg (BitVec.getLsbD · n) hxy
    simpa [BitVec.getLsbD_and, hn] using hn'
  exact h.congr (hbit 9 (by decide)) (hbit 0 (by decide))

/-- Every output has the bits of the value given to it. -/
theorem out_step (hw : OnlyRxstate w) {x : Pads × (Fin ngpio → Option Bool)}
    (hx : ∀ p : Fin ngpio, Out p (x.2 p) x.1) (call : Call) :
    ∀ p : Fin ngpio, Out p ((call.step w x).2 p) (call.step w x).1 := by
  intro p
  by_cases hp : p = call.pin
  · subst hp
    simp only [Call.step, Function.update_self]
    exact (call.keeps hw (hx call.pin)).2
  · simp only [Call.step, Function.update_of_ne hp]
    intro a ha
    have hne : (call.pin : ℕ) ≠ p := fun h => hp (Fin.ext h.symm)
    exact (hx p a ha).of_masked (frame hw call hne ha)

theorem out_run (hw : OnlyRxstate w) {x : Pads × (Fin ngpio → Option Bool)}
    (hx : ∀ p : Fin ngpio, Out p (x.2 p) x.1) (calls : List Call) :
    ∀ p : Fin ngpio,
      Out p ((calls.foldl (Call.step w) x).2 p) (calls.foldl (Call.step w) x).1 := by
  induction calls generalizing x with
  | nil => exact hx
  | cons call calls ih => exact ih (out_step hw hx call)

theorem and_bit (x : Word32) (n : ℕ) : x &&& bit n = if x.getLsbD n then bit n else 0 :=
  BitVec.and_twoPow x n

theorem run_dnvGpioGet {v : Bool} (ha : address? .padCfgDw0 p = some a)
    (h : Bits (some v) ((s.settle w).mem a)) :
    (dnvGpioGet p).run (Pads.device w) s = (.ok (if v then 1 else 0), s.settle w) := by
  obtain ⟨h9, h0⟩ := h v rfl
  have hdis : inputDis &&& (s.settle w).mem a ≠ 0 := by
    rw [BitVec.and_comm, inputDis, and_bit, if_pos h9]
    decide
  have hlevel : (s.settle w).mem a &&& level = if v then level else 0 := by
    rw [level, and_bit, h0]
  rw [dnvGpioGet, run_reg, ha, run_ite, if_neg (by simp), run_bind,
    run_readl, andThen_ok, run_pure]
  simp only [if_pos hdis, hlevel]
  cases v <;> rfl

/-- In every run of operations, an output reads back the value it was given last, and an operation
of one pin leaves the register of another as it is. -/
theorem reads_of_run (hw : OnlyRxstate w) (s : Pads) (calls : List Call) :
    let x := calls.foldl (Call.step w) (s, fun _ => none)
    (∀ (p : Fin ngpio) v, x.2 p = some v → (address? .padCfgDw0 p).isSome →
      ((dnvGpioGet p).run (Pads.device w) x.1).1 = .ok (if v then 1 else 0)) ∧
    ∀ (call : Call) (q : Fin ngpio), call.pin ≠ q → ∀ a, address? .padCfgDw0 q = some a →
      (call.program.run (Pads.device w) x.1).2.mem a &&& ~~~rxstate = x.1.mem a &&& ~~~rxstate := by
  intro x
  have hout := out_run hw (x := (s, fun _ => none)) (fun p a _ => bits_none _) calls
  refine ⟨fun p v hv hvalid => ?_, fun call q hq a ha => ?_⟩
  · obtain ⟨a, ha⟩ := Option.isSome_iff_exists.mp hvalid
    have hp := out_settle hw (hout p)
    rw [hv] at hp
    exact congrArg Prod.fst (run_dnvGpioGet ha (hp a ha))
  · exact frame hw call (fun h => hq (Fin.ext h)) ha

/-- The hardware drives the state of every input, and whole shared registers. -/
def board : World where
  driven a := if a % 0x10000 < 0x400 then ~~~0 else rxstate
  beyond _ i := i
  stray _ := none

theorem onlyRxstate_board : OnlyRxstate board := by
  intro p a ha
  obtain ⟨-, hb⟩ := aligned_dw0 p (lt_of_address ha) a ha
  exact if_neg (Nat.not_lt.mpr hb)

def noisy : Pads where
  mem a := BitVec.ofNat 32 (a * 0x5a5a5a)
  noise n a := BitVec.ofNat 32 (n + a * 0x3c3c3)
  irqType _ := irqTypeEdgeBoth
  conf0 _ := 0
  conf1 _ := 0

theorem pin_lt (n : ℕ) : n % 153 < ngpio := Nat.mod_lt n (by decide)

def pinOf (n : ℕ) : Fin ngpio := ⟨n % 153, pin_lt n⟩

/-- Pin 5 low, with an interrupt on it and on its neighbour, which is an output too. -/
def lowFive : List Call :=
  [.request (pinOf 5), .directionOutput (pinOf 5) true, .irqSetType (pinOf 5) irqTypeEdgeBoth,
    .directionOutput (pinOf 4) true, .set (pinOf 5) false, .irqAck (pinOf 5), .free (pinOf 4)]

theorem reads_lowFive :
    let x := lowFive.foldl (Call.step board) (noisy, fun _ => none)
    ((dnvGpioGet 5).run (Pads.device board) x.1).1 = .ok 0 := by
  have h := (reads_of_run onlyRxstate_board noisy lowFive).1
  exact h (pinOf 5) false (by decide +kernel) (by decide +kernel)

end BuffaloNas.Dnv
