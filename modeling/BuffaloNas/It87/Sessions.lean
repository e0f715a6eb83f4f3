import BuffaloNas.Gpio.Sessions
import BuffaloNas.It87.Find

/-! Which logical device a search for the environment controller leaves selected. -/
namespace BuffaloNas.It87
open Interaction Program SuperIo Board
open Gpio (It87Gpio Selected Inside Between Enables)

variable {m : ModuleState} {c : It87Gpio} {b : Board} {l : Byte}

/-! ### At 0x2e both drivers make the same accesses -/

theorem superioInb_2e (r : Byte) : superioInb m reg2e r = Gpio.superioInb r := by
  simp [superioInb, reg2e]
  rfl

theorem superioInw_2e (r : Byte) : superioInw m reg2e r = Gpio.superioInw r := by
  simp only [superioInw, superioInb_2e]
  rfl

theorem superioOutb_2e (r v : Byte) : superioOutb reg2e r v = Gpio.superioOutb v r := rfl

theorem superioSelect_2e (l : Byte) : superioSelect reg2e l = Gpio.superioSelect l := rfl

theorem superioEnter_2e : superioEnter reg2e = Gpio.superioEnter := rfl

theorem superioExit_2e : superioExit m reg2e = Gpio.superioExit := by
  simp [superioExit, reg2e]
  rfl

/-! ### Reading the configuration -/

section Config
variable {P : KernelOp → Board → Prop} {I : Board → Prop} {ioreg : Word}
  (hin : ∀ r, ¬ Enables r → (superioInb m ioreg r).Maintains device P I)
  (hout : ∀ v, (superioOutb ioreg 0x2c v).Maintains device P I)
include hin

theorem maintains_readBeepPin (d : It87SioData) : (readBeepPin m ioreg d).Maintains device P I :=
  maintains_bind (hin _ (by decide)) fun _ => maintains_pure _

theorem maintains_readIt8603 (d : It87SioData) : (readIt8603 m ioreg d).Maintains device P I := by
  refine maintains_bind (hin _ (by decide)) ?_
  intro reg27
  refine maintains_bind (hin _ (by decide)) ?_
  intro reg29
  exact maintains_readBeepPin hin _

theorem maintains_readIt8620 (d : It87SioData) : (readIt8620 m ioreg d).Maintains device P I := by
  refine maintains_bind (hin _ (by decide)) ?_
  intro reg25
  refine maintains_bind (hin _ (by decide)) ?_
  intro reg26
  refine maintains_bind (hin _ (by decide)) ?_
  intro reg27
  refine maintains_bind (hin _ (by decide)) ?_
  intro reg28
  refine maintains_bind (hin _ (by decide)) ?_
  intro reg29
  refine maintains_bind (hin _ (by decide)) ?_
  intro reg2c
  exact maintains_readBeepPin hin _

theorem maintains_readIt8613 (d : It87SioData) : (readIt8613 m ioreg d).Maintains device P I := by
  refine maintains_bind (hin _ (by decide)) ?_
  intro reg25
  refine maintains_bind (hin _ (by decide)) ?_
  intro reg27
  refine maintains_bind (hin _ (by decide)) ?_
  intro reg29
  refine maintains_bind (hin _ (by decide)) ?_
  intro reg2c
  exact maintains_readBeepPin hin _

theorem maintains_readIt8732 (d : It87SioData) : (readIt8732 m ioreg d).Maintains device P I := by
  refine maintains_bind (hin _ (by decide)) ?_
  intro reg29
  refine maintains_bind (hin _ (by decide)) ?_
  intro reg27
  refine maintains_bind (hin _ (by decide)) ?_
  intro reg2c
  exact maintains_readBeepPin hin _

theorem maintains_readPinx4 (d : It87SioData) : (readPinx4 m ioreg d).Maintains device P I := by
  refine maintains_bind (hin _ (by decide)) ?_
  intro reg29
  refine maintains_bind (hin _ (by decide)) ?_
  intro reg2d
  exact maintains_bind (hin _ (by decide)) fun reg27 => maintains_pure _

theorem maintains_readIt8655 (d : It87SioData) : (readIt8655 m ioreg d).Maintains device P I :=
  maintains_bind (maintains_readPinx4 hin d) fun d => maintains_readBeepPin hin d

theorem maintains_readIt8665 (d : It87SioData) : (readIt8665 m ioreg d).Maintains device P I := by
  refine maintains_bind (maintains_readPinx4 hin d) ?_
  intro d
  refine maintains_bind (hin _ (by decide)) ?_
  intro reg26
  refine maintains_bind (hin _ (by decide)) ?_
  intro regd3
  exact maintains_readBeepPin hin _

theorem maintains_readFiveFans (d : It87SioData) :
    (readFiveFans m ioreg d).Maintains device P I := by
  refine maintains_ite (fun _ => maintains_pure d) fun _ => ?_
  refine maintains_bind (hin _ (by decide)) ?_
  intro reg26
  split <;> exact maintains_pure _

theorem maintains_readVid (d : It87SioData) : (readVid m ioreg d).Maintains device P I := by
  refine maintains_ite (fun _ => maintains_pure d) fun _ => ?_
  exact maintains_bind (hin _ (by decide)) fun vidValue => maintains_pure _

include hout

theorem maintains_readIt8783 (d : It87SioData) : (readIt8783 m ioreg d).Maintains device P I := by
  refine maintains_bind (hin _ (by decide)) ?_
  intro reg25
  refine maintains_bind (hin _ (by decide)) ?_
  intro reg27
  refine maintains_bind (hin _ (by decide)) ?_
  intro reg2a
  refine maintains_bind (hin _ (by decide)) ?_
  intro reg2c
  refine maintains_bind (hin _ (by decide)) ?_
  intro regef
  refine maintains_ite (fun _ => ?_) fun _ => maintains_readBeepPin hin _
  exact maintains_bind (hout _) fun _ => maintains_readBeepPin hin _

theorem maintains_readOther (d : It87SioData) : (readOther m ioreg d).Maintains device P I := by
  refine maintains_bind (maintains_readFiveFans hin d) ?_
  intro d
  refine maintains_bind (hin _ (by decide)) ?_
  intro reg27
  refine maintains_bind (hin _ (by decide)) ?_
  intro reg29
  refine maintains_bind (maintains_readVid hin _) ?_
  intro d
  refine maintains_bind (hin _ (by decide)) ?_
  intro reg2c
  refine maintains_ite (fun _ => ?_) fun _ => maintains_readBeepPin hin _
  exact maintains_bind (hout _) fun _ => maintains_readBeepPin hin _

/-- No chip's configuration needs more than reads, and writes of register 0x2c. -/
theorem maintains_readConfig (d : It87SioData) : (readConfig m ioreg d).Maintains device P I := by
  unfold readConfig
  split
  · exact maintains_readBeepPin hin d
  · exact maintains_readIt8783 hin hout d
  · exact maintains_readIt8603 hin d
  · exact maintains_readIt8603 hin d
  · exact maintains_readIt8620 hin d
  · exact maintains_readIt8620 hin d
  · exact maintains_readIt8620 hin d
  · exact maintains_readIt8613 hin d
  · exact maintains_readIt8613 hin d
  · exact maintains_readIt8732 hin d
  · exact maintains_readIt8655 hin d
  · exact maintains_readIt8665 hin d
  · exact maintains_readOther hin hout d

end Config

/-! ### A search at 0x2e -/

/-- The type the module goes by: the one it is told, or else the one the chip has. -/
def typeOf (m : ModuleState) (k : Contents) : Option Chips :=
  if k.word Gpio.gpio devid = 0xffff then none
  else chipOf (if m.forceId ≠ 0 then m.forceId else k.word Gpio.gpio devid)

/-- The environment controller is activated and has an address. -/
def Ready (k : Contents) : Prop := (k pme 0x30).getLsbD 0 ∧ k.word pme 0x60 &&& ~~~7 ≠ 0

instance (k : Contents) : Decidable (Ready k) := inferInstanceAs (Decidable (_ ∧ _))

/-- The device that a search leaves selected. -/
def leftSelected (m : ModuleState) (k : Contents) : Byte :=
  match typeOf m k with
  | none => Gpio.gpio
  | some type => if Ready k then pinsLdn type else pme

theorem leftSelected_none {k : Contents} (h : typeOf m k = none) :
    leftSelected m k = Gpio.gpio := by
  rw [leftSelected, h]

theorem leftSelected_some {k : Contents} {type : Chips} (h : typeOf m k = some type) :
    leftSelected m k = if Ready k then pinsLdn type else pme := by
  rw [leftSelected, h]

theorem maintains_superioInb_2e (r : Byte) (hc : c.Tabled) (hr : ¬ Enables r) :
    (superioInb m reg2e r).Maintains device (Selected c) (Inside c l) := by
  rw [superioInb_2e]
  exact Gpio.maintains_superioInb (hc.ldn_of_owns hr)

theorem keeps_readPins (hc : c.Tabled) (hb : Inside c l b) (d : It87SioData) :
    (readPins m reg2e d).Keeps device (Selected c) b fun _ t => Inside c (pinsLdn d.type) t := by
  rw [readPins, superioSelect_2e]
  refine keeps_bind_total (Gpio.keeps_superioSelect hc hb _) ?_
  intro _ t ht
  refine maintains_readConfig (fun r hr => maintains_superioInb_2e r hc hr) (fun v => ?_) d t ht.2
  rw [superioOutb_2e]
  exact Gpio.maintains_superioOutb (hc.ldn_of_owns (by decide)) (by decide) (by decide) v

theorem keeps_probe (hc : c.Tabled) (hb : Inside c l b) (address : Word) (d : It87SioData) :
    (probe m reg2e address d).Keeps device (Selected c) b fun _ t =>
      Inside c (if Ready b.chip.contents then pinsLdn d.type else pme) t := by
  unfold probe
  simp only [superioSelect_2e, superioInw_2e, superioInb_2e]
  refine keeps_bind_total (Gpio.keeps_superioSelect hc hb pme) ?_
  intro _ t ht
  obtain ⟨hs, ht⟩ := ht
  refine keeps_bind_total (Gpio.keeps_superioInb ht (hc.ldn_of_owns (by decide))) ?_
  intro act u hu
  obtain ⟨hact, hs', hu⟩ := hu
  obtain rfl := Except.ok.inj hact
  rw [hs] at hs' ⊢
  refine keeps_ite (fun ha => ?_) fun ha => ?_
  · rw [Bool.not_eq_true'] at ha
    have hn : ¬ Ready b.chip.contents := fun hr => by rw [hr.1] at ha; cases ha
    rw [if_neg hn]
    exact keeps_pure hu
  rw [Bool.not_eq_true', Bool.not_eq_false] at ha
  refine keeps_bind_total (Gpio.keeps_superioInw hu (hc.ldn_of_owns (by decide))
    (hc.ldn_of_owns (by decide))) ?_
  intro base v hv
  obtain ⟨hbase, -, hv⟩ := hv
  obtain rfl := Except.ok.inj hbase
  rw [hs']
  refine keeps_ite (fun h0 => ?_) fun h0 => ?_
  · have hn : ¬ Ready b.chip.contents := fun hr => hr.2 h0
    rw [if_neg hn]
    exact keeps_pure hv
  rw [if_pos ⟨ha, h0⟩]
  refine keeps_bind_total (Gpio.maintains_superioInb (hc.ldn_of_owns (by decide)) v hv) ?_
  intro rev w hw
  refine keeps_bind_total (keeps_readPins hc hw _) ?_
  intro _ x hx
  refine keeps_pure ?_
  rwa [It87SioData.type_configured] at hx

theorem keeps_detect (hc : c.Tabled) (hb : Inside c Gpio.gpio b) (address : Word)
    (d : It87SioData) :
    (detect m reg2e address d).Keeps device (Selected c) b fun _ t =>
      Inside c (leftSelected m b.chip.contents) t := by
  unfold detect
  simp only [superioInw_2e]
  refine keeps_bind_total (Gpio.keeps_superioInw hb (hc.ldn_of_owns (by decide))
    (hc.ldn_of_owns (by decide))) ?_
  intro id t ht
  obtain ⟨hid, hs, ht⟩ := ht
  obtain rfl := Except.ok.inj hid
  refine keeps_ite (fun h => ?_) fun h => ?_
  · rw [leftSelected_none (if_pos h)]
    exact keeps_pure ht
  have hty : typeOf m b.chip.contents =
      chipOf (if m.forceId ≠ 0 then m.forceId else b.chip.contents.word Gpio.gpio devid) := if_neg h
  rcases ho : chipOf (if m.forceId ≠ 0 then m.forceId else b.chip.contents.word Gpio.gpio devid)
    with _ | type
  · rw [leftSelected_none (hty.trans ho)]
    exact keeps_pure ht
  · rw [leftSelected_some (hty.trans ho), ← hs]
    exact keeps_probe hc ht address { d with type }

/-- The device left selected is decided by the chip's registers. -/
theorem keeps_it87Find_2e (hc : c.Tabled) (hb : Between c Gpio.gpio b) (address : Word)
    (d : It87SioData) :
    (it87Find m reg2e address d).Keeps device (Selected c) b fun _ t =>
      Between c (if b.grants (Gpio.reg, 2) then leftSelected m b.chip.contents else Gpio.gpio)
        t := by
  rw [it87Find, superioEnter_2e, superioExit_2e]
  refine keeps_bind_total (Gpio.keeps_superioEnter hb) ?_
  intro rc t ht
  rcases ht with ⟨hrc, hg, rfl, ht⟩ | ⟨⟨e, hrc, he⟩, hg, ht⟩
  · obtain rfl := Except.ok.inj hrc
    rw [if_pos hg]
    refine keeps_ite (fun h0 => absurd rfl h0) fun _ => ?_
    refine keeps_bind_total (keeps_detect hc ht address d) ?_
    intro found u hu
    rw [show (Gpio.entered b).chip.contents = b.chip.contents from Chip.wake_contents] at hu
    exact keeps_bind_total (Gpio.keeps_superioExit hc hu) fun _ v hv => keeps_pure hv
  · obtain rfl := Except.ok.inj hrc
    rw [if_neg hg]
    exact keeps_ite (fun _ => keeps_pure ht) fun h0 => absurd he h0

/-! ### A search at 0x4e -/

theorem maintains_outb_4e {I : Board → Prop} (v : Byte) :
    (outb v reg4e).Maintains device (Selected c) I ∧
      (outb v (reg4e + 1)).Maintains device (Selected c) I :=
  ⟨Gpio.maintains_outb_other (by decide) (by decide) v,
    Gpio.maintains_outb_other (by decide) (by decide) v⟩

theorem maintains_inb_4e : (inb (reg4e + 1)).Maintains device (Selected c) (Between c l) :=
  Gpio.maintains_inb_other (by decide) fun _ _ hb => ⟨hb.ldn, hb.held⟩

theorem maintains_superioKey_4e {I : Board → Prop} :
    (superioKey reg4e).Maintains device (Selected c) I := by
  refine maintains_bind (maintains_outb_4e _).1 fun _ => ?_
  refine maintains_bind (maintains_outb_4e _).1 fun _ => ?_
  exact maintains_bind (maintains_outb_4e _).1 fun _ => (maintains_outb_4e _).1

theorem maintains_superioInb_4e (r : Byte) :
    (superioInb m reg4e r).Maintains device (Selected c) (Between c l) := by
  refine maintains_bind (maintains_outb_4e r).1 fun _ => ?_
  refine maintains_bind maintains_inb_4e ?_
  intro v
  refine maintains_ite (fun _ => ?_) fun _ => maintains_pure v
  refine maintains_bind maintains_superioKey_4e fun _ => ?_
  exact maintains_bind (maintains_outb_4e r).1 fun _ => maintains_inb_4e

theorem maintains_superioInw_4e (r : Byte) :
    (superioInw m reg4e r).Maintains device (Selected c) (Between c l) :=
  maintains_bind (maintains_superioInb_4e r) fun _ =>
    maintains_bind (maintains_superioInb_4e (r + 1)) fun _ => maintains_pure _

theorem maintains_superioOutb_4e {I : Board → Prop} (r v : Byte) :
    (superioOutb reg4e r v).Maintains device (Selected c) I :=
  maintains_bind (maintains_outb_4e r).1 fun _ => (maintains_outb_4e v).2

theorem maintains_superioSelect_4e {I : Board → Prop} (k : Byte) :
    (superioSelect reg4e k).Maintains device (Selected c) I :=
  maintains_superioOutb_4e dev k

theorem maintains_superioEnter_4e :
    (superioEnter reg4e).Maintains device (Selected c) (Between c l) := by
  refine maintains_bind (fun b hb => keeps_perform (fun hd => hd.elim) ?_) fun granted => ?_
  · simp only [device, request]
    split
    · exact ⟨hb.ldn, List.mem_cons_of_mem _ hb.held⟩
    · exact ⟨hb.ldn, hb.held⟩
  · exact maintains_ite (fun _ => maintains_bind maintains_superioKey_4e fun _ => maintains_pure _)
      fun _ => maintains_pure _

theorem maintains_superioExit_4e (hc : c.Tabled) :
    (superioExit m reg4e).Maintains device (Selected c) (Between c l) := by
  have hrelease : (perform (KernelOp.releaseRegion reg4e 2) : Kernel Unit).Maintains device
      (Selected c) (Between c l) := by
    intro b hb
    refine keeps_perform (fun hd => hd.elim) ⟨hb.ldn, ?_⟩
    exact (List.mem_erase_of_ne fun he => hc.size_ne (congrArg Prod.snd he)).mpr hb.held
  refine maintains_ite (fun _ => ?_) fun _ => hrelease
  refine maintains_bind (maintains_outb_4e _).1 fun _ => ?_
  exact maintains_bind (maintains_outb_4e _).2 fun _ => hrelease

theorem maintains_probe_4e (address : Word) (d : It87SioData) :
    (probe m reg4e address d).Maintains device (Selected c) (Between c l) := by
  refine maintains_bind (maintains_superioSelect_4e pme) fun _ => ?_
  refine maintains_bind (maintains_superioInb_4e 0x30) ?_
  intro act
  refine maintains_ite (fun _ => maintains_pure _) fun _ => ?_
  refine maintains_bind (maintains_superioInw_4e 0x60) ?_
  intro base
  refine maintains_ite (fun _ => maintains_pure _) fun _ => ?_
  refine maintains_bind (maintains_superioInb_4e devrev) ?_
  intro rev
  refine maintains_bind (maintains_bind (maintains_superioSelect_4e _) fun _ => ?_) fun d =>
    maintains_pure _
  exact maintains_readConfig (fun r _ => maintains_superioInb_4e r)
    (fun v => maintains_superioOutb_4e 0x2c v) _

/-- A search at 0x4e does not reach the chip at 0x2e. -/
theorem maintains_it87Find_4e (hc : c.Tabled) (address : Word) (d : It87SioData) :
    (it87Find m reg4e address d).Maintains device (Selected c) (Between c l) := by
  refine maintains_bind maintains_superioEnter_4e ?_
  intro err
  refine maintains_ite (fun _ => maintains_pure _) fun _ => ?_
  refine maintains_bind ?_ fun found =>
    maintains_bind (maintains_superioExit_4e hc) fun _ => maintains_pure found
  refine maintains_bind (maintains_superioInw_4e devid) ?_
  intro id
  refine maintains_ite (fun _ => maintains_pure _) fun _ => ?_
  split
  · exact maintains_pure _
  · exact maintains_probe_4e address _

end BuffaloNas.It87
