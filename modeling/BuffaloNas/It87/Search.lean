import BuffaloNas.Gpio.Selected

/-! Looking for the environment controller again: a search reroutes a pin at most, and finds the
same the next time. -/
namespace BuffaloNas.It87
open Interaction Program SuperIo Board
open Gpio (pointed)

variable {α β γ : Type} {m : ModuleState} {b t : Board} {l l' l'' : Byte}

/-- The register of the extended multi-function pins, which a search may write. -/
def pinx2 : Byte := 0x2c

/-- The chip is in its configuration mode, with device `l` selected. -/
structure Open (l : Byte) (b : Board) : Prop where
  config : b.chip.mode = .config
  ldn : b.chip.ldn = l

/-- All registers of all devices but those of the pins are as they were. -/
def SamePins (k k' : Contents) : Prop := ∀ l r, r ≠ pinx2 → k' l r = k l r

/-- Run on an open chip, the program returns what `f` makes of the registers, and leaves them and
the regions that drivers hold as they were, and device `l'` selected. -/
def Consults (l l' : Byte) (p : Kernel α) (f : Contents → α) : Prop :=
  ∀ b, Open l b → ∃ t, p.run device b = (.ok (f b.chip.contents), t) ∧ Open l' t ∧
    t.chip.contents = b.chip.contents ∧ t.held = b.held

/-- A program that consults no register of the pins. -/
def Reads (l l' : Byte) (p : Kernel α) : Prop :=
  ∃ f, Consults l l' p f ∧ ∀ k k', SamePins k k' → f k' = f k

/-- Run once more on the registers it has left, with device `l'` selected this time, the program
returns the same and leaves them as they are; the first time it may have written those of the
pins. -/
def Repeats (l l' : Byte) (p : Kernel α) : Prop :=
  ∀ b, Open l b → ∃ x t, p.run device b = (.ok x, t) ∧ (∃ l'', Open l'' t) ∧ t.held = b.held ∧
    SamePins b.chip.contents t.chip.contents ∧
    ∀ b', Open l' b' → b'.chip.contents = t.chip.contents → ∃ t', p.run device b' = (.ok x, t') ∧
      (∃ l'', Open l'' t') ∧ t'.held = b'.held ∧ t'.chip.contents = b'.chip.contents

/-! ### Rules -/

theorem consults_pure (a : α) : Consults l l (pure a : Kernel α) fun _ => a :=
  fun b hb => ⟨b, rfl, hb, rfl, rfl⟩

theorem consults_bind {p : Kernel α} {q : α → Kernel β} {f : Contents → α}
    {g : α → Contents → β} (hp : Consults l l' p f) (hq : ∀ a, Consults l' l'' (q a) (g a)) :
    Consults l l'' (p >>= q) fun k => g (f k) k := by
  intro b hb
  obtain ⟨t, hrun, ht, hsame, hheld⟩ := hp b hb
  obtain ⟨u, hrun', hu, hsame', hheld'⟩ := hq (f b.chip.contents) t ht
  rw [hsame] at hrun'
  exact ⟨u, (run_bind_of hrun).trans hrun', hu, hsame'.trans hsame, hheld'.trans hheld⟩

theorem consults_superioInb (r : Byte) :
    Consults l l (superioInb m reg2e r) fun k => k l r := by
  rintro b ⟨hconfig, rfl⟩
  refine ⟨pointed b r, ?_, ⟨hconfig, rfl⟩, rfl, rfl⟩
  rw [superioInb_2e]
  exact Gpio.run_superioInb hconfig r

theorem consults_superioInw (r : Byte) :
    Consults l l (superioInw m reg2e r) fun k => k.word l r := by
  rintro b ⟨hconfig, rfl⟩
  refine ⟨pointed b (r + 1), ?_, ⟨hconfig, rfl⟩, rfl, rfl⟩
  rw [superioInw_2e]
  exact Gpio.run_superioInw hconfig r

theorem consults_superioSelect (ldn : Byte) :
    Consults l ldn (superioSelect reg2e ldn) fun _ => () := by
  rintro b ⟨hconfig, -⟩
  exact ⟨_, Gpio.run_superioSelect hconfig ldn, ⟨hconfig, rfl⟩, rfl, rfl⟩

theorem reads_pure (a : α) : Reads l l (pure a : Kernel α) := ⟨_, consults_pure a, fun _ _ _ => rfl⟩

theorem reads_superioInb {r : Byte} (hr : r ≠ pinx2) : Reads l l (superioInb m reg2e r) :=
  ⟨_, consults_superioInb r, fun _ _ h => h l r hr⟩

theorem reads_superioInw {r : Byte} (hr : r ≠ pinx2) (hr' : r + 1 ≠ pinx2) :
    Reads l l (superioInw m reg2e r) := by
  refine ⟨_, consults_superioInw r, fun k k' h => ?_⟩
  rw [Contents.word, Contents.word, h l r hr, h l (r + 1) hr']

theorem reads_bind {p : Kernel α} {q : α → Kernel β} (hp : Reads l l' p)
    (hq : ∀ a, Reads l' l'' (q a)) : Reads l l'' (p >>= q) := by
  obtain ⟨f, hf, hsame⟩ := hp
  choose g hg hsame' using hq
  refine ⟨_, consults_bind hf hg, fun k k' h => ?_⟩
  rw [hsame k k' h]
  exact hsame' _ k k' h

theorem reads_ite {c : Prop} [Decidable c] {p q : Kernel α} (hp : Reads l l' p)
    (hq : Reads l l' q) : Reads l l' (if c then p else q) := by
  split
  · exact hp
  · exact hq

/-- A program that writes nothing returns the same again. -/
theorem repeats_of_consults {p : Kernel α} {f : Contents → α} (h : Consults l l' p f) :
    Repeats l l p := by
  intro b hb
  obtain ⟨t, hrun, ht, hsame, hheld⟩ := h b hb
  refine ⟨_, t, hrun, ⟨l', ht⟩, hheld, fun l r _ => by rw [hsame], fun b' hb' hcontents => ?_⟩
  obtain ⟨t', hrun', ht', hsame', hheld'⟩ := h b' hb'
  rw [hcontents, hsame] at hrun'
  exact ⟨t', hrun', ⟨l', ht'⟩, hheld', hsame'⟩

/-- What is read before the pins does not change with them. -/
theorem repeats_bind {p : Kernel α} {q : α → Kernel β} (hp : Reads l l' p)
    (hq : ∀ a, Repeats l' l' (q a)) : Repeats l l (p >>= q) := by
  obtain ⟨f, hf, hblind⟩ := hp
  intro b hb
  obtain ⟨t, hrun, ht, hsame, hheld⟩ := hf b hb
  obtain ⟨x, u, hrun', hu, hheld', hpins, hagain⟩ := hq (f b.chip.contents) t ht
  rw [hsame] at hpins
  refine ⟨x, u, (run_bind_of hrun).trans hrun', hu, hheld'.trans hheld, hpins, ?_⟩
  intro b' hb' hcontents
  obtain ⟨t', hrunA, htA, hsameA, hheldA⟩ := hf b' hb'
  rw [hblind b.chip.contents b'.chip.contents (hcontents ▸ hpins)] at hrunA
  obtain ⟨u', hrunB, huB, hheldB, hsameB⟩ := hagain t' htA (hsameA.trans hcontents)
  exact ⟨u', (run_bind_of hrunA).trans hrunB, huB, hheldB.trans hheldA, hsameB.trans hsameA⟩

theorem repeats_ite {c : Prop} [Decidable c] {p q : Kernel α} (hp : Repeats l l' p)
    (hq : Repeats l l' q) : Repeats l l' (if c then p else q) := by
  split
  · exact hp
  · exact hq

/-! ### The pins -/

theorem store_pins {c : Chip} (h : c.mode = .config) (v : Byte) :
    { c with index := pinx2 }.store v = { c with
      index := pinx2
      device := Function.update c.device c.ldn (Function.update (c.device c.ldn) pinx2 v) } := by
  simp [Chip.store, h, pinx2]

theorem run_superioOutb_pins (v : Byte) (hb : Open l b) :
    ∃ t, (superioOutb reg2e pinx2 v).run device b = (.ok (), t) ∧ Open l t ∧ t.held = b.held ∧
      SamePins b.chip.contents t.chip.contents ∧ t.chip.contents l pinx2 = v := by
  obtain ⟨hconfig, rfl⟩ := hb
  have hrun := Gpio.run_superioOutb hconfig v pinx2
  rw [store_pins hconfig] at hrun
  refine ⟨_, hrun, ⟨hconfig, rfl⟩, rfl, fun l r hr => ?_, ?_⟩
  · simp only [Chip.contents, Chip.read]
    by_cases hl : l = b.chip.ldn
    · rw [hl, Function.update_self, Function.update_of_ne hr]
    · rw [Function.update_of_ne hl]
  · have h7 : pinx2 ≠ 0x07 := by decide
    have hlow : ¬ pinx2 < 0x25 := by decide
    simp only [Chip.contents, Chip.read, if_neg h7, if_neg hlow, Function.update_self]

/-- The register of the pins, once bit 1 is set where it has to be. -/
def rerouted (reroute : Bool) (reg : Byte) : Byte :=
  if reroute then reg ||| It87SioData.bit 1 else reg

theorem run_reroute {q : Byte → Kernel β} {h : Byte → Contents → β}
    (hq : ∀ reg, Consults l l (q reg) (h reg)) (reroute : Bool) (reg : Byte) (hb : Open l b) :
    ∃ t, (do
        let reg' := if reroute then reg ||| It87SioData.bit 1 else reg
        if reroute then superioOutb reg2e pinx2 reg'
        q reg').run device b = (.ok (h (rerouted reroute reg) t.chip.contents), t) ∧
      Open l t ∧ t.held = b.held ∧ SamePins b.chip.contents t.chip.contents ∧
      t.chip.contents l pinx2 = (if reroute then rerouted reroute reg else b.chip.contents l pinx2) ∧
      (reroute = false → t.chip.contents = b.chip.contents) := by
  cases reroute
  · obtain ⟨t, hrun, ht, hkept, hheld⟩ := hq reg b hb
    rw [← hkept] at hrun
    exact ⟨t, hrun, ht, hheld, fun _ _ _ => by rw [hkept], by rw [hkept]; rfl, fun _ => hkept⟩
  · obtain ⟨t, hrun, ht, hheld, hpins, hv⟩ :=
      run_superioOutb_pins (reg ||| It87SioData.bit 1) hb
    obtain ⟨u, hrun', hu, hkept, hheld'⟩ := hq (reg ||| It87SioData.bit 1) t ht
    rw [← hkept] at hrun' hv hpins
    exact ⟨u, (run_bind_of hrun).trans hrun', hu, hheld'.trans hheld, hpins, hv, nofun⟩

/-- A search sets bit 1 where it has to be, and finds it set the next time. -/
theorem repeats_reroute {mid : Kernel γ} {g : γ → Byte → Bool} {post : γ → Byte → Byte → Kernel β}
    (hmid : Reads l l mid) (hset : ∀ c reg, g c (reg ||| It87SioData.bit 1) = false)
    (hpost : ∀ c reg reg', ∃ f, Consults l l (post c reg reg') f)
    (hsame : ∀ c reg reg', g c reg = true →
      post c (reg ||| It87SioData.bit 1) reg' = post c reg reg') :
    Repeats l l (do
      let reg ← superioInb m reg2e pinx2
      let c ← mid
      let reroute := g c reg
      let reg' := if reroute then reg ||| It87SioData.bit 1 else reg
      if reroute then superioOutb reg2e pinx2 reg'
      post c reg reg') := by
  obtain ⟨f, hf, hblind⟩ := hmid
  choose h hh using hpost
  intro b hb
  obtain ⟨s, hrunS, hs, hkeptS, hheldS⟩ := consults_superioInb (m := m) pinx2 b hb
  obtain ⟨t, hrunT, ht, hkeptT, hheldT⟩ := hf s hs
  rw [hkeptS] at hrunT hkeptT
  have hk : ∃ c reg, c = f b.chip.contents ∧ reg = b.chip.contents l pinx2 := ⟨_, _, rfl, rfl⟩
  obtain ⟨c, reg, hc, hreg⟩ := hk
  rw [← hc] at hrunT
  have hrunS : (superioInb m reg2e pinx2).run device b = (.ok reg, s) := hreg ▸ hrunS
  obtain ⟨u, hrunU, hu, hheldU, hpins, hpinx2, -⟩ := run_reroute (hh c reg) (g c reg) reg ht
  rw [hkeptT] at hpins hpinx2
  have hleft : u.chip.contents l pinx2 = rerouted (g c reg) reg := by
    rw [hpinx2, ← hreg]
    cases g c reg <;> rfl
  refine ⟨_, u, (run_bind_of hrunS).trans ((run_bind_of hrunT).trans hrunU), ⟨l, hu⟩,
    hheldU.trans (hheldT.trans hheldS), hpins, fun b' hb' hcontents => ?_⟩
  -- the second time the bit is set, and the rest is as it was
  obtain ⟨s', hrunA, hsA, hkeptA, hheldA⟩ := consults_superioInb (m := m) pinx2 b' hb'
  obtain ⟨t', hrunB, htB, hkeptB, hheldB⟩ := hf s' hsA
  rw [hkeptA] at hrunB hkeptB
  rw [hblind b.chip.contents b'.chip.contents (hcontents ▸ hpins), ← hc] at hrunB
  have hrunA : (superioInb m reg2e pinx2).run device b' =
      (.ok (rerouted (g c reg) reg), s') := by
    rw [← hleft, ← hcontents]
    exact hrunA
  have hno : g c (rerouted (g c reg) reg) = false := by
    cases hg : g c reg
    · exact hg
    · exact hset c reg
  have hpost' : ∀ reg', post c (rerouted (g c reg) reg) reg' = post c reg reg' := fun reg' => by
    cases hg : g c reg
    · rfl
    · exact hsame c reg reg' hg
  obtain ⟨u', hrunC, huC, hheldC, -, -, hkeptC⟩ :=
    run_reroute (hh c reg) false (rerouted (g c reg) reg) htB
  have hkeptC := (hkeptC rfl).trans hkeptB
  refine ⟨u', ?_, ⟨l, huC⟩, hheldC.trans (hheldB.trans hheldA), hkeptC⟩
  refine (run_bind_of hrunA).trans ((run_bind_of hrunB).trans ?_)
  rw [hkeptC, hcontents] at hrunC
  simp only [hno, hpost']
  exact hrunC

theorem repeats_reroute_now {g : Byte → Bool} {post : Byte → Byte → Kernel β}
    (hset : ∀ reg, g (reg ||| It87SioData.bit 1) = false)
    (hpost : ∀ reg reg', ∃ f, Consults l l (post reg reg') f)
    (hsame : ∀ reg reg', g reg = true →
      post (reg ||| It87SioData.bit 1) reg' = post reg reg') :
    Repeats l l (do
      let reg ← superioInb m reg2e pinx2
      let reroute := g reg
      let reg' := if reroute then reg ||| It87SioData.bit 1 else reg
      if reroute then superioOutb reg2e pinx2 reg'
      post reg reg') :=
  repeats_reroute (g := fun _ => g) (reads_pure ()) (fun _ => hset) (fun _ => hpost) fun _ => hsame

/-! ### What the chips are asked -/

/-- A program that writes nothing. -/
def Steady (l l' : Byte) (p : Kernel α) : Prop := ∃ f, Consults l l' p f

theorem Reads.steady {p : Kernel α} (h : Reads l l' p) : Steady l l' p := by
  obtain ⟨f, hf, -⟩ := h
  exact ⟨f, hf⟩

theorem Steady.repeats {p : Kernel α} (h : Steady l l' p) : Repeats l l p := by
  obtain ⟨f, hf⟩ := h
  exact repeats_of_consults hf

theorem steady_bind {p : Kernel α} {q : α → Kernel β} (hp : Steady l l' p)
    (hq : ∀ a, Steady l' l'' (q a)) : Steady l l'' (p >>= q) := by
  obtain ⟨f, hf⟩ := hp
  choose g hg using hq
  exact ⟨_, consults_bind hf hg⟩

theorem steady_superioInb (r : Byte) : Steady l l (superioInb m reg2e r) :=
  ⟨_, consults_superioInb r⟩

variable {d : It87SioData}

theorem reads_readBeepPin (d : It87SioData) : Reads l l (readBeepPin m reg2e d) :=
  reads_bind (reads_superioInb (by decide)) fun _ => reads_pure _

theorem steady_readIt8603 : Steady l l (readIt8603 m reg2e d) := by
  refine steady_bind (steady_superioInb _) fun reg27 => ?_
  refine steady_bind (steady_superioInb _) fun reg29 => ?_
  exact (reads_readBeepPin _).steady

theorem steady_readIt8620 : Steady l l (readIt8620 m reg2e d) := by
  refine steady_bind (steady_superioInb _) fun reg25 => ?_
  refine steady_bind (steady_superioInb _) fun reg26 => ?_
  refine steady_bind (steady_superioInb _) fun reg27 => ?_
  refine steady_bind (steady_superioInb _) fun reg28 => ?_
  refine steady_bind (steady_superioInb _) fun reg29 => ?_
  refine steady_bind (steady_superioInb _) fun reg2c => ?_
  exact (reads_readBeepPin _).steady

theorem steady_readIt8613 : Steady l l (readIt8613 m reg2e d) := by
  refine steady_bind (steady_superioInb _) fun reg25 => ?_
  refine steady_bind (steady_superioInb _) fun reg27 => ?_
  refine steady_bind (steady_superioInb _) fun reg29 => ?_
  refine steady_bind (steady_superioInb _) fun reg2c => ?_
  exact (reads_readBeepPin _).steady

theorem steady_readIt8732 : Steady l l (readIt8732 m reg2e d) := by
  refine steady_bind (steady_superioInb _) fun reg29 => ?_
  refine steady_bind (steady_superioInb _) fun reg27 => ?_
  refine steady_bind (steady_superioInb _) fun reg2c => ?_
  exact (reads_readBeepPin _).steady

theorem reads_readPinx4 : Reads l l (readPinx4 m reg2e d) := by
  refine reads_bind (reads_superioInb (by decide)) fun reg29 => ?_
  refine reads_bind (reads_superioInb (by decide)) fun reg2d => ?_
  exact reads_bind (reads_superioInb (by decide)) fun reg27 => reads_pure _

theorem steady_readIt8655 : Steady l l (readIt8655 m reg2e d) :=
  steady_bind reads_readPinx4.steady fun d => (reads_readBeepPin d).steady

theorem steady_readIt8665 : Steady l l (readIt8665 m reg2e d) := by
  refine steady_bind reads_readPinx4.steady fun d => ?_
  refine steady_bind (steady_superioInb _) fun reg26 => ?_
  refine steady_bind (steady_superioInb _) fun regd3 => ?_
  exact (reads_readBeepPin _).steady

theorem reads_readFiveFans : Reads l l (readFiveFans m reg2e d) := by
  refine reads_ite (reads_pure _) (reads_bind (reads_superioInb (by decide)) fun reg26 => ?_)
  split <;> exact reads_pure _

theorem reads_readVid : Reads l l (readVid m reg2e d) :=
  reads_ite (reads_pure _) (reads_bind (reads_superioInb (by decide)) fun _ => reads_pure _)

theorem not_reroute (x : Bool) (reg : Byte) :
    (x && !(reg ||| It87SioData.bit 1).getLsbD 1) = false := by
  have hbit : (It87SioData.bit 1 : Byte).getLsbD 1 = true := by decide
  rw [BitVec.getLsbD_or, hbit, Bool.or_true, Bool.not_true, Bool.and_false]

theorem bit_two (reg : Byte) : (reg ||| It87SioData.bit 1).getLsbD 2 = reg.getLsbD 2 := by
  have hbit : (It87SioData.bit 1 : Byte).getLsbD 2 = false := by decide
  rw [BitVec.getLsbD_or, hbit, Bool.or_false]

theorem repeats_readIt8783 : Repeats l l (readIt8783 m reg2e d) := by
  refine repeats_bind (reads_superioInb (by decide)) fun reg25 => ?_
  refine repeats_bind (reads_superioInb (by decide)) fun reg27 => ?_
  refine repeats_bind (reads_superioInb (by decide)) fun reg2a => ?_
  refine repeats_reroute (g := fun _ reg => reg27.getLsbD 2 && !reg.getLsbD 1)
    (reads_superioInb (by decide)) (fun _ reg => not_reroute _ reg)
    (fun regef reg reg' => (reads_readBeepPin _).steady) fun regef reg reg' hg => ?_
  simp only [bit_two, not_reroute, hg, if_true, if_false, Bool.false_eq_true]

theorem repeats_readOther : Repeats l l (readOther m reg2e d) := by
  refine repeats_bind reads_readFiveFans fun d => ?_
  refine repeats_bind (reads_superioInb (by decide)) fun reg27 => ?_
  refine repeats_bind (reads_superioInb (by decide)) fun reg29 => ?_
  refine repeats_bind reads_readVid fun d => ?_
  refine repeats_reroute_now
    (g := fun reg => (d.type = .it8720 || d.type = .it8782 && reg.getLsbD 2) && !reg.getLsbD 1)
    (fun reg => not_reroute _ reg) (fun reg reg' => (reads_readBeepPin _).steady)
    fun reg reg' hg => ?_
  simp only [bit_two, not_reroute, hg, if_true, if_false, Bool.false_eq_true]

theorem repeats_readConfig : Repeats l l (readConfig m reg2e d) := by
  unfold readConfig
  split
  · exact (reads_readBeepPin d).steady.repeats
  · exact repeats_readIt8783
  · exact steady_readIt8603.repeats
  · exact steady_readIt8603.repeats
  · exact steady_readIt8620.repeats
  · exact steady_readIt8620.repeats
  · exact steady_readIt8620.repeats
  · exact steady_readIt8613.repeats
  · exact steady_readIt8613.repeats
  · exact steady_readIt8732.repeats
  · exact steady_readIt8655.repeats
  · exact steady_readIt8665.repeats
  · exact repeats_readOther

theorem repeats_pure (a : α) : Repeats l l' (pure a : Kernel α) := fun b hb =>
  ⟨a, b, rfl, ⟨l, hb⟩, rfl, fun _ _ _ => rfl, fun b' hb' _ => ⟨b', rfl, ⟨l', hb'⟩, rfl, rfl⟩⟩

theorem repeats_map {p : Kernel α} (h : Repeats l l' p) (f : α → β) :
    Repeats l l' (p >>= fun a => pure (f a)) := by
  intro b hb
  obtain ⟨x, t, hrun, ht, hheld, hpins, hagain⟩ := h b hb
  refine ⟨f x, t, run_bind_of hrun, ht, hheld, hpins, fun b' hb' hcontents => ?_⟩
  obtain ⟨t', hrun', ht'⟩ := hagain b' hb' hcontents
  exact ⟨t', run_bind_of hrun', ht'⟩

/-- It does not matter what was selected before. -/
theorem repeats_superioSelect {ldn : Byte} {q : Unit → Kernel β}
    (hq : Repeats ldn ldn (q ())) : Repeats l l' (superioSelect reg2e ldn >>= q) := by
  intro b hb
  obtain ⟨t, hrun, ht, hsame, hheld⟩ := consults_superioSelect ldn b hb
  obtain ⟨x, u, hrun', hu, hheld', hpins, hagain⟩ := hq t ht
  rw [hsame] at hpins
  refine ⟨x, u, (run_bind_of hrun).trans hrun', hu, hheld'.trans hheld, hpins, ?_⟩
  intro b' hb' hcontents
  obtain ⟨t', hrunA, htA, hsameA, hheldA⟩ := consults_superioSelect ldn b' hb'
  obtain ⟨u', hrunB, huB, hheldB, hsameB⟩ := hagain t' htA (hsameA.trans hcontents)
  exact ⟨u', (run_bind_of hrunA).trans hrunB, huB, hheldB.trans hheldA, hsameB.trans hsameA⟩

/-- The identification is the same for all devices. -/
theorem word_devid (c : Chip) : c.contents.word l' devid = c.contents.word l devid := rfl

theorem repeats_devid {q : Word → Kernel β} (hq : ∀ id, Repeats l l' (q id)) :
    Repeats l l' (superioInw m reg2e devid >>= q) := by
  intro b hb
  obtain ⟨t, hrun, ht, hsame, hheld⟩ := consults_superioInw (m := m) devid b hb
  obtain ⟨x, u, hrun', hu, hheld', hpins, hagain⟩ := hq (b.chip.contents.word l devid) t ht
  rw [hsame] at hpins
  refine ⟨x, u, (run_bind_of hrun).trans hrun', hu, hheld'.trans hheld, hpins, ?_⟩
  intro b' hb' hcontents
  obtain ⟨t', hrunA, htA, hsameA, hheldA⟩ := consults_superioInw (m := m) devid b' hb'
  have hid : b'.chip.contents.word l' devid = b.chip.contents.word l devid := by
    rw [hcontents, Contents.word, Contents.word, hpins l' devid (by decide),
      hpins l' (devid + 1) (by decide)]
    exact word_devid b.chip
  have hrunA : (superioInw m reg2e devid).run device b' =
      (.ok (b.chip.contents.word l devid), t') := hid ▸ hrunA
  obtain ⟨u', hrunB, huB, hheldB, hsameB⟩ := hagain t' htA (hsameA.trans hcontents)
  exact ⟨u', (run_bind_of hrunA).trans hrunB, huB, hheldB.trans hheldA, hsameB.trans hsameA⟩

theorem repeats_readPins : Repeats l l' (readPins m reg2e d) :=
  repeats_superioSelect repeats_readConfig

theorem repeats_probe (address : Word) : Repeats l l' (probe m reg2e address d) := by
  refine repeats_superioSelect ?_
  refine repeats_bind (reads_superioInb (by decide)) fun act => ?_
  refine repeats_ite (repeats_pure _) ?_
  refine repeats_bind (reads_superioInw (by decide) (by decide)) fun base => ?_
  refine repeats_ite (repeats_pure _) ?_
  refine repeats_bind (reads_superioInb (by decide)) fun rev => ?_
  exact repeats_map repeats_readPins _

theorem repeats_detect (address : Word) : Repeats l l' (detect m reg2e address d) := by
  refine repeats_devid fun id => repeats_ite (repeats_pure _) ?_
  split
  · exact repeats_pure _
  · exact repeats_probe address

/-! ### Searches -/

theorem open_entered (b : Board) : Open b.chip.ldn (Gpio.entered b) :=
  ⟨Chip.wake_mode, Chip.wake_ldn⟩

/-- What the search makes of an open chip is what it returns, and the chip is closed again. -/
theorem run_it87Find {address : Word} {d : It87SioData} {found : ℤ × Word × It87SioData}
    (hg : b.grants (Gpio.reg, 2)) (hopen : ∃ l, Open l t)
    (hrun : (detect m reg2e address d).run device (Gpio.entered b) = (.ok found, t)) :
    ∃ u, (it87Find m reg2e address d).run device b = (.ok found, u) ∧
      u.chip.contents = t.chip.contents ∧ u.held = t.held.erase (Gpio.reg, 2) := by
  obtain ⟨l, hconfig, -⟩ := hopen
  have henter := Gpio.run_superioEnter (b := b)
  rw [if_pos hg] at henter
  have hexit := Gpio.run_superioExit hconfig
  have hfind : (it87Find m reg2e address d).run device b =
      (.ok found, (Gpio.superioExit.run device t).2) := by
    rw [it87Find, superioEnter_2e, superioExit_2e, run_bind_of henter, if_neg (not_not.mpr rfl),
      run_bind_of hrun, run_bind_of hexit, hexit]
    rfl
  refine ⟨_, hfind, ?_, ?_⟩
  · rw [hexit]
    rfl
  · rw [hexit]

/-- Whatever chip there is: a search leaves all registers but those of the pins as they were, and
every later one finds the same and writes nothing, whichever device has been selected meanwhile. -/
theorem it87Find_again (m : ModuleState) (address : Word) (d : It87SioData)
    (hb : b.grants (Gpio.reg, 2)) :
    ∃ found t, (it87Find m reg2e address d).run device b = (.ok found, t) ∧ t.held = b.held ∧
      SamePins b.chip.contents t.chip.contents ∧
      ∀ b', b'.grants (Gpio.reg, 2) → b'.chip.contents = t.chip.contents →
        ∃ t', (it87Find m reg2e address d).run device b' = (.ok found, t') ∧ t'.held = b'.held ∧
          t'.chip.contents = b'.chip.contents := by
  have hentered : ∀ b : Board, (Gpio.entered b).chip.contents = b.chip.contents := fun b =>
    Chip.wake_contents
  have hreleased : ∀ b : Board, (Gpio.entered b).held.erase (Gpio.reg, 2) = b.held := fun b =>
    List.erase_cons_head ..
  have hdetect : ∀ l', Repeats b.chip.ldn l' (detect m reg2e address d) := fun l' =>
    repeats_detect address
  obtain ⟨found, t, hrun, hopen, hheld, hpins, -⟩ := hdetect b.chip.ldn _ (open_entered b)
  obtain ⟨u, hfind, hcontents, hrest⟩ := run_it87Find hb hopen hrun
  rw [hheld, hreleased] at hrest
  rw [← hcontents, hentered] at hpins
  refine ⟨found, u, hfind, hrest, hpins, fun b' hb' hsame => ?_⟩
  obtain ⟨found', t', hrun', -, -, -, hagain⟩ := hdetect b'.chip.ldn _ (open_entered b)
  rw [hrun] at hrun'
  cases hrun'
  obtain ⟨v, hrunV, hopenV, hheldV, hkept⟩ := hagain (Gpio.entered b') (open_entered b')
    ((hentered b').trans (hsame.trans hcontents))
  obtain ⟨v', hfind', hcontents', hrest'⟩ := run_it87Find hb' hopenV hrunV
  rw [hheldV, hreleased] at hrest'
  exact ⟨v', hfind', hrest', hcontents'.trans (hkept.trans (hentered b'))⟩

/-- A chip that has to be rerouted, since it is taken for an IT8720F. -/
theorem it87Find_again_rerouted : ∃ found t,
    (it87Find { Gpio.noParams with forceId := 0x8720 } reg2e 0 Gpio.noData).run device
        (Gpio.it8721Board true) = (.ok found, t) ∧
      t.held = (Gpio.it8721Board true).held ∧
      SamePins (Gpio.it8721Board true).chip.contents t.chip.contents ∧
      ∀ b', b'.grants (Gpio.reg, 2) → b'.chip.contents = t.chip.contents → ∃ t',
        (it87Find { Gpio.noParams with forceId := 0x8720 } reg2e 0 Gpio.noData).run device b' =
          (.ok found, t') ∧ t'.held = b'.held ∧ t'.chip.contents = b'.chip.contents :=
  it87Find_again _ 0 Gpio.noData (by decide)

end BuffaloNas.It87
