import BuffaloNas.Dnv.Registers

/-! What the Denverton pads have of their settings after a sleep. -/
namespace BuffaloNas.Dnv
open Interaction Program

/-! ### Plain registers -/

/-- Every register is plain memory. -/
def plain (beyond : Table → ℕ → ℤ) (stray : ℕ → Option ℕ) : World where
  driven _ := 0
  beyond := beyond
  stray := stray

abbrev Memory := ℕ → Word32

/-- A pad's register; a pad that has none reads 0. -/
def peek (mem : Memory) (reg : RegType) (p : ℕ) : Word32 := ((address? reg p).map mem).getD 0

def poke (mem : Memory) (reg : RegType) (p : ℕ) (val : Word32) : Memory :=
  match address? reg p with
  | some a => Function.update mem a val
  | none => mem

/-- The pad's lock bit is set; only the first `npads` have one. -/
def Locked (mem : Memory) (p : ℕ) : Prop := peek mem .padcfglock p &&& maskOf .padcfglock p ≠ 0

instance (mem : Memory) (p : ℕ) : Decidable (Locked mem p) := inferInstanceAs (Decidable (_ ≠ _))

/-- Some bits of a register replaced by saved ones. -/
def merge (mask saved x : Word32) : Word32 := x &&& ~~~mask ||| saved

variable {beyond : Table → ℕ → ℤ} {stray : ℕ → Option ℕ} {s t : Pads} {mem : Memory}
  {reg reg' : RegType} {p q a : ℕ} {mask saved val x : Word32}

theorem peek_eq (ha : address? reg p = some a) : peek mem reg p = mem a := by
  rw [peek, ha]
  rfl

theorem poke_eq (ha : address? reg p = some a) :
    poke mem reg p val = Function.update mem a val := by
  simp only [poke, ha]

theorem peek_poke_self (ha : (address? reg p).isSome) : peek (poke mem reg p val) reg p = val := by
  obtain ⟨a, ha⟩ := Option.isSome_iff_exists.mp ha
  rw [peek_eq ha, poke_eq ha, Function.update_self]

/-- A write is seen in no other register. -/
theorem peek_poke_of_ne (h : ∀ a b, address? reg p = some a → address? reg' q = some b → b ≠ a) :
    peek (poke mem reg p val) reg' q = peek mem reg' q := by
  cases ha : address? reg p with
  | none => simp only [poke, ha]
  | some a =>
    cases hb : address? reg' q with
    | none => simp only [peek, hb, Option.map_none]
    | some b => rw [peek_eq hb, peek_eq hb, poke_eq ha, Function.update_of_ne (h a b ha hb)]

theorem peek_poke_ne (hr : Config reg) (hne : reg' = reg → q ≠ p) :
    peek (poke mem reg p val) reg' q = peek mem reg' q :=
  peek_poke_of_ne fun _ _ ha hb => address_ne hr hne ha hb

theorem settle_plain :
    s.settle (plain beyond stray) = { s with noise := fun n => s.noise (n + 1) } := by
  have hm : (fun a => s.mem a &&& ~~~0 ||| s.noise 0 a &&& 0) = s.mem := by
    funext a
    change s.mem a &&& BitVec.allOnes 32 ||| s.noise 0 a &&& 0#32 = s.mem a
    rw [BitVec.and_allOnes, BitVec.and_zero, BitVec.or_zero]
  exact congrArg (fun mem => { s with mem, noise := fun n => s.noise (n + 1) }) hm

/-- Putting back bits that are there already changes nothing. -/
theorem merge_self (h : x &&& mask = saved) : merge mask saved x = x := by
  subst h
  rw [merge]
  ext i hi
  cases hm : mask[i] <;> simp [hm]

theorem merge_and (h : saved &&& mask = saved) : merge mask saved x &&& mask = saved := by
  rw [merge, ← h]
  ext i hi
  cases hm : mask[i] <;> simp [hm]

theorem merge_and_not (h : saved &&& mask = saved) :
    merge mask saved x &&& ~~~mask = x &&& ~~~mask := by
  rw [merge, ← h]
  ext i hi
  cases hm : mask[i] <;> simp [hm]

/-! ### One pad -/

/-- A pad is saved if it has a lock bit and that is clear. -/
def Saves (mem : Memory) (p : ℕ) : Prop := p < npads ∧ ¬ Locked mem p

instance (mem : Memory) (p : ℕ) : Decidable (Saves mem p) := inferInstanceAs (Decidable (_ ∧ _))

theorem run_suspendPin (beyond : Table → ℕ → ℤ) (stray : ℕ → Option ℕ) (s : Pads) (p : ℕ) :
    ∃ noise, (suspendPin p).run (Pads.device (plain beyond stray)) s =
      (.ok (), { s with
        noise
        conf0 := if Saves s.mem p then
          Function.update s.conf0 p (peek s.mem .padCfgDw0 p &&& conf0RestoreMask) else s.conf0
        conf1 := if Saves s.mem p then
          Function.update s.conf1 p (peek s.mem .padCfgDw1 p &&& conf1RestoreMask) else s.conf1 }) := by
  rw [suspendPin, run_mask, run_reg]
  by_cases hp : p < npads
  · obtain ⟨l, hl⟩ := exists_of_lt hp .padcfglock
    obtain ⟨a, ha⟩ := exists_of_lt hp .padCfgDw0
    obtain ⟨b, hb⟩ := exists_of_lt hp .padCfgDw1
    have hlock : Locked s.mem p ↔ s.mem l &&& maskOf .padcfglock p ≠ 0 := by
      rw [Locked, peek_eq hl]
    rw [hl, run_ite, if_neg (not_refused (by decide) hp), run_bind, run_readl, andThen_ok,
      settle_plain, run_ite]
    by_cases hk : Locked s.mem p
    · have hs : ¬ Saves s.mem p := fun h => h.2 hk
      rw [if_pos (hlock.mp hk), if_neg hs, if_neg hs]
      exact ⟨_, rfl⟩
    · have hs : Saves s.mem p := ⟨hp, hk⟩
      rw [if_neg (fun h => hk (hlock.mpr h)), if_pos hs, if_pos hs, peek_eq ha, peek_eq hb]
      simp only [run_bind, run_dnvGpioReg, andThen_ok, ha, hb, run_readl, settle_plain]
      exact ⟨_, rfl⟩
  · have hs : ¬ Saves s.mem p := fun h => hp h.1
    rw [run_ite, if_pos (Or.inr (mask_eq_zero _ hp)), if_neg hs, if_neg hs]
    exact ⟨_, rfl⟩

/-- What a register reads once its saved bits are put back. -/
theorem run_restore (beyond : Table → ℕ → ℤ) (stray : ℕ → Option ℕ) (mask : Word32)
    {saved : Mmio Word32} {conf : Word32} (hr : Config reg) (ha : address? reg p = some a)
    (hsaved : ∀ noise, saved.run (Pads.device (plain beyond stray)) { s with noise } =
      (.ok conf, { s with noise })) :
    ∃ noise, (restore mask saved (some a)).run (Pads.device (plain beyond stray)) s =
      (.ok (), { s with noise, mem := poke s.mem reg p (merge mask conf (peek s.mem reg p)) }) := by
  have hsts : reg ≠ .gpiGpeSts := by
    rintro rfl
    exact absurd hr (by decide)
  rw [restore, run_bind, run_readl, andThen_ok, settle_plain, run_bind, hsaved, andThen_ok, run_ite,
    poke_eq ha, peek_eq ha]
  by_cases h : s.mem a &&& mask = conf
  · rw [if_neg (not_not.mpr h), merge_self h, Function.update_eq_self]
    exact ⟨_, rfl⟩
  · rw [if_pos h, run_writel, settle_plain, Pads.store, if_neg (not_status hsts ha)]
    exact ⟨_, rfl⟩

/-- A pad is restored if `reg` is not null by chance, and its lock bit is clear. -/
def Restores (stray : ℕ → Option ℕ) (mem : Memory) (p : ℕ) : Prop :=
  p < npads ∧ stray p ≠ none ∧ ¬ Locked mem p

instance (stray : ℕ → Option ℕ) (mem : Memory) (p : ℕ) : Decidable (Restores stray mem p) :=
  inferInstanceAs (Decidable (_ ∧ _ ∧ _))

/-- The memory once a pad is restored. -/
def restored (s : Pads) (p : ℕ) : Memory :=
  poke (poke s.mem .padCfgDw0 p (merge conf0RestoreMask (s.conf0 p) (peek s.mem .padCfgDw0 p)))
    .padCfgDw1 p (merge conf1RestoreMask (s.conf1 p) (peek s.mem .padCfgDw1 p))

theorem run_resumePin (beyond : Table → ℕ → ℤ) (stray : ℕ → Option ℕ) (s : Pads) (p : ℕ) :
    ∃ noise, (resumePin p).run (Pads.device (plain beyond stray)) s =
      (.ok (), { s with
        noise
        mem := if Restores stray s.mem p then restored s p else s.mem }) := by
  have hstray : ∀ t : Pads, (perform (DnvOp.unassigned p) : Mmio (Option ℕ)).run
      (Pads.device (plain beyond stray)) t = (.ok (stray p), t) := fun t => run_perform _
  rw [resumePin, run_mask, run_bind, hstray, andThen_ok, run_ite]
  by_cases hp : p < npads ∧ stray p ≠ none
  · obtain ⟨hp, hn⟩ := hp
    obtain ⟨l, hl⟩ := exists_of_lt hp .padcfglock
    obtain ⟨a, ha⟩ := exists_of_lt hp .padCfgDw0
    obtain ⟨b, hb⟩ := exists_of_lt hp .padCfgDw1
    have hlock : Locked s.mem p ↔ s.mem l &&& maskOf .padcfglock p ≠ 0 := by
      rw [Locked, peek_eq hl]
    have hmask : maskOf .padcfglock p ≠ 0 := mask_ne_zero (by decide) hp
    rw [if_neg (not_or.mpr ⟨hn, hmask⟩), run_reg, hl, run_bind, run_readl, andThen_ok, settle_plain,
      run_ite]
    by_cases hk : Locked s.mem p
    · have hr : ¬ Restores stray s.mem p := fun h => h.2.2 hk
      rw [if_pos (hlock.mp hk), if_neg hr]
      exact ⟨_, rfl⟩
    · have hr : Restores stray s.mem p := ⟨hp, hn, hk⟩
      rw [if_neg (fun h => hk (hlock.mpr h)), if_pos hr, run_reg, ha, run_bind]
      have h0 : ∀ t : Pads, (perform (DnvOp.savedConf0 p) : Mmio Word32).run
          (Pads.device (plain beyond stray)) t = (.ok (t.conf0 p), t) := fun t => run_perform _
      have h1 : ∀ t : Pads, (perform (DnvOp.savedConf1 p) : Mmio Word32).run
          (Pads.device (plain beyond stray)) t = (.ok (t.conf1 p), t) := fun t => run_perform _
      have hd1 : ∀ val, peek (poke s.mem .padCfgDw0 p val) .padCfgDw1 p = peek s.mem .padCfgDw1 p :=
        fun val => peek_poke_ne (Or.inl rfl) fun h => by cases h
      obtain ⟨noise, hrun⟩ := run_restore beyond stray conf0RestoreMask
        (s := { s with noise := fun n => s.noise (n + 1) }) (Or.inl rfl) ha fun _ => h0 _
      rw [hrun, andThen_ok, run_reg, hb]
      obtain ⟨noise', hrun'⟩ := run_restore beyond stray conf1RestoreMask
        (s := { s with
          noise
          mem := poke s.mem .padCfgDw0 p
            (merge conf0RestoreMask (s.conf0 p) (peek s.mem .padCfgDw0 p)) })
        (Or.inr rfl) hb fun _ => h1 _
      simp only [hd1] at hrun'
      exact ⟨noise', hrun'⟩
  · have hr : ¬ Restores stray s.mem p := fun h => hp ⟨h.1, h.2.1⟩
    have hskip : stray p = none ∨ maskOf .padcfglock p = 0 := by
      by_cases hlt : p < npads
      · exact Or.inl (not_not.mp fun hn => hp ⟨hlt, hn⟩)
      · exact Or.inr (mask_eq_zero _ hlt)
    rw [if_pos hskip, if_neg hr]
    exact ⟨_, rfl⟩

/-! ### The loops -/

/-- What a register of a restored pad reads. -/
theorem peek_restored (hp : p < npads) :
    peek (restored s p) .padCfgDw0 p =
        merge conf0RestoreMask (s.conf0 p) (peek s.mem .padCfgDw0 p) ∧
      peek (restored s p) .padCfgDw1 p =
        merge conf1RestoreMask (s.conf1 p) (peek s.mem .padCfgDw1 p) := by
  constructor
  · rw [restored, peek_poke_ne (Or.inr rfl) fun h => (by cases h),
      peek_poke_self (isSome_of_lt _ p hp)]
  · rw [restored, peek_poke_self (isSome_of_lt _ p hp)]

theorem peek_restored_ne (h : Config reg → q ≠ p) :
    peek (restored s p) reg q = peek s.mem reg q := by
  rw [restored, peek_poke_ne (Or.inr rfl) fun he => h (Or.inr he),
    peek_poke_ne (Or.inl rfl) fun he => h (Or.inl he)]

theorem restores_congr {mem mem' : Memory}
    (h : peek mem' .padcfglock p = peek mem .padcfglock p) :
    Restores stray mem' p ↔ Restores stray mem p := by
  rw [Restores, Restores, Locked, Locked, h]

/-- One more round of a loop that gives what satisfies `C` another value. -/
theorem round {f f' new old : ℕ → Word32} {C : ℕ → Prop} [DecidablePred C] {n : ℕ}
    (h : ∀ p, f p = if p < n ∧ C p then new p else old p) (hnew : C n → f' n = new n)
    (hold : ¬ C n → f' n = f n) (hne : ∀ p, p ≠ n → f' p = f p) (p : ℕ) :
    f' p = if p < n + 1 ∧ C p then new p else old p := by
  by_cases hp : p = n
  · subst hp
    by_cases hc : C p
    · rw [hnew hc, if_pos ⟨Nat.lt_succ_self p, hc⟩]
    · rw [hold hc, h, if_neg fun hn => hc hn.2, if_neg fun hn => hc hn.2]
  · have hlt : p < n + 1 ↔ p < n := by omega
    simp only [hne p hp, h, hlt]

theorem conf_step {conf conf' val : ℕ → Word32} {C : ℕ → Prop} [DecidablePred C] {n : ℕ}
    (h : ∀ p, conf' p = if p < n ∧ C p then val p else conf p) (p : ℕ) :
    (if C n then Function.update conf' n (val n) else conf') p =
      if p < n + 1 ∧ C p then val p else conf p := by
  refine round h (fun hc => ?_) (fun hc => ?_) (fun q hq => ?_) p
  · rw [if_pos hc, Function.update_self]
  · rw [if_neg hc]
  · split
    · exact Function.update_of_ne hq ..
    · rfl

/-- The contexts after the suspension. -/
theorem run_dnvGpioSuspend (beyond : Table → ℕ → ℤ) (stray : ℕ → Option ℕ) (s : Pads) :
    ∃ t, dnvGpioSuspend.run (Pads.device (plain beyond stray)) s = (.ok (), t) ∧ t.mem = s.mem ∧
      (∀ p, t.conf0 p = if Saves s.mem p then peek s.mem .padCfgDw0 p &&& conf0RestoreMask
        else s.conf0 p) ∧
      ∀ p, t.conf1 p = if Saves s.mem p then peek s.mem .padCfgDw1 p &&& conf1RestoreMask
        else s.conf1 p := by
  have hloop := run_forM_range (d := Pads.device (plain beyond stray)) (f := suspendPin) (s := s)
    (n := ngpio) (J := fun n t => t.mem = s.mem ∧
      (∀ p, t.conf0 p = if p < n ∧ Saves s.mem p then
        peek s.mem .padCfgDw0 p &&& conf0RestoreMask else s.conf0 p) ∧
      ∀ p, t.conf1 p = if p < n ∧ Saves s.mem p then
        peek s.mem .padCfgDw1 p &&& conf1RestoreMask else s.conf1 p) ?_ ?_
  · obtain ⟨t, hrun, hmem, h0, h1⟩ := hloop
    have hp : ∀ p, (p < ngpio ∧ Saves s.mem p) ↔ Saves s.mem p :=
      fun p => ⟨fun h => h.2, fun h => ⟨Nat.lt_trans h.1 (by decide), h⟩⟩
    simp only [hp] at h0 h1
    exact ⟨t, hrun, hmem, h0, h1⟩
  · simp
  · rintro i - t ⟨hmem, h0, h1⟩
    obtain ⟨noise, hrun⟩ := run_suspendPin beyond stray t i
    rw [hmem] at hrun
    exact ⟨_, hrun, rfl, conf_step h0, conf_step h1⟩

/-- The registers of the pads after `n` rounds of the resumption. -/
structure Resumed (stray : ℕ → Option ℕ) (s : Pads) (n : ℕ) (t : Pads) : Prop where
  conf0 : t.conf0 = s.conf0
  conf1 : t.conf1 = s.conf1
  dw0 : ∀ p, peek t.mem .padCfgDw0 p = if p < n ∧ Restores stray s.mem p then
    merge conf0RestoreMask (s.conf0 p) (peek s.mem .padCfgDw0 p) else peek s.mem .padCfgDw0 p
  dw1 : ∀ p, peek t.mem .padCfgDw1 p = if p < n ∧ Restores stray s.mem p then
    merge conf1RestoreMask (s.conf1 p) (peek s.mem .padCfgDw1 p) else peek s.mem .padCfgDw1 p
  shared : ∀ reg p, ¬ Config reg → peek t.mem reg p = peek s.mem reg p

theorem resumed_zero : Resumed stray s 0 s := by
  constructor <;> simp

theorem resumed_succ {n : ℕ} {noise : ℕ → ℕ → Word32} (h : Resumed stray s n t) :
    Resumed stray s (n + 1)
      { t with noise, mem := if Restores stray t.mem n then restored t n else t.mem } := by
  have hlock : Restores stray t.mem n ↔ Restores stray s.mem n :=
    restores_congr (h.shared _ _ (by decide))
  simp only [hlock]
  refine ⟨h.conf0, h.conf1, round h.dw0 ?_ ?_ ?_, round h.dw1 ?_ ?_ ?_, ?_⟩
  · intro hr
    rw [if_pos hr, (peek_restored hr.1).1, h.conf0, h.dw0, if_neg fun hn => Nat.lt_irrefl n hn.1]
  · intro hr
    rw [if_neg hr]
  · intro p hp
    split
    · exact peek_restored_ne fun _ => hp
    · rfl
  · intro hr
    rw [if_pos hr, (peek_restored hr.1).2, h.conf1, h.dw1, if_neg fun hn => Nat.lt_irrefl n hn.1]
  · intro hr
    rw [if_neg hr]
  · intro p hp
    split
    · exact peek_restored_ne fun _ => hp
    · rfl
  · intro reg p hc
    split
    · rw [peek_restored_ne fun h => absurd h hc, h.shared reg p hc]
    · exact h.shared reg p hc

/-- The registers after the resumption. -/
theorem run_dnvGpioResume (beyond : Table → ℕ → ℤ) (stray : ℕ → Option ℕ) (s : Pads) :
    ∃ t, dnvGpioResume.run (Pads.device (plain beyond stray)) s = (.ok (), t) ∧
      Resumed stray s ngpio t := by
  refine run_forM_range resumed_zero fun i _ t ht => ?_
  obtain ⟨noise, hrun⟩ := run_resumePin beyond stray t i
  exact ⟨_, hrun, resumed_succ ht⟩

/-! ### Sleeps -/

/-- What the driver has been through: the registers are anything at each call. -/
inductive Sleep
  | suspend (mem : Memory)
  | resume (mem : Memory) (stray : ℕ → Option ℕ)

def Sleep.step (beyond : Table → ℕ → ℤ) (s : Pads) : Sleep → Pads
  | suspend mem =>
    (dnvGpioSuspend.run (Pads.device (plain beyond fun _ => none)) { s with mem }).2
  | resume mem stray => (dnvGpioResume.run (Pads.device (plain beyond stray)) { s with mem }).2

/-- The contexts hold bits of the restore masks only. -/
def Masked (conf0 conf1 : ℕ → Word32) : Prop :=
  ∀ p, conf0 p &&& conf0RestoreMask = conf0 p ∧ conf1 p &&& conf1RestoreMask = conf1 p

theorem and_mask_idem (x m : Word32) : x &&& m &&& m = x &&& m := by
  rw [BitVec.and_assoc, BitVec.and_self]

theorem masked_step (hs : Masked s.conf0 s.conf1) (sleep : Sleep) :
    Masked (sleep.step beyond s).conf0 (sleep.step beyond s).conf1 := by
  intro p
  cases sleep with
  | suspend mem =>
    obtain ⟨t, hrun, -, h0, h1⟩ := run_dnvGpioSuspend beyond (fun _ => none) { s with mem }
    rw [Sleep.step, hrun, h0, h1]
    split
    · exact ⟨and_mask_idem _ _, and_mask_idem _ _⟩
    · exact hs p
  | resume mem stray =>
    obtain ⟨t, hrun, ht⟩ := run_dnvGpioResume beyond stray { s with mem }
    rw [Sleep.step, hrun, ht.conf0, ht.conf1]
    exact hs p

theorem masked_run (hs : Masked s.conf0 s.conf1) (sleeps : List Sleep) :
    Masked (sleeps.foldl (Sleep.step beyond) s).conf0
      (sleeps.foldl (Sleep.step beyond) s).conf1 := by
  induction sleeps generalizing s with
  | nil => exact hs
  | cons sleep sleeps ih => exact ih (masked_step hs sleep)

/-- The registers of the pads at suspend, at resume and after it. -/
structure RoundTrip (mem mem' mem'' : Memory) : Prop where
  unlocked : ∀ p < ngpio, (address? .padCfgDw0 p).isSome → ¬ Locked mem' p →
    peek mem'' .padCfgDw0 p &&& conf0RestoreMask = peek mem .padCfgDw0 p &&& conf0RestoreMask ∧
      peek mem'' .padCfgDw1 p &&& conf1RestoreMask = peek mem .padCfgDw1 p &&& conf1RestoreMask
  others : ∀ p < ngpio,
    peek mem'' .padCfgDw0 p &&& ~~~conf0RestoreMask =
        peek mem' .padCfgDw0 p &&& ~~~conf0RestoreMask ∧
      peek mem'' .padCfgDw1 p &&& ~~~conf1RestoreMask =
        peek mem' .padCfgDw1 p &&& ~~~conf1RestoreMask
  locked : ∀ p < ngpio, Locked mem' p →
    peek mem'' .padCfgDw0 p = peek mem' .padCfgDw0 p ∧
      peek mem'' .padCfgDw1 p = peek mem' .padCfgDw1 p

/-- The bits of a pad at `mem` are those that `conf0` and `conf1` say. -/
def Holds (mem : Memory) (p : ℕ) (conf0 conf1 : Word32) : Prop :=
  conf0 = peek mem .padCfgDw0 p &&& conf0RestoreMask ∧
    conf1 = peek mem .padCfgDw1 p &&& conf1RestoreMask

/-- The resumption takes the pad up, and its context is from the suspension or as good; or it
passes the pad over, and its bits are what they were. -/
def Carried (s : Pads) (stray : ℕ → Option ℕ) (mem mem' : Memory) (p : ℕ) : Prop :=
  if p < npads ∧ stray p ≠ none then ¬ Locked mem p ∨ Holds mem p (s.conf0 p) (s.conf1 p)
  else Holds mem p (peek mem' .padCfgDw0 p &&& conf0RestoreMask)
    (peek mem' .padCfgDw1 p &&& conf1RestoreMask)

/-- The registers after a suspension at `mem` and a resumption at `mem'`. -/
def slept (beyond : Table → ℕ → ℤ) (stray : ℕ → Option ℕ) (s : Pads) (mem mem' : Memory) : Memory :=
  ((Sleep.resume mem' stray).step beyond ((Sleep.suspend mem).step beyond s)).mem

section Slept
variable (beyond : Table → ℕ → ℤ) (stray : ℕ → Option ℕ) (s : Pads) (mem mem' : Memory)

/-- The contexts are those of the suspension for the pads that it saves. -/
theorem slept_spec (hs : Masked s.conf0 s.conf1) :
    ∃ conf0 conf1 : ℕ → Word32, Masked conf0 conf1 ∧
      (∀ p, conf0 p = if Saves mem p then peek mem .padCfgDw0 p &&& conf0RestoreMask
        else s.conf0 p) ∧
      (∀ p, conf1 p = if Saves mem p then peek mem .padCfgDw1 p &&& conf1RestoreMask
        else s.conf1 p) ∧
      ∀ p < ngpio, peek (slept beyond stray s mem mem') .padCfgDw0 p =
          (if Restores stray mem' p then
            merge conf0RestoreMask (conf0 p) (peek mem' .padCfgDw0 p)
          else peek mem' .padCfgDw0 p) ∧
        peek (slept beyond stray s mem mem') .padCfgDw1 p =
          if Restores stray mem' p then
            merge conf1RestoreMask (conf1 p) (peek mem' .padCfgDw1 p)
          else peek mem' .padCfgDw1 p := by
  obtain ⟨t, hsus, hmem, h0, h1⟩ := run_dnvGpioSuspend beyond (fun _ => none) { s with mem }
  obtain ⟨u, hres, hu⟩ := run_dnvGpioResume beyond stray { t with mem := mem' }
  have hslept : slept beyond stray s mem mem' = u.mem := by
    simp only [slept, Sleep.step, hsus, hres]
  have hmasked : Masked t.conf0 t.conf1 := by
    have hm : Masked ((Sleep.suspend mem).step beyond s).conf0
        ((Sleep.suspend mem).step beyond s).conf1 := masked_step hs (.suspend mem)
    rwa [Sleep.step, hsus] at hm
  refine ⟨t.conf0, t.conf1, hmasked, h0, h1, fun p hp => ?_⟩
  rw [hslept, hu.dw0, hu.dw1]
  simp only [hp, true_and, and_self]

end Slept

/-- After any sleeps, exactly when the round trip holds. -/
theorem roundTrip_iff (beyond : Table → ℕ → ℤ) (irqType : ℕ → Word32) (noise : ℕ → ℕ → Word32)
    (sleeps : List Sleep) (mem mem' : Memory) (stray : ℕ → Option ℕ) :
    let s := sleeps.foldl (Sleep.step beyond)
      { mem, noise, irqType, conf0 := fun _ => 0, conf1 := fun _ => 0 }
    RoundTrip mem mem' (slept beyond stray s mem mem') ↔
      ∀ p < ngpio, (address? .padCfgDw0 p).isSome → ¬ Locked mem' p →
        Carried s stray mem mem' p := by
  intro s
  have hs : Masked s.conf0 s.conf1 := by
    refine masked_run (fun p => ?_) sleeps
    exact ⟨BitVec.zero_and .., BitVec.zero_and ..⟩
  obtain ⟨conf0, conf1, hmasked, h0, h1, hslept⟩ := slept_spec beyond stray s mem mem' hs
  have hcarried : ∀ p < ngpio, ¬ Locked mem' p →
      (Holds mem p (peek (slept beyond stray s mem mem') .padCfgDw0 p &&& conf0RestoreMask)
        (peek (slept beyond stray s mem mem') .padCfgDw1 p &&& conf1RestoreMask) ↔
          Carried s stray mem mem' p) := by
    intro p hp hunlocked
    obtain ⟨e0, e1⟩ := hslept p hp
    by_cases hc : p < npads ∧ stray p ≠ none
    · have hr : Restores stray mem' p := ⟨hc.1, hc.2, hunlocked⟩
      rw [e0, e1, if_pos hr, if_pos hr, merge_and (hmasked p).1, merge_and (hmasked p).2, h0, h1,
        Carried, if_pos hc]
      by_cases hl : Locked mem p
      · have hn : ¬ Saves mem p := fun h => h.2 hl
        rw [if_neg hn, if_neg hn]
        exact ⟨Or.inr, fun h => h.resolve_left (not_not.mpr hl)⟩
      · have hsaves : Saves mem p := ⟨hc.1, hl⟩
        rw [if_pos hsaves, if_pos hsaves]
        exact ⟨fun _ => Or.inl hl, fun _ => ⟨rfl, rfl⟩⟩
    · have hr : ¬ Restores stray mem' p := fun h => hc ⟨h.1, h.2.1⟩
      rw [e0, e1, if_neg hr, if_neg hr, Carried, if_neg hc]
  constructor
  · intro h p hp hvalid hunlocked
    exact (hcarried p hp hunlocked).mp (h.unlocked p hp hvalid hunlocked)
  · intro h
    refine ⟨fun p hp hvalid hl => (hcarried p hp hl).mpr (h p hp hvalid hl), fun p hp => ?_,
      fun p hp hl => ?_⟩
    · obtain ⟨e0, e1⟩ := hslept p hp
      rw [e0, e1]
      split
      · exact ⟨merge_and_not (hmasked p).1, merge_and_not (hmasked p).2⟩
      · exact ⟨rfl, rfl⟩
    · have hr : ¬ Restores stray mem' p := fun h => h.2.2 hl
      obtain ⟨e0, e1⟩ := hslept p hp
      rw [e0, e1, if_neg hr, if_neg hr]
      exact ⟨rfl, rfl⟩

/-- The driver before its first sleep. -/
def awake : Pads where
  mem _ := 0
  noise _ _ := 0
  irqType _ := 0
  conf0 _ := 0
  conf1 _ := 0

/-- Every register holds a 1 in its lowest bit, the output level of the pads; if `lock`, pad 0 is
locked. -/
def highPads (lock : Bool) : Memory := fun a => if lock ∧ a = 0x90 then bit 27 else level

/-- Pad 0 loses its level: it was locked at the suspension, or `reg` happens to be null. -/
theorem not_roundTrip_highPads :
    ¬ RoundTrip (highPads true) (highPads false)
        (slept (fun _ _ => 0) (fun _ => some 0) awake (highPads true) (highPads false)) ∧
      ¬ RoundTrip (highPads false) (fun _ => 0)
        (slept (fun _ _ => 0) (fun _ => none) awake (highPads false) fun _ => 0) := by
  constructor
  · intro h
    have h0 := (h.unlocked 0 (by decide) (by decide) (by decide)).1
    revert h0
    decide +kernel
  · intro h
    have h0 := (h.unlocked 0 (by decide) (by decide) (by decide)).1
    revert h0
    decide +kernel

end BuffaloNas.Dnv
