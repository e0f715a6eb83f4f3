import BuffaloNas.It87.Sessions

/-! Two drivers take turns on one chip: when does the GPIO driver find its device selected? -/
namespace BuffaloNas.Gpio
open Interaction Program SuperIo Board It87

variable {c : It87Gpio} {b : Board} {m : ModuleState}

/-! ### After the initialisation -/

/-- The GPIO driver has registered its chip, and nobody has selected another device since. -/
structure Started (c : It87Gpio) (b : Board) : Prop where
  tabled : c.Tabled
  within : c.ioBase.toNat + c.ioSize.toNat ≤ 0x10000
  between : Between c Gpio.gpio b

theorem always_true {α : Type} (p : Kernel α) : p.Always device (fun _ _ => True) b :=
  always_of_forall (fun _ _ => trivial) p

/-- Any outcome that a run has. -/
theorem keeps_outcome {α : Type} {p : Kernel α} {Q : Except Empty α → Board → Prop}
    (h : Q (p.run device b).1 (p.run device b).2) : p.Keeps device (fun _ _ => True) b Q :=
  ⟨always_true p, h⟩

theorem keeps_error {e : ℤ} :
    (pure (.error e) : Kernel (Except ℤ It87Gpio)).Keeps device (fun _ _ => True) b fun r t =>
      ∀ c, r = .ok (.ok c) → Started c t :=
  keeps_pure fun c h => by cases h

theorem Started.judged (h : Started c b) : Started c b.judged :=
  ⟨h.tabled, h.within, h.between.ldn, h.between.held⟩

theorem keeps_addLines (h : Started c b) :
    (addLines c).Keeps device (fun _ _ => True) b fun r t =>
      ∀ c', r = .ok (.ok c') → Started c' t := by
  refine keeps_bind_run (always_true _) (run_perform _) ?_
  refine keeps_bind_run (always_true _) (run_perform _) ?_
  refine keeps_ite (fun _ => ?_) fun _ => ?_
  · exact keeps_bind_run (always_true _) (run_perform _) keeps_error
  refine keeps_bind_run (always_true _) (run_perform _) ?_
  refine keeps_ite (fun _ => ?_) fun _ => ?_
  · exact keeps_bind_run (always_true _) (run_perform _) keeps_error
  refine keeps_pure fun c' hc' => ?_
  cases hc'
  exact h.judged.judged.judged

theorem keeps_enter :
    superioEnter.Keeps device (fun _ _ => True) b fun rc t =>
      rc = .ok 0 → t.chip.mode = .config := by
  apply keeps_outcome
  rw [run_superioEnter]
  split
  · exact fun _ => Chip.wake_mode
  · intro h
    cases h

/-- Reading the base address selects the GPIO device, and nobody selects another one. -/
theorem keeps_readBase {gpioBaReg : Byte} (h : b.chip.mode = .config) :
    (readBase gpioBaReg).Keeps device (fun _ _ => True) b fun _ t => t.chip.ldn = gpio := by
  apply keeps_outcome
  rw [readBase, run_bind, run_superioSelect h, andThen_ok]
  generalize hs : ({ b with chip := { b.chip with index := ldnreg, ldn := gpio } } : Board) = s
  have hm : s.chip.mode = .config := by rw [← hs]; exact h
  have hl : s.chip.ldn = gpio := by rw [← hs]
  rw [run_bind, run_superioInw hm, andThen_ok, run_bind,
    run_superioExit (b := pointed s (gpioBaReg + 1)) hm, andThen_ok]
  exact hl

/-- A region that is granted is held, whole, and changes nothing on the chip. -/
theorem keeps_requestRegion {ioBase : Word} (hc : c.Tabled) (hb : b.chip.ldn = gpio) :
    (perform (KernelOp.requestRegion ioBase c.ioSize.toNat) : Kernel Bool).Keeps device
      (fun _ _ => True) b fun granted t => granted = .ok true → Started { c with ioBase } t := by
  apply keeps_outcome
  simp only [run_perform, device, request]
  split
  · rename_i hg
    intro _
    have ht : It87Gpio.Tabled { c with ioBase } :=
      ⟨hc.simple, hc.output, hc.groups, hc.ports, hc.size_ne⟩
    exact ⟨ht, within_of_grants hg, hb, List.mem_cons_self ..⟩
  · intro h
    cases h

theorem keeps_addChip {gpioBaReg : Byte} (hc : c.Tabled) :
    (addChip gpioBaReg c).Keeps device (fun _ _ => True) b fun r t =>
      ∀ c', r = .ok (.ok c') → Started c' t := by
  refine keeps_bind_total keeps_enter ?_
  intro rc t ht
  refine keeps_ite (fun _ => keeps_error) fun h0 => ?_
  obtain rfl := not_not.mp h0
  refine keeps_bind_total (keeps_readBase (ht rfl)) ?_
  intro ioBase u hu
  refine keeps_bind_total (keeps_requestRegion (c := c) hc hu) ?_
  intro granted v hv
  refine keeps_ite (fun _ => keeps_error) fun hg => ?_
  obtain rfl : granted = true := by simpa using hg
  exact keeps_addLines (hv rfl)

theorem keeps_it87GpioInit :
    it87GpioInit.Keeps device (fun _ _ => True) b fun r t =>
      ∀ c, r = .ok (.ok c) → Started c t := by
  refine keeps_bind_total (keeps_outcome (Q := fun _ _ => True) trivial) ?_
  intro rc t _
  refine keeps_ite (fun _ => keeps_error) fun h0 => ?_
  refine keeps_bind_total (keeps_outcome (Q := fun _ _ => True) trivial) ?_
  intro chipType u _
  refine keeps_bind_total (keeps_outcome (Q := fun _ _ => True) trivial) ?_
  intro chipRev v _
  refine keeps_bind_total (keeps_outcome (Q := fun _ _ => True) trivial) ?_
  intro _ w _
  rcases hs : supported chipType with _ | ⟨gpioBaReg, it87Gpio⟩
  · exact keeps_error
  · exact keeps_addChip (tabled_of_supported hs)

/-- A chip that the initialisation has registered. -/
theorem started_of_init {b' : Board} (h : it87GpioInit.run device b = (.ok (.ok c), b')) :
    Started c b' := by
  have hk := (keeps_it87GpioInit (b := b)).2
  rw [h] at hk
  exact hk c rfl

/-! ### Runs of both drivers -/

/-- The addresses that `it87_find` is called for. -/
def sioaddr : Fin 2 → Word
  | 0 => reg2e
  | 1 => reg4e

/-- What takes the chip for itself, one after the other and in any order. -/
inductive Session (c : It87Gpio)
  | request (gpioNum : Fin c.ngpio)
  | directionIn (gpioNum : Fin c.ngpio)
  | directionOut (gpioNum : Fin c.ngpio) (value : Bool)
  | find (i : Fin 2) (address : Word) (sioData : It87SioData)

namespace Session

variable (m : ModuleState)

def program : Session c → Kernel ℤ
  | request gpioNum => it87GpioRequest c gpioNum
  | directionIn gpioNum => it87GpioDirectionIn c gpioNum
  | directionOut gpioNum value => it87GpioDirectionOut c gpioNum value
  | find i address sioData => (·.1) <$> it87Find m (sioaddr i) address sioData

/-- A search of the chip that gets past its identification finds the environment controller
activated at an address, and is not told to look for an IT8705F. -/
def Completes : Session c → Board → Prop
  | find 0 _ _, b =>
    b.grants (reg, 2) → ∀ type, typeOf m b.chip.contents = some type →
      Ready b.chip.contents ∧ type ≠ .it87
  | _, _ => True

end Session

open Session

theorem leftSelected_eq_gpio_iff {k : Contents} :
    leftSelected m k = gpio ↔ ∀ type, typeOf m k = some type → Ready k ∧ type ≠ .it87 := by
  rcases ht : typeOf m k with _ | type
  · simp [leftSelected_none ht]
  · rw [leftSelected_some ht]
    by_cases hr : Ready k
    · by_cases hi : type = .it87 <;> simp [hr, hi, pinsLdn, gpio, It87.gpio]
    · simp [hr, pme, gpio]

theorem keeps_session (hs : Started c b) (s : Session c) (h : s.Completes m b) :
    (s.program m).Keeps device (Selected c) b fun _ t => Started c t := by
  suffices hk : (s.program m).Keeps device (Selected c) b fun _ t => Between c gpio t from
    ⟨hk.1, hs.tabled, hs.within, hk.2⟩
  cases s with
  | request gpioNum => exact maintains_request hs.tabled gpioNum.isLt b hs.between
  | directionIn gpioNum => exact maintains_directionIn hs.tabled gpioNum.isLt b hs.between
  | directionOut gpioNum value =>
    exact maintains_directionOut hs.tabled gpioNum.isLt hs.within value b hs.between
  | find i address sioData =>
    match i with
    | 0 =>
      have hk := keeps_it87Find_2e (m := m) hs.tabled hs.between address sioData
      have hl : (if b.grants (reg, 2) then leftSelected m b.chip.contents else gpio) = gpio := by
        split
        · rename_i hg
          exact leftSelected_eq_gpio_iff.mpr (h hg)
        · rfl
      rw [hl] at hk
      exact keeps_map _ hk
    | 1 => exact keeps_map _ (maintains_it87Find_4e hs.tabled address sioData b hs.between)

/-- Where every search completes, the GPIO driver always finds its device selected. -/
theorem selected_of_completes (m : ModuleState) {b b' : Board}
    (hinit : it87GpioInit.run device b = (.ok (.ok c), b')) (ss : List (Session c))
    (h : Before device (program m) (Completes m) ss b') :
    AlwaysAll device (Selected c) (ss.map (program m)) b' :=
  alwaysAll_of_before (I := Started c) (fun s _ hs hc => keeps_session hs s hc)
    (started_of_init hinit) h

/-- The line operations need the GPIO device as soon as they get in. -/
theorem ldn_of_always_request {gpioNum : ℕ} (hc : c.Tabled) (hn : gpioNum < c.ngpio)
    (hg : b.grants (reg, 2)) (h : (it87GpioRequest c gpioNum).Always device (Selected c) b) :
    b.chip.ldn = gpio := by
  refine ldn_of_always_locked (fun t hm ht => ?_) hg h
  rw [always_ite] at ht
  split at ht
  · rename_i hs
    exact ldn_of_always_change (owns_simple hs) hm ((always_bind ..).mp ht).1
  · exact ldn_of_always_change (owns_output hc hn) hm ht

/-- The sessions of the GPIO driver. -/
def Session.OnLine : Session c → Prop
  | find .. => False
  | _ => True

theorem ldn_of_always_session (hc : c.Tabled) (s : Session c) (hl : s.OnLine)
    (hg : b.grants (reg, 2)) (h : (s.program m).Always device (Selected c) b) :
    b.chip.ldn = gpio := by
  cases s with
  | request gpioNum => exact ldn_of_always_request hc gpioNum.isLt hg h
  | directionIn gpioNum =>
    exact ldn_of_always_locked
      (fun t hm ht => ldn_of_always_change (owns_output hc gpioNum.isLt) hm ht) hg h
  | directionOut gpioNum value =>
    refine ldn_of_always_locked (fun t hm ht => ?_) hg h
    exact ldn_of_always_change (owns_output hc gpioNum.isLt) hm ((always_bind ..).mp ht).1
  | find i address sioData => exact hl.elim

/-- A search that does not complete strays from the GPIO device: the next line operation that
gets in has the wrong one. -/
theorem not_selected_of_strayed (hs : Started c b) {address : Word} {sioData : It87SioData}
    (hn : ¬ (find 0 address sioData : Session c).Completes m b) {s : Session c} (hl : s.OnLine)
    (hg : ((program m (find 0 address sioData : Session c)).run device b).2.grants (reg, 2)) :
    ¬ AlwaysAll device (Selected c) ([find 0 address sioData, s].map (program m)) b := by
  rintro ⟨-, h, -⟩
  have hk := keeps_map (·.1) (keeps_it87Find_2e (m := m) hs.tabled hs.between address sioData)
  have hldn := hk.2.ldn.symm.trans (ldn_of_always_session hs.tabled s hl hg h)
  obtain ⟨hgrant, hleft⟩ := Classical.not_imp.mp hn
  rw [if_pos hgrant] at hldn
  exact hleft (leftSelected_eq_gpio_iff.mp hldn)

/-! ### Two boards -/

/-- An IT8721F with its lines at 0x0a00 and an environment controller, activated or not, at
0x0a30. -/
def it8721Board (active : Bool) : Board where
  chip :=
    { mode := .sleeping
      index := 0
      ldn := 0
      global := fun r => if r = 0x20 then 0x87 else if r = 0x21 then 0x21 else 0
      device := fun l r =>
        if l = gpio ∧ r = 0x62 then 0x0a
        else if l = pme ∧ r = 0x30 then if active then 1 else 0
        else if l = pme ∧ r = 0x60 then 0x0a
        else if l = pme ∧ r = 0x61 then 0x30
        else 0 }
  held := []
  verdicts := fun _ => 0
  inputs := fun _ => 0

def it8721Lines : It87Gpio where
  ngpio := 64
  ioBase := 0x0a00
  ioSize := 8
  outputBase := 0xc8
  simpleBase := 0xc0
  simpleSize := 5

/-- The board once the GPIO driver is loaded. -/
def it8721Started (active : Bool) : Board := (it87GpioInit.run device (it8721Board active)).2

theorem rc_it8721Board (active : Bool) :
    (it87GpioInit.run device (it8721Board active)).1 = .ok (.ok it8721Lines) := by
  cases active <;> decide +kernel

theorem init_it8721Board (active : Bool) :
    it87GpioInit.run device (it8721Board active) =
      (.ok (.ok it8721Lines), it8721Started active) := by
  rw [← rc_it8721Board active, it8721Started, Prod.eta]

/-- The data of `it87_find` before the search. -/
def noData : It87SioData where
  type := .it87
  revision := 0
  vidValue := 0
  beepPin := 0
  internal := 0
  skipIn := 0
  skipVid := false
  skipFan := 0
  skipPwm := 0
  skipTemp := 0

def noParams : ModuleState where
  forceId := 0
  sio4eBroken := false

theorem typeOf_it8721Started (active : Bool) :
    typeOf noParams (it8721Started active).chip.contents = some .it8721 := by
  cases active <;> decide +kernel

/-- A search that completes, and a line requested and driven after it. -/
def searchThenDrive : List (Session it8721Lines) :=
  [.find 0 0 noData, .request ⟨0, by decide⟩, .directionOut ⟨0, by decide⟩ true]

theorem selected_it8721 :
    AlwaysAll device (Selected it8721Lines) (searchThenDrive.map (program noParams))
      (it8721Started true) := by
  refine selected_of_completes noParams (init_it8721Board true) searchThenDrive
    ⟨?_, trivial, trivial, trivial⟩
  rintro - type ht
  obtain rfl := Option.some.inj ((typeOf_it8721Started true).symm.trans ht)
  decide +kernel

/-- A controller that is not activated: the search stops with its device selected, and the next
request clears a bit there. -/
theorem not_selected_inactive :
    ¬ ∀ (m : ModuleState) (b b' : Board) (c : It87Gpio),
      it87GpioInit.run device b = (.ok (.ok c), b') →
        ∀ ss : List (Session c), AlwaysAll device (Selected c) (ss.map (program m)) b' := by
  intro h
  have hi := init_it8721Board false
  have hn : ¬ (find 0 0 noData : Session it8721Lines).Completes noParams (it8721Started false) :=
    fun hc => absurd (hc (by decide +kernel) .it8721 (typeOf_it8721Started false)).1
      (by decide +kernel)
  have hl : (request ⟨0, by decide⟩ : Session it8721Lines).OnLine := trivial
  exact not_selected_of_strayed (started_of_init hi) hn hl (by decide +kernel) (h _ _ _ _ hi _)

end BuffaloNas.Gpio
