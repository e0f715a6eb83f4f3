import BuffaloNas.Fan.Curve
import BuffaloNas.Fan.Tracking
import BuffaloNas.It87.Manual

/-! The fan daemon on the chip itself: from a temperature to the registers of the fans. -/
namespace BuffaloNas.Fan
open Interaction Program Micon It87 It87Chip SuperIo

/-! ### Floats that stay in range -/

/-- The curve stays between its ends, and a pwm in percent fits into a byte. -/
structure FloatOps.Sound (fl : FloatOps) (cfg : Config) : Prop where
  curve : ∀ temp, cfg.minpwm ≤ Fan.curve fl cfg temp ∧ Fan.curve fl cfg temp ≤ cfg.maxpwm
  eightbit : ∀ value, 0 ≤ value → value ≤ 100 →
    0 ≤ sentNumber fl value .hwmon ∧ sentNumber fl value .hwmon ≤ 255

theorem sound_exact {cfg : Config} (hv : cfg.Valid) : FloatOps.exact.Sound cfg :=
  ⟨curve_range hv, fun _ hlow hhigh => sentNumber_range hlow hhigh .hwmon⟩

/-! ### Files -/

def pwmName (i : Fin 6) : String := "pwm" ++ toString (i.val + 1)

def hwmonDir (hwmon : ℕ) : String := "/sys/class/hwmon/hwmon" ++ toString hwmon ++ "/"

def pwmPath (hwmon : ℕ) (i : Fin 6) : String := hwmonDir hwmon ++ pwmName i

/-- The attribute of a channel that a file of the device is. -/
def attributeAt (hwmon : ℕ) (path : String) : Option Attribute :=
  (List.finRange 6).findSome? fun i =>
    if path = pwmPath hwmon i then some (.pwm i)
    else if path = pwmPath hwmon i ++ "_enable" then some (.pwmEnable i)
    else none

/-- `ls /sys/class/hwmon/*/pwm?`, where no other device has such files. -/
def pwmFiles (c : It87Chip) (hwmon : ℕ) : List String :=
  ((List.finRange 6).filter fun i : Fin 6 => c.hasPwm.getLsbD i).map (pwmPath hwmon)

theorem pwmPath_inj {hwmon : ℕ} {i j : Fin 6} : pwmPath hwmon i = pwmPath hwmon j ↔ i = j := by
  have hname : ∀ i j : Fin 6, pwmName i = pwmName j ↔ i = j := by decide
  rw [pwmPath, pwmPath, String.append_right_inj, hname]

theorem pwmPath_ne_enable (hwmon : ℕ) (i j : Fin 6) :
    pwmPath hwmon i ≠ pwmPath hwmon j ++ "_enable" := by
  have hname : ∀ i j : Fin 6, pwmName i ≠ pwmName j ++ "_enable" := by decide
  intro h
  rw [pwmPath, pwmPath, String.append_assoc, String.append_right_inj] at h
  exact hname i j h

theorem findSome_finRange {β : Type} {f : Fin 6 → Option β} {i : Fin 6} {b : β} (h : f i = some b)
    (hother : ∀ j, j ≠ i → f j = none) : (List.finRange 6).findSome? f = some b := by
  obtain ⟨as, bs, hsplit⟩ := List.append_of_mem (List.mem_finRange i)
  have hnodup : (as ++ i :: bs).Nodup := hsplit ▸ List.nodup_finRange 6
  rw [hsplit, List.findSome?_append, List.findSome?_eq_none_iff.mpr, List.findSome?_cons, h]
  · rfl
  · intro j hj
    refine hother j ?_
    rintro rfl
    exact (List.nodup_append.mp hnodup).2.2 j hj j (List.mem_cons_self ..) rfl

theorem attributeAt_pwm (hwmon : ℕ) (i : Fin 6) :
    attributeAt hwmon (pwmPath hwmon i) = some (.pwm i) := by
  refine findSome_finRange (if_pos rfl) fun j hj => ?_
  rw [if_neg fun h => hj (pwmPath_inj.mp h).symm, if_neg (pwmPath_ne_enable hwmon i j)]

theorem attributeAt_enable (hwmon : ℕ) (i : Fin 6) :
    attributeAt hwmon (pwmPath hwmon i ++ "_enable") = some (.pwmEnable i) := by
  refine findSome_finRange (i := i) ?_ fun j hj => ?_
  · rw [if_neg (pwmPath_ne_enable hwmon i i).symm, if_pos rfl]
  · rw [if_neg (pwmPath_ne_enable hwmon j i).symm, if_neg]
    rw [String.append_left_inj]
    exact fun h => hj (pwmPath_inj.mp h).symm

/-! ### The wrapper and the daemon -/

/-- `echo 1 > "$y""_enable"` -/
def echoOne (y : String) : FanIo Unit := perform (FanOp.writeFile (y ++ "_enable") "1\n")

/-- `pwm_search`; `/bin/sh` is bash where there is such a chip, so that `+=` appends. -/
def pwmSearch (pwms : List String) : FanIo String := do
  let (output, _) ← pwms.foldlM (fun (output, fancnt) y => do
    echoOne y
    let output := if fancnt ≠ 0 then output ++ "," else output
    pure (output ++ y, fancnt + 1)) ("", 0)
  return output

/-- `pwms.split(",")` -/
def splitPwms (pwms : String) : List String := (pwms.toList.splitOn ',').map String.ofList

/-- The wrapper, and the daemon up to the end of an iteration. -/
def hwmonFan (fl : FloatOps) (cfg : Config) (pwms : List String) (n : ℕ) : FanIo ℤ := do
  let output ← pwmSearch pwms
  (daemon fl cfg n).interp (fanHandler fl .hwmon (splitPwms output))

/-- What the loop of `pwm_search` makes of its output. -/
def listed (x : String × ℕ) (y : String) : String × ℕ :=
  ((if x.2 ≠ 0 then x.1 ++ "," else x.1) ++ y, x.2 + 1)

theorem pwmSearch_eq (pwms : List String) : pwmSearch pwms =
    (pwms.forM echoOne >>= fun _ => pure (pwms.foldl listed ("", 0)).1) := by
  have h := foldlM_pure (f := echoOne) (g := listed) pwms ("", 0)
  rw [pwmSearch]
  refine (congrArg (fun p => p >>= fun x => pure x.1) h).trans ?_
  rw [bind_assoc]
  rfl

theorem foldl_listed (pwms : List String) (output : String) (n : ℕ) :
    (pwms.foldl listed (output, n + 1)).1.toList =
      output.toList ++ pwms.flatMap fun y => ',' :: y.toList := by
  induction pwms generalizing output n with
  | nil => simp
  | cons y pwms ih =>
    rw [List.foldl_cons, listed, ih]
    simp

/-- The daemon gets the names that the wrapper has listed, if there is one and none has a comma. -/
theorem splitPwms_listed {pwms : List String} (hne : pwms ≠ [])
    (hcomma : ∀ y ∈ pwms, ',' ∉ y.toList) :
    splitPwms (pwms.foldl listed ("", 0)).1 = pwms := by
  have hlisted : (pwms.foldl listed ("", 0)).1.toList =
      [','].intercalate (pwms.map String.toList) := by
    cases pwms with
    | nil => exact absurd rfl hne
    | cons y pwms =>
      rw [List.foldl_cons, listed, foldl_listed]
      clear hne hcomma
      induction pwms generalizing y with
      | nil => simp
      | cons z pwms ih => simp_all
  rw [splitPwms, hlisted, List.splitOn_intercalate ',']
  · simp
  · intro l hl
    obtain ⟨y, hy, rfl⟩ := List.mem_map.mp hl
    exact hcomma y hy
  · simpa using hne

theorem comma_notMem_toString (n : ℕ) : ',' ∉ (toString n).toList := by
  intro h
  have hdigit : (',' : Char).isDigit = true := by
    refine Decimal.isDigit_of_mem (n := n) ?_
    rw [← String.toList_ofList (l := Nat.toDigits 10 n)]
    exact h
  exact absurd hdigit (by decide)

theorem comma_notMem_append {y z : String} (hy : ',' ∉ y.toList) (hz : ',' ∉ z.toList) :
    ',' ∉ (y ++ z).toList := by
  rw [String.toList_append, List.mem_append]
  exact not_or.mpr ⟨hy, hz⟩

theorem comma_notMem (hwmon : ℕ) (i : Fin 6) : ',' ∉ (pwmPath hwmon i).toList := by
  refine comma_notMem_append (comma_notMem_append (comma_notMem_append ?_ ?_) ?_)
    (comma_notMem_append ?_ ?_)
  · simp
  · exact comma_notMem_toString hwmon
  · simp
  · simp
  · exact comma_notMem_toString (i.val + 1)

theorem splitPwms_pwmFiles {c : It87Chip} (hfan : ∃ i : Fin 6, c.hasPwm.getLsbD i = true)
    (hwmon : ℕ) :
    splitPwms ((pwmFiles c hwmon).foldl listed ("", 0)).1 = pwmFiles c hwmon := by
  refine splitPwms_listed ?_ ?_
  · obtain ⟨i, hi⟩ := hfan
    refine List.ne_nil_of_mem (a := pwmPath hwmon i) (List.mem_map_of_mem ?_)
    exact List.mem_filter.mpr ⟨List.mem_finRange i, hi⟩
  · intro y hy
    obtain ⟨i, -, rfl⟩ := List.mem_map.mp hy
    exact comma_notMem hwmon i

/-! ### The machine -/

/-- The chip, the readings of the disks to come, what happens to the chip between two operations,
and whether an operation on a file has failed. -/
structure Machine where
  world : World
  readings : List (Option ℤ)
  between : List (List Event)
  failed : Bool

/-- There is no micon to answer. -/
def noAnswer : (o : Command) → o.Answer
  | .sendPreamble => ()
  | .sendReadCmd _ => none
  | .sendWriteCmd .. => none

namespace Machine

variable (c : It87Chip) (hwmon : ℕ)

def passed (s : Machine) : Machine :=
  { s with world := c.run s.world (s.between.headD []), between := s.between.tail }

def written (path text : String) (s : Machine) : Machine :=
  match attributeAt hwmon path with
  | none => { s with failed := true }
  | some a =>
    { s with
      world := c.step s.world (.stored a text.toList)
      failed := s.failed || !c.accepts s.world a text.toList }

def device : Device FanOp FanOp.Answer PyError Machine
  | .hddtemp, s => (.ok s.readings.head?.join, { s.passed c with readings := s.readings.tail })
  | .sleep _, s => (.ok (), s.passed c)
  | .micon o, s => (.ok (noAnswer o), s)
  | .miconv3 _, s => (.ok (), s)
  | .writeFile path text, s => (.ok (), (s.passed c).written c hwmon path text)

end Machine

/-! ### One operation -/

/-- What holds of the machine at all times. -/
structure Machine.Sane (c : It87Chip) (s : Machine) : Prop where
  aside : ∀ events ∈ s.between, ∀ e ∈ events, e.Aside
  coherent : c.Coherent s.world
  clear : c.Clear s.world.data
  succeeded : s.failed = false

/-- The channel is manual, with these contents of its duty cycle. -/
structure Drives (c : It87Chip) (v : Byte) (i : Fin 6) (s : Machine) : Prop where
  manual : c.Manual i s.world.regs
  duty : s.world.regs (c.dutyReg i) = v

variable {c : It87Chip} {hwmon : ℕ} {s : Machine} {i : Fin 6} {v : Byte}

theorem Drives.same (h : Drives c v i s) {t : Machine}
    (hs : c.SameFan i s.world.regs t.world.regs) : Drives c v i t :=
  ⟨h.manual.same hs, hs.duty.trans h.duty⟩

theorem sane_run {w : World} {events : List Event} (haside : ∀ e ∈ events, e.Aside)
    (hcoherent : c.Coherent w) (hclear : c.Clear w.data) :
    c.Coherent (c.run w events) ∧ c.Clear (c.run w events).data ∧
      ∀ i : Fin 6, c.SameFan i w.regs (c.run w events).regs := by
  induction events generalizing w with
  | nil => exact ⟨hcoherent, hclear, fun i => .refl c i w.regs⟩
  | cons e events ih =>
    have he := haside e (List.mem_cons_self ..)
    obtain ⟨h1, h2, hsame⟩ := ih (fun e he => haside e (List.mem_cons_of_mem _ he))
      (coherent_step e hcoherent) (clear_step hclear e)
    exact ⟨h1, h2, fun i => (sameFan_step he i hcoherent.mainCtrl).trans (hsame i)⟩

theorem sane_passed (h : s.Sane c) :
    (s.passed c).Sane c ∧ ∀ i : Fin 6, c.SameFan i s.world.regs (s.passed c).world.regs := by
  have haside : ∀ e ∈ s.between.headD [], e.Aside := by
    cases hb : s.between with
    | nil => exact nofun
    | cons events more => exact h.aside events (hb ▸ List.mem_cons_self ..)
  obtain ⟨h1, h2, hsame⟩ := sane_run haside h.coherent h.clear
  exact ⟨⟨fun events hmem => h.aside events (List.mem_of_mem_tail hmem), h1, h2, h.succeeded⟩,
    hsame⟩

/-- A store that is accepted does not fail. -/
theorem sane_written (h : s.Sane c) {path text : String} {a : Attribute}
    (hat : attributeAt hwmon path = some a)
    (hacc : c.accepts s.world a text.toList = true) :
    (s.written c hwmon path text).Sane c ∧ (s.written c hwmon path text).readings = s.readings ∧
      (s.written c hwmon path text).world = c.step s.world (.stored a text.toList) := by
  have hworld : s.written c hwmon path text =
      { s with world := c.step s.world (.stored a text.toList) } := by
    rw [Machine.written, hat]
    simp only [h.succeeded, hacc]
    rfl
  rw [hworld]
  exact ⟨⟨h.aside, coherent_step (.stored a text.toList) h.coherent,
    clear_step h.clear (.stored a text.toList), h.succeeded⟩, rfl, rfl⟩

/-- The machine is sane, and these are the readings to come. -/
structure Machine.Kept (c : It87Chip) (readings : List (Option ℤ)) (s : Machine) : Prop where
  sane : s.Sane c
  readings : s.readings = readings

variable {readings : List (Option ℤ)}

theorem run_echoOne (hwmon : ℕ) (h : s.Kept c readings) (hpwm : c.hasPwm.getLsbD i = true) :
    ∃ t, (echoOne (pwmPath hwmon i)).run (Machine.device c hwmon) s = (.ok (), t) ∧
      t.Kept c readings ∧ c.Manual i t.world.regs ∧
      ∀ j : Fin 6, c.Manual j s.world.regs → c.Manual j t.world.regs := by
  obtain ⟨hsane, hsame⟩ := sane_passed h.sane
  obtain ⟨w, hrun, hmanual⟩ := run_enable hpwm hsane.clear
  have hacc : c.accepts (s.passed c).world (.pwmEnable i) "1\n".toList = true := by
    rw [accepts, hrun]
    rfl
  have hstep : c.step (s.passed c).world (.stored (.pwmEnable i) "1\n".toList) = w := by
    rw [step, hrun]
  obtain ⟨hsane', hreadings, hworld⟩ := sane_written hsane (attributeAt_enable hwmon i) hacc
  rw [hstep] at hworld
  refine ⟨_, rfl, ⟨hsane', hreadings.trans h.readings⟩, hworld ▸ hmanual, fun j hj => ?_⟩
  rw [hworld]
  by_cases hji : j = i
  · rw [hji]
    exact hmanual
  · refine (hj.same (hsame j)).same ?_
    have hother : (Attribute.pwmEnable i).channel ≠ some j.val := by
      intro heq
      exact hji (Fin.ext (Option.some.inj heq).symm)
    have hattempt := @sameFan_attempt c _ "1\n".toList _ _ hother hsane.coherent.mainCtrl
    rwa [hrun] at hattempt

/-- The wrapper makes every channel manual. -/
theorem run_pwmSearch (hwmon : ℕ) (h : s.Kept c readings)
    (hfan : ∃ i : Fin 6, c.hasPwm.getLsbD i = true) :
    ∃ output t, (pwmSearch (pwmFiles c hwmon)).run (Machine.device c hwmon) s = (.ok output, t) ∧
      splitPwms output = pwmFiles c hwmon ∧ t.Kept c readings ∧
      ∀ i : Fin 6, c.hasPwm.getLsbD i = true → c.Manual i t.world.regs := by
  let D := fun (y : String) (s : Machine) =>
    ∀ i, y = pwmPath hwmon i → c.Manual i s.world.regs
  have hround : ∀ y ∈ pwmFiles c hwmon, ∀ s : Machine, s.Kept c readings →
      ∃ t, (echoOne y).run (Machine.device c hwmon) s = (.ok (), t) ∧ t.Kept c readings ∧
        D y t ∧ ∀ z, D z s → D z t := by
    intro y hy s hs
    obtain ⟨i, hi, rfl⟩ := List.mem_map.mp hy
    obtain ⟨t, hrun, hkept, hmanual, hothers⟩ :=
      run_echoOne hwmon hs (List.mem_filter.mp hi).2
    refine ⟨t, hrun, hkept, fun j hj => ?_, fun z hz j hj => hothers j (hz j hj)⟩
    obtain rfl := pwmPath_inj.mp hj
    exact hmanual
  obtain ⟨t, hrun, hkept, hall, -⟩ := run_forM_each hround h
  refine ⟨_, t, ?_, splitPwms_pwmFiles hfan hwmon, hkept, fun i hi => ?_⟩
  · rw [pwmSearch_eq, run_bind_of hrun]
    rfl
  · refine hall (pwmPath hwmon i) (List.mem_map_of_mem ?_) i rfl
    exact List.mem_filter.mpr ⟨List.mem_finRange i, hi⟩

/-! ### One pwm -/

theorem kstrtol_toString (c : It87Chip) {n : ℤ} (hrange : 0 ≤ n ∧ n ≤ 255) :
    c.kstrtol (toString n).toList = some n := by
  obtain ⟨k, rfl⟩ := Int.eq_ofNat_of_zero_le hrange.1
  have hbits : k < 2 ^ (c.longBits - 1) := by
    have hk : k < 2 ^ 8 := by omega
    refine hk.trans_le (Nat.pow_le_pow_right (by decide) ?_)
    unfold Platform.longBits
    split <;> decide
  have htext : (toString (k : ℤ)).toList = Nat.toDigits 10 k := String.toList_ofList
  rw [Platform.kstrtol, htext]
  exact Decimal.signed_digits hbits

theorem run_write (hwmon : ℕ) (h : s.Kept c readings) (hpwm : c.hasPwm.getLsbD i = true)
    (hmanual : ∀ i : Fin 6, c.hasPwm.getLsbD i = true → c.Manual i s.world.regs) {n : ℤ}
    (hrange : 0 ≤ n ∧ n ≤ 255) :
    ∃ t, (perform (FanOp.writeFile (pwmPath hwmon i) (toString n)) : FanIo Unit).run
        (Machine.device c hwmon) s = (.ok (), t) ∧
      t.Kept c readings ∧ (∀ i : Fin 6, c.hasPwm.getLsbD i = true → c.Manual i t.world.regs) ∧
      Drives c (c.pwmToReg n) i t ∧ ∀ j v, j ≠ i → Drives c v j s → Drives c v j t := by
  obtain ⟨hsane, hsame⟩ := sane_passed h.sane
  have hval := kstrtol_toString c hrange
  have hi := (hmanual i hpwm).same (hsame i)
  obtain ⟨w, hrun, hregs⟩ := run_store hpwm hi hval hrange
  have hacc : c.accepts (s.passed c).world (.pwm i) (toString n).toList = true := by
    rw [accepts, hrun]
    exact decide_eq_true (Int.natCast_nonneg _)
  have hstep : c.step (s.passed c).world (.stored (.pwm i) (toString n).toList) = w := by
    rw [step, hrun]
  obtain ⟨hsane', hreadings, hworld⟩ := sane_written hsane (attributeAt_pwm hwmon i) hacc
  rw [hstep] at hworld
  have hself : Drives c (c.pwmToReg n) i ((s.passed c).written c hwmon (pwmPath hwmon i)
      (toString n)) := by
    refine ⟨?_, ?_⟩
    · rw [hworld, hregs]
      exact manual_store hi hrange
    · rw [hworld, hregs, Function.update_self]
  have hother : ∀ j : Fin 6, j ≠ i → c.SameFan j s.world.regs w.regs := by
    intro j hj
    have hchannel : (Attribute.pwm i).channel ≠ some j.val := by
      intro heq
      exact hj (Fin.ext (Option.some.inj heq).symm)
    have hattempt := @sameFan_attempt c _ (toString n).toList _ _ hchannel
      hsane.coherent.mainCtrl
    rw [hrun] at hattempt
    exact (hsame j).trans hattempt
  refine ⟨_, rfl, ⟨hsane', hreadings.trans h.readings⟩, fun j hj => ?_, hself, fun j v hj hd => ?_⟩
  · by_cases hji : j = i
    · rw [hji]
      exact hself.manual
    · rw [hworld]
      exact (hmanual j hj).same (hother j hji)
  · refine hd.same ?_
    rw [hworld]
    exact hother j hj

/-- A number reaches every channel. -/
theorem run_writes (hwmon : ℕ) (h : s.Kept c readings)
    (hmanual : ∀ i : Fin 6, c.hasPwm.getLsbD i = true → c.Manual i s.world.regs) {n : ℤ}
    (hrange : 0 ≤ n ∧ n ≤ 255) :
    ∃ t, ((pwmFiles c hwmon).forM fun pwm =>
        (perform (FanOp.writeFile pwm (toString n)) : FanIo Unit)).run (Machine.device c hwmon) s =
          (.ok (), t) ∧
      t.Kept c readings ∧ ∀ i : Fin 6, c.hasPwm.getLsbD i = true →
        Drives c (c.pwmToReg n) i t := by
  let I := fun (s : Machine) => s.Kept c readings ∧
    ∀ i : Fin 6, c.hasPwm.getLsbD i = true → c.Manual i s.world.regs
  let D := fun (y : String) (s : Machine) =>
    ∀ i, y = pwmPath hwmon i → Drives c (c.pwmToReg n) i s
  have hround : ∀ y ∈ pwmFiles c hwmon, ∀ s : Machine, I s →
      ∃ t, (perform (FanOp.writeFile y (toString n)) : FanIo Unit).run (Machine.device c hwmon) s =
        (.ok (), t) ∧ I t ∧ D y t ∧ ∀ z, D z s → D z t := by
    rintro y hy s ⟨hs, hmanual⟩
    obtain ⟨i, hi, rfl⟩ := List.mem_map.mp hy
    obtain ⟨t, hrun, hkept, hmanual', hself, hothers⟩ :=
      run_write hwmon hs (List.mem_filter.mp hi).2 hmanual hrange
    refine ⟨t, hrun, ⟨hkept, hmanual'⟩, fun j hj => ?_, fun z hz j hj => ?_⟩
    · obtain rfl := pwmPath_inj.mp hj
      exact hself
    · by_cases hji : j = i
      · rw [hji]
        exact hself
      · exact hothers j _ hji (hz j hj)
  obtain ⟨t, hrun, hkept, hall, -⟩ := run_forM_each hround ⟨h, hmanual⟩
  refine ⟨t, hrun, hkept.1, fun i hi => ?_⟩
  refine hall (pwmPath hwmon i) (List.mem_map_of_mem ?_) i rfl
  exact List.mem_filter.mpr ⟨List.mem_finRange i, hi⟩

/-! ### The daemon -/

/-- The loop of the daemon sets percentages only. -/
def Percent : DaemonOp → Prop
  | .setMiconPWM value => 0 ≤ value ∧ value ≤ 100
  | _ => True

section

variable {fl : FloatOps} {cfg : Config} (hv : cfg.Valid) (hfl : fl.Sound cfg)
include hv hfl

theorem percent_iteration (pwm : ℤ) : (iteration fl cfg pwm).Only Percent := by
  have hcurve : ∀ temp, Percent (.setMiconPWM (curve fl cfg temp)) := by
    intro temp
    obtain ⟨hlow, hhigh⟩ := hfl.curve temp
    exact ⟨hv.pwm_nonneg.trans hlow, hhigh.trans hv.pwm_le⟩
  refine only_bind ((only_perform _).mpr trivial) fun temp => ?_
  dsimp only
  split
  · exact only_bind ((only_perform _).mpr trivial) fun _ => only_pure _
  · have hend : ∀ pwm : ℤ, (do
        perform (DaemonOp.sleep cfg.interval)
        return pwm : Daemon ℤ).Only Percent := fun pwm =>
      only_bind ((only_perform _).mpr trivial) fun _ => only_pure _
    split
    · exact only_bind ((only_perform _).mpr (hcurve _)) fun _ => hend _
    · exact hend _

theorem percent_daemon (n : ℕ) : (daemon fl cfg n).Only Percent := by
  induction n with
  | zero =>
    have hset : (do
        perform (DaemonOp.setMiconPWM cfg.minpwm)
        return cfg.minpwm : Daemon ℤ).Only Percent :=
      only_bind ((only_perform _).mpr ⟨hv.pwm_nonneg, hv.pwms.trans hv.pwm_le⟩)
        fun _ => only_pure _
    rw [daemon, startup]
    dsimp only
    split
    · exact only_bind (only_raise _) fun _ => hset
    · exact hset
  | succ n ih => exact only_bind ih (percent_iteration hv hfl)

end

/-- The chip is where the daemon's loop takes its fan to be. -/
structure Follows (fl : FloatOps) (c : It87Chip) (s : FanState) (m : Machine) : Prop where
  kept : m.Kept c s.readings
  manual : ∀ i : Fin 6, c.hasPwm.getLsbD i = true → c.Manual i m.world.regs
  duty : ∀ value ∈ s.programmed, ∀ i : Fin 6, c.hasPwm.getLsbD i = true →
    m.world.regs (c.dutyReg i) = c.pwmToReg (sentNumber fl value .hwmon)

variable {fl : FloatOps} {cfg : Config} {f : FanState}

theorem follows_passed (h : Follows fl c f s) : Follows fl c f (s.passed c) := by
  obtain ⟨hsane, hsame⟩ := sane_passed h.kept.sane
  refine ⟨⟨hsane, h.kept.readings⟩, fun i hi => (h.manual i hi).same (hsame i), ?_⟩
  intro value hvalue i hi
  exact (hsame i).duty.trans (h.duty value hvalue i hi)

/-- Each operation of the loop has the same answer on the chip, and takes the chip along. -/
theorem follows_step (hwmon : ℕ) (hfl : fl.Sound cfg) {o : DaemonOp} (ho : Percent o)
    (h : Follows fl c f s) :
    (FanState.device o f).1 =
        (through (fanHandler fl .hwmon (pwmFiles c hwmon)) (Machine.device c hwmon) o s).1 ∧
      Follows fl c (FanState.device o f).2
        (through (fanHandler fl .hwmon (pwmFiles c hwmon)) (Machine.device c hwmon) o s).2 := by
  have hpassed := follows_passed h
  cases o with
  | getHDDtemp =>
    refine ⟨?_, ⟨⟨hpassed.kept.sane.aside, hpassed.kept.sane.coherent, hpassed.kept.sane.clear,
      hpassed.kept.sane.succeeded⟩, ?_⟩, hpassed.manual, hpassed.duty⟩
    · exact congrArg (fun l => Except.ok (List.head? l).join) h.kept.readings.symm
    · exact congrArg List.tail h.kept.readings
  | sleep seconds => exact ⟨rfl, hpassed⟩
  | setMiconPWM value =>
    obtain ⟨t, hrun, hkept, hdrives⟩ :=
      run_writes hwmon h.kept h.manual (hfl.eightbit value ho.1 ho.2)
    have hthrough : through (fanHandler fl .hwmon (pwmFiles c hwmon)) (Machine.device c hwmon)
        (.setMiconPWM value) s = (.ok (), t) := hrun
    rw [hthrough]
    refine ⟨rfl, hkept, fun i hi => (hdrives i hi).manual, ?_⟩
    rintro _ ⟨⟩ i hi
    exact (hdrives i hi).duty

/-- A machine with the chip in any state that the driver can have brought it to. -/
def Machine.after (c : It87Chip) (w : World) (earlier : List Event) (readings : List (Option ℤ))
    (between : List (List Event)) : Machine where
  world := c.run w earlier
  readings := readings
  between := between
  failed := false

/-- From the disks to the chip: after the wrapper and as many iterations as there are readings,
every channel is manual with the duty cycle for the pwm that belongs to the last reading that
counted, and no store has failed. -/
theorem hwmon_follows (hv : cfg.Valid) (hfl : fl.Sound cfg) {w : World} (hprobe : Probed c w)
    (hfan : ∃ i : Fin 6, c.hasPwm.getLsbD i = true) (hwmon : ℕ) (earlier : List Event)
    (between : List (List Event)) (haside : ∀ events ∈ between, ∀ e ∈ events, e.Aside)
    (readings : List (Option ℤ)) :
    ∃ t, (hwmonFan fl cfg (pwmFiles c hwmon) readings.length).run (Machine.device c hwmon)
        (.after c w earlier readings between) = (.ok (remembered fl cfg readings), t) ∧
      t.failed = false ∧ ∀ i : Fin 6, c.hasPwm.getLsbD i = true → c.Manual i t.world.regs ∧
        t.world.regs (c.dutyReg i) =
          c.pwmToReg (sentNumber fl (remembered fl cfg readings) .hwmon) := by
  have hclear : c.Clear (c.run w earlier).data :=
    foldl_history (I := fun _ (t : World) => c.Clear t.data) (clear_probed hprobe)
      (fun _ e _ ht => clear_step ht e) earlier
  have hkept : (Machine.after c w earlier readings between).Kept c readings :=
    ⟨⟨haside, coherent_run hprobe earlier, hclear, rfl⟩, rfl⟩
  obtain ⟨output, s, hsearch, hsplit, hs, hmanual⟩ := run_pwmSearch hwmon hkept hfan
  have hstart : Follows fl c ⟨readings, none⟩ s := ⟨hs, hmanual, nofun⟩
  have hdaemon := run_daemon fl cfg hv readings [] none
  obtain ⟨hans, hend⟩ := (percent_daemon hv hfl readings.length).run_simulates
    (fun o f s ho h => follows_step hwmon hfl ho h) hstart
  rw [List.append_nil] at hdaemon
  rw [hdaemon] at hans hend
  rw [hwmonFan, run_bind_of hsearch, hsplit, run_interp]
  refine ⟨_, Prod.ext hans.symm rfl, hend.kept.sane.succeeded, fun i hi => ?_⟩
  exact ⟨hend.manual i hi, hend.duty _ rfl i hi⟩

/-- An IT8721F, disks of 44 and later 36 degrees, and a program that looks on. -/
theorem hwmon_follows_it8721 :
    let c := Chips.it8721.known []
    ∃ t, (hwmonFan .exact .default (pwmFiles c 2) 3).run (Machine.device c 2)
        (.after c (Chips.it8721.probe []).2 [] [some 44, none, some 36]
          [[], [.shown (.pwm 0)], [.measured (regTemp 0) 0x24]]) = (.ok 52, t) ∧
      t.failed = false ∧ c.Manual 0 t.world.regs ∧
      t.world.regs (c.dutyReg 0) = c.pwmToReg 132 := by
  have hknown : Chips.it8721.isKnown [] = true := by decide +kernel
  have hfirst : (Chips.it8721.known []).hasPwm.getLsbD (0 : Fin 6) = true := by decide +kernel
  have hpwm : remembered .exact .default [some 44, none, some 36] = 52 := by decide +kernel
  have hsent : sentNumber .exact 52 .hwmon = 132 := by decide +kernel
  obtain ⟨t, hrun, hfailed, hdrives⟩ := hwmon_follows Config.valid_default
    (sound_exact Config.valid_default) (Chips.probed hknown) ⟨0, hfirst⟩ 2 []
    [[], [.shown (.pwm 0)], [.measured (regTemp 0) 0x24]] (by
      intro events hevents e he
      rcases List.mem_cons.mp hevents with rfl | hevents
      · cases he
      · rcases List.mem_cons.mp hevents with rfl | hevents
        · rw [List.mem_singleton.mp he]
          trivial
        · rw [List.mem_singleton.mp hevents, List.mem_singleton] at he
          rw [he]
          exact (by decide : ∀ i : Fin 6, regTemp 0 ≠ regPwmDuty i))
    [some 44, none, some 36]
  rw [hpwm, hsent] at hdrives
  rw [hpwm] at hrun
  exact ⟨t, hrun, hfailed, hdrives 0 hfirst⟩

end BuffaloNas.Fan
