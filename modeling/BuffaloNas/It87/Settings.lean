import BuffaloNas.It87.Stores

/-! The limits, divisors, beeps and frequencies of a chip: their registers, and their copies in the
cache. -/
namespace BuffaloNas.It87
open Interaction Program SuperIo World

/-- A setting of the chip that the driver keeps a copy of. -/
inductive Setting
  | inMin (i : Fin 8) | inMax (i : Fin 8)
  | tempMin (i : Fin 6) | tempMax (i : Fin 6) | tempOffset (i : Fin 6)
  | fanMin (i : Fin 6) | fanDiv (i : Fin 6)
  | beeps
  /-- The frequency of the fans, and the second one that some chips have. -/
  | freq | freq2
  deriving DecidableEq

namespace Setting

def all : List Setting :=
  (List.finRange 8).flatMap (fun i => [inMin i, inMax i]) ++
  (List.finRange 6).flatMap (fun i => [tempMin i, tempMax i, tempOffset i, fanMin i, fanDiv i]) ++
  [beeps, freq, freq2]

theorem mem_all (x : Setting) : x ∈ all := by
  cases x <;> simp [all]

/-- The copy in the cache. -/
def cached (d : It87Data) : Setting → Word
  | inMin i => (d.ins i 1).setWidth 16
  | inMax i => (d.ins i 2).setWidth 16
  | tempMin i => (d.temp i 1).setWidth 16
  | tempMax i => (d.temp i 2).setWidth 16
  | tempOffset i => (d.temp i 3).setWidth 16
  | fanMin i => d.fan i 1
  | fanDiv i => (d.fanDiv i).setWidth 16
  | beeps => d.beeps.setWidth 16
  | freq => (d.fanCtl >>> 4 &&& 0x07).setWidth 16
  | freq2 => (d.extra >>> 4 &&& 0x07).setWidth 16

/-- The registers a setting is in. -/
def regs (t : Tables) : Setting → List Word
  | inMin i => [regVinMin i]
  | inMax i => [regVinMax i]
  | tempMin i => [entry t.tempLow i]
  | tempMax i => [entry t.tempHigh i]
  | tempOffset i => [entry t.tempOffset i]
  | fanMin i => [entry t.fanMin i, entry t.fanxMin i]
  | fanDiv _ => [regFanDiv]
  | beeps => [regBeepEnable]
  | freq => [regFanCtl]
  | freq2 => [regTempExtra]

end Setting

namespace It87Chip

variable (c : It87Chip)

/-- What the registers say of a setting. -/
def settingOf (regs : Word → Byte) : Setting → Word
  | .inMin i => (regs (regVinMin i)).setWidth 16
  | .inMax i => (regs (regVinMax i)).setWidth 16
  | .tempMin i => (regs (c.regTempLow i)).setWidth 16
  | .tempMax i => (regs (c.regTempHigh i)).setWidth 16
  | .tempOffset i => (regs (c.regTempOffset i)).setWidth 16
  | .fanMin i =>
    let low := (regs (c.regFanMin i)).setWidth 16
    if c.has .fans16bit then low ||| (regs (c.regFanxMin i)).setWidth 16 <<< 8 else low
  | .fanDiv i => (fanDivOf (regs regFanDiv) i).setWidth 16
  | .beeps => (regs regBeepEnable).setWidth 16
  | .freq => (regs regFanCtl >>> 4 &&& 0x07).setWidth 16
  | .freq2 => (regs regTempExtra >>> 4 &&& 0x07).setWidth 16

/-- The settings that a refresh reads. -/
def reads : Setting → Bool
  | .inMin i | .inMax i => c.hasIn.getLsbD i
  | .tempMin i | .tempMax i => c.hasTemp.getLsbD i && i.val < c.numTempLimit
  | .tempOffset i => c.hasTemp.getLsbD i && i.val < c.numTempLimit && c.has .tempOffset
  | .fanMin i => c.hasFan.getLsbD i
  | .fanDiv i => c.hasFan &&& 0x07 ≠ 0 && !c.has .fans16bit && i.val < 3
  | .beeps | .freq | .freq2 => true

/-- A setting as a refresh would find it. -/
def setting (w : World) (x : Setting) : Word :=
  if c.reads x then c.settingOf w.regs x else x.cached w.data

/-- While the cache is valid, its copies are those of the registers. -/
def Mirrored (w : World) : Prop := w.data.valid = true → ∀ x, x.cached w.data = c.setting w x

variable {c} {w : World} {x : Setting}

theorem setting_of_reads (h : c.reads x = true) : c.setting w x = c.settingOf w.regs x := if_pos h

theorem Mirrored.cached (h : c.Mirrored w) (hv : w.data.valid = true) (hread : c.reads x = true) :
    x.cached w.data = c.settingOf w.regs x := (h hv x).trans (setting_of_reads hread)

theorem settingOf_congr {regs regs' : Word → Byte}
    (h : ∀ reg ∈ x.regs c.type.tables, regs' reg = regs reg) :
    c.settingOf regs' x = c.settingOf regs x := by
  cases x <;>
    simp_all [Setting.regs, settingOf, regTempLow, regTempHigh, regTempOffset, regFanMin,
      regFanxMin]

theorem cached_refreshed (c : It87Chip) (regs : Word → Byte) (now : ℕ) (d : It87Data)
    (x : Setting) :
    x.cached (c.refreshed regs now d) = if c.reads x then c.settingOf regs x else x.cached d := by
  cases x
  case inMin i =>
    have hi : i.val < 13 := by omega
    by_cases h : c.hasIn.getLsbD i = true <;>
      simp [Setting.cached, refreshed, rows_of_lt hi, inRow, reads, settingOf, h]
  case inMax i =>
    have hi : i.val < 13 := by omega
    by_cases h : c.hasIn.getLsbD i = true <;>
      simp [Setting.cached, refreshed, rows_of_lt hi, inRow, reads, settingOf, h]
  case tempMin i =>
    by_cases h : c.hasTemp.getLsbD i = true <;> by_cases hl : i.val < c.numTempLimit <;>
      simp [Setting.cached, refreshed, rows_of_lt i.isLt, tempRow, reads, settingOf, h, hl]
  case tempMax i =>
    by_cases h : c.hasTemp.getLsbD i = true <;> by_cases hl : i.val < c.numTempLimit <;>
      simp [Setting.cached, refreshed, rows_of_lt i.isLt, tempRow, reads, settingOf, h, hl]
  case tempOffset i =>
    by_cases h : c.hasTemp.getLsbD i = true <;> by_cases hl : i.val < c.numTempLimit <;>
      cases ho : c.has .tempOffset <;>
      simp [Setting.cached, refreshed, rows_of_lt i.isLt, tempRow, reads, settingOf, h, hl, ho]
  case fanMin i =>
    by_cases h : c.hasFan.getLsbD i = true <;>
      simp [Setting.cached, refreshed, rows_of_lt i.isLt, fanRow, reads, settingOf, h]
  case fanDiv i =>
    by_cases h0 : c.hasFan &&& 7#8 = 0#8 <;> cases h16 : c.has .fans16bit <;>
      by_cases hi : i.val < 3 <;>
      simp [Setting.cached, refreshed, reads, settingOf, h0, h16, hi]
  all_goals rfl

theorem setting_congr {t : World} (hregs : ∀ reg ∈ x.regs c.type.tables, t.regs reg = w.regs reg)
    (hdata : x.cached t.data = x.cached w.data) : c.setting t x = c.setting w x := by
  rw [setting, setting, settingOf_congr hregs, hdata]

end It87Chip

/-! ### Whose registers they are -/

/-- The settings that share a register with what is stored in an attribute, or the divisors. -/
def Attribute.sets : Attribute → List Setting
  | .inMin i => [.inMin i]
  | .inMax i => [.inMax i]
  | .inBeep _ | .tempBeep _ | .fanBeep _ => [.beeps]
  | .tempMin i => [.tempMin i]
  | .tempMax i => [.tempMax i]
  | .tempOffset i => [.tempOffset i, .beeps]
  | .tempType _ => [.freq2]
  | .fanMin i => [.fanMin i]
  | .fanDiv i => .fanMin (i.castAdd 3) :: (List.finRange 6).map .fanDiv
  | .pwmFreq _ => [.freq, .freq2]
  | _ => []

/-- The registers of a setting are written for the attributes that set it, but for `FAN_CTL`, which
holds the frequency beside the switches of the fans. -/
structure Tables.SettingsApart (t : Tables) : Prop where
  stores : ∀ a ∈ Attribute.all, ∀ x ∈ Setting.all, x ∉ a.sets →
    (x = .freq → ∀ i, a ≠ .pwmEnable i) → apart (x.regs t) (t.targets a)
  config : ∀ x ∈ Setting.all, apart [regConfig] (x.regs t)
  measured : ∀ x ∈ Setting.all, ∀ newer, apart (x.regs t) (t.inputs newer)
  words : ∀ i : Fin 6, entry t.fanMin i ≠ entry t.fanxMin i

theorem Chips.settingsApart (type : Chips) : type.tables.SettingsApart := by
  refine type.forall_tables ?_ ?_ ?_ ?_
  all_goals constructor <;> decide +kernel

namespace It87Chip

variable {c : It87Chip} {w : World} {x : Setting} {a : Attribute} {buf : List Char} {nr : ℕ}

theorem notMem_regs_config : regConfig ∉ x.regs c.type.tables :=
  notMem_of_apart (c.type.settingsApart.config x x.mem_all)

theorem notMem_regs_inputs {reg : Word} (h : reg ∈ x.regs c.type.tables) : reg ∉ c.inputs := by
  intro hi
  exact apart_iff.mp (c.type.settingsApart.measured x x.mem_all _) reg h (c.inputs_subset hi)

/-! ### Looking and measuring -/

theorem valid_updated (h : c.stale (w.clock 0) w.data = false) : w.data.valid = true := by
  rw [stale, Bool.or_eq_false_iff, Bool.not_eq_false'] at h
  exact h.2

theorem setting_updated : c.setting (c.updated w) x = c.setting w x := by
  have hregs : ∀ reg ∈ x.regs c.type.tables, (c.updated w).regs reg = w.regs reg := by
    rintro reg hr
    refine regs_updated ?_
    rintro rfl
    exact notMem_regs_config hr
  rw [setting, setting, settingOf_congr hregs]
  cases hread : c.reads x
  · simp only [Bool.false_eq_true, if_false]
    unfold updated
    split
    · simp only [cached_refreshed, hread, data_vbat, data_ticked, Bool.false_eq_true, if_false]
    · rfl
  · rfl

/-- After a look the copy is what the registers hold. -/
theorem cached_updated (h : c.Mirrored w) : x.cached (c.updated w).data = c.setting w x := by
  unfold updated
  split
  case isTrue =>
    have hregs : ∀ reg ∈ x.regs c.type.tables, (c.vbat w.ticked).regs reg = w.regs reg := by
      rintro reg hr
      refine regs_vbat ?_ w.ticked
      rintro rfl
      exact notMem_regs_config hr
    rw [cached_refreshed, settingOf_congr hregs, data_vbat, data_ticked]
    rfl
  case isFalse hs =>
    exact h (valid_updated (Bool.eq_false_iff.mpr hs)) x

theorem mirrored_updated (h : c.Mirrored w) : c.Mirrored (c.updated w) := fun _ x => by
  rw [cached_updated h, setting_updated]

theorem setting_measured (r : Word) (v : Byte) :
    c.setting (c.step w (.measured r v)) x = c.setting w x := by
  refine setting_congr (fun reg hr => regs_measured (notMem_regs_inputs hr) r v) ?_
  simp only [step]
  split <;> rfl

theorem mirrored_measured (h : c.Mirrored w) (r : Word) (v : Byte) :
    c.Mirrored (c.step w (.measured r v)) := by
  have hdata : (c.step w (.measured r v)).data = w.data := by
    simp only [step]
    split <;> rfl
  intro hv x
  rw [setting_measured, hdata]
  exact h (hdata ▸ hv) x

end It87Chip

end BuffaloNas.It87
