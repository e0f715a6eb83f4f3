import BuffaloNas.Nearest
import BuffaloNas.It87.Saturation
import BuffaloNas.It87.Stores
import BuffaloNas.It87.Started

/-! The frequency of the fan control: which one a request selects, and what is shown of it. -/
namespace BuffaloNas.It87
open Interaction Program SuperIo World

namespace It87Chip

variable {c : It87Chip} {w : World} {nr i v : ℕ} {buf : List Char}

/-! ### The nearest frequency -/

/-- A base frequency of the table. -/
def baseFreq (i : ℕ) : ℕ := pwmFreq.getD i 0

/-- The base frequency that a request is for. -/
def wanted (c : It87Chip) (v : ℕ) : ℕ := min v 1000000 * c.freqScale

theorem freqIndex_eq_search (v : ℕ) : c.freqIndex v = Nearest.search baseFreq 7 (c.wanted v) := rfl

theorem baseFreq_antitone (i j : ℕ) (hij : i ≤ j) (hj : j ≤ 7) : baseFreq j ≤ baseFreq i := by
  interval_cases j <;> interval_cases i <;> decide

theorem freqIndex_lt (v : ℕ) : c.freqIndex v < 8 := by
  rw [freqIndex_eq_search]
  exact Nat.lt_succ_of_le (Nearest.search_spec ..).1

theorem freqIndex_nearest (v : ℕ) {j : ℕ} (hj : j < 8) :
    |(baseFreq (c.freqIndex v) : ℤ) - c.wanted v| ≤ |(baseFreq j : ℤ) - c.wanted v| := by
  rw [freqIndex_eq_search]
  exact Nearest.search_nearest baseFreq_antitone (Nat.le_of_lt_succ hj)

/-- The frequency that is shown for an index. -/
def shownFreq (c : It87Chip) (i : ℕ) : ℕ := baseFreq i / c.freqScale

/-- What is rounded off for showing moves no frequency past the middle to the next. -/
theorem freqIndex_shownFreq (hi : i < 8) : c.freqIndex (c.shownFreq i) = i := by
  rw [freqIndex_eq_search, wanted, shownFreq, freqScale]
  split
  · interval_cases i <;> rfl
  · interval_cases i <;> rfl

theorem shownFreq_lt (i : ℕ) (hi : i < 8) : c.shownFreq i < 1000000 := by
  rw [shownFreq, freqScale]
  split <;> interval_cases i <;> decide

/-! ### The register of the selection -/

/-- The register that selects the frequency of a channel. -/
def freqReg (nr : ℕ) : Word := if nr = 0 then regFanCtl else regTempExtra

/-- The register with another selection. -/
def select (reg : Byte) (i : ℕ) : Byte := reg &&& 0x8f ||| BitVec.ofNat 8 i <<< 4

theorem selected_select (reg : Byte) (hi : i < 8) :
    ((select reg i >>> 4) &&& 0x07).toNat = i := by
  have hsel : (select reg i >>> 4) &&& 0x07 = BitVec.ofNat 8 i := by
    unfold select
    interval_cases i <;> ext n hn <;> interval_cases n <;> simp
  rw [hsel, BitVec.toNat_ofNat, Nat.mod_eq_of_lt (by omega)]

/-- No bits but those of the selection change. -/
theorem getLsbD_select (reg : Byte) (hi : i < 8) {b : ℕ} (hb : b < 4 ∨ 6 < b) :
    (select reg i).getLsbD b = reg.getLsbD b := by
  by_cases hlt : b < 8
  · unfold select
    have hcases : b = 0 ∨ b = 1 ∨ b = 2 ∨ b = 3 ∨ b = 7 := by omega
    interval_cases i <;> rcases hcases with rfl | rfl | rfl | rfl | rfl <;> simp
  · rw [BitVec.getLsbD_of_ge _ _ (by omega), BitVec.getLsbD_of_ge _ _ (by omega)]

/-- The frequency that the register selects. -/
def selectedFreq (regs : Word → Byte) (nr : ℕ) : ℕ := ((regs (freqReg nr) >>> 4) &&& 0x07).toNat

/-- After a frequency has been stored. -/
def tuned (w : World) (nr i : ℕ) : World :=
  let reg := select (w.regs (freqReg nr)) i
  (w.assign fun d => if nr = 0 then { d with fanCtl := reg } else { d with extra := reg }).write
    (freqReg nr) reg

theorem run_setPwmFreq (w : World) (nr : ℕ) (hv : c.kstrtoul buf = some v) :
    (c.setPwmFreq nr buf).run device w = (.ok (buf.length : ℤ), tuned w nr (c.freqIndex v)) := by
  unfold tuned freqReg select
  by_cases hnr : nr = 0 <;> simp [setPwmFreq, hv, hnr]

theorem selectedFreq_tuned (w : World) (nr : ℕ) (hi : i < 8) :
    selectedFreq (tuned w nr i).regs nr = i := by
  have hreg : (tuned w nr i).regs (freqReg nr) = select (w.regs (freqReg nr)) i :=
    Function.update_self ..
  rw [selectedFreq, hreg]
  exact selected_select _ hi

/-- The field of the cache from which the frequency is shown. -/
def cachedFreq (c : It87Chip) (d : It87Data) (nr : ℕ) : Byte :=
  if c.has .pwmFreq2 ∧ nr = 1 then d.extra else d.fanCtl

theorem run_showPwmFreq (nr : ℕ) (w : World) :
    (c.showPwmFreq nr).run device w =
      (.ok (line (c.shownFreq ((c.cachedFreq (c.updated w).data nr >>> 4) &&& 0x07).toNat)),
        c.updated w) := by
  rw [showPwmFreq, run_showing, cachedFreq, shownFreq, freqScale]
  split <;> rfl

/-- The frequency of a channel is writable where the channel has a selection. -/
theorem channel_of_writable {ch : Fin 6} (hm : c.mode (.pwmFreq ch) = .writable) :
    ch.val = 0 ∨ ch.val = 1 ∧ c.has .pwmFreq2 = true := by
  unfold mode shownIf at hm
  grind

/-- A frequency that has just been stored is shown, whether the cache is refreshed or not. -/
theorem cachedFreq_tuned {ch : Fin 6} (hm : c.mode (.pwmFreq ch) = .writable) :
    c.cachedFreq (c.updated (tuned w ch i)).data ch = (tuned w ch i).regs (freqReg ch) := by
  have hkeep : ∀ x : World, (c.vbat x).regs (freqReg ch) = x.regs (freqReg ch) := fun x => by
    refine regs_vbat ?_ x
    unfold freqReg
    split <;> decide
  have hread : ∀ (regs : Word → Byte) now d,
      c.cachedFreq (c.refreshed regs now d) ch = regs (freqReg ch) := by
    intro regs now d
    rcases channel_of_writable hm with hch | ⟨hch, hfreq2⟩
    · rw [cachedFreq, if_neg (by omega), hch]
      rfl
    · rw [cachedFreq, if_pos ⟨hfreq2, hch⟩, hch]
      rfl
  unfold updated
  split
  · exact (hread _ _ _).trans (hkeep _)
  · rcases channel_of_writable hm with hch | ⟨hch, hfreq2⟩
    · rw [cachedFreq, if_neg (by omega), hch]
      simp [tuned, freqReg]
    · rw [cachedFreq, if_pos ⟨hfreq2, hch⟩, hch]
      simp [tuned, freqReg]

/-- A request selects the nearest frequency in the bits that are there for it, and what is shown of
the selection selects it again. -/
theorem pwmFreq_stored {ch : Fin 6} (hm : c.mode (.pwmFreq ch) = .writable)
    (hv : c.kstrtoul buf = some v) (w : World) :
    ∃ t, (c.attempt (.pwmFreq ch) buf).run device w = (.ok (buf.length : ℤ), t) ∧
      (∀ j, j < 8 → |(baseFreq (selectedFreq t.regs ch) : ℤ) - c.wanted v| ≤
        |(baseFreq j : ℤ) - c.wanted v|) ∧
      (∀ r, r ≠ freqReg ch → t.regs r = w.regs r) ∧
      (∀ b, b < 4 ∨ 6 < b →
        (t.regs (freqReg ch)).getLsbD b = (w.regs (freqReg ch)).getLsbD b) ∧
      ∃ text u t', (c.look (.pwmFreq ch)).run device t = (.ok text, u) ∧
        (c.attempt (.pwmFreq ch) text).run device u = (.ok (text.length : ℤ), t') ∧
        selectedFreq t'.regs ch = selectedFreq t.regs ch := by
  have hstore : c.storeOf (.pwmFreq ch) = some (c.setPwmFreq ch) := by
    have hch := channel_of_writable hm
    rw [storeOf, if_pos (by omega)]
  have hi := c.freqIndex_lt v
  have hsel := selectedFreq_tuned w ch hi
  refine ⟨tuned w ch (c.freqIndex v), ?_, ?_, ?_, ?_, ?_⟩
  · rw [c.attempt_eq hm hstore]
    exact run_setPwmFreq w ch hv
  · intro j hj
    rw [hsel]
    exact freqIndex_nearest v hj
  · exact fun r hr => Function.update_of_ne hr ..
  · intro b hb
    have hreg : (tuned w ch (c.freqIndex v)).regs (freqReg ch) =
        select (w.regs (freqReg ch)) (c.freqIndex v) := Function.update_self ..
    rw [hreg]
    exact getLsbD_select _ hi hb
  · have hmode : c.mode (.pwmFreq ch) ≠ .hidden := by simp [hm]
    have hshow := c.run_showPwmFreq ch (tuned w ch (c.freqIndex v))
    rw [cachedFreq_tuned hm] at hshow
    have hindex : ((tuned w ch (c.freqIndex v)).regs (freqReg ch) >>> 4 &&& 0x07).toNat =
      c.freqIndex v := hsel
    rw [hindex] at hshow
    have hlt := shownFreq_lt (c := c) (c.freqIndex v) hi
    have htop := c.longTop_cases
    have hread : c.kstrtoul (line (c.shownFreq (c.freqIndex v))) =
        some (c.shownFreq (c.freqIndex v)) := kstrtoul_line (by omega)
    have hagain := selectedFreq_tuned (c.updated (tuned w ch (c.freqIndex v))) ch hi
    refine ⟨line (c.shownFreq (c.freqIndex v)), c.updated (tuned w ch (c.freqIndex v)),
      tuned (c.updated (tuned w ch (c.freqIndex v))) ch (c.freqIndex v), ?_, ?_, ?_⟩
    · rw [look, if_neg hmode]
      exact hshow
    · have hrun := run_setPwmFreq (c.updated (tuned w ch (c.freqIndex v))) ch hread
      rw [freqIndex_shownFreq hi] at hrun
      rw [c.attempt_eq hm hstore]
      exact hrun
    · rw [hagain, hsel]

/-- An IT8721F, whose second channel has a selection of its own, is asked for 25 kHz. -/
theorem pwmFreq_stored_second :
    ∃ t, ((Chips.it8721.known []).attempt (.pwmFreq 1) "25000\n".toList).run device
          (Chips.it8721.probe []).2 = (.ok ("25000\n".toList.length : ℤ), t) ∧
      (∀ j, j < 8 →
        |(baseFreq (selectedFreq t.regs (1 : Fin 6)) : ℤ) - (Chips.it8721.known []).wanted 25000| ≤
          |(baseFreq j : ℤ) - (Chips.it8721.known []).wanted 25000|) ∧
      (∀ r, r ≠ freqReg (1 : Fin 6) → t.regs r = (Chips.it8721.probe []).2.regs r) ∧
      (∀ b, b < 4 ∨ 6 < b → (t.regs (freqReg (1 : Fin 6))).getLsbD b =
        ((Chips.it8721.probe []).2.regs (freqReg (1 : Fin 6))).getLsbD b) ∧
      ∃ text u t', ((Chips.it8721.known []).look (.pwmFreq 1)).run device t = (.ok text, u) ∧
        ((Chips.it8721.known []).attempt (.pwmFreq 1) text).run device u =
          (.ok (text.length : ℤ), t') ∧
        selectedFreq t'.regs (1 : Fin 6) = selectedFreq t.regs (1 : Fin 6) :=
  pwmFreq_stored (by decide +kernel) (by decide +kernel) _

end It87Chip

end BuffaloNas.It87
