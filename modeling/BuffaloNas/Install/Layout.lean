import BuffaloNas.Install.Table
import BuffaloNas.Memory.Regions

/-! The layout that the installer computes from its input files, and its flashing commands. -/
namespace BuffaloNas.Install
open Memory

/-! ### The input files -/

/-- A file that is missing is `none`. -/
structure Images where
  kernel : Option Bytes
  kernelDt : Option Bytes
  rescueDt : Option Bytes
  rescueRootfs : Option Bytes

/-- `file_len` as a word: nothing is printed for a missing file. -/
def fileLenWord (file : Option Bytes) : List ℕ := (file.map List.length).toList

/-- `file_len` in arithmetic, where an empty value counts as 0. -/
def fileLen (file : Option Bytes) : ℕ := (file.map List.length).getD 0

def checksumFile (file : Option Bytes) : ℕ := (file.map checksumPy).getD 0

def roundUp (value : ℕ) : ℕ := (value + eraseSz - 1) / eraseSz * eraseSz

/-! ### The layout -/

def akernelSize : ℕ := 1010368
def akernelChk : ℕ := 0x04556C26

def akernelPad : ℕ := roundUp akernelSize

namespace Images
variable (i : Images)

def rescueDtOffset (_ : Images) : ℕ := 0x00C40000
def kernelDtOffset : ℕ := i.rescueDtOffset + roundUp (fileLen i.rescueDt)
def akernelOffset : ℕ := i.kernelDtOffset + roundUp (fileLen i.kernelDt)
def kernelOffset : ℕ := i.akernelOffset + akernelPad
def rescueRootfsOffset : ℕ := i.kernelOffset + roundUp (fileLen i.kernel)

end Images

def kernelLoadaddr : ℕ := 0x03000000
def rootfsLoadaddr : ℕ := 0x02200000
def fdtLoadaddr : ℕ := 0x01FF2000
def audioLoadaddr : ℕ := 0x01B00000

/-! ### The table -/

/-- `fw_desc_entry type 1 0 target offset size pad chk` for a file. -/
def fileDescEntry (type target offset : ℕ) (file : Option Bytes) : Bytes :=
  fwDescEntry ([type, 1, 0, target, offset] ++ fileLenWord file ++
    [roundUp (fileLen file), checksumFile file])

/-- `fw_desc.bin` -/
def Images.fwDesc (i : Images) : Bytes :=
  fileDescEntry 2 kernelLoadaddr i.kernelOffset i.kernel ++
    fileDescEntry 3 fdtLoadaddr i.rescueDtOffset i.rescueDt ++
    fileDescEntry 4 fdtLoadaddr i.kernelDtOffset i.kernelDt ++
    fileDescEntry 5 rootfsLoadaddr i.rescueRootfsOffset i.rescueRootfs ++
    fwDescEntry [7, 1, 0, audioLoadaddr, i.akernelOffset, akernelSize, akernelPad, akernelChk]

/-- `part_list.bin` -/
def partList : Bytes :=
  partDescEntry 1 1 fwPartLen 5 0 [] ++ partDescEntry 2 0 rootPartLen 1 5 ['/']

/-- `fw_table.bin` -/
def Images.fwtbl (i : Images) : Bytes := fwTable partList i.fwDesc

def fwtblOffset : ℕ := 0x00480000

/-! ### The flashing step -/

inductive FlashCmd
  | flashErase (offset count : ℕ)
  | nandwrite (offset : ℕ) (file : Option Bytes)

/-- A `flash_erase` of the padded region and a `nandwrite` of the file. -/
def flashFile (offset pad : ℕ) (file : Option Bytes) : List FlashCmd :=
  [.flashErase offset (pad / eraseSz), .nandwrite offset file]

def Images.install (i : Images) : List FlashCmd :=
  flashFile fwtblOffset (roundUp i.fwtbl.length) (some i.fwtbl) ++
    flashFile i.rescueDtOffset (roundUp (fileLen i.rescueDt)) i.rescueDt ++
    flashFile i.kernelDtOffset (roundUp (fileLen i.kernelDt)) i.kernelDt ++
    flashFile i.kernelOffset (roundUp (fileLen i.kernel)) i.kernel ++
    flashFile i.rescueRootfsOffset (roundUp (fileLen i.rescueRootfs)) i.rescueRootfs

/-! ### Sizes -/

theorem roundUp_eq (value : ℕ) : roundUp value = ceilTo eraseSz value := rfl

theorem eraseSz_pos : 0 < eraseSz := by decide

/-- The erase count covers the padded size exactly. -/
theorem roundUp_div_mul (value : ℕ) : roundUp value / eraseSz * eraseSz = roundUp value :=
  Nat.div_mul_cancel (dvd_ceilTo eraseSz value)

theorem roundUp_eq_zero {value : ℕ} : roundUp value = 0 ↔ value = 0 := by
  constructor
  · intro h
    have := le_ceilTo eraseSz_pos value
    rw [← roundUp_eq] at this
    omega
  · rintro rfl
    exact ceilTo_zero eraseSz_pos

theorem length_partList : partList.length = 96 := by
  simp [partList, partDescEntry, uchar_eq, le64_eq, fwPartLen, rootPartLen, echoN, isEchoOption,
    ascii, headC]

theorem length_fwDescEntry {args : List ℕ} (ht : args.getD 0 0 < 256)
    (hr : args.getD 1 0 * 0x80 < 256) : (fwDescEntry args).length = 32 := by
  simp only [fwDescEntry, uchar_eq ht, uchar_eq hr, List.length_append, List.length_cons,
    List.length_nil, length_le32]

theorem length_fwDesc (i : Images) : i.fwDesc.length = 160 := by
  have h : ∀ type target offset file, type < 256 →
      (fileDescEntry type target offset file).length = 32 :=
    fun _ _ _ _ ht => length_fwDescEntry (by simpa using ht) (by simp)
  rw [Images.fwDesc]
  simp only [List.length_append, h _ _ _ _ (show 2 < 256 by decide),
    h _ _ _ _ (show 3 < 256 by decide), h _ _ _ _ (show 4 < 256 by decide),
    h _ _ _ _ (show 5 < 256 by decide)]
  rw [length_fwDescEntry (by simp) (by simp)]

/-- The table takes one erase block whatever the files are. -/
theorem length_fwtbl (i : Images) : i.fwtbl.length = 288 := by
  rw [Images.fwtbl, length_fwTable, length_partList, length_fwDesc]

end BuffaloNas.Install
