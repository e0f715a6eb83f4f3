import BuffaloNas.Install.Layout

/-! The NAND under the flashing commands, and when they stay inside the firmware partition. -/
namespace BuffaloNas.Install
open Memory

/-! ### The device -/

/-- A NAND without bad blocks; its pages divide the erase blocks. -/
structure Nand where
  size : ℕ
  page : ℕ
  page_pos : 0 < page
  page_dvd : page ∣ eraseSz
  byte : ℕ → UInt8

/-- `flash_erase` with count 0 erases up to the end of the device. -/
def Erased (size offset count b : ℕ) : Prop :=
  offset ≤ b ∧ b < size ∧ (count = 0 ∨ b < offset + count * eraseSz)

instance (size offset count b : ℕ) : Decidable (Erased size offset count b) :=
  inferInstanceAs (Decidable (_ ∧ _ ∧ _))

/-- `nandwrite -p` writes whole pages. -/
def Written (size page offset len b : ℕ) : Prop :=
  offset ≤ b ∧ b < size ∧ b < offset + ceilTo page len

instance (size page offset len b : ℕ) : Decidable (Written size page offset len b) :=
  inferInstanceAs (Decidable (_ ∧ _ ∧ _))

/-- The bytes that a command erases or writes. -/
def Nand.Touches (n : Nand) : FlashCmd → ℕ → Prop
  | .flashErase offset count, b => Erased n.size offset count b
  | .nandwrite _ none, _ => False
  | .nandwrite offset (some file), b => Written n.size n.page offset file.length b

def Nand.exec (n : Nand) : FlashCmd → Nand
  | .flashErase offset count =>
    { n with byte := fun b => if Erased n.size offset count b then 0xFF else n.byte b }
  | .nandwrite _ none => n
  | .nandwrite offset (some file) =>
    { n with byte := fun b =>
        if Written n.size n.page offset file.length b then file.getD (b - offset) 0xFF
        else n.byte b }

/-! ### Inside the firmware partition -/

/-- No flashing command touches a byte from the end of the firmware partition on. -/
def StaysInside (n : Nand) (i : Images) : Prop :=
  ∀ c ∈ i.install, ∀ b, n.Touches c b → b < fwPartLen

/-- The flashing of one file stays below a limit inside the device exactly if the file is not
empty and its padded region ends there. -/
theorem flashFile_inside_iff (n : Nand) {offset limit : ℕ} (file : Option Bytes)
    (hl : limit < n.size) (ho : offset < n.size) :
    (∀ c ∈ flashFile offset (roundUp (fileLen file)) file, ∀ b, n.Touches c b → b < limit) ↔
      fileLen file ≠ 0 ∧ offset + roundUp (fileLen file) ≤ limit := by
  have hcount := roundUp_div_mul (fileLen file)
  have hzero : roundUp (fileLen file) = 0 ↔ fileLen file = 0 := roundUp_eq_zero
  constructor
  · intro h
    have he : ∀ b, Erased n.size offset (roundUp (fileLen file) / eraseSz) b → b < limit :=
      h _ (List.mem_cons_self ..)
    have hne : fileLen file ≠ 0 := by
      intro h0
      have hlast := he (max offset limit) ⟨by omega, by omega, Or.inl (by rw [hzero.mpr h0]; rfl)⟩
      omega
    refine ⟨hne, ?_⟩
    have hpos : roundUp (fileLen file) ≠ 0 := fun h0 => hne (hzero.mp h0)
    by_contra hgt
    have hlast := he (max offset limit) ⟨by omega, by omega, Or.inr (by rw [hcount]; omega)⟩
    omega
  · rintro ⟨hne, hend⟩ c hc b hb
    have hpos : roundUp (fileLen file) ≠ 0 := fun h0 => hne (hzero.mp h0)
    have hk : roundUp (fileLen file) / eraseSz ≠ 0 := by
      intro h0
      rw [h0] at hcount
      omega
    simp only [flashFile, List.mem_cons, List.not_mem_nil, or_false] at hc
    rcases hc with rfl | rfl
    · obtain ⟨-, -, h0 | h0⟩ := hb
      · exact absurd h0 hk
      · omega
    · cases file with
      | none => exact absurd rfl hne
      | some file =>
        have hpage := ceilTo_le_ceilTo n.page_pos eraseSz_pos n.page_dvd file.length
        obtain ⟨-, -, h0⟩ := hb
        have hr : roundUp (fileLen (some file)) = ceilTo eraseSz file.length := rfl
        omega

/-- On a device that holds both declared partitions, the flashing step stays inside the firmware
partition exactly if no file is missing or empty and the last padded region ends inside. -/
theorem staysInside_iff (n : Nand) (hn : fwPartLen + rootPartLen ≤ n.size) (i : Images) :
    StaysInside n i ↔
      (fileLen i.rescueDt ≠ 0 ∧ fileLen i.kernelDt ≠ 0 ∧ fileLen i.kernel ≠ 0 ∧
        fileLen i.rescueRootfs ≠ 0) ∧
      i.rescueRootfsOffset + roundUp (fileLen i.rescueRootfs) ≤ fwPartLen := by
  have hfw : fwPartLen = 30539776 := rfl
  have hroot : rootPartLen = 224526336 := rfl
  have hak : akernelPad = 1048576 := by decide
  have h1 : i.rescueDtOffset = 12845056 := rfl
  have h2 : i.kernelDtOffset = i.rescueDtOffset + roundUp (fileLen i.rescueDt) := rfl
  have h3 : i.akernelOffset = i.kernelDtOffset + roundUp (fileLen i.kernelDt) := rfl
  have h4 : i.kernelOffset = i.akernelOffset + akernelPad := rfl
  have h5 : i.rescueRootfsOffset = i.kernelOffset + roundUp (fileLen i.kernel) := rfl
  have htable : ∀ c ∈ flashFile fwtblOffset (roundUp i.fwtbl.length) (some i.fwtbl),
      ∀ b, n.Touches c b → b < fwPartLen := by
    refine (flashFile_inside_iff n (some i.fwtbl) (by omega) (by rw [fwtblOffset]; omega)).mpr ?_
    have hlen : fileLen (some i.fwtbl) = 288 := length_fwtbl i
    rw [hlen]
    decide
  simp only [StaysInside, Images.install, List.mem_append, or_imp, forall_and]
  constructor
  · rintro ⟨⟨⟨⟨-, hrd⟩, hkd⟩, hk⟩, hrr⟩
    -- each region ends inside before the next one starts
    obtain ⟨n1, e1⟩ := (flashFile_inside_iff n i.rescueDt (by omega) (by omega)).mp hrd
    obtain ⟨n2, e2⟩ := (flashFile_inside_iff n i.kernelDt (by omega) (by omega)).mp hkd
    obtain ⟨n3, e3⟩ := (flashFile_inside_iff n i.kernel (by omega) (by omega)).mp hk
    obtain ⟨n4, e4⟩ := (flashFile_inside_iff n i.rescueRootfs (by omega) (by omega)).mp hrr
    exact ⟨⟨n1, n2, n3, n4⟩, e4⟩
  · rintro ⟨⟨n1, n2, n3, n4⟩, e4⟩
    refine ⟨⟨⟨⟨htable, ?_⟩, ?_⟩, ?_⟩, ?_⟩
    · exact (flashFile_inside_iff n i.rescueDt (by omega) (by omega)).mpr ⟨n1, by omega⟩
    · exact (flashFile_inside_iff n i.kernelDt (by omega) (by omega)).mpr ⟨n2, by omega⟩
    · exact (flashFile_inside_iff n i.kernel (by omega) (by omega)).mpr ⟨n3, by omega⟩
    · exact (flashFile_inside_iff n i.rescueRootfs (by omega) (by omega)).mpr ⟨n4, e4⟩

/-- A 256 MiB device with pages of 2 KiB, erased. -/
def Nand.blank256 : Nand where
  size := 256 * 1024 * 1024
  page := 2048
  page_pos := by decide
  page_dvd := by decide
  byte _ := 0xFF

theorem staysInside_ones :
    StaysInside .blank256 ⟨some [1], some [1], some [1], some [1]⟩ :=
  (staysInside_iff .blank256 (by decide) _).mpr (by decide)

/-- An empty `rescue.nand.dtb` is erased with count 0, up to the end of the device. -/
theorem not_staysInside_empty :
    ¬ StaysInside .blank256 ⟨some [1], some [1], some [], some [1]⟩ := by
  intro h
  have hcmd : FlashCmd.flashErase 0x00C40000 (roundUp 0 / eraseSz) ∈
      Images.install ⟨some [1], some [1], some [], some [1]⟩ := by
    apply List.mem_append_left
    apply List.mem_append_left
    apply List.mem_append_left
    apply List.mem_append_right
    exact List.mem_cons_self ..
  have herased : Erased (256 * 1024 * 1024) 0x00C40000 (roundUp 0 / eraseSz) fwPartLen := by
    decide
  exact absurd (h _ hcmd fwPartLen herased) (by decide)

end BuffaloNas.Install
