import BuffaloNas.Install.Analyze
import BuffaloNas.Install.Flash

/-! What is on the NAND after the flashing step. -/
namespace BuffaloNas.Install
open Memory

/-- Input files that are all there and not empty. -/
structure FullImages where
  kernel : Bytes
  kernelDt : Bytes
  rescueDt : Bytes
  rescueRootfs : Bytes
  kernel_ne : kernel ≠ []
  kernelDt_ne : kernelDt ≠ []
  rescueDt_ne : rescueDt ≠ []
  rescueRootfs_ne : rescueRootfs ≠ []

def FullImages.images (f : FullImages) : Images :=
  ⟨some f.kernel, some f.kernelDt, some f.rescueDt, some f.rescueRootfs⟩

/-- The end of the layout. -/
def Images.layoutEnd (i : Images) : ℕ :=
  i.rescueRootfsOffset + roundUp (fileLen i.rescueRootfs)

/-! ### Flashing as stores to regions -/

/-- An erased region with a file at its start. -/
def fileRegion (offset : ℕ) (file : Bytes) : Region UInt8 where
  start := offset
  len := roundUp file.length
  content j := file.getD j 0xFF

/-- The flashed files and their offsets, in the order of the commands. -/
def FullImages.files (f : FullImages) : List (ℕ × Bytes) :=
  [(fwtblOffset, f.images.fwtbl), (f.images.rescueDtOffset, f.rescueDt),
    (f.images.kernelDtOffset, f.kernelDt), (f.images.kernelOffset, f.kernel),
    (f.images.rescueRootfsOffset, f.rescueRootfs)]

def FullImages.regions (f : FullImages) : List (Region UInt8) :=
  f.files.map fun p => fileRegion p.1 p.2

/-- Erasing and writing a file that fits stores its region. -/
theorem exec_flashFile (n : Nand) {offset : ℕ} {file : Bytes} (hne : file ≠ [])
    (hs : offset + roundUp file.length ≤ n.size) :
    (flashFile offset (roundUp file.length) (some file)).foldl Nand.exec n =
      { n with byte := Region.store n.byte (fileRegion offset file) } := by
  have hcount := roundUp_div_mul file.length
  have hpos : roundUp file.length ≠ 0 := by
    rw [ne_eq, roundUp_eq_zero, List.length_eq_zero_iff]
    exact hne
  have hk : roundUp file.length / eraseSz ≠ 0 := by
    intro h0
    rw [h0] at hcount
    omega
  have hlen := le_ceilTo n.page_pos file.length
  have hpage : ceilTo n.page file.length ≤ roundUp file.length :=
    ceilTo_le_ceilTo n.page_pos eraseSz_pos n.page_dvd file.length
  simp only [flashFile, List.foldl_cons, List.foldl_nil, Nand.exec]
  congr 1
  funext b
  by_cases hc : (fileRegion offset file).Covers b
  · rw [Region.store_covers hc]
    obtain ⟨h1, h2⟩ := hc
    simp only [fileRegion] at h1 h2 ⊢
    have he : Erased n.size offset (roundUp file.length / eraseSz) b :=
      ⟨h1, by omega, Or.inr (by omega)⟩
    by_cases hw : Written n.size n.page offset file.length b
    · rw [if_pos hw]
    · have hout : file.length ≤ b - offset := by
        by_contra hin
        exact hw ⟨h1, by omega, by omega⟩
      rw [if_neg hw, if_pos he, List.getD_eq_getElem?_getD, List.getElem?_eq_none hout]
      rfl
  · rw [Region.store_not_covers hc, if_neg, if_neg]
    · rintro ⟨h1, -, h2 | h2⟩
      · exact hk h2
      · exact hc ⟨h1, by rw [hcount] at h2; exact h2⟩
    · rintro ⟨h1, -, h2⟩
      exact hc ⟨h1, by simp only [fileRegion]; omega⟩

theorem exec_flashFiles {files : List (ℕ × Bytes)} (n : Nand)
    (h : ∀ p ∈ files, p.2 ≠ [] ∧ p.1 + roundUp p.2.length ≤ n.size) :
    (files.flatMap fun p => flashFile p.1 (roundUp p.2.length) (some p.2)).foldl Nand.exec n =
      { n with byte := (files.map fun p => fileRegion p.1 p.2).foldl Region.store n.byte } := by
  induction files generalizing n with
  | nil => rfl
  | cons p files ih =>
    obtain ⟨hne, hs⟩ := h p (List.mem_cons_self ..)
    rw [List.flatMap_cons, List.foldl_append, exec_flashFile n hne hs]
    exact ih _ fun q hq => h q (List.mem_cons_of_mem p hq)

section Layout
variable (f : FullImages)

theorem offsets :
    f.images.rescueDtOffset = 0x00C40000 ∧
    f.images.kernelDtOffset = f.images.rescueDtOffset + roundUp f.rescueDt.length ∧
    f.images.akernelOffset = f.images.kernelDtOffset + roundUp f.kernelDt.length ∧
    f.images.kernelOffset = f.images.akernelOffset + akernelPad ∧
    f.images.rescueRootfsOffset = f.images.kernelOffset + roundUp f.kernel.length ∧
    f.images.layoutEnd = f.images.rescueRootfsOffset + roundUp f.rescueRootfs.length :=
  ⟨rfl, rfl, rfl, rfl, rfl, rfl⟩

theorem roundUp_fwtbl : roundUp f.images.fwtbl.length = 131072 := by
  rw [length_fwtbl]
  decide

/-- The audio region lies between the others and is not flashed. -/
def FullImages.audio : Span := ⟨f.images.akernelOffset, akernelPad⟩

/-- All padded regions, by address. -/
def FullImages.padded : List Span :=
  [⟨fwtblOffset, roundUp f.images.fwtbl.length⟩,
    ⟨f.images.rescueDtOffset, roundUp f.rescueDt.length⟩,
    ⟨f.images.kernelDtOffset, roundUp f.kernelDt.length⟩, f.audio,
    ⟨f.images.kernelOffset, roundUp f.kernel.length⟩,
    ⟨f.images.rescueRootfsOffset, roundUp f.rescueRootfs.length⟩]

theorem padded_aligned : ∀ s ∈ f.padded, eraseSz ∣ s.start ∧ eraseSz ∣ s.len := by
  obtain ⟨h1, h2, h3, h4, h5, -⟩ := offsets f
  have hpad : ∀ n, eraseSz ∣ roundUp n := dvd_ceilTo eraseSz
  have hak : eraseSz ∣ akernelPad := hpad akernelSize
  have d1 : eraseSz ∣ f.images.rescueDtOffset := by rw [h1]; decide
  have d2 : eraseSz ∣ f.images.kernelDtOffset := by rw [h2]; exact Nat.dvd_add d1 (hpad _)
  have d3 : eraseSz ∣ f.images.akernelOffset := by rw [h3]; exact Nat.dvd_add d2 (hpad _)
  have d4 : eraseSz ∣ f.images.kernelOffset := by rw [h4]; exact Nat.dvd_add d3 hak
  have d5 : eraseSz ∣ f.images.rescueRootfsOffset := by rw [h5]; exact Nat.dvd_add d4 (hpad _)
  have d0 : eraseSz ∣ fwtblOffset := by decide
  intro s hs
  simp only [FullImages.padded, List.mem_cons, List.not_mem_nil, or_false] at hs
  rcases hs with rfl | rfl | rfl | rfl | rfl | rfl
  · exact ⟨d0, hpad _⟩
  · exact ⟨d1, hpad _⟩
  · exact ⟨d2, hpad _⟩
  · exact ⟨d3, hak⟩
  · exact ⟨d4, hpad _⟩
  · exact ⟨d5, hpad _⟩

theorem padded_apart : f.padded.Pairwise Span.Apart := by
  obtain ⟨h1, h2, h3, h4, h5, -⟩ := offsets f
  have h0 : fwtblOffset = 4718592 := rfl
  have ht := roundUp_fwtbl f
  simp only [FullImages.padded, FullImages.audio, List.pairwise_cons, List.mem_cons,
    List.not_mem_nil, or_false, forall_eq_or_imp, forall_eq, Span.Apart, IsEmpty.forall_iff,
    implies_true, List.Pairwise.nil, and_true]
  omega

end Layout

/-! ### The whole flashing step -/

/-- The layout ends on the device, and its last offset and last padded size have 32 bits. -/
structure Fits (n : Nand) (f : FullImages) : Prop where
  device : f.images.layoutEnd ≤ n.size
  offset_bits : f.images.rescueRootfsOffset < 2 ^ 32
  size_bits : roundUp f.rescueRootfs.length < 2 ^ 32

variable {n : Nand} {f : FullImages}

theorem install_eq (f : FullImages) :
    f.images.install =
      f.files.flatMap fun p => flashFile p.1 (roundUp p.2.length) (some p.2) := by
  simp only [FullImages.files, List.flatMap_cons, List.flatMap_nil, List.append_nil,
    Images.install, List.append_assoc]
  rfl

theorem exec_install (h : Fits n f) :
    f.images.install.foldl Nand.exec n =
      { n with byte := f.regions.foldl Region.store n.byte } := by
  obtain ⟨h1, h2, h3, h4, h5, h6⟩ := offsets f
  have h0 : fwtblOffset = 4718592 := rfl
  have ht := roundUp_fwtbl f
  have hend := h.device
  have hne : f.images.fwtbl ≠ [] := by
    rw [← List.length_pos_iff, length_fwtbl]
    decide
  rw [install_eq]
  refine exec_flashFiles n ?_
  simp only [FullImages.files, List.mem_cons, List.not_mem_nil, or_false, forall_eq_or_imp,
    forall_eq]
  exact ⟨⟨hne, by omega⟩, ⟨f.rescueDt_ne, by omega⟩, ⟨f.kernelDt_ne, by omega⟩,
    ⟨f.kernel_ne, by omega⟩, f.rescueRootfs_ne, by omega⟩

/-- `len` bytes from an address on. -/
def Nand.read (n : Nand) (offset len : ℕ) : Bytes :=
  (List.range len).map fun j => n.byte (offset + j)

theorem regions_apart (f : FullImages) :
    f.regions.Pairwise fun r s => r.Apart s.toSpan := by
  have h := padded_apart f
  simp only [FullImages.padded, FullImages.regions, FullImages.files, List.map_cons, List.map_nil,
    List.pairwise_cons, List.mem_cons, List.not_mem_nil, or_false, forall_eq_or_imp, forall_eq,
    fileRegion] at h ⊢
  tauto

/-- A flashed file is found at its offset. -/
theorem read_region (h : Fits n f) {offset : ℕ} {file : Bytes}
    (hr : fileRegion offset file ∈ f.regions) :
    (f.images.install.foldl Nand.exec n).read offset file.length = file := by
  rw [exec_install h]
  apply List.ext_getElem
  · simp [Nand.read]
  · intro j hj1 hj2
    have hpad := le_ceilTo eraseSz_pos file.length
    have hc : (fileRegion offset file).Covers (offset + j) :=
      ⟨Nat.le_add_right .., by simp only [fileRegion, roundUp_eq]; omega⟩
    simp only [Nand.read, List.getElem_map, List.getElem_range,
      Region.foldl_store_covers (regions_apart f) hr hc]
    simp [fileRegion, hj2]

/-- Outside the flashed regions nothing has changed. -/
theorem byte_outside (h : Fits n f) {b : ℕ} (hb : ∀ r ∈ f.regions, ¬ r.Covers b) :
    (f.images.install.foldl Nand.exec n).byte b = n.byte b := by
  rw [exec_install h]
  exact Region.foldl_store_frame hb n.byte

theorem audio_outside (f : FullImages) {b : ℕ} (hb : f.audio.Covers b) :
    ∀ r ∈ f.regions, ¬ r.Covers b := by
  have h := padded_apart f
  simp only [FullImages.padded, List.pairwise_cons, List.mem_cons, List.not_mem_nil, or_false,
    forall_eq_or_imp, forall_eq] at h
  obtain ⟨⟨-, -, h1, -, -⟩, ⟨-, h2, -, -⟩, ⟨h3, -, -⟩, ⟨h4, h5⟩, -⟩ := h
  intro r hr hc
  simp only [FullImages.regions, FullImages.files, List.map_cons, List.map_nil, List.mem_cons,
    List.not_mem_nil, or_false] at hr
  rcases hr with rfl | rfl | rfl | rfl | rfl
  · exact h1.not_covers hc hb
  · exact h2.not_covers hc hb
  · exact h3.not_covers hc hb
  · exact h4.not_covers hb hc
  · exact h5.not_covers hb hc

/-! ### The table describes the files -/

/-- The read-only flag of the installer's entries fits its field. -/
theorem readOnly_le : 1 ≤ 1 := Nat.le_refl 1

/-- The entry that the installer makes for a file. -/
def fileEntry (type target offset : ℕ) (file : Bytes) (ht : type < 256) (ha : target < 2 ^ 32)
    (ho : offset < 2 ^ 32) (hp : roundUp file.length < 2 ^ 32) : FwEntry where
  type := type
  ro := 1
  version := 0
  targetAddr := target
  offset := offset
  length := file.length
  paddings := roundUp file.length
  checksum := checksumPy file
  type_lt := ht
  ro_le := readOnly_le
  version_lt := Nat.two_pow_pos 32
  targetAddr_lt := ha
  offset_lt := ho
  length_lt := Nat.lt_of_le_of_lt (le_ceilTo eraseSz_pos file.length) hp
  paddings_lt := hp
  checksum_lt := checksumPy_lt file

/-- The file that an entry type stands for. -/
def FullImages.ofType (f : FullImages) : ℕ → Option Bytes
  | 2 => some f.kernel
  | 3 => some f.rescueDt
  | 4 => some f.kernelDt
  | 5 => some f.rescueRootfs
  | _ => none

/-- The entry names a flashed file: its type, where it is, its length and its byte sum. -/
def FullImages.Describes (f : FullImages) (e : FwEntry) : Prop :=
  ∀ file, f.ofType e.type = some file →
    fileRegion e.offset file ∈ f.regions ∧ e.length = file.length ∧
      e.checksum = checksumPy file

theorem exists_entries (h : Fits n f) :
    ∃ entries : List FwEntry, f.images.fwtbl = assemble declaredParts entries ∧
      entries.map FwEntry.type = [2, 3, 4, 5, 7] ∧ ∀ e ∈ entries, f.Describes e := by
  obtain ⟨h1, h2, h3, h4, h5, h6⟩ := offsets f
  have hak : akernelPad = 1048576 := by decide
  have hoff := h.offset_bits
  have hsize := h.size_bits
  refine ⟨[
    fileEntry 2 kernelLoadaddr f.images.kernelOffset f.kernel (by decide) (by decide)
      (by omega) (by omega),
    fileEntry 3 fdtLoadaddr f.images.rescueDtOffset f.rescueDt (by decide) (by decide)
      (by omega) (by omega),
    fileEntry 4 fdtLoadaddr f.images.kernelDtOffset f.kernelDt (by decide) (by decide)
      (by omega) (by omega),
    fileEntry 5 rootfsLoadaddr f.images.rescueRootfsOffset f.rescueRootfs (by decide)
      (by decide) (by omega) (by omega),
    ⟨7, 1, 0, audioLoadaddr, f.images.akernelOffset, akernelSize, akernelPad, akernelChk,
      by decide, by decide, by decide, by decide, by omega, by decide, by decide, by decide⟩],
    ?_, rfl, ?_⟩
  · simp only [Images.fwtbl, assemble, declaredParts, partList, Images.fwDesc, List.flatMap_cons,
      List.flatMap_nil, List.append_nil, List.append_assoc]
    rfl
  · intro e he
    simp only [List.mem_cons, List.not_mem_nil, or_false] at he
    rcases he with rfl | rfl | rfl | rfl | rfl
    · rintro _ ⟨⟩
      exact ⟨by simp [FullImages.regions, FullImages.files, fileEntry], rfl, rfl⟩
    · rintro _ ⟨⟩
      exact ⟨by simp [FullImages.regions, FullImages.files, fileEntry], rfl, rfl⟩
    · rintro _ ⟨⟩
      exact ⟨by simp [FullImages.regions, FullImages.files, fileEntry], rfl, rfl⟩
    · rintro _ ⟨⟩
      exact ⟨by simp [FullImages.regions, FullImages.files, fileEntry], rfl, rfl⟩
    · rintro _ ⟨⟩

/-- `m` is the NAND `n` after an installation of the files. -/
structure Installed (n m : Nand) (f : FullImages) : Prop where
  table : m.read fwtblOffset f.images.fwtbl.length = f.images.fwtbl
  entries : ∃ l, analyze (m.read fwtblOffset f.images.fwtbl.length) = some l ∧
    l.fws.map FwRow.type = [2, 3, 4, 5, 7] ∧
    ∀ row ∈ l.fws, ∀ file, f.ofType row.type = some file →
      m.read (printfI row.fwoffset) row.len = file ∧
        byteSum file % 2 ^ 32 = printfI row.checksum
  frame : ∀ b, f.audio.Covers b ∨ (∀ r ∈ f.regions, ¬ r.Covers b) → m.byte b = n.byte b
  aligned : ∀ s ∈ f.padded, eraseSz ∣ s.start ∧ eraseSz ∣ s.len
  apart : f.padded.Pairwise Span.Apart

/-- The flashing step puts the table and the files it describes on the NAND and nothing else. -/
theorem install_effect (h : Fits n f) : Installed n (f.images.install.foldl Nand.exec n) f := by
  generalize hm : f.images.install.foldl Nand.exec n = m
  have htable : m.read fwtblOffset f.images.fwtbl.length = f.images.fwtbl :=
    hm ▸ read_region h (by simp [FullImages.regions, FullImages.files])
  refine ⟨htable, ?_, ?_, padded_aligned f, padded_apart f⟩
  · obtain ⟨entries, he, htypes, hdesc⟩ := exists_entries h
    have hlen : (assemble declaredParts entries).length ≤ 8 * 1024 * 1024 := by
      rw [← he, length_fwtbl]
      decide
    have hl := hlen
    rw [length_assemble] at hl
    obtain ⟨-, -, hfws⟩ := listing_assemble declaredParts entries (by omega) (by omega)
    refine ⟨listing (assemble declaredParts entries) 0, ?_, ?_, ?_⟩
    · rw [htable, he, analyze_eq_listing declaredParts entries hlen]
    · rw [hfws, List.map_map, ← htypes]
      rfl
    · intro row hrow file hfile
      rw [hfws] at hrow
      obtain ⟨e, hmem, rfl⟩ := List.mem_map.mp hrow
      obtain ⟨hregion, hlength, hsum⟩ := hdesc e hmem file hfile
      have hoff := e.offset_lt
      have hchk := e.checksum_lt
      simp only [FwEntry.row, printfI_hex (show e.offset < 2 ^ 63 by omega),
        printfI_hex (show e.checksum < 2 ^ 63 by omega)]
      refine ⟨?_, ?_⟩
      · rw [hlength, ← hm]
        exact read_region h hregion
      · rw [hsum, checksumPy_eq]
  · rintro b (hb | hb)
    · exact hm ▸ byte_outside h (audio_outside f hb)
    · exact hm ▸ byte_outside h hb

/-- Four files of one byte each. -/
def FullImages.ones : FullImages :=
  ⟨[1], [1], [1], [1], by decide, by decide, by decide, by decide⟩

theorem install_effect_ones :
    Installed .blank256 (FullImages.ones.images.install.foldl Nand.exec .blank256) .ones :=
  install_effect ⟨by decide, by decide, by decide⟩

end BuffaloNas.Install
