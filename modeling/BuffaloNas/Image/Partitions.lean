import BuffaloNas.Memory.Regions

/-! The disk image of the build: its partitions, and the file systems that are written into them. -/
namespace BuffaloNas.Image
open Memory

/-! ### Files -/

/-- A file, with no contents beyond its size. -/
structure File where
  size : ℕ
  byte : ℕ → UInt8

/-- A block of `bs=1M`. -/
def mib : ℕ := 1048576

/-- `du --apparent-size -BM` up to the letter. -/
def duM (size : ℕ) : ℕ := (size + mib - 1) / mib

/-- `dd if=/dev/zero bs=1M count="$count"` -/
def zeros (count : ℕ) : File := ⟨count * mib, fun _ => 0⟩

/-- `dd if="$file" bs="$bs" seek="$seek" conv=notrunc` -/
structure Dd where
  file : File
  bs : ℕ
  seek : ℕ

namespace Dd

variable (d : Dd) (out : File)

/-- What it writes. -/
def span : Span := ⟨d.seek * d.bs, d.file.size⟩

def run : File where
  size := if d.file.size = 0 then out.size else max out.size (d.span.start + d.span.len)
  byte := Region.store out.byte ⟨d.span, d.file.byte⟩

end Dd

/-! ### Partitions -/

/-- The first and the last sector of a partition. -/
structure Partition where
  first : ℕ
  last : ℕ

/-- What `sgdisk -p` says. -/
def sectorsz : ℕ := 512

def Partition.span (p : Partition) : Span where
  start := p.first * sectorsz
  len := (p.last + 1 - p.first) * sectorsz

/-- The protective record, the header and the entries at the beginning of the disk. -/
def primaryTable : Span := ⟨0, 34 * sectorsz⟩

/-- The entries and the header at the end of a disk of so many sectors. -/
def backupTable (sectors : ℕ) : Span := ⟨(sectors - 33) * sectorsz, 33 * sectorsz⟩

/-- `sgdisk -n 1:0:+"$bootsize"M`, on an empty table. -/
def bootPartition (bootsize : ℕ) : Partition where
  first := 2048
  last := 2048 + bootsize * (mib / sectorsz) - 1

/-- `sgdisk -n 2:0`: from the next aligned sector to the last before the backup table. -/
def rootPartition (sectors : ℕ) (boot : Partition) : Partition where
  first := ceilTo 2048 (boot.last + 1)
  last := sectors - 34

/-! ### `create_image` -/

/-- The sizes that `create_image` goes by, all in MiB. -/
structure Sizes where
  rootsize : ℕ
  bootsize : ℕ

namespace Sizes

variable (s : Sizes)

def disksize : ℕ := s.rootsize + s.bootsize + 100

def sectors : ℕ := s.disksize * mib / sectorsz

def boot : Partition := bootPartition s.bootsize

def root : Partition := rootPartition s.sectors s.boot

end Sizes

/-- The programs that fill the boot image and write the partition table. -/
structure Tools where
  mkfs : File → File
  sgdisk : Sizes → File → File

namespace Tools

variable (t : Tools) (bootdir : ℕ) (rootimg : File)

/-- `create_bootfs`, for a boot directory of so many bytes. -/
def createBootfs : File :=
  let bootsize := duM bootdir
  t.mkfs (zeros (bootsize + 100))

/-- The image that the boot file system is written from decides on the size of its partition. -/
def sizes : Sizes where
  rootsize := duM rootimg.size
  bootsize := duM (t.createBootfs bootdir).size

/-- The disk image once it has been partitioned. -/
def partitioned : File :=
  let s := t.sizes bootdir rootimg
  t.sgdisk s (zeros s.disksize)

/-- The boot file system is written into the image. -/
def bootDd : Dd := ⟨t.createBootfs bootdir, sectorsz, (t.sizes bootdir rootimg).boot.first⟩

/-- The root file system is written into the image. -/
def rootDd : Dd := ⟨rootimg, sectorsz, (t.sizes bootdir rootimg).root.first⟩

def createImage : File :=
  (t.rootDd bootdir rootimg).run ((t.bootDd bootdir rootimg).run (t.partitioned bootdir rootimg))

end Tools

/-! ### Sizes in bytes -/

section
variable {s : Sizes} {n : ℕ}

/-- Rounding up leaves room for the file. -/
theorem le_duM (n : ℕ) : n ≤ duM n * mib := le_ceilTo (by decide) n

theorem size_sectors : s.sectors * sectorsz = s.disksize * mib := by
  unfold Sizes.sectors
  refine Nat.div_mul_cancel (Nat.dvd_trans ?_ (Nat.dvd_mul_left mib s.disksize))
  exact ⟨2048, rfl⟩

theorem first_boot : s.boot.first = 2048 := rfl

theorem last_boot : s.boot.last + 1 = (s.bootsize + 1) * 2048 := by
  have hlast : s.boot.last = 2048 + s.bootsize * 2048 - 1 := rfl
  omega

/-- The boot partition ends where the next may begin. -/
theorem first_root : s.root.first = (s.bootsize + 1) * 2048 := by
  have hceil : s.root.first = ceilTo 2048 (s.boot.last + 1) := rfl
  rw [hceil, last_boot]
  have hle := le_ceilTo (a := 2048) (by decide) ((s.bootsize + 1) * 2048)
  exact Nat.le_antisymm (ceilTo_le (by decide) (Nat.le_refl _) (Nat.dvd_mul_left ..)) hle

theorem sectors_eq : s.sectors = s.disksize * 2048 := by
  have h := size_sectors (s := s)
  unfold mib sectorsz at h
  omega

theorem last_root : s.root.last = s.disksize * 2048 - 34 := by
  rw [← sectors_eq]
  rfl

end

/-! ### What is written where -/

section
variable {t : Tools} {bootdir : ℕ} {rootimg : File}

theorem mib_eq : mib = 2048 * sectorsz := by decide

/-- The first write begins with its partition and is no longer. -/
theorem bootDd_bounds (t : Tools) (bootdir : ℕ) (rootimg : File) :
    (t.bootDd bootdir rootimg).span.start = 2048 * sectorsz ∧
      (t.bootDd bootdir rootimg).span.len ≤ (t.sizes bootdir rootimg).bootsize * mib :=
  ⟨rfl, le_duM _⟩

/-- So does the second. -/
theorem rootDd_bounds (t : Tools) (bootdir : ℕ) (rootimg : File) :
    (t.rootDd bootdir rootimg).span.start =
        ((t.sizes bootdir rootimg).bootsize + 1) * 2048 * sectorsz ∧
      (t.rootDd bootdir rootimg).span.len ≤ (t.sizes bootdir rootimg).rootsize * mib := by
  refine ⟨?_, le_duM _⟩
  unfold Dd.span Tools.rootDd
  rw [first_root]

theorem bootDd_inside {b : ℕ} (h : (t.bootDd bootdir rootimg).span.Covers b) :
    (t.sizes bootdir rootimg).boot.span.Covers b := by
  obtain ⟨hstart, hlen⟩ := bootDd_bounds t bootdir rootimg
  obtain ⟨hlow, hhigh⟩ := h
  have hlast := last_boot (s := t.sizes bootdir rootimg)
  have hfirst := first_boot (s := t.sizes bootdir rootimg)
  unfold Span.Covers Partition.span
  rw [mib_eq] at hlen
  unfold sectorsz at *
  constructor <;> simp only <;> omega

theorem rootDd_inside {b : ℕ} (h : (t.rootDd bootdir rootimg).span.Covers b) :
    (t.sizes bootdir rootimg).root.span.Covers b := by
  obtain ⟨hstart, hlen⟩ := rootDd_bounds t bootdir rootimg
  obtain ⟨hlow, hhigh⟩ := h
  have hlast := last_root (s := t.sizes bootdir rootimg)
  have hfirst := first_root (s := t.sizes bootdir rootimg)
  unfold Sizes.disksize at hlast
  unfold Span.Covers Partition.span
  rw [mib_eq] at hlen
  unfold sectorsz at *
  constructor <;> simp only <;> omega

/-- The tables and the two writes, in the order in which they are on the disk. -/
theorem spans_apart (t : Tools) (bootdir : ℕ) (rootimg : File) :
    [primaryTable, (t.bootDd bootdir rootimg).span, (t.rootDd bootdir rootimg).span,
      backupTable (t.sizes bootdir rootimg).sectors].Pairwise Span.Apart := by
  obtain ⟨hboot, hbootlen⟩ := bootDd_bounds t bootdir rootimg
  obtain ⟨hroot, hrootlen⟩ := rootDd_bounds t bootdir rootimg
  have hprimary : primaryTable.start + primaryTable.len = 34 * sectorsz := Nat.zero_add _
  have hbackup : (backupTable (t.sizes bootdir rootimg).sectors).start =
      (((t.sizes bootdir rootimg).rootsize + (t.sizes bootdir rootimg).bootsize + 100) * 2048 -
        33) * sectorsz := by
    unfold backupTable
    rw [sectors_eq, Sizes.disksize]
  rw [mib_eq] at hbootlen hrootlen
  unfold sectorsz at *
  have happart : ∀ x y : Span, x.start + x.len ≤ y.start → x.Apart y := fun _ _ h => .inl h
  refine .cons ?_ (.cons ?_ (.cons ?_ (List.pairwise_singleton ..)))
  · intro x hx
    simp only [List.mem_cons, List.not_mem_nil, or_false] at hx
    rcases hx with rfl | rfl | rfl <;> exact happart _ _ (by omega)
  · intro x hx
    simp only [List.mem_cons, List.not_mem_nil, or_false] at hx
    rcases hx with rfl | rfl <;> exact happart _ _ (by omega)
  · intro x hx
    obtain rfl := List.mem_singleton.mp hx
    exact happart _ _ (by omega)

/-- A write that ends within a file leaves it at its size. -/
theorem size_run {d : Dd} {out : File} (h : d.span.start + d.span.len ≤ out.size) :
    (d.run out).size = out.size := by
  unfold Dd.run
  split
  · rfl
  · exact Nat.max_eq_left h

/-- What a write has put at a place of its file. -/
theorem byte_run_add (d : Dd) (out : File) {i : ℕ} (h : i < d.file.size) :
    (d.run out).byte (d.span.start + i) = d.file.byte i := by
  have hcovers : d.span.Covers (d.span.start + i) :=
    ⟨Nat.le_add_right .., Nat.add_lt_add_left h _⟩
  refine (Region.store_covers hcovers).trans ?_
  rw [Nat.add_sub_cancel_left]

theorem byte_run_off {d : Dd} {b : ℕ} (h : ¬ d.span.Covers b) (out : File) :
    (d.run out).byte b = out.byte b :=
  Region.store_not_covers h

theorem size_createImage (h : ∀ s d, (t.sgdisk s d).size = d.size) :
    (t.createImage bootdir rootimg).size = (t.sizes bootdir rootimg).disksize * mib := by
  have hdisk : (t.partitioned bootdir rootimg).size =
      (t.sizes bootdir rootimg).disksize * mib := h _ _
  obtain ⟨hboot, hbootlen⟩ := bootDd_bounds t bootdir rootimg
  obtain ⟨hroot, hrootlen⟩ := rootDd_bounds t bootdir rootimg
  have hbootEnd : (t.bootDd bootdir rootimg).span.start + (t.bootDd bootdir rootimg).span.len ≤
      (t.sizes bootdir rootimg).disksize * mib := by
    rw [mib_eq] at hbootlen ⊢
    unfold Sizes.disksize sectorsz at *
    omega
  have hrootEnd : (t.rootDd bootdir rootimg).span.start + (t.rootDd bootdir rootimg).span.len ≤
      (t.sizes bootdir rootimg).disksize * mib := by
    rw [mib_eq] at hrootlen ⊢
    unfold Sizes.disksize sectorsz at *
    omega
  rw [← hdisk] at hbootEnd hrootEnd ⊢
  have hfirst := size_run hbootEnd
  rw [← hfirst] at hrootEnd ⊢
  exact size_run hrootEnd

theorem dds_apart (t : Tools) (bootdir : ℕ) (rootimg : File) :
    (t.bootDd bootdir rootimg).span.Apart (t.rootDd bootdir rootimg).span := by
  have htail := (List.pairwise_cons.mp (spans_apart t bootdir rootimg)).2
  exact (List.pairwise_cons.mp htail).1 _ (List.mem_cons_self ..)

/-- The second write has left the boot file system as the first one wrote it. -/
theorem byte_boot {i : ℕ} (h : i < (t.createBootfs bootdir).size) :
    (t.createImage bootdir rootimg).byte ((t.sizes bootdir rootimg).boot.first * sectorsz + i) =
      (t.createBootfs bootdir).byte i := by
  have hcovers : (t.bootDd bootdir rootimg).span.Covers
      ((t.sizes bootdir rootimg).boot.first * sectorsz + i) :=
    ⟨Nat.le_add_right .., Nat.add_lt_add_left h _⟩
  refine (byte_run_off ((dds_apart t bootdir rootimg).not_covers hcovers) _).trans ?_
  exact byte_run_add (t.bootDd bootdir rootimg) _ h

theorem byte_root {i : ℕ} (h : i < rootimg.size) :
    (t.createImage bootdir rootimg).byte ((t.sizes bootdir rootimg).root.first * sectorsz + i) =
      rootimg.byte i :=
  byte_run_add (t.rootDd bootdir rootimg) _ h

/-- What neither write covers is as `sgdisk` left it, the tables among it. -/
theorem byte_off {b : ℕ} (hboot : ¬ (t.bootDd bootdir rootimg).span.Covers b)
    (hroot : ¬ (t.rootDd bootdir rootimg).span.Covers b) :
    (t.createImage bootdir rootimg).byte b = (t.partitioned bootdir rootimg).byte b :=
  (byte_run_off hroot _).trans (byte_run_off hboot _)

/-- For every boot directory and every root file system, each write of the script stays inside its
partition, neither overlaps the other or a table, and the image is as large as it was made: it holds
both file systems from the first sectors of their partitions on, and is otherwise as `sgdisk` left
it. -/
theorem createImage_fits (t : Tools) (h : ∀ s d, (t.sgdisk s d).size = d.size) (bootdir : ℕ)
    (rootimg : File) :
    let s := t.sizes bootdir rootimg
    let bootimg := t.createBootfs bootdir
    let boot := (t.bootDd bootdir rootimg).span
    let root := (t.rootDd bootdir rootimg).span
    let diskimg := t.createImage bootdir rootimg
    ((∀ b, boot.Covers b → s.boot.span.Covers b) ∧ ∀ b, root.Covers b → s.root.span.Covers b) ∧
      [primaryTable, boot, root, backupTable s.sectors].Pairwise Span.Apart ∧
      diskimg.size = s.disksize * mib ∧
      (∀ i < bootimg.size, diskimg.byte (s.boot.first * sectorsz + i) = bootimg.byte i) ∧
      (∀ i < rootimg.size, diskimg.byte (s.root.first * sectorsz + i) = rootimg.byte i) ∧
      ∀ b, ¬ boot.Covers b → ¬ root.Covers b →
        diskimg.byte b = (t.partitioned bootdir rootimg).byte b :=
  ⟨⟨fun _ hb => bootDd_inside hb, fun _ hb => rootDd_inside hb⟩, spans_apart .., size_createImage h,
    fun _ hi => byte_boot hi, fun _ hi => byte_root hi, fun _ hb hr => byte_off hb hr⟩

/-- The magic number of an ext3 file system, and the signatures of both partition tables. -/
def signing : Tools where
  mkfs f := { f with byte := Region.store f.byte ⟨⟨1080, 2⟩, fun i => [0x53, 0xef].getD i 0⟩ }
  sgdisk _ d := { d with
    byte := Region.store d.byte
      ⟨⟨510, 10⟩, fun i => [0x55, 0xaa, 0x45, 0x46, 0x49, 0x20, 0x50, 0x41, 0x52, 0x54].getD i 0⟩ }

/-- A boot directory of 5 MB, and a root file system of one byte more than 300 MiB. -/
theorem createImage_fits_signing :
    let diskimg := signing.createImage 5000000 ⟨300 * mib + 1, fun _ => 0x2a⟩
    diskimg.size = 506 * mib ∧ diskimg.byte 510 = 0x55 ∧ diskimg.byte (mib + 1081) = 0xef ∧
      diskimg.byte (106 * mib + 300 * mib) = 0x2a := by
  obtain ⟨-, -, hsize, hboot, hroot, hrest⟩ :=
    createImage_fits signing (fun _ _ => rfl) 5000000 ⟨300 * mib + 1, fun _ => 0x2a⟩
  refine ⟨hsize, (hrest 510 ?_ ?_).trans ?_, (hboot 1081 ?_).trans ?_, hroot (300 * mib) ?_⟩
  all_goals decide +kernel

end

end BuffaloNas.Image
