import BuffaloNas.Bytes
import BuffaloNas.Hex

/-! The firmware table as the installer's shell functions print it. -/
namespace BuffaloNas.Install

/-! ### Printing bytes -/

def ascii (text : List Char) : Bytes := text.map fun c => UInt8.ofNat c.toNat

/-- `echo -n -e "\x…"`: two digits at most make the byte, what follows is literal. -/
def echoHex (text : List Char) : Bytes :=
  UInt8.ofNat (Hex.read 0 (text.take 2)) :: ascii (text.drop 2)

/-- `${v:i:2}` -/
def slice (v : List Char) (i : ℕ) : List Char := (v.drop i).take 2

def le32 (n : ℕ) : Bytes :=
  let v := Hex.text 8 n
  [6, 4, 2, 0].flatMap fun i => echoHex (slice v i)

def le64 (n : ℕ) : Bytes :=
  let v := Hex.text 16 n
  [14, 12, 10, 8, 6, 4, 2, 0].flatMap fun i => echoHex (slice v i)

def uchar (n : ℕ) : Bytes := echoHex (Hex.lowerText 2 n)

/-- The words that `echo` takes for options. -/
def isEchoOption : List Char → Bool
  | '-' :: c :: cs => (c :: cs).all (· ∈ ['n', 'e', 'E'])
  | _ => false

/-- `echo -n "$word"` -/
def echoN (word : List Char) : Bytes := if isEchoOption word then [] else ascii word

/-- `head -c`: a negative count drops bytes from the end. -/
def headC (count : ℤ) (bytes : Bytes) : Bytes :=
  if 0 ≤ count then bytes.take count.toNat else bytes.take (bytes.length - (-count).toNat)

/-! ### The table -/

def eraseSz : ℕ := 128 * 1024

def tableMagic : Bytes := ascii "VERONA__".toList

def partDescEntry (type ro len fwCount fwType : ℕ) (mnt : List Char) : Bytes :=
  let pad : ℤ := 32 - mnt.length
  uchar type ++ uchar (ro * 0x80) ++ le64 len ++ uchar fwCount ++ uchar fwType ++ [0, 0, 0, 0] ++
    echoN mnt ++ headC pad (List.replicate 32 0)

/-- The arguments are words: one that expands to nothing is missing, and the others move up. -/
def fwDescEntry (args : List ℕ) : Bytes :=
  let arg := fun i => args.getD i 0
  uchar (arg 0) ++ uchar (arg 1 * 0x80) ++ le32 (arg 2) ++ le32 (arg 3) ++ le32 (arg 4) ++
    le32 (arg 5) ++ le32 (arg 6) ++ le32 (arg 7) ++ [0, 0, 0, 0, 0, 0]

/-- The byte sum that `checksum.py` prints. -/
def checksumPy (bytes : Bytes) : ℕ :=
  bytes.foldl (fun result byte => result + byte.toNat) 0 % 0x100000000

/-- `tmp_table.bin` -/
def tmpTable (partList fwDesc : Bytes) : Bytes :=
  uchar 1 ++ [0, 0, 0, 0, 0, 0, 0] ++ le32 eraseSz ++ le32 partList.length ++
    le32 fwDesc.length ++ (partList ++ fwDesc)

/-- `fw_table.bin` -/
def fwTable (partList fwDesc : Bytes) : Bytes :=
  tableMagic ++ le32 (checksumPy (tmpTable partList fwDesc)) ++ tmpTable partList fwDesc

/-! ### What the printing functions print -/

/-- Two printed digits are one byte. -/
theorem echoHex_pair {print : ℕ → Char} (hp : ∀ d < 16, Hex.value (print d) = some d) (n : ℕ) :
    echoHex [print (n / 16 % 16), print (n % 16)] = [UInt8.ofNat n] := by
  have hr : Hex.read 0 [print (n / 16 % 16), print (n % 16)] = 16 * (n / 16 % 16) + n % 16 := by
    simp only [Hex.read, hp _ (Nat.mod_lt _ (by decide : 0 < 16)), Nat.mul_zero, Nat.zero_add]
  have hn : UInt8.ofNat (16 * (n / 16 % 16) + n % 16) = UInt8.ofNat n := by
    apply UInt8.toNat_inj.mp
    simp only [UInt8.toNat_ofNat']
    omega
  rw [echoHex, List.take_of_length_le (by simp), hr, hn]
  rfl

theorem uchar_eq {n : ℕ} (h : n < 256) : uchar n = [UInt8.ofNat n] := by
  have hd : n / 256 = 0 := Nat.div_eq_of_lt h
  rw [uchar, Hex.lowerText, Hex.digits_add_two, hd, Hex.digits_zero_zero]
  exact echoHex_pair (fun d hd => (Hex.value_digit hd).2) n

/-- The letters of `v:i:2` for a number of eight digits. -/
theorem le32_eq {n : ℕ} (h : n < 2 ^ 32) : le32 n = leBytes 4 n := by
  have pair := echoHex_pair fun d hd => (Hex.value_digit hd).1
  have hd : n / 256 / 256 / 256 / 256 = 0 := by omega
  have hv : Hex.text 8 n = ([n / 256 / 256 / 256, n / 256 / 256, n / 256, n].flatMap
      fun m => [m / 16 % 16, m % 16]).map fun d => d.digitChar.toUpper := by
    rw [Hex.text, Hex.digits_add_two 6, Hex.digits_add_two 4, Hex.digits_add_two 2,
      Hex.digits_add_two 0, hd, Hex.digits_zero_zero]
    rfl
  simp only [le32, hv, slice, List.flatMap_cons, List.flatMap_nil, List.map_cons, List.map_nil,
    List.cons_append, List.nil_append, List.append_nil, List.drop_succ_cons,
    List.drop_zero, List.take_succ_cons, List.take_zero, pair]
  rfl

/-- Sixteen digits are the high half before the low half. -/
theorem le64_eq {n : ℕ} (h : n < 2 ^ 64) : le64 n = leBytes 8 n := by
  have pair := echoHex_pair fun d hd => (Hex.value_digit hd).1
  have hd : n / 256 / 256 / 256 / 256 / 256 / 256 / 256 / 256 = 0 := by omega
  have hv : Hex.text 16 n = ([n / 256 / 256 / 256 / 256 / 256 / 256 / 256,
      n / 256 / 256 / 256 / 256 / 256 / 256, n / 256 / 256 / 256 / 256 / 256,
      n / 256 / 256 / 256 / 256, n / 256 / 256 / 256, n / 256 / 256, n / 256, n].flatMap
      fun m => [m / 16 % 16, m % 16]).map fun d => d.digitChar.toUpper := by
    rw [Hex.text, Hex.digits_add_two 14, Hex.digits_add_two 12, Hex.digits_add_two 10,
      Hex.digits_add_two 8, Hex.digits_add_two 6, Hex.digits_add_two 4, Hex.digits_add_two 2,
      Hex.digits_add_two 0, hd, Hex.digits_zero_zero]
    rfl
  simp only [le64, hv, slice, List.flatMap_cons, List.flatMap_nil, List.map_cons, List.map_nil,
    List.cons_append, List.nil_append, List.append_nil, List.drop_succ_cons,
    List.drop_zero, List.take_succ_cons, List.take_zero, pair]
  rfl

/-! ### Entries and their fields -/

/-- The arguments of `part_desc_entry`. -/
structure PartEntry where
  type : ℕ
  ro : ℕ
  len : ℕ
  fwCount : ℕ
  fwType : ℕ
  mnt : List Char
  type_lt : type < 256
  ro_le : ro ≤ 1
  len_lt : len < 2 ^ 53
  fwCount_lt : fwCount < 256
  fwType_lt : fwType < 256
  mnt_length : mnt.length ≤ 32
  mnt_printable : ∀ c ∈ mnt, 0x20 ≤ c.toNat ∧ c.toNat < 0x7F
  mnt_head : mnt.head? ≠ some '-'

def PartEntry.bytes (e : PartEntry) : Bytes :=
  partDescEntry e.type e.ro e.len e.fwCount e.fwType e.mnt

def PartEntry.fields (e : PartEntry) : List Bytes :=
  [[UInt8.ofNat e.type], [UInt8.ofNat (e.ro * 0x80)], leBytes 8 e.len, [UInt8.ofNat e.fwCount],
    [UInt8.ofNat e.fwType], [0, 0, 0, 0], ascii e.mnt ++ List.replicate (32 - e.mnt.length) 0]

def fwPartLen : ℕ := 30539776
def rootPartLen : ℕ := 224526336

/-- The partitions that the installer declares: the firmware and the root filesystem. -/
def declaredParts : List PartEntry :=
  [{ type := 1, ro := 1, len := fwPartLen, fwCount := 5, fwType := 0, mnt := []
     type_lt := by decide, ro_le := by decide, len_lt := by decide, fwCount_lt := by decide
     fwType_lt := by decide, mnt_length := by decide, mnt_printable := by simp
     mnt_head := by decide },
   { type := 2, ro := 0, len := rootPartLen, fwCount := 1, fwType := 5, mnt := ['/']
     type_lt := by decide, ro_le := by decide, len_lt := by decide, fwCount_lt := by decide
     fwType_lt := by decide, mnt_length := by decide, mnt_printable := by simp
     mnt_head := by decide }]

/-- The arguments of `fw_desc_entry`. -/
structure FwEntry where
  type : ℕ
  ro : ℕ
  version : ℕ
  targetAddr : ℕ
  offset : ℕ
  length : ℕ
  paddings : ℕ
  checksum : ℕ
  type_lt : type < 256
  ro_le : ro ≤ 1
  version_lt : version < 2 ^ 32
  targetAddr_lt : targetAddr < 2 ^ 32
  offset_lt : offset < 2 ^ 32
  length_lt : length < 2 ^ 32
  paddings_lt : paddings < 2 ^ 32
  checksum_lt : checksum < 2 ^ 32

def FwEntry.bytes (e : FwEntry) : Bytes :=
  fwDescEntry [e.type, e.ro, e.version, e.targetAddr, e.offset, e.length, e.paddings, e.checksum]

def FwEntry.fields (e : FwEntry) : List Bytes :=
  [[UInt8.ofNat e.type], [UInt8.ofNat (e.ro * 0x80)], leBytes 4 e.version, leBytes 4 e.targetAddr,
    leBytes 4 e.offset, leBytes 4 e.length, leBytes 4 e.paddings, leBytes 4 e.checksum,
    [0, 0, 0, 0, 0, 0]]

theorem uchar_ro {ro : ℕ} (h : ro ≤ 1) : uchar (ro * 0x80) = [UInt8.ofNat (ro * 0x80)] :=
  uchar_eq (by omega)

theorem echoN_eq {word : List Char} (h : word.head? ≠ some '-') : echoN word = ascii word := by
  have ho : isEchoOption word = false := by
    cases word with
    | nil => rfl
    | cons c cs =>
      have hc : c ≠ '-' := by simpa using h
      unfold isEchoOption
      split
      case h_1 heq => exact absurd (List.cons.inj heq).1 hc
      case h_2 => rfl
  simp [echoN, ho]

theorem PartEntry.bytes_eq (e : PartEntry) : e.bytes = e.fields.flatten := by
  have hl := e.mnt_length
  have hpad : headC ((32 : ℤ) - e.mnt.length) (List.replicate 32 (0 : UInt8)) =
      List.replicate (32 - e.mnt.length) 0 := by
    rw [headC, if_pos (by omega), List.take_replicate]
    congr 1
    omega
  rw [bytes, partDescEntry, uchar_eq e.type_lt, uchar_ro e.ro_le,
    le64_eq (by have := e.len_lt; omega), uchar_eq e.fwCount_lt, uchar_eq e.fwType_lt,
    echoN_eq e.mnt_head, hpad]
  simp [fields]

theorem PartEntry.map_length_fields (e : PartEntry) :
    e.fields.map List.length = [1, 1, 8, 1, 1, 4, 32] := by
  have := e.mnt_length
  simp [fields, ascii]
  omega

theorem FwEntry.bytes_eq (e : FwEntry) : e.bytes = e.fields.flatten := by
  have h := fwDescEntry.eq_def [e.type, e.ro, e.version, e.targetAddr, e.offset, e.length,
    e.paddings, e.checksum]
  simp only [List.getD_cons_zero, List.getD_cons_succ] at h
  rw [bytes, h, uchar_eq e.type_lt, uchar_ro e.ro_le, le32_eq e.version_lt,
    le32_eq e.targetAddr_lt, le32_eq e.offset_lt, le32_eq e.length_lt, le32_eq e.paddings_lt,
    le32_eq e.checksum_lt]
  simp [fields]

theorem FwEntry.map_length_fields (e : FwEntry) :
    e.fields.map List.length = [1, 1, 4, 4, 4, 4, 4, 4, 6] := by
  simp [fields]

theorem length_flatten_of {fields : List Bytes} {sizes : List ℕ}
    (h : fields.map List.length = sizes) : fields.flatten.length = sizes.sum := by
  rw [List.length_flatten, h]

theorem PartEntry.length_bytes (e : PartEntry) : e.bytes.length = 48 := by
  rw [e.bytes_eq, length_flatten_of e.map_length_fields]
  rfl

theorem FwEntry.length_bytes (e : FwEntry) : e.bytes.length = 32 := by
  rw [e.bytes_eq, length_flatten_of e.map_length_fields]
  rfl

/-! ### The whole table -/

/-- The header's fields, for lists of the given lengths in bytes. -/
def headerFields (checksum partListLen fwListLen : ℕ) : List Bytes :=
  [tableMagic, leBytes 4 checksum, [1], [0, 0, 0, 0, 0, 0, 0], leBytes 4 eraseSz,
    leBytes 4 partListLen, leBytes 4 fwListLen]

theorem checksumPy_eq (bytes : Bytes) : checksumPy bytes = byteSum bytes % 2 ^ 32 := by
  rw [checksumPy, foldl_add_toNat, Nat.zero_add]
  rfl

theorem checksumPy_lt (bytes : Bytes) : checksumPy bytes < 2 ^ 32 := Nat.mod_lt _ (by decide)

theorem fwTable_eq {partList fwDesc : Bytes} (hp : partList.length < 2 ^ 32)
    (hf : fwDesc.length < 2 ^ 32) :
    fwTable partList fwDesc =
      (headerFields (checksumPy (tmpTable partList fwDesc)) partList.length
        fwDesc.length).flatten ++ (partList ++ fwDesc) := by
  rw [fwTable, le32_eq (checksumPy_lt _)]
  generalize checksumPy (tmpTable partList fwDesc) = checksum
  rw [tmpTable, uchar_eq (by decide), le32_eq (by decide), le32_eq hp, le32_eq hf]
  simp [headerFields]

theorem map_length_headerFields (checksum partListLen fwListLen : ℕ) :
    (headerFields checksum partListLen fwListLen).map List.length = [8, 4, 1, 7, 4, 4, 4] := by
  simp [headerFields, tableMagic, ascii]

/-- The table of the installer, for any entries. -/
def assemble (parts : List PartEntry) (fws : List FwEntry) : Bytes :=
  fwTable (parts.flatMap PartEntry.bytes) (fws.flatMap FwEntry.bytes)

theorem length_echoHex_slice (v : List Char) (i : ℕ) : (echoHex (slice v i)).length = 1 := by
  have : (slice v i).length ≤ 2 := List.length_take_le 2 _
  rw [echoHex, List.drop_of_length_le this]
  rfl

@[simp] theorem length_le32 (n : ℕ) : (le32 n).length = 4 := by
  simp [le32, length_echoHex_slice]

theorem length_flatMap_const {α : Type} {f : α → Bytes} {k : ℕ} (h : ∀ a, (f a).length = k)
    (as : List α) : (as.flatMap f).length = k * as.length := by
  simp [List.length_flatMap, h, Nat.mul_comm]

theorem length_fwTable (partList fwDesc : Bytes) :
    (fwTable partList fwDesc).length = 32 + partList.length + fwDesc.length := by
  simp [fwTable, tmpTable, tableMagic, ascii, uchar_eq]
  omega

theorem length_assemble (parts : List PartEntry) (fws : List FwEntry) :
    (assemble parts fws).length = 32 + 48 * parts.length + 32 * fws.length := by
  rw [assemble, length_fwTable, length_flatMap_const PartEntry.length_bytes,
    length_flatMap_const FwEntry.length_bytes]

end BuffaloNas.Install
