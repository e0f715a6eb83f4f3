import BuffaloNas.Install.Analyze
import BuffaloNas.Install.Layout

/-! The shell's byte sum against that of `checksum.py`, for files and for firmware tables. -/
namespace BuffaloNas.Install

/-! ### Two ways to sum bytes -/

/-- The loop of `checksum` over the bytes that `dd` passes on. -/
def sumLoop (bytes : Bytes) : ℕ :=
  bytes.foldl (fun sum b =>
    let sum := sum + b.toNat
    if 0xffffffff ≤ sum then sum - 0xffffffff else sum) 0

/-- `checksum` without a size: `dd` passes on everything from the offset to the end. -/
def checksumToEnd (src : Bytes) (off : ℕ) : ℕ := sumLoop (src.drop off)

theorem checksum_eq (src : Bytes) (off sz : ℕ) :
    checksum src off sz = sumLoop (window src off sz) := rfl

/-- The shell's sum is reduced modulo one less than 2^32. -/
theorem sumLoop_eq (bytes : Bytes) : sumLoop bytes = byteSum bytes % (2 ^ 32 - 1) := by
  have h := foldl_add_sub (2 ^ 32 - 1) bytes 0 (by decide) (by decide)
  rw [Nat.zero_add] at h
  exact h

/-- Residues modulo two successive numbers agree on the first few numbers of every period. -/
theorem mod_eq_mod_succ {m : ℕ} (hm : 0 < m) (n : ℕ) :
    n % m = n % (m + 1) ↔ n % ((m + 1) * m) < m := by
  have h1 : n % ((m + 1) * m) % m = n % m := Nat.mod_mod_of_dvd n (Dvd.intro_left _ rfl)
  have h2 : n % ((m + 1) * m) % (m + 1) = n % (m + 1) := Nat.mod_mod_of_dvd n (Dvd.intro _ rfl)
  have hlt : n % ((m + 1) * m) < (m + 1) * m := Nat.mod_lt _ (Nat.mul_pos (by omega) hm)
  rw [← h1, ← h2]
  generalize n % ((m + 1) * m) = r at hlt
  have hq : r / (m + 1) < m := Nat.div_lt_of_lt_mul hlt
  have hr : r = r / (m + 1) + r % (m + 1) + m * (r / (m + 1)) := by
    have := Nat.div_add_mod r (m + 1)
    rw [Nat.add_mul, Nat.one_mul] at this
    omega
  have ht : r % (m + 1) < m + 1 := Nat.mod_lt r (by omega)
  generalize r / (m + 1) = q at hq hr
  generalize r % (m + 1) = t at hr ht
  have hmod : r % m = (q + t) % m := by rw [hr, Nat.add_mul_mod_self_left]
  rw [hmod]
  constructor
  · intro h
    have htm : t < m := h ▸ Nat.mod_lt _ hm
    have hq0 : q = 0 := by
      rcases Nat.lt_or_ge (q + t) m with hlt | hge
      · rw [Nat.mod_eq_of_lt hlt] at h
        omega
      · rw [Nat.mod_eq_sub_mod hge, Nat.mod_eq_of_lt (by omega)] at h
        omega
    rw [hr, hq0]
    omega
  · intro h
    have hq0 : q = 0 := by
      by_contra hne
      have : m ≤ m * q := Nat.le_mul_of_pos_right m (by omega)
      omega
    rw [hq0, Nat.zero_add]
    exact Nat.mod_eq_of_lt (by rw [hr, hq0] at h; omega)

/-- The two sums of a file are the same exactly if its byte sum is, in its period of about 2^64,
below 2^32 - 1; the period's end is out of reach for files. -/
theorem checksum_whole_iff (file : Bytes) :
    checksumToEnd file 0 = checksumFile (some file) ↔
      byteSum file % (2 ^ 32 * (2 ^ 32 - 1)) < 2 ^ 32 - 1 := by
  have hpy : checksumFile (some file) = byteSum file % 2 ^ 32 := checksumPy_eq file
  rw [checksumToEnd, List.drop_zero, sumLoop_eq, hpy]
  exact mod_eq_mod_succ (m := 2 ^ 32 - 1) (by decide) (byteSum file)

theorem byteSum_replicate (n : ℕ) (b : UInt8) : byteSum (List.replicate n b) = n * b.toNat := by
  simp [byteSum]

/-- Sixteen mebibytes of ones, and a little more: the sum is 2^32 - 1. -/
theorem not_checksum_whole :
    checksumToEnd (List.replicate 16843009 0xFF) 0 ≠
      checksumFile (some (List.replicate 16843009 0xFF)) := by
  rw [Ne, checksum_whole_iff, byteSum_replicate]
  decide

/-! ### The sum of a table -/

/-- The table that `analyze` lists: the first of version 1. -/
def tableFound (file : Bytes) : Option ℕ :=
  (tableOffsets (file.take (8 * 1024 * 1024))).find? fun table =>
    (listing (file.take (8 * 1024 * 1024)) table).version = 1

theorem analyze_eq_map (file : Bytes) :
    analyze file = (tableFound file).map (listing (file.take (8 * 1024 * 1024))) := by
  rw [analyze, tableFound]
  generalize file.take (8 * 1024 * 1024) = src
  induction tableOffsets src with
  | nil => rfl
  | cons table tables ih =>
    rw [analyzeFrom, List.find?_cons]
    by_cases hv : (listing src table).version = 1
    · simp [hv]
    · simp [hv, ih]

/-- The bytes of a table after its checksum: 20 of the header, and the two lists. -/
def summed (src : Bytes) (table : ℕ) : Bytes :=
  window src (table + 12) (20 + (listing src table).partLen + (listing src table).listLen)

theorem window_succ {src : Bytes} {off sz : ℕ} (h : off + sz < src.length) :
    window src off (sz + 1) = window src off sz ++ [src.getD (off + sz) 0] := by
  rw [window, window, List.take_succ_eq_append_getElem (by rw [List.length_drop]; omega)]
  simp [h]

/-- Within a window of 8 MiB nothing is reduced; one byte less gives the same sum if it is zero. -/
theorem checksum_short_iff {src : Bytes} {off sz : ℕ} (hlen : src.length ≤ 8 * 1024 * 1024)
    (h : off + sz < src.length) :
    checksum src off sz = checksumPy (window src off (sz + 1)) ↔ src.getD (off + sz) 0 = 0 := by
  have hsum : byteSum (window src off sz) ≤ 255 * (8 * 1024 * 1024) := by
    refine (byteSum_le _).trans (Nat.mul_le_mul_left 255 ?_)
    have hle : (window src off sz).length ≤ src.length := by simp [window]
    omega
  rw [checksum_eq, sumLoop_eq, checksumPy_eq, window_succ h, byteSum_append, byteSum_cons,
    byteSum_nil, Nat.add_zero]
  generalize src.getD (off + sz) 0 = last
  generalize byteSum (window src off sz) = sum at hsum
  have hb := last.toNat_lt
  rw [Nat.mod_eq_of_lt (by omega), Nat.mod_eq_of_lt (by omega)]
  constructor
  · intro heq
    exact UInt8.toNat_inj.mp (by rw [UInt8.toNat_zero]; omega)
  · rintro rfl
    rfl

/-- One byte of a table is left out of the sum. -/
theorem calcTblSum_listing_iff {src : Bytes} {table : ℕ} (hlen : src.length ≤ 8 * 1024 * 1024)
    (hfits : table + 32 + (listing src table).partLen + (listing src table).listLen ≤
      src.length) :
    (listing src table).calcTblSum = Hex.text 8 (checksumPy (summed src table)) ↔
      src.getD (table + 31 + (listing src table).partLen + (listing src table).listLen) 0 = 0 := by
  have hcalc : (listing src table).calcTblSum = Hex.text 8 (checksum src (table + 12)
      ((listing src table).partLen + (listing src table).listLen + 19)) := rfl
  have hsz : 20 + (listing src table).partLen + (listing src table).listLen =
      (listing src table).partLen + (listing src table).listLen + 19 + 1 := by omega
  have hlast : table + 12 + ((listing src table).partLen + (listing src table).listLen + 19) =
      table + 31 + (listing src table).partLen + (listing src table).listLen := by omega
  rw [hcalc, summed, hsz, Hex.text_inj, checksum_short_iff hlen (by omega), hlast]

/-- The table fits the 8 MiB that `analyze` looks at. -/
def TableFits (file : Bytes) (table : ℕ) : Prop :=
  table + 32 + (listing (file.take (8 * 1024 * 1024)) table).partLen +
    (listing (file.take (8 * 1024 * 1024)) table).listLen ≤ (file.take (8 * 1024 * 1024)).length

/-- The sum that `analyze` prints for a table it finds is that of `checksum.py` over the bytes that
the installer sums, exactly if the last byte of the table is zero. -/
theorem calcTblSum_iff {file : Bytes} {table : ℕ} (hfound : tableFound file = some table)
    (hfits : TableFits file table) :
    ∃ l, analyze file = some l ∧
      (l.calcTblSum = Hex.text 8 (checksumPy (summed (file.take (8 * 1024 * 1024)) table)) ↔
        (file.take (8 * 1024 * 1024)).getD (table + 31 + l.partLen + l.listLen) 0 = 0) := by
  refine ⟨listing (file.take (8 * 1024 * 1024)) table, ?_, ?_⟩
  · rw [analyze_eq_map, hfound]
    rfl
  · exact calcTblSum_listing_iff (List.length_take_le _ _) hfits

/-! ### Tables by their headers -/

/-- An image that starts with a header, and goes on with the lists. -/
def headed (checksum partListLen fwListLen : ℕ) (lists : Bytes) : Bytes :=
  (headerFields checksum partListLen fwListLen).flatten ++ lists

theorem length_headed (checksum partListLen fwListLen : ℕ) (lists : Bytes) :
    (headed checksum partListLen fwListLen lists).length = 32 + lists.length := by
  rw [headed, List.length_append, length_flatten_of (map_length_headerFields ..)]
  rfl

theorem tableFound_headed {checksum partListLen fwListLen : ℕ} {lists : Bytes}
    (hp : partListLen < 2 ^ 32) (hf : fwListLen < 2 ^ 32)
    (hl : lists.length ≤ 8 * 1024 * 1024 - 32) :
    tableFound (headed checksum partListLen fwListLen lists) = some 0 := by
  have hv := (listing_header checksum lists hp hf).1
  obtain ⟨tables, ht⟩ := tableOffsets_magic ([leBytes 4 checksum, [1], [0, 0, 0, 0, 0, 0, 0],
    leBytes 4 eraseSz, leBytes 4 partListLen, leBytes 4 fwListLen].flatten ++ lists)
  rw [← List.append_assoc] at ht
  rw [tableFound, List.take_of_length_le (by rw [length_headed]; omega)]
  rw [headed, headerFields, List.flatten_cons, ht, List.find?_cons]
  simp only [headerFields, List.flatten_cons] at hv
  simp only [List.flatten_cons, hv, decide_true]

/-- A table of one entry, all zeros but for the last byte. -/
def oneEntry (last : UInt8) : Bytes := headed 0 0 32 (List.replicate 31 0 ++ [last])

theorem listing_oneEntry (last : UInt8) :
    (listing (oneEntry last) 0).partLen = 0 ∧ (listing (oneEntry last) 0).listLen = 32 :=
  (listing_header 0 (List.replicate 31 0 ++ [last]) (by decide) (by decide)).2

theorem take_oneEntry (last : UInt8) : (oneEntry last).take (8 * 1024 * 1024) = oneEntry last := by
  refine List.take_of_length_le ?_
  rw [oneEntry, length_headed]
  simp

theorem tableFound_oneEntry (last : UInt8) : tableFound (oneEntry last) = some 0 := by
  refine tableFound_headed (by decide) (by decide) ?_
  simp

theorem tableFits_oneEntry (last : UInt8) : TableFits (oneEntry last) 0 := by
  obtain ⟨hp, hl⟩ := listing_oneEntry last
  have hlen : (oneEntry last).length = 64 := by
    rw [oneEntry, length_headed]
    simp
  rw [TableFits, take_oneEntry, hp, hl, hlen]

theorem calcTblSum_oneEntry :
    ∃ l, analyze (oneEntry 0) = some l ∧
      (l.calcTblSum = Hex.text 8 (checksumPy (summed ((oneEntry 0).take (8 * 1024 * 1024)) 0)) ↔
        ((oneEntry 0).take (8 * 1024 * 1024)).getD (0 + 31 + l.partLen + l.listLen) 0 = 0) :=
  calcTblSum_iff (tableFound_oneEntry 0) (tableFits_oneEntry 0)

/-- A table that ends in a one: the printed sum is one too low. -/
theorem not_calcTblSum :
    tableFound (oneEntry 1) = some 0 ∧ TableFits (oneEntry 1) 0 ∧
      ∀ l, analyze (oneEntry 1) = some l → l.calcTblSum ≠
        Hex.text 8 (checksumPy (summed ((oneEntry 1).take (8 * 1024 * 1024)) 0)) := by
  refine ⟨tableFound_oneEntry 1, tableFits_oneEntry 1, ?_⟩
  intro l hl
  rw [analyze_eq_map, tableFound_oneEntry, take_oneEntry] at hl
  obtain rfl := Option.some.inj hl
  have hfits := tableFits_oneEntry 1
  have hlen : (oneEntry 1).length ≤ 8 * 1024 * 1024 := by
    rw [← take_oneEntry]
    exact List.length_take_le _ _
  rw [TableFits, take_oneEntry] at hfits
  obtain ⟨hp, hll⟩ := listing_oneEntry 1
  rw [take_oneEntry, Ne, calcTblSum_listing_iff hlen hfits, hp, hll]
  decide

end BuffaloNas.Install
