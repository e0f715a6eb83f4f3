import BuffaloNas.Install.Table

/-! The reader of firmware tables, and that it reads back what the installer assembles. -/
namespace BuffaloNas.Install

abbrev Text := List Char

/-! ### Reading numbers and texts -/

/-- The four-byte units of `hexdump`; the last one may be short. -/
def units : Bytes → List Bytes
  | b0 :: b1 :: b2 :: b3 :: bs => [b0, b1, b2, b3] :: units bs
  | [] => []
  | bs => [bs]

/-- A format of one integer per unit; a short unit counts as padded with zeros. -/
def hexdump (pre : Text) (w : ℕ) (bytes : Bytes) : Text :=
  (units bytes).flatMap fun unit => pre ++ Hex.text w (leNat unit)

/-- `%_p` -/
def printable (b : UInt8) : Char := if 0x20 ≤ b ∧ b < 0x7F then Char.ofNat b.toNat else '.'

/-- `-s off -n sz` -/
def window (src : Bytes) (off sz : ℕ) : Bytes := (src.drop off).take sz

def quickRead (src : Bytes) (off sz : ℕ) : Text :=
  if sz = 8 then
    hexdump ['0', 'x'] 8 (window src (off + 4) 4) ++ hexdump [] 8 (window src off 4)
  else if sz = 4 then hexdump ['0', 'x'] 8 (window src off sz)
  else if sz = 32 then (window src off sz).map printable
  else hexdump [] 1 (window src off sz)

/-- Digits below the base are taken as long as there are any. -/
def readBase (base acc : ℕ) : Text → ℕ
  | [] => acc
  | c :: cs =>
    match Hex.value c with
    | some d => if d < base then readBase base (base * acc + d) cs else acc
    | none => acc

/-- `printf %i` -/
def printfI (text : Text) : ℕ :=
  min (2 ^ 63 - 1) (match text with
    | '0' :: 'x' :: cs => Hex.read 0 cs
    | '0' :: cs => readBase 8 0 cs
    | cs => readBase 10 0 cs)

/-- The installer's own byte sum, reduced by a limit that is one less than 2^32. -/
def checksum (src : Bytes) (off sz : ℕ) : ℕ :=
  (window src off sz).foldl (fun sum b =>
    let sum := sum + b.toNat
    if 0xffffffff ≤ sum then sum - 0xffffffff else sum) 0

/-! ### Reading a table -/

/-- The loop over `size` with its running offset. -/
def readFields (src : Bytes) : List ℕ → ℕ → List Text
  | [], _ => []
  | size :: sizes, offset => quickRead src offset size :: readFields src sizes (offset + size)

/-- The loop over `x` around it. -/
def readRows (src : Bytes) (sizes : List ℕ) : ℕ → ℕ → List (List Text)
  | 0, _ => []
  | n + 1, offset => readFields src sizes offset :: readRows src sizes n (offset + sizes.sum)

def headerSizes : List ℕ := [8, 4, 1, 7, 4, 4, 4]
def partSizes : List ℕ := [1, 1, 8, 1, 1, 4, 32]
def fwSizes : List ℕ := [1, 1, 4, 4, 4, 4, 4, 4, 6]

structure PartRow where
  type : ℕ
  len : ℕ
  fwcnt : ℕ
  fwtype : ℕ
  mount : Text
  deriving DecidableEq

structure FwRow where
  type : ℕ
  version : Text
  targetaddress : Text
  fwoffset : Text
  len : ℕ
  paddings : Text
  checksum : Text
  deriving DecidableEq

structure Listing where
  version : ℕ
  paddings : ℕ
  partLen : ℕ
  listLen : ℕ
  tableChksum : Text
  calcTblSum : Text
  partitions : List PartRow
  fws : List FwRow

def partRow (partition : List Text) : PartRow where
  type := printfI ('0' :: 'x' :: partition.getD 0 [])
  len := printfI (partition.getD 2 [])
  fwcnt := printfI ('0' :: 'x' :: partition.getD 3 [])
  fwtype := printfI ('0' :: 'x' :: partition.getD 4 [])
  mount := partition.getD 6 []

def fwRow (fw : List Text) : FwRow where
  type := printfI ('0' :: 'x' :: fw.getD 0 [])
  version := fw.getD 2 []
  targetaddress := fw.getD 3 []
  fwoffset := fw.getD 4 []
  len := printfI (fw.getD 5 [])
  paddings := fw.getD 6 []
  checksum := fw.getD 7 []

/-- What is printed about the table at an offset. -/
def listing (src : Bytes) (table : ℕ) : Listing :=
  let result := readFields src headerSizes table
  let offset := table + headerSizes.sum
  let partLen := printfI (result.getD 5 [])
  let listLen := printfI (result.getD 6 [])
  { version := printfI (result.getD 2 [])
    paddings := printfI (result.getD 4 [])
    partLen := partLen
    listLen := listLen
    tableChksum := Hex.text 8 (printfI (result.getD 1 []))
    calcTblSum := Hex.text 8 (checksum src (table + 12) (partLen + listLen + 19))
    partitions := (readRows src partSizes (partLen / 48) offset).map partRow
    fws := (readRows src fwSizes (listLen / 32)
      (offset + partLen / 48 * partSizes.sum)).map fwRow }

/-- The loop over the offsets: tables of other versions are skipped, the first one is the last. -/
def analyzeFrom (src : Bytes) : List ℕ → Option Listing
  | [] => none
  | table :: tables =>
    if (listing src table).version ≠ 1 then analyzeFrom src tables else some (listing src table)

def tableOffsets (src : Bytes) : List ℕ :=
  (List.range src.length).filter fun i => tableMagic.isPrefixOf (src.drop i)

def analyze (file : Bytes) : Option Listing :=
  let src := file.take (8 * 1024 * 1024)
  analyzeFrom src (tableOffsets src)

/-! ### Fields are shown independently of what surrounds them -/

/-- How `quick_read` shows a field. -/
def shown (field : Bytes) : Text := quickRead field 0 field.length

theorem window_append {src field rest : Bytes} {off : ℕ} (h : src.drop off = field ++ rest)
    {i n : ℕ} (hn : i + n ≤ field.length) : window src (off + i) n = (field.drop i).take n := by
  rw [window, ← List.drop_drop, h, List.drop_append_of_le_length (by omega),
    List.take_append_of_le_length (by rw [List.length_drop]; omega)]

theorem quickRead_eq {src field rest : Bytes} {off : ℕ} (h : src.drop off = field ++ rest) :
    quickRead src off field.length = shown field := by
  have hself : field.drop 0 = field ++ [] := by simp
  have hall : window src off field.length = window field 0 field.length := by
    have h0 := window_append h (i := 0) (n := field.length) (by omega)
    have h1 := window_append hself (i := 0) (n := field.length) (by omega)
    exact h0.trans h1.symm
  rw [shown, quickRead, quickRead]
  by_cases h8 : field.length = 8
  · have h4 := window_append h (i := 4) (n := 4) (by omega)
    have h4' := window_append hself (i := 4) (n := 4) (by omega)
    have h0 := window_append h (i := 0) (n := 4) (by omega)
    have h0' := window_append hself (i := 0) (n := 4) (by omega)
    rw [if_pos h8, if_pos h8, h4, h4']
    rw [Nat.add_zero] at h0 h0'
    rw [h0, h0']
  · rw [if_neg h8, if_neg h8, hall]

theorem readFields_eq {src rest : Bytes} {off : ℕ} (fields : List Bytes)
    (h : src.drop off = fields.flatten ++ rest) :
    readFields src (fields.map List.length) off = fields.map shown := by
  induction fields generalizing off with
  | nil => rfl
  | cons field fields ih =>
    rw [List.flatten_cons, List.append_assoc] at h
    have hrest : src.drop (off + field.length) = fields.flatten ++ rest := by
      rw [← List.drop_drop, h, List.drop_left]
    rw [List.map_cons, readFields, quickRead_eq h, ih hrest, List.map_cons]

/-- The rows read from a list of entries are those of the entries, in their order. -/
theorem readRows_eq {α : Type} {fields : α → List Bytes} {sizes : List ℕ}
    (hs : ∀ a, (fields a).map List.length = sizes) {src rest : Bytes} {off : ℕ} (as : List α)
    (h : src.drop off = (as.flatMap fun a => (fields a).flatten) ++ rest) :
    readRows src sizes as.length off = as.map fun a => (fields a).map shown := by
  induction as generalizing off with
  | nil => rfl
  | cons a as ih =>
    rw [List.flatMap_cons, List.append_assoc] at h
    have hrest : src.drop (off + sizes.sum) =
        (as.flatMap fun a => (fields a).flatten) ++ rest := by
      rw [← List.drop_drop, h, ← length_flatten_of (hs a), List.drop_left]
    have hrow := readFields_eq (fields a) h
    rw [hs a] at hrow
    rw [List.length_cons, readRows, hrow, ih hrest, List.map_cons]

/-! ### How fields are shown, and what is made of them -/

theorem shown_byte {n : ℕ} (h : n < 256) : shown [UInt8.ofNat n] = Hex.text 1 n := by
  simp [shown, quickRead, window, hexdump, units, leNat, Nat.mod_eq_of_lt h]

theorem hexdump_leBytes {n : ℕ} (h : n < 2 ^ 32) (pre : Text) :
    hexdump pre 8 (leBytes 4 n) = pre ++ Hex.text 8 n := by
  have hn : leNat (leBytes 4 n) = n := leNat_leBytes (by omega)
  have hu : units (leBytes 4 n) = [leBytes 4 n] := rfl
  simp [hexdump, hu, hn]

theorem shown_le32 {n : ℕ} (h : n < 2 ^ 32) :
    shown (leBytes 4 n) = '0' :: 'x' :: Hex.text 8 n := by
  have hw : window (leBytes 4 n) 0 4 = leBytes 4 n := rfl
  rw [shown, length_leBytes, quickRead, if_neg (by decide), if_pos rfl, hw, hexdump_leBytes h]
  rfl

/-- The high half is read first. -/
theorem shown_le64 {n : ℕ} (h : n < 2 ^ 64) :
    shown (leBytes 8 n) =
      '0' :: 'x' :: (Hex.text 8 (n / 2 ^ 32) ++ Hex.text 8 (n % 2 ^ 32)) := by
  have hhigh : window (leBytes 8 n) 4 4 = leBytes 4 (n / 2 ^ 32) := by
    rw [window, leBytes_add 4 4, List.drop_left' (length_leBytes 4 n)]
    exact List.take_of_length_le (by simp)
  have hl : window (leBytes 8 n) 0 4 = leBytes 4 (n % 2 ^ 32) := by
    rw [window, List.drop_zero, leBytes_add 4 4, List.take_left' (length_leBytes 4 n),
      ← leBytes_mod 4 n]
    rfl
  rw [shown, length_leBytes, quickRead, if_pos rfl, Nat.zero_add, hhigh, hl,
    hexdump_leBytes (by omega), hexdump_leBytes (by omega)]
  rfl

theorem printfI_hex {n : ℕ} (h : n < 2 ^ 63) (w : ℕ) :
    printfI ('0' :: 'x' :: Hex.text w n) = n := by
  have hr := Hex.read_text w n []
  rw [List.append_nil] at hr
  simp only [printfI, hr, Hex.read]
  omega

theorem printfI_halves {n : ℕ} (h : n < 2 ^ 63) :
    printfI ('0' :: 'x' :: (Hex.text 8 (n / 2 ^ 32) ++ Hex.text 8 (n % 2 ^ 32))) = n := by
  have hlo : n % 2 ^ 32 < 16 ^ 8 := by omega
  simp only [printfI, Hex.read_text, Hex.read_text_acc hlo]
  omega

theorem printfI_shown_le32 {n : ℕ} (h : n < 2 ^ 32) : printfI (shown (leBytes 4 n)) = n := by
  rw [shown_le32 h]
  exact printfI_hex (by omega) 8

theorem printfI_shown_one : printfI (shown [1]) = 1 := by
  have h : shown [1] = ['1'] := by
    rw [show ([1] : Bytes) = [UInt8.ofNat 1] from rfl, shown_byte (by decide)]
    simp [Hex.text, Hex.digits]
    decide
  rw [h]
  decide

/-! ### Entries are read back -/

/-- What the reader makes of an entry: the name is followed by dots up to 32 characters. -/
def PartEntry.row (e : PartEntry) : PartRow where
  type := e.type
  len := e.len
  fwcnt := e.fwCount
  fwtype := e.fwType
  mount := e.mnt ++ List.replicate (32 - e.mnt.length) '.'

def FwEntry.row (e : FwEntry) : FwRow where
  type := e.type
  version := '0' :: 'x' :: Hex.text 8 e.version
  targetaddress := '0' :: 'x' :: Hex.text 8 e.targetAddr
  fwoffset := '0' :: 'x' :: Hex.text 8 e.offset
  len := e.length
  paddings := '0' :: 'x' :: Hex.text 8 e.paddings
  checksum := '0' :: 'x' :: Hex.text 8 e.checksum

theorem printable_ascii {text : Text} (h : ∀ c ∈ text, 0x20 ≤ c.toNat ∧ c.toNat < 0x7F) :
    (ascii text).map printable = text := by
  rw [ascii, List.map_map]
  conv_rhs => rw [← List.map_id text]
  refine List.map_congr_left fun c hc => ?_
  obtain ⟨h1, h2⟩ := h c hc
  have hc : (UInt8.ofNat c.toNat).toNat = c.toNat := by
    rw [UInt8.toNat_ofNat']
    omega
  have hp : 0x20 ≤ UInt8.ofNat c.toNat ∧ UInt8.ofNat c.toNat < 0x7F := by
    rw [UInt8.le_iff_toNat_le, UInt8.lt_iff_toNat_lt, hc]
    exact ⟨h1, h2⟩
  rw [Function.comp_apply, printable, if_pos hp, hc, Char.ofNat_toNat]
  rfl

theorem shown_mnt (e : PartEntry) :
    shown (ascii e.mnt ++ List.replicate (32 - e.mnt.length) 0) =
      e.mnt ++ List.replicate (32 - e.mnt.length) '.' := by
  have hl : (ascii e.mnt ++ List.replicate (32 - e.mnt.length) (0 : UInt8)).length = 32 := by
    have := e.mnt_length
    simp [ascii]
    omega
  rw [shown, hl, quickRead, if_neg (by decide), if_neg (by decide), if_pos rfl, window,
    List.drop_zero, List.take_of_length_le (by rw [hl]), List.map_append,
    printable_ascii e.mnt_printable, List.map_replicate]
  rfl

theorem PartEntry.partRow_fields (e : PartEntry) : partRow (e.fields.map shown) = e.row := by
  have hl := e.len_lt
  have h1 := e.type_lt
  have h2 := e.fwCount_lt
  have h3 := e.fwType_lt
  simp only [partRow, fields, List.map_cons, List.map_nil, List.getD_cons_zero,
    List.getD_cons_succ, shown_byte h1, shown_byte h2, shown_byte h3, shown_mnt,
    shown_le64 (show e.len < 2 ^ 64 by omega), printfI_halves (show e.len < 2 ^ 63 by omega),
    printfI_hex (show e.type < 2 ^ 63 by omega), printfI_hex (show e.fwCount < 2 ^ 63 by omega),
    printfI_hex (show e.fwType < 2 ^ 63 by omega)]
  rfl

theorem FwEntry.fwRow_fields (e : FwEntry) : fwRow (e.fields.map shown) = e.row := by
  have h1 := e.type_lt
  simp only [fwRow, fields, List.map_cons, List.map_nil, List.getD_cons_zero,
    List.getD_cons_succ, shown_byte h1, shown_le32 e.version_lt, shown_le32 e.targetAddr_lt,
    shown_le32 e.offset_lt, printfI_shown_le32 e.length_lt, shown_le32 e.paddings_lt,
    shown_le32 e.checksum_lt, printfI_hex (show e.type < 2 ^ 63 by omega)]
  rfl

/-! ### The assembled table is read back -/

theorem flatMap_bytes_part (parts : List PartEntry) :
    parts.flatMap PartEntry.bytes = parts.flatMap fun e => e.fields.flatten :=
  congrArg (List.flatMap · parts) (funext PartEntry.bytes_eq)

theorem flatMap_bytes_fw (fws : List FwEntry) :
    fws.flatMap FwEntry.bytes = fws.flatMap fun e => e.fields.flatten :=
  congrArg (List.flatMap · fws) (funext FwEntry.bytes_eq)

/-- The fields of a header that a table starts with. -/
theorem readFields_header (checksum partListLen fwListLen : ℕ) (lists : Bytes) :
    readFields ((headerFields checksum partListLen fwListLen).flatten ++ lists) headerSizes 0 =
      (headerFields checksum partListLen fwListLen).map shown := by
  rw [headerSizes, ← map_length_headerFields checksum partListLen fwListLen]
  exact readFields_eq _ rfl

theorem listing_header (checksum : ℕ) {partListLen fwListLen : ℕ} (lists : Bytes)
    (hp : partListLen < 2 ^ 32) (hf : fwListLen < 2 ^ 32) :
    let l := listing ((headerFields checksum partListLen fwListLen).flatten ++ lists) 0
    l.version = 1 ∧ l.partLen = partListLen ∧ l.listLen = fwListLen := by
  have hheader := readFields_header checksum partListLen fwListLen lists
  generalize (headerFields checksum partListLen fwListLen).flatten ++ lists = src at hheader ⊢
  simp only [listing, hheader, headerFields, List.map_cons, List.map_nil, List.getD_cons_zero,
    List.getD_cons_succ, printfI_shown_one, printfI_shown_le32 hp, printfI_shown_le32 hf,
    and_self]

/-- Reading at the start of an assembled table. -/
theorem listing_assemble (parts : List PartEntry) (fws : List FwEntry)
    (hp : 48 * parts.length < 2 ^ 32) (hf : 32 * fws.length < 2 ^ 32) :
    (listing (assemble parts fws) 0).version = 1 ∧
      (listing (assemble parts fws) 0).partitions = parts.map PartEntry.row ∧
      (listing (assemble parts fws) 0).fws = fws.map FwEntry.row := by
  have hpl := length_flatMap_const PartEntry.length_bytes parts
  have hfl := length_flatMap_const FwEntry.length_bytes fws
  have htable := @fwTable_eq (parts.flatMap PartEntry.bytes) (fws.flatMap FwEntry.bytes)
    (by omega) (by omega)
  rw [hpl, hfl, ← assemble] at htable
  generalize checksumPy (tmpTable (parts.flatMap PartEntry.bytes)
    (fws.flatMap FwEntry.bytes)) = checksum at htable
  have hheader := readFields_header checksum (48 * parts.length) (32 * fws.length)
    (parts.flatMap PartEntry.bytes ++ fws.flatMap FwEntry.bytes)
  have hsizes := map_length_headerFields checksum (48 * parts.length) (32 * fws.length)
  rw [← htable] at hheader
  generalize hsrc : assemble parts fws = src at htable hheader ⊢
  have hdrop : src.drop (0 + headerSizes.sum) =
      parts.flatMap PartEntry.bytes ++ fws.flatMap FwEntry.bytes := by
    rw [htable]
    exact List.drop_left' (length_flatten_of hsizes)
  have hparts := readRows_eq PartEntry.map_length_fields parts
    (flatMap_bytes_part parts ▸ hdrop)
  have hfwdrop : src.drop (0 + headerSizes.sum + parts.length * partSizes.sum) =
      (fws.flatMap fun e => e.fields.flatten) ++ [] := by
    rw [← List.drop_drop, hdrop, List.append_nil, ← flatMap_bytes_fw]
    exact List.drop_left' (hpl.trans (Nat.mul_comm ..))
  have hfws := readRows_eq FwEntry.map_length_fields fws hfwdrop
  have hpn : printfI (shown (leBytes 4 (48 * parts.length))) / 48 = parts.length := by
    rw [printfI_shown_le32 hp]
    omega
  have hfn : printfI (shown (leBytes 4 (32 * fws.length))) / 32 = fws.length := by
    rw [printfI_shown_le32 hf]
    omega
  simp only [listing, hheader, headerFields, List.map_cons, List.map_nil, List.getD_cons_zero,
    List.getD_cons_succ, hpn, hfn, printfI_shown_one]
  refine ⟨trivial, ?_, ?_⟩
  · exact (congrArg (List.map partRow) hparts).trans
      ((List.map_map ..).trans (List.map_congr_left fun e _ => e.partRow_fields))
  · exact (congrArg (List.map fwRow) hfws).trans
      ((List.map_map ..).trans (List.map_congr_left fun e _ => e.fwRow_fields))

/-- Where the magic is at the start, the first offset is 0. -/
theorem tableOffsets_magic (rest : Bytes) :
    ∃ tables, tableOffsets (tableMagic ++ rest) = 0 :: tables := by
  have hm : tableMagic.isPrefixOf ((tableMagic ++ rest).drop 0) = true := by
    rw [List.isPrefixOf_iff_prefix, List.drop_zero]
    exact List.prefix_append ..
  have hl : (tableMagic ++ rest).length = (7 + rest.length) + 1 := by
    simp [tableMagic, ascii]
    omega
  rw [tableOffsets, hl, List.range_succ_eq_map]
  exact ⟨_, List.filter_cons_of_pos hm⟩

theorem tableOffsets_assemble (parts : List PartEntry) (fws : List FwEntry) :
    ∃ tables, tableOffsets (assemble parts fws) = 0 :: tables := by
  rw [assemble, fwTable, List.append_assoc]
  exact tableOffsets_magic _

theorem analyze_eq_listing (parts : List PartEntry) (fws : List FwEntry)
    (h : (assemble parts fws).length ≤ 8 * 1024 * 1024) :
    analyze (assemble parts fws) = some (listing (assemble parts fws) 0) := by
  have hl := h
  rw [length_assemble] at hl
  obtain ⟨hv, -, -⟩ := listing_assemble parts fws (by omega) (by omega)
  obtain ⟨tables, ht⟩ := tableOffsets_assemble parts fws
  rw [analyze, List.take_of_length_le h]
  simp only [ht, analyzeFrom, hv, ne_eq, not_true_eq_false, if_false]

/-- Every assembled table that fits the window is read back, entry by entry and in order. -/
theorem analyze_assemble (parts : List PartEntry) (fws : List FwEntry)
    (h : (assemble parts fws).length ≤ 8 * 1024 * 1024) :
    ∃ l, analyze (assemble parts fws) = some l ∧ l.version = 1 ∧
      l.partitions = parts.map PartEntry.row ∧ l.fws = fws.map FwEntry.row := by
  have hl := h
  rw [length_assemble] at hl
  exact ⟨_, analyze_eq_listing parts fws h, listing_assemble parts fws (by omega) (by omega)⟩

theorem analyze_declaredParts :
    let audio : FwEntry := ⟨7, 1, 0, 0x01B00000, 0x00C80000, 1010368, 1048576, 0x04556C26,
      by decide, by decide, by decide, by decide, by decide, by decide, by decide, by decide⟩
    ∃ l, analyze (assemble declaredParts [audio]) = some l ∧ l.version = 1 ∧
      l.partitions = declaredParts.map PartEntry.row ∧ l.fws = [audio.row] :=
  analyze_assemble declaredParts [_] (by rw [length_assemble]; decide)

end BuffaloNas.Install
