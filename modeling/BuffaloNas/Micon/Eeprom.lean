import BuffaloNas.Interaction.Program
import BuffaloNas.Decimal
import BuffaloNas.Hex
import Mathlib.Data.List.DropRight

/-! The EEPROM of the third version's micon, as `eeprom_print` shows it. -/
namespace BuffaloNas.Micon
open Interaction Program

/-! ### What Python does -/

inductive ConsoleError
  | valueError
  | overflowError
  | unicodeDecodeError
  deriving DecidableEq

/-- Writing to the serial port, reading a line from it, and printing. -/
inductive ConsoleOp
  | write (output : List Char)
  | readline
  | print (text : List Char)

abbrev ConsoleOp.Answer : ConsoleOp → Type
  | write _ => Unit
  | readline => List Char
  | print _ => Unit

abbrev Script (α : Type) := Program ConsoleOp ConsoleOp.Answer ConsoleError α

def orRaise {α : Type} (e : ConsoleError) : Option α → Script α
  | some a => pure a
  | none => raise e

def digitsValue (ds : List Char) : Option ℤ :=
  if ds ≠ [] ∧ ds.all Char.isDigit then some (Nat.ofDigitChars 10 ds 0) else none

/-- `int(text)` for digits without underscores. -/
def pyInt (text : List Char) : Option ℤ :=
  match (text.dropWhile Char.isWhitespace).rdropWhile Char.isWhitespace with
  | '-' :: ds => (digitsValue ds).map fun n => -n
  | '+' :: ds => digitsValue ds
  | ds => digitsValue ds

/-- `n.to_bytes(1, 'big')` -/
def toByte (n : ℤ) : Option UInt8 :=
  if 0 ≤ n ∧ n < 256 then some (UInt8.ofNat n.toNat) else none

/-- `str(b, 'utf-8')` of a single byte. -/
def decodeByte (b : UInt8) : Option Char := if b < 0x80 then some (Char.ofNat b.toNat) else none

/-- `isprintable` of a character that is one byte in UTF-8. -/
def isPrintable (c : Char) : Bool := 0x20 ≤ c.toNat && c.toNat ≤ 0x7e

/-- A whole number as a double: 53 binary digits, to the nearest, halves to the even one. -/
def roundDouble (n : ℕ) : ℕ :=
  let e := Nat.log2 n - 52
  let q := n / 2 ^ e
  let r := n % 2 ^ e
  (if 2 ^ e < 2 * r ∨ 2 ^ e = 2 * r ∧ q % 2 = 1 then q + 1 else q) * 2 ^ e

/-- `math.ceil(n / 16)`: the division is that of doubles. -/
def ceilDiv16 (n : ℕ) : Option ℕ :=
  if roundDouble n < 2 ^ 1028 then some ((roundDouble n + 15) / 16) else none

/-! ### `micon_api_v3` -/

/-- `send_miconv3` -/
def sendMiconv3 (message : List Char) : Script (List Char) := do
  perform (ConsoleOp.write (message ++ ['\r']))
  perform ConsoleOp.readline

/-- `EEPROM_READ ` -/
def eepromReadCmd : List Char := ['E', 'E', 'P', 'R', 'O', 'M', '_', 'R', 'E', 'A', 'D', ' ']

def eepromRead (bytenum : ℕ) : Script (List Char) :=
  sendMiconv3 (eepromReadCmd ++ Nat.toDigits 10 bytenum ++ [' ', '1'])

/-- One byte, added to both columns of its row. -/
def eepromColumn (columns : List Char × List Char) (byte : ℕ) :
    Script (List Char × List Char) := do
  let (hexline, strline) := columns
  let result ← eepromRead byte
  let resultint ← orRaise .valueError (pyInt result)
  let resultbyte ← orRaise .overflowError (toByte resultint)
  let resultchar ← orRaise .unicodeDecodeError (decodeByte resultbyte)
  let resultchar := if isPrintable resultchar then resultchar else '.'
  return (hexline ++ ' ' :: Hex.lowerText 2 resultbyte.toNat, strline ++ [resultchar])

def width : ℕ := 16

def eepromRow (y : ℕ) : Script Unit := do
  let byte := y * width
  perform (ConsoleOp.print (['0', 'x'] ++ Hex.lowerText 4 byte ++ [' ']))
  let (hexline, strline) ← (List.range width).foldlM
    (fun columns x => eepromColumn columns (y * width + x)) ([' '], [])
  perform (ConsoleOp.print (hexline ++ [' ', ' ', '|'] ++ strline ++ ['|', '\n']))

def eepromPrint (bytecount : ℕ) : Script Unit := do
  let lines ← orRaise .overflowError (ceilDiv16 bytecount)
  (List.range lines).forM eepromRow

/-! ### The micon -/

/-- The bytes of an EEPROM, and the lines in which it answers. -/
structure Eeprom where
  value : ℕ → UInt8
  reply : ℕ → List Char
  decimal : ∀ a, pyInt (reply a) = some ((value a).toNat : ℤ)

/-- The address in a command to read one byte. -/
def addressOf (output : List Char) : Option ℕ :=
  let digits := (output.drop eepromReadCmd.length).takeWhile Char.isDigit
  if output = eepromReadCmd ++ digits ++ [' ', '1', '\r'] then
    some (Nat.ofDigitChars 10 digits 0)
  else none

/-- What the micon has answered, and what has been printed. -/
structure Console where
  pending : List Char
  out : List Char

def Eeprom.port (e : Eeprom) : Device ConsoleOp ConsoleOp.Answer ConsoleError Console
  | .write output, s => (.ok (), { s with pending := ((addressOf output).map e.reply).getD [] })
  | .readline, s => (.ok s.pending, { s with pending := [] })
  | .print text, s => (.ok (), { s with out := s.out ++ text })

section
variable {e : Eeprom} {s : Console} {n : ℕ}

theorem addressOf_command (a : ℕ) :
    addressOf (eepromReadCmd ++ Nat.toDigits 10 a ++ [' ', '1'] ++ ['\r']) = some a := by
  have hdigits : ((eepromReadCmd ++ Nat.toDigits 10 a ++ [' ', '1'] ++ ['\r']).drop
      eepromReadCmd.length).takeWhile Char.isDigit = Nat.toDigits 10 a := by
    rw [List.append_assoc, List.append_assoc, List.drop_left,
      List.takeWhile_append_of_pos fun c hc => Decimal.isDigit_of_mem hc]
    simp
  rw [addressOf, hdigits, if_pos (by simp), Nat.ofDigitChars_ten_toDigits]

theorem run_eepromRead (a : ℕ) :
    (eepromRead a).run e.port s = (.ok (e.reply a), { s with pending := [] }) := by
  rw [eepromRead, sendMiconv3, run_bind, run_perform, Eeprom.port, addressOf_command, andThen_ok,
    run_perform]
  rfl

theorem toByte_toNat (b : UInt8) : toByte (b.toNat : ℤ) = some b := by
  have hlt := b.toNat_lt
  rw [toByte, if_pos (by omega), Int.toNat_natCast, UInt8.ofNat_toNat]

/-- What the character column shows of a byte. -/
def shownChar (b : UInt8) : Char :=
  if 0x20 ≤ b ∧ b ≤ 0x7e then Char.ofNat b.toNat else '.'

theorem shownChar_of_ascii {b : UInt8} (h : b < 0x80) :
    (if isPrintable (Char.ofNat b.toNat) then Char.ofNat b.toNat else '.') = shownChar b := by
  have hlt : b.toNat < 128 := UInt8.lt_iff_toNat_lt.mp h
  have hchar : (Char.ofNat b.toNat).toNat = b.toNat := by
    rw [Char.ofNat, dif_pos (.inl (by omega))]
    rfl
  have hiff : isPrintable (Char.ofNat b.toNat) = true ↔ 0x20 ≤ b ∧ b ≤ 0x7e := by
    rw [isPrintable, hchar, Bool.and_eq_true, decide_eq_true_iff, decide_eq_true_iff,
      UInt8.le_iff_toNat_le, UInt8.le_iff_toNat_le]
    rfl
  unfold shownChar
  simp only [hiff]

/-- A byte below 0x80 gets into both columns. -/
theorem run_eepromColumn_ascii {a : ℕ} (h : e.value a < 0x80) (columns : List Char × List Char) :
    (eepromColumn columns a).run e.port s =
      (.ok (columns.1 ++ ' ' :: Hex.lowerText 2 (e.value a).toNat,
        columns.2 ++ [shownChar (e.value a)]), { s with pending := [] }) := by
  simp only [eepromColumn, run_bind, run_eepromRead, andThen_ok, e.decimal, orRaise, run_pure,
    toByte_toNat, decodeByte, if_pos h, shownChar_of_ascii h]

/-- Any other byte is no character. -/
theorem run_eepromColumn_high {a : ℕ} (h : ¬ e.value a < 0x80) (columns : List Char × List Char) :
    (eepromColumn columns a).run e.port s =
      (.error .unicodeDecodeError, { s with pending := [] }) := by
  simp only [eepromColumn, run_bind, run_eepromRead, andThen_ok, e.decimal, orRaise, run_pure,
    toByte_toNat, decodeByte, if_neg h, run_raise, andThen_error]

/-- The bytes of a row are shown up to the first that is no character. -/
theorem run_columns (e : Eeprom) (y : ℕ) (xs : List ℕ) (columns : List Char × List Char)
    (s : Console) :
    ∃ t, t.out = s.out ∧
      (xs.foldlM (fun columns x => eepromColumn columns (y * width + x)) columns).run e.port s =
        (if ∀ x ∈ xs, e.value (y * width + x) < 0x80 then
          .ok (columns.1 ++ xs.flatMap fun x =>
              ' ' :: Hex.lowerText 2 (e.value (y * width + x)).toNat,
            columns.2 ++ xs.map fun x => shownChar (e.value (y * width + x)))
        else .error .unicodeDecodeError, t) := by
  induction xs generalizing columns s with
  | nil => exact ⟨s, rfl, by simp⟩
  | cons x xs ih =>
    rw [List.foldlM_cons, run_bind]
    by_cases hx : e.value (y * width + x) < 0x80
    · obtain ⟨t, ht, hrun⟩ := ih _ { s with pending := [] }
      refine ⟨t, ht, ?_⟩
      rw [run_eepromColumn_ascii hx, andThen_ok, hrun]
      simp [hx]
    · refine ⟨{ s with pending := [] }, rfl, ?_⟩
      rw [run_eepromColumn_high hx, andThen_error, if_neg]
      exact fun hall => hx (hall x (List.mem_cons_self ..))

/-! ### The rows -/

/-- All bytes of a row are characters. -/
def RowAscii (e : Eeprom) (y : ℕ) : Prop := ∀ x ∈ List.range width, e.value (y * width + x) < 0x80

instance (e : Eeprom) (y : ℕ) : Decidable (RowAscii e y) :=
  inferInstanceAs (Decidable (∀ x ∈ List.range width, _))

/-- The row of the bytes from `16 * y` on. -/
def rowText (e : Eeprom) (y : ℕ) : List Char :=
  ['0', 'x'] ++ Hex.lowerText 4 (y * 16) ++ [' ', ' '] ++
    ((List.range 16).flatMap fun x => ' ' :: Hex.lowerText 2 (e.value (y * 16 + x)).toNat) ++
    [' ', ' ', '|'] ++ ((List.range 16).map fun x => shownChar (e.value (y * 16 + x))) ++
    ['|', '\n']

theorem run_eepromRow (e : Eeprom) (y : ℕ) (s : Console) :
    ∃ t, (RowAscii e y → t.out = s.out ++ rowText e y) ∧
      (eepromRow y).run e.port s =
        (if RowAscii e y then .ok () else .error .unicodeDecodeError, t) := by
  obtain ⟨t, ht, hrun⟩ := run_columns e y (List.range width) ([' '], [])
    { s with out := s.out ++ (['0', 'x'] ++ Hex.lowerText 4 (y * width) ++ [' ']) }
  rw [eepromRow, run_bind, run_perform, Eeprom.port, andThen_ok, run_bind, hrun]
  by_cases hrow : RowAscii e y
  · have hall : ∀ x ∈ List.range width, e.value (y * width + x) < 0x80 := hrow
    rw [if_pos hrow, if_pos hall, andThen_ok, run_perform]
    refine ⟨_, fun _ => ?_, rfl⟩
    simp only [ht, rowText, width, List.append_assoc, List.cons_append, List.nil_append]
  · have hall : ¬ ∀ x ∈ List.range width, e.value (y * width + x) < 0x80 := hrow
    rw [if_neg hrow, if_neg hall]
    exact ⟨t, fun h => absurd h hrow, rfl⟩

theorem run_rows (e : Eeprom) (ys : List ℕ) (s : Console) :
    ∃ t, ((∀ y ∈ ys, RowAscii e y) → t.out = s.out ++ ys.flatMap (rowText e)) ∧
      (ys.forM eepromRow).run e.port s =
        (if ∀ y ∈ ys, RowAscii e y then .ok () else .error .unicodeDecodeError, t) := by
  induction ys generalizing s with
  | nil => exact ⟨s, fun _ => by simp, rfl⟩
  | cons y ys ih =>
    obtain ⟨t, ht, hrun⟩ := run_eepromRow e y s
    rw [List.forM_eq_forM, List.forM_cons, run_bind, hrun]
    by_cases hy : RowAscii e y
    · obtain ⟨u, hu, hrest⟩ := ih t
      refine ⟨u, fun hall => ?_, ?_⟩
      · rw [hu fun z hz => hall z (List.mem_cons_of_mem y hz), ht hy, List.flatMap_cons,
          List.append_assoc]
      · rw [if_pos hy, andThen_ok]
        rw [List.forM_eq_forM] at hrest
        rw [hrest]
        simp [hy]
    · refine ⟨t, fun hall => absurd (hall y (List.mem_cons_self ..)) hy, ?_⟩
      rw [if_neg hy, andThen_error, if_neg]
      exact fun hall => hy (hall y (List.mem_cons_self ..))

/-- The rows that are to be printed. -/
def rowCount (bytecount : ℕ) : ℕ := (bytecount + 15) / 16

/-- `eeprom_print` finishes, and has printed every row. -/
def Prints (e : Eeprom) (bytecount : ℕ) (s : Console) : Prop :=
  ∃ t, (eepromPrint bytecount).run e.port s = (.ok (), t) ∧
    t.out = s.out ++ (List.range (rowCount bytecount)).flatMap (rowText e)

/-- Rows that are not empty can be counted. -/
theorem range_flatMap_injective {α : Type} {f : ℕ → List α} (hf : ∀ i, f i ≠ []) {m k : ℕ}
    (h : (List.range m).flatMap f = (List.range (m + k)).flatMap f) : k = 0 := by
  rw [List.range_add, List.flatMap_append] at h
  have hrest := List.append_cancel_left ((List.append_nil _).trans h)
  cases k with
  | zero => rfl
  | succ k =>
    rw [List.range_succ_eq_map, List.map_cons, List.flatMap_cons] at hrest
    exact absurd (List.append_eq_nil_iff.mp hrest.symm).1 (hf _)

theorem rowCount_of_text {m k : ℕ} (h : (List.range m).flatMap (rowText e) =
    (List.range k).flatMap (rowText e)) : m = k := by
  have hne : ∀ y, rowText e y ≠ [] := fun y => by simp [rowText]
  rcases Nat.le_total m k with hle | hle
  · obtain ⟨d, rfl⟩ := Nat.exists_eq_add_of_le hle
    rw [range_flatMap_injective hne h, Nat.add_zero]
  · obtain ⟨d, rfl⟩ := Nat.exists_eq_add_of_le hle
    rw [range_flatMap_injective hne h.symm, Nat.add_zero]

/-- The rows cover the addresses below sixteen times their number. -/
theorem forall_rowAscii_iff (e : Eeprom) (m : ℕ) :
    (∀ y ∈ List.range m, RowAscii e y) ↔ ∀ a, a < 16 * m → e.value a < 0x80 := by
  unfold RowAscii width
  simp only [List.mem_range]
  constructor
  · intro h a ha
    have hrow := h (a / 16) (by omega) (a % 16) (by omega)
    have hsplit : a / 16 * 16 + a % 16 = a := by omega
    rwa [hsplit] at hrow
  · exact fun h y hy x hx => h _ (by omega)

theorem ascii_of_prints {bytecount : ℕ} (h : Prints e bytecount s) :
    (∀ a, a < 16 * rowCount bytecount → e.value a < 0x80) ∧
      ceilDiv16 bytecount = some (rowCount bytecount) := by
  obtain ⟨u, hu, hout⟩ := h
  unfold eepromPrint at hu
  cases hlines : ceilDiv16 bytecount with
  | none => simp [orRaise, hlines] at hu
  | some m =>
    obtain ⟨t, ht, hrun⟩ := run_rows e (List.range m) s
    rw [hlines, orRaise, run_bind, run_pure, andThen_ok, hrun] at hu
    have hall : ∀ y ∈ List.range m, RowAscii e y := by
      by_contra hall
      rw [if_neg hall] at hu
      cases hu
    obtain rfl : t = u := congrArg Prod.snd hu
    have hm : m = rowCount bytecount :=
      rowCount_of_text (List.append_cancel_left ((ht hall).symm.trans hout))
    rw [hm] at hall
    exact ⟨(forall_rowAscii_iff e _).mp hall, by rw [hm]⟩

theorem prints_of_ascii {bytecount : ℕ}
    (hascii : ∀ a, a < 16 * rowCount bytecount → e.value a < 0x80)
    (hlines : ceilDiv16 bytecount = some (rowCount bytecount)) : Prints e bytecount s := by
  obtain ⟨t, ht, hrun⟩ := run_rows e (List.range (rowCount bytecount)) s
  have hall := (forall_rowAscii_iff e _).mpr hascii
  refine ⟨t, ?_, ht hall⟩
  rw [eepromPrint, hlines, orRaise, run_bind, run_pure, andThen_ok, hrun, if_pos hall]

/-- The double next to the number of bytes is in the same row. -/
def SameRow (n : ℕ) : Prop := roundDouble n < 2 ^ 1028 ∧ rowCount (roundDouble n) = rowCount n

theorem ceilDiv16_eq_iff : ceilDiv16 n = some (rowCount n) ↔ SameRow n := by
  unfold ceilDiv16 SameRow
  constructor
  · intro h
    split at h
    case isTrue hlt => exact ⟨hlt, Option.some.inj h⟩
    case isFalse => cases h
  · rintro ⟨hlt, hrow⟩
    rw [if_pos hlt, ← hrow, rowCount]

/-- An EEPROM is printed exactly if none of the bytes shown has its highest bit set, and the number
of bytes is not rounded into another row. -/
theorem prints_iff (e : Eeprom) (bytecount : ℕ) (s : Console) :
    Prints e bytecount s ↔
      (∀ a, a < 16 * rowCount bytecount → e.value a < 0x80) ∧ SameRow bytecount := by
  rw [← ceilDiv16_eq_iff]
  constructor
  · exact ascii_of_prints
  · intro h
    exact prints_of_ascii h.1 h.2

theorem roundDouble_of_le (h : n ≤ 2 ^ 53) : roundDouble n = n := by
  rcases Nat.lt_or_eq_of_le h with hlt | rfl
  · have hlog : Nat.log2 n ≤ 52 := by
      rcases Nat.eq_zero_or_pos n with rfl | hpos
      · decide
      · exact Nat.le_of_lt_succ ((Nat.log2_lt (by omega)).mpr hlt)
    have he : Nat.log2 n - 52 = 0 := by omega
    simp [roundDouble, he, Nat.mod_one]
  · rfl

/-- No number up to 2^53 is rounded at all. -/
theorem sameRow_of_le (h : n ≤ 2 ^ 53) : SameRow n := by
  have hpow : ∀ k, 53 < k → n < 2 ^ k := fun k hk =>
    Nat.lt_of_le_of_lt h (Nat.pow_lt_pow_right (by decide) hk)
  rw [SameRow, roundDouble_of_le h]
  exact ⟨hpow _ (by decide), rfl⟩

end

/-! ### An erased EEPROM -/

theorem not_isWhitespace_of_isDigit {c : Char} (h : c.isDigit) : c.isWhitespace = false := by
  rw [Bool.eq_false_iff]
  intro hspace
  simp only [Char.isWhitespace, Bool.or_eq_true, decide_eq_true_eq] at hspace
  rcases hspace with ((rfl | rfl) | rfl) | rfl <;> cases h

theorem pyInt_toDigits (n : ℕ) : pyInt (Nat.toDigits 10 n ++ ['\r', '\n']) = some (n : ℤ) := by
  have hall : ∀ c ∈ Nat.toDigits 10 n, c.isWhitespace = false := fun c hc =>
    not_isWhitespace_of_isDigit (Decimal.isDigit_of_mem hc)
  have hkeep : ∀ l : List Char, (∀ c ∈ l, c.isWhitespace = false) →
      l.dropWhile Char.isWhitespace = l := by
    intro l hl
    cases l with
    | nil => rfl
    | cons c l => exact List.dropWhile_cons_of_neg (by simp [hl c (List.mem_cons_self ..)])
  obtain ⟨c, ds, hds, hplus, hminus⟩ := Decimal.exists_cons_toDigits n
  have hfront : (Nat.toDigits 10 n ++ ['\r', '\n']).dropWhile Char.isWhitespace =
      Nat.toDigits 10 n ++ ['\r', '\n'] := by
    have hc : c.isWhitespace = false := hall c (hds ▸ List.mem_cons_self ..)
    rw [hds]
    exact List.dropWhile_cons_of_neg (by simp [hc])
  have hback : (Nat.toDigits 10 n ++ ['\r', '\n']).rdropWhile Char.isWhitespace =
      Nat.toDigits 10 n := by
    have hrev := hkeep (Nat.toDigits 10 n).reverse fun c hc => hall c (List.mem_reverse.mp hc)
    simp [List.rdropWhile, List.reverse_append, hrev]
  have hvalue : digitsValue (Nat.toDigits 10 n) = some (n : ℤ) := by
    have hdigits : (Nat.toDigits 10 n).all Char.isDigit = true :=
      List.all_eq_true.mpr fun c hc => Decimal.isDigit_of_mem hc
    rw [digitsValue, if_pos ⟨Nat.toDigits_ne_nil, hdigits⟩, Nat.ofDigitChars_ten_toDigits]
  unfold pyInt
  rw [hfront, hback]
  split
  case h_1 rest heq =>
    rw [hds] at heq
    exact absurd (List.cons.inj heq).1 hminus
  case h_2 rest heq =>
    rw [hds] at heq
    exact absurd (List.cons.inj heq).1 hplus
  case h_3 => exact hvalue

/-- A micon that answers with the digits and the end of the line. -/
def Eeprom.plain (value : ℕ → UInt8) : Eeprom where
  value := value
  reply a := Nat.toDigits 10 (value a).toNat ++ ['\r', '\n']
  decimal _ := pyInt_toDigits _

/-- Erased bytes have all bits set. -/
def erased : Eeprom := .plain fun _ => 0xff

theorem not_prints :
    ¬ ∀ (e : Eeprom) (bytecount : ℕ) (s : Console), Prints e bytecount s := by
  intro h
  have hascii := (ascii_of_prints (h erased 16 ⟨[], []⟩)).1 0 (by decide)
  exact absurd hascii (by decide)

end BuffaloNas.Micon
