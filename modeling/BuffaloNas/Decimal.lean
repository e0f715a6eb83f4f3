import Mathlib.Data.Int.Notation
import Mathlib.Data.Nat.Notation
import Mathlib.Tactic.Ring

/-! Decimal text: numbers printed, and read where nothing but a number may stand. -/
namespace Decimal

/-- `%d` -/
def text (n : ℤ) : List Char :=
  if n < 0 then '-' :: Nat.toDigits 10 n.natAbs else Nat.toDigits 10 n.natAbs

/-- Digits, at least one, and after them at most a newline. -/
def magnitude (s : List Char) : Option ℕ :=
  let digits := s.takeWhile Char.isDigit
  let rest := s.dropWhile Char.isDigit
  if digits ≠ [] ∧ (rest = [] ∨ rest = ['\n']) then some (Nat.ofDigitChars 10 digits 0) else none

def afterPlus : List Char → List Char
  | '+' :: s => s
  | s => s

/-- A number of at most `bits` bits, with or without a plus. -/
def unsigned (bits : ℕ) (s : List Char) : Option ℕ :=
  (magnitude (afterPlus s)).filter (· < 2 ^ bits)

/-- A two's complement number of `bits` bits; nothing stands between a minus and the digits. -/
def signed (bits : ℕ) : List Char → Option ℤ
  | '-' :: s => ((magnitude s).filter (· ≤ 2 ^ (bits - 1))).map fun n : ℕ => -(n : ℤ)
  | s => ((magnitude (afterPlus s)).filter (· < 2 ^ (bits - 1))).map fun n : ℕ => (n : ℤ)

/-! ### Printed and read back -/

theorem isDigit_of_mem {n : ℕ} {c : Char} (h : c ∈ Nat.toDigits 10 n) : c.isDigit :=
  Nat.isDigit_of_mem_toDigits (by decide) (by decide) h

/-- Printed digits begin with a digit, so with neither sign. -/
theorem exists_cons_toDigits (n : ℕ) :
    ∃ c s, Nat.toDigits 10 n = c :: s ∧ c ≠ '+' ∧ c ≠ '-' := by
  cases h : Nat.toDigits 10 n with
  | nil => exact absurd h Nat.toDigits_ne_nil
  | cons c s =>
    have hc : c.isDigit := isDigit_of_mem (n := n) (h ▸ List.mem_cons_self ..)
    refine ⟨c, s, rfl, ?_, ?_⟩
    · rintro rfl
      cases hc
    · rintro rfl
      cases hc

theorem magnitude_toDigits (n : ℕ) : magnitude (Nat.toDigits 10 n ++ ['\n']) = some n := by
  have htake : (Nat.toDigits 10 n ++ ['\n']).takeWhile Char.isDigit = Nat.toDigits 10 n := by
    rw [List.takeWhile_append_of_pos fun c hc => isDigit_of_mem hc]
    simp
  have hdrop : (Nat.toDigits 10 n ++ ['\n']).dropWhile Char.isDigit = ['\n'] := by
    rw [List.dropWhile_append_of_pos fun c hc => isDigit_of_mem hc]
    simp
  simp [magnitude, htake, hdrop, Nat.toDigits_ne_nil, Nat.ofDigitChars_ten_toDigits]

theorem afterPlus_toDigits (n : ℕ) (s : List Char) :
    afterPlus (Nat.toDigits 10 n ++ s) = Nat.toDigits 10 n ++ s := by
  obtain ⟨c, t, h, hp, -⟩ := exists_cons_toDigits n
  rw [h, List.cons_append, afterPlus]
  intro u hu
  exact hp (List.cons.inj hu).1

theorem text_natCast (n : ℕ) : text n = Nat.toDigits 10 n := by
  simp [text]

/-- A printed natural number that fits is read back, with the newline printed after it. -/
theorem unsigned_text {bits n : ℕ} (h : n < 2 ^ bits) :
    unsigned bits (text n ++ ['\n']) = some n := by
  rw [unsigned, text_natCast, afterPlus_toDigits, magnitude_toDigits]
  simp [h]

theorem signed_text_natCast {bits n : ℕ} (h : n < 2 ^ (bits - 1)) :
    signed bits (text n ++ ['\n']) = some (n : ℤ) := by
  obtain ⟨c, s, hs, -, hm⟩ := exists_cons_toDigits n
  have hsigned : signed bits (Nat.toDigits 10 n ++ ['\n']) =
      ((magnitude (afterPlus (Nat.toDigits 10 n ++ ['\n']))).filter (· < 2 ^ (bits - 1))).map
        fun n : ℕ => (n : ℤ) := by
    rw [hs, List.cons_append, signed]
    intro t ht
    exact hm (List.cons.inj ht).1
  rw [text_natCast, hsigned, afterPlus_toDigits, magnitude_toDigits]
  simp [Option.filter, h]

/-- A printed integer that fits is read back, with the newline printed after it. -/
theorem signed_text {bits : ℕ} {n : ℤ} (hlow : -2 ^ (bits - 1) ≤ n) (hhigh : n < 2 ^ (bits - 1)) :
    signed bits (text n ++ ['\n']) = some n := by
  by_cases hn : n < 0
  · obtain ⟨k, rfl⟩ : ∃ k : ℕ, n = -k := ⟨n.natAbs, by omega⟩
    have hk : k ≤ 2 ^ (bits - 1) := by
      have : (k : ℤ) ≤ 2 ^ (bits - 1) := by omega
      exact_mod_cast this
    rw [text, if_pos hn, Int.natAbs_neg, Int.natAbs_natCast, List.cons_append, signed,
      magnitude_toDigits]
    simp [Option.filter, hk]
  · obtain ⟨k, rfl⟩ : ∃ k : ℕ, n = k := ⟨n.natAbs, by omega⟩
    exact signed_text_natCast (by exact_mod_cast hhigh)

/-- A printed natural number that fits is read back without a newline too. -/
theorem signed_digits {bits n : ℕ} (h : n < 2 ^ (bits - 1)) :
    signed bits (Nat.toDigits 10 n) = some (n : ℤ) := by
  have hdigits : ∀ c ∈ Nat.toDigits 10 n, c.isDigit := fun c hc => isDigit_of_mem hc
  have htake : (Nat.toDigits 10 n).takeWhile Char.isDigit = Nat.toDigits 10 n := by
    simpa using @List.takeWhile_append_of_pos _ Char.isDigit _ [] hdigits
  have hdrop : (Nat.toDigits 10 n).dropWhile Char.isDigit = [] := by
    simpa using @List.dropWhile_append_of_pos _ Char.isDigit _ [] hdigits
  have hread : magnitude (Nat.toDigits 10 n) = some n := by
    simp [magnitude, htake, hdrop, Nat.toDigits_ne_nil, Nat.ofDigitChars_ten_toDigits]
  have hplus := afterPlus_toDigits n []
  obtain ⟨c, s, hs, -, hm⟩ := exists_cons_toDigits n
  rw [List.append_nil] at hplus
  rw [hs] at hplus hread ⊢
  rw [signed, hplus, hread]
  · simp [Option.filter, h]
  · intro t ht
    exact hm (List.cons.inj ht).1

end Decimal
