import Mathlib.Data.Nat.Digits.Defs
import Mathlib.Tactic.Ring

/-! Hexadecimal text: printed with a least number of digits, and read back. -/
namespace Hex

/-- Base-16 digits, most significant first, zeros in front up to `w` of them. -/
def digits (w n : ℕ) : List ℕ :=
  (Nat.digits 16 n ++ List.replicate (w - (Nat.digits 16 n).length) 0).reverse

/-- `%0wX` -/
def text (w n : ℕ) : List Char := (digits w n).map fun d => d.digitChar.toUpper

/-- `%0wx` -/
def lowerText (w n : ℕ) : List Char := (digits w n).map Nat.digitChar

def value (c : Char) : Option ℕ :=
  if '0' ≤ c ∧ c ≤ '9' then some (c.toNat - '0'.toNat)
  else if 'a' ≤ c ∧ c ≤ 'f' then some (c.toNat - 'a'.toNat + 10)
  else if 'A' ≤ c ∧ c ≤ 'F' then some (c.toNat - 'A'.toNat + 10)
  else none

/-- Digits are taken as long as there are any. -/
def read (acc : ℕ) : List Char → ℕ
  | [] => acc
  | c :: cs =>
    match value c with
    | some d => read (16 * acc + d) cs
    | none => acc

/-! ### Digits -/

theorem digits_zero_zero : digits 0 0 = [] := by simp [digits]

theorem digits_succ (w n : ℕ) : digits (w + 1) n = digits w (n / 16) ++ [n % 16] := by
  rcases Nat.eq_zero_or_pos n with rfl | hn
  · have h : ∀ k, digits k 0 = List.replicate k 0 := by simp [digits]
    rw [h, Nat.zero_div, h, List.replicate_succ']
  · rw [digits, digits, Nat.digits_def' (by decide) hn]
    simp

/-- The two lowest digits are those of the lowest byte. -/
theorem digits_add_two (w n : ℕ) :
    digits (w + 2) n = digits w (n / 256) ++ [n / 16 % 16, n % 16] := by
  rw [digits_succ, digits_succ, Nat.div_div_eq_div_mul, List.append_assoc]
  rfl

/-- Without a width the leading digit is not zero. -/
theorem digits_zero_pos {n : ℕ} (hn : 0 < n) : digits 0 n = digits 0 (n / 16) ++ [n % 16] := by
  rw [digits, digits, Nat.digits_def' (by decide) hn]
  simp

theorem digits_lt {w n d : ℕ} (h : d ∈ digits w n) : d < 16 := by
  rw [digits, List.mem_reverse, List.mem_append] at h
  rcases h with h | h
  · exact Nat.digits_lt_base (by decide) h
  · rw [List.eq_of_mem_replicate h]
    decide

/-! ### Reading back -/

theorem value_digit {d : ℕ} (h : d < 16) :
    value d.digitChar.toUpper = some d ∧ value d.digitChar = some d := by
  have key : ∀ d : Fin 16, value (Nat.digitChar d).toUpper = some d.val ∧
      value (Nat.digitChar d) = some d.val := by decide
  exact key ⟨d, h⟩

/-- Reading digits is evaluating them. -/
theorem read_map {print : ℕ → Char} (hp : ∀ d < 16, value (print d) = some d) {ds : List ℕ}
    (hd : ∀ d ∈ ds, d < 16) (acc : ℕ) (rest : List Char) :
    read acc (ds.map print ++ rest) = read (ds.foldl (fun acc d => 16 * acc + d) acc) rest := by
  induction ds generalizing acc with
  | nil => rfl
  | cons d ds ih =>
    rw [List.map_cons, List.cons_append, read, hp d (hd d (List.mem_cons_self ..))]
    exact ih (fun e he => hd e (List.mem_cons_of_mem d he)) _

theorem foldl_digits {w n : ℕ} (h : n < 16 ^ w) (acc : ℕ) :
    (digits w n).foldl (fun acc d => 16 * acc + d) acc = acc * 16 ^ w + n := by
  induction w generalizing n with
  | zero =>
    obtain rfl : n = 0 := by simpa using h
    simp [digits_zero_zero]
  | succ w ih =>
    have hn : n / 16 < 16 ^ w := by
      rw [pow_succ] at h
      omega
    rw [digits_succ, List.foldl_append, ih hn, List.foldl_cons, List.foldl_nil, pow_succ]
    have := Nat.div_add_mod n 16
    rw [Nat.mul_add]
    linarith

theorem foldl_digits_zero (w n : ℕ) :
    (digits w n).foldl (fun acc d => 16 * acc + d) 0 = n := by
  induction w generalizing n with
  | zero =>
    induction n using Nat.strongRecOn with
    | ind n ih =>
      rcases Nat.eq_zero_or_pos n with rfl | hn
      · simp [digits_zero_zero]
      · rw [digits_zero_pos hn, List.foldl_append, ih _ (Nat.div_lt_self hn (by decide))]
        exact Nat.div_add_mod n 16
  | succ w ih =>
    rw [digits_succ, List.foldl_append, ih]
    exact Nat.div_add_mod n 16

/-- Printed numbers are read back, whatever the width. -/
theorem read_text (w n : ℕ) (rest : List Char) : read 0 (text w n ++ rest) = read n rest := by
  rw [text, read_map (fun d hd => (value_digit hd).1) (fun d hd => digits_lt hd),
    foldl_digits_zero]

theorem text_inj {w m n : ℕ} : text w m = text w n ↔ m = n := by
  refine ⟨fun h => ?_, fun h => h ▸ rfl⟩
  have hm := read_text w m []
  rw [h, read_text] at hm
  exact hm.symm

/-- A number of at most `w` digits continues the one read before. -/
theorem read_text_acc {w n : ℕ} (h : n < 16 ^ w) (acc : ℕ) :
    read acc (text w n) = acc * 16 ^ w + n := by
  have := read_map (fun d hd => (value_digit hd).1) (fun d hd => digits_lt (w := w) (n := n) hd)
    acc []
  rw [List.append_nil] at this
  rw [text, this, foldl_digits h]
  rfl

end Hex
