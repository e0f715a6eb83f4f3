import Mathlib.Algebra.Order.Group.Int
import Mathlib.Algebra.Order.Group.Abs
import Mathlib.Data.List.Basic

/-! The search of a descending table for the entry nearest to a number. -/
namespace Nearest

variable {a : ℕ → ℕ} {n f i j : ℕ}

/-- The first entry that the number is nearer to than to the next one, or the last entry. -/
def search (a : ℕ → ℕ) (n f : ℕ) : ℕ :=
  ((List.range n).find? fun i => (a i + a (i + 1)) / 2 < f).getD n

theorem search_spec (a : ℕ → ℕ) (n f : ℕ) :
    search a n f ≤ n ∧
      (search a n f < n → (a (search a n f) + a (search a n f + 1)) / 2 < f) ∧
      ∀ j, j < search a n f → f ≤ (a j + a (j + 1)) / 2 := by
  unfold search
  cases h : (List.range n).find? fun i => (a i + a (i + 1)) / 2 < f with
  | none =>
    rw [List.find?_range_eq_none] at h
    exact ⟨le_refl n, fun hlt => absurd hlt (lt_irrefl n), fun j hj => by simpa using h j hj⟩
  | some i =>
    rw [List.find?_range_eq_some] at h
    obtain ⟨hi, hmem, hbefore⟩ := h
    have hlt : i < n := List.mem_range.mp hmem
    exact ⟨hlt.le, fun _ => by simpa using hi, fun j hj => by simpa using hbefore j hj⟩

/-- Rounding the midpoints down does no harm, so no entry is nearer than the one that is found. -/
theorem search_nearest (ha : ∀ i j, i ≤ j → j ≤ n → a j ≤ a i) (hj : j ≤ n) :
    |(a (search a n f) : ℤ) - f| ≤ |(a j : ℤ) - f| := by
  obtain ⟨hle, hfound, hbefore⟩ := search_spec a n f
  generalize search a n f = i at hle hfound hbefore
  rcases Nat.lt_trichotomy i j with hlt | rfl | hlt
  · have hmid := hfound (by omega)
    have hnext := ha (i + 1) j hlt hj
    have hfirst := ha i (i + 1) (by omega) (by omega)
    rcases abs_cases ((a i : ℤ) - f) with ⟨h, hs⟩ | ⟨h, hs⟩ <;>
      rcases abs_cases ((a j : ℤ) - f) with ⟨h', hs'⟩ | ⟨h', hs'⟩ <;> omega
  · exact le_refl _
  · have hmid := hbefore (i - 1) (by omega)
    have hprev := ha j (i - 1) (by omega) (by omega)
    have hlast := ha (i - 1) i (by omega) hle
    rw [Nat.sub_add_cancel (by omega)] at hmid
    rcases abs_cases ((a i : ℤ) - f) with ⟨h, hs⟩ | ⟨h, hs⟩ <;>
      rcases abs_cases ((a j : ℤ) - f) with ⟨h', hs'⟩ | ⟨h', hs'⟩ <;> omega

end Nearest
