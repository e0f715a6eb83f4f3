import Mathlib.Data.List.Basic
import Mathlib.Algebra.Order.Group.Nat

/-! Stores to regions of a memory, one after the other, and rounding up to blocks. -/
namespace Memory

variable {α : Type}

/-- A stretch of addresses. -/
structure Span where
  start : ℕ
  len : ℕ

def Span.Covers (s : Span) (b : ℕ) : Prop := s.start ≤ b ∧ b < s.start + s.len

instance (s : Span) (b : ℕ) : Decidable (s.Covers b) := inferInstanceAs (Decidable (_ ∧ _))

/-- No address belongs to both. -/
def Span.Apart (s t : Span) : Prop := s.start + s.len ≤ t.start ∨ t.start + t.len ≤ s.start

theorem Span.Apart.not_covers {s t : Span} (h : s.Apart t) {b : ℕ} (hb : s.Covers b) :
    ¬ t.Covers b := by
  rintro ⟨h1, h2⟩
  obtain ⟨h3, h4⟩ := hb
  rcases h with h | h <;> omega

/-- A span and what is stored there. -/
structure Region (α : Type) extends Span where
  content : ℕ → α

namespace Region

def store (m : ℕ → α) (r : Region α) : ℕ → α :=
  fun b => if r.Covers b then r.content (b - r.start) else m b

theorem store_covers {m : ℕ → α} {r : Region α} {b : ℕ} (h : r.Covers b) :
    store m r b = r.content (b - r.start) := if_pos h

theorem store_not_covers {m : ℕ → α} {r : Region α} {b : ℕ} (h : ¬ r.Covers b) :
    store m r b = m b := if_neg h

/-- Frame: what no region covers is left as it was. -/
theorem foldl_store_frame {rs : List (Region α)} {b : ℕ} (h : ∀ r ∈ rs, ¬ r.Covers b)
    (m : ℕ → α) : rs.foldl store m b = m b := by
  induction rs generalizing m with
  | nil => rfl
  | cons r rs ih =>
    rw [List.foldl_cons, ih fun s hs => h s (List.mem_cons_of_mem r hs)]
    exact store_not_covers (h r (List.mem_cons_self ..))

/-- Each of several regions apart from one another keeps what was stored there. -/
theorem foldl_store_covers {rs : List (Region α)}
    (hp : rs.Pairwise fun r s => r.Apart s.toSpan) {r : Region α} (hr : r ∈ rs) {b : ℕ}
    (hb : r.Covers b) (m : ℕ → α) :
    rs.foldl store m b = r.content (b - r.start) := by
  induction rs generalizing m with
  | nil => cases hr
  | cons s rs ih =>
    obtain ⟨hs, hp⟩ := List.pairwise_cons.mp hp
    rcases List.mem_cons.mp hr with rfl | hr
    · rw [List.foldl_cons, foldl_store_frame fun t ht => (hs t ht).not_covers hb]
      exact store_covers hb
    · exact ih hp hr _

end Region

/-! ### Whole blocks -/

/-- The least multiple of `a` from `n` on. -/
def ceilTo (a n : ℕ) : ℕ := (n + a - 1) / a * a

theorem dvd_ceilTo (a n : ℕ) : a ∣ ceilTo a n := Nat.dvd_mul_left a _

theorem le_ceilTo {a : ℕ} (ha : 0 < a) (n : ℕ) : n ≤ ceilTo a n := by
  have h1 := Nat.div_add_mod (n + a - 1) a
  have h2 := Nat.mod_lt (n + a - 1) ha
  rw [Nat.mul_comm] at h1
  rw [ceilTo]
  omega

theorem ceilTo_le {a n m : ℕ} (ha : 0 < a) (h : n ≤ m) (hd : a ∣ m) : ceilTo a n ≤ m := by
  obtain ⟨q, rfl⟩ := hd
  have hq : (n + a - 1) / a < q + 1 := by
    apply Nat.div_lt_of_lt_mul
    rw [Nat.mul_succ]
    omega
  rw [ceilTo, Nat.mul_comm a q]
  exact Nat.mul_le_mul_right a (Nat.le_of_lt_succ hq)

theorem ceilTo_zero {a : ℕ} (ha : 0 < a) : ceilTo a 0 = 0 :=
  Nat.le_zero.mp (ceilTo_le ha (Nat.le_refl 0) (Nat.dvd_zero a))

/-- Rounding to smaller blocks that divide the larger ones stays within these. -/
theorem ceilTo_le_ceilTo {a b : ℕ} (ha : 0 < a) (hb : 0 < b) (hab : a ∣ b) (n : ℕ) :
    ceilTo a n ≤ ceilTo b n :=
  ceilTo_le ha (le_ceilTo hb n) (Nat.dvd_trans hab (dvd_ceilTo b n))

end Memory
