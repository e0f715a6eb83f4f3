import Mathlib.Data.List.Basic
import Mathlib.Tactic.Ring
import Mathlib.Algebra.BigOperators.Group.List.Basic

/-! Byte strings: their byte sum and their little-endian reading. -/
namespace BuffaloNas

abbrev Bytes := List UInt8

def byteSum (bs : Bytes) : ℕ := (bs.map UInt8.toNat).sum

@[simp] theorem byteSum_nil : byteSum [] = 0 := rfl

@[simp] theorem byteSum_cons (b : UInt8) (bs : Bytes) :
    byteSum (b :: bs) = b.toNat + byteSum bs := by simp [byteSum]

@[simp] theorem byteSum_append (xs ys : Bytes) :
    byteSum (xs ++ ys) = byteSum xs + byteSum ys := by simp [byteSum]

/-- Summing from the left with an accumulator, as the sources' loops do. -/
theorem foldl_add_toNat (bs : Bytes) (n : ℕ) :
    bs.foldl (fun acc b => acc + b.toNat) n = n + byteSum bs := by
  induction bs generalizing n with
  | nil => rfl
  | cons b bs ih => rw [List.foldl_cons, ih, byteSum_cons, Nat.add_assoc]

/-- Reducing after every byte gives the same residue as reducing once at the end. -/
theorem foldl_add_mod (m : ℕ) (bs : Bytes) (n : ℕ) (hn : n < m) :
    bs.foldl (fun acc b => (acc + b.toNat) % m) n = (n + byteSum bs) % m := by
  induction bs generalizing n with
  | nil => exact (Nat.mod_eq_of_lt hn).symm
  | cons b bs ih =>
    rw [List.foldl_cons, ih _ (Nat.mod_lt _ (by omega)), byteSum_cons, Nat.mod_add_mod,
      Nat.add_assoc]

/-- Subtracting a limit of more than a byte once after every byte reduces modulo the limit. -/
theorem foldl_add_sub (m : ℕ) (bs : Bytes) (n : ℕ) (hm : 256 ≤ m) (hn : n < m) :
    bs.foldl (fun acc b => if m ≤ acc + b.toNat then acc + b.toNat - m else acc + b.toNat) n =
      (n + byteSum bs) % m := by
  rw [← foldl_add_mod m bs n hn]
  induction bs generalizing n with
  | nil => rfl
  | cons b bs ih =>
    have hb := b.toNat_lt
    have hstep : (if m ≤ n + b.toNat then n + b.toNat - m else n + b.toNat) =
        (n + b.toNat) % m := by
      split
      · rw [Nat.mod_eq_sub_mod (by omega), Nat.mod_eq_of_lt (by omega)]
      · exact (Nat.mod_eq_of_lt (by omega)).symm
    rw [List.foldl_cons, List.foldl_cons, hstep, ih _ (Nat.mod_lt _ (by omega))]

theorem byteSum_le (bs : Bytes) : byteSum bs ≤ 255 * bs.length := by
  induction bs with
  | nil => exact Nat.le_refl 0
  | cons b bs ih =>
    have hb := b.toNat_lt
    rw [byteSum_cons, List.length_cons]
    omega

/-! ### Byte errors -/

/-- In how many places two byte strings differ, as far as both go. -/
def distance (f g : Bytes) : ℕ := (f.zip g).countP fun p => p.1 ≠ p.2

theorem distance_cons (a b : UInt8) (f g : Bytes) :
    distance (a :: f) (b :: g) = distance f g + if a = b then 0 else 1 := by
  rw [distance, List.zip_cons_cons, List.countP_cons, distance]
  by_cases hab : a = b <;> simp [hab]

/-- Of one length, and different in exactly one place. -/
def OneOff (f g : Bytes) : Prop := f.length = g.length ∧ distance f g = 1

instance (f g : Bytes) : Decidable (OneOff f g) := inferInstanceAs (Decidable (_ ∧ _))

theorem eq_of_distance_eq_zero {f g : Bytes} (hl : f.length = g.length) (h : distance f g = 0) :
    f = g := by
  induction f generalizing g with
  | nil => exact (List.length_eq_zero_iff.mp hl.symm).symm
  | cons a f ih =>
    cases g with
    | nil => cases hl
    | cons b g =>
      rw [distance_cons] at h
      obtain ⟨htail, hab⟩ := Nat.add_eq_zero_iff.mp h
      have hhead : a = b := by
        by_contra hne
        rw [if_neg hne] at hab
        cases hab
      rw [hhead, ih (Nat.succ.inj hl) htail]

/-- Around the place everything is the same. -/
theorem exists_of_oneOff {f g : Bytes} (h : OneOff f g) :
    ∃ xs a b ys, a ≠ b ∧ f = xs ++ a :: ys ∧ g = xs ++ b :: ys := by
  obtain ⟨hl, hd⟩ := h
  induction f generalizing g with
  | nil => cases hd
  | cons a f ih =>
    cases g with
    | nil => cases hl
    | cons b g =>
      have hlen := Nat.succ.inj hl
      rw [distance_cons] at hd
      by_cases hab : a = b
      · rw [if_pos hab, Nat.add_zero] at hd
        obtain ⟨xs, c, d, ys, hne, rfl, rfl⟩ := ih hlen hd
        exact ⟨a :: xs, c, d, ys, hne, rfl, by rw [hab]; rfl⟩
      · rw [if_neg hab] at hd
        obtain rfl := eq_of_distance_eq_zero hlen (Nat.succ.inj hd)
        exact ⟨[], a, b, f, hab, rfl, rfl⟩

/-- A change of one byte changes the sum, whatever byte it is. -/
theorem byteSum_of_oneOff {f g : Bytes} (h : OneOff f g) :
    byteSum g % 256 ≠ byteSum f % 256 := by
  obtain ⟨xs, a, b, ys, hne, rfl, rfl⟩ := exists_of_oneOff h
  have ha := a.toNat_lt
  have hb := b.toNat_lt
  have hval : a.toNat ≠ b.toNat := fun he => hne (UInt8.toNat_inj.mp he)
  rw [byteSum_append, byteSum_append, byteSum_cons, byteSum_cons]
  omega

/-! ### Little-endian numbers -/

/-- The number that bytes spell, least significant byte first. -/
def leNat : Bytes → ℕ
  | [] => 0
  | b :: bs => b.toNat + 256 * leNat bs

/-- The `k` lowest bytes of a number. -/
def leBytes : ℕ → ℕ → Bytes
  | 0, _ => []
  | k + 1, n => UInt8.ofNat n :: leBytes k (n / 256)

@[simp] theorem length_leBytes (k n : ℕ) : (leBytes k n).length = k := by
  induction k generalizing n with
  | zero => rfl
  | succ k ih => rw [leBytes, List.length_cons, ih]

theorem leNat_leBytes {k n : ℕ} (h : n < 256 ^ k) : leNat (leBytes k n) = n := by
  induction k generalizing n with
  | zero =>
    obtain rfl : n = 0 := by simpa using h
    rfl
  | succ k ih =>
    have hn : n / 256 < 256 ^ k := by
      rw [pow_succ] at h
      omega
    rw [leBytes, leNat, ih hn, UInt8.toNat_ofNat']
    exact Nat.mod_add_div n 256

theorem leBytes_add (j k n : ℕ) :
    leBytes (j + k) n = leBytes j n ++ leBytes k (n / 256 ^ j) := by
  induction j generalizing n with
  | zero => simp [leBytes]
  | succ j ih =>
    rw [Nat.succ_add, leBytes, leBytes, ih, List.cons_append, Nat.div_div_eq_div_mul,
      Nat.pow_succ']

/-- Only the lowest `k` bytes of the number matter. -/
theorem leBytes_mod (k n : ℕ) : leBytes k (n % 256 ^ k) = leBytes k n := by
  induction k generalizing n with
  | zero => rfl
  | succ k ih =>
    have hb : UInt8.ofNat (n % 256 ^ (k + 1)) = UInt8.ofNat n := by
      apply UInt8.toNat_inj.mp
      simp only [UInt8.toNat_ofNat']
      exact Nat.mod_mod_of_dvd n (Dvd.intro_left (256 ^ k) rfl)
    rw [leBytes, leBytes, hb, Nat.pow_succ', Nat.mod_mul_right_div_self, ih]

end BuffaloNas
