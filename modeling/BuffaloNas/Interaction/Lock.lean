import BuffaloNas.Interaction.Only

/-! Programs that take a lock, and what they do only while they hold it. -/
namespace Interaction

variable {Op : Type} {Ans : Op → Type} {ε α β : Type}

/-- What an operation has to do with a lock: some are for its holder only. -/
inductive Part
  | lock
  | unlock
  | guarded
  | free
  deriving DecidableEq

namespace Program

variable {part : Op → Part} {held mid left : Bool}

/-- From `held` to `left`, the program takes the lock only without it, and gives it back and
performs guarded operations only with it. An error may leave it taken. -/
def Locks (part : Op → Part) : Program Op Ans ε α → Bool → Bool → Prop
  | done _, held, left => held = left
  | raise _, _, _ => True
  | call o k, held, left =>
    match part o with
    | .lock => held = false ∧ ∀ r, (k r).Locks part true left
    | .unlock => held = true ∧ ∀ r, (k r).Locks part false left
    | .guarded => held = true ∧ ∀ r, (k r).Locks part held left
    | .free => ∀ r, (k r).Locks part held left

theorem locks_pure (a : α) : (pure a : Program Op Ans ε α).Locks part held held := rfl

theorem locks_bind {p : Program Op Ans ε α} {f : α → Program Op Ans ε β}
    (hp : p.Locks part held mid) (hf : ∀ a, (f a).Locks part mid left) :
    (p >>= f).Locks part held left := by
  rw [bind_eq]
  induction p generalizing held with
  | done a =>
    obtain rfl : held = mid := hp
    exact hf a
  | raise e => trivial
  | call o k ih =>
    rw [Program.bind, Locks]
    rw [Locks] at hp
    split at hp
    case h_4 => exact fun r => ih r (hp r)
    all_goals exact ⟨hp.1, fun r => ih r (hp.2 r)⟩

theorem locks_map {p : Program Op Ans ε α} (f : α → β) (hp : p.Locks part held left) :
    (f <$> p).Locks part held left := by
  rw [map_eq_pure_bind]
  exact locks_bind hp fun _ => rfl

theorem locks_ite {c : Prop} [Decidable c] {p q : Program Op Ans ε α}
    (hp : c → p.Locks part held left) (hq : ¬ c → q.Locks part held left) :
    (if c then p else q).Locks part held left := by
  split
  case isTrue h => exact hp h
  case isFalse h => exact hq h

/-- The operation leaves the lock alone. -/
def Part.Inner (part : Op → Part) (o : Op) : Prop := part o = .guarded ∨ part o = .free

/-- The holder of the lock may do anything but take it again. -/
theorem locks_of_only {p : Program Op Ans ε α} (h : p.Only (Part.Inner part)) :
    p.Locks part true true := by
  induction p with
  | done a => rfl
  | raise e => trivial
  | call o k ih =>
    obtain ⟨ho, hk⟩ := h
    rw [Locks]
    obtain ho | ho := ho
    · rw [ho]
      exact ⟨rfl, fun r => ih r (hk r)⟩
    · rw [ho]
      exact fun r => ih r (hk r)

/-- A part of a program that is performed under the lock. -/
theorem locks_inner {p : Program Op Ans ε α} {f : α → Program Op Ans ε β}
    (hp : p.Only (Part.Inner part)) (hf : ∀ a, (f a).Locks part true left) :
    (p >>= f).Locks part true left := locks_bind (locks_of_only hp) hf

end Program

end Interaction
