import BuffaloNas.Interaction.Only
import Mathlib.Data.Multiset.AddSub

/-! Programs that take things and give them back: what they hold, whatever they are answered. -/
namespace Interaction

variable {Op Op' : Type} {Ans : Op → Type} {Ans' : Op' → Type} {ε α β σ R : Type} [DecidableEq R]

/-- What an answered operation gives back, and what it takes. -/
structure Entry (R : Type) where
  given : Multiset R
  taken : Multiset R

namespace Entry

def nothing : Entry R := ⟨0, 0⟩

def take (r : R) : Entry R := ⟨0, {r}⟩

def give (r : R) : Entry R := ⟨{r}, 0⟩

/-- Nothing can be given back that is not held. -/
def book (e : Entry R) (held : Multiset R) : Option (Multiset R) :=
  if e.given ≤ held then some (held - e.given + e.taken) else none

@[simp] theorem book_nothing (held : Multiset R) : (nothing : Entry R).book held = some held := by
  refine (if_pos (Multiset.zero_le held)).trans ?_
  simp [nothing]

@[simp] theorem book_take (r : R) (held : Multiset R) :
    (take r).book held = some (r ::ₘ held) := by
  refine (if_pos (Multiset.zero_le held)).trans ?_
  simp [take, Multiset.add_comm held, Multiset.singleton_add]

@[simp] theorem book_give (r : R) (held : Multiset R) :
    (give r).book (r ::ₘ held) = some held := by
  simp [book, give]

end Entry

/-- What the operations of a layer mean to the one who keeps the books. -/
abbrev Books (Op : Type) (Ans : Op → Type) (R : Type) := (o : Op) → Ans o → Entry R

namespace Program

variable {books : Books Op Ans R} {Q : α → Multiset R → Prop} {held : Multiset R}

/-- Whatever it is answered, the program gives back only what is held, and in the end `Q` is true
of its result and of what is held. -/
def Holds (books : Books Op Ans R) (Q : α → Multiset R → Prop) :
    Program Op Ans ε α → Multiset R → Prop
  | done a, held => Q a held
  | raise _, _ => True
  | call o k, held => ∀ r, ∃ rest, (books o r).book held = some rest ∧ (k r).Holds books Q rest

theorem holds_pure {a : α} (h : Q a held) :
    (pure a : Program Op Ans ε α).Holds books Q held := h

theorem holds_perform {o : Op} {Q : Ans o → Multiset R → Prop}
    (h : ∀ r, ∃ rest, (books o r).book held = some rest ∧ Q r rest) :
    (perform o : Program Op Ans ε (Ans o)).Holds books Q held := h

/-- An operation that takes something where it is granted. -/
theorem holds_taking {o : Op} {x : R} {g : Ans o → Prop} [DecidablePred g]
    (h : ∀ r, books o r = if g r then Entry.take x else Entry.nothing) :
    (perform o : Program Op Ans ε (Ans o)).Holds books
      (fun r rest => rest = if g r then x ::ₘ held else held) held := by
  refine holds_perform fun r => ?_
  rw [h r]
  by_cases hg : g r
  · rw [if_pos hg, if_pos hg]
    exact ⟨_, Entry.book_take x held, rfl⟩
  · rw [if_neg hg, if_neg hg]
    exact ⟨_, Entry.book_nothing held, rfl⟩

/-- An operation that takes something, and returns what it is. -/
theorem holds_allocating {γ : Type} {o : Op} {f : γ → R} {g : Ans o → Option γ}
    (h : ∀ r, books o r = (g r).elim Entry.nothing fun p => Entry.take (f p)) :
    (perform o : Program Op Ans ε (Ans o)).Holds books
      (fun r rest => rest = ((g r).elim 0 fun p => {f p}) + held) held := by
  refine holds_perform fun r => ?_
  rw [h r]
  cases g r with
  | none => exact ⟨held, Entry.book_nothing held, (Multiset.zero_add held).symm⟩
  | some p => exact ⟨_, Entry.book_take _ held, (Multiset.singleton_add _ held).symm⟩

theorem holds_giving {o : Op} {x : R} (h : ∀ r, books o r = Entry.give x) :
    (perform o : Program Op Ans ε (Ans o)).Holds books (fun _ rest => rest = held)
      (x ::ₘ held) := by
  refine holds_perform fun r => ⟨held, ?_, rfl⟩
  rw [h r]
  exact Entry.book_give x held

theorem Holds.mono {p : Program Op Ans ε α} {Q' : α → Multiset R → Prop}
    (h : p.Holds books Q held) (hq : ∀ a rest, Q a rest → Q' a rest) :
    p.Holds books Q' held := by
  induction p generalizing held with
  | done a => exact hq a held h
  | raise e => trivial
  | call o k ih =>
    intro r
    obtain ⟨rest, hrest, hk⟩ := h r
    exact ⟨rest, hrest, ih r hk⟩

theorem holds_bind {p : Program Op Ans ε α} {f : α → Program Op Ans ε β}
    {S : α → Multiset R → Prop} {Q : β → Multiset R → Prop} (hp : p.Holds books S held)
    (hf : ∀ a rest, S a rest → (f a).Holds books Q rest) : (p >>= f).Holds books Q held := by
  rw [bind_eq]
  induction p generalizing held with
  | done a => exact hf a held hp
  | raise e => trivial
  | call o k ih =>
    intro r
    obtain ⟨rest, hrest, hk⟩ := hp r
    exact ⟨rest, hrest, ih r hk⟩

theorem holds_ite {c : Prop} [Decidable c] {p q : Program Op Ans ε α}
    (hp : c → p.Holds books Q held) (hq : ¬ c → q.Holds books Q held) :
    (if c then p else q).Holds books Q held := by
  split
  case isTrue h => exact hp h
  case isFalse h => exact hq h

/-- An operation that means nothing to the books, however it is answered. -/
def Unbooked (books : Books Op Ans R) (o : Op) : Prop := ∀ r, books o r = Entry.nothing

/-- A program of such operations holds in the end what it held at first. -/
theorem Only.holds {p : Program Op Ans ε α} (h : p.Only (Unbooked books)) :
    p.Holds books (fun _ rest => rest = held) held := by
  induction p with
  | done a => rfl
  | raise e => trivial
  | call o k ih =>
    intro r
    refine ⟨held, ?_, ih r (h.2 r)⟩
    rw [h.1 r]
    exact Entry.book_nothing held

theorem Only.holds_bind {p : Program Op Ans ε α} {f : α → Program Op Ans ε β}
    {Q : β → Multiset R → Prop} (hp : p.Only (Unbooked books))
    (hf : ∀ a, (f a).Holds books Q held) : (p >>= f).Holds books Q held :=
  Program.holds_bind hp.holds fun a _ ha => ha ▸ hf a

theorem interp_bind (h : (o : Op) → Program Op' Ans' ε (Ans o)) (p : Program Op Ans ε α)
    (f : α → Program Op Ans ε β) :
    (p >>= f).interp h = p.interp h >>= fun a => (f a).interp h := by
  simp only [bind_eq]
  induction p with
  | done a => rfl
  | raise e => rfl
  | call o k ih =>
    simp only [Program.bind, interp, bind_bind]
    exact congrArg _ (funext ih)

theorem interp_perform (h : (o : Op) → Program Op' Ans' ε (Ans o)) (o : Op) :
    (perform o : Program Op Ans ε (Ans o)).interp h = h o := bind_done (h o)

/-- A program of a lower layer is booked where it is used as it is on its own. -/
theorem holds_interp {h : (o : Op) → Program Op' Ans' ε (Ans o)} {books' : Books Op' Ans' R}
    (hh : ∀ o held Q, (perform o : Program Op Ans ε (Ans o)).Holds books Q held →
      (h o).Holds books' Q held)
    {p : Program Op Ans ε α} (hp : p.Holds books Q held) : (p.interp h).Holds books' Q held := by
  induction p generalizing held with
  | done a => exact hp
  | raise e => trivial
  | call o k ih =>
    rw [interp, ← bind_eq]
    exact holds_bind (hh o held (fun r => (k r).Holds books Q) hp) fun r rest hk => ih r hk

end Program

open Program

/-- A device whose operations are booked; nothing is held any more once something has been given
back that was not held. -/
def ledger (books : Books Op Ans R) (d : Device Op Ans ε σ) :
    Device Op Ans ε (σ × Option (Multiset R)) := fun o s =>
  match d o s.1 with
  | (.ok r, t) => (.ok r, t, s.2.bind (books o r).book)
  | (.error e, t) => (.error e, t, s.2)

/-- The books of a program that holds what it should are right on every device. -/
theorem Program.Holds.run [IsEmpty ε] {books : Books Op Ans R} {Q : α → Multiset R → Prop}
    {held : Multiset R} {p : Program Op Ans ε α} (h : p.Holds books Q held)
    (d : Device Op Ans ε σ) (s : σ) : ∃ a t rest,
      p.run (ledger books d) (s, some held) = (.ok a, t, some rest) ∧ Q a rest := by
  induction p generalizing held s with
  | done a => exact ⟨a, s, held, rfl, h⟩
  | raise e => exact isEmptyElim e
  | call o k ih =>
    rw [run_call, ledger]
    rcases d o s with ⟨e | r, t⟩
    · exact isEmptyElim e
    · obtain ⟨rest, hrest, hk⟩ := h r
      simp only [Option.bind_some, hrest, andThen_ok]
      exact ih r hk t

section Calls

variable {κ δ τ : Type}

/-- A component that keeps a state from call to call. -/
def calls (D : Device Op Ans ε τ) (call : κ → δ → Program Op Ans ε δ) (ks : List κ)
    (x : δ × τ) : δ × τ :=
  ks.foldl (fun x k =>
    match (call k x.1).run D x.2 with
    | (.ok y, t) => (y, t)
    | (.error _, t) => (x.1, t)) x

/-- A component whose calls each leave it with what its state says it owns holds just that after
any calls, on any device. -/
theorem owned_of_calls [IsEmpty ε] {books : Books Op Ans R} {owned : δ → Multiset R}
    {call : κ → δ → Program Op Ans ε δ}
    (h : ∀ k x, (call k x).Holds books (fun y rest => rest = owned y) (owned x))
    (d : Device Op Ans ε σ) (ks : List κ) (x : δ) (s : σ) :
    (calls (ledger books d) call ks (x, s, some (owned x))).2.2 =
      some (owned (calls (ledger books d) call ks (x, s, some (owned x))).1) := by
  induction ks generalizing x s with
  | nil => rfl
  | cons k ks ih =>
    obtain ⟨y, t, rest, hrun, rfl⟩ := (h k x).run d s
    rw [calls, List.foldl_cons]
    simp only [hrun]
    exact ih y t

end Calls

end Interaction
