import Mathlib.Logic.Basic
import Mathlib.Tactic.Basic

/-! Programs as trees of calls and answers, and what a device makes of them. -/
namespace Interaction

/-- A program issues operations, goes on with their answers, and may stop with an error. -/
inductive Program (Op : Type) (Ans : Op → Type) (ε α : Type) where
  | done (a : α)
  | raise (e : ε)
  | call (o : Op) (k : Ans o → Program Op Ans ε α)

/-- A device answers each operation, or fails it, and moves to its next state. -/
abbrev Device (Op : Type) (Ans : Op → Type) (ε σ : Type) :=
  (o : Op) → σ → Except ε (Ans o) × σ

variable {Op Op' : Type} {Ans : Op → Type} {Ans' : Op' → Type} {ε α β γ σ τ : Type}

/-- Go on with a result, or keep the error and the state it was raised in. -/
def andThen (r : Except ε α × σ) (f : α → σ → Except ε β × σ) : Except ε β × σ :=
  match r with
  | (.ok a, s) => f a s
  | (.error e, s) => (.error e, s)

@[simp] theorem andThen_ok (a : α) (s : σ) (f : α → σ → Except ε β × σ) :
    andThen (.ok a, s) f = f a s := rfl

@[simp] theorem andThen_error (e : ε) (s : σ) (f : α → σ → Except ε β × σ) :
    andThen (.error e, s) f = (.error e, s) := rfl

theorem andThen_assoc (r : Except ε α × σ) (f : α → σ → Except ε β × σ)
    (g : β → σ → Except ε γ × σ) :
    andThen (andThen r f) g = andThen r (fun a s => andThen (f a s) g) := by
  obtain ⟨a | e, s⟩ := r <;> rfl

namespace Program

def bind : Program Op Ans ε α → (α → Program Op Ans ε β) → Program Op Ans ε β
  | done a, f => f a
  | raise e, _ => raise e
  | call o k, f => call o fun r => (k r).bind f

instance : Monad (Program Op Ans ε) where
  pure := done
  bind := bind

/-- A single operation, returning its answer. -/
def perform (o : Op) : Program Op Ans ε (Ans o) := call o done

theorem bind_eq (p : Program Op Ans ε α) (f : α → Program Op Ans ε β) : p >>= f = p.bind f := rfl

theorem bind_done (p : Program Op Ans ε α) : p.bind done = p := by
  induction p with
  | done a => rfl
  | raise e => rfl
  | call o k ih => exact congrArg (call o) (funext ih)

theorem bind_bind (p : Program Op Ans ε α) (f : α → Program Op Ans ε β)
    (g : β → Program Op Ans ε γ) : (p.bind f).bind g = p.bind fun a => (f a).bind g := by
  induction p with
  | done a => rfl
  | raise e => rfl
  | call o k ih => exact congrArg (call o) (funext ih)

instance : LawfulMonad (Program Op Ans ε) :=
  LawfulMonad.mk' _ (fun p => bind_done p) (fun _ _ => rfl) (fun p f g => bind_bind p f g)

/-- Run a program against a device. -/
def run (d : Device Op Ans ε σ) : Program Op Ans ε α → σ → Except ε α × σ
  | done a, s => (.ok a, s)
  | raise e, s => (.error e, s)
  | call o k, s => andThen (d o s) fun r t => (k r).run d t

variable {d : Device Op Ans ε σ} {s : σ}

@[simp] theorem run_done (a : α) : (done a : Program Op Ans ε α).run d s = (.ok a, s) := rfl

@[simp] theorem run_pure (a : α) : (pure a : Program Op Ans ε α).run d s = (.ok a, s) := rfl

@[simp] theorem run_raise (e : ε) : (raise e : Program Op Ans ε α).run d s = (.error e, s) := rfl

theorem run_call (o : Op) (k : Ans o → Program Op Ans ε α) :
    (call o k).run d s = andThen (d o s) fun r t => (k r).run d t := rfl

@[simp] theorem run_perform (o : Op) : (perform o : Program Op Ans ε (Ans o)).run d s = d o s := by
  rw [perform, run_call]
  obtain ⟨a | e, t⟩ := d o s <;> rfl

@[simp] theorem run_bind (p : Program Op Ans ε α) (f : α → Program Op Ans ε β) :
    (p >>= f).run d s = andThen (p.run d s) fun a t => (f a).run d t := by
  rw [bind_eq]
  induction p generalizing s with
  | done a => rfl
  | raise e => rfl
  | call o k ih => simp only [bind, run_call, andThen_assoc, ih]

@[simp] theorem run_map (f : α → β) (p : Program Op Ans ε α) :
    (f <$> p).run d s = andThen (p.run d s) fun a t => (.ok (f a), t) := by
  rw [map_eq_pure_bind, run_bind]
  rfl

/-- The first part of a program has been run already. -/
theorem run_bind_of {p : Program Op Ans ε α} {f : α → Program Op Ans ε β} {a : α} {t : σ}
    (h : p.run d s = (.ok a, t)) : (p >>= f).run d s = (f a).run d t := by
  rw [run_bind, h, andThen_ok]

@[simp] theorem run_ite (c : Prop) [Decidable c] (p q : Program Op Ans ε α) :
    (if c then p else q).run d s = if c then p.run d s else q.run d s := by
  split <;> rfl

/-- A loop body without operations makes a loop without operations. -/
theorem mapM_pure {f : α → Program Op Ans ε β} {g : α → β} {l : List α}
    (h : ∀ a ∈ l, f a = pure (g a)) : l.mapM f = pure (l.map g) := by
  induction l with
  | nil => rfl
  | cons a l ih =>
    rw [List.mapM_cons, h a (List.mem_cons_self ..),
      ih fun b hb => h b (List.mem_cons_of_mem a hb)]
    rfl

/-- Replace every operation by a program over the operations of a lower layer. -/
def interp (h : (o : Op) → Program Op' Ans' ε (Ans o)) :
    Program Op Ans ε α → Program Op' Ans' ε α
  | done a => done a
  | raise e => raise e
  | call o k => (h o).bind fun r => (k r).interp h

/-- The device an upper layer sees through an interpretation. -/
def through (h : (o : Op) → Program Op' Ans' ε (Ans o)) (d : Device Op' Ans' ε σ) :
    Device Op Ans ε σ := fun o s => (h o).run d s

theorem run_interp (h : (o : Op) → Program Op' Ans' ε (Ans o)) (d : Device Op' Ans' ε σ)
    (p : Program Op Ans ε α) (s : σ) : (p.interp h).run d s = p.run (through h d) s := by
  induction p generalizing s with
  | done a => rfl
  | raise e => rfl
  | call o k ih =>
    rw [interp, ← bind_eq, run_bind, run_call]
    simp only [ih, through]

/-- Two devices agree along `R`: same answers, related next states. -/
def Simulates (R : σ → τ → Prop) (d : Device Op Ans ε σ) (d' : Device Op Ans ε τ) : Prop :=
  ∀ o s t, R s t → (d o s).1 = (d' o t).1 ∧ R (d o s).2 (d' o t).2

/-- Devices that agree run every program to the same result in related states. -/
theorem run_simulates {R : σ → τ → Prop} {d : Device Op Ans ε σ} {d' : Device Op Ans ε τ}
    (h : Simulates R d d') (p : Program Op Ans ε α) {s : σ} {t : τ} (hr : R s t) :
    (p.run d s).1 = (p.run d' t).1 ∧ R (p.run d s).2 (p.run d' t).2 := by
  induction p generalizing s t with
  | done a => exact ⟨rfl, hr⟩
  | raise e => exact ⟨rfl, hr⟩
  | call o k ih =>
    obtain ⟨ha, hn⟩ := h o s t hr
    simp only [run_call]
    generalize d o s = u at ha hn
    generalize d' o t = v at ha hn
    obtain ⟨a, s'⟩ := u
    obtain ⟨a', t'⟩ := v
    obtain rfl : a = a' := ha
    cases a with
    | error e => exact ⟨rfl, hn⟩
    | ok r => exact ih r hn

end Program

end Interaction
