import BuffaloNas.Interaction.Program
import Mathlib.Data.List.Basic

/-! What can be observed of the operations a program performs, and of runs of many programs. -/
namespace Interaction

variable {Op Op' : Type} {Ans : Op → Type} {Ans' : Op' → Type} {ε α β σ τ : Type}

namespace Program

variable {d : Device Op Ans ε σ} {P Q : Op → σ → Prop} {I : σ → Prop} {s : σ}

/-- Every operation performed from `s` on satisfies `P` in the state it is performed in. -/
def Always (d : Device Op Ans ε σ) (P : Op → σ → Prop) : Program Op Ans ε α → σ → Prop
  | done _, _ => True
  | raise _, _ => True
  | call o k, s => P o s ∧ ∀ r, (d o s).1 = .ok r → (k r).Always d P (d o s).2

@[simp] theorem always_done (a : α) : (done a : Program Op Ans ε α).Always d P s := trivial

@[simp] theorem always_pure (a : α) : (pure a : Program Op Ans ε α).Always d P s := trivial

@[simp] theorem always_raise (e : ε) : (raise e : Program Op Ans ε α).Always d P s := trivial

theorem always_call (o : Op) (k : Ans o → Program Op Ans ε α) :
    (call o k).Always d P s ↔
      P o s ∧ ∀ r, (d o s).1 = .ok r → (k r).Always d P (d o s).2 := Iff.rfl

@[simp] theorem always_perform (o : Op) :
    (perform o : Program Op Ans ε (Ans o)).Always d P s ↔ P o s := by
  simp [perform, always_call]

@[simp] theorem always_bind (p : Program Op Ans ε α) (f : α → Program Op Ans ε β) :
    (p >>= f).Always d P s ↔
      p.Always d P s ∧ ∀ a, (p.run d s).1 = .ok a → (f a).Always d P (p.run d s).2 := by
  rw [bind_eq]
  induction p generalizing s with
  | done a => simp [bind]
  | raise e => simp [bind]
  | call o k ih =>
    simp only [bind, always_call, run_call]
    rcases d o s with ⟨e | r, t⟩
    · simp
    · simp [ih, and_assoc]

@[simp] theorem always_map (f : α → β) (p : Program Op Ans ε α) :
    (f <$> p).Always d P s ↔ p.Always d P s := by
  rw [map_eq_pure_bind, always_bind]
  simp

@[simp] theorem always_ite (c : Prop) [Decidable c] (p q : Program Op Ans ε α) :
    (if c then p else q).Always d P s ↔ if c then p.Always d P s else q.Always d P s := by
  split <;> rfl

theorem Always.mono {p : Program Op Ans ε α} (h : p.Always d P s)
    (hpq : ∀ o s, P o s → Q o s) : p.Always d Q s := by
  induction p generalizing s with
  | done a => trivial
  | raise e => trivial
  | call o k ih => exact ⟨hpq o s h.1, fun r hr => ih r (h.2 r hr)⟩

theorem always_of_forall (h : ∀ o s, P o s) (p : Program Op Ans ε α) : p.Always d P s := by
  induction p generalizing s with
  | done a => trivial
  | raise e => trivial
  | call o k ih => exact ⟨h o s, fun r _ => ih r⟩

/-- The invariant rule: what every performed operation preserves, the whole run preserves. -/
theorem Always.run_invariant {p : Program Op Ans ε α} (h : p.Always d P s)
    (hstep : ∀ o s, P o s → I s → I (d o s).2) (hs : I s) : I (p.run d s).2 := by
  induction p generalizing s with
  | done a => exact hs
  | raise e => exact hs
  | call o k ih =>
    have hn := hstep o s h.1 hs
    have hk := h.2
    rw [run_call]
    generalize d o s = u at hn hk
    obtain ⟨e | r, t⟩ := u
    · exact hn
    · exact ih r (hk r rfl) hn

/-- An operation that satisfies `P` is performed. -/
def Sometimes (d : Device Op Ans ε σ) (P : Op → σ → Prop) (p : Program Op Ans ε α) (s : σ) : Prop :=
  ¬ p.Always d (fun o s => ¬ P o s) s

@[simp] theorem not_sometimes_done (a : α) :
    ¬ (done a : Program Op Ans ε α).Sometimes d P s := by simp [Sometimes]

@[simp] theorem not_sometimes_pure (a : α) :
    ¬ (pure a : Program Op Ans ε α).Sometimes d P s := by simp [Sometimes]

@[simp] theorem not_sometimes_raise (e : ε) :
    ¬ (raise e : Program Op Ans ε α).Sometimes d P s := by simp [Sometimes]

@[simp] theorem sometimes_perform (o : Op) :
    (perform o : Program Op Ans ε (Ans o)).Sometimes d P s ↔ P o s := by
  simp [Sometimes]

@[simp] theorem sometimes_bind (p : Program Op Ans ε α) (f : α → Program Op Ans ε β) :
    (p >>= f).Sometimes d P s ↔
      p.Sometimes d P s ∨ ∃ a, (p.run d s).1 = .ok a ∧ (f a).Sometimes d P (p.run d s).2 := by
  simp only [Sometimes, always_bind, not_and_or, not_forall, exists_prop]

@[simp] theorem sometimes_map (f : α → β) (p : Program Op Ans ε α) :
    (f <$> p).Sometimes d P s ↔ p.Sometimes d P s := by
  simp only [Sometimes, always_map]

@[simp] theorem sometimes_ite (c : Prop) [Decidable c] (p q : Program Op Ans ε α) :
    (if c then p else q).Sometimes d P s ↔ if c then p.Sometimes d P s else q.Sometimes d P s := by
  split <;> rfl

/-- Devices that agree also observe the same operations. -/
theorem always_simulates {R : σ → τ → Prop} {d' : Device Op Ans ε τ} {P' : Op → τ → Prop}
    (h : Simulates R d d') (hP : ∀ o s t, R s t → (P o s ↔ P' o t)) (p : Program Op Ans ε α)
    {t : τ} (hr : R s t) : p.Always d P s ↔ p.Always d' P' t := by
  induction p generalizing s t with
  | done a => exact Iff.rfl
  | raise e => exact Iff.rfl
  | call o k ih =>
    obtain ⟨ha, hn⟩ := h o s t hr
    rw [always_call, always_call, hP o s t hr, ha]
    exact and_congr_right fun _ => forall₂_congr fun r _ => ih r hn

theorem always_interp (h : (o : Op) → Program Op' Ans' ε (Ans o)) {d : Device Op' Ans' ε σ}
    {P : Op' → σ → Prop} (p : Program Op Ans ε α) :
    (p.interp h).Always d P s ↔ p.Always (through h d) (fun o s => (h o).Always d P s) s := by
  induction p generalizing s with
  | done a => exact Iff.rfl
  | raise e => exact Iff.rfl
  | call o k ih =>
    rw [interp, ← bind_eq, always_bind, always_call]
    simp only [ih, through]

theorem sometimes_interp (h : (o : Op) → Program Op' Ans' ε (Ans o)) {d : Device Op' Ans' ε σ}
    {P : Op' → σ → Prop} (p : Program Op Ans ε α) :
    (p.interp h).Sometimes d P s ↔
      p.Sometimes (through h d) (fun o s => (h o).Sometimes d P s) s := by
  simp only [Sometimes, always_interp, not_not]

end Program

open Program

/-- Run programs one after the other; an error ends its own program only. -/
def runAll (d : Device Op Ans ε σ) : List (Program Op Ans ε α) → σ → List (Except ε α) × σ
  | [], s => ([], s)
  | p :: ps, s =>
    ((p.run d s).1 :: (runAll d ps (p.run d s).2).1, (runAll d ps (p.run d s).2).2)

/-- Every operation of the whole sequence satisfies `P`. -/
def AlwaysAll (d : Device Op Ans ε σ) (P : Op → σ → Prop) :
    List (Program Op Ans ε α) → σ → Prop
  | [], _ => True
  | p :: ps, s => p.Always d P s ∧ AlwaysAll d P ps (p.run d s).2

variable {d : Device Op Ans ε σ} {P Q : Op → σ → Prop} {I : σ → Prop} {s : σ}

theorem AlwaysAll.mono {ps : List (Program Op Ans ε α)} (h : AlwaysAll d P ps s)
    (hpq : ∀ o s, P o s → Q o s) : AlwaysAll d Q ps s := by
  induction ps generalizing s with
  | nil => trivial
  | cons p ps ih => exact ⟨h.1.mono hpq, ih h.2⟩

theorem AlwaysAll.run_invariant {ps : List (Program Op Ans ε α)} (h : AlwaysAll d P ps s)
    (hstep : ∀ o s, P o s → I s → I (d o s).2) (hs : I s) : I (runAll d ps s).2 := by
  induction ps generalizing s with
  | nil => exact hs
  | cons p ps ih => exact ih h.2 (h.1.run_invariant hstep hs)

/-- Programs that all succeed and act on `τ` alone fold their actions. -/
theorem runAll_map_foldl {f : α → Program Op Ans ε β} {act : τ → α → τ} {e : τ → σ} {b : β}
    (h : ∀ a t, (f a).run d (e t) = (.ok b, e (act t a))) (as : List α) (t : τ) :
    runAll d (as.map f) (e t) = (as.map fun _ => .ok b, e (as.foldl act t)) := by
  induction as generalizing t with
  | nil => rfl
  | cons a as ih => simp only [List.map_cons, runAll, h, ih, List.foldl_cons]

theorem alwaysAll_interp (h : (o : Op) → Program Op' Ans' ε (Ans o)) {d : Device Op' Ans' ε σ}
    {P : Op' → σ → Prop} (ps : List (Program Op Ans ε α)) :
    AlwaysAll d P (ps.map (interp h)) s ↔
      AlwaysAll (through h d) (fun o s => (h o).Always d P s) ps s := by
  induction ps generalizing s with
  | nil => exact Iff.rfl
  | cons p ps ih => simp only [List.map_cons, AlwaysAll, always_interp, run_interp, ih]

theorem alwaysAll_simulates {R : σ → τ → Prop} {d' : Device Op Ans ε τ} {P' : Op → τ → Prop}
    (h : Simulates R d d') (hP : ∀ o s t, R s t → (P o s ↔ P' o t))
    (ps : List (Program Op Ans ε α)) {t : τ} (hr : R s t) :
    AlwaysAll d P ps s ↔ AlwaysAll d' P' ps t := by
  induction ps generalizing s t with
  | nil => exact Iff.rfl
  | cons p ps ih =>
    exact and_congr (always_simulates h hP p hr) (ih (run_simulates h p hr).2)

end Interaction
