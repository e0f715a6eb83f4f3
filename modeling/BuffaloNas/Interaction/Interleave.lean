import BuffaloNas.Interaction.Only
import Mathlib.Logic.Function.Basic

/-! Threads that share a device, and what each may rely on when they interleave. -/
namespace Interaction

variable {ι Op : Type} {Ans : Op → Type} {ε α β σ τ : Type}

/-- What a shared device makes of a thread's operation; a thread that gets nothing waits. -/
abbrev Shared (ι Op : Type) (Ans : Op → Type) (σ : Type) :=
  ι → (o : Op) → σ → Option (Ans o × σ)

/-- What a program that has come to its end returns. -/
def Program.returned : Program Op Ans ε α → Option α
  | .done a => some a
  | _ => none

/-- What is left of each thread, and the state that they share. -/
structure Pool (ι Op : Type) (Ans : Op → Type) (ε α σ : Type) where
  threads : ι → Program Op Ans ε α
  state : σ

namespace Pool

variable [DecidableEq ι] (d : Shared ι Op Ans σ)

/-- A thread performs its next operation, unless it has none or has to wait. -/
def turn (x : Pool ι Op Ans ε α σ) (i : ι) : Pool ι Op Ans ε α σ :=
  match x.threads i with
  | .call o k =>
    match d i o x.state with
    | some (r, t) => { threads := Function.update x.threads i (k r), state := t }
    | none => x
  | _ => x

/-- An interleaving: the threads take turns in the given order. -/
def run (x : Pool ι Op Ans ε α σ) (schedule : List ι) : Pool ι Op Ans ε α σ :=
  schedule.foldl (turn d) x

/-- Every operation that is performed satisfies `P`. -/
def Along (P : ι → (o : Op) → Ans o → σ → σ → Prop) : Pool ι Op Ans ε α σ → List ι → Prop
  | _, [] => True
  | x, i :: schedule =>
    (∀ o k r t, x.threads i = .call o k → d i o x.state = some (r, t) → P i o r x.state t) ∧
      Along P (x.turn d i) schedule

variable {d} {P Q : ι → (o : Op) → Ans o → σ → σ → Prop} {x : Pool ι Op Ans ε α σ}

/-- A thread that takes a turn waits, or has come to its end, or performs one operation. -/
theorem turn_cases (d : Shared ι Op Ans σ) (x : Pool ι Op Ans ε α σ) (i : ι) :
    (x.turn d i = x ∧ ∀ o k, x.threads i = .call o k → d i o x.state = none) ∨
      ∃ o k r t, x.threads i = .call o k ∧ d i o x.state = some (r, t) ∧
        x.turn d i = { threads := Function.update x.threads i (k r), state := t } := by
  unfold turn
  cases x.threads i with
  | done a => exact .inl ⟨rfl, fun _ _ h => by cases h⟩
  | raise e => exact .inl ⟨rfl, fun _ _ h => by cases h⟩
  | call o k =>
    cases hd : d i o x.state with
    | none =>
      refine .inl ⟨by simp only [hd], fun o' k' h => ?_⟩
      cases h
      exact hd
    | some rt => exact .inr ⟨o, k, rt.1, rt.2, rfl, hd, by simp only [hd]⟩

theorem Along.mono {schedule : List ι} (h : x.Along d P schedule)
    (hpq : ∀ i o r s t, P i o r s t → Q i o r s t) : x.Along d Q schedule := by
  induction schedule generalizing x with
  | nil => trivial
  | cons i schedule ih =>
    exact ⟨fun o k r t hp hd => hpq _ _ _ _ _ (h.1 o k r t hp hd), ih h.2⟩

/-- What holds along a run holds of its last operation. -/
theorem Along.last {schedule : List ι} {i : ι} (h : x.Along d P (schedule ++ [i])) {o : Op}
    {k : Ans o → Program Op Ans ε α} {r : Ans o} {t : σ}
    (hp : (x.run d schedule).threads i = .call o k)
    (hd : d i o (x.run d schedule).state = some (r, t)) :
    P i o r (x.run d schedule).state t := by
  induction schedule generalizing x with
  | nil => exact h.1 o k r t hp hd
  | cons j schedule ih => exact ih h.2 hp hd

theorem along_of_forall (h : ∀ i o r s t, P i o r s t) (x : Pool ι Op Ans ε α σ)
    (schedule : List ι) : x.Along d P schedule := by
  induction schedule generalizing x with
  | nil => trivial
  | cons i schedule ih => exact ⟨fun _ _ _ _ _ _ => h _ _ _ _ _, ih _⟩

end Pool

/-- The terms of one thread: what it performs its operations on, what the others may do between
two of them, what it counts on when it performs one, and what each of its own does. -/
structure Contract (Op : Type) (Ans : Op → Type) (σ : Type) where
  device : (o : Op) → σ → Option (Ans o × σ)
  rely : σ → σ → Prop
  counts : Op → σ → Prop
  does : (o : Op) → Ans o → σ → σ → Prop
  refl : ∀ s, rely s s
  trans : ∀ {s t u}, rely s t → rely t u → rely s u

namespace Program

variable {κ : Contract Op Ans σ} {s : σ}

/-- Whatever the others do that the contract allows, the thread does what it says, and `Q` holds of
its outcome for as long as they go on. -/
def Secure (κ : Contract Op Ans σ) : Program Op Ans ε α → (Except ε α → σ → Prop) → σ → Prop
  | done a, Q, s => ∀ u, κ.rely s u → Q (.ok a) u
  | raise e, Q, s => ∀ u, κ.rely s u → Q (.error e) u
  | call o k, Q, s => ∀ u, κ.rely s u → κ.counts o u → ∀ r t, κ.device o u = some (r, t) →
      κ.does o r u t ∧ (k r).Secure κ Q t

theorem Secure.rely {p : Program Op Ans ε α} {Q : Except ε α → σ → Prop} {t : σ}
    (h : p.Secure κ Q s) (hst : κ.rely s t) : p.Secure κ Q t := by
  cases p with
  | done a => exact fun u hu => h u (κ.trans hst hu)
  | raise e => exact fun u hu => h u (κ.trans hst hu)
  | call o k => exact fun u hu => h u (κ.trans hst hu)

theorem secure_pure {a : α} {Q : Except ε α → σ → Prop} (h : ∀ u, κ.rely s u → Q (.ok a) u) :
    (pure a : Program Op Ans ε α).Secure κ Q s := h

theorem secure_perform {o : Op} {Q : Except ε (Ans o) → σ → Prop}
    (h : ∀ u, κ.rely s u → κ.counts o u → ∀ r t, κ.device o u = some (r, t) →
      κ.does o r u t ∧ ∀ v, κ.rely t v → Q (.ok r) v) :
    (perform o : Program Op Ans ε (Ans o)).Secure κ Q s := h

theorem secure_bind {p : Program Op Ans ε α} {f : α → Program Op Ans ε β}
    {R : Except ε α → σ → Prop} {Q : Except ε β → σ → Prop} (hp : p.Secure κ R s)
    (hf : ∀ a t, R (.ok a) t → (f a).Secure κ Q t)
    (he : ∀ e t, R (.error e) t → Q (.error e) t) : (p >>= f).Secure κ Q s := by
  rw [bind_eq]
  induction p generalizing s with
  | done a => exact hf a s (hp s (κ.refl s))
  | raise e => exact fun u hu => he e u (hp u hu)
  | call o k ih =>
    intro u hu hc r t hd
    obtain ⟨h1, h2⟩ := hp u hu hc r t hd
    exact ⟨h1, ih r h2⟩

/-- Where nothing can fail, a bind only goes on. -/
theorem secure_bind_total [IsEmpty ε] {p : Program Op Ans ε α} {f : α → Program Op Ans ε β}
    {R : Except ε α → σ → Prop} {Q : Except ε β → σ → Prop} (hp : p.Secure κ R s)
    (hf : ∀ a t, R (.ok a) t → (f a).Secure κ Q t) : (p >>= f).Secure κ Q s :=
  secure_bind hp hf fun e => isEmptyElim e

theorem secure_ite {c : Prop} [Decidable c] {p q : Program Op Ans ε α}
    {Q : Except ε α → σ → Prop} (hp : c → p.Secure κ Q s) (hq : ¬ c → q.Secure κ Q s) :
    (if c then p else q).Secure κ Q s := by
  split
  case isTrue h => exact hp h
  case isFalse h => exact hq h

theorem Secure.mono {p : Program Op Ans ε α} {Q R : Except ε α → σ → Prop}
    (h : p.Secure κ Q s) (hqr : ∀ a t, Q a t → R a t) : p.Secure κ R s := by
  induction p generalizing s with
  | done a => exact fun u hu => hqr _ _ (h u hu)
  | raise e => exact fun u hu => hqr _ _ (h u hu)
  | call o k ih =>
    intro u hu hc r t hd
    obtain ⟨h1, h2⟩ := h u hu hc r t hd
    exact ⟨h1, ih r h2⟩

/-- What a thread does with a part of the state that is its own goes as if it were alone. -/
theorem secure_alone {d : Device Op Ans ε τ} (part : σ → τ) (Own : σ → Prop)
    {C : Op → τ → Prop} (hrely : ∀ s u, Own s → κ.rely s u → Own u ∧ part u = part s)
    (hop : ∀ o u r t, Own u → C o (part u) → κ.device o u = some (r, t) →
      κ.does o r u t ∧ Own t ∧ d o (part u) = (.ok r, part t))
    {p : Program Op Ans ε α} (hp : p.Always d C (part s)) (hs : Own s) :
    p.Secure κ (fun a t => Own t ∧ p.run d (part s) = (a, part t)) s := by
  induction p generalizing s with
  | done a =>
    intro u hu
    obtain ⟨hown, hpart⟩ := hrely s u hs hu
    exact ⟨hown, by rw [hpart]; rfl⟩
  | raise e =>
    intro u hu
    obtain ⟨hown, hpart⟩ := hrely s u hs hu
    exact ⟨hown, by rw [hpart]; rfl⟩
  | call o k ih =>
    intro u hu _ r t hd
    obtain ⟨hown, hpart⟩ := hrely s u hs hu
    rw [← hpart] at hp ⊢
    obtain ⟨h1, h2, h3⟩ := hop o u r t hown hp.1 hd
    have hk := hp.2 r (by rw [h3])
    rw [h3] at hk
    refine ⟨h1, (ih r hk h2).mono fun a v hv => ⟨hv.1, ?_⟩⟩
    rw [run_call, h3, andThen_ok]
    exact hv.2

end Program

namespace Pool

variable [DecidableEq ι] {κ : ι → Contract Op Ans σ} {x : Pool ι Op Ans ε α σ}
  {Q : ι → Except ε α → σ → Prop}

/-- An operation that a thread performs is as its contract says, and leaves every thread with
its own. -/
theorem secure_turn
    (hsuit : ∀ i j, i ≠ j → ∀ o r s t, (κ i).does o r s t → (κ j).rely s t)
    (hsecure : ∀ i, (x.threads i).Secure (κ i) (Q i) x.state) {i : ι} {o : Op}
    {k : Ans o → Program Op Ans ε α} {r : Ans o} {t : σ} (hp : x.threads i = .call o k)
    (hcounts : (κ i).counts o x.state) (hd : (κ i).device o x.state = some (r, t)) :
    (κ i).does o r x.state t ∧
      ∀ j, (Function.update x.threads i (k r) j).Secure (κ j) (Q j) t := by
  have hi := hsecure i
  rw [hp] at hi
  obtain ⟨hdoes, hrest⟩ := hi x.state ((κ i).refl _) hcounts r t hd
  refine ⟨hdoes, fun j => ?_⟩
  by_cases hj : j = i
  · subst hj
    rw [Function.update_self]
    exact hrest
  · rw [Function.update_of_ne hj]
    exact (hsecure j).rely (hsuit i j (Ne.symm hj) o r x.state t hdoes)

/-- Threads whose contracts suit one another all keep them, in every interleaving. -/
theorem along_of_secure
    (hsuit : ∀ i j, i ≠ j → ∀ o r s t, (κ i).does o r s t → (κ j).rely s t)
    (hsecure : ∀ i, (x.threads i).Secure (κ i) (Q i) x.state) {schedule : List ι}
    (hcounts : x.Along (fun i => (κ i).device) (fun i o _ s _ => (κ i).counts o s) schedule) :
    x.Along (fun i => (κ i).device) (fun i o r s t => (κ i).does o r s t) schedule ∧
      ∀ i, ((x.run (fun i => (κ i).device) schedule).threads i).Secure (κ i) (Q i)
        (x.run (fun i => (κ i).device) schedule).state := by
  induction schedule generalizing x with
  | nil => exact ⟨trivial, hsecure⟩
  | cons i schedule ih =>
    obtain ⟨hc, hrest⟩ := hcounts
    have hthreads : ∀ j, ((x.turn (fun i => (κ i).device) i).threads j).Secure (κ j) (Q j)
        (x.turn (fun i => (κ i).device) i).state := by
      obtain ⟨ht, -⟩ | ⟨o, k, r, t, hp, hd, ht⟩ := turn_cases (fun i => (κ i).device) x i
      · rw [ht]
        exact hsecure
      · rw [ht]
        exact (secure_turn hsuit hsecure hp (hc o k r t hp hd) hd).2
    obtain ⟨halong, hrun⟩ := ih hthreads hrest
    refine ⟨⟨fun o k r t hp hd => ?_, halong⟩, hrun⟩
    exact (secure_turn hsuit hsecure hp (hc o k r t hp hd) hd).1

/-- What a thread that has returned was to establish. -/
theorem holds_of_secure
    (hsuit : ∀ i j, i ≠ j → ∀ o r s t, (κ i).does o r s t → (κ j).rely s t)
    (hsecure : ∀ i, (x.threads i).Secure (κ i) (Q i) x.state) {schedule : List ι}
    (hcounts : x.Along (fun i => (κ i).device) (fun i o _ s _ => (κ i).counts o s) schedule)
    {i : ι} {a : α}
    (ha : ((x.run (fun i => (κ i).device) schedule).threads i).returned = some a) :
    Q i (.ok a) (x.run (fun i => (κ i).device) schedule).state := by
  have h := (along_of_secure hsuit hsecure hcounts).2 i
  generalize (x.run (fun i => (κ i).device) schedule).threads i = p at h ha
  cases p with
  | done b =>
    obtain rfl := Option.some.inj ha
    exact h _ ((κ i).refl _)
  | raise e => cases ha
  | call o k => cases ha

end Pool

end Interaction
