import BuffaloNas.Interaction.Observation
import Mathlib.Data.Nat.Notation

/-! Postconditions of programs, relying on a condition of every operation or establishing it. -/
namespace Interaction

variable {Op : Type} {Ans : Op → Type} {ε α β σ : Type}

namespace Program

variable {d : Device Op Ans ε σ} {P : Op → σ → Prop} {s : σ}

/-- If every operation satisfies `P`, a returned value satisfies `Q`. -/
def Yields (d : Device Op Ans ε σ) (P : Op → σ → Prop) (p : Program Op Ans ε α) (s : σ)
    (Q : α → σ → Prop) : Prop :=
  p.Always d P s → ∀ a t, p.run d s = (.ok a, t) → Q a t

theorem yields_pure {a : α} {Q : α → σ → Prop} (h : Q a s) :
    (pure a : Program Op Ans ε α).Yields d P s Q := by
  intro _ b t hr
  cases hr
  exact h

theorem yields_perform {o : Op} {Q : Ans o → σ → Prop}
    (h : P o s → ∀ r t, d o s = (.ok r, t) → Q r t) :
    (perform o : Program Op Ans ε (Ans o)).Yields d P s Q := by
  intro ha r t hr
  rw [run_perform] at hr
  exact h ((always_perform o).mp ha) r t hr

theorem yields_bind {p : Program Op Ans ε α} {f : α → Program Op Ans ε β} {R : α → σ → Prop}
    {Q : β → σ → Prop} (hp : p.Yields d P s R) (hf : ∀ a t, R a t → (f a).Yields d P t Q) :
    (p >>= f).Yields d P s Q := by
  intro ha b t hr
  obtain ⟨h1, h2⟩ := (always_bind p f).mp ha
  rw [run_bind] at hr
  generalize hx : p.run d s = x at hr h2
  obtain ⟨e | a, u⟩ := x
  · cases hr
  · exact hf a u (hp h1 a u hx) (h2 a rfl) b t hr

theorem yields_ite {c : Prop} [Decidable c] {p q : Program Op Ans ε α} {Q : α → σ → Prop}
    (hp : c → p.Yields d P s Q) (hq : ¬ c → q.Yields d P s Q) :
    (if c then p else q).Yields d P s Q := by
  split
  case isTrue h => exact hp h
  case isFalse h => exact hq h

theorem Yields.mono {p : Program Op Ans ε α} {Q R : α → σ → Prop} (h : p.Yields d P s R)
    (hqr : ∀ a t, R a t → Q a t) : p.Yields d P s Q :=
  fun ha a t hr => hqr a t (h ha a t hr)

/-- Every operation satisfies `P`, and the outcome, an error or not, satisfies `Q`. -/
def Keeps (d : Device Op Ans ε σ) (P : Op → σ → Prop) (p : Program Op Ans ε α) (s : σ)
    (Q : Except ε α → σ → Prop) : Prop :=
  p.Always d P s ∧ Q (p.run d s).1 (p.run d s).2

variable {Q : Except ε α → σ → Prop}

theorem keeps_pure {a : α} (h : Q (.ok a) s) : (pure a : Program Op Ans ε α).Keeps d P s Q :=
  ⟨trivial, h⟩

theorem keeps_raise {e : ε} (h : Q (.error e) s) :
    (raise e : Program Op Ans ε α).Keeps d P s Q :=
  ⟨trivial, h⟩

theorem keeps_perform {o : Op} {Q : Except ε (Ans o) → σ → Prop} (hp : P o s)
    (hq : Q (d o s).1 (d o s).2) : (perform o : Program Op Ans ε (Ans o)).Keeps d P s Q := by
  refine ⟨(always_perform o).mpr hp, ?_⟩
  rwa [run_perform]

theorem keeps_bind {p : Program Op Ans ε α} {f : α → Program Op Ans ε β}
    {Q : Except ε β → σ → Prop} {R : Except ε α → σ → Prop} (hp : p.Keeps d P s R)
    (hf : ∀ a t, R (.ok a) t → (f a).Keeps d P t Q)
    (he : ∀ e t, R (.error e) t → Q (.error e) t) : (p >>= f).Keeps d P s Q := by
  obtain ⟨h1, h2⟩ := hp
  rw [Keeps, always_bind, run_bind]
  generalize p.run d s = x at h2
  obtain ⟨e | a, t⟩ := x
  · exact ⟨⟨h1, fun a ha => by cases ha⟩, he e t h2⟩
  · exact ⟨⟨h1, fun b hb => by cases hb; exact (hf a t h2).1⟩, (hf a t h2).2⟩

/-- Where nothing can fail, a bind only goes on. -/
theorem keeps_bind_total [IsEmpty ε] {p : Program Op Ans ε α} {f : α → Program Op Ans ε β}
    {Q : Except ε β → σ → Prop} {R : Except ε α → σ → Prop} (hp : p.Keeps d P s R)
    (hf : ∀ a t, R (.ok a) t → (f a).Keeps d P t Q) : (p >>= f).Keeps d P s Q :=
  keeps_bind hp hf fun e => isEmptyElim e

theorem keeps_ite {c : Prop} [Decidable c] {p q : Program Op Ans ε α}
    (hp : c → p.Keeps d P s Q) (hq : ¬ c → q.Keeps d P s Q) :
    (if c then p else q).Keeps d P s Q := by
  split
  case isTrue h => exact hp h
  case isFalse h => exact hq h

theorem keeps_map {p : Program Op Ans ε α} (f : α → β) {I : σ → Prop}
    (h : p.Keeps d P s fun _ t => I t) : (f <$> p).Keeps d P s fun _ t => I t := by
  rw [map_eq_pure_bind]
  exact keeps_bind h (fun _ _ ht => keeps_pure ht) fun _ _ ht => ht

/-- A first step with a known outcome. -/
theorem keeps_bind_run {p : Program Op Ans ε α} {f : α → Program Op Ans ε β} {a : α} {t : σ}
    {Q : Except ε β → σ → Prop} (hp : p.Always d P s) (hr : p.run d s = (.ok a, t))
    (hf : (f a).Keeps d P t Q) : (p >>= f).Keeps d P s Q := by
  rw [Keeps, always_bind, run_bind, hr]
  refine ⟨⟨hp, fun b hb => ?_⟩, hf.2⟩
  cases hb
  exact hf.1

/-- From every state with `I`, every operation satisfies `P` and the outcome has `I` again. -/
def Maintains (d : Device Op Ans ε σ) (P : Op → σ → Prop) (I : σ → Prop)
    (p : Program Op Ans ε α) : Prop :=
  ∀ s, I s → p.Keeps d P s fun _ t => I t

variable {I : σ → Prop}

theorem maintains_pure (a : α) : (pure a : Program Op Ans ε α).Maintains d P I :=
  fun _ hs => keeps_pure hs

theorem maintains_bind {p : Program Op Ans ε α} {f : α → Program Op Ans ε β}
    (hp : p.Maintains d P I) (hf : ∀ a, (f a).Maintains d P I) : (p >>= f).Maintains d P I :=
  fun s hs => keeps_bind (hp s hs) (fun a t ht => hf a t ht) fun _ _ ht => ht

theorem maintains_ite {c : Prop} [Decidable c] {p q : Program Op Ans ε α}
    (hp : c → p.Maintains d P I) (hq : ¬ c → q.Maintains d P I) :
    (if c then p else q).Maintains d P I :=
  fun s hs => keeps_ite (fun h => hp h s hs) fun h => hq h s hs

/-- A loop maintains what its body maintains. -/
theorem maintains_mapM {f : α → Program Op Ans ε β} {as : List α}
    (h : ∀ a, (f a).Maintains d P I) : (as.mapM f).Maintains d P I := by
  induction as with
  | nil => exact maintains_pure _
  | cons a as ih =>
    rw [List.mapM_cons]
    exact maintains_bind (h a) fun b => maintains_bind ih fun bs => maintains_pure _

/-- A counting loop whose rounds never fail goes from `J 0` to `J n`. -/
theorem run_forM_range {f : ℕ → Program Op Ans ε Unit} {J : ℕ → σ → Prop} {n : ℕ} (h0 : J 0 s)
    (hstep : ∀ i < n, ∀ t, J i t → ∃ u, (f i).run d t = (.ok (), u) ∧ J (i + 1) u) :
    ∃ t, ((List.range n).forM f).run d s = (.ok (), t) ∧ J n t := by
  induction n with
  | zero => exact ⟨s, rfl, h0⟩
  | succ n ih =>
    obtain ⟨t, ht, hJ⟩ := ih fun i hi => hstep i (Nat.lt_succ_of_lt hi)
    obtain ⟨u, hu, hJ'⟩ := hstep n (Nat.lt_succ_self n) t hJ
    refine ⟨u, ?_, hJ'⟩
    have hsplit : (List.range (n + 1)).forM f = ((List.range n).forM f >>= fun _ => f n) := by
      rw [List.range_succ, List.forM_eq_forM, List.forM_append]
      simp only [List.forM_cons, List.forM_nil, bind_pure_unit]
    rw [hsplit, run_bind, ht, andThen_ok, hu]

/-- What a round of a loop achieves holds after the loop, if no round undoes what another one has
achieved. -/
theorem run_forM_each {f : α → Program Op Ans ε Unit} {I : σ → Prop} {D : α → σ → Prop}
    {as : List α} (hstep : ∀ a ∈ as, ∀ s, I s → ∃ t, (f a).run d s = (.ok (), t) ∧ I t ∧ D a t ∧
      ∀ b, D b s → D b t) (hs : I s) :
    ∃ t, (as.forM f).run d s = (.ok (), t) ∧ I t ∧ (∀ a ∈ as, D a t) ∧ ∀ b, D b s → D b t := by
  induction as generalizing s with
  | nil => exact ⟨s, rfl, hs, nofun, fun _ h => h⟩
  | cons a as ih =>
    obtain ⟨t, hrun, ht, ha, hkeep⟩ := hstep a (List.mem_cons_self ..) s hs
    obtain ⟨u, hrest, hu, has, hkeep'⟩ := ih (fun b hb => hstep b (List.mem_cons_of_mem a hb)) ht
    refine ⟨u, ?_, hu, ?_, fun b hb => hkeep' b (hkeep b hb)⟩
    · rw [List.forM_eq_forM, List.forM_cons, run_bind_of hrun]
      exact hrest
    · intro b hb
      rcases List.mem_cons.mp hb with rfl | hb
      · exact hkeep' b ha
      · exact has b hb

/-- A loop with an accumulator that its operations do not depend on. -/
theorem foldlM_pure {f : α → Program Op Ans ε Unit} {g : β → α → β} (as : List α) (b : β) :
    (as.foldlM (fun b a => do f a; pure (g b a)) b : Program Op Ans ε β) =
      (as.forM f >>= fun _ => pure (as.foldl g b)) := by
  induction as generalizing b with
  | nil => rfl
  | cons a as ih =>
    rw [List.foldlM_cons, List.forM_eq_forM, List.forM_cons, bind_assoc, bind_assoc]
    refine congrArg _ (funext fun _ => ?_)
    rw [pure_bind, ih]
    rfl

/-- A loop whose rounds never fail comes to every round. -/
theorem exists_always_of_forM {f : α → Program Op Ans ε Unit} {as : List α}
    (hrun : ∀ a ∈ as, ∀ s, ∃ t, (f a).run d s = (.ok (), t)) (h : (as.forM f).Always d P s) :
    ∀ a ∈ as, ∃ t, (f a).Always d P t := by
  induction as generalizing s with
  | nil =>
    intro a ha
    cases ha
  | cons b as ih =>
    rw [List.forM_eq_forM, List.forM_cons, always_bind] at h
    obtain ⟨hb, has⟩ := h
    obtain ⟨t, ht⟩ := hrun b (List.mem_cons_self ..) s
    rw [ht] at has
    intro a ha
    rcases List.mem_cons.mp ha with rfl | ha
    · exact ⟨s, hb⟩
    · exact ih (fun c hc => hrun c (List.mem_cons_of_mem b hc)) (has () rfl) a ha

end Program

open Program

variable {d : Device Op Ans ε σ} {P : Op → σ → Prop} {s : σ}

/-- `C` holds before every program of the sequence. -/
def Before (d : Device Op Ans ε σ) (f : α → Program Op Ans ε β) (C : α → σ → Prop) :
    List α → σ → Prop
  | [], _ => True
  | a :: as, s => C a s ∧ Before d f C as ((f a).run d s).2

/-- Programs that keep an invariant under a condition keep it where the condition is met. -/
theorem alwaysAll_of_before {I : σ → Prop} {f : α → Program Op Ans ε β} {C : α → σ → Prop}
    (h : ∀ a s, I s → C a s → (f a).Keeps d P s fun _ t => I t) {as : List α} (hs : I s)
    (hc : Before d f C as s) : AlwaysAll d P (as.map f) s := by
  induction as generalizing s with
  | nil => trivial
  | cons a as ih =>
    obtain ⟨h1, h2⟩ := h a s hs hc.1
    exact ⟨h1, ih h2 hc.2⟩

/-- Programs that all keep an invariant keep it one after the other. -/
theorem alwaysAll_of_keeps {I : σ → Prop} {ps : List (Program Op Ans ε α)}
    (h : ∀ p ∈ ps, p.Maintains d P I) (hs : I s) : AlwaysAll d P ps s := by
  induction ps generalizing s with
  | nil => trivial
  | cons p ps ih =>
    obtain ⟨h1, h2⟩ := h p (List.mem_cons_self ..) s hs
    exact ⟨h1, ih (fun q hq => h q (List.mem_cons_of_mem p hq)) h2⟩

theorem alwaysAll_append {ps qs : List (Program Op Ans ε α)} :
    AlwaysAll d P (ps ++ qs) s ↔ AlwaysAll d P ps s ∧ AlwaysAll d P qs (runAll d ps s).2 := by
  induction ps generalizing s with
  | nil => simp [AlwaysAll, runAll]
  | cons p ps ih =>
    rw [List.cons_append, AlwaysAll, AlwaysAll, ih, and_assoc]
    rfl

end Interaction
