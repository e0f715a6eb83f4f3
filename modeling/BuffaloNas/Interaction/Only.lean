import BuffaloNas.Interaction.Triple

/-! What a program can ask for at all, whatever it is answered. -/
namespace Interaction

variable {Op : Type} {Ans : Op → Type} {ε α β σ τ : Type}

namespace Program

variable {P Q : Op → Prop}

/-- Every operation the program can come to satisfies `P`. -/
def Only (P : Op → Prop) : Program Op Ans ε α → Prop
  | done _ => True
  | raise _ => True
  | call o k => P o ∧ ∀ r, (k r).Only P

@[simp] theorem only_pure (a : α) : (pure a : Program Op Ans ε α).Only P := trivial

@[simp] theorem only_raise (e : ε) : (raise e : Program Op Ans ε α).Only P := trivial

@[simp] theorem only_perform (o : Op) :
    (perform o : Program Op Ans ε (Ans o)).Only P ↔ P o := by
  simp [perform, Only]

theorem only_bind {p : Program Op Ans ε α} {f : α → Program Op Ans ε β} (hp : p.Only P)
    (hf : ∀ a, (f a).Only P) : (p >>= f).Only P := by
  rw [bind_eq]
  induction p with
  | done a => exact hf a
  | raise e => trivial
  | call o k ih => exact ⟨hp.1, fun r => ih r (hp.2 r)⟩

theorem only_map {p : Program Op Ans ε α} (f : α → β) (hp : p.Only P) : (f <$> p).Only P := by
  rw [map_eq_pure_bind]
  exact only_bind hp fun _ => only_pure _

theorem only_ite {c : Prop} [Decidable c] {p q : Program Op Ans ε α} (hp : c → p.Only P)
    (hq : ¬ c → q.Only P) : (if c then p else q).Only P := by
  split
  case isTrue h => exact hp h
  case isFalse h => exact hq h

theorem only_forM {f : α → Program Op Ans ε Unit} {as : List α} (h : ∀ a ∈ as, (f a).Only P) :
    (as.forM f).Only P := by
  induction as with
  | nil => exact only_pure _
  | cons a as ih =>
    rw [List.forM_eq_forM, List.forM_cons]
    refine only_bind (h a (List.mem_cons_self ..)) fun _ => ?_
    exact ih fun c hc => h c (List.mem_cons_of_mem a hc)

theorem only_mapM {f : α → Program Op Ans ε β} {as : List α} (h : ∀ a ∈ as, (f a).Only P) :
    (as.mapM f).Only P := by
  induction as with
  | nil => exact only_pure _
  | cons a as ih =>
    rw [List.mapM_cons]
    refine only_bind (h a (List.mem_cons_self ..)) fun _ => ?_
    exact only_map _ (ih fun c hc => h c (List.mem_cons_of_mem a hc))

theorem Only.mono {p : Program Op Ans ε α} (h : p.Only P) (hpq : ∀ o, P o → Q o) : p.Only Q := by
  induction p with
  | done a => trivial
  | raise e => trivial
  | call o k ih => exact ⟨hpq o h.1, fun r => ih r (h.2 r)⟩

theorem Only.always {p : Program Op Ans ε α} (h : p.Only P) {d : Device Op Ans ε σ} {s : σ} :
    p.Always d (fun o _ => P o) s := by
  induction p generalizing s with
  | done a => trivial
  | raise e => trivial
  | call o k ih => exact ⟨h.1, fun r _ => ih r (h.2 r)⟩

/-- What every operation of the program preserves, its run preserves. -/
theorem Only.run_invariant {p : Program Op Ans ε α} (h : p.Only P) {d : Device Op Ans ε σ}
    {I : σ → Prop} (hstep : ∀ o s, P o → I s → I (d o s).2) {s : σ} (hs : I s) :
    I (p.run d s).2 :=
  h.always.run_invariant hstep hs

/-- Devices that agree on the operations of a program run it to the same result. -/
theorem Only.run_simulates {p : Program Op Ans ε α} (h : p.Only P) {R : σ → τ → Prop}
    {d : Device Op Ans ε σ} {d' : Device Op Ans ε τ}
    (hd : ∀ o s t, P o → R s t → (d o s).1 = (d' o t).1 ∧ R (d o s).2 (d' o t).2) {s : σ} {t : τ}
    (hr : R s t) : (p.run d s).1 = (p.run d' t).1 ∧ R (p.run d s).2 (p.run d' t).2 := by
  induction p generalizing s t with
  | done a => exact ⟨rfl, hr⟩
  | raise e => exact ⟨rfl, hr⟩
  | call o k ih =>
    obtain ⟨ha, hn⟩ := hd o s t h.1 hr
    simp only [run_call]
    generalize d o s = u at ha hn
    generalize d' o t = v at ha hn
    obtain ⟨a, s'⟩ := u
    obtain ⟨a', t'⟩ := v
    obtain rfl : a = a' := ha
    cases a with
    | error e => exact ⟨rfl, hn⟩
    | ok r => exact ih r (h.2 r) hn

end Program

end Interaction
