import Mathlib.Data.List.Induction

/-! What has happened in a run, and what holds at each of its events. -/
namespace Interaction

variable {σ α : Type} {step : σ → α → σ} {P : σ → α → Prop} {s : σ}

/-- Some event of the run happened in a state where `P` holds of it. -/
def Once (step : σ → α → σ) (P : σ → α → Prop) (s : σ) (as : List α) : Prop :=
  ∃ pre a post, as = pre ++ a :: post ∧ P (pre.foldl step s) a

/-- `Q` holds of every event and of the events before it. -/
def Each (Q : List α → α → Prop) (as : List α) : Prop :=
  ∀ pre a post, as = pre ++ a :: post → Q pre a

/-- An event of a longer run is the last one or one of the others. -/
theorem split_last {as pre post : List α} {a b : α} (h : as ++ [a] = pre ++ b :: post) :
    (pre = as ∧ b = a) ∨ ∃ rest, as = pre ++ b :: rest := by
  rw [List.append_eq_append_iff] at h
  rcases h with ⟨l, rfl, hl⟩ | ⟨l, rfl, hl⟩
  · cases l with
    | nil => exact .inl ⟨List.append_nil as, (List.cons.inj hl).1.symm⟩
    | cons x l => cases l <;> cases hl
  · cases l with
    | nil => exact .inl ⟨(List.append_nil pre).symm, (List.cons.inj hl).1⟩
    | cons x l => exact .inr ⟨l, by rw [(List.cons.inj hl).1]⟩

theorem not_once_nil : ¬ Once step P s [] := by
  rintro ⟨pre, a, post, h, -⟩
  cases pre <;> cases h

theorem once_append_singleton {as : List α} {a : α} :
    Once step P s (as ++ [a]) ↔ Once step P s as ∨ P (as.foldl step s) a := by
  constructor
  · rintro ⟨pre, b, post, h, hp⟩
    rcases split_last h with ⟨rfl, rfl⟩ | ⟨rest, rfl⟩
    · exact .inr hp
    · exact .inl ⟨pre, b, rest, rfl, hp⟩
  · rintro (⟨pre, b, post, rfl, hp⟩ | hp)
    · exact ⟨pre, b, post ++ [a], by simp, hp⟩
    · exact ⟨as, a, [], rfl, hp⟩

theorem each_append_singleton {Q : List α → α → Prop} {as : List α} {a : α} :
    Each Q (as ++ [a]) ↔ Each Q as ∧ Q as a := by
  constructor
  · intro h
    refine ⟨fun pre b post hs => h pre b (post ++ [a]) ?_, h as a [] rfl⟩
    rw [hs, List.append_assoc, List.cons_append]
  · rintro ⟨h, ha⟩ pre b post hs
    rcases split_last hs with ⟨rfl, rfl⟩ | ⟨rest, rfl⟩
    · exact ha
    · exact h pre b rest rfl

/-- The invariant rule: what holds at first, and what every event preserves, holds in the end. -/
theorem foldl_history {I : List α → σ → Prop} (h0 : I [] s)
    (hstep : ∀ as a t, I as t → I (as ++ [a]) (step t a)) (as : List α) :
    I as (as.foldl step s) := by
  induction as using List.reverseRecOn with
  | nil => exact h0
  | append_singleton as a ih =>
    rw [List.foldl_append]
    exact hstep as a _ ih

/-- A place that an event either knows anew or leaves as it was: once one has happened, it is
known, and before that it is as it was at first. -/
theorem known_of_once {K S : σ → Prop} (h0 : S s) (hknown : ∀ t a, K t → ¬ P t a → K (step t a))
    (hsame : ∀ t a, S t → ¬ P t a → S (step t a)) (hP : ∀ t a, P t a → K (step t a)) (as : List α) :
    (Once step P s as → K (as.foldl step s)) ∧ (¬ Once step P s as → S (as.foldl step s)) := by
  induction as using List.reverseRecOn with
  | nil => exact ⟨fun h => absurd h not_once_nil, fun _ => h0⟩
  | append_singleton as a ih =>
    obtain ⟨ih1, ih2⟩ := ih
    rw [once_append_singleton, List.foldl_append]
    by_cases hp : P (as.foldl step s) a
    · exact ⟨fun _ => hP _ _ hp, fun h => absurd (.inr hp) h⟩
    · refine ⟨fun h => ?_, fun h => ?_⟩
      · rcases h with h | h
        · exact hknown _ _ (ih1 h) hp
        · exact absurd h hp
      · exact hsame _ _ (ih2 fun ho => h (.inl ho)) hp

end Interaction
