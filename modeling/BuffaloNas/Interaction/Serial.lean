import BuffaloNas.Interaction.Interleave
import BuffaloNas.Interaction.Lock
import Mathlib.Data.List.Nodup

/-! Threads that share a state under a lock, and the order in which they take effect. -/
namespace Interaction

variable {ι Op : Type} {Ans : Op → Type} {ε α β σ : Type}

/-- How far a program is with its critical section. -/
inductive Phase
  | before
  | inside
  | after
  deriving DecidableEq

/-- No operation fails. -/
def Total (d : Device Op Ans ε σ) : Prop := ∀ o s, ∃ r t, d o s = (.ok r, t)

namespace Program

/-- An operation that does not look at the state, and leaves it as it is. -/
def Still (d : Device Op Ans ε σ) (o : Op) (r : Ans o) : Prop := ∀ s, d o s = (.ok r, s)

/-- The program takes the lock at most once, gives it back, and does nothing to the state outside
of this section. -/
def Sectioned (d : Device Op Ans ε σ) (part : Op → Part) : Program Op Ans ε α → Phase → Prop
  | done _, phase => phase ≠ .inside
  | raise _, _ => False
  | call o k, phase =>
    match part o with
    | .lock => phase = .before ∧ ∀ r, (k r).Sectioned d part .inside
    | .unlock => phase = .inside ∧ ∀ r, (k r).Sectioned d part .after
    | .guarded => phase = .inside ∧ ∀ r, (k r).Sectioned d part .inside
    | .free => ∃ r, Still d o r ∧ (k r).Sectioned d part phase

variable {d : Device Op Ans ε σ} {part : Op → Part} {phase : Phase} {o : Op}

theorem sectioned_pure {a : α} (h : phase ≠ .inside) :
    (pure a : Program Op Ans ε α).Sectioned d part phase := h

theorem sectioned_ite {c : Prop} [Decidable c] {p q : Program Op Ans ε α}
    (hp : c → p.Sectioned d part phase) (hq : ¬ c → q.Sectioned d part phase) :
    (if c then p else q).Sectioned d part phase := by
  split
  case isTrue h => exact hp h
  case isFalse h => exact hq h

theorem sectioned_lock {f : Ans o → Program Op Ans ε α} (ho : part o = .lock)
    (hf : ∀ r, (f r).Sectioned d part .inside) :
    (perform o >>= f).Sectioned d part .before := by
  rw [bind_eq, perform, Program.bind, Sectioned, ho]
  exact ⟨rfl, hf⟩

theorem sectioned_unlock {f : Ans o → Program Op Ans ε α} (ho : part o = .unlock)
    (hf : ∀ r, (f r).Sectioned d part .after) :
    (perform o >>= f).Sectioned d part .inside := by
  rw [bind_eq, perform, Program.bind, Sectioned, ho]
  exact ⟨rfl, hf⟩

/-- The lock is given back at the very end. -/
theorem sectioned_unlock' (ho : part o = .unlock) :
    (perform o : Program Op Ans ε (Ans o)).Sectioned d part .inside := by
  rw [perform, Sectioned, ho]
  exact ⟨rfl, fun _ => (by decide : Phase.after ≠ .inside)⟩

theorem sectioned_guarded {f : Ans o → Program Op Ans ε α} (ho : part o = .guarded)
    (hf : ∀ r, (f r).Sectioned d part .inside) :
    (perform o >>= f).Sectioned d part .inside := by
  rw [bind_eq, perform, Program.bind, Sectioned, ho]
  exact ⟨rfl, hf⟩

/-- What is done under the lock, where nothing can fail. -/
theorem sectioned_inner [IsEmpty ε] {p : Program Op Ans ε α} {f : α → Program Op Ans ε β}
    (hp : p.Only fun o => part o = .guarded) (hf : ∀ a, (f a).Sectioned d part .inside) :
    (p >>= f).Sectioned d part .inside := by
  rw [bind_eq]
  induction p with
  | done a => exact hf a
  | raise e => exact isEmptyElim e
  | call o k ih =>
    rw [Program.bind, Sectioned, hp.1]
    exact ⟨rfl, fun r => ih r (hp.2 r)⟩

theorem sectioned_map {p : Program Op Ans ε α} (f : α → β) (hp : p.Sectioned d part phase) :
    (f <$> p).Sectioned d part phase := by
  rw [map_eq_pure_bind, bind_eq]
  induction p generalizing phase with
  | done a => exact hp
  | raise e => exact hp
  | call o k ih =>
    rw [Program.bind, Sectioned]
    rw [Sectioned] at hp
    split at hp
    case h_4 =>
      obtain ⟨r, hr, hk⟩ := hp
      exact ⟨r, hr, ih r hk⟩
    all_goals exact ⟨hp.1, fun r => ih r (hp.2 r)⟩

/-- A program that always returns the same and does nothing to the state. -/
def Looks (d : Device Op Ans ε σ) (part : Op → Part) : Program Op Ans ε α → α → Prop
  | done a, b => a = b
  | raise _, _ => False
  | call o k, b => part o = .free ∧ ∃ r, Still d o r ∧ (k r).Looks d part b

/-- A program of such operations looks up what it returns. -/
theorem looks_of_run {p : Program Op Ans ε α} {a : α} {s t : σ}
    (h : p.Only fun o => part o = .free ∧ ∃ r, Still d o r) (hrun : p.run d s = (.ok a, t)) :
    p.Looks d part a := by
  induction p with
  | done a' => exact Except.ok.inj (congrArg Prod.fst hrun)
  | raise e => cases hrun
  | call o k ih =>
    obtain ⟨⟨ho, r, hr⟩, hk⟩ := h
    rw [run_call, hr s, andThen_ok] at hrun
    exact ⟨ho, r, hr, ih r (hk r) hrun⟩

/-- Looking things up is done in every phase. -/
theorem sectioned_looks {p : Program Op Ans ε α} {f : α → Program Op Ans ε β} {a : α}
    (hp : p.Looks d part a) (hf : (f a).Sectioned d part phase) :
    (p >>= f).Sectioned d part phase := by
  rw [bind_eq]
  induction p with
  | done a' =>
    obtain rfl : a' = a := hp
    exact hf
  | raise e => exact hp.elim
  | call o k ih =>
    obtain ⟨ho, r, hr, hk⟩ := hp
    rw [Program.bind, Sectioned, ho]
    exact ⟨r, hr, ih r hk⟩

/-- What comes after the section does nothing any more. -/
theorem run_after {p : Program Op Ans ε α} (h : p.Sectioned d part .after) :
    ∃ a, ∀ s, p.run d s = (.ok a, s) := by
  induction p with
  | done a => exact ⟨a, fun _ => rfl⟩
  | raise e => exact h.elim
  | call o k ih =>
    rw [Sectioned] at h
    split at h
    case h_1 => cases h.1
    case h_2 => cases h.1
    case h_3 => cases h.1
    case h_4 =>
      obtain ⟨r, hr, hk⟩ := h
      obtain ⟨a, ha⟩ := ih r hk
      exact ⟨a, fun s => by rw [run_call, hr s, andThen_ok, ha s]⟩

end Program

open Program

/-- A device of which a lock is a part: who waits for it gets nothing. -/
def locked (d : Device Op Ans ε σ) (part : Op → Part) : Shared ι Op Ans (σ × Option ι)
  | i, o, (s, owner) =>
    match d o s with
    | (.ok r, t) =>
      match part o with
      | .lock => if owner.isNone then some (r, (t, some i)) else none
      | .unlock => some (r, (t, none))
      | _ => some (r, (t, owner))
    | (.error _, _) => none

/-- The thread is about to give the lock back. -/
def Program.Releases (part : Op → Part) : Program Op Ans ε α → Bool
  | call o _ => part o = .unlock
  | _ => false

/-- The programs of `order` one after the other, each without interruption. -/
def inTurn (d : Device Op Ans ε σ) (p : ι → Program Op Ans ε α) (s : σ) (order : List ι) : σ :=
  order.foldl (fun t i => ((p i).run d t).2) s

namespace Pool

variable {d : Device Op Ans ε σ} {part : Op → Part} {p : ι → Program Op Ans ε α} {s u : σ}
  {owner : Option ι} {order : List ι} {i j : ι} {o : Op}

/-- How far a thread is, once those of `order` have given the lock back: it is yet to do what its
program does, or doing it where they left off, or all it still has is its result. -/
def Stands (d : Device Op Ans ε σ) (p : ι → Program Op Ans ε α) (s : σ) (order : List ι)
    (x : Pool ι Op Ans ε α (σ × Option ι)) (i : ι) : Phase → Prop
  | .before => i ∉ order ∧ x.state.2 ≠ some i ∧ ∀ u, (x.threads i).run d u = (p i).run d u
  | .inside => i ∉ order ∧ x.state.2 = some i ∧
      (x.threads i).run d x.state.1 = (p i).run d (inTurn d p s order)
  | .after => x.state.2 ≠ some i ∧ ∃ pre post, order = pre ++ i :: post ∧
      ∀ u, (x.threads i).run d u = (((p i).run d (inTurn d p s pre)).1, u)

/-- The threads have taken effect in this order, but for the one that has the lock. -/
structure Serial (d : Device Op Ans ε σ) (part : Op → Part) (p : ι → Program Op Ans ε α) (s : σ)
    (order : List ι) (x : Pool ι Op Ans ε α (σ × Option ι)) : Prop where
  nodup : order.Nodup
  free : x.state.2 = none → x.state.1 = inTurn d p s order
  threads : ∀ i, ∃ phase, (x.threads i).Sectioned d part phase ∧ Stands d p s order x i phase

/-- Nobody has begun, and nobody has the lock. -/
def start (p : ι → Program Op Ans ε α) (s : σ) : Pool ι Op Ans ε α (σ × Option ι) where
  threads := p
  state := (s, none)

theorem serial_start (hp : ∀ i, (p i).Sectioned d part .before) (s : σ) :
    Serial d part p s [] (start p s) where
  nodup := List.nodup_nil
  free _ := rfl
  threads i := ⟨.before, hp i, List.not_mem_nil, nofun, fun _ => rfl⟩

theorem inTurn_append (order order' : List ι) :
    inTurn d p s (order ++ order') = inTurn d p (inTurn d p s order) order' :=
  List.foldl_append

/-- What performing an operation of each kind comes to. -/
theorem locked_cases {r : Ans o} {t : σ × Option ι}
    (h : locked d part i o (u, owner) = some (r, t)) :
    d o u = (.ok r, t.1) ∧
      match part o with
      | .lock => owner = none ∧ t.2 = some i
      | .unlock => t.2 = none
      | _ => t.2 = owner := by
  simp only [locked] at h
  generalize d o u = y at h
  obtain ⟨e | r', t'⟩ := y
  · cases h
  · cases ho : part o with
    | lock =>
      simp only [ho] at h
      split at h
      case isTrue hn =>
        cases h
        exact ⟨rfl, Option.isNone_iff_eq_none.mp hn, rfl⟩
      case isFalse => cases h
    | unlock =>
      simp only [ho] at h
      cases h
      exact ⟨rfl, rfl⟩
    | guarded =>
      simp only [ho] at h
      cases h
      exact ⟨rfl, rfl⟩
    | free =>
      simp only [ho] at h
      cases h
      exact ⟨rfl, rfl⟩

/-- Only the lock makes a thread wait. -/
theorem locked_isSome (hd : Total d) (ho : part o = .lock → owner = none) (u : σ) :
    ∃ r t, locked d part i o (u, owner) = some (r, t) := by
  obtain ⟨r, t, hr⟩ := hd o u
  simp only [locked, hr]
  cases hpart : part o with
  | lock => exact ⟨r, (t, some i), by simp only [ho hpart]; rfl⟩
  | unlock => exact ⟨r, (t, none), rfl⟩
  | guarded => exact ⟨r, (t, owner), rfl⟩
  | free => exact ⟨r, (t, owner), rfl⟩

variable [DecidableEq ι]

section Turn
variable {x : Pool ι Op Ans ε α (σ × Option ι)} {k : Ans o → Program Op Ans ε α} {r : Ans o}
  {t : σ × Option ι} {phase : Phase} {q : Program Op Ans ε α}

omit [DecidableEq ι] in
/-- Who has the lock is inside, and no one else is. -/
theorem Stands.inside_iff (h : Stands d p s order x j phase) :
    phase = .inside ↔ x.state.2 = some j := by
  cases phase with
  | before => exact ⟨nofun, fun ho => absurd ho h.2.1⟩
  | inside => exact ⟨fun _ => h.2.1, fun _ => rfl⟩
  | after => exact ⟨nofun, fun ho => absurd ho h.1⟩

omit [DecidableEq ι] in
/-- How far a thread is depends on what is left of it and on the state. -/
theorem Stands.congr {y : Pool ι Op Ans ε α (σ × Option ι)} (h : Stands d p s order x j phase)
    (hstate : y.state = x.state)
    (hrun : ∀ u, (y.threads j).run d u = (x.threads j).run d u) :
    Stands d p s order y j phase := by
  cases phase with
  | before =>
    obtain ⟨hnot, howner, h⟩ := h
    exact ⟨hnot, by rwa [hstate], fun u => (hrun u).trans (h u)⟩
  | inside =>
    obtain ⟨hnot, howner, h⟩ := h
    exact ⟨hnot, by rwa [hstate], by rw [hrun, hstate, h]⟩
  | after =>
    obtain ⟨howner, pre, post, horder, h⟩ := h
    exact ⟨by rwa [hstate], pre, post, horder, fun u => (hrun u).trans (h u)⟩

/-- A turn of another thread, seen by one that is not inside. -/
theorem Stands.other {order' : List ι} (h : Stands d p s order x j phase) (hj : j ≠ i)
    (hphase : phase ≠ .inside) (howner : t.2 ≠ some j)
    (horder : order' = order ∨ order' = order ++ [i]) :
    Stands d p s order' { threads := Function.update x.threads i q, state := t } j phase := by
  have hthread : Function.update x.threads i q j = x.threads j := Function.update_of_ne hj ..
  cases phase with
  | before =>
    obtain ⟨hnot, -, hrun⟩ := h
    refine ⟨?_, howner, fun u => (congrArg (·.run d u) hthread).trans (hrun u)⟩
    rcases horder with rfl | rfl
    · exact hnot
    · simp [hnot, hj]
  | inside => exact absurd rfl hphase
  | after =>
    obtain ⟨-, pre, post, rfl, hrun⟩ := h
    have hrun' := fun u => (congrArg (·.run d u) hthread).trans (hrun u)
    refine ⟨howner, pre, ?_⟩
    rcases horder with rfl | rfl
    · exact ⟨post, rfl, hrun'⟩
    · exact ⟨post ++ [i], by simp, hrun'⟩

/-- Where every thread stands after a turn of one of them. -/
theorem stands_update {order' : List ι} {phase' : Phase}
    (hi : (q.Sectioned d part phase') ∧
      Stands d p s order' { threads := Function.update x.threads i q, state := t } i phase')
    (hothers : ∀ j, j ≠ i → ∃ phase, (x.threads j).Sectioned d part phase ∧
      Stands d p s order' { threads := Function.update x.threads i q, state := t } j phase) :
    ∀ j, ∃ phase, (Function.update x.threads i q j).Sectioned d part phase ∧
      Stands d p s order' { threads := Function.update x.threads i q, state := t } j phase := by
  intro j
  by_cases hj : j = i
  · subst hj
    exact ⟨phase', by rw [Function.update_self]; exact hi.1, hi.2⟩
  · obtain ⟨phase, hsect, hstands⟩ := hothers j hj
    exact ⟨phase, by rw [Function.update_of_ne hj]; exact hsect, hstands⟩

omit [DecidableEq ι] in
/-- A thread that performs an operation which succeeds runs on from its answer. -/
theorem run_answer (ho : x.threads i = .call o k) (hd : d o u = (.ok r, t.1)) :
    (x.threads i).run d u = (k r).run d t.1 := by
  rw [ho, run_call, hd, andThen_ok]

variable (h : Serial d part p s order x) (hx : x.threads i = .call o k)
include h hx

theorem serial_lock (ho : part o = .lock) (hd : d o x.state.1 = (.ok r, t.1))
    (hfree : x.state.2 = none) (ht : t.2 = some i) :
    Serial d part p s order { threads := Function.update x.threads i (k r), state := t } := by
  obtain ⟨phase, hsect, hstands⟩ := h.threads i
  rw [hx, Sectioned, ho] at hsect
  obtain ⟨rfl, hk⟩ := hsect
  obtain ⟨hnot, -, hrun⟩ := hstands
  refine ⟨h.nodup, fun hn => ?_, stands_update ⟨hk r, hnot, ht, ?_⟩ fun j hj => ?_⟩
  · rw [ht] at hn
    cases hn
  · -- nobody was inside, so the state was that of the ones in order
    have hr := hrun x.state.1
    rw [run_answer hx hd] at hr
    simp only [Function.update_self]
    rw [hr, h.free hfree]
  · obtain ⟨phase, hsect, hstands⟩ := h.threads j
    refine ⟨phase, hsect, hstands.other hj (fun hp => ?_) (fun he => ?_) (.inl rfl)⟩
    · rw [hstands.inside_iff, hfree] at hp
      cases hp
    · rw [ht] at he
      exact hj (Option.some.inj he).symm

theorem serial_unlock (ho : part o = .unlock) (hd : d o x.state.1 = (.ok r, t.1))
    (ht : t.2 = none) :
    Serial d part p s (order ++ [i])
      { threads := Function.update x.threads i (k r), state := t } := by
  obtain ⟨phase, hsect, hstands⟩ := h.threads i
  rw [hx, Sectioned, ho] at hsect
  obtain ⟨rfl, hk⟩ := hsect
  obtain ⟨hnot, howner, hrun⟩ := hstands
  obtain ⟨a, ha⟩ := run_after (hk r)
  have hwhole : (p i).run d (inTurn d p s order) = (.ok a, t.1) := by
    rw [← hrun, run_answer hx hd, ha]
  refine ⟨?_, fun _ => ?_, stands_update ⟨hk r, ?_, order, [], rfl, fun u => ?_⟩ fun j hj => ?_⟩
  · exact List.nodup_append.mpr
      ⟨h.nodup, List.nodup_singleton i, fun a ha b hb he => hnot <| by
        rw [List.mem_singleton] at hb
        rwa [← hb, ← he]⟩
  · rw [inTurn_append]
    exact (congrArg Prod.snd hwhole).symm
  · rw [ht]
    exact fun he => by cases he
  · simp only [Function.update_self, ha u, hwhole]
  · obtain ⟨phase, hsect, hstands⟩ := h.threads j
    refine ⟨phase, hsect, hstands.other hj (fun hp => ?_) (fun he => ?_) (.inr rfl)⟩
    · rw [hstands.inside_iff, howner] at hp
      exact hj (Option.some.inj hp).symm
    · rw [ht] at he
      cases he

theorem serial_guarded (ho : part o = .guarded) (hd : d o x.state.1 = (.ok r, t.1))
    (ht : t.2 = x.state.2) :
    Serial d part p s order { threads := Function.update x.threads i (k r), state := t } := by
  obtain ⟨phase, hsect, hstands⟩ := h.threads i
  rw [hx, Sectioned, ho] at hsect
  obtain ⟨rfl, hk⟩ := hsect
  obtain ⟨hnot, howner, hrun⟩ := hstands
  refine ⟨h.nodup, fun hn => ?_, stands_update ⟨hk r, hnot, ht.trans howner, ?_⟩ fun j hj => ?_⟩
  · rw [ht, howner] at hn
    cases hn
  · rw [run_answer hx hd] at hrun
    simp only [Function.update_self]
    exact hrun
  · obtain ⟨phase, hsect, hstands⟩ := h.threads j
    refine ⟨phase, hsect, hstands.other hj (fun hp => ?_) (fun he => ?_) (.inl rfl)⟩
    · rw [hstands.inside_iff, howner] at hp
      exact hj (Option.some.inj hp).symm
    · rw [ht, howner] at he
      exact hj (Option.some.inj he).symm

theorem serial_free (ho : part o = .free) (hd : d o x.state.1 = (.ok r, t.1))
    (ht : t.2 = x.state.2) :
    Serial d part p s order { threads := Function.update x.threads i (k r), state := t } := by
  obtain ⟨phase, hsect, hstands⟩ := h.threads i
  rw [hx, Sectioned, ho] at hsect
  obtain ⟨r', hstill, hk⟩ := hsect
  obtain ⟨hr, hs⟩ := Prod.mk.inj ((hstill x.state.1).symm.trans hd)
  obtain rfl := Except.ok.inj hr
  have hstate : t = x.state := Prod.ext hs.symm ht
  subst hstate
  refine ⟨h.nodup, h.free, stands_update ⟨hk, hstands.congr rfl fun u => ?_⟩ fun j hj => ?_⟩
  · rw [run_answer (t := (u, none)) hx (hstill u)]
    simp only [Function.update_self]
  · obtain ⟨phase, hsect, hstands⟩ := h.threads j
    refine ⟨phase, hsect, hstands.congr rfl fun u => ?_⟩
    simp only [Function.update_of_ne hj]

end Turn

variable {x : Pool ι Op Ans ε α (σ × Option ι)}

theorem releases_iff {q : Program Op Ans ε α} :
    q.Releases part = true ↔ ∃ o k, q = .call o k ∧ part o = .unlock := by
  cases q with
  | done a => exact ⟨nofun, nofun⟩
  | raise e => exact ⟨nofun, nofun⟩
  | call o k =>
    refine ⟨fun h => ⟨o, k, rfl, of_decide_eq_true h⟩, fun ⟨o', k', h, ho⟩ => ?_⟩
    cases h
    exact decide_eq_true ho

/-- Who gives the lock back takes effect; nothing else does. -/
theorem serial_turn (hd : Total d) (h : Serial d part p s order x) (i : ι) :
    Serial d part p s (order ++ if (x.threads i).Releases part then [i] else [])
      (x.turn (locked d part) i) := by
  obtain ⟨ht, hwait⟩ | ⟨o, k, r, t, hx, hr, ht⟩ := turn_cases (locked d part) x i
  · rw [ht, if_neg, List.append_nil]
    · exact h
    · intro hrel
      obtain ⟨o, k, hx, ho⟩ := releases_iff.mp hrel
      have hsome : ∃ r t, locked d part i o x.state = some (r, t) :=
        locked_isSome hd (fun hl => by rw [ho] at hl; cases hl) _
      obtain ⟨r, t, hsome⟩ := hsome
      rw [hwait o k hx] at hsome
      cases hsome
  · obtain ⟨hd', hpart⟩ := locked_cases hr
    rw [ht]
    cases ho : part o with
    | lock =>
      rw [ho] at hpart
      rw [if_neg (by rw [hx, Program.Releases, ho]; decide), List.append_nil]
      exact serial_lock h hx ho hd' hpart.1 hpart.2
    | unlock =>
      rw [ho] at hpart
      rw [if_pos (by rw [hx, Program.Releases, ho]; decide)]
      exact serial_unlock h hx ho hd' hpart
    | guarded =>
      rw [ho] at hpart
      rw [if_neg (by rw [hx, Program.Releases, ho]; decide), List.append_nil]
      exact serial_guarded h hx ho hd' hpart
    | free =>
      rw [ho] at hpart
      rw [if_neg (by rw [hx, Program.Releases, ho]; decide), List.append_nil]
      exact serial_free h hx ho hd' hpart

/-- The threads in the order in which they give the lock back. -/
def released (d : Device Op Ans ε σ) (part : Op → Part) :
    Pool ι Op Ans ε α (σ × Option ι) → List ι → List ι
  | _, [] => []
  | x, i :: schedule =>
    (if (x.threads i).Releases part then [i] else []) ++
      released d part (x.turn (locked d part) i) schedule

theorem serial_run (hd : Total d) (h : Serial d part p s order x) (schedule : List ι) :
    Serial d part p s (order ++ released d part x schedule)
      (x.run (locked d part) schedule) := by
  induction schedule generalizing x order with
  | nil =>
    rw [released, List.append_nil]
    exact h
  | cons i schedule ih =>
    rw [released, ← List.append_assoc]
    exact ih (serial_turn hd h i)

theorem released_append (x : Pool ι Op Ans ε α (σ × Option ι)) (first rest : List ι) :
    released d part x (first ++ rest) =
      released d part x first ++ released d part (x.run (locked d part) first) rest := by
  induction first generalizing x with
  | nil => rfl
  | cons i first ih => rw [List.cons_append, released, released, ih, List.append_assoc]; rfl

/-- A thread takes effect only by its own turn. -/
theorem mem_of_mem_released {schedule : List ι} (h : i ∈ released d part x schedule) :
    i ∈ schedule := by
  induction schedule generalizing x with
  | nil => exact h
  | cons j schedule ih =>
    rw [released, List.mem_append] at h
    rcases h with h | h
    · split at h
      · rw [List.mem_singleton] at h
        exact h ▸ List.mem_cons_self ..
      · cases h
    · exact List.mem_cons_of_mem j (ih h)

/-- What has come to its end stays as it is. -/
theorem threads_turn {a : α} (h : x.threads i = .done a) (j : ι) :
    (x.turn (locked d part) j).threads i = .done a := by
  obtain ⟨ht, -⟩ | ⟨o, k, r, t, hx, -, ht⟩ := turn_cases (locked d part) x j
  · rw [ht]
    exact h
  · have hne : i ≠ j := by
      rintro rfl
      rw [h] at hx
      cases hx
    rw [ht]
    exact (Function.update_of_ne hne ..).trans h

theorem threads_run {a : α} (h : x.threads i = .done a) (schedule : List ι) :
    (x.run (locked d part) schedule).threads i = .done a := by
  induction schedule generalizing x with
  | nil => exact h
  | cons j schedule ih => exact ih (threads_turn h j)

theorem not_mem_released {a : α} (h : x.threads i = .done a) (schedule : List ι) :
    i ∉ released d part x schedule := by
  induction schedule generalizing x with
  | nil => exact List.not_mem_nil
  | cons j schedule ih =>
    rw [released, List.mem_append, not_or]
    refine ⟨?_, ih (threads_turn h j)⟩
    split
    case isTrue hrel =>
      rw [List.mem_singleton]
      rintro rfl
      rw [h] at hrel
      cases hrel
    case isFalse => exact List.not_mem_nil

theorem returned_iff {q : Program Op Ans ε α} {a : α} : q.returned = some a ↔ q = .done a := by
  cases q with
  | done b => exact ⟨fun h => congrArg Program.done (Option.some.inj h), fun h => by cases h; rfl⟩
  | raise e => exact ⟨nofun, nofun⟩
  | call o k => exact ⟨nofun, nofun⟩

/-- A run amounts to the programs in a certain order, each as a whole: no thread is in it twice;
when nobody has the lock, the state is what they leave; who has returned got what its program
returns in its place, or one that does nothing; and who returned before another was called comes
before it. -/
structure Linearizes (d : Device Op Ans ε σ) (part : Op → Part) (p : ι → Program Op Ans ε α)
    (s : σ) (schedule order : List ι) : Prop where
  nodup : order.Nodup
  state : ((start p s).run (locked d part) schedule).state.2 = none →
    ((start p s).run (locked d part) schedule).state.1 = inTurn d p s order
  returned : ∀ i a, (((start p s).run (locked d part) schedule).threads i).returned = some a →
    (∃ pre post, order = pre ++ i :: post ∧ ((p i).run d (inTurn d p s pre)).1 = .ok a) ∨
      i ∉ order ∧ ∀ u, (p i).run d u = (.ok a, u)
  realTime : ∀ first rest i j, schedule = first ++ rest →
    (((start p s).run (locked d part) first).threads i).returned.isSome → j ∉ first →
      i ∈ order → ∃ pre post, order = pre ++ post ∧ i ∈ pre ∧ j ∉ pre

/-- Threads whose programs do what they do in one section take effect one after the other. -/
theorem linearizes (hd : Total d) (hp : ∀ i, (p i).Sectioned d part .before) (s : σ)
    (schedule : List ι) :
    Linearizes d part p s schedule (released d part (start p s) schedule) := by
  have h := serial_run hd (serial_start hp s) schedule
  rw [List.nil_append] at h
  refine ⟨h.nodup, h.free, ?_, ?_⟩
  · intro i a ha
    obtain ⟨phase, hsect, hstands⟩ := h.threads i
    rw [returned_iff] at ha
    cases phase with
    | before =>
      obtain ⟨hnot, -, hrun⟩ := hstands
      rw [ha] at hrun
      exact .inr ⟨hnot, fun u => (hrun u).symm⟩
    | inside =>
      rw [ha] at hsect
      exact absurd rfl hsect
    | after =>
      obtain ⟨-, pre, post, horder, hrun⟩ := hstands
      rw [ha] at hrun
      exact .inl ⟨pre, post, horder, (congrArg Prod.fst (hrun s)).symm⟩
  · rintro first rest i j rfl hi hj hmem
    obtain ⟨a, ha⟩ := Option.isSome_iff_exists.mp hi
    rw [released_append] at hmem ⊢
    refine ⟨_, _, rfl, ?_, fun h => hj (mem_of_mem_released h)⟩
    exact (List.mem_append.mp hmem).resolve_right (not_mem_released (returned_iff.mp ha) rest)

/-! ### No one waits for ever -/

/-- A thread that does not wait for another comes to its end by its own turns, and then nobody has
the lock. -/
theorem finishes_alone (hd : Total d) (h : Serial d part p s order x)
    (hi : x.state.2 = none ∨ x.state.2 = some i) :
    ∃ n a, (x.run (locked d part) (List.replicate n i)).threads i = .done a ∧
      (x.run (locked d part) (List.replicate n i)).state.2 = none := by
  obtain ⟨q, hq⟩ : ∃ q, q = x.threads i := ⟨_, rfl⟩
  induction q generalizing x order with
  | done a =>
    obtain ⟨phase, hsect, hstands⟩ := h.threads i
    rw [← hq] at hsect
    exact ⟨0, a, hq.symm, hi.resolve_right fun ho => hsect (hstands.inside_iff.mpr ho)⟩
  | raise e =>
    obtain ⟨phase, hsect, -⟩ := h.threads i
    rw [← hq] at hsect
    exact hsect.elim
  | call o k ih =>
    obtain ⟨phase, hsect, hstands⟩ := h.threads i
    have hfree : part o = .lock → x.state.2 = none := by
      intro ho
      rw [← hq, Sectioned, ho] at hsect
      obtain ⟨rfl, -⟩ := hsect
      exact hi.resolve_right hstands.2.1
    obtain ⟨r, t, hr⟩ : ∃ r t, locked d part i o x.state = some (r, t) :=
      locked_isSome hd hfree _
    have ht : x.turn (locked d part) i =
        { threads := Function.update x.threads i (k r), state := t } := by
      rw [turn, ← hq]
      simp only [hr]
    have hlater := ih r (x := x.turn (locked d part) i) (serial_turn hd h i) ?_ ?_
    · obtain ⟨n, a, hn⟩ := hlater
      exact ⟨n + 1, a, hn⟩
    · obtain ⟨-, hpart⟩ := locked_cases hr
      rw [ht]
      show t.2 = none ∨ t.2 = some i
      cases ho : part o with
      | lock =>
        rw [ho] at hpart
        exact .inr hpart.2
      | unlock =>
        rw [ho] at hpart
        exact .inl hpart
      | guarded =>
        rw [ho] at hpart
        rwa [hpart]
      | free =>
        rw [ho] at hpart
        rwa [hpart]
    · rw [ht]
      exact (Function.update_self i (k r) x.threads).symm

theorem run_append (x : Pool ι Op Ans ε α (σ × Option ι)) (first rest : List ι) :
    x.run (locked d part) (first ++ rest) =
      (x.run (locked d part) first).run (locked d part) rest := List.foldl_append

/-- With nobody in the section, any threads can come to their ends one after the other. -/
theorem finish_in_turn (hd : Total d) (h : Serial d part p s order x) (hx : x.state.2 = none)
    (l : List ι) :
    ∃ rest, ∀ i ∈ l, ∃ a, (x.run (locked d part) rest).threads i = .done a := by
  induction l generalizing x order with
  | nil => exact ⟨[], by simp⟩
  | cons i l ih =>
    obtain ⟨n, a, ha, hfree⟩ := finishes_alone hd h (i := i) (.inl hx)
    obtain ⟨rest, hrest⟩ := ih (serial_run hd h (List.replicate n i)) hfree
    refine ⟨List.replicate n i ++ rest, fun j hj => ?_⟩
    rw [run_append]
    rcases List.mem_cons.mp hj with rfl | hj
    · exact ⟨a, threads_run ha rest⟩
    · exact hrest j hj

/-- However far a run has come, any of the threads can still come to their ends. -/
theorem finish (hd : Total d) (hp : ∀ i, (p i).Sectioned d part .before) (s : σ)
    (schedule l : List ι) :
    ∃ rest, ∀ i ∈ l, ∃ a,
      (((start p s).run (locked d part) (schedule ++ rest)).threads i).returned = some a := by
  have h := serial_run hd (serial_start hp s) schedule
  simp only [run_append, returned_iff]
  generalize (start p s).run (locked d part) schedule = x at h ⊢
  cases ho : x.state.2 with
  | none => exact finish_in_turn hd h ho l
  | some i =>
    obtain ⟨n, a, -, hfree⟩ := finishes_alone hd h (i := i) (.inr ho)
    obtain ⟨rest, hrest⟩ := finish_in_turn hd (serial_run hd h (List.replicate n i)) hfree l
    refine ⟨List.replicate n i ++ rest, fun j hj => ?_⟩
    rw [run_append]
    exact hrest j hj

end Pool

end Interaction
