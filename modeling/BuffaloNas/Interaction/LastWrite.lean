import Mathlib.Data.List.Induction

/-! Places that every action either overwrites or leaves alone. -/
namespace Interaction

variable {α β γ σ : Type}

/-- What the last writing action wrote, if any did. -/
def lastWrite (write : α → Option β) (as : List α) : Option β := (as.filterMap write).getLast?

@[simp] theorem lastWrite_nil (write : α → Option β) : lastWrite write [] = none := rfl

theorem lastWrite_append (write : α → Option β) (as bs : List α) :
    lastWrite write (as ++ bs) = (lastWrite write bs).or (lastWrite write as) := by
  simp only [lastWrite, List.filterMap_append, List.getLast?_append]

@[simp] theorem lastWrite_singleton (write : α → Option β) (a : α) :
    lastWrite write [a] = write a := by
  cases h : write a <;> simp [lastWrite, h]

theorem lastWrite_map (write : α → Option β) (f : β → γ) (as : List α) :
    lastWrite (fun a => (write a).map f) as = (lastWrite write as).map f := by
  rw [lastWrite, lastWrite, ← List.getLast?_map, List.map_filterMap]

/-- Every action writes a new value to the place or leaves the old one there. -/
def Overwrites (place : σ → β) (act : σ → α → σ) (write : α → Option β) : Prop :=
  ∀ s a, place (act s a) = (write a).getD (place s)

variable {act : σ → α → σ} {place : σ → β} {write : α → Option β}

/-- A run leaves in a place what the last writer wrote. -/
theorem Overwrites.foldl (h : Overwrites place act write) (as : List α) (s : σ) :
    place (as.foldl act s) = (lastWrite write as).getD (place s) := by
  induction as using List.reverseRecOn with
  | nil => rfl
  | append_singleton as a ih =>
    rw [List.foldl_append, List.foldl_cons, List.foldl_nil, h, ih, lastWrite_append,
      lastWrite_singleton]
    cases write a <;> rfl

/-- Two actions, not both of which write a place, leave the same there in either order. -/
theorem Overwrites.comm (h : Overwrites place act write) {a b : α}
    (hab : write a = none ∨ write b = none) (s : σ) :
    place (act (act s a) b) = place (act (act s b) a) := by
  rcases hab with hn | hn <;> rw [h, h, h, h, hn, Option.getD_none, Option.getD_none]

end Interaction
