import BuffaloNas.It87.Refresh

/-! Runs of attributes being shown and stored. -/
namespace BuffaloNas.It87
open Interaction Program SuperIo World

def eacces : ℤ := 13

namespace It87Chip

variable (c : It87Chip)

/-- Show an attribute that is there. -/
def look (a : Attribute) : Driver (List Char) :=
  if c.mode a = .hidden then return [] else c.showOf a

/-- Store in an attribute that may be written. -/
def attempt (a : Attribute) (buf : List Char) : Driver ℤ :=
  match c.mode a, c.storeOf a with
  | .writable, some f => f buf
  | _, _ => return -eacces

/-- The registers in which the chip puts what it measures. -/
def inputs : List Word :=
  (List.range 13).map regVin ++ (List.range 6).map regTemp ++ (List.range 6).map c.regFan ++
    (List.range 6).map c.regFanx ++ [regAlarm1, regAlarm2, regAlarm3, regVid] ++
    if c.has .newerAutopwm then (List.range 6).map regPwmDuty else []

end It87Chip

/-- An attribute is shown or stored, or the chip has measured something. -/
inductive Event
  | shown (a : Attribute)
  | stored (a : Attribute) (buf : List Char)
  | measured (reg : Word) (v : Byte)

namespace It87Chip

variable (c : It87Chip)

def step (w : World) : Event → World
  | .shown a => ((c.look a).run device w).2
  | .stored a buf => ((c.attempt a buf).run device w).2
  | .measured reg v => if reg ∈ c.inputs then w.write reg v else w

def run (w : World) (events : List Event) : World := events.foldl c.step w

/-- The store is accepted. -/
def accepts (w : World) (a : Attribute) (buf : List Char) : Bool :=
  match ((c.attempt a buf).run device w).1 with
  | .ok n => 0 ≤ n
  | .error _ => false

theorem attempt_eq {a : Attribute} {f : List Char → Driver ℤ} (hm : c.mode a = .writable)
    (hs : c.storeOf a = some f) (buf : List Char) : c.attempt a buf = f buf := by
  simp only [attempt, hm, hs]

theorem attempt_of_mode {a : Attribute} (hm : c.mode a ≠ .writable) (buf : List Char) :
    c.attempt a buf = pure (-eacces) := by
  unfold attempt
  split
  · contradiction
  · rfl

theorem attempt_of_store {a : Attribute} (hs : c.storeOf a = none) (buf : List Char) :
    c.attempt a buf = pure (-eacces) := by
  unfold attempt
  simp [hs]

theorem only_attempt {P : It87Op → Prop} {a : Attribute} {buf : List Char}
    (h : ∀ f, c.mode a = .writable → c.storeOf a = some f → (f buf).Only P) :
    (c.attempt a buf).Only P := by
  by_cases hm : c.mode a = .writable
  · cases hs : c.storeOf a with
    | none =>
      rw [c.attempt_of_store hs]
      exact only_pure _
    | some f =>
      rw [c.attempt_eq hm hs]
      exact h f hm hs
  · rw [c.attempt_of_mode hm]
    exact only_pure _

end It87Chip

/-! ### Showing -/

/-- Showing the attribute looks at the cache, and refreshes it. -/
def Attribute.refreshes : Attribute → Bool
  | .vrm | .in3Label | .in7Label | .in8Label | .in9Label => false
  | _ => true

namespace It87Chip

variable (c : It87Chip)

/-- Looking for the type of a sensor changes nothing. -/
theorem run_getTempType (index : ℕ) (w : World) :
    ∃ n, (c.getTempType index).run device w = (.ok n, w) := by
  have hsensor : ∀ index, ∃ n, (c.sensorType index).run device w = (.ok n, w) := fun index => by
    unfold sensorType
    split
    · exact ⟨_, rfl⟩
    · exact ⟨_, rfl⟩
  unfold getTempType
  split
  · simp only [run_bind, run_readValue, andThen_ok]
    split
    · exact ⟨_, rfl⟩
    · exact hsensor _
  · exact hsensor index

theorem run_showOf (a : Attribute) (w : World) :
    ∃ s, (c.showOf a).run device w = (.ok s, if a.refreshes then c.updated w else w) := by
  cases a
  case tempType i =>
    obtain ⟨n, hn⟩ := c.run_getTempType i (c.updated w)
    refine ⟨line n, ?_⟩
    simp only [showOf, showTempType, run_bind, run_updateDevice, andThen_ok, hn, run_pure]
    rfl
  case vrm => exact ⟨_, rfl⟩
  case in3Label => exact ⟨_, rfl⟩
  case in7Label => exact ⟨_, rfl⟩
  case in8Label => exact ⟨_, rfl⟩
  case in9Label => exact ⟨_, rfl⟩
  all_goals exact ⟨_, c.run_showing _ w⟩

/-- Showing an attribute does nothing, or brings the cache up to date. -/
theorem step_shown (a : Attribute) (w : World) : c.step w (.shown a) =
    if c.mode a ≠ .hidden ∧ a.refreshes then c.updated w else w := by
  rw [step, look]
  by_cases hm : c.mode a = .hidden
  · simp [hm]
  · obtain ⟨s, hs⟩ := c.run_showOf a w
    simp [hm, hs]

end It87Chip

end BuffaloNas.It87
