import BuffaloNas.Initrd.Gather
import Mathlib.Logic.Relation

/-! When the gathering of libraries ends, and which libraries it has copied by then. -/
namespace BuffaloNas.Initrd

variable {target : Target} {starts : List LibName} {s t : Gathering} {lib : LibName}

/-! ### The libraries that are wanted -/

/-- The first copy of a library names the other one as NEEDED. -/
def Needs (target : Target) (a b : LibName) : Prop :=
  ∃ needed, (find target a).1 = some needed ∧ b ∈ needed

/-- Reachable from the starts through the NEEDED relation. -/
def Reachable (target : Target) (starts : List LibName) (lib : LibName) : Prop :=
  ∃ a ∈ starts, Relation.ReflTransGen (Needs target) a lib

/-- Reachable without passing `modules`, whose name is taken from the beginning. -/
def Wanted (target : Target) (starts : List LibName) (lib : LibName) : Prop :=
  ∃ a ∈ starts, Relation.ReflTransGen (fun a b => a ≠ modules ∧ Needs target a b) a lib

theorem Wanted.next {needed : List LibName} {b : LibName} (h : Wanted target starts lib)
    (hne : lib ≠ modules) (hf : (find target lib).1 = some needed) (hb : b ∈ needed) :
    Wanted target starts b := by
  obtain ⟨a, ha, hr⟩ := h
  exact ⟨a, ha, hr.tail ⟨hne, needed, hf, hb⟩⟩

theorem Wanted.reachable (h : Wanted target starts lib) : Reachable target starts lib := by
  obtain ⟨a, ha, hr⟩ := h
  exact ⟨a, ha, Relation.ReflTransGen.mono (fun _ _ hab => hab.2) _ _ hr⟩

/-- While `modules` is not reachable, no path passes it. -/
theorem Reachable.wanted (hm : ¬ Reachable target starts modules)
    (h : Reachable target starts lib) : Wanted target starts lib := by
  obtain ⟨a, ha, hr⟩ := h
  refine ⟨a, ha, ?_⟩
  induction hr with
  | refl => exact .refl
  | @tail b c hab hbc ih =>
    refine ih.tail ⟨?_, hbc⟩
    rintro rfl
    exact hm ⟨a, ha, hab⟩

/-! ### What a step of the `for` loop does -/

theorem find_mem {needed : List LibName} (h : (find target lib).1 = some needed) :
    lib ∈ target.map File.name := by
  obtain ⟨file, hmem, hcopy⟩ := List.exists_of_findSome?_eq_some h
  split at hcopy
  case isTrue hname => exact List.mem_map.mpr ⟨file, hmem, hname⟩
  case isFalse => cases hcopy

theorem has_iff : s.has lib = true ↔ lib = modules ∨ lib ∈ s.copied := by simp [Gathering.has]

/-- A library that is there already is passed over. -/
theorem gatherLib_of_has (h : s.has lib = true) : gatherLib target s lib = s := by
  rw [gatherLib, if_pos h]

theorem lookup_of_not_has (h : s.has lib = false) : s.lib.lookup lib = none := by
  rw [List.lookup_eq_none_iff]
  intro p hp
  have hne : lib ≠ p.1 := by
    rintro rfl
    have hmem : p.1 ∈ s.copied := List.mem_map.mpr ⟨p, hp, rfl⟩
    rw [has_iff.mpr (.inr hmem)] at h
    cases h
  simpa using hne

/-- A library that `find` does not find sets `recurse`, and nothing else. -/
theorem gatherLib_of_none (h : s.has lib = false) (hf : (find target lib).1 = none) :
    gatherLib target s lib = { s with recurse := true } := by
  have hlook := lookup_of_not_has h
  have hpair : find target lib = (none, 0) := Prod.ext hf rfl
  simp [gatherLib, h, hpair, Gathering.needed, hlook]

/-- A library that `find` finds is copied, and what it needs joins the list. -/
theorem gatherLib_of_some {needed : List LibName} (h : s.has lib = false)
    (hf : (find target lib).1 = some needed) :
    gatherLib target s lib =
      ⟨s.importlibs ++ needed, true, s.lib ++ [(lib, needed)]⟩ := by
  have hlook : (s.lib ++ [(lib, needed)]).lookup lib = some needed := by
    rw [List.lookup_append, lookup_of_not_has h]
    simp
  have hpair : find target lib = (some needed, 0) := Prod.ext hf rfl
  simp [gatherLib, h, hpair, Gathering.needed, hlook]

/-- The cases of a step. -/
theorem gatherLib_cases (target : Target) (s : Gathering) (lib : LibName) :
    (s.has lib = true ∧ gatherLib target s lib = s) ∨
      (s.has lib = false ∧ (find target lib).1 = none ∧
        gatherLib target s lib = { s with recurse := true }) ∨
      ∃ needed, s.has lib = false ∧ (find target lib).1 = some needed ∧
        gatherLib target s lib =
          ⟨s.importlibs ++ needed, true, s.lib ++ [(lib, needed)]⟩ := by
  cases h : s.has lib with
  | true => exact .inl ⟨rfl, gatherLib_of_has h⟩
  | false =>
    cases hf : (find target lib).1 with
    | none => exact .inr (.inl ⟨rfl, rfl, gatherLib_of_none h hf⟩)
    | some needed => exact .inr (.inr ⟨needed, rfl, rfl, gatherLib_of_some h hf⟩)

/-! ### The invariant -/

/-- Everything on the list is wanted, the starts are on it, and for every copy what it needs. -/
structure Invariant (target : Target) (starts : List LibName) (s : Gathering) : Prop where
  wanted : ∀ lib ∈ s.importlibs, Wanted target starts lib
  starts : ∀ lib ∈ starts, lib ∈ s.importlibs
  found : ∀ p ∈ s.lib, p.1 ≠ modules ∧ p.1 ∈ s.importlibs ∧ (find target p.1).1 = some p.2
  needed : ∀ p ∈ s.lib, ∀ lib ∈ p.2, lib ∈ s.importlibs
  nodup : s.copied.Nodup

theorem invariant_start (target : Target) (bins : List (Option (List LibName))) :
    Invariant target (importLibs bins) (Initrd.start bins) := by
  refine ⟨fun lib h => ⟨lib, h, .refl⟩, fun _ h => h, ?_, ?_, List.nodup_nil⟩
  · intro p hp
    cases hp
  · intro p hp
    cases hp

theorem invariant_gatherLib (h : Invariant target starts s) (hlib : lib ∈ s.importlibs) :
    Invariant target starts (gatherLib target s lib) := by
  obtain ⟨hh, he⟩ | ⟨hh, hf, he⟩ | ⟨needed, hh, hf, he⟩ := gatherLib_cases target s lib
  · rwa [he]
  · rw [he]
    exact ⟨h.wanted, h.starts, h.found, h.needed, h.nodup⟩
  · have hnew : lib ≠ modules ∧ lib ∉ s.copied := by simpa [Gathering.has] using hh
    rw [he]
    refine ⟨?_, ?_, ?_, ?_, ?_⟩
    · intro l hl
      rcases List.mem_append.mp hl with hl | hl
      · exact h.wanted l hl
      · exact (h.wanted lib hlib).next hnew.1 hf hl
    · intro l hl
      exact List.mem_append_left _ (h.starts l hl)
    · intro p hp
      rcases List.mem_append.mp hp with hp | hp
      · obtain ⟨h1, h2, h3⟩ := h.found p hp
        exact ⟨h1, List.mem_append_left _ h2, h3⟩
      · obtain rfl := List.mem_singleton.mp hp
        exact ⟨hnew.1, List.mem_append_left _ hlib, hf⟩
    · intro p hp l hl
      rcases List.mem_append.mp hp with hp | hp
      · exact List.mem_append_left _ (h.needed p hp l hl)
      · obtain rfl := List.mem_singleton.mp hp
        exact List.mem_append_right _ hl
    · have hcopied : Gathering.copied ⟨s.importlibs ++ needed, true, s.lib ++ [(lib, needed)]⟩ =
          s.copied ++ [lib] := by simp [Gathering.copied]
      rw [hcopied]
      exact List.Nodup.append h.nodup (List.nodup_singleton lib) (by simpa using hnew.2)

/-- The list only grows while the `for` loop runs. -/
theorem importlibs_gatherLib {l : LibName} (h : l ∈ s.importlibs) (lib : LibName) :
    l ∈ (gatherLib target s lib).importlibs := by
  obtain ⟨-, he⟩ | ⟨-, -, he⟩ | ⟨needed, -, -, he⟩ := gatherLib_cases target s lib
  · rwa [he]
  · rwa [he]
  · rw [he]
    exact List.mem_append_left _ h

theorem invariant_foldl (words : List LibName) (h : Invariant target starts s)
    (hwords : ∀ lib ∈ words, lib ∈ s.importlibs) :
    Invariant target starts (words.foldl (gatherLib target) s) := by
  induction words generalizing s with
  | nil => exact h
  | cons lib words ih =>
    refine ih (invariant_gatherLib h (hwords lib (List.mem_cons_self ..))) ?_
    intro l hl
    exact importlibs_gatherLib (hwords l (List.mem_cons_of_mem lib hl)) lib

theorem invariant_round (h : Invariant target starts s) :
    Invariant target starts (round target s) := by
  have hreset : Invariant target starts { s with recurse := false } :=
    ⟨h.wanted, h.starts, h.found, h.needed, h.nodup⟩
  have hfold := invariant_foldl s.importlibs hreset fun _ hl => hl
  refine ⟨?_, ?_, ?_, ?_, hfold.nodup⟩
  · intro l hl
    exact hfold.wanted l (mem_sortU.mp hl)
  · intro l hl
    exact mem_sortU.mpr (hfold.starts l hl)
  · intro p hp
    obtain ⟨h1, h2, h3⟩ := hfold.found p hp
    exact ⟨h1, mem_sortU.mpr h2, h3⟩
  · intro p hp l hl
    exact mem_sortU.mpr (hfold.needed p hp l hl)

/-! ### The last round -/

/-- A `for` loop that leaves `recurse` unset has found every word there, and changes nothing. -/
theorem foldl_of_recurse (words : List LibName)
    (h : (words.foldl (gatherLib target) s).recurse = false) :
    words.foldl (gatherLib target) s = s ∧ ∀ lib ∈ words, s.has lib = true := by
  induction words generalizing s with
  | nil => exact ⟨rfl, fun _ hl => by cases hl⟩
  | cons lib words ih =>
    rw [List.foldl_cons] at h ⊢
    obtain ⟨heq, hall⟩ := ih h
    rw [heq] at h ⊢
    obtain ⟨hh, he⟩ | ⟨-, -, he⟩ | ⟨needed, -, -, he⟩ := gatherLib_cases target s lib
    · rw [he] at hall ⊢
      refine ⟨rfl, fun l hl => ?_⟩
      rcases List.mem_cons.mp hl with rfl | hl
      · exact hh
      · exact hall l hl
    · rw [he] at h
      cases h
    · rw [he] at h
      cases h

/-- Nothing on the list is missing when `recurse` is unset. -/
def Settled (s : Gathering) : Prop := s.recurse = false → ∀ lib ∈ s.importlibs, s.has lib = true

theorem settled_round (target : Target) (s : Gathering) : Settled (round target s) := by
  intro h lib hlib
  obtain ⟨heq, hall⟩ := foldl_of_recurse s.importlibs h
  simp only [round, heq] at hlib ⊢
  exact hall lib (mem_sortU.mp hlib)

/-- What the `while` loop leaves has come out of a round, or was there from the beginning. -/
theorem gather_spec {n : ℕ} (h : gather target n s = some t) (hi : Invariant target starts s)
    (hs : Settled s) : Invariant target starts t ∧ Settled t ∧ t.recurse = false := by
  induction n generalizing s with
  | zero => cases h
  | succ n ih =>
    rw [gather] at h
    split at h
    case isTrue => exact ih h (invariant_round hi) (settled_round target s)
    case isFalse hr =>
      obtain rfl := Option.some.inj h
      exact ⟨hi, hs, by simpa using hr⟩

/-- When the loop has ended, the copies are the wanted libraries but for `modules`. -/
theorem copied_of_gather {n : ℕ} {bins : List (Option (List LibName))}
    (h : gather target n (Initrd.start bins) = some t) (lib : LibName) :
    lib ∈ t.copied ↔ Wanted target (importLibs bins) lib ∧ lib ≠ modules := by
  have hs : Settled (Initrd.start bins) := fun hr => by cases hr
  obtain ⟨hi, hsettled, hr⟩ := gather_spec h (invariant_start target bins) hs
  constructor
  · intro hc
    obtain ⟨p, hp, rfl⟩ := List.mem_map.mp hc
    obtain ⟨hne, hmem, -⟩ := hi.found p hp
    exact ⟨hi.wanted _ hmem, hne⟩
  · rintro ⟨⟨a, ha, hreach⟩, hne⟩
    have hcopied : ∀ l ∈ t.importlibs, l ≠ modules → l ∈ t.copied := fun l hl hne =>
      (has_iff.mp (hsettled hr l hl)).resolve_left hne
    have hlist : lib ∈ t.importlibs := by
      clear hne
      induction hreach with
      | refl => exact hi.starts a ha
      | @tail b c hab hbc ih =>
        obtain ⟨hb, needed, hf, hc⟩ := hbc
        obtain ⟨p, hp, rfl⟩ := List.mem_map.mp (hcopied b ih hb)
        have heq := (hi.found p hp).2.2.symm.trans hf
        obtain rfl := Option.some.inj heq
        exact hi.needed p hp c hc
    exact hcopied lib hlist hne

/-! ### Rounds make progress -/

/-- Where the wanted libraries can be found, a step that sets `recurse` has copied one more. -/
theorem length_gatherLib (hf : lib ≠ modules → (find target lib).1.isSome = true) :
    s.lib.length ≤ (gatherLib target s lib).lib.length ∧
      ((gatherLib target s lib).recurse = true →
        s.recurse = true ∨ s.lib.length < (gatherLib target s lib).lib.length) := by
  obtain ⟨-, he⟩ | ⟨hh, hnone, -⟩ | ⟨needed, -, -, he⟩ := gatherLib_cases target s lib
  · rw [he]
    exact ⟨le_rfl, .inl⟩
  · have hne : lib ≠ modules := by
      rintro rfl
      simp [Gathering.has] at hh
    have := hf hne
    rw [hnone] at this
    cases this
  · rw [he]
    simp

theorem length_foldl (words : List LibName)
    (hf : ∀ lib ∈ words, lib ≠ modules → (find target lib).1.isSome = true) :
    s.lib.length ≤ (words.foldl (gatherLib target) s).lib.length ∧
      ((words.foldl (gatherLib target) s).recurse = true →
        s.recurse = true ∨ s.lib.length < (words.foldl (gatherLib target) s).lib.length) := by
  induction words generalizing s with
  | nil => exact ⟨le_rfl, .inl⟩
  | cons lib words ih =>
    obtain ⟨hle, hrec⟩ := length_gatherLib (s := s) (hf lib (List.mem_cons_self ..))
    obtain ⟨hle', hrec'⟩ := ih (s := gatherLib target s lib) fun l hl =>
      hf l (List.mem_cons_of_mem lib hl)
    refine ⟨hle.trans hle', fun h => ?_⟩
    rcases hrec' h with h' | h'
    · rcases hrec h' with h'' | h''
      · exact .inl h''
      · exact .inr (Nat.lt_of_lt_of_le h'' hle')
    · exact .inr (Nat.lt_of_le_of_lt hle h')

/-- There are no more copies than files. -/
theorem Invariant.length_le (h : Invariant target starts s) : s.lib.length ≤ target.length := by
  have hsub : s.copied ⊆ target.map File.name := by
    intro lib hlib
    obtain ⟨p, hp, rfl⟩ := List.mem_map.mp hlib
    exact find_mem (h.found p hp).2.2
  have := (List.subperm_of_subset h.nodup hsub).length_le
  simpa [Gathering.copied] using this

/-- With `k` files left to copy, `k + 2` tests are enough. -/
theorem gather_of_found
    (hf : ∀ lib, Wanted target starts lib → lib ≠ modules → (find target lib).1.isSome = true)
    (k : ℕ) (h : Invariant target starts s) (hk : target.length ≤ s.lib.length + k) :
    ∃ t, gather target (k + 2) s = some t := by
  have hround := length_foldl (s := { s with recurse := false }) s.importlibs
    fun lib hlib => hf lib (h.wanted lib hlib)
  have hi := invariant_round h
  induction k generalizing s with
  | zero =>
    have hle := hi.length_le
    have hr : (round target s).recurse = false := by
      by_contra hne
      have hr : (round target s).recurse = true := by simpa using hne
      rcases hround.2 hr with h' | h'
      · cases h'
      · have hlt : s.lib.length < (round target s).lib.length := h'
        omega
    cases hs : s.recurse with
    | true => exact ⟨round target s, by simp [gather, hs, hr]⟩
    | false => exact ⟨s, by simp [gather, hs]⟩
  | succ k ih =>
    rw [gather]
    split
    case isFalse => exact ⟨s, rfl⟩
    case isTrue =>
      cases hr : (round target s).recurse with
      | false => exact ⟨round target s, by simp [gather, hr]⟩
      | true =>
        rcases hround.2 hr with h' | h'
        · cases h'
        · have hlt : s.lib.length < (round target s).lib.length := h'
          refine ih hi (by omega) ?_ (invariant_round hi)
          exact length_foldl _ fun lib hlib => hf lib (hi.wanted lib hlib)

/-! ### Results -/

/-- Once the loop has ended, there was a file for every library that is wanted. -/
theorem found_of_gather {n : ℕ} {bins : List (Option (List LibName))}
    (h : gather target n (Initrd.start bins) = some t) (hw : Wanted target (importLibs bins) lib)
    (hne : lib ≠ modules) : (find target lib).1.isSome = true := by
  have hs : Settled (Initrd.start bins) := fun hr => by cases hr
  obtain ⟨hi, -, -⟩ := gather_spec h (invariant_start target bins) hs
  obtain ⟨p, hp, rfl⟩ := List.mem_map.mp ((copied_of_gather h lib).mpr ⟨hw, hne⟩)
  rw [(hi.found p hp).2.2]
  rfl

/-- The loop ends, whatever the NEEDED entries are, exactly if there is a file to copy for every
library that is wanted. -/
theorem gather_ends_iff (target : Target) (bins : List (Option (List LibName))) :
    (∃ n t, gather target n (Initrd.start bins) = some t) ↔
      ∀ lib, Wanted target (importLibs bins) lib → lib ≠ modules →
        (find target lib).1.isSome = true := by
  constructor
  · rintro ⟨n, t, h⟩ lib hw hne
    exact found_of_gather h hw hne
  · intro hf
    obtain ⟨t, ht⟩ := gather_of_found hf target.length (invariant_start target bins)
      (Nat.le_add_left ..)
    exact ⟨_, t, ht⟩

/-- `libc` -/
def libc : LibName where
  text := ['l', 'i', 'b', 'c']
  plain := by decide
  ordinary := by decide

/-- `ld` -/
def loader : LibName where
  text := ['l', 'd']
  plain := by decide
  ordinary := by decide

theorem mem_importLibs {bins : List (Option (List LibName))} :
    lib ∈ importLibs bins ↔ ∃ needed, some needed ∈ bins ∧ lib ∈ needed := by
  rw [importLibs, mem_sortU, List.mem_flatMap]
  constructor
  · rintro ⟨bin, hbin, hlib⟩
    cases bin with
    | none => cases hlib
    | some needed => exact ⟨needed, hbin, hlib⟩
  · rintro ⟨needed, hbin, hlib⟩
    exact ⟨some needed, hbin, hlib⟩

/-- One library, and no file of that name. -/
theorem not_gather_ends :
    ¬ ∃ n t, gather [] n (Initrd.start [some [libc]]) = some t := by
  rintro ⟨n, t, h⟩
  have hw : Wanted [] (importLibs [some [libc]]) libc :=
    ⟨libc, mem_importLibs.mpr ⟨[libc], by decide, by decide⟩, .refl⟩
  have hfound := found_of_gather h hw (by decide)
  cases hfound

/-- When the loop has ended, the copies are the reachable libraries, exactly if none of these has
the name of the directory that is there from the beginning. -/
theorem copied_eq_reachable_iff {n : ℕ} {bins : List (Option (List LibName))}
    (h : gather target n (Initrd.start bins) = some t) :
    (∀ lib, lib ∈ t.copied ↔ Reachable target (importLibs bins) lib) ↔
      ¬ Reachable target (importLibs bins) modules := by
  constructor
  · intro hall hm
    exact ((copied_of_gather h modules).mp ((hall modules).mpr hm)).2 rfl
  · intro hm lib
    rw [copied_of_gather h]
    constructor
    · exact fun hw => hw.1.reachable
    · intro hr
      refine ⟨hr.wanted hm, ?_⟩
      rintro rfl
      exact hm hr

/-- `libc` and the loader need each other. -/
def twoFiles : Target := [⟨libc, some [loader]⟩, ⟨loader, some [libc]⟩]

theorem copied_twoFiles :
    (∀ lib, lib ∈ [libc, loader] ↔ Reachable twoFiles (importLibs [some [libc], none]) lib) ↔
      ¬ Reachable twoFiles (importLibs [some [libc], none]) modules :=
  copied_eq_reachable_iff (n := 4)
    (t := ⟨[loader, libc], false, [(libc, [loader]), (loader, [libc])]⟩) (by decide)

/-- A library called `modules` is not copied. -/
theorem not_copied_modules :
    ∃ t, gather [⟨modules, some []⟩] 2 (Initrd.start [some [modules]]) = some t ∧
      ¬ ∀ lib, lib ∈ t.copied ↔
        Reachable [⟨modules, some []⟩] (importLibs [some [modules]]) lib := by
  refine ⟨⟨[modules], false, []⟩, by decide, fun h => ?_⟩
  have hstart : modules ∈ importLibs [some [modules]] :=
    mem_importLibs.mpr ⟨[modules], by decide, by decide⟩
  have hmem := (h modules).mpr ⟨modules, hstart, .refl⟩
  cases hmem

end BuffaloNas.Initrd
