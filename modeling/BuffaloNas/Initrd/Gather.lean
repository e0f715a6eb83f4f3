import Mathlib.Data.Char
import Mathlib.Data.List.Dedup
import Mathlib.Data.List.Lex
import Mathlib.Data.List.Sort

/-! The loop of `generate_initrd` that gathers the libraries of the imported binaries. -/
namespace BuffaloNas.Initrd

/-! ### Names and files -/

/-- NUL, tab, newline, blank, the quotes, the slash, the backslash and the glob characters. -/
def isSpecial (c : Char) : Bool := c.toNat ∈ [0, 9, 10, 32, 34, 39, 42, 47, 63, 91, 92, 93]

/-- The name of a library: one word to the shell and to `xargs`, only itself to `find -name`, and
a file of its own in every directory. -/
structure LibName where
  text : List Char
  plain : text.all (fun c => !isSpecial c) = true
  ordinary : text ≠ [] ∧ text.head? ≠ some '-' ∧ text ≠ ['.'] ∧ text ≠ ['.', '.']
  deriving DecidableEq

/-- A file below `TARGET_DIR`. What `cp` makes of it is told by the NEEDED entries of the copy;
directories and dangling links are not copied. -/
structure File where
  name : LibName
  copy : Option (List LibName)
  deriving DecidableEq

/-- The files in the order in which `find` comes to them. -/
abbrev Target := List File

/-- `find "$TARGET_DIR" -name "$lib" -exec cp {} "$tmplib" \; -quit`: the first file that can be
copied, and the exit status of a traversal without errors. -/
def find (target : Target) (lib : LibName) : Option (List LibName) × ℕ :=
  (target.findSome? fun file => if file.name = lib then file.copy else none, 0)

/-- The directory that is made in `workdir/lib` beforehand. -/
def modules : LibName where
  text := ['m', 'o', 'd', 'u', 'l', 'e', 's']
  plain := by decide
  ordinary := by decide

/-! ### The loop -/

/-- The variables of the loop, and the copies in `workdir/lib` with their NEEDED entries. -/
structure Gathering where
  importlibs : List LibName
  recurse : Bool
  lib : List (LibName × List LibName)
  deriving DecidableEq

def Gathering.copied (s : Gathering) : List LibName := s.lib.map Prod.fst

/-- `[ -e "$workdir/lib/$lib" ]` -/
def Gathering.has (s : Gathering) (lib : LibName) : Bool := lib == modules || lib ∈ s.copied

/-- `readelf -d "$tmplib"`, for a file that may not be there. -/
def Gathering.needed (s : Gathering) (lib : LibName) : List LibName := (s.lib.lookup lib).getD []

/-- `xargs -n1 echo | sort -u` -/
def sortU (words : List LibName) : List LibName :=
  words.dedup.insertionSort fun a b => a.text ≤ b.text

variable (target : Target)

/-- The body of the `for` loop. -/
def gatherLib (s : Gathering) (lib : LibName) : Gathering :=
  if s.has lib then s
  else
    let (copy, status) := find target lib
    let s := match copy with
      | some needed => { s with lib := s.lib ++ [(lib, needed)] }
      | none => s
    if status = 0 then
      { s with recurse := true, importlibs := s.importlibs ++ s.needed lib }
    else s

/-- The words of the `for` loop are those that `importlibs` has when the round begins. -/
def round (s : Gathering) : Gathering :=
  let s := s.importlibs.foldl (gatherLib target) { s with recurse := false }
  { s with importlibs := sortU s.importlibs }

/-- What the `while` loop leaves, if it ends within so many tests of `recurse`. -/
def gather : ℕ → Gathering → Option Gathering
  | 0, _ => none
  | n + 1, s => if s.recurse then gather n (round target s) else some s

/-- The NEEDED entries of the imported binaries; some are not found. -/
def importLibs (bins : List (Option (List LibName))) : List LibName :=
  sortU (bins.flatMap fun bin => bin.getD [])

def start (bins : List (Option (List LibName))) : Gathering where
  importlibs := importLibs bins
  recurse := true
  lib := []

theorem mem_sortU {words : List LibName} {lib : LibName} : lib ∈ sortU words ↔ lib ∈ words := by
  rw [sortU, List.mem_insertionSort, List.mem_dedup]

end BuffaloNas.Initrd
