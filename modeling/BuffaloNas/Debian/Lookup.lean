import Mathlib.Data.List.Basic
import Mathlib.Data.List.TakeWhile
import Mathlib.Tactic.Basic

/-! How `debian_import` finds a package in the index of a distribution. -/
namespace BuffaloNas.Debian

abbrev Line := List Char

/-! ### `grep` -/

/-- What stands for one character of a line in a basic regular expression. -/
inductive Atom
  | any
  | char (c : Char)
  deriving DecidableEq

def Atom.accepts : Atom → Char → Bool
  | any, _ => true
  | char a, c => a == c

/-- A dot is a wildcard; the plus sign is none without a backslash. -/
def atom (c : Char) : Atom := if c = '.' then .any else .char c

/-- An expression that begins with `^`, and maybe ends with `$`. -/
structure Pattern where
  atoms : List Atom
  toEnd : Bool

/-- The atoms match a line from its start. -/
def acceptsFrom (toEnd : Bool) : List Atom → Line → Bool
  | [], line => !toEnd || line.isEmpty
  | _ :: _, [] => false
  | a :: as, c :: line => a.accepts c && acceptsFrom toEnd as line

def Pattern.accepts (p : Pattern) (line : Line) : Bool := acceptsFrom p.toEnd p.atoms line

/-- `^$text$`, and `^$text` -/
def pattern (text : Line) (toEnd : Bool) : Pattern := ⟨text.map atom, toEnd⟩

/-! ### The lookup -/

/-- The characters of package names. -/
def isNameChar (c : Char) : Bool :=
  c.isLower || c.isDigit || c == '+' || c == '-' || c == '.'

structure PkgName where
  text : Line
  plain : text.all isNameChar = true
  deriving DecidableEq

/-- `Package: ` -/
def packageField : Line := ['P', 'a', 'c', 'k', 'a', 'g', 'e', ':', ' ']

/-- `Filename` -/
def filenameField : Line := ['F', 'i', 'l', 'e', 'n', 'a', 'm', 'e']

/-- `gawk '\x7bprint $2\x7d'` -/
def secondWord (line : Line) : Line :=
  let rest := (line.dropWhile Char.isWhitespace).dropWhile fun c => !c.isWhitespace
  (rest.dropWhile Char.isWhitespace).takeWhile fun c => !c.isWhitespace

inductive Failure
  /-- package not found in $distro-$arch-$suite index -/
  | notFound
  deriving DecidableEq

/-- From the regular expression to `deb_url`. -/
def debUrl (pkg : PkgName) (packages : List Line) : Except Failure Line :=
  let re := pattern (packageField ++ pkg.text) true
  match packages.findIdx? re.accepts with
  | none => .error .notFound
  | some i =>
    -- `grep -n` counts from one, and so does `tail -n +`
    let recordStart := i + 1
    let filename := (packages.drop (recordStart - 1)).find? (pattern filenameField false).accepts
    .ok ((filename.map secondWord).getD [])

/-! ### Package indices -/

/-- A line of a stanza with neither the name nor the file of the package. -/
def isOther (line : Line) : Bool :=
  !line.isEmpty && !packageField.dropLast.isPrefixOf line && !filenameField.isPrefixOf line

/-- A stanza begins with the name of the package, and says once which file it is in. -/
structure Stanza where
  name : PkgName
  before : List Line
  filename : Line
  after : List Line
  others : (before ++ after).all isOther = true
  word : filename ≠ [] ∧ filename.all (fun c => !c.isWhitespace) = true

namespace Stanza

variable (s : Stanza)

def packageLine : Line := packageField ++ s.name.text

def filenameLine : Line := filenameField ++ [':', ' '] ++ s.filename

/-- An empty line ends it. -/
def lines : List Line := s.packageLine :: (s.before ++ s.filenameLine :: (s.after ++ [[]]))

end Stanza

def packagesOf (index : List Stanza) : List Line := index.flatMap Stanza.lines

/-- The name fits the requested one, with anything in place of a dot. -/
def Fits (pkg name : PkgName) : Bool := acceptsFrom true (pkg.text.map atom) name.text

/-! ### Matching -/

section
variable {pkg : PkgName} {toEnd : Bool} {as : List Atom} {text line : Line} {s : Stanza}

/-- Text without dots matches itself alone. -/
theorem acceptsFrom_text (toEnd : Bool) (as : List Atom) (line : Line) (h : '.' ∉ text) :
    acceptsFrom toEnd (text.map atom ++ as) line = true ↔
      ∃ rest, line = text ++ rest ∧ acceptsFrom toEnd as rest = true := by
  induction text generalizing line with
  | nil => simp
  | cons c text ih =>
    have hc : atom c = .char c := if_neg fun he => h (List.mem_cons.mpr (.inl he.symm))
    have htext : '.' ∉ text := fun hmem => h (List.mem_cons_of_mem c hmem)
    cases line with
    | nil => simp [acceptsFrom]
    | cons d line =>
      simp only [List.map_cons, List.cons_append, acceptsFrom, hc, Atom.accepts, Bool.and_eq_true,
        beq_iff_eq, ih line htext]
      constructor
      · rintro ⟨rfl, rest, rfl, hrest⟩
        exact ⟨rest, rfl, hrest⟩
      · rintro ⟨rest, hline, hrest⟩
        obtain ⟨rfl, rfl⟩ := List.cons.inj hline
        exact ⟨rfl, rest, rfl, hrest⟩

theorem accepts_package :
    (pattern (packageField ++ pkg.text) true).accepts line = true ↔
      ∃ rest, line = packageField ++ rest ∧ acceptsFrom true (pkg.text.map atom) rest = true := by
  rw [Pattern.accepts, pattern, List.map_append]
  exact acceptsFrom_text _ _ _ (by decide)

theorem accepts_filename :
    (pattern filenameField false).accepts line = true ↔ ∃ rest, line = filenameField ++ rest := by
  have hdot : '.' ∉ filenameField := by decide
  have h := acceptsFrom_text false [] line hdot
  rw [List.append_nil] at h
  rw [Pattern.accepts, pattern, h]
  simp [acceptsFrom]

theorem accepts_packageLine :
    (pattern (packageField ++ pkg.text) true).accepts s.packageLine = Fits pkg s.name := by
  rw [Bool.eq_iff_iff, accepts_package]
  constructor
  · rintro ⟨rest, hline, hrest⟩
    rw [Fits, List.append_cancel_left hline]
    exact hrest
  · exact fun h => ⟨s.name.text, rfl, h⟩

/-- The lines of a stanza beside its first say nothing of a package's name. -/
theorem not_accepts_package (h : line ∈ s.before ++ s.filenameLine :: (s.after ++ [[]])) :
    (pattern (packageField ++ pkg.text) true).accepts line = false := by
  rw [Bool.eq_false_iff]
  intro hacc
  obtain ⟨rest, rfl, -⟩ := accepts_package.mp hacc
  have hother : ∀ l ∈ s.before ++ s.after, isOther l = true := List.all_eq_true.mp s.others
  have hno : isOther (packageField ++ rest) ≠ true := by
    simp [isOther, packageField, List.isPrefixOf]
  rcases List.mem_append.mp h with hb | hb
  · exact hno (hother _ (List.mem_append_left _ hb))
  rcases List.mem_cons.mp hb with hf | hb
  · simp [packageField, Stanza.filenameLine, filenameField] at hf
  rcases List.mem_append.mp hb with ha | he
  · exact hno (hother _ (List.mem_append_right _ ha))
  · simp [packageField] at he

/-- The first line with a file name from the start of a stanza on is the stanza's. -/
theorem find_filename (s : Stanza) (rest : List Line) :
    (s.lines ++ rest).find? (pattern filenameField false).accepts = some s.filenameLine := by
  have hpackage : (pattern filenameField false).accepts s.packageLine = false := by
    rw [Bool.eq_false_iff]
    intro hacc
    obtain ⟨text, htext⟩ := accepts_filename.mp hacc
    simp [Stanza.packageLine, packageField, filenameField] at htext
  have hbefore : s.before.find? (pattern filenameField false).accepts = none := by
    rw [List.find?_eq_none]
    intro line hline hacc
    obtain ⟨text, rfl⟩ := accepts_filename.mp hacc
    have hother := List.all_eq_true.mp s.others _ (List.mem_append_left _ hline)
    have hprefix : filenameField.isPrefixOf (filenameField ++ text) = true :=
      List.isPrefixOf_iff_prefix.mpr (List.prefix_append ..)
    simp [isOther, hprefix] at hother
  have hfile : (pattern filenameField false).accepts s.filenameLine = true :=
    accepts_filename.mpr ⟨_, List.append_assoc ..⟩
  rw [Stanza.lines, List.cons_append, List.find?_cons_of_neg (by simp [hpackage]),
    List.append_assoc, List.find?_append, hbefore, Option.none_or, List.cons_append,
    List.find?_cons_of_pos hfile]

theorem secondWord_filenameLine : secondWord s.filenameLine = s.filename := by
  obtain ⟨hne, hall⟩ := s.word
  have hword : ∀ c ∈ s.filename, (!c.isWhitespace) = true := List.all_eq_true.mp hall
  have hdrop : s.filename.dropWhile Char.isWhitespace = s.filename := by
    cases hf : s.filename with
    | nil => rfl
    | cons c rest =>
      have hc := hword c (hf ▸ List.mem_cons_self ..)
      exact List.dropWhile_cons_of_neg (by simpa using hc)
  have hrest : secondWord s.filenameLine =
      (s.filename.dropWhile Char.isWhitespace).takeWhile fun c => !c.isWhitespace := rfl
  rw [hrest, hdrop]
  exact List.takeWhile_eq_self_iff.mpr hword

/-! ### What is found -/

theorem debUrl_skip {ls rest : List Line}
    (h : ∀ line ∈ ls, (pattern (packageField ++ pkg.text) true).accepts line = false) :
    debUrl pkg (ls ++ rest) = debUrl pkg rest := by
  have hskip : ls.findIdx? (pattern (packageField ++ pkg.text) true).accepts = none := by
    rw [List.findIdx?_eq_none_iff]
    exact h
  simp only [debUrl, List.findIdx?_append, hskip, Option.none_or]
  cases rest.findIdx? (pattern (packageField ++ pkg.text) true).accepts with
  | none => rfl
  | some i =>
    have hdrop : (ls ++ rest).drop (i + ls.length) = rest.drop i := by
      rw [Nat.add_comm, List.drop_append]
      simp
    simp only [Option.map_some, Nat.add_sub_cancel, hdrop]

theorem debUrl_first {rest : List Line} (h : Fits pkg s.name = true) :
    debUrl pkg (s.lines ++ rest) = .ok s.filename := by
  have hfirst : (s.lines ++ rest).findIdx? (pattern (packageField ++ pkg.text) true).accepts =
      some 0 := by
    rw [Stanza.lines, List.cons_append, List.findIdx?_cons, accepts_packageLine, h, if_pos rfl]
  simp only [debUrl, hfirst, Nat.zero_add, Nat.sub_self, List.drop_zero, find_filename,
    Option.map_some, Option.getD_some, secondWord_filenameLine]

/-- `debian_import` takes the first stanza whose name fits. -/
theorem debUrl_packagesOf (pkg : PkgName) (index : List Stanza) :
    debUrl pkg (packagesOf index) =
      match index.find? fun s => Fits pkg s.name with
      | some s => .ok s.filename
      | none => .error .notFound := by
  induction index with
  | nil => rfl
  | cons s index ih =>
    have hlines : packagesOf (s :: index) = s.lines ++ packagesOf index := List.flatMap_cons
    rw [hlines]
    rw [List.find?_cons]
    cases hfit : Fits pkg s.name with
    | true => exact debUrl_first hfit
    | false =>
      refine (debUrl_skip fun line hline => ?_).trans ih
      rcases List.mem_cons.mp hline with rfl | hline
      · rw [accepts_packageLine, hfit]
      · exact not_accepts_package hline

end

/-- The first stanza of a name. -/
def stanzaOf (pkg : PkgName) (index : List Stanza) : Option Stanza :=
  index.find? fun s => s.name = pkg

/-- The file of the first stanza with the name is selected, and without one there is an error. -/
def Selects (pkg : PkgName) (index : List Stanza) : Prop :=
  (∀ s, stanzaOf pkg index = some s → debUrl pkg (packagesOf index) = .ok s.filename) ∧
    (debUrl pkg (packagesOf index) = .error .notFound ↔ stanzaOf pkg index = none)

/-- The first stanza that fits has the name, or at least the file of the first one that has. -/
def FitsFirst (pkg : PkgName) (index : List Stanza) : Prop :=
  ∀ s, (index.find? fun s => Fits pkg s.name) = some s →
    s.name = pkg ∨ ∃ t, stanzaOf pkg index = some t ∧ t.filename = s.filename

section
variable {pkg name : PkgName} {index : List Stanza} {s : Stanza}

/-- Every name fits itself. -/
theorem fits_self (pkg : PkgName) : Fits pkg pkg = true := by
  unfold Fits
  induction pkg.text with
  | nil => rfl
  | cons c text ih =>
    have hc : (atom c).accepts c = true := by
      unfold atom
      split <;> simp [Atom.accepts]
    simp only [List.map_cons, acceptsFrom, hc, ih, Bool.and_self]

/-- A name without dots fits no other. -/
theorem eq_of_fits (hdot : '.' ∉ pkg.text) (h : Fits pkg name = true) : name = pkg := by
  have hfit := (acceptsFrom_text true [] name.text hdot).mp
    (by rw [List.append_nil]; exact h)
  obtain ⟨rest, hline, hrest⟩ := hfit
  obtain rfl : rest = [] := by simpa [acceptsFrom] using hrest
  rw [List.append_nil] at hline
  obtain ⟨text, plain⟩ := pkg
  obtain ⟨text', plain'⟩ := name
  obtain rfl : text' = text := hline
  rfl

/-- Where the first stanza that fits has the name, it is the first with the name. -/
theorem stanzaOf_of_fits (h : (index.find? fun s => Fits pkg s.name) = some s)
    (hname : s.name = pkg) : stanzaOf pkg index = some s := by
  obtain ⟨-, as, bs, rfl, has⟩ := List.find?_eq_some_iff_append.mp h
  refine List.find?_eq_some_iff_append.mpr ⟨by simpa using hname, as, bs, rfl, fun a ha => ?_⟩
  have hno := has a ha
  have hne : a.name ≠ pkg := by
    intro he
    rw [he, fits_self] at hno
    cases hno
  simpa using hne

/-- Without a stanza that fits there is none with the name. -/
theorem stanzaOf_of_none (h : (index.find? fun s => Fits pkg s.name) = none) :
    stanzaOf pkg index = none := by
  rw [List.find?_eq_none] at h
  refine List.find?_eq_none.mpr fun s hs hname => h s hs ?_
  have he : s.name = pkg := by simpa using hname
  rw [he]
  exact fits_self pkg

theorem selects_iff (pkg : PkgName) (index : List Stanza) :
    Selects pkg index ↔ FitsFirst pkg index := by
  unfold Selects FitsFirst
  rw [debUrl_packagesOf]
  cases h : index.find? fun s => Fits pkg s.name with
  | none => simp [stanzaOf_of_none h]
  | some s =>
    constructor
    · rintro ⟨hfile, herror⟩ s' hs
      obtain rfl := Option.some.inj hs
      cases ht : stanzaOf pkg index with
      | none => cases herror.mpr ht
      | some t => exact .inr ⟨t, rfl, (Except.ok.inj (hfile t ht)).symm⟩
    · intro hfits
      have hstanza : ∃ t, stanzaOf pkg index = some t ∧ t.filename = s.filename := by
        rcases hfits s rfl with hname | ht
        · exact ⟨s, stanzaOf_of_fits h hname, rfl⟩
        · exact ht
      obtain ⟨t, ht, hfile⟩ := hstanza
      refine ⟨fun s' hs' => ?_, ?_⟩
      · obtain rfl := Option.some.inj (ht.symm.trans hs')
        rw [hfile]
      · rw [ht]
        exact ⟨fun h => (by cases h), fun h => (by cases h)⟩

/-- So every package without a dot in its name is found in every index. -/
theorem selects_of_dotless (hdot : '.' ∉ pkg.text) (index : List Stanza) : Selects pkg index := by
  refine (selects_iff pkg index).mpr fun s hs => .inl (eq_of_fits hdot ?_)
  obtain ⟨hfit, -⟩ := List.find?_eq_some_iff_append.mp hs
  exact hfit

end

/-! ### A library of two versions -/

/-- `libdb5.3` -/
def libdb : PkgName := ⟨['l', 'i', 'b', 'd', 'b', '5', '.', '3'], by decide⟩

/-- A stanza of two lines. -/
def short (name : PkgName) (filename : Line)
    (word : filename ≠ [] ∧ filename.all (fun c => !c.isWhitespace) = true) : Stanza where
  name := name
  before := []
  filename := filename
  after := []
  others := rfl
  word := word

/-- `libdb5-3` comes first. -/
def libdbs : List Stanza :=
  [short ⟨['l', 'i', 'b', 'd', 'b', '5', '-', '3'], by decide⟩ ['a'] (by decide),
    short libdb ['b'] (by decide)]

/-- The file of the wrong package is selected. -/
theorem not_selects : ¬ ∀ (pkg : PkgName) (index : List Stanza), Selects pkg index := by
  intro h
  obtain ⟨hfile, -⟩ := h libdb libdbs
  have hurl : debUrl libdb (packagesOf libdbs) = .ok ['a'] := by
    rw [debUrl_packagesOf]
    rfl
  have hwrong := hurl.symm.trans (hfile (short libdb ['b'] (by decide)) rfl)
  cases hwrong

end BuffaloNas.Debian
