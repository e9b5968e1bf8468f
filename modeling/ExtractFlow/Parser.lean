import ExtractFlow.Lib.LowerCase
import ExtractFlow.Values

/-!
# The parser of a document

`parse_document` (`worker/app/services/parser.py`): the suffix of the path, in
lower case, selects how the file is read.  Reading text, pandas and Docling are
parameters; the selection, and `pathlib`'s notion of a suffix, are here.

## Main definitions

* `pathSuffix` — `Path(p).suffix`.
* `DocumentReader`, `documentReader` — the readers, and the selection.
* `parseDocument`.

## Main results

* `documentReader_spreadsheet` — which files are read as spreadsheets.
* `pathSuffix_suffix` — the suffix of a path ends it.
-/

namespace ExtractFlow

/-! ### Paths -/

/-- The components of a path between its slashes. -/
def pathComponents : List Char → List (List Char)
  | [] => [[]]
  | c :: cs =>
      if c = '/' then [] :: pathComponents cs
      else
        match pathComponents cs with
        | first :: rest => (c :: first) :: rest
        | [] => [[c]]

/-- `Path(p).name`: the last component that is neither empty nor a dot. -/
def pathName (p : List Char) : List Char :=
  (((pathComponents p).filter fun part => part != [] && part != ['.']).getLast?).getD []

/-- The letters after the last dot. -/
def afterLastDot (name : List Char) : List Char :=
  (name.reverse.takeWhile (· != '.')).reverse

/-- `Path(p).suffix`: from the last dot of the name, unless the name starts or
ends with it. -/
def pathSuffix (p : List Char) : List Char :=
  let name := pathName p
  let after := afterLastDot name
  if '.' ∈ name ∧ after ≠ [] ∧ after.length + 1 < name.length then '.' :: after else []

/-! ### Readers -/

/-- How a file is read: as text, by pandas as one of two kinds of tables, or by Docling. -/
inductive DocumentReader where
  | text | csv | excel
  | docling (suffix : String)
  deriving DecidableEq, Repr, Inhabited

/-- `SPREADSHEET_SUFFIXES`. -/
def parserSpreadsheetSuffixes : List (List Char) :=
  [['.', 'c', 's', 'v'], ['.', 'x', 'l', 's', 'x'], ['.', 'x', 'l', 's']]

/-- `TEXT_SUFFIXES`. -/
def parserTextSuffixes : List (List Char) := [['.', 't', 'x', 't'], ['.', 'm', 'd']]

/-- `DOCLING_SUFFIXES`. -/
def parserDoclingSuffixes : List (List Char) :=
  [['.', 'p', 'd', 'f'], ['.', 'd', 'o', 'c', 'x'], ['.', 'p', 'p', 't', 'x'],
    ['.', 'h', 't', 'm', 'l'], ['.', 'h', 't', 'm'], ['.', 'p', 'n', 'g'], ['.', 'j', 'p', 'g'],
    ['.', 'j', 'p', 'e', 'g'], ['.', 't', 'i', 'f', 'f']]

/-- The selection of `parse_document` by a lower-case suffix; `none` where
Docling is needed and disabled. -/
def readerOfSuffix (doclingEnabled : Bool) (suffix : List Char) : Option DocumentReader :=
  if parserTextSuffixes.contains suffix then some .text
  else if parserSpreadsheetSuffixes.contains suffix then
    if suffix = ['.', 'c', 's', 'v'] then some .csv else some .excel
  else if parserDoclingSuffixes.contains suffix then
    if doclingEnabled then some (.docling (String.ofList suffix)) else none
  else some .text

/-- The suffix of a path in lower case. -/
def lowerSuffix (lc : LowerCase) (path : String) : List Char :=
  (lc.lower (String.ofList (pathSuffix path.toList))).toList

/-- The reader `parse_document` selects for a path, or none when Docling would be needed and is
disabled. -/
def documentReader (lc : LowerCase) (doclingEnabled : Bool) (path : String) :
    Option DocumentReader :=
  readerOfSuffix doclingEnabled (lowerSuffix lc path)

/-- `parse_document`: the text that the selected reader makes of the file, or an error that names
the suffix. -/
def parseDocument (lc : LowerCase) (doclingEnabled : Bool)
    (read : DocumentReader → String → Except PyErr String) (path : String) :
    Except PyErr String :=
  match documentReader lc doclingEnabled path with
  | some reader => read reader path
  | none =>
      let suffix := String.ofList (lowerSuffix lc path)
      .error (.runtimeError s!"Docling parsing is disabled for {suffix} documents.")

/-- The parser treats the file as a spreadsheet. -/
def ReadsAsSpreadsheet (lc : LowerCase) (path : String) : Prop :=
  lowerSuffix lc path ∈ parserSpreadsheetSuffixes

/-- **Which files are read as spreadsheets**: those whose suffix, in lower case, is one of three. -/
theorem documentReader_spreadsheet {lc : LowerCase} {doclingEnabled : Bool} {path : String} :
    ReadsAsSpreadsheet lc path ↔
      documentReader lc doclingEnabled path = some .csv ∨
        documentReader lc doclingEnabled path = some .excel := by
  unfold ReadsAsSpreadsheet documentReader readerOfSuffix
  by_cases hsheet : lowerSuffix lc path ∈ parserSpreadsheetSuffixes
  · have htext : lowerSuffix lc path ∉ parserTextSuffixes := by
      revert hsheet
      generalize lowerSuffix lc path = suffix
      simp only [parserSpreadsheetSuffixes, parserTextSuffixes, List.mem_cons, List.not_mem_nil,
        or_false]
      rintro (rfl | rfl | rfl) <;> decide
    simp only [List.contains_iff_mem, hsheet, htext, if_true, if_false]
    split <;> simp
  · simp only [List.contains_iff_mem, hsheet, if_false]
    split
    · simp
    · split
      · split <;> simp
      · simp

/-! ### Suffixes of paths -/

/-- A list up to its first `d`, and that `d`, is a prefix of it. -/
theorem takeWhile_concat_prefix {α : Type} [DecidableEq α] {d : α} : ∀ {l : List α}, d ∈ l →
    l.takeWhile (· != d) ++ [d] <+: l := by
  intro l
  induction l with
  | nil => intro h; exact absurd h List.not_mem_nil
  | cons a l ih =>
    intro h
    by_cases ha : a = d
    · subst ha
      simp
    · have hd : d ∈ l := (List.mem_cons.mp h).resolve_left (Ne.symm ha)
      simpa [List.takeWhile_cons, ha] using ih hd

/-- The suffix of a path is the end of its name, or is empty. -/
theorem pathSuffix_suffix (p : List Char) : pathSuffix p <:+ pathName p := by
  unfold pathSuffix afterLastDot
  dsimp only
  split
  · next h =>
    have hrev : '.' ∈ (pathName p).reverse := List.mem_reverse.mpr h.1
    rw [← List.reverse_prefix, List.reverse_cons, List.reverse_reverse]
    exact takeWhile_concat_prefix hrev
  · exact List.nil_suffix

/-- The last component of a path that goes on without a slash. -/
theorem pathComponents_append {rest : List Char} (hrest : '/' ∉ rest) : ∀ pre : List Char,
    ∃ init part, pathComponents (pre ++ rest) = init ++ [part ++ rest] := by
  intro pre
  induction pre with
  | nil =>
    refine ⟨[], [], ?_⟩
    induction rest with
    | nil => rfl
    | cons c rest ih =>
      have hc : c ≠ '/' := fun h => hrest (h ▸ List.mem_cons_self ..)
      have ih := ih fun h => hrest (List.mem_cons_of_mem _ h)
      simp only [List.nil_append] at ih ⊢
      simp [pathComponents, hc, ih]
  | cons c pre ih =>
    obtain ⟨init, part, hparts⟩ := ih
    by_cases hc : c = '/'
    · exact ⟨[] :: init, part, by simp [pathComponents, hc, hparts]⟩
    · cases init with
      | nil => exact ⟨[], c :: part, by simp [pathComponents, hc, hparts]⟩
      | cons first init => exact ⟨(c :: first) :: init, part, by simp [pathComponents, hc, hparts]⟩

/-- The name of a path that ends with a hyphen and a base name ends the same way. -/
theorem pathName_append {base : List Char} (hbase : '/' ∉ base) (pre : List Char) :
    ∃ part, pathName (pre ++ '-' :: base) = part ++ '-' :: base := by
  have hrest : '/' ∉ '-' :: base := by simpa using hbase
  obtain ⟨init, part, hparts⟩ := pathComponents_append hrest pre
  refine ⟨part, ?_⟩
  have hkept : (part ++ '-' :: base != [] && part ++ '-' :: base != ['.']) = true := by
    have hhyphen : part ++ '-' :: base ≠ ['.'] := by
      intro h
      have : '-' ∈ ['.'] := h ▸ List.mem_append_right _ (List.mem_cons_self ..)
      exact absurd this (by decide)
    simp [hhyphen]
  rw [pathName, hparts, List.filter_append, List.filter_cons, if_pos hkept, List.filter_nil,
    List.getLast?_append, List.getLast?_singleton]
  rfl

end ExtractFlow
