import ExtractFlow.BlobStore
import ExtractFlow.Lib.RealPath

/-!
# References and the paths they stand for

`shared/extraction_core/storage_refs.py`.  A reference is resolved below a root,
and a path below the root is turned back into a reference.  Both go through
`Path.resolve`, which follows the symbolic links of the file system; there are none
below the root, and whatever there are elsewhere.

A backslash is a letter of a POSIX file name, and a separator of a reference.  So a
path comes back from its reference unless a name between the root and the file has
a backslash, which a link from outside can hide.

## Main definitions

* `Machine` — the links, the working directory and the home directories.
* `resolveStoragePath`, `buildStorageReference`.
* `SafeReference.text` — a reference as the program spells it.

## Main results

* `normalizeStorageReference_joinSlash` — what a path of plain names is normalised to.
* `storage_references_inside` — references name files strictly below the root, and
  paths and references determine each other.
* `link_to_backslash` — a link to a directory with a backslash.
-/

namespace ExtractFlow

open Segments RealPath

/-! ### The file system -/

/-- What `Path.resolve` and `Path.expanduser` read of the machine: its symbolic links, the working
directory, and the home directories. -/
structure Machine where
  links : Links
  cwd : List Name := []
  /-- The home directory `~` or `~user` stands for. -/
  home : Name → Option (List Char) := fun _ => none
  cwd_real : Real links cwd

/-- The parts of a `Path`. -/
def pathTail (path : List Char) : List Name :=
  (pathComponents path).filter fun part => part != [] && part != ['.']

/-- `Path(...).as_posix()` of a relative path. -/
def asPosix (parts : List Name) : List Char := if parts = [] then ['.'] else joinSlash parts

/-- `Path(path).is_absolute()`. -/
def isAbsolute (path : List Char) : Bool := path.head? == some '/'

/-- `Path(path).expanduser()`; `none` where it raises. -/
def Machine.expanduser (m : Machine) (path : List Char) : Option (List Char) :=
  match isAbsolute path, pathTail path with
  | false, first :: rest =>
      if first.head? = some '~' then (m.home first).map fun home => joinSlash (home :: rest)
      else some path
  | _, _ => some path

/-- `Path(path).resolve()` when at most `fuel` links are on the way; `none` where it
raises. -/
def Machine.resolve (m : Machine) (fuel : ℕ) (path : List Char) : Option (List Name) :=
  realpath m.links fuel (if isAbsolute path then [] else m.cwd) (pathComponents path)

/-- `Path(root).expanduser().resolve()`. -/
def Machine.resolvedRoot (m : Machine) (fuel : ℕ) (root : List Char) : Option (List Name) :=
  (m.expanduser root).bind (m.resolve fuel)

/-- A real path as a string. -/
def absolutePath (parts : List Name) : List Char := '/' :: joinSlash parts

/-- The string `normalize_storage_reference` returns: the segments with slashes between them. -/
def SafeReference.text (reference : SafeReference) : String :=
  String.ofList (joinSlash reference.segments)

/-- `path.relative_to(root)`; `none` outside the root. -/
def relativeTo (path root : List Name) : Option (List Name) :=
  if root.isPrefixOf path then some (path.drop root.length) else none

/-- `resolve_storage_path`: the path that a reference stands for below a root; `none` where it
raises, and so for every path outside. -/
def resolveStoragePath (m : Machine) (fuel : ℕ) (candidate : String) (root : List Char) :
    Option (List Name) := do
  let resolvedRoot ← m.resolvedRoot fuel root
  let cleaned ← normalizeStorageReference candidate
  let resolved ← m.resolve fuel (absolutePath (resolvedRoot ++ cleaned.segments))
  if (relativeTo resolved resolvedRoot).isSome then some resolved else none

/-- `build_storage_reference`: the reference of a path, which is taken relative to the root if it is
absolute; `none` where it raises. -/
def buildStorageReference (m : Machine) (fuel : ℕ) (candidate root : List Char) :
    Option SafeReference := do
  let resolvedRoot ← m.resolvedRoot fuel root
  let raw ← m.expanduser candidate
  if isAbsolute raw then
    let resolved ← m.resolve fuel raw
    let relative ← relativeTo resolved resolvedRoot
    normalizeStorageReference (String.ofList (asPosix relative))
  else normalizeStorageReference (String.ofList (asPosix (pathTail raw)))

/-! ### Words of plain names -/

/-- Letters without a slash go in front of the first component. -/
theorem pathComponents_append_of_free {word first : List Char} {rest : List (List Char)}
    (hword : pathComponents word = first :: rest) : ∀ {segment : List Char}, Free '/' segment →
      pathComponents (segment ++ word) = (segment ++ first) :: rest := by
  intro segment
  induction segment with
  | nil => exact fun _ => hword
  | cons c segment ih =>
    intro hfree
    obtain ⟨hc, hsegment⟩ := hfree.of_cons
    rw [List.cons_append, pathComponents, if_neg (Ne.symm hc), ih hsegment]
    rfl

theorem pathComponents_name {name : List Char} (h : Free '/' name) :
    pathComponents name = [name] := by
  have hnil : pathComponents [] = [[]] := rfl
  simpa using pathComponents_append_of_free hnil h

/-- The components of a word of segments, with a slash and another word behind it. -/
theorem pathComponents_join_append (word : List Char) : ∀ {segments : List (List Char)}
    {segment : List Char}, Free '/' segment → (∀ s ∈ segments, Free '/' s) →
      pathComponents (segment ++ join '/' segments ++ '/' :: word) =
        segment :: segments ++ pathComponents word := by
  intro segments
  induction segments with
  | nil =>
    intro segment hsegment _
    have hword : pathComponents ('/' :: word) = [] :: pathComponents word := by
      rw [pathComponents, if_pos rfl]
    rw [join_nil, List.append_nil, pathComponents_append_of_free hword hsegment, List.append_nil]
    rfl
  | cons s segments ih =>
    intro segment hsegment hsegments
    obtain ⟨hs, hrest⟩ := List.forall_mem_cons.mp hsegments
    have hword : pathComponents ('/' :: (s ++ join '/' segments ++ '/' :: word)) =
        [] :: (s :: segments ++ pathComponents word) := by
      rw [pathComponents, if_pos rfl, ih hs hrest]
    rw [join_cons, List.append_assoc, List.cons_append,
      pathComponents_append_of_free hword hsegment, List.append_nil]
    rfl

/-- The components of a word of segments. -/
theorem pathComponents_append_join : ∀ {segments : List (List Char)} {segment : List Char},
    Free '/' segment → (∀ s ∈ segments, Free '/' s) →
      pathComponents (segment ++ join '/' segments) = segment :: segments := by
  intro segments
  induction segments with
  | nil =>
    intro segment hsegment _
    rw [join_nil, List.append_nil, pathComponents_name hsegment]
  | cons s segments ih =>
    intro segment hsegment hsegments
    obtain ⟨hs, hrest⟩ := List.forall_mem_cons.mp hsegments
    have hword : pathComponents (join '/' (s :: segments)) = [] :: s :: segments := by
      rw [join_cons, pathComponents, if_pos rfl, ih hs hrest]
    rw [pathComponents_append_of_free hword hsegment, List.append_nil]

theorem pathComponents_ne_nil (path : List Char) : pathComponents path ≠ [] := by
  cases path with
  | nil => simp [pathComponents]
  | cons c path =>
    rw [pathComponents]
    split
    · exact List.cons_ne_nil _ _
    · split <;> exact List.cons_ne_nil _ _

/-- A word is that of its components. -/
theorem join_pathComponents (path : List Char) :
    join '/' (pathComponents path) = '/' :: path := by
  induction path with
  | nil => rfl
  | cons c path ih =>
    rw [pathComponents]
    split
    · next hc => rw [join_cons, List.nil_append, ih, hc]
    · cases hparts : pathComponents path with
      | nil => exact absurd hparts (pathComponents_ne_nil path)
      | cons first rest =>
        rw [hparts, join_cons] at ih
        show '/' :: (c :: first ++ join '/' rest) = '/' :: c :: path
        rw [List.cons_append, (List.cons.inj ih).2]

theorem joinSlash_cons (part : List Char) (parts : List (List Char)) :
    joinSlash (part :: parts) = part ++ join '/' parts := rfl

theorem joinSlash_append {parts : List (List Char)} (hne : parts ≠ [])
    (parts' : List (List Char)) :
    joinSlash (parts ++ parts') = joinSlash parts ++ join '/' parts' := by
  cases parts with
  | nil => exact absurd rfl hne
  | cons part parts =>
    rw [List.cons_append, joinSlash_cons, joinSlash_cons, join_append, List.append_assoc]

/-- The components of a relative path. -/
theorem pathComponents_joinSlash {parts : List (List Char)} (hne : parts ≠ [])
    (hfree : ∀ part ∈ parts, Free '/' part) : pathComponents (joinSlash parts) = parts := by
  cases parts with
  | nil => exact absurd rfl hne
  | cons part parts =>
    obtain ⟨hpart, hparts⟩ := List.forall_mem_cons.mp hfree
    rw [joinSlash_cons, pathComponents_append_join hpart hparts]

/-- The loop of `normpath` keeps plain names. -/
theorem normpathParts_plain {absolute : Bool} : ∀ {parts kept : List (List Char)},
    (∀ part ∈ parts, Plain part) →
      normpathParts absolute kept parts = kept.reverse ++ parts := by
  intro parts
  induction parts with
  | nil => intro kept _; rw [normpathParts, List.append_nil]
  | cons part parts ih =>
    intro kept hplain
    obtain ⟨hpart, hparts⟩ := List.forall_mem_cons.mp hplain
    rw [normpathParts, if_neg (not_or.mpr ⟨hpart.ne_nil, hpart.ne_dot⟩),
      if_pos (Or.inl hpart.ne_dots), ih hparts, List.reverse_cons, List.append_assoc]
    rfl

/-- A relative path of plain names starts with a letter. -/
theorem joinSlash_eq_cons {parts : List (List Char)} (hne : parts ≠ [])
    (hplain : ∀ part ∈ parts, Plain part) : ∃ c cs, joinSlash parts = c :: cs ∧ c ≠ '/' := by
  cases parts with
  | nil => exact absurd rfl hne
  | cons part parts =>
    have hpart := hplain part (List.mem_cons_self ..)
    cases hletters : part with
    | nil => exact absurd hletters hpart.ne_nil
    | cons c cs =>
      refine ⟨c, cs ++ join '/' parts, rfl, fun hc => ?_⟩
      exact hpart.free (by rw [hletters, hc]; exact List.mem_cons_self ..)

/-- `normpath` keeps a relative path of plain names. -/
theorem normpath_joinSlash {parts : List (List Char)} (hne : parts ≠ [])
    (hplain : ∀ part ∈ parts, Plain part) : normpath (joinSlash parts) = joinSlash parts := by
  obtain ⟨c, cs, hletters, hc⟩ := joinSlash_eq_cons hne hplain
  have hslashes : initialSlashes (joinSlash parts) = 0 := by
    rw [hletters]
    unfold initialSlashes
    split <;> simp_all
  unfold normpath
  dsimp only
  rw [hslashes, pathComponents_joinSlash hne fun part hpart => (hplain part hpart).free,
    normpathParts_plain hplain, List.replicate_zero, List.nil_append, List.reverse_nil,
    List.nil_append, if_neg]
  rw [hletters]
  exact List.cons_ne_nil _ _

/-- A safe segment is a plain name without backslashes. -/
theorem SafeSegment.plain {segment : List Char} (h : SafeSegment segment) :
    Plain segment ∧ '\\' ∉ segment := by
  have hfirst : ∀ cs, segment ≠ '.' :: cs := by
    rintro cs rfl
    exact absurd h.1 (by decide)
  refine ⟨⟨?_, hfirst _, hfirst _, h.free⟩, fun hmem => ?_⟩
  · rintro rfl
    exact h
  · cases segment with
    | nil => exact h
    | cons c cs =>
      rcases List.mem_cons.mp hmem with rfl | hmem
      · exact absurd h.1 (by decide)
      · exact absurd (h.2 _ hmem) (by decide)

theorem mem_joinSlash {c : Char} {parts : List (List Char)} (h : c ∈ joinSlash parts) :
    c = '/' ∨ ∃ part ∈ parts, c ∈ part := by
  have hjoin : ∀ parts : List (List Char), c ∈ join '/' parts →
      c = '/' ∨ ∃ part ∈ parts, c ∈ part := by
    intro parts
    induction parts with
    | nil => exact fun h => absurd h List.not_mem_nil
    | cons part parts ih =>
      intro h
      rw [join_cons, List.mem_cons, List.mem_append] at h
      rcases h with hc | hc | hc
      · exact Or.inl hc
      · exact Or.inr ⟨part, List.mem_cons_self .., hc⟩
      · rcases ih hc with hc | ⟨p, hp, hc⟩
        · exact Or.inl hc
        · exact Or.inr ⟨p, List.mem_cons_of_mem _ hp, hc⟩
  exact hjoin parts (List.mem_of_mem_tail h)

/-- `.replace("\\", "/")`. -/
def slashed (path : List Char) : List Char := path.map fun c => if c = '\\' then '/' else c

theorem slashed_of_notMem {path : List Char} (h : '\\' ∉ path) : slashed path = path := by
  refine (List.map_congr_left fun c hmem => if_neg fun hslash => ?_).trans (List.map_id _)
  exact h (hslash ▸ hmem)

theorem dropWhile_slash {path : List Char} (h : path.head? ≠ some '/') :
    path.dropWhile (· == '/') = path := by
  cases path with
  | nil => rfl
  | cons c cs => exact List.dropWhile_cons_of_neg (by simpa using h)

/-- Safe components leave nothing for the other checks to refuse. -/
theorem checks_of_safe {path : List Char}
    (hsafe : ∀ segment ∈ pathComponents path, SafeSegment segment) :
    path.head? ≠ some '/' ∧ ¬(path = [] ∨ path = ['.'] ∨ path = ['.', '.'] ∨
      (pathComponents path).contains ['.', '.'] = true) := by
  have hname : ∀ name : List Char, ¬ SafeSegment name → Free '/' name → path ≠ name := by
    rintro name hname hfree rfl
    rw [pathComponents_name hfree] at hsafe
    exact hname (hsafe _ (List.mem_singleton_self _))
  constructor
  · cases path with
    | nil => simp
    | cons c cs =>
      intro hc
      obtain rfl := Option.some.inj hc
      exact hsafe [] (by rw [pathComponents, if_pos rfl]; exact List.mem_cons_self ..)
  · rintro (h | h | h | h)
    · exact hname [] (fun h => h) (by simp [Free]) h
    · exact hname ['.'] (by decide) (by decide) h
    · exact hname ['.', '.'] (by decide) (by decide) h
    · exact absurd (hsafe _ (List.contains_iff_mem.mp h)) (by decide)

/-- **The references accepted**: those whose components, behind `normpath` and with
slashes for backslashes, are safe. -/
theorem normalizeStorageReference_iff {s : String} {reference : SafeReference} :
    normalizeStorageReference s = some reference ↔
      pathComponents (slashed (normpath s.toList)) = reference.segments := by
  unfold normalizeStorageReference slashed
  dsimp only
  constructor
  · intro h
    split at h
    · cases h
    · next hhead =>
      rw [← dropWhile_slash hhead]
      split at h
      · cases h
      · split at h
        · obtain rfl := Option.some.inj h
          rfl
        · cases h
  · intro h
    -- safe components pass every check that the code makes on the text
    obtain ⟨hhead, hchecks⟩ := checks_of_safe (h ▸ reference.safe)
    split
    · next hslash => exact absurd hslash hhead
    · simp only [dropWhile_slash hhead]
      rw [if_neg hchecks, dif_pos ⟨h ▸ reference.nonempty, h ▸ reference.safe⟩]
      cases reference
      cases h
      rfl

/-- A relative path of plain names without backslashes is normalised to its names. -/
theorem normalizeStorageReference_joinSlash {parts : List (List Char)} (hne : parts ≠ [])
    (hplain : ∀ part ∈ parts, Plain part) (hback : ∀ part ∈ parts, '\\' ∉ part)
    {reference : SafeReference} :
    normalizeStorageReference (String.ofList (joinSlash parts)) = some reference ↔
      parts = reference.segments := by
  have hnone : '\\' ∉ joinSlash parts := by
    intro hmem
    rcases mem_joinSlash hmem with hc | ⟨part, hpart, hc⟩
    · cases hc
    · exact hback part hpart hc
  rw [normalizeStorageReference_iff, String.toList_ofList, normpath_joinSlash hne hplain,
    slashed_of_notMem hnone,
    pathComponents_joinSlash hne fun part hpart => (hplain part hpart).free]

/-- **Normalising a normalised reference changes nothing.** -/
theorem normalizeStorageReference_text (reference : SafeReference) :
    normalizeStorageReference reference.text = some reference := by
  exact (normalizeStorageReference_joinSlash reference.nonempty
    (fun part hpart => (reference.safe part hpart).plain.1)
    (fun part hpart => (reference.safe part hpart).plain.2)).mpr rfl

/-! ### Resolving -/

section Resolve

variable {m : Machine} {fuel : ℕ} {root : List Char} {rootPath : List Name}

/-- The components of a path have no slashes, since it is cut at every one. -/
theorem free_of_mem_pathComponents : ∀ {path part : List Char}, part ∈ pathComponents path →
    Free '/' part := by
  intro path
  induction path with
  | nil =>
    intro part hpart
    rw [pathComponents, List.mem_singleton] at hpart
    subst hpart
    exact List.not_mem_nil
  | cons c path ih =>
    intro part hpart
    rw [pathComponents] at hpart
    split at hpart
    · rcases List.mem_cons.mp hpart with rfl | hpart
      · exact List.not_mem_nil
      · exact ih hpart
    · next hc =>
      -- A letter that is no slash goes into the first component behind it.
      split at hpart
      · next first rest hparts =>
        rcases List.mem_cons.mp hpart with rfl | hpart
        · intro hmem
          rcases List.mem_cons.mp hmem with hslash | hmem
          · exact hc hslash.symm
          · exact ih (hparts ▸ List.mem_cons_self ..) hmem
        · exact ih (hparts ▸ List.mem_cons_of_mem _ hpart)
      · rw [List.mem_singleton] at hpart
        subst hpart
        simpa [Free] using Ne.symm hc

/-- What a path resolves to is real. -/
theorem Machine.resolve_real {path : List Char} {real : List Name}
    (h : m.resolve fuel path = some real) : Real m.links real := by
  refine realpath_real ?_ (fun part hpart => free_of_mem_pathComponents hpart) h
  split
  · exact .root
  · exact m.cwd_real

theorem Machine.resolvedRoot_real (h : m.resolvedRoot fuel root = some rootPath) :
    Real m.links rootPath := by
  obtain ⟨path, -, hpath⟩ := Option.bind_eq_some_iff.mp h
  exact m.resolve_real hpath

/-- A real path resolves to itself. -/
theorem Machine.resolve_absolutePath (fuel : ℕ) {real : List Name} (h : Real m.links real)
    (hne : real ≠ []) : m.resolve fuel (absolutePath real) = some real := by
  have hcomponents : pathComponents (absolutePath real) = [] :: real := by
    rw [absolutePath, pathComponents, if_pos rfl,
      pathComponents_joinSlash hne fun part hpart => (h.plain part hpart).free]
  unfold Machine.resolve
  rw [hcomponents, realpath_nil_cons]
  exact realpath_of_real fuel h

/-- An absolute path has no home directory in it. -/
theorem Machine.expanduser_absolute {path : List Char} (h : isAbsolute path = true) :
    m.expanduser path = some path := by
  unfold Machine.expanduser
  rw [h]

theorem relativeTo_append (path below : List Name) :
    relativeTo (path ++ below) path = some below := by
  unfold relativeTo
  rw [if_pos (List.isPrefixOf_iff_prefix.mpr (List.prefix_append path below)), List.drop_left]

theorem relativeTo_eq_some {path : List Name} {below : List Name}
    (h : relativeTo path rootPath = some below) : path = rootPath ++ below := by
  unfold relativeTo at h
  split at h
  · next hprefix =>
    obtain ⟨rest, rfl⟩ := List.isPrefixOf_iff_prefix.mp hprefix
    rw [List.drop_left] at h
    rw [Option.some.inj h]
  · cases h

/-- An accepted reference resolves to its names below the root. -/
theorem resolveStoragePath_eq {s : String} {reference : SafeReference}
    (hroot : m.resolvedRoot fuel root = some rootPath)
    (hlinks : ∀ below ≠ [], m.links (rootPath ++ below) = none)
    (h : normalizeStorageReference s = some reference) :
    resolveStoragePath m fuel s root = some (rootPath ++ reference.segments) := by
  have hreal : Real m.links (rootPath ++ reference.segments) :=
    (m.resolvedRoot_real hroot).append hlinks fun name hname => (reference.safe name hname).plain.1
  have hne : rootPath ++ reference.segments ≠ [] :=
    List.append_ne_nil_of_right_ne_nil _ reference.nonempty
  unfold resolveStoragePath
  rw [hroot, h]
  simp only [Option.bind_eq_bind, Option.bind_some]
  rw [m.resolve_absolutePath fuel hreal hne, Option.bind_some, relativeTo_append]
  rfl

/-- The reference built from an absolute path is that of what it resolves to. -/
theorem buildStorageReference_absolute {path : List Char} {real : List Name}
    (hroot : m.resolvedRoot fuel root = some rootPath) (habsolute : isAbsolute path = true)
    (hreal : m.resolve fuel path = some real) :
    buildStorageReference m fuel path root =
      (relativeTo real rootPath).bind fun below =>
        normalizeStorageReference (String.ofList (asPosix below)) := by
  unfold buildStorageReference
  rw [hroot, m.expanduser_absolute habsolute]
  simp only [Option.bind_eq_bind, Option.bind_some]
  rw [if_pos habsolute, hreal, Option.bind_some]

end Resolve

/-! ### References and paths -/

/-- **References stay inside their root.**  What is accepted is a list of plain
segments, and normalised already; it resolves to a path strictly below the root,
from which the same reference is built; and an absolute path is that of its
reference, unless a name below the root has a backslash. -/
theorem storage_references_inside {m : Machine} {fuel : ℕ} {root : List Char}
    {rootPath : List Name} (hroot : m.resolvedRoot fuel root = some rootPath)
    (hlinks : ∀ below ≠ [], m.links (rootPath ++ below) = none) :
    (∀ s reference, normalizeStorageReference s = some reference →
      (reference.segments ≠ [] ∧
        ∀ part ∈ reference.segments, part ≠ [] ∧ part ≠ ['.'] ∧ part ≠ ['.', '.'] ∧ '/' ∉ part) ∧
      normalizeStorageReference reference.text = some reference ∧
      ∃ below ≠ [], resolveStoragePath m fuel s root = some (rootPath ++ below) ∧
        buildStorageReference m fuel (absolutePath (rootPath ++ below)) root = some reference) ∧
    ∀ path real reference, isAbsolute path = true → m.resolve fuel path = some real →
      (∀ below, real = rootPath ++ below → ∀ name ∈ below, '\\' ∉ name) →
      buildStorageReference m fuel path root = some reference →
      resolveStoragePath m fuel reference.text root = some real := by
  constructor
  · intro s reference h
    have hplain : ∀ part ∈ reference.segments, Plain part :=
      fun part hpart => (reference.safe part hpart).plain.1
    -- safe segments are plain names, and no link is below the root: the path is real
    have hbelow : Real m.links (rootPath ++ reference.segments) :=
      (m.resolvedRoot_real hroot).append hlinks hplain
    refine ⟨⟨reference.nonempty, fun part hpart => ?_⟩, normalizeStorageReference_text reference,
      reference.segments, reference.nonempty, resolveStoragePath_eq hroot hlinks h, ?_⟩
    · obtain ⟨hnil, hdot, hdots, hfree⟩ := hplain part hpart
      exact ⟨hnil, hdot, hdots, hfree⟩
    · rw [buildStorageReference_absolute hroot rfl (m.resolve_absolutePath fuel hbelow
        (List.append_ne_nil_of_right_ne_nil _ reference.nonempty)), relativeTo_append,
        Option.bind_some, asPosix, if_neg reference.nonempty]
      exact normalizeStorageReference_text reference
  · intro path real reference habsolute hreal hback hbuild
    rw [buildStorageReference_absolute hroot habsolute hreal] at hbuild
    obtain ⟨below, hrelative, hnormal⟩ := Option.bind_eq_some_iff.mp hbuild
    obtain rfl := relativeTo_eq_some hrelative
    -- the root itself has no reference
    have hne : below ≠ [] := by
      rintro rfl
      have hdot : normalizeStorageReference "." = none := by decide
      rw [asPosix, if_pos rfl, hdot] at hnormal
      cases hnormal
    have hplain : ∀ name ∈ below, Plain name := fun name hname =>
      (m.resolve_real hreal).plain name (List.mem_append_right _ hname)
    rw [asPosix, if_neg hne, normalizeStorageReference_joinSlash hne hplain (hback below rfl)]
      at hnormal
    rw [hnormal]
    exact resolveStoragePath_eq hroot hlinks (normalizeStorageReference_text reference)

/-! ### A link to a backslash -/

/-- A machine on which `/link` leads to the directory `a\b` below `/data`. -/
def linkedMachine : Machine where
  links path :=
    if path = [['l', 'i', 'n', 'k']] then
      some ⟨true, [['d', 'a', 't', 'a'], ['a', '\\', 'b']], by decide⟩
    else none
  cwd_real := .root

theorem linkedMachine_links {below : List Name} (_ : below ≠ []) :
    linkedMachine.links ([['d', 'a', 't', 'a']] ++ below) = none := by
  have hne : [['d', 'a', 't', 'a']] ++ below ≠ [['l', 'i', 'n', 'k']] := by simp
  simp only [linkedMachine, if_neg hne]

theorem linkedMachine_root :
    linkedMachine.resolvedRoot 1 "/data".toList = some [['d', 'a', 't', 'a']] := by decide

/-- The theorem on that machine, at a reference with a dot and a backslash, and at a
path with two dots. -/
theorem storage_references_inside_linked :
    (∃ below ≠ [], resolveStoragePath linkedMachine 1 "a/./b\\c.txt" "/data".toList =
      some ([['d', 'a', 't', 'a']] ++ below)) ∧
    resolveStoragePath linkedMachine 1 "a" "/data".toList =
      some [['d', 'a', 't', 'a'], ['a']] := by
  obtain ⟨hreference, hpath⟩ :=
    storage_references_inside linkedMachine_root fun _ h => linkedMachine_links h
  constructor
  · obtain ⟨-, -, below, hne, hresolved, -⟩ := hreference "a/./b\\c.txt"
      ⟨[['a'], ['b'], ['c', '.', 't', 'x', 't']], by decide, by decide⟩ (by decide)
    exact ⟨below, hne, hresolved⟩
  · refine hpath "/data/x/../a".toList _ plainReference (by decide) (by decide) ?_ (by decide)
    intro below hbelow
    obtain rfl : [['a']] = below := (List.cons.inj hbelow).2
    decide

/-- **A backslash hidden by a link**: the reference of `/link` is `a/b`, and names
another file than `/link` does. -/
theorem link_to_backslash :
    ¬ ∀ (m : Machine) (fuel : ℕ) (root : List Char) (rootPath : List Name),
      m.resolvedRoot fuel root = some rootPath →
      (∀ below ≠ [], m.links (rootPath ++ below) = none) →
      ∀ path real reference, isAbsolute path = true → '\\' ∉ path →
        m.resolve fuel path = some real →
        buildStorageReference m fuel path root = some reference →
        resolveStoragePath m fuel reference.text root = some real := by
  intro h
  let reference : SafeReference := ⟨[['a'], ['b']], by decide, by decide⟩
  have hresolved := h linkedMachine 1 "/data".toList [['d', 'a', 't', 'a']] linkedMachine_root
    (fun _ hne => linkedMachine_links hne) "/link".toList
    [['d', 'a', 't', 'a'], ['a', '\\', 'b']] reference (by decide) (by decide) (by decide)
    (by decide)
  revert hresolved
  decide

end ExtractFlow
