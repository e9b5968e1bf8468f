import ExtractFlow.Lib.Segments

/-!
# Paths through symbolic links

A path is followed from a directory component by component.  Empty components and
dots are skipped, two dots go to the parent, and a component that is a symbolic
link is replaced by the components of its target.  What comes out is a real path:
none of its components is special, and none is a link.  A path that is real
already is its own result.

A path through a loop of links has none, so the walk is given a number of links it
may follow.

## Main definitions

* `Target` — what a symbolic link points to.
* `follow`, `realpath` — the walk up to the first link, and the whole walk.
* `Plain`, `Real` — the components and the paths that come out.

## Main results

* `realpath_real` — what comes out is real.
* `realpath_of_real` — a real path is its own.
-/

namespace RealPath

open Segments

abbrev Name := List Char

/-- The target of a symbolic link, cut at its slashes: whether it starts at the root, and the names
between the slashes, which hold none themselves. -/
structure Target where
  absolute : Bool
  parts : List Name
  free : ∀ part ∈ parts, Free '/' part

/-- The symbolic links, by their own real paths. -/
abbrev Links := List Name → Option Target

/-- The directory a target is followed from. -/
def Target.start (target : Target) (dir : List Name) : List Name :=
  if target.absolute then [] else dir

/-- The walk along the components from a directory up to the first link, where `onLink` goes on with
the link’s directory and what is left to walk. A path without links is followed to its end. -/
def follow (links : Links) (onLink : List Name → List Name → Option (List Name)) :
    List Name → List Name → Option (List Name)
  | dir, [] => some dir
  | dir, name :: rest =>
      if name = [] ∨ name = ['.'] then follow links onLink dir rest
      else if name = ['.', '.'] then follow links onLink dir.dropLast rest
      else
        match links (dir ++ [name]) with
        | none => follow links onLink (dir ++ [name]) rest
        | some target => onLink (target.start dir) (target.parts ++ rest)

/-- The real path behind a directory and the components that follow it, when at most
`fuel` links are on the way. -/
def realpath (links : Links) : ℕ → List Name → List Name → Option (List Name)
  | 0 => follow links fun _ _ => none
  | fuel + 1 => follow links (realpath links fuel)

/-! ### Real paths -/

/-- A component that names something inside its directory: not empty, not one of the two special
names, and without a separator. -/
structure Plain (name : Name) : Prop where
  ne_nil : name ≠ []
  ne_dot : name ≠ ['.']
  ne_dots : name ≠ ['.', '.']
  free : Free '/' name

/-- A path without special components and without links: what `realpath` returns. -/
inductive Real (links : Links) : List Name → Prop
  | root : Real links []
  | snoc {dir : List Name} {name : Name} (hdir : Real links dir) (hname : Plain name)
      (hlink : links (dir ++ [name]) = none) : Real links (dir ++ [name])

variable {links : Links} {dir rest path : List Name} {name : Name}

/-- The last step of a real path. -/
theorem Real.of_snoc (h : Real links (dir ++ [name])) :
    Real links dir ∧ Plain name ∧ links (dir ++ [name]) = none := by
  generalize hpath : dir ++ [name] = path at h
  cases h with
  | root => simp at hpath
  | snoc hdir hname hlink =>
    obtain ⟨rfl, hlast⟩ := List.append_inj' hpath rfl
    obtain rfl := (List.cons.inj hlast).1
    exact ⟨hdir, hname, hlink⟩

theorem Real.dropLast (h : Real links path) : Real links path.dropLast := by
  cases h with
  | root => exact .root
  | snoc hdir _ _ =>
    rw [List.dropLast_concat]
    exact hdir

/-- The beginning of a real path is real. -/
theorem Real.of_append : ∀ {rest : List Name}, Real links (dir ++ rest) → Real links dir := by
  intro rest
  induction rest using List.reverseRecOn with
  | nil => intro h; rwa [List.append_nil] at h
  | append_singleton rest name ih =>
    intro h
    rw [← List.append_assoc] at h
    exact ih h.of_snoc.1

/-- Every component of a real path is plain. -/
theorem Real.plain (h : Real links path) : ∀ name ∈ path, Plain name := by
  induction h with
  | root => simp
  | snoc _ hname _ ih =>
    intro name hmem
    rcases List.mem_append.mp hmem with hmem | hmem
    · exact ih name hmem
    · exact List.mem_singleton.mp hmem ▸ hname

/-- Plain components below a real directory that has no links below it. -/
theorem Real.append (hdir : Real links dir) (hlinks : ∀ below ≠ [], links (dir ++ below) = none) :
    ∀ {rest : List Name}, (∀ name ∈ rest, Plain name) → Real links (dir ++ rest) := by
  intro rest
  induction rest using List.reverseRecOn with
  | nil => intro _; rwa [List.append_nil]
  | append_singleton rest name ih =>
    intro hplain
    have hrest : ∀ n ∈ rest, Plain n := fun n hn => hplain n (List.mem_append_left _ hn)
    have hreal := ih hrest
    rw [← List.append_assoc]
    refine .snoc hreal (hplain name (by simp)) ?_
    rw [List.append_assoc]
    exact hlinks _ (by simp)

/-! ### The walk -/

theorem follow_real {onLink : List Name → List Name → Option (List Name)}
    (honLink : ∀ dir rest path, Real links dir → (∀ name ∈ rest, Free '/' name) →
      onLink dir rest = some path → Real links path) :
    ∀ {rest dir : List Name}, Real links dir → (∀ name ∈ rest, Free '/' name) →
      follow links onLink dir rest = some path → Real links path := by
  intro rest
  induction rest with
  | nil =>
    intro dir hdir _ h
    exact Option.some.inj h ▸ hdir
  | cons name rest ih =>
    intro dir hdir hfree h
    obtain ⟨hname, hrest⟩ := List.forall_mem_cons.mp hfree
    rw [follow] at h
    split at h
    · exact ih hdir hrest h
    · next hspecial =>
      rw [not_or] at hspecial
      split at h
      · exact ih hdir.dropLast hrest h
      · next hdots =>
        split at h
        · next hlink => exact ih (.snoc hdir ⟨hspecial.1, hspecial.2, hdots, hname⟩ hlink) hrest h
        -- a link goes on from its target; what is behind it is read as the caller does
        · next target _ =>
          refine honLink _ _ _ ?_ ?_ h
          · unfold Target.start
            split
            · exact .root
            · exact hdir
          · exact List.forall_mem_append.mpr ⟨target.free, hrest⟩

/-- **What comes out is real**: a path that was resolved has no special component and no link on its
way. -/
theorem realpath_real : ∀ {fuel : ℕ} {dir rest path : List Name}, Real links dir →
    (∀ name ∈ rest, Free '/' name) → realpath links fuel dir rest = some path →
      Real links path := by
  intro fuel
  induction fuel with
  | zero => exact follow_real fun _ _ _ _ _ h => by cases h
  | succ fuel ih => exact follow_real fun _ _ _ hdir hfree h => ih hdir hfree h

theorem follow_of_real {onLink : List Name → List Name → Option (List Name)} :
    ∀ {rest dir : List Name}, Real links (dir ++ rest) →
      follow links onLink dir rest = some (dir ++ rest) := by
  intro rest
  induction rest with
  | nil => intro dir _; rw [follow, List.append_nil]
  | cons name rest ih =>
    intro dir h
    rw [List.append_cons] at h ⊢
    obtain ⟨-, hname, hlink⟩ := h.of_append.of_snoc
    rw [follow, if_neg (not_or.mpr ⟨hname.ne_nil, hname.ne_dot⟩), if_neg hname.ne_dots, hlink]
    exact ih h

/-- **A real path is its own**: resolving it follows nothing, and no fuel is used. -/
theorem realpath_of_real (fuel : ℕ) (h : Real links (dir ++ rest)) :
    realpath links fuel dir rest = some (dir ++ rest) := by
  cases fuel with
  | zero => exact follow_of_real h
  | succ fuel => exact follow_of_real h

/-- An empty component in front changes nothing. -/
theorem realpath_nil_cons (fuel : ℕ) :
    realpath links fuel dir ([] :: rest) = realpath links fuel dir rest := by
  cases fuel <;> rfl

end RealPath
