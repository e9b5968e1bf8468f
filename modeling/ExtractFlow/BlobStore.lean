import Mathlib.Logic.Function.Basic
import ExtractFlow.Lib.Segments
import ExtractFlow.Lib.Transition
import ExtractFlow.Parser

/-!
# The blob store, on a disk and in a bucket

`shared/extraction_core/blob_store.py` and `storage_refs.py`.  A reference is
normalised and names a file below a root.  The local store writes and reads that
file; the S3 store writes an object under a key made of the same parts, and reads
through a directory of local copies, whose file names flatten the key.  A copy is
made at the first read and never again.

Roots are the data directory and the directories inside it.  Nobody else writes
the bucket or the copies.

## Main definitions

* `normalizeStorageReference`, `SafeReference` — the references accepted.
* `LocalDisk`, `S3State` — the two stores; `blobStep` — one call on both.
* `lastWrite` — the bytes last written to a file.
* `Disciplined` — the calls the S3 store can follow.

## Main results

* `objectKey_inj` — different files have different keys.
* `s3_refines_local` — in a disciplined run every read is that of the last write,
  in the bucket as on the disk.
-/

namespace ExtractFlow

open Segments Transition

/-! ### References -/

/-- `"/".join(parts)`. -/
def joinSlash (parts : List (List Char)) : List Char := (join '/' parts).tail

/-- The loop of `os.path.normpath` over the components of a path; the components
kept are collected last first. -/
def normpathParts (absolute : Bool) : List (List Char) → List (List Char) → List (List Char)
  | kept, [] => kept.reverse
  | kept, part :: parts =>
      if part = [] ∨ part = ['.'] then normpathParts absolute kept parts
      else if part ≠ ['.', '.'] ∨ (absolute = false ∧ kept = []) ∨ kept.head? = some ['.', '.'] then
        normpathParts absolute (part :: kept) parts
      else normpathParts absolute kept.tail parts

/-- The slashes `os.path.normpath` keeps at the start: none, one or two. -/
def initialSlashes : List Char → ℕ
  | '/' :: '/' :: '/' :: _ => 1
  | '/' :: '/' :: _ => 2
  | '/' :: _ => 1
  | _ => 0

/-- `os.path.normpath`. -/
def normpath (path : List Char) : List Char :=
  let slashes := initialSlashes path
  let normal := List.replicate slashes '/' ++
    joinSlash (normpathParts (slashes != 0) [] (pathComponents path))
  if normal = [] then ['.'] else normal

/-- A letter that `_SAFE_STORAGE_REFERENCE` allows inside a segment. -/
def isSafeChar (c : Char) : Bool := c.isAlphanum || c == '.' || c == '_' || c == '-'

/-- A segment `[A-Za-z0-9][A-Za-z0-9._-]*`. -/
def SafeSegment : List Char → Prop
  | [] => False
  | c :: cs => c.isAlphanum = true ∧ ∀ d ∈ cs, isSafeChar d = true

instance : DecidablePred SafeSegment := fun segment =>
  match segment with
  | [] => inferInstanceAs (Decidable False)
  | _ :: cs => @instDecidableAnd _ _ inferInstance (List.decidableBAll _ cs)

/-- A normalised reference: at least one segment, and each of them safe, so that it names a file
below whatever root it is put behind. -/
structure SafeReference where
  segments : List (List Char)
  nonempty : segments ≠ []
  safe : ∀ segment ∈ segments, SafeSegment segment
  deriving DecidableEq

/-- `normalize_storage_reference`; `none` where it raises, which is for absolute references and for
those that lead upwards. -/
def normalizeStorageReference (reference : String) : Option SafeReference :=
  let normalized := (normpath reference.toList).map fun c => if c = '\\' then '/' else c
  if normalized.head? = some '/' then none
  else
    let cleaned := normalized.dropWhile (· == '/')
    let segments := pathComponents cleaned
    if cleaned = [] ∨ cleaned = ['.'] ∨ cleaned = ['.', '.'] ∨ segments.contains ['.', '.'] then
      none
    else if h : segments ≠ [] ∧ ∀ segment ∈ segments, SafeSegment segment then
      some ⟨segments, h.1, h.2⟩
    else none

/-! ### Files and keys -/

/-- A root: the data directory, or a directory inside it by its path from there. -/
structure StoreRoot where
  parts : List (List Char) := []
  free : ∀ part ∈ parts, Free '/' part := by decide

/-- The file a reference names below a root, by its path from the data directory. -/
def filePath (root : StoreRoot) (reference : SafeReference) : List (List Char) :=
  root.parts ++ reference.segments

/-- The S3 settings, of which only the prefix decides about keys. -/
structure S3Config where
  s3Prefix : String := "extractflow"

/-- `s.strip("/")`. -/
def stripSlash (s : List Char) : List Char :=
  ((s.dropWhile (· == '/')).reverse.dropWhile (· == '/')).reverse

/-- `_object_key`. -/
def objectKey (config : S3Config) (root : StoreRoot) (reference : SafeReference) : List Char :=
  let relative := joinSlash (filePath root reference)
  let stem := stripSlash config.s3Prefix.toList
  if stem = [] then relative else stem ++ '/' :: relative

/-- The name of the local copy of an object: `key.replace("/", "__")`. -/
def copyName (key : List Char) : List Char :=
  key.flatMap fun c => if c = '/' then ['_', '_'] else [c]

/-! ### The two stores -/

abbrev Payload := List UInt8

/-- The disk below the data directory: which files are there with which bytes, and which
directories. -/
structure LocalDisk where
  files : List (List Char) → Option Payload := fun _ => none
  dirs : List (List Char) → Bool := fun _ => false

/-- A file can be written: no file is on the way to it, and no directory there. -/
def LocalDisk.Accepts (disk : LocalDisk) (path : List (List Char)) : Prop :=
  (∀ n < path.length, disk.files (path.take n) = none) ∧ disk.dirs path = false

instance (disk : LocalDisk) (path : List (List Char)) : Decidable (disk.Accepts path) :=
  inferInstanceAs (Decidable (_ ∧ _))

/-- `LocalBlobStore.write_bytes`: the directories on the way are made, and the file
is written. -/
def LocalDisk.writeBytes (disk : LocalDisk) (path : List (List Char)) (payload : Payload) :
    LocalDisk :=
  if disk.Accepts path then
    { files := Function.update disk.files path (some payload)
      dirs := fun dir => disk.dirs dir || (decide (dir.length < path.length) && dir.isPrefixOf path) }
  else disk

/-- The bucket and the local copies.  The last field is no part of the program: it
remembers of which object a copy was made. -/
structure S3State where
  bucket : List Char → Option Payload := fun _ => none
  copies : List Char → Option Payload := fun _ => none
  origins : List Char → Option (List Char) := fun _ => none

/-- `S3BlobStore.write_bytes`. -/
def S3State.writeBytes (s : S3State) (key : List Char) (payload : Payload) : S3State :=
  { s with bucket := Function.update s.bucket key (some payload) }

/-- The bytes in the file `S3BlobStore.materialize` returns; `none` where it raises. -/
def S3State.readBytes (s : S3State) (key : List Char) : Option Payload :=
  match s.copies (copyName key) with
  | some payload => some payload
  | none => s.bucket key

/-- The state after `S3BlobStore.materialize`. -/
def S3State.materialize (s : S3State) (key : List Char) : S3State :=
  match s.copies (copyName key), s.bucket key with
  | none, some payload =>
      { s with
        copies := Function.update s.copies (copyName key) (some payload)
        origins := Function.update s.origins (copyName key) (some key) }
  | _, _ => s

/-- The state of both stores, which the same calls are made on. -/
structure BlobState where
  disk : LocalDisk := {}
  s3 : S3State := {}

/-- A call of a blob store, with the reference as the caller spells it. -/
inductive BlobAct where
  | writeBytes (root : StoreRoot) (reference : String) (payload : Payload)
  | materialize (root : StoreRoot) (reference : String)
  | «exists» (root : StoreRoot) (reference : String)

/-- One call on both stores; a reference that is not accepted raises. -/
def blobStep (config : S3Config) (s : BlobState) : BlobAct → Option BlobState
  | .writeBytes root reference payload =>
      (normalizeStorageReference reference).map fun safe =>
        { disk := s.disk.writeBytes (filePath root safe) payload
          s3 := s.s3.writeBytes (objectKey config root safe) payload }
  | .materialize root reference =>
      (normalizeStorageReference reference).map fun safe =>
        { s with s3 := s.s3.materialize (objectKey config root safe) }
  | .«exists» _ reference => (normalizeStorageReference reference).map fun _ => s

/-! ### What the calls promise -/

/-- The file and the bytes of a call that writes. -/
def BlobAct.write? : BlobAct → Option (List (List Char) × Payload)
  | .writeBytes root reference payload =>
      (normalizeStorageReference reference).map fun safe => (filePath root safe, payload)
  | _ => none

/-- The bytes last written to a file in a list of calls, if any were: what a store is expected to
hold there. -/
def lastWrite (acts : List BlobAct) (path : List (List Char)) : Option Payload :=
  acts.foldl (fun last act =>
    match act.write? with
    | some (written, payload) => if written = path then some payload else last
    | none => last) none

/-- A call the S3 store can follow.  A write is one the disk accepts, to an object
without a local copy or with the bytes it has; a read finds no local copy that was
made of another object. -/
def Disciplined (config : S3Config) (s : BlobState) : BlobAct → Prop
  | .writeBytes root reference payload =>
      ∀ safe, normalizeStorageReference reference = some safe →
        s.disk.Accepts (filePath root safe) ∧
        (s.s3.origins (copyName (objectKey config root safe)) =
            some (objectKey config root safe) →
          s.s3.bucket (objectKey config root safe) = some payload)
  | .materialize root reference =>
      ∀ safe, normalizeStorageReference reference = some safe →
        ∀ key, s.s3.origins (copyName (objectKey config root safe)) = some key →
          key = objectKey config root safe
  | .«exists» _ _ => True

/-! ### The stores, one file at a time -/

section Reads

variable {disk : LocalDisk} {path path' : List (List Char)} {payload : Payload} {s : S3State}
  {key key' name : List Char}

theorem files_writeBytes_self (h : disk.Accepts path) :
    (disk.writeBytes path payload).files path = some payload := by
  unfold LocalDisk.writeBytes
  rw [if_pos h]
  exact Function.update_self ..

theorem files_writeBytes_ne (h : path' ≠ path) :
    (disk.writeBytes path payload).files path' = disk.files path' := by
  unfold LocalDisk.writeBytes
  split
  · exact Function.update_of_ne h ..
  · rfl

@[simp] theorem bucket_writeBytes_self : (s.writeBytes key payload).bucket key = some payload :=
  Function.update_self ..

theorem bucket_writeBytes_ne (h : key' ≠ key) :
    (s.writeBytes key payload).bucket key' = s.bucket key' :=
  Function.update_of_ne h ..

@[simp] theorem bucket_materialize : (s.materialize key).bucket = s.bucket := by
  unfold S3State.materialize
  split <;> rfl

/-- A copy after a read is one from before, or one of the object read. -/
theorem copies_materialize (h : (s.materialize key).copies name = some payload) :
    (s.copies name = some payload ∧ (s.materialize key).origins name = s.origins name) ∨
      (s.bucket key = some payload ∧ (s.materialize key).origins name = some key) := by
  unfold S3State.materialize at h ⊢
  split at h
  · next stored hcopy hbucket =>
    by_cases hname : name = copyName key
    · subst hname
      have hstored : some stored = some payload :=
        (Function.update_self (copyName key) (some stored) s.copies).symm.trans h
      exact Or.inr ⟨hbucket.trans hstored, Function.update_self ..⟩
    · have hold := (Function.update_of_ne hname (some stored) s.copies).symm.trans h
      exact Or.inl ⟨hold, Function.update_of_ne hname ..⟩
  · exact Or.inl ⟨h, rfl⟩

/-- A copy remembers an object of its own name. -/
theorem origins_materialize (h : (s.materialize key).origins name = some key') :
    s.origins name = some key' ∨ copyName key' = name := by
  unfold S3State.materialize at h
  split at h
  · next stored hcopy hbucket =>
    by_cases hname : name = copyName key
    · subst hname
      have hkey := (Function.update_self (copyName key) (some key) s.origins).symm.trans h
      exact Or.inr (congrArg copyName (Option.some.inj hkey).symm)
    · exact Or.inl ((Function.update_of_ne hname (some key) s.origins).symm.trans h)
  · exact Or.inl h

end Reads

/-! ### Keys -/

theorem SafeSegment.free : ∀ {segment : List Char}, SafeSegment segment → Free '/' segment := by
  intro segment h hmem
  cases segment with
  | nil => exact h
  | cons c cs =>
    rcases List.mem_cons.mp hmem with rfl | hmem
    · exact absurd h.1 (by decide)
    · exact absurd (h.2 _ hmem) (by decide)

theorem free_filePath (root : StoreRoot) (reference : SafeReference) :
    ∀ part ∈ filePath root reference, Free '/' part := by
  intro part hpart
  rcases List.mem_append.mp hpart with hpart | hpart
  · exact root.free part hpart
  · exact (reference.safe part hpart).free

theorem join_eq_cons_joinSlash {parts : List (List Char)} (h : parts ≠ []) :
    join '/' parts = '/' :: joinSlash parts := by
  cases parts with
  | nil => exact absurd rfl h
  | cons part parts => rfl

theorem filePath_ne_nil (root : StoreRoot) (reference : SafeReference) :
    filePath root reference ≠ [] := by
  intro h
  exact reference.nonempty (List.append_eq_nil_iff.mp h).2

/-- **Different files have different keys**, so no object ever stands for two files. -/
theorem objectKey_inj {config : S3Config} {root root' : StoreRoot}
    {reference reference' : SafeReference} :
    objectKey config root reference = objectKey config root' reference' ↔
      filePath root reference = filePath root' reference' := by
  have hrelative : joinSlash (filePath root reference) = joinSlash (filePath root' reference') ↔
      filePath root reference = filePath root' reference' := by
    rw [← join_inj (free_filePath root reference) (free_filePath root' reference'),
      join_eq_cons_joinSlash (filePath_ne_nil root reference),
      join_eq_cons_joinSlash (filePath_ne_nil root' reference'), List.cons.injEq]
    exact (and_iff_right rfl).symm
  unfold objectKey
  dsimp only
  split
  · exact hrelative
  · rw [List.append_cancel_left_eq, List.cons.injEq]
    exact (and_iff_right rfl).trans hrelative

/-- The names of the copies are not: -/
example : copyName "a/b".toList = copyName "a__b".toList := by decide

/-! ### The invariant -/

theorem lastWrite_snoc (acts : List BlobAct) (act : BlobAct) (path : List (List Char)) :
    lastWrite (acts ++ [act]) path =
      match act.write? with
      | some (written, payload) => if written = path then some payload else lastWrite acts path
      | none => lastWrite acts path := by
  unfold lastWrite
  rw [List.foldl_append]
  rfl

/-- Disk and bucket hold the last writes, and every copy is one of its object. -/
structure StoresAgree (config : S3Config) (acts : List BlobAct) (s : BlobState) : Prop where
  disk : ∀ root reference, s.disk.files (filePath root reference) =
    lastWrite acts (filePath root reference)
  bucket : ∀ root reference, s.s3.bucket (objectKey config root reference) =
    lastWrite acts (filePath root reference)
  copies : ∀ name payload, s.s3.copies name = some payload →
    ∃ key, s.s3.origins name = some key ∧ s.s3.bucket key = some payload
  origins : ∀ name key, s.s3.origins name = some key → copyName key = name

/-- A disciplined read is that of the bucket. -/
theorem readBytes_of_disciplined {config : S3Config} {acts : List BlobAct} {s : BlobState}
    (hs : StoresAgree config acts s) {key : List Char}
    (hkey : ∀ k, s.s3.origins (copyName key) = some k → k = key) :
    s.s3.readBytes key = s.s3.bucket key := by
  unfold S3State.readBytes
  cases hcopy : s.s3.copies (copyName key) with
  | none => rfl
  | some payload =>
    obtain ⟨k, horigin, hbucket⟩ := hs.copies _ _ hcopy
    obtain rfl := hkey k horigin
    exact hbucket.symm

/-- A call that writes nothing leaves the last writes. -/
theorem lastWrite_of_reading (acts : List BlobAct) {act : BlobAct} (h : act.write? = none)
    (path : List (List Char)) : lastWrite (acts ++ [act]) path = lastWrite acts path := by
  rw [lastWrite_snoc, h]

theorem storesAgree_write {config : S3Config} {acts : List BlobAct} {s : BlobState}
    (hs : StoresAgree config acts s) {root : StoreRoot} {reference : String}
    {payload : Payload} {safe : SafeReference}
    (hsafe : normalizeStorageReference reference = some safe)
    (hok : Disciplined config s (.writeBytes root reference payload)) :
    StoresAgree config (acts ++ [.writeBytes root reference payload])
      { disk := s.disk.writeBytes (filePath root safe) payload
        s3 := s.s3.writeBytes (objectKey config root safe) payload } := by
  obtain ⟨haccepts, hcopied⟩ := hok safe hsafe
  have hwrite : (BlobAct.writeBytes root reference payload).write? =
      some (filePath root safe, payload) := by
    simp only [BlobAct.write?, hsafe, Option.map_some]
  -- the write is the last one to its file, and changes nothing elsewhere
  have hlast : ∀ path, lastWrite (acts ++ [.writeBytes root reference payload]) path =
      if filePath root safe = path then some payload else lastWrite acts path := by
    intro path
    rw [lastWrite_snoc, hwrite]
  refine ⟨?_, ?_, ?_, hs.origins⟩
  · intro root' reference'
    rw [hlast]
    by_cases hpath : filePath root safe = filePath root' reference'
    · rw [if_pos hpath, ← hpath]
      exact files_writeBytes_self haccepts
    · rw [if_neg hpath]
      exact (files_writeBytes_ne (Ne.symm hpath)).trans (hs.disk root' reference')
  · intro root' reference'
    rw [hlast]
    by_cases hpath : filePath root safe = filePath root' reference'
    · rw [if_pos hpath, ← objectKey_inj.mpr hpath]
      exact bucket_writeBytes_self
    · have hkey : objectKey config root' reference' ≠ objectKey config root safe :=
        fun h => hpath (objectKey_inj.mp h).symm
      rw [if_neg hpath]
      exact (bucket_writeBytes_ne hkey).trans (hs.bucket root' reference')
  · intro name stored hstored
    obtain ⟨key, horigin, hbucket⟩ := hs.copies name stored hstored
    refine ⟨key, horigin, ?_⟩
    by_cases hkey : key = objectKey config root safe
    · -- the object has a copy, so its bytes are written again
      subst hkey
      have hname := hs.origins name _ horigin
      have hsame := hcopied (hname.symm ▸ horigin)
      rw [hbucket] at hsame
      rw [hsame]
      exact bucket_writeBytes_self
    · exact (bucket_writeBytes_ne hkey).trans hbucket

theorem storesAgree_materialize {config : S3Config} {acts : List BlobAct} {s : BlobState}
    (hs : StoresAgree config acts s) (root : StoreRoot) (reference : String) (key : List Char) :
    StoresAgree config (acts ++ [.materialize root reference])
      { s with s3 := s.s3.materialize key } := by
  refine ⟨?_, ?_, ?_, ?_⟩
  · intro root' reference'
    rw [lastWrite_of_reading acts rfl]
    exact hs.disk root' reference'
  · intro root' reference'
    rw [lastWrite_of_reading acts rfl, bucket_materialize]
    exact hs.bucket root' reference'
  · intro name payload hcopy
    rw [bucket_materialize]
    rcases copies_materialize hcopy with ⟨hcopy, horigin⟩ | ⟨hbucket, horigin⟩
    · rw [horigin]
      exact hs.copies name payload hcopy
    · exact ⟨key, horigin, hbucket⟩
  · intro name k horigin
    rcases origins_materialize horigin with horigin | hname
    · exact hs.origins name k horigin
    · exact hname

/-- A disciplined call keeps the stores in agreement. -/
theorem storesAgree_step {config : S3Config} {acts : List BlobAct} {s t : BlobState}
    {act : BlobAct} (hs : StoresAgree config acts s) (hok : Disciplined config s act)
    (hstep : blobStep config s act = some t) : StoresAgree config (acts ++ [act]) t := by
  cases act with
  | writeBytes root reference payload =>
    obtain ⟨safe, hsafe, rfl⟩ := Option.map_eq_some_iff.mp hstep
    exact storesAgree_write hs hsafe hok
  | materialize root reference =>
    obtain ⟨safe, -, rfl⟩ := Option.map_eq_some_iff.mp hstep
    exact storesAgree_materialize hs root reference _
  | «exists» root reference =>
    obtain ⟨safe, -, rfl⟩ := Option.map_eq_some_iff.mp hstep
    refine ⟨?_, ?_, hs.copies, hs.origins⟩
    · intro root' reference'
      rw [lastWrite_of_reading acts rfl]
      exact hs.disk root' reference'
    · intro root' reference'
      rw [lastWrite_of_reading acts rfl]
      exact hs.bucket root' reference'

/-- **S3 storage refines local storage** in disciplined runs: what a read returns is
what the last write to its file wrote, which is what the disk holds; and different
files are different objects. -/
theorem s3_refines_local {config : S3Config} {s t : BlobState} {acts : List BlobAct}
    (hfiles : ∀ path, s.disk.files path = none) (hbucket : ∀ key, s.s3.bucket key = none)
    (hcopies : ∀ name, s.s3.copies name = none) (horigins : ∀ name, s.s3.origins name = none)
    (hrun : Run (blobStep config) (Disciplined config) s acts t) :
    (∀ root reference safe, normalizeStorageReference reference = some safe →
        Disciplined config t (.materialize root reference) →
        t.s3.readBytes (objectKey config root safe) = lastWrite acts (filePath root safe) ∧
          t.disk.files (filePath root safe) = lastWrite acts (filePath root safe)) ∧
      ∀ root safe root' safe', filePath root safe ≠ filePath root' safe' →
        objectKey config root safe ≠ objectKey config root' safe' := by
  have hstart : StoresAgree config [] s := by
    refine ⟨fun _ _ => hfiles _, fun _ _ => hbucket _, ?_, ?_⟩
    · intro name payload h
      rw [hcopies name] at h
      cases h
    · intro name key h
      rw [horigins name] at h
      cases h
  have hagree : StoresAgree config ([] ++ acts) t :=
    Run.trace_invariant (fun _ _ _ _ hs hok hstep => storesAgree_step hs hok hstep) hrun [] hstart
  refine ⟨?_, fun root safe root' safe' hpath hkey => hpath (objectKey_inj.mp hkey)⟩
  intro root reference safe hsafe hok
  refine ⟨?_, hagree.disk root safe⟩
  rw [readBytes_of_disciplined hagree (hok safe hsafe)]
  exact hagree.bucket root safe

/-! ### Writing and reading one file -/

/-- The reference `a`. -/
def plainReference : SafeReference := ⟨[['a']], by decide, by decide⟩

theorem normalize_plainReference : normalizeStorageReference "a" = some plainReference := by
  decide

/-- A file that was written can be read through a copy, which is then made. -/
theorem s3_refines_local_written_once :
    ∃ t, Run (blobStep {}) (Disciplined {}) {} [.writeBytes {} "a" [1], .materialize {} "a"] t ∧
      t.s3.readBytes (objectKey {} {} plainReference) = some [1] ∧
      t.disk.files (filePath {} plainReference) = some [1] := by
  let written : BlobState :=
    { disk := LocalDisk.writeBytes {} (filePath {} plainReference) [1]
      s3 := S3State.writeBytes {} (objectKey {} {} plainReference) [1] }
  let read : BlobState :=
    { written with s3 := written.s3.materialize (objectKey {} {} plainReference) }
  have hwrite : blobStep {} {} (.writeBytes {} "a" [1]) = some written := by
    simp only [blobStep, normalize_plainReference, Option.map_some, written]
  have hread : blobStep {} written (.materialize {} "a") = some read := by
    simp only [blobStep, normalize_plainReference, Option.map_some, read]
  have hrun : Run (blobStep {}) (Disciplined {}) {}
      [.writeBytes {} "a" [1], .materialize {} "a"] read := by
    refine .cons hwrite ?_ (.cons hread ?_ (.nil read))
    · intro safe _
      refine ⟨⟨fun _ _ => rfl, rfl⟩, ?_⟩
      intro horigin
      cases horigin
    · intro safe _ key horigin
      cases horigin
  -- The copy was made of this very object, so it is not stale.
  have hok : Disciplined {} read (.materialize {} "a") := by
    intro safe hsafe key horigin
    obtain rfl := Option.some.inj (normalize_plainReference.symm.trans hsafe)
    have hself : read.s3.origins (copyName (objectKey {} {} plainReference)) =
        some (objectKey {} {} plainReference) := by decide
    exact Option.some.inj (horigin.symm.trans hself)
  obtain ⟨hbytes, hfile⟩ := (s3_refines_local (fun _ => rfl) (fun _ => rfl) (fun _ => rfl)
    (fun _ => rfl) hrun).1 {} "a" plainReference normalize_plainReference hok
  have hlast : lastWrite [.writeBytes {} "a" [1], .materialize {} "a"]
      (filePath {} plainReference) = some [1] := by decide
  exact ⟨read, hrun, hbytes.trans hlast, hfile.trans hlast⟩

/-- **A file written again after a read is read as it was.** -/
theorem rewritten_object_is_stale :
    ¬ ∀ (config : S3Config) (s t : BlobState) (acts : List BlobAct),
      (∀ path, s.disk.files path = none) → (∀ key, s.s3.bucket key = none) →
      (∀ name, s.s3.copies name = none) → (∀ name, s.s3.origins name = none) →
      Run (blobStep config) (fun _ _ => True) s acts t →
      ∀ root reference safe, normalizeStorageReference reference = some safe →
        t.s3.readBytes (objectKey config root safe) = lastWrite acts (filePath root safe) := by
  intro h
  have hrun : ∃ t, Run (blobStep {}) (fun _ _ => True) {}
      [.writeBytes {} "a" [1], .materialize {} "a", .writeBytes {} "a" [2]] t ∧
      t.s3.readBytes (objectKey {} {} plainReference) = some [1] := by
    refine ⟨_, .cons rfl trivial (.cons rfl trivial (.cons rfl trivial (.nil _))), ?_⟩
    decide
  obtain ⟨t, hrun, hread⟩ := hrun
  have hlast := h {} {} t _ (fun _ => rfl) (fun _ => rfl) (fun _ => rfl) (fun _ => rfl) hrun {} "a"
    plainReference normalize_plainReference
  rw [hread] at hlast
  revert hlast
  decide

end ExtractFlow
