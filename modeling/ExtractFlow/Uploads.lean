import ExtractFlow.StorageReferences

/-!
# Uploads

`upload_document` (`backend/app/api/routes.py`) and the functions of
`backend/app/services/storage.py` behind it.  The endpoint accepts every file name
with a base name.  The stored name is that base name behind a fresh identifier, and
becomes the last part of a reference.  On the disk the reference is resolved before
the file is opened; with a bucket the body is staged first, under a name of its own,
and the reference is read when the staged file is moved.

References accept fewer names than the endpoint, a backslash separates parts of a
reference but not of a POSIX name, and a name that starts with its only dot has no
suffix until something stands in front of it.

## Main definitions

* `buildUploadTarget`, `finalizeStagedUpload`, `uploadDocument`, `materializeUpload`.
* `UploadReady` — the directory exists and the identifier is fresh.
* `Found` — what an upload promises.
* `Uploadable` — the names that keep the promise.

## Main results

* `normalizeStorageReference_upload` — what the reference of an upload becomes.
* `upload_found_iff` — an upload is found again just in case its name is uploadable.
* `spaced_name_rejected` — a name with a space.
-/

namespace ExtractFlow

open Segments RealPath

/-! ### The program -/

/-- `STORAGE_BACKEND`: the two stores an upload can go to. -/
inductive StorageBackendKind where
  | local | s3
  deriving DecidableEq, Repr, Inhabited

/-- The storage settings; `uploads` is the path of the uploads directory below the
data directory. -/
structure UploadSettings where
  backend : StorageBackendKind := .local
  uploads : SafeReference
  s3 : S3Config := {}

/-- A hexadecimal digit of `uuid4().hex`. -/
def isHexDigit (c : Char) : Bool := c.isDigit || ['a', 'b', 'c', 'd', 'e', 'f'].contains c

/-- `uuid4().hex`: thirty-two hexadecimal digits. -/
structure Uuid where
  digits : List Char
  length_eq : digits.length = 32
  hex : ∀ c ∈ digits, isHexDigit c = true

/-- The name of an upload behind an identifier. -/
def Uuid.named (id : Uuid) (name : List Char) : List Char := id.digits ++ '-' :: name

/-- Where the body of an upload is written: a file below the data directory, or a
file of the staging directory. -/
inductive UploadTarget where
  | managed (path : List Name)
  | staged (name : List Char)
  deriving Repr

/-- The reference of an upload. -/
def uploadReference (settings : UploadSettings) (id : Uuid) (name : List Char) : String :=
  String.ofList (joinSlash (settings.uploads.segments ++ [id.named name]))

/-- `build_upload_target`: the reference of the upload, and where its body is written; `none` where
it raises. -/
def buildUploadTarget (settings : UploadSettings) (id stagingId : Uuid)
    (originalFilename : List Char) : Option (String × UploadTarget) :=
  let safeName := pathName originalFilename
  let reference := uploadReference settings id safeName
  match settings.backend with
  | .s3 => some (reference, .staged (stagingId.named safeName))
  | .local => (normalizeStorageReference reference).map fun safe =>
      (reference, .managed (filePath {} safe))

/-- The stores, and the directory where bodies for the bucket are staged. -/
structure UploadState extends BlobState where
  staging : List Char → Option Payload := fun _ => none

/-- `path.open("wb")` and a write: the directory of the file has to exist. -/
def LocalDisk.openWrite (disk : LocalDisk) (path : List Name) (payload : Payload) :
    Option LocalDisk :=
  if disk.dirs path.dropLast = true ∧ disk.dirs path = false then
    some { disk with files := Function.update disk.files path (some payload) }
  else none

/-- The body written to its target. -/
def UploadState.copyBody (s : UploadState) (payload : Payload) :
    UploadTarget → Option UploadState
  | .managed path => (s.disk.openWrite path payload).map fun disk => { s with disk := disk }
  | .staged name => some { s with staging := Function.update s.staging name (some payload) }

/-- `finalize_staged_upload`: a staged body is moved into the bucket under its reference; one on the
disk is where it belongs already. -/
def finalizeStagedUpload (settings : UploadSettings) (s : UploadState) (reference : String) :
    UploadTarget → Option UploadState
  | .managed _ => some s
  | .staged name => do
      let payload ← s.staging name
      let safe ← normalizeStorageReference reference
      return { s with
        s3 := s.s3.writeBytes (objectKey settings.s3 {} safe) payload
        staging := Function.update s.staging name none }

/-- `upload_document`: the stored path that it records, and the stores as it leaves them; `none`
where it raises. -/
def uploadDocument (settings : UploadSettings) (s : UploadState) (id stagingId : Uuid)
    (filename : String) (payload : Payload) : Option (String × UploadState) := do
  let originalFilename := pathName filename.toList
  if originalFilename = [] then none
  else
    let (reference, target) ← buildUploadTarget settings id stagingId originalFilename
    let written ← s.copyBody payload target
    let finalized ← finalizeStagedUpload settings written reference target
    return (reference, finalized)

/-- `materialize` below the data directory: the path of a file, and the bytes in it. -/
def materializeUpload (settings : UploadSettings) (s : UploadState) (reference : String) :
    Option (List Char × Payload) := do
  let safe ← normalizeStorageReference reference
  match settings.backend with
  | .local =>
      let payload ← s.disk.files (filePath {} safe)
      return (joinSlash (filePath {} safe), payload)
  | .s3 =>
      let key := objectKey settings.s3 {} safe
      let payload ← s.s3.readBytes key
      return (joinSlash [".cache".toList, "s3".toList, copyName key], payload)

/-! ### What an upload promises -/

/-- The uploads directory exists, and no file, directory or copy has the identifier in
its name. -/
structure UploadReady (settings : UploadSettings) (s : UploadState) (id : Uuid) : Prop where
  uploads : s.disk.dirs settings.uploads.segments = true
  dirs : ∀ path name, name ∈ path → id.digits <:+: name → s.disk.dirs path = false
  copies : ∀ name, id.digits <:+: name → s.s3.copies name = none

/-- The target is built, its reference is accepted, and the path recorded leads to a
file with the bytes and the suffix of the upload. -/
def Found (settings : UploadSettings) (s : UploadState) (id stagingId : Uuid) (filename : String)
    (payload : Payload) : Prop :=
  ∃ reference target, buildUploadTarget settings id stagingId filename.toList =
      some (reference, target) ∧
    (normalizeStorageReference reference).isSome = true ∧
    ∃ t path, uploadDocument settings s id stagingId filename payload = some (reference, t) ∧
      materializeUpload settings t reference = some (path, payload) ∧
      pathSuffix path = pathSuffix filename.toList

/-- The suffix of a name stays when the name is stored behind a path: its last dot is
followed by nothing, or it has something in front of it and no backslash behind it;
and where the name has no dot, the path has none behind its first letter. -/
def SuffixKept (lead name : List Char) : Prop :=
  if '.' ∈ name then
    afterLastDot name = [] ∨ (name ≠ '.' :: afterLastDot name ∧ '\\' ∉ afterLastDot name)
  else '.' ∉ lead.tail

/-- The parts a backslash cuts a name into are safe: the first behind the identifier,
the others by themselves. -/
def SafePieces (name : List Char) : Prop :=
  (∀ c ∈ (pathComponents (slashed name)).headD [], isSafeChar c = true) ∧
    ∀ piece ∈ (pathComponents (slashed name)).tail, SafeSegment piece

/-- The base names whose uploads are found again, which depend on the store. -/
def Uploadable (settings : UploadSettings) (name : List Char) : Prop :=
  match settings.backend with
  | .local => (∀ c ∈ name, isSafeChar c = true) ∧ SuffixKept [] name
  | .s3 => SafePieces name ∧ SuffixKept (objectKey settings.s3 {} settings.uploads) name

/-! ### Suffixes -/

/-- The suffix of a name. -/
def nameSuffix (name : List Char) : List Char :=
  let after := afterLastDot name
  if '.' ∈ name ∧ after ≠ [] ∧ after.length + 1 < name.length then '.' :: after else []

theorem pathSuffix_eq (path : List Char) : pathSuffix path = nameSuffix (pathName path) := rfl

theorem afterLastDot_concat (before : List Char) {after : List Char} (h : '.' ∉ after) :
    afterLastDot (before ++ '.' :: after) = after := by
  have hletters : ∀ c ∈ after.reverse, (c != '.') = true := by
    intro c hc
    have hne : c ≠ '.' := fun heq => h (heq ▸ List.mem_reverse.mp hc)
    simpa using hne
  unfold afterLastDot
  rw [List.reverse_append, List.reverse_cons, List.append_assoc,
    List.takeWhile_append_of_pos hletters]
  simp

/-- A name with a dot is cut at its last one. -/
theorem exists_lastDot {name : List Char} (h : '.' ∈ name) :
    ∃ before, name = before ++ '.' :: afterLastDot name ∧ '.' ∉ afterLastDot name := by
  obtain ⟨front, back, hback, hname⟩ := List.eq_append_cons_of_mem (List.mem_reverse.mpr h)
  have hsplit : name = back.reverse ++ '.' :: front.reverse := by
    rw [← List.reverse_reverse name, hback]
    simp
  have hafter : '.' ∉ front.reverse := by rwa [List.mem_reverse]
  have hlast : afterLastDot name = front.reverse := by
    rw [hsplit, afterLastDot_concat _ hafter]
  exact ⟨back.reverse, by rw [hlast, ← hsplit], by rwa [hlast]⟩

theorem nameSuffix_of_notMem {name : List Char} (h : '.' ∉ name) : nameSuffix name = [] :=
  if_neg fun hc => h hc.1

theorem nameSuffix_concat (before : List Char) {after : List Char} (h : '.' ∉ after) :
    nameSuffix (before ++ '.' :: after) =
      if after ≠ [] ∧ before ≠ [] then '.' :: after else [] := by
  unfold nameSuffix
  rw [afterLastDot_concat before h]
  refine if_congr ?_ rfl rfl
  rw [List.length_append, List.length_cons]
  constructor
  · rintro ⟨-, hne, hlength⟩
    refine ⟨hne, fun hnil => ?_⟩
    rw [hnil, List.length_nil] at hlength
    omega
  · rintro ⟨hne, hbefore⟩
    have hpos := List.length_pos_iff.mpr hbefore
    exact ⟨by simp, hne, by omega⟩

/-- A path behind which a name without dots is stored gives it no suffix just in case
its dots are all in front. -/
theorem nameSuffix_lead (lead : List Char) {stored : List Char} (hne : stored ≠ [])
    (hstored : '.' ∉ stored) : nameSuffix (lead ++ stored) = [] ↔ '.' ∉ lead.tail := by
  by_cases hlead : '.' ∈ lead
  · obtain ⟨before, hcut, hafter⟩ := exists_lastDot hlead
    generalize afterLastDot lead = after at hcut hafter
    subst hcut
    have hrest : '.' ∉ after ++ stored := by
      rw [List.mem_append, not_or]
      exact ⟨hafter, hstored⟩
    rw [List.append_assoc, List.cons_append, nameSuffix_concat before hrest]
    cases before with
    | nil => simpa using hafter
    | cons c before => simp [hne]
  · have hnone : '.' ∉ lead ++ stored := by
      rw [List.mem_append, not_or]
      exact ⟨hlead, hstored⟩
    exact iff_of_true (nameSuffix_of_notMem hnone) fun h => hlead (List.mem_of_mem_tail h)

/-! ### Names of copies -/

theorem copyName_append (key key' : List Char) :
    copyName (key ++ key') = copyName key ++ copyName key' := by
  unfold copyName
  rw [List.flatMap_append]

theorem copyName_of_free : ∀ {key : List Char}, Free '/' key → copyName key = key := by
  intro key
  induction key with
  | nil => intro _; rfl
  | cons c key ih =>
    intro h
    obtain ⟨hc, hkey⟩ := h.of_cons
    rw [← List.singleton_append, copyName_append, ih hkey]
    simp [copyName, Ne.symm hc]

theorem mem_copyName {c : Char} (hc : c ≠ '_') (hslash : c ≠ '/') {key : List Char} :
    c ∈ copyName key ↔ c ∈ key := by
  unfold copyName
  rw [List.mem_flatMap]
  constructor
  · rintro ⟨d, hd, hmem⟩
    split at hmem
    · simp [hc] at hmem
    · rw [List.mem_singleton] at hmem
      exact hmem ▸ hd
  · exact fun hmem => ⟨c, hmem, by simp [hslash]⟩

theorem dot_mem_tail_copyName (key : List Char) :
    '.' ∈ (copyName key).tail ↔ '.' ∈ key.tail := by
  cases key with
  | nil => rfl
  | cons c key =>
    have hrest : '.' ∈ copyName key ↔ '.' ∈ key := mem_copyName (by decide) (by decide)
    rw [← List.singleton_append, copyName_append]
    by_cases hc : c = '/'
    · subst hc
      have hslash : copyName ['/'] = ['_', '_'] := by decide
      rw [hslash]
      simp [hrest]
    · have hletter : copyName [c] = [c] := copyName_of_free (by simpa [Free] using Ne.symm hc)
      rw [hletter]
      simp [hrest]

theorem slashed_append (name name' : List Char) :
    slashed (name ++ name') = slashed name ++ slashed name' := List.map_append

theorem slashed_cons_slash (name : List Char) : slashed ('/' :: name) = '/' :: slashed name := rfl

/-- A base name in the name of a copy. -/
def flattened (name : List Char) : List Char := copyName (slashed name)

theorem flattened_append (name name' : List Char) :
    flattened (name ++ name') = flattened name ++ flattened name' := by
  unfold flattened
  rw [slashed_append, copyName_append]

theorem mem_slashed {c : Char} (hslash : c ≠ '/') {name : List Char} :
    c ∈ slashed name ↔ c ∈ name ∧ c ≠ '\\' := by
  unfold slashed
  rw [List.mem_map]
  constructor
  · rintro ⟨d, hd, hc⟩
    split at hc
    · exact absurd hc.symm hslash
    · next hback => exact hc ▸ ⟨hd, hback⟩
  · rintro ⟨hmem, hback⟩
    exact ⟨c, hmem, if_neg hback⟩

theorem dot_mem_flattened {name : List Char} : '.' ∈ flattened name ↔ '.' ∈ name := by
  rw [flattened, mem_copyName (by decide) (by decide), mem_slashed (by decide)]
  exact and_iff_left (by decide)

/-- Only a backslash changes a name. -/
theorem flattened_eq_self_iff {name : List Char} (h : Free '/' name) :
    flattened name = name ↔ '\\' ∉ name := by
  constructor
  · intro hsame hback
    rw [← hsame, flattened, mem_copyName (by decide) (by decide), mem_slashed (by decide)] at hback
    exact hback.2 rfl
  · intro hback
    rw [flattened, slashed_of_notMem hback, copyName_of_free h]

theorem Uuid.notMem_digits (id : Uuid) {c : Char} (h : isHexDigit c = false) : c ∉ id.digits := by
  intro hmem
  rw [id.hex c hmem] at h
  cases h

/-- **When a stored name keeps the suffix** of the name that was uploaded. -/
theorem nameSuffix_stored_iff (lead : List Char) (id : Uuid) {name : List Char}
    (hfree : Free '/' name) :
    nameSuffix (lead ++ id.named (flattened name)) = nameSuffix name ↔ SuffixKept lead name := by
  unfold SuffixKept
  by_cases hdot : '.' ∈ name
  · rw [if_pos hdot]
    obtain ⟨before, hcut, hafter⟩ := exists_lastDot hdot
    generalize afterLastDot name = after at hcut hafter ⊢
    subst hcut
    have hfreeAfter : Free '/' after := fun hmem => hfree (by simp [hmem])
    have hletter : flattened ['.'] = ['.'] := by decide
    have hstored : lead ++ id.named (flattened (before ++ '.' :: after)) =
        (lead ++ id.digits ++ '-' :: flattened before) ++ '.' :: flattened after := by
      rw [List.append_cons, flattened_append, flattened_append, hletter, Uuid.named]
      simp
    have hnil : flattened after = [] ↔ after = [] := by
      constructor
      · intro h
        cases after with
        | nil => rfl
        | cons c after =>
          rw [← List.singleton_append, flattened_append] at h
          have hhead := (List.append_eq_nil_iff.mp h).1
          have hletters : ∀ d : Char, copyName [d] ≠ [] := by
            intro d hd
            by_cases hslash : d = '/' <;> simp [copyName, hslash] at hd
          exact absurd hhead (hletters _)
      · rintro rfl
        rfl
    rw [hstored, nameSuffix_concat _ (fun h => hafter (dot_mem_flattened.mp h)),
      nameSuffix_concat before hafter]
    by_cases hempty : after = []
    · subst hempty
      simp [hnil]
    · have hbefore : before ++ '.' :: after ≠ '.' :: after ↔ before ≠ [] := by simp
      rw [if_pos ⟨fun h => hempty (hnil.mp h), by simp⟩, hbefore]
      -- a name that starts with its only dot has a suffix only behind something else
      by_cases hb : before = []
      · simp [hb, hempty]
      · rw [if_pos ⟨hempty, hb⟩, List.cons.injEq, flattened_eq_self_iff hfreeAfter]
        simp [hb, hempty]
  · rw [if_neg hdot, nameSuffix_of_notMem hdot]
    refine nameSuffix_lead lead (by simp [Uuid.named]) ?_
    rw [Uuid.named, List.mem_append, List.mem_cons, not_or, not_or]
    exact ⟨id.notMem_digits (by decide), by decide, fun h => hdot (dot_mem_flattened.mp h)⟩

/-! ### The reference of an upload -/

/-- A base name is one component of its path. -/
theorem pathName_spec {path : List Char} (h : pathName path ≠ []) :
    Free '/' (pathName path) ∧ pathName path ≠ ['.'] := by
  unfold pathName at h ⊢
  cases hlast : ((pathComponents path).filter fun part => part != [] && part != ['.']).getLast? with
  | none =>
    rw [hlast] at h
    exact absurd rfl h
  | some name =>
    obtain ⟨hmem, hkept⟩ := List.mem_filter.mp (List.mem_of_getLast? hlast)
    rw [Option.getD_some]
    simp only [Bool.and_eq_true, bne_iff_ne] at hkept
    exact ⟨free_of_mem_pathComponents hmem, hkept.2⟩

/-- The base name of the last component of a path. -/
theorem pathName_append_singleton {parts : List (List Char)} {name : List Char}
    (hparts : ∀ part ∈ parts, Free '/' part) (hfree : Free '/' name) (hne : name ≠ [])
    (hdot : name ≠ ['.']) : pathName (joinSlash (parts ++ [name])) = name := by
  have hall : ∀ part ∈ parts ++ [name], Free '/' part :=
    List.forall_mem_append.mpr ⟨hparts, by simpa using hfree⟩
  have hkept : (name != [] && name != ['.']) = true := by simp [hne, hdot]
  rw [pathName, pathComponents_joinSlash (by simp) hall, List.filter_append, List.filter_cons,
    if_pos hkept, List.filter_nil, List.getLast?_append, List.getLast?_singleton]
  rfl

theorem pathName_of_free {name : List Char} (hfree : Free '/' name) (hne : name ≠ [])
    (hdot : name ≠ ['.']) : pathName name = name := by
  have hname := pathName_append_singleton (List.forall_mem_nil _) hfree hne hdot
  rwa [List.nil_append, joinSlash_cons, join_nil, List.append_nil] at hname

theorem Uuid.named_plain (id : Uuid) {name : List Char} (hfree : Free '/' name) :
    Plain (id.named name) := by
  have hhyphen : '-' ∈ id.named name := by simp [Uuid.named]
  refine ⟨?_, ?_, ?_, ?_⟩
  · exact List.ne_nil_of_mem hhyphen
  · intro h
    rw [h] at hhyphen
    exact absurd hhyphen (by decide)
  · intro h
    rw [h] at hhyphen
    exact absurd hhyphen (by decide)
  · intro h
    rw [Uuid.named, List.mem_append, List.mem_cons] at h
    rcases h with h | h | h
    · exact id.notMem_digits (by decide) h
    · exact absurd h (by decide)
    · exact hfree h

theorem Uuid.slashed_named (id : Uuid) (name : List Char) :
    slashed (id.named name) = id.named (slashed name) := by
  have hdigits : id.digits.map (fun c => if c = '\\' then '/' else c) = id.digits :=
    slashed_of_notMem (id.notMem_digits (by decide))
  unfold Uuid.named
  rw [slashed, List.map_append, hdigits]
  rfl

/-- The letters of a segment behind an identifier. -/
theorem Uuid.safeSegment_named (id : Uuid) {name : List Char} :
    SafeSegment (id.named name) ↔ ∀ c ∈ name, isSafeChar c = true := by
  have hdigit : ∀ c ∈ id.digits, c.isAlphanum = true := by
    intro c hc
    have hhex := id.hex c hc
    rw [isHexDigit, Bool.or_eq_true] at hhex
    rcases hhex with hdigit | hletter
    · rw [Char.isAlphanum, hdigit, Bool.or_true]
    · have hletters : ['a', 'b', 'c', 'd', 'e', 'f'].all Char.isAlphanum = true := by decide
      exact List.all_eq_true.mp hletters c (List.contains_iff_mem.mp hletter)
  have hne : id.digits ≠ [] := by
    intro h
    have hlength := id.length_eq
    rw [h] at hlength
    cases hlength
  -- The segment starts with a digit of the identifier, so only the name can spoil it.
  obtain ⟨d, ds, hds⟩ := List.exists_cons_of_ne_nil hne
  rw [hds] at hdigit
  obtain ⟨hd, hrest⟩ := List.forall_mem_cons.mp hdigit
  rw [Uuid.named, hds, List.cons_append]
  constructor
  · exact fun h c hc => h.2 c (by simp [hc])
  · intro h
    refine ⟨hd, fun c hc => ?_⟩
    rw [List.mem_append, List.mem_cons] at hc
    rcases hc with hc | rfl | hc
    · rw [isSafeChar, hrest c hc]
      rfl
    · rfl
    · exact h c hc

section Reference

variable {settings : UploadSettings} {id : Uuid} {name : List Char} {reference : SafeReference}

/-- **What the reference of an upload becomes**: the uploads directory, and the parts
of the stored name between its backslashes. -/
theorem normalizeStorageReference_upload (hfree : Free '/' name) :
    normalizeStorageReference (uploadReference settings id name) = some reference ↔
      reference.segments =
        settings.uploads.segments ++ pathComponents (id.named (slashed name)) := by
  have huploads : ∀ part ∈ settings.uploads.segments, Plain part ∧ '\\' ∉ part :=
    fun part hpart => (settings.uploads.safe part hpart).plain
  have hplain : ∀ part ∈ settings.uploads.segments ++ [id.named name], Plain part :=
    List.forall_mem_append.mpr ⟨fun part hpart => (huploads part hpart).1,
      by simpa using id.named_plain hfree⟩
  have hback : '\\' ∉ joinSlash settings.uploads.segments := by
    intro hmem
    rcases mem_joinSlash hmem with hc | ⟨part, hpart, hc⟩
    · cases hc
    · exact (huploads part hpart).2 hc
  have hword : slashed (joinSlash (settings.uploads.segments ++ [id.named name])) =
      joinSlash settings.uploads.segments ++ '/' :: id.named (slashed name) := by
    rw [joinSlash_append settings.uploads.nonempty, join_cons, join_nil, List.append_nil,
      slashed_append, slashed_of_notMem hback, slashed_cons_slash, id.slashed_named]
  rw [normalizeStorageReference_iff, uploadReference, String.toList_ofList,
    normpath_joinSlash (by simp) hplain, hword]
  obtain ⟨first, rest, hsegments⟩ := List.exists_cons_of_ne_nil settings.uploads.nonempty
  rw [hsegments] at huploads ⊢
  obtain ⟨hfirst, hrest⟩ := List.forall_mem_cons.mp huploads
  rw [joinSlash_cons, pathComponents_join_append _ hfirst.1.free fun s hs => (hrest s hs).1.free]
  exact eq_comm

/-- The parts of a stored name. -/
theorem Uuid.pathComponents_named (id : Uuid) {name first : List Char} {rest : List (List Char)}
    (h : pathComponents name = first :: rest) :
    pathComponents (id.named name) = id.named first :: rest := by
  have hfree : Free '/' (id.digits ++ ['-']) := by
    rw [Free, List.mem_append, not_or]
    exact ⟨id.notMem_digits (by decide), by decide⟩
  have hparts := pathComponents_append_of_free h hfree
  simpa [Uuid.named] using hparts

/-- The reference of an upload is accepted when the parts of its name are safe. -/
theorem normalizeStorageReference_upload_isSome (settings : UploadSettings) (id : Uuid)
    (hfree : Free '/' name) :
    (∃ reference, normalizeStorageReference (uploadReference settings id name) =
      some reference) ↔ SafePieces name := by
  obtain ⟨first, rest, hpieces⟩ :=
    List.exists_cons_of_ne_nil (pathComponents_ne_nil (slashed name))
  unfold SafePieces
  rw [hpieces, List.headD_cons, List.tail_cons, ← id.safeSegment_named]
  constructor
  · rintro ⟨reference, h⟩
    rw [normalizeStorageReference_upload hfree, id.pathComponents_named hpieces] at h
    have hsafe := reference.safe
    rw [h] at hsafe
    exact ⟨hsafe _ (by simp), fun piece hpiece => hsafe piece (by simp [hpiece])⟩
  · rintro ⟨hfirst, hrest⟩
    refine ⟨⟨settings.uploads.segments ++ id.named first :: rest, by simp, ?_⟩, ?_⟩
    · exact List.forall_mem_append.mpr ⟨settings.uploads.safe,
        List.forall_mem_cons.mpr ⟨hfirst, hrest⟩⟩
    · rw [normalizeStorageReference_upload hfree, id.pathComponents_named hpieces]

/-- The key of an upload. -/
theorem objectKey_upload (config : S3Config) {uploads : SafeReference}
    (h : reference.segments = uploads.segments ++ pathComponents (id.named (slashed name))) :
    objectKey config {} reference =
      objectKey config {} uploads ++ '/' :: id.named (slashed name) := by
  have hrelative : joinSlash (filePath {} reference) =
      joinSlash (filePath {} uploads) ++ '/' :: id.named (slashed name) := by
    rw [filePath, filePath, List.nil_append, List.nil_append, h,
      joinSlash_append uploads.nonempty, join_pathComponents]
  unfold objectKey
  dsimp only
  rw [hrelative]
  split
  · rfl
  · rw [List.append_assoc, List.cons_append]

end Reference

/-! ### One upload -/

section Upload

variable {settings : UploadSettings} {s t : UploadState} {id stagingId : Uuid}
  {filename : String} {payload : Payload} {reference : String} {target : UploadTarget}

/-- The endpoint takes the base name, and the target builder takes it again. -/
theorem buildUploadTarget_pathName (hname : pathName filename.toList ≠ []) :
    buildUploadTarget settings id stagingId (pathName filename.toList) =
      buildUploadTarget settings id stagingId filename.toList := by
  obtain ⟨hfree, hdot⟩ := pathName_spec hname
  unfold buildUploadTarget
  rw [pathName_of_free hfree hname hdot]

/-- The steps of an upload with a base name. -/
theorem uploadDocument_eq_some (hname : pathName filename.toList ≠ [])
    (hbuild : buildUploadTarget settings id stagingId filename.toList =
      some (reference, target)) :
    uploadDocument settings s id stagingId filename payload = some (reference, t) ↔
      ∃ written, s.copyBody payload target = some written ∧
        finalizeStagedUpload settings written reference target = some t := by
  unfold uploadDocument
  simp only [if_neg hname, buildUploadTarget_pathName hname, hbuild, Option.bind_eq_bind,
    Option.bind_some, Option.bind_eq_some_iff, Option.pure_def, Option.some.injEq, Prod.mk.injEq,
    true_and, exists_eq_right]

/-- Opening a file for writing. -/
theorem openWrite_eq_some {disk disk' : LocalDisk} {path : List Name} :
    disk.openWrite path payload = some disk' ↔
      (disk.dirs path.dropLast = true ∧ disk.dirs path = false) ∧
        disk' = { disk with files := Function.update disk.files path (some payload) } := by
  unfold LocalDisk.openWrite
  split
  · next h => simp [h, eq_comm]
  · next h => simp [h]

/-- A name whose parts between backslashes are one has no backslash. -/
theorem slashed_single {name first : List Char} (h : pathComponents (slashed name) = [first]) :
    '\\' ∉ name := by
  intro hback
  have hword : slashed name = first := by
    have hjoin := join_pathComponents (slashed name)
    rw [h, join_cons, join_nil, List.append_nil] at hjoin
    exact (List.cons.inj hjoin).2.symm
  have hfree : Free '/' first := free_of_mem_pathComponents (h ▸ List.mem_cons_self ..)
  refine hfree (hword ▸ ?_)
  exact List.mem_map.mpr ⟨'\\', hback, if_pos rfl⟩

theorem Uuid.infix_named (id : Uuid) (before name : List Char) :
    id.digits <:+: before ++ id.named name :=
  ⟨before, '-' :: name, by simp [Uuid.named]⟩

/-- A file of the disk is its own copy. -/
theorem materializeUpload_local {safe : SafeReference} {path : List Char}
    (hbackend : settings.backend = .local)
    (hsafe : normalizeStorageReference reference = some safe) :
    materializeUpload settings t reference = some (path, payload) ↔
      t.disk.files (filePath {} safe) = some payload ∧ path = joinSlash (filePath {} safe) := by
  unfold materializeUpload
  rw [hsafe]
  simp only [hbackend, Option.bind_eq_bind, Option.bind_some, Option.bind_eq_some_iff,
    Option.pure_def, Option.some.injEq, Prod.mk.injEq]
  constructor
  · rintro ⟨stored, hstored, rfl, rfl⟩
    exact ⟨hstored, rfl⟩
  · rintro ⟨hstored, rfl⟩
    exact ⟨payload, hstored, rfl, rfl⟩

/-- An object is copied under its flattened key. -/
theorem materializeUpload_s3 {safe : SafeReference} {path : List Char}
    (hbackend : settings.backend = .s3)
    (hsafe : normalizeStorageReference reference = some safe) :
    materializeUpload settings t reference = some (path, payload) ↔
      t.s3.readBytes (objectKey settings.s3 {} safe) = some payload ∧
        path = joinSlash [".cache".toList, "s3".toList,
          copyName (objectKey settings.s3 {} safe)] := by
  unfold materializeUpload
  rw [hsafe]
  simp only [hbackend, Option.bind_eq_bind, Option.bind_some, Option.bind_eq_some_iff,
    Option.pure_def, Option.some.injEq, Prod.mk.injEq]
  constructor
  · rintro ⟨stored, hstored, rfl, rfl⟩
    exact ⟨hstored, rfl⟩
  · rintro ⟨hstored, rfl⟩
    exact ⟨payload, hstored, rfl, rfl⟩

/-- **An upload to the disk.** -/
theorem found_local_iff (hbackend : settings.backend = .local)
    (hname : pathName filename.toList ≠ []) (hready : UploadReady settings s id) :
    Found settings s id stagingId filename payload ↔
      (∀ c ∈ pathName filename.toList, isSafeChar c = true) ∧
        SuffixKept [] (pathName filename.toList) := by
  obtain ⟨hfree, -⟩ := pathName_spec hname
  have hbuilt : buildUploadTarget settings id stagingId filename.toList =
      (normalizeStorageReference (uploadReference settings id (pathName filename.toList))).map
        fun safe => (uploadReference settings id (pathName filename.toList),
          .managed (filePath {} safe)) := by
    unfold buildUploadTarget
    rw [hbackend]
  unfold Found
  rw [pathSuffix_eq filename.toList]
  have hupload := fun {t : UploadState} {reference : String} {target : UploadTarget} =>
    @uploadDocument_eq_some settings s t id stagingId filename payload reference target hname
  generalize pathName filename.toList = name at hfree hbuilt hname ⊢
  have hplain := id.named_plain hfree
  have hkept : '\\' ∉ name → ∀ safe : SafeReference,
      safe.segments = settings.uploads.segments ++ [id.named name] →
        (pathSuffix (joinSlash (filePath {} safe)) = nameSuffix name ↔ SuffixKept [] name) := by
    intro hback safe hsegments
    rw [filePath, List.nil_append, hsegments, pathSuffix_eq, pathName_append_singleton
      (fun part hpart => (settings.uploads.safe part hpart).free) hplain.free hplain.ne_nil
      hplain.ne_dot, ← nameSuffix_stored_iff [] id hfree, List.nil_append,
      (flattened_eq_self_iff hfree).mpr hback]
  constructor
  · rintro ⟨reference, target, hbuild, -, t, path, hstored, hread, hsuffix⟩
    obtain ⟨written, hwrite, -⟩ := (hupload hbuild).mp hstored
    rw [hbuilt] at hbuild
    obtain ⟨safe, hsafe, heq⟩ := Option.map_eq_some_iff.mp hbuild
    obtain ⟨rfl, rfl⟩ := Prod.mk.inj heq
    obtain ⟨first, rest, hpieces⟩ :=
      List.exists_cons_of_ne_nil (pathComponents_ne_nil (slashed name))
    have hsegments := (normalizeStorageReference_upload hfree).mp hsafe
    rw [id.pathComponents_named hpieces] at hsegments
    obtain ⟨disk, hopen, -⟩ := Option.map_eq_some_iff.mp hwrite
    obtain ⟨⟨hdir, -⟩, -⟩ := openWrite_eq_some.mp hopen
    -- a part behind the first would need a directory with the identifier in its name
    have hrest : rest = [] := by
      by_contra hrest
      have hmem : id.named first ∈ (filePath {} safe).dropLast := by
        rw [filePath, List.nil_append, hsegments, List.dropLast_append_of_ne_nil (by simp),
          List.dropLast_cons_of_ne_nil hrest]
        simp
      rw [hready.dirs _ _ hmem (id.infix_named [] first)] at hdir
      cases hdir
    subst hrest
    have hback := slashed_single hpieces
    rw [slashed_of_notMem hback, pathComponents_name hfree] at hpieces
    obtain rfl := (List.cons.inj hpieces).1
    obtain ⟨-, rfl⟩ := (materializeUpload_local hbackend hsafe).mp hread
    exact ⟨id.safeSegment_named.mp (safe.safe _ (by simp [hsegments])),
      (hkept hback safe hsegments).mp hsuffix⟩
  · rintro ⟨hletters, hsuffix⟩
    have hback : '\\' ∉ name := fun hmem => absurd (hletters _ hmem) (by decide)
    have hpieces : pathComponents (slashed name) = [name] := by
      rw [slashed_of_notMem hback, pathComponents_name hfree]
    obtain ⟨safe, hsafe⟩ := (normalizeStorageReference_upload_isSome settings id hfree).mpr
      (by rw [SafePieces, hpieces]; exact ⟨hletters, by simp⟩)
    have hsegments := (normalizeStorageReference_upload hfree).mp hsafe
    rw [id.pathComponents_named hpieces] at hsegments
    have hpath : filePath {} safe = settings.uploads.segments ++ [id.named name] := by
      rw [filePath, List.nil_append, hsegments]
    have hdirs : s.disk.dirs (filePath {} safe).dropLast = true ∧
        s.disk.dirs (filePath {} safe) = false := by
      rw [hpath, List.dropLast_concat]
      exact ⟨hready.uploads, hready.dirs _ _ (by simp) (id.infix_named [] name)⟩
    have hbuild := hbuilt
    rw [hsafe, Option.map_some] at hbuild
    refine ⟨_, _, hbuild, by rw [hsafe]; rfl, _, _, (hupload hbuild).mpr
      ⟨_, Option.map_eq_some_iff.mpr ⟨_, openWrite_eq_some.mpr ⟨hdirs, rfl⟩, rfl⟩, rfl⟩,
      (materializeUpload_local hbackend hsafe).mpr ⟨Function.update_self .., rfl⟩,
      (hkept hback safe hsegments).mpr hsuffix⟩

/-- The path of a copy keeps the suffix when the key of the uploads directory does. -/
theorem copy_suffix_iff {safe : SafeReference} {name : List Char} (hfree : Free '/' name)
    (hsegments : safe.segments =
      settings.uploads.segments ++ pathComponents (id.named (slashed name))) :
    id.digits <:+: copyName (objectKey settings.s3 {} safe) ∧
      (pathSuffix (joinSlash [".cache".toList, "s3".toList,
          copyName (objectKey settings.s3 {} safe)]) = nameSuffix name ↔
        SuffixKept (objectKey settings.s3 {} settings.uploads) name) := by
  have hnamed : Free '/' (id.digits ++ ['-']) := by
    rw [Free, List.mem_append, not_or]
    exact ⟨id.notMem_digits (by decide), by decide⟩
  -- the name of a copy is the key with its separators replaced; the upload’s name is its end
  have hcopy : copyName (objectKey settings.s3 {} safe) =
      copyName (objectKey settings.s3 {} settings.uploads ++ ['/']) ++
        id.named (flattened name) := by
    have hword : objectKey settings.s3 {} safe =
        (objectKey settings.s3 {} settings.uploads ++ ['/']) ++
          ((id.digits ++ ['-']) ++ slashed name) := by
      rw [objectKey_upload settings.s3 hsegments]
      simp [Uuid.named]
    rw [hword, copyName_append, copyName_append (id.digits ++ ['-']), copyName_of_free hnamed]
    simp [Uuid.named, flattened]
  have hcopyFree : Free '/' (copyName (objectKey settings.s3 {} safe)) := by
    intro hmem
    obtain ⟨c, -, hc⟩ := List.mem_flatMap.mp hmem
    split at hc
    · exact absurd hc (by decide)
    · next hslash => exact hslash (List.mem_singleton.mp hc).symm
  have hhyphen : '-' ∈ copyName (objectKey settings.s3 {} safe) := by
    rw [hcopy]
    simp [Uuid.named]
  have hkey : objectKey settings.s3 {} settings.uploads ≠ [] := by
    obtain ⟨c, cs, hletters, -⟩ := joinSlash_eq_cons settings.uploads.nonempty
      fun part hpart => (settings.uploads.safe part hpart).plain.1
    unfold objectKey
    dsimp only
    rw [filePath, List.nil_append, hletters]
    split <;> simp
  have htail : '.' ∈ (copyName (objectKey settings.s3 {} settings.uploads ++ ['/'])).tail ↔
      '.' ∈ (objectKey settings.s3 {} settings.uploads).tail := by
    rw [dot_mem_tail_copyName, List.tail_append_of_ne_nil hkey]
    simp
  refine ⟨hcopy ▸ id.infix_named _ _, ?_⟩
  have hpath : joinSlash [".cache".toList, "s3".toList,
      copyName (objectKey settings.s3 {} safe)] = joinSlash ([".cache".toList, "s3".toList] ++
        [copyName (objectKey settings.s3 {} safe)]) := rfl
  rw [hpath, pathSuffix_eq, pathName_append_singleton (by decide) hcopyFree
    (List.ne_nil_of_mem hhyphen), hcopy, nameSuffix_stored_iff _ id hfree]
  · unfold SuffixKept
    rw [htail]
  · intro hdot
    rw [hdot] at hhyphen
    exact absurd hhyphen (by decide)

/-- **An upload to the bucket** is found again when its name makes safe pieces and the copy’s name
keeps the suffix. -/
theorem found_s3_iff (hbackend : settings.backend = .s3)
    (hname : pathName filename.toList ≠ []) (hready : UploadReady settings s id) :
    Found settings s id stagingId filename payload ↔
      SafePieces (pathName filename.toList) ∧
        SuffixKept (objectKey settings.s3 {} settings.uploads) (pathName filename.toList) := by
  obtain ⟨hfree, -⟩ := pathName_spec hname
  have hbuild : buildUploadTarget settings id stagingId filename.toList =
      some (uploadReference settings id (pathName filename.toList),
        .staged (stagingId.named (pathName filename.toList))) := by
    unfold buildUploadTarget
    rw [hbackend]
  unfold Found
  rw [pathSuffix_eq filename.toList]
  have hupload := fun {t : UploadState} =>
    @uploadDocument_eq_some settings s t id stagingId filename payload _ _ hname hbuild
  rw [← normalizeStorageReference_upload_isSome settings id hfree]
  generalize pathName filename.toList = name at hfree hbuild hupload ⊢
  constructor
  · rintro ⟨reference, target, hbuilt, haccepted, t, path, -, hread, hsuffix⟩
    rw [hbuild] at hbuilt
    obtain ⟨rfl, rfl⟩ := Prod.mk.inj (Option.some.inj hbuilt)
    obtain ⟨safe, hsafe⟩ := Option.isSome_iff_exists.mp haccepted
    obtain ⟨-, hkept⟩ := copy_suffix_iff hfree ((normalizeStorageReference_upload hfree).mp hsafe)
    obtain ⟨-, rfl⟩ := (materializeUpload_s3 hbackend hsafe).mp hread
    exact ⟨⟨safe, hsafe⟩, hkept.mp hsuffix⟩
  · rintro ⟨⟨safe, hsafe⟩, hsuffix⟩
    obtain ⟨hfresh, hkept⟩ :=
      copy_suffix_iff hfree ((normalizeStorageReference_upload hfree).mp hsafe)
    -- the object is new, so no copy of it is there yet
    have hread : (s.s3.writeBytes (objectKey settings.s3 {} safe) payload).readBytes
        (objectKey settings.s3 {} safe) = some payload := by
      have hcopies : (s.s3.writeBytes (objectKey settings.s3 {} safe) payload).copies
          (copyName (objectKey settings.s3 {} safe)) = none := hready.copies _ hfresh
      rw [S3State.readBytes, hcopies]
      exact bucket_writeBytes_self
    have hfinal : finalizeStagedUpload settings
        { s with staging := Function.update s.staging (stagingId.named name) (some payload) }
        (uploadReference settings id name) (.staged (stagingId.named name)) =
          some { s with
            s3 := s.s3.writeBytes (objectKey settings.s3 {} safe) payload
            staging := Function.update (Function.update s.staging (stagingId.named name)
              (some payload)) (stagingId.named name) none } := by
      unfold finalizeStagedUpload
      simp [hsafe]
    exact ⟨_, _, hbuild, by rw [hsafe]; rfl, _, _, hupload.mpr ⟨_, rfl, hfinal⟩,
      (materializeUpload_s3 hbackend hsafe).mpr ⟨hread, rfl⟩, hkept.mpr hsuffix⟩

end Upload

/-- **An upload is found again just in case its base name is uploadable.**  On the
disk that is a name of safe letters whose only dot, if it has one, is not its first
letter; in the bucket the parts between backslashes count, and the suffix must survive
the key around it. -/
theorem upload_found_iff {settings : UploadSettings} {s : UploadState} {id stagingId : Uuid}
    {filename : String} {payload : Payload} (hname : pathName filename.toList ≠ [])
    (hready : UploadReady settings s id) :
    Found settings s id stagingId filename payload ↔
      Uploadable settings (pathName filename.toList) := by
  unfold Uploadable
  cases hbackend : settings.backend with
  | «local» => exact found_local_iff hbackend hname hready
  | s3 => exact found_s3_iff hbackend hname hready

/-! ### A report and its name -/

/-- The identifier of the demonstration. -/
def zeroId : Uuid := ⟨List.replicate 32 '0', by decide, by simp; decide⟩

/-- Uploads below `uploads`, on the disk. -/
def diskUploads : UploadSettings where
  uploads := ⟨["uploads".toList], by decide, by decide⟩

/-- The uploads directory, with nothing in it. -/
def emptyUploads : UploadState where
  disk := { dirs := fun dir => dir == ["uploads".toList] }

theorem emptyUploads_ready : UploadReady diskUploads emptyUploads zeroId where
  uploads := by decide
  dirs := by
    intro path name hmem hid
    cases hdir : emptyUploads.disk.dirs path with
    | false => rfl
    | true =>
      obtain rfl : path = ["uploads".toList] := by simpa [emptyUploads] using hdir
      obtain rfl := List.mem_singleton.mp hmem
      exact absurd (hid.subset (by decide : '0' ∈ zeroId.digits)) (by decide)
  copies := fun _ _ => rfl

/-- Uploads to a bucket. -/
def bucketUploads : UploadSettings := { diskUploads with backend := .s3 }

/-- A report with a plain name is found on the disk, and one with a backslash in its name in the
bucket. -/
theorem report_found :
    Found diskUploads emptyUploads zeroId zeroId "C/report-1.pdf" [1] ∧
      Found bucketUploads emptyUploads zeroId zeroId "C/notes\\report-1.pdf" [1] := by
  constructor
  · refine (upload_found_iff (by decide) emptyUploads_ready).mpr ?_
    have hname : pathName "C/report-1.pdf".toList = "report-1.pdf".toList := by decide
    rw [hname]
    refine ⟨List.all_eq_true.mp (by decide), ?_⟩
    rw [SuffixKept, if_pos (by decide)]
    exact Or.inr ⟨by decide, by decide⟩
  · have hready : UploadReady bucketUploads emptyUploads zeroId :=
      ⟨emptyUploads_ready.uploads, emptyUploads_ready.dirs, emptyUploads_ready.copies⟩
    refine (upload_found_iff (by decide) hready).mpr ?_
    have hname : pathName "C/notes\\report-1.pdf".toList = "notes\\report-1.pdf".toList := by decide
    rw [hname]
    refine ⟨⟨List.all_eq_true.mp (by decide), by decide⟩, ?_⟩
    rw [SuffixKept, if_pos (by decide)]
    exact Or.inr ⟨by decide, by decide⟩

/-- **A name with a space** is accepted by the endpoint, and its upload raises. -/
theorem spaced_name_rejected :
    ¬ ∀ (settings : UploadSettings) (s : UploadState) (id stagingId : Uuid) (filename : String)
        (payload : Payload), pathName filename.toList ≠ [] → UploadReady settings s id →
      Found settings s id stagingId filename payload := by
  intro h
  obtain ⟨reference, target, hbuild, -⟩ :=
    h diskUploads emptyUploads zeroId zeroId "my report.pdf" [1] (by decide) emptyUploads_ready
  have hrejected : normalizeStorageReference
      (uploadReference diskUploads zeroId (pathName "my report.pdf".toList)) = none := by decide
  have hnone : buildUploadTarget diskUploads zeroId zeroId "my report.pdf".toList = none := by
    have hbackend : diskUploads.backend = .local := rfl
    unfold buildUploadTarget
    simp only [hbackend, hrejected, Option.map_none]
  rw [hnone] at hbuild
  cases hbuild

end ExtractFlow
