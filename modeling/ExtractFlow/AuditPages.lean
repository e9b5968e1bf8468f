import ExtractFlow.Entities
import ExtractFlow.Lib.DecimalDigits
import ExtractFlow.Lib.TiedPages
import ExtractFlow.TemplateContract

/-!
# Pages of the audit log

`list_audit_events_page` (`backend/app/services/audit_service.py`).  Events are
filtered in SQL and ordered by the time they were created, the newest first.  When
the request names a result, a document or a job, the rows are filtered by their
metadata and cut in Python, else the database cuts the page.

The order says nothing about events of the same time, and every page is a query of
its own; so the database may order such events one way for one page and another way
for the next.

## Main definitions

* `StampedAuditEvent`, `AuditQuery` — an event with its time, and what a request asks for.
* `metadataIdMatches`, `filterAuditEventsByMetadata`, `listAuditEventsPage`.
* `matchingEvents` — what the pages should hold together.
* `PagesPartition` — what the pages promise.

## Main results

* `listAuditEventsPage_ok_iff` — both paths cut the page from the matching events.
* `audit_pages_iff` — the pages are a partition just in case no filter raises and no
  events of one time lie across the boundary of two pages.
* `tied_events_repeat` — two events of one time.
-/

namespace ExtractFlow

open TiedPages

/-! ### The program -/

/-- An audit event with its `created_at`, in microseconds; events can be created in the same one. -/
structure StampedAuditEvent extends AuditEvent where
  createdAt : ℕ
  deriving Repr

/-- The filters of a request. What is absent does not filter. -/
structure AuditQuery where
  tenantId : String := "default"
  resultId : Option ℤ := none
  documentId : Option ℤ := none
  jobId : Option ℤ := none
  action : Option String := none
  fromTime : Option ℕ := none
  toTime : Option ℕ := none

/-- The digits of `int(s)`: single underscores may stand between them. -/
def intDigits (digits : DecimalDigits) : Bool → List Char → Option (List Char)
  | afterDigit, [] => if afterDigit then some [] else none
  | afterDigit, c :: cs =>
      if digits.isDecimal c then (intDigits digits true cs).map (c :: ·)
      else if c = '_' ∧ afterDigit = true then intDigits digits false cs
      else none

/-- `int(s)` of a string; `none` where it raises `ValueError`. -/
def intOfString (digits : DecimalDigits) (s : String) : Option ℤ :=
  match stripChars s.toList with
  | '-' :: cs => (intDigits digits false cs).map fun ds => -(digits.number ds : ℤ)
  | '+' :: cs => (intDigits digits false cs).map fun ds => (digits.number ds : ℤ)
  | cs => (intDigits digits false cs).map fun ds => (digits.number ds : ℤ)

/-- `int(value)`. -/
def intOfValue (digits : DecimalDigits) : PyVal → Except PyErr ℤ
  | .bool b => .ok (if b then 1 else 0)
  | .int i => .ok i
  | .float (.fin q) => .ok (q.num.tdiv q.den)
  | .float .nan => .error (.valueError "cannot convert float NaN to integer")
  | .float _ => .error (.other "OverflowError")
  | .str s =>
      match intOfString digits s with
      | some i => .ok i
      | none => .error (.valueError "invalid literal for int() with base 10")
  | _ => .error .typeError

/-- `_metadata_id_matches`: the value, read as an integer, is the one that is expected. What cannot
be read is no match, unless reading it fails otherwise than for its type or its text. -/
def metadataIdMatches (digits : DecimalDigits) (value : PyVal) (expected : ℤ) :
    Except PyErr Bool :=
  if value.isNone then .ok false
  else
    match intOfValue digits value with
    | .ok i => .ok (i == expected)
    | .error .typeError => .ok false
    | .error (.valueError _) => .ok false
    | .error e => .error e

/-- The check of one identifier of the metadata, when the request names it. -/
def idMatches (digits : DecimalDigits) (metadata : List (String × PyVal)) (key : String) :
    Option ℤ → Except PyErr Bool
  | none => .ok true
  | some expected => metadataIdMatches digits ((PyVal.dictGet metadata key).getD .none) expected

/-- The checks of one event in `_filter_audit_events_by_metadata`. -/
def metadataMatches (digits : DecimalDigits) (query : AuditQuery) (event : StampedAuditEvent) :
    Except PyErr Bool := do
  if !(← idMatches digits event.metadata "result_id" query.resultId) then return false
  if !(← idMatches digits event.metadata "document_id" query.documentId) then return false
  idMatches digits event.metadata "job_id" query.jobId

/-- The request names a result, a document or a job. -/
def AuditQuery.metadataFiltered (query : AuditQuery) : Bool :=
  query.resultId.isSome || query.documentId.isSome || query.jobId.isSome

/-- The loop of `_filter_audit_events_by_metadata`. -/
def keepMatching (digits : DecimalDigits) (query : AuditQuery) :
    List (ℕ × StampedAuditEvent) → Except PyErr (List (ℕ × StampedAuditEvent))
  | [] => .ok []
  | event :: events => do
      let kept ← metadataMatches digits query event.2
      let rest ← keepMatching digits query events
      return if kept then event :: rest else rest

/-- `_filter_audit_events_by_metadata`: the events that match each of the three filters that were
given. -/
def filterAuditEventsByMetadata (digits : DecimalDigits) (query : AuditQuery)
    (events : List (ℕ × StampedAuditEvent)) : Except PyErr (List (ℕ × StampedAuditEvent)) :=
  if query.metadataFiltered then keepMatching digits query events else .ok events

/-- The conditions of `_build_audit_event_query`. -/
def AuditQuery.selects (query : AuditQuery) (event : StampedAuditEvent) : Bool :=
  event.tenantId == query.tenantId &&
    (match query.action with
      | some action => action == "" || event.action == action
      | none => true) &&
    (match query.fromTime with
      | some time => decide (time ≤ event.createdAt)
      | none => true) &&
    match query.toTime with
      | some time => decide (event.createdAt ≤ time)
      | none => true

/-- The rows of the query, with their identifiers. -/
def AuditQuery.rows (query : AuditQuery) (log : Table StampedAuditEvent) :
    List (ℕ × StampedAuditEvent) :=
  log.rows.filter fun row => query.selects row.2

/-- The time of a row. -/
def rowTime (row : ℕ × StampedAuditEvent) : ℕ := row.2.createdAt

/-- `list_audit_events_page`, given how the database orders the rows of the query: the page, and how
many events there are. -/
def listAuditEventsPage (digits : DecimalDigits) (query : AuditQuery)
    (ordered : List (ℕ × StampedAuditEvent)) (limit offset : ℕ) :
    Except PyErr (List (ℕ × StampedAuditEvent) × ℕ) :=
  if !query.metadataFiltered then .ok ((ordered.drop offset).take limit, ordered.length)
  else do
    let filteredEvents ← filterAuditEventsByMetadata digits query ordered
    return ((filteredEvents.drop offset).take limit, filteredEvents.length)

/-! ### What the pages promise -/

/-- The event passes the checks of its metadata. -/
def metadataPasses (digits : DecimalDigits) (query : AuditQuery) (row : ℕ × StampedAuditEvent) :
    Bool :=
  match metadataMatches digits query row.2 with
  | .ok kept => kept
  | .error _ => false

/-- The events a request asks for, which its pages should show each once. -/
def matchingEvents (digits : DecimalDigits) (query : AuditQuery) (log : Table StampedAuditEvent) :
    List (ℕ × StampedAuditEvent) :=
  (query.rows log).filter (metadataPasses digits query)

/-- However the database orders events of one time for each page, the pages return,
report the number of matching events, and hold each of them once, the newest first. -/
def PagesPartition (digits : DecimalDigits) (query : AuditQuery) (log : Table StampedAuditEvent)
    (limit : ℕ) : Prop :=
  ∀ answers : ℕ → List (ℕ × StampedAuditEvent),
    (∀ k, Answer rowTime (query.rows log) (answers k)) →
    ∀ n, (matchingEvents digits query log).length ≤ n * limit →
      ∃ found, (List.range n).mapM (fun k =>
          listAuditEventsPage digits query (answers k) limit (k * limit)) = .ok found ∧
        (∀ page ∈ found, page.2 = (matchingEvents digits query log).length) ∧
        (found.flatMap Prod.fst).Perm (matchingEvents digits query log) ∧
        (found.flatMap Prod.fst).Pairwise fun a b => rowTime b ≤ rowTime a

/-! ### One page -/

section Page

variable {digits : DecimalDigits} {query : AuditQuery}
  {ordered kept : List (ℕ × StampedAuditEvent)} {limit : ℕ}

/-- The loop returns when every check does. -/
theorem keepMatching_ok_iff :
    keepMatching digits query ordered = .ok kept ↔
      (∀ row ∈ ordered, ∃ b, metadataMatches digits query row.2 = .ok b) ∧
        kept = ordered.filter (metadataPasses digits query) := by
  induction ordered generalizing kept with
  | nil => simp [keepMatching, eq_comm]
  | cons row rows ih =>
    have hpasses : ∀ {b}, metadataMatches digits query row.2 = .ok b →
        metadataPasses digits query row = b := fun hb => by rw [metadataPasses, hb]
    constructor
    · intro h
      obtain ⟨b, hb, h⟩ := Failing.bind_ok.mp h
      obtain ⟨rest, hrest, h⟩ := Failing.bind_ok.mp h
      obtain ⟨hall, rfl⟩ := ih.mp hrest
      obtain rfl := Except.ok.inj h
      refine ⟨List.forall_mem_cons.mpr ⟨⟨b, hb⟩, hall⟩, ?_⟩
      rw [List.filter_cons, hpasses hb]
    · rintro ⟨hall, rfl⟩
      obtain ⟨⟨b, hb⟩, hrest⟩ := List.forall_mem_cons.mp hall
      refine Failing.bind_ok.mpr ⟨b, hb, Failing.bind_ok.mpr ⟨_, ih.mpr ⟨hrest, rfl⟩, ?_⟩⟩
      rw [List.filter_cons, hpasses hb]
      rfl

/-- Without identifiers every event passes. -/
theorem metadataMatches_of_unfiltered (h : query.metadataFiltered = false)
    (event : StampedAuditEvent) : metadataMatches digits query event = .ok true := by
  unfold AuditQuery.metadataFiltered at h
  simp only [Bool.or_eq_false_iff, Option.isSome_eq_false_iff, Option.isNone_iff_eq_none] at h
  obtain ⟨⟨hresult, hdocument⟩, hjob⟩ := h
  unfold metadataMatches
  rw [hresult, hdocument, hjob]
  rfl

/-- **Both paths cut the page from the matching events**, when no check raises. -/
theorem listAuditEventsPage_ok_iff {k : ℕ} {found : List (ℕ × StampedAuditEvent) × ℕ} :
    listAuditEventsPage digits query ordered limit (k * limit) = .ok found ↔
      (∀ row ∈ ordered, ∃ b, metadataMatches digits query row.2 = .ok b) ∧
        found = (page limit k (ordered.filter (metadataPasses digits query)),
          (ordered.filter (metadataPasses digits query)).length) := by
  unfold listAuditEventsPage filterAuditEventsByMetadata
  cases hfiltered : query.metadataFiltered with
  | false =>
    have hmatch := @metadataMatches_of_unfiltered digits query hfiltered
    -- without a filter on the metadata every row passes
    have hall : ordered.filter (metadataPasses digits query) = ordered :=
      List.filter_eq_self.mpr fun row _ => by rw [metadataPasses, hmatch]
    rw [hall]
    constructor
    · intro h
      exact ⟨fun row _ => ⟨true, hmatch row.2⟩, (Except.ok.inj h).symm⟩
    · rintro ⟨-, rfl⟩
      rfl
  | true =>
    constructor
    · intro h
      obtain ⟨kept, hkept, h⟩ := Failing.bind_ok.mp h
      obtain ⟨hall, rfl⟩ := keepMatching_ok_iff.mp hkept
      exact ⟨hall, (Except.ok.inj h).symm⟩
    · rintro ⟨hall, rfl⟩
      exact Failing.bind_ok.mpr ⟨_, keepMatching_ok_iff.mpr ⟨hall, rfl⟩, rfl⟩

end Page

/-! ### All pages -/

section Pages

variable {digits : DecimalDigits} {query : AuditQuery} {log : Table StampedAuditEvent} {limit : ℕ}
  {answers : ℕ → List (ℕ × StampedAuditEvent)}

/-- The matching events, in the order of the query. -/
theorem answer_passes (digits : DecimalDigits) {l : List (ℕ × StampedAuditEvent)}
    (h : Answer rowTime (query.rows log) l) :
    Answer rowTime (matchingEvents digits query log) (l.filter (metadataPasses digits query)) :=
  ⟨h.perm.filter _, h.sorted.filter _⟩

/-- The pages of queries whose checks return are those of the matching events. -/
theorem mapM_pages (h : ∀ k, Answer rowTime (query.rows log) (answers k))
    (hchecks : ∀ row ∈ query.rows log, ∃ b, metadataMatches digits query row.2 = .ok b) (n : ℕ) :
    (List.range n).mapM (fun k =>
        listAuditEventsPage digits query (answers k) limit (k * limit)) =
      .ok ((List.range n).map fun k =>
        (page limit k ((answers k).filter (metadataPasses digits query)),
          ((answers k).filter (metadataPasses digits query)).length)) := by
  refine Failing.mapM_of_forall fun k _ => listAuditEventsPage_ok_iff.mpr ⟨fun row hrow => ?_, rfl⟩
  exact hchecks row ((h k).perm.subset hrow)

theorem nodup_matchingEvents (digits : DecimalDigits) (query : AuditQuery)
    (log : Table StampedAuditEvent) : (matchingEvents digits query log).Nodup :=
  (log.nodup.of_map _).filter _ |>.filter _

/-- **The pages of the audit log are a partition just in case** no check of the
metadata raises, and the matching events of any one time lie on one page. -/
theorem audit_pages_iff (hlimit : 0 < limit) :
    PagesPartition digits query log limit ↔
      (∀ row ∈ query.rows log, ∃ b, metadataMatches digits query row.2 = .ok b) ∧
        Whole rowTime limit (matchingEvents digits query log) := by
  constructor
  · intro hall
    have hchecks : ∀ row ∈ query.rows log, ∃ b, metadataMatches digits query row.2 = .ok b := by
      -- the first page already checks every row
      intro row hrow
      obtain ⟨l, hl⟩ := exists_answer rowTime (query.rows log)
      obtain ⟨found, hfound, -⟩ := hall (fun _ => l) (fun _ => hl)
        ((matchingEvents digits query log).length + 1)
        ((Nat.le_succ _).trans (Nat.le_mul_of_pos_right _ hlimit))
      obtain ⟨first, hfirst⟩ :=
        Failing.exists_of_mapM_ok hfound 0 (List.mem_range.mpr (Nat.succ_pos _))
      exact (listAuditEventsPage_ok_iff.mp hfirst).1 row (hl.perm.symm.subset hrow)
    refine ⟨hchecks, (pages_partition_iff hlimit (nodup_matchingEvents ..)).mp ?_⟩
    intro orders horders n hn
    choose answers hanswers hfilter using fun k => exists_answer_filter rowTime _ (horders k)
    obtain ⟨found, hfound, -, hperm, -⟩ := hall answers hanswers n hn
    rw [mapM_pages hanswers hchecks] at hfound
    obtain rfl := Except.ok.inj hfound
    unfold pages
    simpa only [List.flatMap_map, hfilter] using hperm
  · rintro ⟨hchecks, hwhole⟩ answers hanswers n hn
    refine ⟨_, mapM_pages hanswers hchecks n, ?_, ?_, ?_⟩
    · intro found hfound
      obtain ⟨k, -, rfl⟩ := List.mem_map.mp hfound
      exact ((hanswers k).perm.filter _).length_eq
    · rw [List.flatMap_map]
      exact pages_perm hwhole hlimit (fun k => answer_passes digits (hanswers k)) hn
    · rw [List.flatMap_map]
      exact pages_sorted (fun k => answer_passes digits (hanswers k)) n

end Pages

/-! ### Two events of one time -/

/-- An event of the tenant `default` created at a time. -/
def eventAt (time : ℕ) : StampedAuditEvent :=
  ⟨⟨"default", "reviewer", "result.review", "extraction_result", 1, []⟩, time⟩

/-- Two events of one time, and an older one. -/
def threeEvents : Table StampedAuditEvent :=
  ⟨[(1, eventAt 2), (2, eventAt 2), (3, eventAt 1)], by decide⟩

/-- An event of a job, whose identifier the metadata has as a number or as a text. -/
def jobEventAt (job : PyVal) (time : ℕ) : StampedAuditEvent :=
  ⟨⟨"default", "worker", "job.completed", "job", 1, [("job_id", job)]⟩, time⟩

/-- Three events of job 7, one of job 8 and one of no job. -/
def jobEvents : Table StampedAuditEvent :=
  ⟨[(1, jobEventAt (.int 7) 2), (2, jobEventAt (.str "7") 2), (3, jobEventAt (.int 8) 2),
    (4, jobEventAt (.int 7) 1), (5, eventAt 1)], by decide⟩

/-- On pages of two the events of one time are together, with and without an identifier to match
the metadata with. -/
theorem three_events_paged : PagesPartition .asciiOnly {} threeEvents 2 ∧
    PagesPartition .asciiOnly { jobId := some 7 } jobEvents 2 := by
  constructor
  · exact (audit_pages_iff (by decide)).mpr
      ⟨fun _ _ => ⟨true, metadataMatches_of_unfiltered rfl _⟩, by decide⟩
  · refine (audit_pages_iff (by decide)).mpr ⟨?_, by decide⟩
    intro row hrow
    have hrow : row ∈ jobEvents.rows := List.mem_of_mem_filter hrow
    simp only [jobEvents, List.mem_cons, List.not_mem_nil, or_false] at hrow
    rcases hrow with rfl | rfl | rfl | rfl | rfl
    · exact ⟨true, rfl⟩
    · exact ⟨true, rfl⟩
    · exact ⟨false, rfl⟩
    · exact ⟨true, rfl⟩
    · exact ⟨false, rfl⟩

/-- Two events of one time. -/
def twoEvents : Table StampedAuditEvent := ⟨[(1, eventAt 2), (2, eventAt 2)], by decide⟩

/-- **Two pages of one event each** return the first event twice, when the database orders two
events of the same time differently for each. -/
theorem tied_events_repeat :
    ¬ ∀ (digits : DecimalDigits) (query : AuditQuery) (log : Table StampedAuditEvent) (limit : ℕ),
      0 < limit → PagesPartition digits query log limit := by
  intro hall
  have hanswers : ∀ k : ℕ, Answer rowTime (AuditQuery.rows {} twoEvents)
      (if k = 0 then [(1, eventAt 2), (2, eventAt 2)] else [(2, eventAt 2), (1, eventAt 2)]) := by
    intro k
    split
    · exact ⟨.refl _, by decide⟩
    · exact ⟨.swap .., by decide⟩
  obtain ⟨found, hfound, -, hperm, -⟩ :=
    hall .asciiOnly {} twoEvents 1 Nat.one_pos _ hanswers 2 (by decide)
  obtain rfl := Except.ok.inj hfound
  have hnodup := (hperm.map Prod.fst).nodup_iff.mpr twoEvents.nodup
  exact absurd hnodup (by decide)

end ExtractFlow
