import Mathlib.Data.List.Basic

/-!
# Tables with primary keys, and write-back of loaded rows

A table is the list of its rows in insertion order, each with its primary key,
and no two rows share a key.  `get` reads a row, `update` rewrites the row of a key in place, `insert` appends
a row under a fresh key.

An object-relational session does not write a row back whole: it remembers the
row it loaded and writes the columns whose new value differs from the loaded
one.  `writeBack` is that rule for one column; what another transaction
committed to a column the session left alone survives.

## Main definitions

* `Table`, `Table.get`, `Table.update`, `Table.insert`, `Table.select`, `Table.keysWhere`.
* `writeBack loaded new stored` — the column after a flush.

## Main results

* `Table.get_update_self`, `Table.get_update_ne` — an update changes one row.
* `Table.get_insert_self`, `Table.get_insert_of_get` — an insert keeps the rows there.
* `writeBack_of_ne` — a changed column is written whatever is stored.
-/

/-- The column a flush leaves in the store, when the session loaded `loaded` and
set the attribute to `new` while `stored` is what the store holds. -/
def writeBack {α : Type*} [DecidableEq α] (loaded new stored : α) : α :=
  if new = loaded then stored else new

section WriteBack

variable {α : Type*} [DecidableEq α] {loaded new stored : α}

/-- An attribute left as loaded is not written. -/
@[simp] theorem writeBack_same (loaded stored : α) : writeBack loaded loaded stored = stored := by
  simp [writeBack]

/-- Without a concurrent change the row holds the new value. -/
@[simp] theorem writeBack_self (loaded new : α) : writeBack loaded new loaded = new := by
  unfold writeBack
  split
  · next h => exact h.symm
  · rfl

/-- A changed attribute is written whatever the store holds: what another transaction committed to
it is overwritten. -/
theorem writeBack_of_ne (h : new ≠ loaded) : writeBack loaded new stored = new := by
  simp [writeBack, h]

/-- A flush leaves the stored value or the new one. -/
theorem writeBack_eq_or (loaded new stored : α) :
    writeBack loaded new stored = stored ∨ writeBack loaded new stored = new := by
  unfold writeBack
  split
  · exact Or.inl rfl
  · exact Or.inr rfl

end WriteBack

/-- A table: its rows with their primary keys, in insertion order. That no two rows share a key is
part of the table. -/
structure Table (ρ : Type*) where
  /-- The rows. -/
  rows : List (ℕ × ρ)
  /-- The keys are unique. -/
  nodup : (rows.map Prod.fst).Nodup
  deriving Repr

namespace Table

variable {ρ : Type*}

/-- The table without rows. -/
def empty : Table ρ := ⟨[], List.nodup_nil⟩

instance : Inhabited (Table ρ) := ⟨empty⟩

/-- The table of the given rows. -/
def ofRows (rows : List (ℕ × ρ)) (h : (rows.map Prod.fst).Nodup := by decide) : Table ρ :=
  ⟨rows, h⟩

/-- The row with primary key `id`, if there is one. -/
def get (t : Table ρ) (id : ℕ) : Option ρ :=
  (t.rows.find? fun p => p.1 == id).map Prod.snd

/-- Rewrite the row with key `id` in a list of rows. -/
def updateRows (rows : List (ℕ × ρ)) (id : ℕ) (f : ρ → ρ) : List (ℕ × ρ) :=
  rows.map fun p => if p.1 == id then (p.1, f p.2) else p

@[simp] theorem updateRows_cons (q : ℕ × ρ) (rows : List (ℕ × ρ)) (id : ℕ) (f : ρ → ρ) :
    updateRows (q :: rows) id f =
      (if q.1 = id then (q.1, f q.2) else q) :: updateRows rows id f := by
  simp [updateRows]

@[simp] theorem map_fst_updateRows (rows : List (ℕ × ρ)) (id : ℕ) (f : ρ → ρ) :
    (updateRows rows id f).map Prod.fst = rows.map Prod.fst := by
  unfold updateRows
  rw [List.map_map]
  refine List.map_congr_left ?_
  intro p _
  simp only [Function.comp_apply]
  split <;> rfl

/-- Rewrite the row with primary key `id` in place; without such a row nothing changes. -/
def update (t : Table ρ) (id : ℕ) (f : ρ → ρ) : Table ρ :=
  ⟨updateRows t.rows id f, (map_fst_updateRows t.rows id f).symm ▸ t.nodup⟩

/-- The next primary key: above every key in use. -/
def nextId (t : Table ρ) : ℕ := (t.rows.map Prod.fst).foldr max 0 + 1

theorem lt_foldr_max {id : ℕ} : ∀ {ids : List ℕ}, id ∈ ids → id < ids.foldr max 0 + 1 := by
  intro ids
  induction ids with
  | nil => intro h; simp at h
  | cons k ids ih =>
    intro h
    simp only [List.foldr_cons]
    rcases List.mem_cons.mp h with rfl | h
    · omega
    · have := ih h
      omega

theorem nextId_notMem (t : Table ρ) : t.nextId ∉ t.rows.map Prod.fst := by
  intro h
  exact Nat.lt_irrefl _ (lt_foldr_max h)

/-- Append a row under the next primary key, which no row of the table has. -/
def insert (t : Table ρ) (r : ρ) : Table ρ where
  rows := t.rows ++ [(t.nextId, r)]
  nodup := by
    rw [List.map_append]
    refine List.nodup_append.mpr ⟨t.nodup, by simp, ?_⟩
    intro a ha b hb hab
    obtain rfl : b = t.nextId := by simpa using hb
    exact t.nextId_notMem (hab ▸ ha)

/-- The rows satisfying `p`, with their keys, in insertion order. -/
def select (t : Table ρ) (p : ρ → Bool) : List (ℕ × ρ) := t.rows.filter fun q => p q.2

/-! ### Updates -/

theorem get_update (t : Table ρ) (id id' : ℕ) (f : ρ → ρ) :
    (t.update id f).get id' = if id' = id then (t.get id').map f else t.get id' := by
  obtain ⟨rows, hnodup⟩ := t
  unfold get update updateRows
  simp only
  clear hnodup
  induction rows with
  | nil => simp
  | cons p rows ih =>
    obtain ⟨k, r⟩ := p
    simp only [List.map_cons, List.find?_cons] at ih ⊢
    by_cases hk : k = id
    · subst hk
      by_cases hid : id' = k
      · subst hid; simp
      · have hne : (k == id') = false := by simpa using Ne.symm hid
        simpa only [beq_self_eq_true, if_true, hne, hid, if_false] using ih
    · have hb : (k == id) = false := by simpa using hk
      simp only [hb, Bool.false_eq_true, if_false]
      -- the head row is untouched; it is the row read exactly when its key is `id'`
      cases hkk : k == id' with
      | true =>
        have : id' ≠ id := fun h => hk ((beq_iff_eq.mp hkk).trans h)
        simp [this]
      | false => simpa only using ih

/-- An update changes the row of its key as it says. -/
@[simp] theorem get_update_self (t : Table ρ) (id : ℕ) (f : ρ → ρ) :
    (t.update id f).get id = (t.get id).map f := by simp [get_update]

/-- An update leaves the rows of the other keys. -/
theorem get_update_ne (t : Table ρ) {id id' : ℕ} (f : ρ → ρ) (h : id' ≠ id) :
    (t.update id f).get id' = t.get id' := by simp [get_update, h]

/-- An update neither adds nor removes a key. -/
@[simp] theorem get_update_isSome (t : Table ρ) (id id' : ℕ) (f : ρ → ρ) :
    ((t.update id f).get id').isSome = (t.get id').isSome := by
  rw [get_update]
  split <;> simp

/-! ### Inserts -/

/-- A key in use is below the next one. -/
theorem lt_nextId_of_get {t : Table ρ} {id : ℕ} {r : ρ} (h : t.get id = some r) :
    id < t.nextId := by
  unfold get at h
  obtain ⟨p, hp, -⟩ := Option.map_eq_some_iff.mp h
  have hid : p.1 = id := by simpa using List.find?_some hp
  have hmem : p.1 ∈ t.rows.map Prod.fst :=
    List.mem_map_of_mem (List.mem_of_find?_eq_some hp)
  exact hid ▸ lt_foldr_max hmem

/-- The next primary key is free. -/
@[simp] theorem get_nextId (t : Table ρ) : t.get t.nextId = none := by
  cases h : t.get t.nextId with
  | none => rfl
  | some r => exact absurd (lt_nextId_of_get h) (Nat.lt_irrefl _)

/-- An insert keeps the rows there: they are read as before. -/
theorem get_insert_of_get {t : Table ρ} {id : ℕ} {r : ρ} (r' : ρ) (h : t.get id = some r) :
    (t.insert r').get id = some r := by
  unfold get insert at *
  obtain ⟨p, hp, rfl⟩ := Option.map_eq_some_iff.mp h
  simp [List.find?_append, hp]

/-- An insert adds its row under the next primary key. -/
@[simp] theorem get_insert_self (t : Table ρ) (r : ρ) :
    (t.insert r).get t.nextId = some r := by
  have h : (t.rows.find? fun p => p.1 == t.nextId) = none := by
    have := get_nextId t
    simpa [get] using this
  simp [get, insert, List.find?_append, h]

/-- An insert leaves every other key as it was. -/
theorem get_insert_ne (t : Table ρ) (r : ρ) {id : ℕ} (h : id ≠ t.nextId) :
    (t.insert r).get id = t.get id := by
  have hne : (t.nextId == id) = false := by simpa using Ne.symm h
  simp [get, insert, List.find?_append, hne]

/-! ### Selections -/

/-- Keys being unique, a row is what its key reads. -/
theorem get_of_mem {t : Table ρ} {id : ℕ} {r : ρ} (h : (id, r) ∈ t.rows) : t.get id = some r := by
  obtain ⟨rows, hnodup⟩ := t
  unfold get
  simp only at h ⊢
  induction rows with
  | nil => simp at h
  | cons q rows ih =>
    obtain ⟨k, r'⟩ := q
    simp only [List.map_cons, List.nodup_cons] at hnodup
    rcases List.mem_cons.mp h with h | h
    · obtain ⟨rfl, rfl⟩ : id = k ∧ r = r' := by simpa using h
      simp
    · have hk : (k == id) = false := by
        rw [beq_eq_false_iff_ne]
        rintro rfl
        exact hnodup.1 (List.mem_map_of_mem (f := Prod.fst) h)
      simp only [List.find?_cons, hk]
      exact ih hnodup.2 h

/-- What a key reads is a row. -/
theorem mem_of_get {t : Table ρ} {id : ℕ} {r : ρ} (h : t.get id = some r) : (id, r) ∈ t.rows := by
  unfold get at h
  obtain ⟨⟨k, r'⟩, hp, rfl⟩ := Option.map_eq_some_iff.mp h
  have hk : k = id := by simpa using List.find?_some hp
  exact hk ▸ List.mem_of_find?_eq_some hp

theorem mem_select {t : Table ρ} {p : ρ → Bool} {id : ℕ} {r : ρ} :
    (id, r) ∈ t.select p ↔ (id, r) ∈ t.rows ∧ p r = true := by
  simp [select]

@[simp] theorem select_insert (t : Table ρ) (p : ρ → Bool) (r : ρ) :
    (t.insert r).select p = t.select p ++ if p r then [(t.nextId, r)] else [] := by
  unfold select insert
  rw [List.filter_append]
  cases h : p r <;> simp [h]

/-- Rewriting the row of a key that is not there changes nothing. -/
theorem updateRows_of_notMem {rows : List (ℕ × ρ)} {id : ℕ} (f : ρ → ρ)
    (h : id ∉ rows.map Prod.fst) : updateRows rows id f = rows := by
  induction rows with
  | nil => rfl
  | cons q rows ih =>
    simp only [List.map_cons, List.mem_cons, not_or] at h
    rw [updateRows_cons, if_neg (Ne.symm h.1), ih h.2]

/-- A rewrite that the selection cannot see commutes with it. -/
theorem select_update {t : Table ρ} {p : ρ → Bool} {id : ℕ} {f : ρ → ρ}
    (h : ∀ r, p (f r) = p r) : (t.update id f).select p = updateRows (t.select p) id f := by
  unfold select update
  simp only
  generalize t.rows = rows
  induction rows with
  | nil => rfl
  | cons q rows ih =>
    rw [updateRows_cons]
    by_cases hq : q.1 = id <;> cases hp : p q.2 <;> simp [hq, hp, h, ih]

/-- The selection of several new rows, after that of the rows there. -/
theorem select_foldl_insert (p : ρ → Bool) : ∀ (rs : List ρ) (t : Table ρ),
    ((rs.foldl insert t).select p).map Prod.snd = (t.select p).map Prod.snd ++ rs.filter p := by
  intro rs
  induction rs with
  | nil => intro t; simp
  | cons r rs ih =>
    intro t
    rw [List.foldl_cons, ih, select_insert]
    cases h : p r <;> simp [h]

/-! ### The keys of a selection -/

/-- The keys of the rows satisfying `p`, in insertion order. -/
def keysWhere (t : Table ρ) (p : ρ → Bool) : List ℕ := (t.select p).map Prod.fst

theorem mem_keysWhere {t : Table ρ} {p : ρ → Bool} {id : ℕ} :
    id ∈ t.keysWhere p ↔ ∃ r, t.get id = some r ∧ p r = true := by
  unfold keysWhere
  constructor
  · intro h
    obtain ⟨⟨k, r⟩, hmem, rfl⟩ := List.mem_map.mp h
    obtain ⟨hrow, hp⟩ := mem_select.mp hmem
    exact ⟨r, get_of_mem hrow, hp⟩
  · rintro ⟨r, hr, hp⟩
    exact List.mem_map.mpr ⟨(id, r), mem_select.mpr ⟨mem_of_get hr, hp⟩, rfl⟩

/-- A selection names no key twice, so what it names is what counts it. -/
theorem nodup_keysWhere (t : Table ρ) (p : ρ → Bool) : (t.keysWhere p).Nodup :=
  t.nodup.sublist (List.filter_sublist.map Prod.fst)

end Table
