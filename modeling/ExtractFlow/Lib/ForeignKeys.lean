import ExtractFlow.Lib.Table

/-!
# Rows that refer to rows

A column of one table holds primary keys of another, and the two rows have a label
in common, an owner.  The link survives whatever keeps the labels of the rows
referred to, so the writes of a program are checked one table at a time.

## Main definitions

* `Table.Keeps f t t'` — every row of `t` is in `t'`, with the same `f`.
* `Table.Linked ref label label' t t'` — the rows refer to rows of the same label.
* `Table.ChangesOnly p t t'` — only rows with `p` are written.

## Main results

* `Table.Linked.target` — a link survives what keeps the labels.
* `Table.Linked.insert`, `Table.Linked.update` — the writes to the referring table.
* `Table.ChangesOnly.trans` — writes add up.
-/

namespace Table

variable {ρ ρ' κ : Type*}

/-! ### Rows that stay -/

/-- Every row of `t` is still in `t'` under its key, and `f` reads the same there: the table was
written to, but what `f` sees of a row did not change. -/
def Keeps (f : ρ → κ) (t t' : Table ρ) : Prop :=
  ∀ id r, t.get id = some r → ∃ r', t'.get id = some r' ∧ f r' = f r

variable {f : ρ → κ} {t t' t'' : Table ρ}

theorem Keeps.refl (f : ρ → κ) (t : Table ρ) : Keeps f t t := fun _ r h => ⟨r, h, rfl⟩

/-- What one write keeps and the next keeps is kept by both. -/
theorem Keeps.trans (h : Keeps f t t') (h' : Keeps f t' t'') : Keeps f t t'' := by
  intro id r hr
  obtain ⟨r', hr', heq⟩ := h id r hr
  obtain ⟨r'', hr'', heq'⟩ := h' id r' hr'
  exact ⟨r'', hr'', heq'.trans heq⟩

theorem keeps_insert (f : ρ → κ) (t : Table ρ) (r : ρ) : Keeps f t (t.insert r) :=
  fun _ r' h => ⟨r', get_insert_of_get r h, rfl⟩

theorem keeps_update {id : ℕ} {g : ρ → ρ} (h : ∀ r, t.get id = some r → f (g r) = f r) :
    Keeps f t (t.update id g) := by
  intro id' r hr
  by_cases hid : id' = id
  · subst hid
    refine ⟨g r, ?_, h r hr⟩
    rw [get_update_self, hr]
    rfl
  · refine ⟨r, ?_, rfl⟩
    rw [get_update_ne t g hid, hr]

/-! ### Links -/

/-- The rows of `t` refer by `ref` to rows of `t'` with their own label. -/
def Linked (ref : ρ → ℕ) (label : ρ → κ) (label' : ρ' → κ) (t : Table ρ) (t' : Table ρ') : Prop :=
  ∀ id r, t.get id = some r → ∃ r', t'.get (ref r) = some r' ∧ label' r' = label r

section Links

variable {ref : ρ → ℕ} {label : ρ → κ} {label' : ρ' → κ} {s s' : Table ρ'}

theorem linked_empty (ref : ρ → ℕ) (label : ρ → κ) (label' : ρ' → κ) (s : Table ρ') :
    Linked ref label label' empty s := fun _ _ h => nomatch h

/-- **A link survives whatever keeps the labels of the rows referred to.** -/
theorem Linked.target (h : Linked ref label label' t s) (hkeeps : Keeps label' s s') :
    Linked ref label label' t s' := by
  intro id r hr
  obtain ⟨r', hr', heq⟩ := h id r hr
  obtain ⟨r'', hr'', heq'⟩ := hkeeps _ r' hr'
  exact ⟨r'', hr'', heq'.trans heq⟩

/-- A new row has to refer to a row of its label. -/
theorem Linked.insert (h : Linked ref label label' t s) {r : ρ}
    (hr : ∃ r', s.get (ref r) = some r' ∧ label' r' = label r) :
    Linked ref label label' (t.insert r) s := by
  intro id r' hr'
  by_cases hid : id = t.nextId
  · subst hid
    rw [get_insert_self] at hr'
    rwa [← Option.some.inj hr']
  · rw [get_insert_ne t r hid] at hr'
    exact h id r' hr'

/-- So do several. -/
theorem Linked.insertAll {rs : List ρ} : ∀ {t : Table ρ}, Linked ref label label' t s →
    (∀ r ∈ rs, ∃ r', s.get (ref r) = some r' ∧ label' r' = label r) →
    Linked ref label label' (rs.foldl Table.insert t) s := by
  induction rs with
  | nil => exact fun h _ => h
  | cons r rs ih =>
    intro t h hrs
    refine ih (h.insert (hrs r (List.mem_cons_self ..))) ?_
    exact fun r' hr' => hrs r' (List.mem_cons_of_mem _ hr')

/-- A write to the table that holds the references keeps the link as long as the rewritten row keeps
its reference and its label. -/
theorem Linked.update (h : Linked ref label label' t s) {id : ℕ} {g : ρ → ρ}
    (hg : ∀ r, t.get id = some r → ref (g r) = ref r ∧ label (g r) = label r) :
    Linked ref label label' (t.update id g) s := by
  intro id' r hr
  by_cases hid : id' = id
  · subst hid
    rw [get_update_self] at hr
    obtain ⟨r₀, hr₀, rfl⟩ := Option.map_eq_some_iff.mp hr
    obtain ⟨href, hlabel⟩ := hg r₀ hr₀
    rw [href, hlabel]
    exact h _ r₀ hr₀
  · rw [get_update_ne t g hid] at hr
    exact h id' r hr

end Links

/-! ### Rows that are written -/

/-- All rows that a write touched satisfy `p`, before it and after it: under each key either the two
tables agree, or what they hold satisfies `p`. -/
def ChangesOnly (p : ρ → Prop) (t t' : Table ρ) : Prop :=
  ∀ id, t'.get id = t.get id ∨
    (∀ r, t.get id = some r → p r) ∧ ∀ r, t'.get id = some r → p r

variable {p : ρ → Prop}

theorem ChangesOnly.refl (p : ρ → Prop) (t : Table ρ) : ChangesOnly p t t := fun _ => Or.inl rfl

/-- Two writes that touch rows of the same kind touch, together, rows of that kind. -/
theorem ChangesOnly.trans (h : ChangesOnly p t t') (h' : ChangesOnly p t' t'') :
    ChangesOnly p t t'' := by
  intro id
  rcases h id with heq | ⟨hold, hnew⟩
  · rcases h' id with heq' | ⟨hold', hnew'⟩
    · exact Or.inl (heq'.trans heq)
    · exact Or.inr ⟨fun r hr => hold' r (heq.trans hr), hnew'⟩
  · rcases h' id with heq' | ⟨-, hnew'⟩
    · exact Or.inr ⟨hold, fun r hr => hnew r (heq'.symm.trans hr)⟩
    · exact Or.inr ⟨hold, hnew'⟩

theorem changesOnly_insert {r : ρ} (h : p r) : ChangesOnly p t (t.insert r) := by
  intro id
  by_cases hid : id = t.nextId
  · subst hid
    refine Or.inr ⟨fun r' hr' => ?_, fun r' hr' => ?_⟩
    · rw [get_nextId] at hr'
      cases hr'
    · rw [get_insert_self] at hr'
      rwa [← Option.some.inj hr']
  · exact Or.inl (get_insert_ne t r hid)

theorem changesOnly_insertAll {rs : List ρ} : ∀ {t : Table ρ}, (∀ r ∈ rs, p r) →
    ChangesOnly p t (rs.foldl Table.insert t) := by
  induction rs with
  | nil => exact fun _ => ChangesOnly.refl p _
  | cons r rs ih =>
    intro t h
    refine (changesOnly_insert (h r (List.mem_cons_self ..))).trans (ih ?_)
    exact fun r' hr' => h r' (List.mem_cons_of_mem _ hr')

theorem changesOnly_update {id : ℕ} {g : ρ → ρ} (h : ∀ r, t.get id = some r → p r ∧ p (g r)) :
    ChangesOnly p t (t.update id g) := by
  intro id'
  by_cases hid : id' = id
  · subst hid
    refine Or.inr ⟨fun r hr => (h r hr).1, fun r hr => ?_⟩
    rw [get_update_self] at hr
    obtain ⟨r₀, hr₀, rfl⟩ := Option.map_eq_some_iff.mp hr
    exact (h r₀ hr₀).2
  · exact Or.inl (get_update_ne t g hid)

end Table
