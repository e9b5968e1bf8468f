import ExtractFlow.Lib.Failing
import ExtractFlow.StructuredEditor

/-!
# The editor of tables

`TableReviewEditor` (`frontend/src/components/review`) reads the draft of a table as rows of
texts, and every edit writes all rows again.  So an edit leaves alone the cells that are
texts, and no others; and a new column takes the place of one that has its name.

## Main definitions

* `parseTableDraft`, `columns` — what the editor reads.
* `updateCell`, `addRow`, `addColumn` — its edits of the rows.
* `TableEdit.emit` — the draft an edit emits.
* `Textual` — the tables whose cells are texts.

## Main results

* `parse_emit` — the draft an edit emits.
* `run_textual` — after an edit, all cells are texts.
* `table_edits_iff` — when each edit is local.
-/

namespace ExtractFlow

open JsonText JsObject Js

variable {ν : Type}

/-! ### Rows -/

section Rows

variable {α β : Type}

/-- The cell of a row under a column. -/
def cell (rows : List (List (String × α))) (rowIndex : ℕ) (column : String) : Option α :=
  rows[rowIndex]?.bind fun row => get row column

/-- The columns of the table, each once, in the order in which the rows bring them up. -/
def columns (rows : List (List (String × α))) : List String :=
  (rows.flatMap fun row => row.map Prod.fst).eraseDups

/-- The name of the column that `addColumn` adds. -/
def newColumn (rows : List (List (String × α))) : String :=
  "column_" ++ toString ((columns rows).length + 1)

/-- A cell is there under a column. -/
theorem mem_columns_iff {rows : List (List (String × α))} {column : String} :
    column ∈ columns rows ↔ ∃ rowIndex v, cell rows rowIndex column = some v := by
  unfold columns
  rw [List.mem_eraseDups, List.mem_flatMap]
  constructor
  · rintro ⟨row, hrow, hcolumn⟩
    obtain ⟨j, hj⟩ := List.mem_iff_getElem?.mp hrow
    cases hget : get row column with
    | none => exact absurd hcolumn (get_eq_none_iff.mp hget)
    | some v =>
      refine ⟨j, v, ?_⟩
      unfold cell
      rw [hj]
      exact hget
  · rintro ⟨j, v, hcell⟩
    obtain ⟨row, hrow, hget⟩ := Option.bind_eq_some_iff.mp hcell
    exact ⟨row, List.mem_of_getElem? hrow, List.mem_map_of_mem (mem_of_get hget)⟩

theorem cell_of_length_le {rows : List (List (String × α))} {rowIndex : ℕ}
    (h : rows.length ≤ rowIndex) (column : String) : cell rows rowIndex column = none := by
  unfold cell
  rw [List.getElem?_eq_none h]
  rfl

/-- The cells of rows whose values were changed. -/
theorem cell_map (f : α → β) (rows : List (List (String × α))) (rowIndex : ℕ) (column : String) :
    cell (rows.map fun row => row.map fun kv => (kv.1, f kv.2)) rowIndex column =
      (cell rows rowIndex column).map f := by
  unfold cell
  rw [List.getElem?_map]
  cases rows[rowIndex]? with
  | none => rfl
  | some row => exact get_map (fun _ => f) row column

end Rows

/-! ### The editor -/

abbrev TableRow := List (String × String)

/-- Why a draft is no table: the messages that the editor shows in its place. -/
inductive TableError where
  /-- `Table value must be a JSON array of row objects.` -/
  | notArray
  /-- `Row ${index + 1} must be an object.` -/
  | row (number : ℕ)
  /-- What `JSON.parse` or `String` throws. -/
  | thrown

/-- What the editor makes of a draft: the rows it shows, and none when there is an error. -/
structure TableDraft where
  rows : List TableRow
  error : Option TableError

section Editor

variable (num : JsNumbers ν)

/-- One entry of the array. -/
def tableRow (index : ℕ) : Json ν → Except TableError TableRow
  | .obj record =>
      match textEntries num record with
      | some texts => .ok (ofEntries texts)
      | none => .error .thrown
  | _ => .error (.row (index + 1))

/-- The entries of the array, from an index on. -/
def tableRows : ℕ → List (Json ν) → Except TableError (List TableRow)
  | _, [] => .ok []
  | index, entry :: entries => do
      let row ← tableRow num index entry
      let rows ← tableRows (index + 1) entries
      return row :: rows

/-- `parseTableDraft`: the rows of a draft as texts. A blank draft has none, and a draft that is no
array of objects is an error. -/
def parseTableDraft (raw : String) : TableDraft :=
  if trim raw = "" then { rows := [], error := none }
  else
    match num.parse (trim raw) with
    | some (.arr entries) =>
        match tableRows num 0 entries with
        | .ok rows => { rows := rows, error := none }
        | .error e => { rows := [], error := some e }
    | some _ => { rows := [], error := some .notArray }
    | none => { rows := [], error := some .thrown }

/-- The JSON of rows. -/
def rowsJson (rows : List TableRow) : Json ν :=
  .arr (rows.map fun row => .obj (row.map fun kv => (kv.1, .str kv.2)))

/-- `serializeTableRows`. -/
def serializeTableRows (rows : List TableRow) : String := num.pretty (rowsJson rows)

end Editor

/-- `nextRows` of `updateCell`: the row at the index gets the value in that column, also when it had
none there. -/
def updateCell (rows : List TableRow) (rowIndex : ℕ) (column value : String) : List TableRow :=
  rows.mapIdx fun index row => if index = rowIndex then put column value row else row

/-- The rows of `addRow`: a row of empty texts is appended, with all the columns that the others
have. -/
def addRow (rows : List TableRow) : List TableRow :=
  rows ++ [ofEntries ((columns rows).map fun column => (column, ""))]

/-- The rows of `addColumn`: every row gets an empty text in the new column, and an empty table gets
a row for it. -/
def addColumn (rows : List TableRow) : List TableRow :=
  if rows.isEmpty then [[(newColumn rows, "")]] else rows.map (put (newColumn rows) "")

/-- An edit: the three things that the editor’s buttons and cells can do. -/
inductive TableEdit where
  | cellEdited (rowIndex : ℕ) (column value : String)
  | rowAdded
  | columnAdded

/-- What an edit makes of the rows. -/
def TableEdit.apply (rows : List TableRow) : TableEdit → List TableRow
  | .cellEdited rowIndex column value => updateCell rows rowIndex column value
  | .rowAdded => addRow rows
  | .columnAdded => addColumn rows

/-- The draft that an edit emits: the rows of the old one, as texts, with the edit made. -/
def TableEdit.emit (num : JsNumbers ν) (draftValue : String) (edit : TableEdit) : String :=
  serializeTableRows num (edit.apply (parseTableDraft num draftValue).rows)

/-! ### Rows in order -/

/-- The cells of each row are in the order of an object's properties. -/
def RowsInOrder (rows : List TableRow) : Prop := ∀ row ∈ rows, InOrder row

theorem rowsInOrder_apply {rows : List TableRow} (h : RowsInOrder rows) (edit : TableEdit) :
    RowsInOrder (edit.apply rows) := by
  cases edit with
  | cellEdited rowIndex column value =>
    intro row hrow
    obtain ⟨index, hindex, rfl⟩ := List.mem_mapIdx.mp hrow
    split
    · exact inOrder_put (h _ (List.getElem_mem _))
    · exact h _ (List.getElem_mem _)
  | rowAdded =>
    intro row hrow
    rcases List.mem_append.mp hrow with hrow | hrow
    · exact h row hrow
    · rw [List.mem_singleton.mp hrow]
      exact inOrder_ofEntries _
  | columnAdded =>
    intro row hrow
    have hrow' : row ∈ addColumn rows := hrow
    unfold addColumn at hrow'
    split at hrow'
    · rw [List.mem_singleton.mp hrow']
      exact List.pairwise_singleton ..
    · obtain ⟨row', hmem, rfl⟩ := List.mem_map.mp hrow'
      exact inOrder_put (h row' hmem)

/-- Rows in order are written and read. -/
theorem parse_serializeTableRows (num : JsNumbers ν) {rows : List TableRow}
    (h : RowsInOrder rows) :
    num.parse (serializeTableRows num rows) = some (rowsJson rows) := by
  have hcanon : canon (rowsJson (ν := ν) rows) = rowsJson rows := by
    refine canon_arr_iff.mpr fun v hv => ?_
    obtain ⟨row, hrow, rfl⟩ := List.mem_map.mp hv
    refine canon_obj_iff.mpr ⟨(h row hrow).sublist ?_, fun kv hkv => ?_⟩
    · rw [List.map_map]
      exact List.Sublist.refl _
    · obtain ⟨kv', -, rfl⟩ := List.mem_map.mp hkv
      rfl
  have hwritten : Json.written num.format (rowsJson rows) = rowsJson rows := by
    unfold rowsJson
    rw [Json.written, Json.writtenItems_eq, List.map_map]
    congr 1
    refine List.map_congr_left fun row _ => ?_
    rw [Function.comp_apply, Json.written, Json.writtenEntries_eq, List.map_map]
    rfl
  unfold serializeTableRows
  rw [JsNumbers.parse_pretty hcanon, hwritten]

/-! ### What the edits do to the cells -/

theorem length_updateCell (rows : List TableRow) (rowIndex : ℕ) (column value : String) :
    (updateCell rows rowIndex column value).length = rows.length := List.length_mapIdx

/-- The cell that was edited. -/
theorem cell_updateCell_self {rows : List TableRow} {rowIndex : ℕ} (h : rowIndex < rows.length)
    (column value : String) :
    cell (updateCell rows rowIndex column value) rowIndex column = some value := by
  unfold cell updateCell
  rw [List.getElem?_mapIdx, List.getElem?_eq_getElem h]
  simp [get_put_self]

/-- The other cells. -/
theorem cell_updateCell_of_ne (rows : List TableRow) {rowIndex j : ℕ} {column k : String}
    (value : String) (h : (j, k) ≠ (rowIndex, column)) :
    cell (updateCell rows rowIndex column value) j k = cell rows j k := by
  unfold cell updateCell
  rw [List.getElem?_mapIdx]
  cases hrow : rows[j]? with
  | none => rfl
  | some row =>
    rw [Option.map_some, Option.bind_some, Option.bind_some]
    split
    · next hj =>
      refine get_put_of_ne _ _ fun hk => h ?_
      rw [hj, hk]
    · rfl

/-- The cells of the rows before the one that was added. -/
theorem cell_addRow {rows : List TableRow} {j : ℕ} (h : j < rows.length) (k : String) :
    cell (addRow rows) j k = cell rows j k := by
  unfold cell addRow
  rw [List.getElem?_append_left h]

/-- The cells under the column that was added. -/
theorem cell_addColumn_self {rows : List TableRow} {j : ℕ} (h : j < (addColumn rows).length) :
    cell (addColumn rows) j (newColumn rows) = some "" := by
  unfold cell addColumn at *
  split at h
  · next hnil =>
    obtain rfl : j = 0 := by simpa using h
    rw [if_pos hnil]
    exact get_cons .. |>.trans (if_pos rfl)
  · next hsome =>
    rw [List.length_map] at h
    rw [if_neg hsome, List.getElem?_map, List.getElem?_eq_getElem h]
    exact get_put_self ..

/-- The cells under the other columns. -/
theorem cell_addColumn_of_ne (rows : List TableRow) (j : ℕ) {k : String} (h : k ≠ newColumn rows) :
    cell (addColumn rows) j k = cell rows j k := by
  unfold cell addColumn
  split
  · next hnil =>
    rw [List.isEmpty_iff.mp hnil] at h ⊢
    cases j with
    | zero => exact get_cons .. |>.trans (if_neg h.symm)
    | succ j => rfl
  · rw [List.getElem?_map]
    cases rows[j]? with
    | none => rfl
    | some row => exact get_put_of_ne _ _ h

theorem addColumn_ne_nil (rows : List TableRow) : addColumn rows ≠ [] := by
  unfold addColumn
  split
  · exact List.cons_ne_nil _ _
  · next hsome =>
    intro hnil
    exact hsome (List.isEmpty_iff.mpr (List.map_eq_nil_iff.mp hnil))

theorem length_addColumn (rows : List TableRow) :
    (addColumn rows).length = max 1 rows.length := by
  unfold addColumn
  split
  · next hnil => rw [List.isEmpty_iff.mp hnil]; rfl
  · next hsome =>
    have hpos : 0 < rows.length :=
      List.length_pos_iff.mpr fun hnil => hsome (List.isEmpty_iff.mpr hnil)
    rw [List.length_map]
    omega

/-! ### What the editor reads -/

section Reading

variable (num : JsNumbers ν)

/-- `texts` are the texts of a row: the same columns in order, each with the text of its cell. -/
structure Reads (row : List (String × Json ν)) (texts : TableRow) : Prop where
  order : InOrder texts
  keys : texts.map Prod.fst = row.map Prod.fst
  values : ∀ k, get texts k = (get row k).bind num.cellText

variable {num}

theorem tableRow_of_readable {row : List (String × Json ν)} (horder : InOrder row)
    (hreadable : Readable num row) (index : ℕ) :
    ∃ texts, tableRow num index (.obj row) = .ok texts ∧ Reads num row texts := by
  obtain ⟨texts, htexts⟩ := Option.isSome_iff_exists.mp (textEntries_isSome_iff.mpr hreadable)
  have hkeys := textEntries_keys htexts
  have horder' : InOrder texts := by
    unfold InOrder
    rwa [hkeys]
  refine ⟨texts, ?_, horder', hkeys, get_textEntries htexts⟩
  unfold tableRow
  dsimp only
  rw [htexts]
  exact congrArg Except.ok (ofEntries_of_inOrder horder')

/-- Rows that can be read. -/
theorem tableRows_of_readable : ∀ {table : List (List (String × Json ν))} (index : ℕ),
    (∀ row ∈ table, InOrder row) → (∀ row ∈ table, Readable num row) →
    ∃ rows, tableRows num index (table.map .obj) = .ok rows ∧
      List.Forall₂ (Reads num) table rows := by
  intro table
  induction table with
  | nil => exact fun _ _ _ => ⟨[], rfl, .nil⟩
  | cons row table ih =>
    intro index horder hreadable
    obtain ⟨horder₀, horder⟩ := List.forall_mem_cons.mp horder
    obtain ⟨hreadable₀, hreadable⟩ := List.forall_mem_cons.mp hreadable
    obtain ⟨texts, htexts, hreads⟩ := tableRow_of_readable horder₀ hreadable₀ index
    obtain ⟨rows, hrows, hall⟩ := ih (index + 1) horder hreadable
    refine ⟨texts :: rows, ?_, .cons hreads hall⟩
    rw [List.map_cons, tableRows, Failing.bind_of_ok htexts, Failing.bind_of_ok hrows]
    rfl

/-- A row that cannot be read makes the draft unreadable. -/
theorem readable_of_tableRows : ∀ {table : List (List (String × Json ν))} {index : ℕ}
    {rows : List TableRow}, tableRows num index (table.map .obj) = .ok rows →
    ∀ row ∈ table, Readable num row := by
  intro table
  induction table with
  | nil => exact fun _ => List.forall_mem_nil _
  | cons row table ih =>
    intro index rows h
    obtain ⟨texts, htexts, h⟩ := Failing.bind_ok.mp h
    obtain ⟨rest, hrest, -⟩ := Failing.bind_ok.mp h
    refine List.forall_mem_cons.mpr ⟨?_, ih hrest⟩
    unfold tableRow at htexts
    dsimp only at htexts
    split at htexts
    · next hsome =>
      exact textEntries_isSome_iff.mp (Option.isSome_iff_exists.mpr ⟨_, hsome⟩)
    · cases htexts

/-- The rows of a table that was read are in order. -/
theorem inOrder_of_parse {raw : String} {table : List (List (String × Json ν))}
    (h : num.parse raw = some (.arr (table.map .obj))) : ∀ row ∈ table, InOrder row :=
  fun _ hrow => (canon_obj_iff.mp (canon_arr_iff.mp (JsNumbers.canon_of_parse h) _
    (List.mem_map_of_mem hrow))).1

/-- **What the editor reads of a table**: the texts of its cells, if all have one, else no
rows. -/
theorem parseTableDraft_spec {raw : String} {table : List (List (String × Json ν))}
    (h : num.parse (trim raw) = some (.arr (table.map .obj))) :
    ((∀ row ∈ table, Readable num row) →
      List.Forall₂ (Reads num) table (parseTableDraft num raw).rows) ∧
    (¬ (∀ row ∈ table, Readable num row) → (parseTableDraft num raw).rows = []) := by
  have hne : trim raw ≠ "" := by
    intro hempty
    rw [hempty] at h
    cases h
  have horder := inOrder_of_parse h
  unfold parseTableDraft
  rw [if_neg hne, h]
  dsimp only
  constructor
  · intro hreadable
    obtain ⟨rows, hrows, hall⟩ := tableRows_of_readable 0 horder hreadable
    rw [hrows]
    exact hall
  · intro hunreadable
    cases hrows : tableRows num 0 (table.map .obj) with
    | ok rows => exact absurd (readable_of_tableRows hrows) hunreadable
    | error e => rfl

/-- The rows of the editor are in order. -/
theorem rowsInOrder_tableRows : ∀ {entries : List (Json ν)} {index : ℕ} {rows : List TableRow},
    tableRows num index entries = .ok rows → RowsInOrder rows := by
  intro entries
  induction entries with
  | nil =>
    intro index rows h
    obtain rfl := Except.ok.inj h
    exact List.forall_mem_nil _
  | cons entry entries ih =>
    intro index rows h
    obtain ⟨row, hrow, h⟩ := Failing.bind_ok.mp h
    obtain ⟨rest, hrest, h⟩ := Failing.bind_ok.mp h
    obtain rfl := Except.ok.inj h
    refine List.forall_mem_cons.mpr ⟨?_, ih hrest⟩
    unfold tableRow at hrow
    split at hrow
    · split at hrow
      · exact Except.ok.inj hrow ▸ inOrder_ofEntries _
      · cases hrow
    · cases hrow

theorem rowsInOrder_parseTableDraft (raw : String) :
    RowsInOrder (parseTableDraft num raw).rows := by
  unfold parseTableDraft
  split
  · exact List.forall_mem_nil _
  · split
    · split
      · next hrows => exact rowsInOrder_tableRows hrows
      · exact List.forall_mem_nil _
    · exact List.forall_mem_nil _
    · exact List.forall_mem_nil _

/-- **The draft an edit emits** is an array of objects of texts. -/
theorem parse_emit (draftValue : String) (edit : TableEdit) :
    num.parse (edit.emit num draftValue) =
      some (rowsJson (edit.apply (parseTableDraft num draftValue).rows)) :=
  parse_serializeTableRows num (rowsInOrder_apply (rowsInOrder_parseTableDraft draftValue) edit)

/-- The cells the editor reads are the texts of the table's. -/
theorem cell_of_reads {table : List (List (String × Json ν))} {rows : List TableRow}
    (h : List.Forall₂ (Reads num) table rows) (j : ℕ) (k : String) :
    cell rows j k = (cell table j k).bind num.cellText := by
  unfold cell
  induction h generalizing j with
  | nil => rfl
  | cons hrow _ ih =>
    cases j with
    | zero => exact hrow.values k
    | succ j => exact ih j

theorem columns_of_reads {table : List (List (String × Json ν))} {rows : List TableRow}
    (h : List.Forall₂ (Reads num) table rows) : columns rows = columns table := by
  unfold columns
  congr 1
  induction h with
  | nil => rfl
  | cons hrow _ ih => rw [List.flatMap_cons, List.flatMap_cons, hrow.keys, ih]

end Reading

/-! ### Tables of texts -/

section Tables

variable {num : JsNumbers ν}

/-- The JSON values of rows. -/
def jsonRows (rows : List TableRow) : List (List (String × Json ν)) :=
  rows.map fun row => row.map fun kv => (kv.1, .str kv.2)

theorem rowsJson_eq (rows : List TableRow) :
    rowsJson (ν := ν) rows = .arr ((jsonRows rows).map .obj) := by
  unfold rowsJson jsonRows
  rw [List.map_map]
  rfl

theorem cell_jsonRows (rows : List TableRow) (j : ℕ) (k : String) :
    cell (jsonRows (ν := ν) rows) j k = (cell rows j k).map .str := cell_map _ rows j k

theorem length_jsonRows (rows : List TableRow) : (jsonRows (ν := ν) rows).length = rows.length :=
  List.length_map ..

/-- The table whose draft an edit emits is one only. -/
theorem jsonRows_unique {draftValue : String} {edit : TableEdit}
    {after : List (List (String × Json ν))}
    (h : num.parse (edit.emit num draftValue) = some (.arr (after.map .obj))) :
    after = jsonRows (edit.apply (parseTableDraft num draftValue).rows) := by
  rw [parse_emit, rowsJson_eq] at h
  have hobjects := Json.arr.inj (Option.some.inj h)
  exact (List.map_injective_iff.mpr (fun _ _ => Json.obj.inj) hobjects).symm

/-- A text. -/
def IsText (v : Json ν) : Prop := ∃ s, v = .str s

/-- All cells are texts, so that none is changed by being read as one. -/
def Textual (table : List (List (String × Json ν))) : Prop :=
  ∀ j k v, cell table j k = some v → IsText v

theorem str_cellText_iff {v : Json ν} {text : String} (h : num.cellText v = some text) :
    Json.str text = v ↔ IsText v := by
  constructor
  · exact fun heq => ⟨text, heq.symm⟩
  · rintro ⟨s, rfl⟩
    rw [JsNumbers.cellText_str] at h
    rw [Option.some.inj h]

/-- A cell that is read and written: the same, if it was a text. -/
theorem cell_kept_iff {table : List (List (String × Json ν))} {rows : List TableRow}
    (hreadable : ∀ row ∈ table, Readable num row) (hreads : List.Forall₂ (Reads num) table rows)
    (j : ℕ) (k : String) :
    (cell rows j k).map .str = cell table j k ↔ ∀ v, cell table j k = some v → IsText v := by
  rw [cell_of_reads hreads]
  cases hcell : cell table j k with
  | none => simp
  | some v =>
    obtain ⟨row, hrow, hget⟩ := Option.bind_eq_some_iff.mp hcell
    obtain ⟨text, htext⟩ := Option.isSome_iff_exists.mp
      (hreadable row (List.mem_of_getElem? hrow) _ (mem_of_get hget))
    rw [Option.bind_some, htext, Option.map_some, Option.some.injEq, str_cellText_iff htext]
    simp

/-- Every text can be read. -/
theorem readable_of_cells {table : List (List (String × Json ν))}
    (horder : ∀ row ∈ table, InOrder row)
    (h : ∀ j k v, cell table j k = some v → (num.cellText v).isSome = true) :
    ∀ row ∈ table, Readable num row := by
  intro row hrow kv hkv
  obtain ⟨j, hj⟩ := List.mem_iff_getElem?.mp hrow
  refine h j kv.1 kv.2 ?_
  unfold cell
  rw [hj]
  exact (horder row hrow).get_of_mem hkv

theorem IsText.cellText {v : Json ν} (h : IsText v) : (num.cellText v).isSome = true := by
  obtain ⟨s, rfl⟩ := h
  rw [JsNumbers.cellText_str]
  rfl

/-! ### Local edits -/

/-- One cell differs: as many rows as before, the new text where it was entered, and every other
cell as it was. -/
structure EditsCell (table after : List (List (String × Json ν))) (rowIndex : ℕ)
    (column value : String) : Prop where
  length : after.length = table.length
  edited : rowIndex < table.length → cell after rowIndex column = some (.str value)
  others : ∀ j k, (j, k) ≠ (rowIndex, column) → cell after j k = cell table j k

/-- There is one row more, at the end, and all cells of the others are as they were. -/
structure AddsRow (table after : List (List (String × Json ν))) : Prop where
  length : after.length = table.length + 1
  others : ∀ j k, j < table.length → cell after j k = cell table j k

/-- Every row has a cell under a name that none had.  A table without rows gets one. -/
structure AddsColumn (table after : List (List (String × Json ν))) (name : String) : Prop where
  length : after.length = max 1 table.length
  fresh : ∀ j, cell table j name = none
  added : ∀ j, j < after.length → (cell after j name).isSome = true
  others : ∀ j k, k ≠ name → cell after j k = cell table j k

/-! ### When the edits are local -/

section Edits

variable {draftValue : String} {table : List (List (String × Json ν))}

theorem parse_emit_jsonRows (draftValue : String) (edit : TableEdit) :
    num.parse (edit.emit num draftValue) =
      some (.arr ((jsonRows (edit.apply (parseTableDraft num draftValue).rows)).map .obj)) := by
  rw [parse_emit, rowsJson_eq]

/-- **When the edit of a cell is local**: all other cells are texts already, and the one that is
edited can at least be shown as one. -/
theorem editsCell_iff (h : num.parse (trim draftValue) = some (.arr (table.map .obj)))
    (rowIndex : ℕ) (column value : String) :
    (∃ after, num.parse ((TableEdit.cellEdited rowIndex column value).emit num draftValue) =
        some (.arr (after.map .obj)) ∧ EditsCell table after rowIndex column value) ↔
      (∀ j k v, (j, k) ≠ (rowIndex, column) → cell table j k = some v → IsText v) ∧
        ∀ v, cell table rowIndex column = some v → (num.cellText v).isSome = true := by
  obtain ⟨hread, hunread⟩ := parseTableDraft_spec h
  constructor
  · rintro ⟨after, hafter, hedit⟩
    obtain rfl := jsonRows_unique hafter
    -- a draft that cannot be read is emptied by the edit, which shows in the number of rows
    have hreadable : ∀ row ∈ table, Readable num row := by
      by_contra hunreadable
      have hlength := hedit.length
      rw [hunread hunreadable] at hlength
      exact hunreadable (List.eq_nil_of_length_eq_zero hlength.symm ▸ List.forall_mem_nil _)
    refine ⟨fun j k v hne => ?_, fun v hv => ?_⟩
    · have hother := hedit.others j k hne
      rw [cell_jsonRows, TableEdit.apply, cell_updateCell_of_ne _ _ hne] at hother
      exact (cell_kept_iff hreadable (hread hreadable) j k).mp hother v
    · obtain ⟨row, hrow, hget⟩ := Option.bind_eq_some_iff.mp hv
      exact hreadable row (List.mem_of_getElem? hrow) _ (mem_of_get hget)
  · rintro ⟨htexts, hcell⟩
    have hreadable : ∀ row ∈ table, Readable num row := by
      refine readable_of_cells (inOrder_of_parse h) fun j k v hv => ?_
      by_cases heq : (j, k) = (rowIndex, column)
      · obtain ⟨rfl, rfl⟩ := Prod.mk.inj heq
        exact hcell v hv
      · exact (htexts j k v heq hv).cellText
    have hreads := hread hreadable
    refine ⟨_, parse_emit_jsonRows .., ?_, ?_, ?_⟩
    · rw [length_jsonRows, TableEdit.apply, length_updateCell, hreads.length_eq]
    · intro hlt
      rw [cell_jsonRows, TableEdit.apply, cell_updateCell_self (hreads.length_eq ▸ hlt)]
      rfl
    · intro j k hne
      rw [cell_jsonRows, TableEdit.apply, cell_updateCell_of_ne _ _ hne]
      exact (cell_kept_iff hreadable hreads j k).mpr fun v => htexts j k v hne

theorem Textual.readable (horder : ∀ row ∈ table, InOrder row) (h : Textual table) :
    ∀ row ∈ table, Readable num row :=
  readable_of_cells horder fun j k v hv => (h j k v hv).cellText

/-- **When a new row leaves the others**: all cells of the table are texts. -/
theorem addsRow_iff (h : num.parse (trim draftValue) = some (.arr (table.map .obj))) :
    (∃ after, num.parse (TableEdit.rowAdded.emit num draftValue) =
        some (.arr (after.map .obj)) ∧ AddsRow table after) ↔ Textual table := by
  obtain ⟨hread, hunread⟩ := parseTableDraft_spec h
  have hlength : ∀ rows : List TableRow, (addRow rows).length = rows.length + 1 :=
    fun rows => by rw [addRow, List.length_append]; rfl
  constructor
  · rintro ⟨after, hafter, hadds⟩
    obtain rfl := jsonRows_unique hafter
    -- otherwise the new row would be the only one
    have hreadable : ∀ row ∈ table, Readable num row := by
      by_contra hunreadable
      have hlen := hadds.length
      rw [hunread hunreadable, length_jsonRows, TableEdit.apply, hlength] at hlen
      have hnil : table = [] := List.eq_nil_of_length_eq_zero (by simpa using hlen.symm)
      exact hunreadable (hnil ▸ List.forall_mem_nil _)
    have hreads := hread hreadable
    intro j k v hv
    have hlt : j < table.length := by
      by_contra hge
      rw [cell_of_length_le (by omega)] at hv
      cases hv
    have hother := hadds.others j k hlt
    rw [cell_jsonRows, TableEdit.apply, cell_addRow (hreads.length_eq ▸ hlt)] at hother
    exact (cell_kept_iff hreadable hreads j k).mp hother v hv
  · intro htexts
    have hreadable : ∀ row ∈ table, Readable num row := htexts.readable (inOrder_of_parse h)
    have hreads := hread hreadable
    refine ⟨_, parse_emit_jsonRows .., ?_, fun j k hlt => ?_⟩
    · rw [length_jsonRows, TableEdit.apply, hlength, hreads.length_eq]
    · rw [cell_jsonRows, TableEdit.apply, cell_addRow (hreads.length_eq ▸ hlt)]
      exact (cell_kept_iff hreadable hreads j k).mpr (htexts j k)

/-- **When the new column leaves the others.** -/
theorem addsColumn_iff (h : num.parse (trim draftValue) = some (.arr (table.map .obj))) :
    (∃ after name, num.parse (TableEdit.columnAdded.emit num draftValue) =
        some (.arr (after.map .obj)) ∧ AddsColumn table after name) ↔
      Textual table ∧ newColumn table ∉ columns table := by
  obtain ⟨hread, hunread⟩ := parseTableDraft_spec h
  constructor
  · rintro ⟨after, name, hafter, hadds⟩
    obtain rfl := jsonRows_unique hafter
    -- the name is that of the editor: no other cell of the first row is new
    have hname : name = newColumn (parseTableDraft num draftValue).rows := by
      by_contra hne
      have hadded := hadds.added 0
        (by rw [length_jsonRows]; exact List.length_pos_iff.mpr (addColumn_ne_nil _))
      rw [cell_jsonRows, TableEdit.apply, cell_addColumn_of_ne _ _ hne, Option.isSome_map] at hadded
      by_cases hreadable : ∀ row ∈ table, Readable num row
      · rw [cell_of_reads (hread hreadable), hadds.fresh] at hadded
        cases hadded
      · rw [hunread hreadable] at hadded
        cases hadded
    have hkept : ∀ j k v, cell table j k = some v →
        (cell (parseTableDraft num draftValue).rows j k).map .str = cell table j k := by
      intro j k v hv
      have hne : k ≠ name := by
        rintro rfl
        rw [hadds.fresh] at hv
        cases hv
      rw [← hadds.others j k hne, cell_jsonRows, TableEdit.apply,
        cell_addColumn_of_ne _ _ (hname ▸ hne)]
    have hreadable : ∀ row ∈ table, Readable num row := by
      by_contra hunreadable
      refine hunreadable (readable_of_cells (inOrder_of_parse h) fun j k v hv => ?_)
      have hnone := hkept j k v hv
      rw [hunread hunreadable, hv] at hnone
      cases hnone
    have hreads := hread hreadable
    refine ⟨fun j k v hv => (cell_kept_iff hreadable hreads j k).mp (hkept j k v hv) v hv, ?_⟩
    intro hmem
    obtain ⟨j, v, hv⟩ := mem_columns_iff.mp hmem
    have hcolumn : name = newColumn table := by
      rw [hname]
      unfold newColumn
      rw [columns_of_reads hreads]
    rw [← hcolumn, hadds.fresh] at hv
    cases hv
  · rintro ⟨htexts, hfresh⟩
    have hreadable : ∀ row ∈ table, Readable num row := htexts.readable (inOrder_of_parse h)
    have hreads := hread hreadable
    have hcolumn : newColumn (parseTableDraft num draftValue).rows = newColumn table := by
      unfold newColumn
      rw [columns_of_reads hreads]
    refine ⟨_, newColumn table, parse_emit_jsonRows .., ?_, ?_, ?_, ?_⟩
    · rw [length_jsonRows, TableEdit.apply, length_addColumn, hreads.length_eq]
    · intro j
      cases hcell : cell table j (newColumn table) with
      | none => rfl
      | some v => exact absurd (mem_columns_iff.mpr ⟨j, v, hcell⟩) hfresh
    · intro j hj
      rw [length_jsonRows] at hj
      rw [cell_jsonRows, ← hcolumn, TableEdit.apply, cell_addColumn_self hj]
      rfl
    · intro j k hk
      rw [← hcolumn] at hk
      rw [cell_jsonRows, TableEdit.apply, cell_addColumn_of_ne _ _ hk]
      exact (cell_kept_iff hreadable hreads j k).mpr (htexts j k)

/-- **When each edit is local**: all cells that it is not about are texts, and for a column, none
has the name that the new one gets. -/
theorem table_edits_iff (h : num.parse (trim draftValue) = some (.arr (table.map .obj))) :
    (∀ rowIndex column value,
      (∃ after, num.parse ((TableEdit.cellEdited rowIndex column value).emit num draftValue) =
          some (.arr (after.map .obj)) ∧ EditsCell table after rowIndex column value) ↔
        (∀ j k v, (j, k) ≠ (rowIndex, column) → cell table j k = some v → IsText v) ∧
          ∀ v, cell table rowIndex column = some v → (num.cellText v).isSome = true) ∧
    ((∃ after, num.parse (TableEdit.rowAdded.emit num draftValue) =
        some (.arr (after.map .obj)) ∧ AddsRow table after) ↔ Textual table) ∧
    ((∃ after name, num.parse (TableEdit.columnAdded.emit num draftValue) =
        some (.arr (after.map .obj)) ∧ AddsColumn table after name) ↔
      Textual table ∧ newColumn table ∉ columns table) :=
  ⟨editsCell_iff h, addsRow_iff h, addsColumn_iff h⟩

end Edits

/-! ### Runs -/

/-- The draft after some edits. -/
def run (num : JsNumbers ν) (draftValue : String) (edits : List TableEdit) : String :=
  edits.foldl (fun draft edit => edit.emit num draft) draftValue

/-- **After an edit, all cells are texts**, and stay texts. -/
theorem run_textual (num : JsNumbers ν) (draftValue : String) {edits : List TableEdit}
    (hne : edits ≠ []) :
    ∃ table, num.parse (trim (run num draftValue edits)) = some (.arr (table.map .obj)) ∧
      Textual table := by
  obtain ⟨init, edit, rfl⟩ : ∃ init edit, edits = init ++ [edit] :=
    ⟨_, _, (List.dropLast_append_getLast hne).symm⟩
  have hemitted :
      run num draftValue (init ++ [edit]) = edit.emit num (run num draftValue init) := by
    unfold run
    rw [List.foldl_concat]
  have htrim : trim (edit.emit num (run num draftValue init)) =
      edit.emit num (run num draftValue init) := JsNumbers.trim_pretty _
  rw [hemitted, htrim]
  refine ⟨_, parse_emit_jsonRows _ edit, fun j k v hv => ?_⟩
  rw [cell_jsonRows] at hv
  obtain ⟨text, -, rfl⟩ := Option.map_eq_some_iff.mp hv
  exact ⟨text, rfl⟩

end Tables

/-! ### A column of its own name -/

/-- A table of one cell. -/
def oneCell (column : String) (v : Json (Fin 10)) : List (List (String × Json (Fin 10))) :=
  [[(column, v)]]

theorem parse_oneCell (column : String) (text : String) :
    oneDigit.parse (trim (oneDigit.pretty (.arr ((oneCell column (.str text)).map .obj)))) =
      some (.arr ((oneCell column (.str text)).map .obj)) := by
  rw [JsNumbers.trim_pretty, JsNumbers.parse_pretty rfl]
  rfl

/-- A table of two rows and two columns. -/
def quantities : List (List (String × Json (Fin 10))) :=
  [[("qty", .str "2"), ("unit", .str "box")], [("qty", .str "1"), ("unit", .str "bag")]]

theorem quantities_textual : Textual quantities := by
  intro j k v hv
  obtain ⟨row, hrow, hget⟩ := Option.bind_eq_some_iff.mp hv
  have hrow : row ∈ quantities := List.mem_of_getElem? hrow
  have hcell : (k, v) ∈ row := mem_of_get hget
  simp only [quantities, List.mem_cons, List.not_mem_nil, or_false] at hrow
  rcases hrow with rfl | rfl
  · simp only [List.mem_cons, List.not_mem_nil, or_false, Prod.mk.injEq] at hcell
    rcases hcell with ⟨-, rfl⟩ | ⟨-, rfl⟩
    · exact ⟨"2", rfl⟩
    · exact ⟨"box", rfl⟩
  · simp only [List.mem_cons, List.not_mem_nil, or_false, Prod.mk.injEq] at hcell
    rcases hcell with ⟨-, rfl⟩ | ⟨-, rfl⟩
    · exact ⟨"1", rfl⟩
    · exact ⟨"bag", rfl⟩

/-- A cell of the table is edited and the other three are kept; a row and a column are added. -/
theorem table_edits_quantities :
    (∃ after, oneDigit.parse ((TableEdit.cellEdited 0 "qty" "3").emit oneDigit
        (oneDigit.pretty (.arr (quantities.map .obj)))) = some (.arr (after.map .obj)) ∧
      cell after 0 "qty" = some (.str "3") ∧ cell after 0 "unit" = some (.str "box") ∧
      cell after 1 "qty" = some (.str "1") ∧ cell after 1 "unit" = some (.str "bag")) ∧
    (∃ after, oneDigit.parse (TableEdit.rowAdded.emit oneDigit
        (oneDigit.pretty (.arr (quantities.map .obj)))) = some (.arr (after.map .obj)) ∧
      AddsRow quantities after) ∧
    ∃ after name, oneDigit.parse (TableEdit.columnAdded.emit oneDigit
        (oneDigit.pretty (.arr (quantities.map .obj)))) = some (.arr (after.map .obj)) ∧
      AddsColumn quantities after name := by
  have hparse : oneDigit.parse (trim (oneDigit.pretty (.arr (quantities.map .obj)))) =
      some (.arr (quantities.map .obj)) := by
    rw [JsNumbers.trim_pretty, JsNumbers.parse_pretty rfl]
    rfl
  obtain ⟨hcell, hrow, hcolumn⟩ := table_edits_iff hparse
  refine ⟨?_, hrow.mpr quantities_textual, hcolumn.mpr ⟨quantities_textual, by decide⟩⟩
  obtain ⟨after, hafter, hedits⟩ := (hcell 0 "qty" "3").mpr
    ⟨fun j k v _ hv => quantities_textual j k v hv,
      fun v hv => (quantities_textual 0 "qty" v hv).cellText⟩
  refine ⟨after, hafter, hedits.edited (by decide), ?_, ?_, ?_⟩
  · exact hedits.others 0 "unit" (by decide)
  · exact hedits.others 1 "qty" (by decide)
  · exact hedits.others 1 "unit" (by decide)

/-- **A new column takes the place of one with its name.** -/
theorem addColumn_collides :
    ¬ ∀ (ν : Type) (num : JsNumbers ν) (draftValue : String)
        (table : List (List (String × Json ν))),
      num.parse (trim draftValue) = some (.arr (table.map .obj)) →
      (∀ rowIndex column value,
        ∃ after, num.parse ((TableEdit.cellEdited rowIndex column value).emit num draftValue) =
          some (.arr (after.map .obj)) ∧ EditsCell table after rowIndex column value) ∧
      (∃ after, num.parse (TableEdit.rowAdded.emit num draftValue) =
        some (.arr (after.map .obj)) ∧ AddsRow table after) ∧
      ∃ after name, num.parse (TableEdit.columnAdded.emit num draftValue) =
        some (.arr (after.map .obj)) ∧ AddsColumn table after name := by
  intro hclaim
  have hcolumn := (hclaim (Fin 10) oneDigit _ _ (parse_oneCell "column_2" "x")).2.2
  obtain ⟨-, hfresh⟩ := (addsColumn_iff (parse_oneCell "column_2" "x")).mp hcolumn
  exact hfresh (by decide)

end ExtractFlow
