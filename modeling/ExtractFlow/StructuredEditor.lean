import ExtractFlow.Lib.JsValues

/-!
# The editor of structured fields

`StructuredObjectReviewEditor` (`frontend/src/components/review`) shows a field for every
property of a template's schema.  It turns every value of the draft into a text, and when
one of them is edited it makes the object again: of the schema's properties, each text
coerced to the type of its property.

So an edit damages what does not come back from its text, what the schema does not name,
and what was not there.

## Main definitions

* `schemaProperties`, `parseObjectDraft`, `coerceValue`, `updateValue` — the editor.
* `Fits` — the values that come back from their texts.
* `KeepsOthers` — when an edit leaves the other properties alone.

## Main results

* `parse_updateValue` — the draft an edit emits.
* `updateValue_iff` — when an edit is one of its property only.
-/

namespace ExtractFlow

open JsonText JsObject Js

/-! ### The schema -/

/-- A schema as the browser read it: since `JSON.parse` built it, its objects are in order. -/
structure SchemaObject (ν : Type) where
  entries : List (String × Json ν)
  canonical : canon (.obj entries) = .obj entries

/-- The two schemas of a `TemplateFieldDefinition`; the editor takes the first that is there. -/
structure TemplateFieldSchemas (ν : Type) where
  schema : Option (SchemaObject ν) := none
  fieldSchema : Option (SchemaObject ν) := none

variable {ν : Type}

/-- `Object.entries` of an array. -/
def indexedEntries {α : Type} (items : List α) : List (String × α) :=
  items.zipIdx.map fun item => (toString item.2, item.1)

/-- `schemaProperties`: the properties the editor shows, with the schema of each. An array has its
indices as property names, and a schema without properties shows none. -/
def schemaProperties (definition : Option (TemplateFieldSchemas ν)) : List (String × Json ν) :=
  match definition.bind fun d => d.schema.or d.fieldSchema with
  | none => []
  | some schema =>
      match get schema.entries "properties" with
      | some (.obj properties) => properties
      | some (.arr items) => indexedEntries items
      | _ => []

/-- The `type` of a property's schema, if it is a string: other types are compared with no
success. -/
def propertyType : Json ν → Option String
  | .obj entries =>
      match get entries "type" with
      | some (.str type) => some type
      | _ => none
  | _ => none

/-! ### The editor -/

section Editor

variable (num : JsNumbers ν)

/-- `Object.entries`; null has none. -/
def entriesOf : Json ν → Option (List (String × Json ν))
  | .null => none
  | .bool _ => some []
  | .num _ => some []
  | .str s => some (indexedEntries (s.toList.map fun c => .str (String.ofList [c])))
  | .arr items => some (indexedEntries items)
  | .obj entries => some entries

/-- The entries with the texts of their values, unless one throws. -/
def textEntries : List (String × Json ν) → Option (List (String × String))
  | [] => some []
  | (key, value) :: entries =>
      (num.cellText value).bind fun text =>
        (textEntries entries).map fun texts => (key, text) :: texts

/-- `parseObjectDraft`, unless it throws: the texts of the properties of the draft, and none for a
blank draft. -/
def parseObjectDraft (raw : String) : Option (List (String × String)) :=
  if trim raw = "" then some []
  else
    (num.parse (trim raw)).bind fun parsed =>
      (entriesOf parsed).bind fun entries => (textEntries num entries).map ofEntries

/-- What the editor finds under a name: a text, or what every object inherits. -/
inductive EditorValue where
  | text (s : String)
  | method
  | prototype

/-- `values[name] ?? ""`. -/
def editorValue (values : List (String × String)) (name : String) : EditorValue :=
  match get values name with
  | some text => .text text
  | none =>
      if name = "__proto__" then .prototype
      else if name ∈ inheritedMethods then .method
      else .text ""

/-- A property of numbers. -/
def IsNumeric (type : Option String) : Prop := type = some "number" ∨ type = some "integer"

instance (type : Option String) : Decidable (IsNumeric type) :=
  inferInstanceAs (Decidable (_ ∨ _))

/-- `coerceValue` of a text. -/
def coerceText (type : Option String) (text : String) : Json ν :=
  if type = some "boolean" then
    if text = "true" then .bool true
    else if text = "false" then .bool false
    else .str text
  else if IsNumeric type then
    match num.number text with
    | some n => .num n
    | none => .str text
  else .str text

/-- `coerceValue`.  A function has no JSON, and no number; the prototype has no properties
of its own that JSON shows. -/
def coerceValue (type : Option String) : EditorValue → Option (Json ν)
  | .text text => some (coerceText num type text)
  | .method => none
  | .prototype => some (.obj [])

/-- The properties of an object that JSON shows. -/
def shown (object : List (String × Option (Json ν))) : List (String × Json ν) :=
  object.filterMap fun kv => kv.2.map fun v => (kv.1, v)

/-- `nextEntries` of `updateValue`. -/
def nextEntries (properties : List (String × Json ν)) (values : List (String × String))
    (key nextValue : String) : List (String × Option (Json ν)) :=
  properties.map fun property =>
    (property.1, coerceValue num (propertyType property.2)
      (if property.1 = key then .text nextValue else editorValue values property.1))

/-- The values of the editor: none, if the draft cannot be read. -/
def editorValues (draftValue : String) : List (String × String) :=
  (parseObjectDraft num draftValue).getD []

/-- The draft that `updateValue` emits when the property `key` gets the text `nextValue`: the object
of the schema’s properties, each coerced from its text. -/
def updateValue (definition : Option (TemplateFieldSchemas ν)) (draftValue key nextValue : String) :
    String :=
  num.pretty (.obj (shown (ofEntries (nextEntries num (schemaProperties definition)
    (editorValues num draftValue) key nextValue))))

end Editor

/-! ### Objects of the editor -/

/-- The indices are distinct. -/
theorem nodup_indexedEntries {α : Type} (items : List α) :
    ((indexedEntries items).map Prod.fst).Nodup := by
  have hkeys : (indexedEntries items).map Prod.fst = (List.range' 0 items.length).map toString := by
    unfold indexedEntries
    rw [List.map_map, ← List.zipIdx_map_snd, List.map_map]
    rfl
  rw [hkeys]
  refine List.Nodup.map (fun m n h => ?_) List.nodup_range'
  -- the digits determine the number
  have hdigits := congrArg String.toList h
  rw [Nat.toString_eq_repr, Nat.toString_eq_repr, Nat.toList_repr, Nat.toList_repr] at hdigits
  rw [← Nat.ofDigitChars_toDigits (b := 10) (by decide) (by decide) (n := m), hdigits,
    Nat.ofDigitChars_toDigits (by decide) (by decide)]

/-- The properties of a schema have distinct names. -/
theorem nodup_schemaProperties (definition : Option (TemplateFieldSchemas ν)) :
    ((schemaProperties definition).map Prod.fst).Nodup := by
  unfold schemaProperties
  split
  · exact List.nodup_nil
  · next schema _ =>
    split
    · next properties hget =>
      have hinside := (canon_obj_iff.mp schema.canonical).2 _ (mem_of_get hget)
      exact (canon_obj_iff.mp hinside).1.nodup
    · exact nodup_indexedEntries _
    · exact List.nodup_nil

/-- What JSON shows of an object under a key. -/
theorem get_shown {object : List (String × Option (Json ν))}
    (hnodup : (object.map Prod.fst).Nodup) (key : String) :
    get (shown object) key = (get object key).bind id := by
  induction object with
  | nil => rfl
  | cons kv object ih =>
    obtain ⟨hnot, hrest⟩ := List.nodup_cons.mp hnodup
    obtain ⟨k, value⟩ := kv
    cases value with
    | none =>
      show get (shown object) key = _
      rw [ih hrest, get_cons]
      split_ifs with h
      · rw [get_eq_none_iff.mpr (h ▸ hnot)]
        rfl
      · rfl
    | some v =>
      show get ((k, v) :: shown object) key = _
      rw [get_cons, get_cons, ih hrest]
      split_ifs <;> rfl

theorem shown_keys (object : List (String × Option (Json ν))) :
    List.Sublist ((shown object).map Prod.fst) (object.map Prod.fst) := by
  induction object with
  | nil => exact List.Sublist.slnil
  | cons kv object ih =>
    obtain ⟨k, value⟩ := kv
    cases value with
    | none => exact ih.cons _
    | some v => exact ih.cons_cons _

section Results

variable {num : JsNumbers ν}

/-- Texts are coerced to strings, numbers and truth values. -/
theorem canon_coerceText (type : Option String) (text : String) :
    canon (coerceText num type text) = coerceText num type text := by
  unfold coerceText
  split_ifs
  · rfl
  · rfl
  · rfl
  · split <;> rfl
  · rfl

theorem canon_coerceValue {type : Option String} {value : EditorValue} {v : Json ν}
    (h : coerceValue num type value = some v) : canon v = v := by
  cases value with
  | text text => exact Option.some.inj h ▸ canon_coerceText type text
  | method => cases h
  | prototype => exact Option.some.inj h ▸ rfl

variable (num) in
theorem nextEntries_keys (properties : List (String × Json ν)) (values : List (String × String))
    (key nextValue : String) :
    (nextEntries num properties values key nextValue).map Prod.fst = properties.map Prod.fst := by
  unfold nextEntries
  rw [List.map_map]
  rfl

variable (num) in
/-- **The draft an edit emits** is an object with the properties of the schema, and each is what its
text is coerced to; a number that JSON cannot write is null. -/
theorem parse_updateValue (definition : Option (TemplateFieldSchemas ν))
    (draftValue key nextValue : String) :
    ∃ object, num.parse (updateValue num definition draftValue key nextValue) =
        some (.obj object) ∧
      ∀ k, get object k = ((get (schemaProperties definition) k).bind fun schema =>
        coerceValue num (propertyType schema)
          (if k = key then .text nextValue else editorValue (editorValues num draftValue) k)).map
            (Json.written num.format) := by
  have hkeys := nextEntries_keys num (schemaProperties definition)
    (editorValues num draftValue) key nextValue
  have hnodup : ((nextEntries num (schemaProperties definition) (editorValues num draftValue) key
      nextValue).map Prod.fst).Nodup := hkeys ▸ nodup_schemaProperties definition
  have horder := inOrder_ofEntries (nextEntries num (schemaProperties definition)
    (editorValues num draftValue) key nextValue)
  -- building the object of the entries loses none, as the schema names each once
  have hget : ∀ k, get (shown (ofEntries (nextEntries num (schemaProperties definition)
      (editorValues num draftValue) key nextValue))) k =
      (get (schemaProperties definition) k).bind fun schema =>
        coerceValue num (propertyType schema)
          (if k = key then .text nextValue else editorValue (editorValues num draftValue) k) := by
    intro k
    rw [get_shown horder.nodup, get_ofEntries hnodup]
    unfold nextEntries
    rw [get_map fun name schema => coerceValue num (propertyType schema)
      (if name = key then .text nextValue else editorValue (editorValues num draftValue) name)]
    cases get (schemaProperties definition) k <;> rfl
  have hshown := horder.sublist (shown_keys (ofEntries (nextEntries num
    (schemaProperties definition) (editorValues num draftValue) key nextValue)))
  refine ⟨_, JsNumbers.parse_pretty (canon_obj_iff.mpr ⟨hshown, fun kv hkv => ?_⟩), fun k => ?_⟩
  · have hvalue := hshown.get_of_mem hkv
    rw [hget] at hvalue
    obtain ⟨schema, -, hcoerced⟩ := Option.bind_eq_some_iff.mp hvalue
    exact canon_coerceValue hcoerced
  · rw [Json.writtenEntries_eq, get_map fun _ v => Json.written num.format v, hget]

/-! ### The values the editor reads -/

theorem textEntries_keys : ∀ {entries : List (String × Json ν)} {texts : List (String × String)},
    textEntries num entries = some texts → texts.map Prod.fst = entries.map Prod.fst := by
  intro entries
  induction entries with
  | nil =>
    intro texts h
    obtain rfl := Option.some.inj h
    rfl
  | cons kv entries ih =>
    intro texts h
    obtain ⟨text, -, h⟩ := Option.bind_eq_some_iff.mp h
    obtain ⟨rest, hrest, rfl⟩ := Option.map_eq_some_iff.mp h
    rw [List.map_cons, List.map_cons, ih hrest]

/-- The text of a property is that of its value. -/
theorem get_textEntries : ∀ {entries : List (String × Json ν)} {texts : List (String × String)},
    textEntries num entries = some texts → ∀ key,
      get texts key = (get entries key).bind num.cellText := by
  intro entries
  induction entries with
  | nil =>
    intro texts h key
    obtain rfl := Option.some.inj h
    rfl
  | cons kv entries ih =>
    intro texts h key
    obtain ⟨text, htext, h⟩ := Option.bind_eq_some_iff.mp h
    obtain ⟨rest, hrest, rfl⟩ := Option.map_eq_some_iff.mp h
    rw [get_cons, get_cons, ih hrest]
    split_ifs
    · exact htext.symm
    · rfl

/-- When the texts of all values can be had. -/
theorem textEntries_isSome_iff {entries : List (String × Json ν)} :
    (textEntries num entries).isSome = true ↔
      ∀ kv ∈ entries, (num.cellText kv.2).isSome = true := by
  induction entries with
  | nil => simp [textEntries]
  | cons kv entries ih =>
    rw [List.forall_mem_cons, ← ih]
    show ((num.cellText kv.2).bind _).isSome = true ↔ _
    cases num.cellText kv.2 with
    | none => simp
    | some text => simp

variable (num)

/-- Every value of a draft has a text. -/
def Readable (draft : List (String × Json ν)) : Prop :=
  ∀ kv ∈ draft, (num.cellText kv.2).isSome = true

variable {num}

/-- **What the editor reads of a draft**: texts, if all values have one, else nothing. -/
theorem get_editorValues {draftValue : String} {draft : List (String × Json ν)}
    (h : num.parse (trim draftValue) = some (.obj draft)) (key : String) :
    (Readable num draft →
      get (editorValues num draftValue) key = (get draft key).bind num.cellText) ∧
    (¬ Readable num draft → get (editorValues num draftValue) key = none) := by
  have horder := (canon_obj_iff.mp (JsNumbers.canon_of_parse h)).1
  have hne : trim draftValue ≠ "" := by
    intro hempty
    rw [hempty] at h
    cases h
  have hdraft : parseObjectDraft num draftValue = (textEntries num draft).map ofEntries := by
    unfold parseObjectDraft
    rw [if_neg hne, h]
    rfl
  unfold editorValues Readable
  rw [hdraft, ← textEntries_isSome_iff]
  cases htexts : textEntries num draft with
  | none => exact ⟨fun hsome => (by cases hsome), fun _ => rfl⟩
  | some texts =>
    refine ⟨fun _ => ?_, fun hnone => absurd rfl hnone⟩
    show get (ofEntries texts) key = _
    rw [get_ofEntries (textEntries_keys htexts ▸ horder.nodup), get_textEntries htexts]

/-! ### Values that come back -/

variable (num)

/-- The value is made again of its text: it is of the type the schema declares, or a text that no
coercion touches. -/
def Fits (type : Option String) : Json ν → Prop
  | .bool _ => type = some "boolean"
  | .num n => IsNumeric type ∧ num.isFinite n = true
  | .str s =>
      (type = some "boolean" → s ≠ "true" ∧ s ≠ "false") ∧ (IsNumeric type → num.number s = none)
  | _ => False

/-- What becomes of a property without a value. -/
def blankValue (type : Option String) (name : String) : Option (Json ν) :=
  if name = "__proto__" then some (.obj [])
  else if name ∈ inheritedMethods then none
  else if IsNumeric type then some (.num num.zero)
  else some (.str "")

variable {num}

theorem not_isNumeric_boolean : ¬ IsNumeric (some "boolean") := by decide

/-- A finite number is written as it is. -/
theorem written_num (n : ν) : Json.written num.format (.num n) =
    if num.isFinite n = true then .num n else .null := by
  show (if (num.format.text n).isSome = true then Json.num n else .null) = _
  have htext : num.format.text n = if num.isFinite n then some (num.toStr n).toList else none := rfl
  rw [htext]
  cases num.isFinite n <;> rfl

variable (num) in
/-- The three things a text is coerced to. -/
theorem coerceText_cases (type : Option String) (text : String) :
    (type = some "boolean" ∧ ∃ b, text = (if b then "true" else "false") ∧
        coerceText num type text = .bool b) ∨
      (IsNumeric type ∧ ∃ n, num.number text = some n ∧ coerceText num type text = .num n) ∨
      ((type = some "boolean" → text ≠ "true" ∧ text ≠ "false") ∧
        (IsNumeric type → num.number text = none) ∧ coerceText num type text = .str text) := by
  unfold coerceText
  by_cases hboolean : type = some "boolean"
  · rw [if_pos hboolean]
    by_cases htrue : text = "true"
    · exact .inl ⟨hboolean, true, htrue, if_pos htrue⟩
    · rw [if_neg htrue]
      by_cases hfalse : text = "false"
      · exact .inl ⟨hboolean, false, hfalse, if_pos hfalse⟩
      · refine .inr (.inr ⟨fun _ => ⟨htrue, hfalse⟩, fun hnumeric => ?_, if_neg hfalse⟩)
        exact absurd (hboolean ▸ hnumeric) not_isNumeric_boolean
  · rw [if_neg hboolean]
    by_cases hnumeric : IsNumeric type
    · rw [if_pos hnumeric]
      cases hnumber : num.number text with
      | none => exact .inr (.inr ⟨fun h => absurd h hboolean, fun _ => rfl, rfl⟩)
      | some n => exact .inr (.inl ⟨hnumeric, n, rfl, rfl⟩)
    · rw [if_neg hnumeric]
      exact .inr (.inr ⟨fun h => absurd h hboolean, fun h => absurd h hnumeric, rfl⟩)

/-- The text of nothing is no truth value, and counts as nought. -/
theorem coerceText_empty (type : Option String) :
    coerceText num type "" = if IsNumeric type then .num num.zero else .str "" := by
  have hblank : num.number "" = some num.zero := num.number_blank "" rfl
  rcases coerceText_cases num type "" with ⟨_, b, htext, _⟩ | ⟨hnumeric, n, hn, h⟩ | ⟨_, hno, h⟩
  · cases b with
    | true => exact absurd htext (by decide)
    | false => exact absurd htext (by decide)
  · rw [hblank] at hn
    rw [h, if_pos hnumeric, Option.some.inj hn]
  · rw [h, if_neg fun hnumeric => ?_]
    rw [hno hnumeric] at hblank
    cases hblank

/-- **Which values come back from their texts**: those whose type is the one that the schema coerces
to. -/
theorem written_coerceText_iff {type : Option String} {v : Json ν} {text : String}
    (htext : num.cellText v = some text) :
    Json.written num.format (coerceText num type text) = v ↔ Fits num type v := by
  have hnum : ∀ n, v = .num n → text = num.toStr n := by
    rintro n rfl
    exact (Option.some.inj htext).symm
  have hbool : ∀ b, v = .bool b → text = if b then "true" else "false" := by
    rintro b rfl
    exact (Option.some.inj htext).symm
  have hstr : ∀ s, v = .str s → text = s := by
    rintro s rfl
    exact (Option.some.inj htext).symm
  rcases coerceText_cases num type text with
    ⟨rfl, b, hb, h⟩ | ⟨hnumeric, n, hn, h⟩ | ⟨hnotBoolean, hnotNumeric, h⟩
  · -- a truth value
    rw [h, Json.written]
    cases v with
    | bool b' =>
      have hb' := hb.symm.trans (hbool b' rfl)
      have heq : b = b' := by cases b <;> cases b' <;> simp_all
      simp [Fits, heq]
    | str s =>
      have hs := hb.symm.trans (hstr s rfl)
      cases b <;> simp [Fits, ← hs]
    | num m => simp [Fits, not_isNumeric_boolean]
    | null => simp [Fits]
    | arr items => simp [Fits]
    | obj entries => simp [Fits]
  · -- a number
    have hnotBoolean : type ≠ some "boolean" :=
      fun heq => not_isNumeric_boolean (heq ▸ hnumeric)
    rw [h, written_num]
    cases v with
    | num m =>
      rw [hnum m rfl, num.number_toStr] at hn
      obtain rfl := Option.some.inj hn
      cases hfinite : num.isFinite m <;> simp [Fits, hnumeric, hfinite]
    | null =>
      have hempty : text = "" := (Option.some.inj htext).symm
      rw [hempty, num.number_blank "" rfl] at hn
      obtain rfl := Option.some.inj hn
      simp [Fits, num.isFinite_zero]
    | str s =>
      rw [hstr s rfl] at hn
      cases hfinite : num.isFinite n <;> simp [Fits, hnumeric, hn]
    | bool b => cases hfinite : num.isFinite n <;> simp [Fits, hnotBoolean]
    | arr items => cases hfinite : num.isFinite n <;> simp [Fits]
    | obj entries => cases hfinite : num.isFinite n <;> simp [Fits]
  · -- the text itself
    rw [h, Json.written]
    cases v with
    | str s =>
      obtain rfl := hstr s rfl
      simp only [Fits, true_iff]
      exact ⟨hnotBoolean, hnotNumeric⟩
    | num m =>
      rw [hnum m rfl, num.number_toStr] at hnotNumeric
      simp only [Fits, reduceCtorEq, false_iff, not_and]
      intro hnumeric
      cases hnotNumeric hnumeric
    | bool b =>
      rw [hbool b rfl] at hnotBoolean
      simp only [Fits, reduceCtorEq, false_iff]
      intro hboolean
      cases b
      · exact (hnotBoolean hboolean).2 rfl
      · exact (hnotBoolean hboolean).1 rfl
    | null => simp [Fits]
    | arr items => simp [Fits]
    | obj entries => simp [Fits]

/-- A coerced text is written as it is, but for the infinities. -/
theorem written_coerceText_self_iff {type : Option String} {text : String} :
    Json.written num.format (coerceText num type text) = coerceText num type text ↔
      (IsNumeric type → ∀ n, num.number text = some n → num.isFinite n = true) := by
  rcases coerceText_cases num type text with
    ⟨rfl, b, -, h⟩ | ⟨hnumeric, n, hn, h⟩ | ⟨-, hnotNumeric, h⟩
  · rw [h]
    exact iff_of_true rfl fun hnumeric => absurd hnumeric not_isNumeric_boolean
  · rw [h, written_num, hn]
    cases hfinite : num.isFinite n with
    | true => exact iff_of_true rfl fun _ m hm => Option.some.inj hm ▸ hfinite
    | false =>
      refine iff_of_false nofun fun hall => ?_
      have := hall hnumeric n rfl
      rw [hfinite] at this
      cases this
  · rw [h]
    refine iff_of_true rfl fun hnumeric n hn => ?_
    rw [hnotNumeric hnumeric] at hn
    cases hn

/-- What becomes of a property that the editor has no text for. -/
theorem written_blankValue {type : Option String} {values : List (String × String)} {name : String}
    (h : get values name = none) :
    (coerceValue num type (editorValue values name)).map (Json.written num.format) =
      blankValue num type name := by
  unfold editorValue blankValue
  rw [h]
  dsimp only
  split_ifs with hprototype hmethod hnumeric
  · rfl
  · rfl
  · rw [coerceValue, coerceText_empty, if_pos hnumeric, Option.map_some, written_num,
      if_pos num.isFinite_zero]
  · rw [coerceValue, coerceText_empty, if_neg hnumeric]
    rfl

theorem blankValue_eq_none_iff {type : Option String} {name : String} :
    blankValue num type name = none ↔ name ∈ inheritedMethods := by
  have hprototype : "__proto__" ∉ inheritedMethods := by decide
  unfold blankValue
  split_ifs with heq hmethod
  · rw [heq]
    simp [hprototype]
  · simp [hmethod]
  · simp [hmethod]
  · simp [hmethod]

/-! ### An edit of one property -/

variable (num)

/-- When an edit leaves alone what it is not about: a condition on the schema, on the draft and on
the text that is entered. -/
structure KeepsOthers (properties draft : List (String × Json ν)) (key nextValue : String) :
    Prop where
  /-- No infinity is entered: JSON has none. -/
  entered : ∀ schema, get properties key = some schema → IsNumeric (propertyType schema) →
    ∀ n, num.number nextValue = some n → num.isFinite n = true
  /-- The schema names every other key. -/
  named : ∀ k, k ≠ key → get properties k = none → get draft k = none
  /-- Every other property is there, or is one that every object inherits. -/
  present : ∀ k schema, k ≠ key → get properties k = some schema → get draft k = none →
    k ∈ inheritedMethods
  /-- Every other value comes back from its text. -/
  fits : Readable num draft → ∀ k schema v, k ≠ key → get properties k = some schema →
    get draft k = some v → Fits num (propertyType schema) v
  /-- Of a draft that cannot be read, every other value is the one an empty field gives. -/
  blank : ¬ Readable num draft → ∀ k schema v, k ≠ key → get properties k = some schema →
    get draft k = some v → blankValue num (propertyType schema) k = some v

variable {num}

/-- What an edit makes of another property. -/
theorem emitted_iff {draftValue : String} {draft : List (String × Json ν)}
    (hdraft : num.parse (trim draftValue) = some (.obj draft)) {k : String} {schema : Json ν} :
    (coerceValue num (propertyType schema) (editorValue (editorValues num draftValue) k)).map
        (Json.written num.format) = get draft k ↔
      (get draft k = none → k ∈ inheritedMethods) ∧
      (Readable num draft → ∀ v, get draft k = some v → Fits num (propertyType schema) v) ∧
      (¬ Readable num draft → ∀ v, get draft k = some v →
        blankValue num (propertyType schema) k = some v) := by
  obtain ⟨hreadable, hunreadable⟩ := get_editorValues hdraft k
  cases hvalue : get draft k with
  | none =>
    -- nothing was there, and the editor has no text
    have hnone : get (editorValues num draftValue) k = none := by
      by_cases hread : Readable num draft
      · rw [hreadable hread, hvalue]
        rfl
      · exact hunreadable hread
    rw [written_blankValue hnone, blankValue_eq_none_iff]
    simp
  | some v =>
    by_cases hread : Readable num draft
    · obtain ⟨text, htext⟩ := Option.isSome_iff_exists.mp (hread _ (mem_of_get hvalue))
      have hget : get (editorValues num draftValue) k = some text := by
        rw [hreadable hread, hvalue]
        exact htext
      have heditor : editorValue (editorValues num draftValue) k = .text text := by
        unfold editorValue
        rw [hget]
      rw [heditor, coerceValue, Option.map_some, Option.some.injEq, written_coerceText_iff htext]
      simp [hread]
    · rw [written_blankValue (hunreadable hread)]
      simp [hread]

/-- **When an edit is one of its property only**: the draft that it emits has the new value under
the key and every other property as it was, exactly when these are made again of their texts. -/
theorem updateValue_iff (definition : Option (TemplateFieldSchemas ν)) {draftValue : String}
    {draft : List (String × Json ν)} (hdraft : num.parse (trim draftValue) = some (.obj draft))
    {key : String} {schema : Json ν} (hkey : get (schemaProperties definition) key = some schema)
    (nextValue : String) :
    (∃ object, num.parse (updateValue num definition draftValue key nextValue) =
        some (.obj object) ∧
      (∀ k, k ≠ key → get object k = get draft k) ∧
      get object key = some (coerceText num (propertyType schema) nextValue)) ↔
    KeepsOthers num (schemaProperties definition) draft key nextValue := by
  obtain ⟨object, hparse, hget⟩ := parse_updateValue num definition draftValue key nextValue
  have hself : get object key = some (coerceText num (propertyType schema) nextValue) ↔
      (IsNumeric (propertyType schema) → ∀ n, num.number nextValue = some n →
        num.isFinite n = true) := by
    rw [hget, hkey, if_pos rfl, Option.bind_some, coerceValue, Option.map_some, Option.some.injEq]
    exact written_coerceText_self_iff
  have hother : ∀ k, k ≠ key → get object k =
      ((get (schemaProperties definition) k).bind fun schema =>
        coerceValue num (propertyType schema) (editorValue (editorValues num draftValue) k)).map
          (Json.written num.format) := by
    intro k hk
    rw [hget]
    simp only [if_neg hk]
  constructor
  · rintro ⟨object', hparse', hothers, hentered⟩
    rw [hparse] at hparse'
    obtain rfl := Json.obj.inj (Option.some.inj hparse')
    -- what the editor emits under another key is what was there
    have hspec : ∀ k schema, k ≠ key → get (schemaProperties definition) k = some schema →
        (coerceValue num (propertyType schema) (editorValue (editorValues num draftValue) k)).map
          (Json.written num.format) = get draft k := by
      intro k schema hk hschema
      rw [← hothers k hk, hother k hk, hschema, Option.bind_some]
    constructor
    · intro schema' hschema'
      rw [hkey] at hschema'
      obtain rfl := Option.some.inj hschema'
      exact hself.mp hentered
    · intro k hk hnone
      rw [← hothers k hk, hother k hk, hnone]
      rfl
    · exact fun k schema hk hschema => ((emitted_iff hdraft).mp (hspec k schema hk hschema)).1
    · exact fun hread k schema v hk hschema =>
        ((emitted_iff hdraft).mp (hspec k schema hk hschema)).2.1 hread v
    · exact fun hread k schema v hk hschema =>
        ((emitted_iff hdraft).mp (hspec k schema hk hschema)).2.2 hread v
  · intro h
    refine ⟨object, hparse, fun k hk => ?_, hself.mpr (h.entered schema hkey)⟩
    rw [hother k hk]
    cases hschema : get (schemaProperties definition) k with
    | none => exact (h.named k hk hschema).symm
    | some schema' =>
      rw [Option.bind_some]
      exact (emitted_iff hdraft).mpr ⟨h.present k schema' hk hschema,
        fun hread v => h.fits hread k schema' v hk hschema,
        fun hread v => h.blank hread k schema' v hk hschema⟩

end Results

/-! ### A note that is null -/

/-- A schema of two texts. -/
def partySchema : SchemaObject (Fin 10) where
  entries := [("properties", .obj [("name", .obj [("type", .str "string")]),
    ("note", .obj [("type", .str "string")])])]
  canonical := by rfl

/-- The definition of a party. -/
def partyDefinition : Option (TemplateFieldSchemas (Fin 10)) := some { schema := some partySchema }

/-- A draft of a party. -/
def partyDraft (note : Json (Fin 10)) : List (String × Json (Fin 10)) :=
  [("name", .str "Acme"), ("note", note)]

theorem parse_partyDraft {note : Json (Fin 10)}
    (hcanon : canon (.obj (partyDraft note)) = .obj (partyDraft note))
    (hwritten : note.written oneDigit.format = note) :
    oneDigit.parse (trim (oneDigit.pretty (.obj (partyDraft note)))) =
      some (.obj (partyDraft note)) := by
  rw [JsNumbers.trim_pretty, JsNumbers.parse_pretty hcanon]
  simp only [partyDraft, Json.written, Json.writtenEntries, hwritten]

/-- A name or a note, and nothing else. -/
theorem partyKey {note : Json (Fin 10)} {k : String} {schema : Json (Fin 10)} (hk : k ≠ "name")
    (h : get (schemaProperties partyDefinition) k = some schema) :
    k = "note" ∧ propertyType schema = some "string" ∧ get (partyDraft note) k = some note := by
  have hprops : schemaProperties partyDefinition = [("name", .obj [("type", .str "string")]),
    ("note", .obj [("type", .str "string")])] := rfl
  rw [hprops, get_cons, if_neg hk.symm, get_cons] at h
  split_ifs at h with hnote
  · obtain rfl := Option.some.inj h
    obtain rfl := hnote
    exact ⟨rfl, rfl, rfl⟩
  · cases h

/-- Where all values are texts of text properties, one of them can be edited alone. -/
theorem updateValue_party :
    ∃ object, oneDigit.parse (updateValue oneDigit partyDefinition
        (oneDigit.pretty (.obj (partyDraft (.str "new")))) "name" "Acme Corp") =
        some (.obj object) ∧
      (∀ k, k ≠ "name" → get object k = get (partyDraft (.str "new")) k) ∧
      get object "name" = some (coerceText oneDigit (some "string") "Acme Corp") := by
  have hreadable : Readable oneDigit (partyDraft (.str "new")) :=
    List.forall_mem_cons.mpr ⟨rfl, List.forall_mem_singleton.mpr rfl⟩
  have hdraft := @parse_partyDraft (.str "new") rfl rfl
  have hkey : get (schemaProperties partyDefinition) "name" =
      some (.obj [("type", .str "string")]) := rfl
  -- The draft parses and all its properties are texts, so each condition is checked on texts.
  refine (updateValue_iff partyDefinition hdraft hkey "Acme Corp").mpr ?_
  constructor
  · intro schema hschema hnumeric
    obtain rfl := Option.some.inj hschema
    exact absurd hnumeric (by decide)
  · intro k hk hnone
    rw [get_eq_none_iff] at hnone ⊢
    exact hnone
  · intro k schema hk hschema hnone
    rw [(partyKey hk hschema).2.2] at hnone
    cases hnone
  · intro _ k schema v hk hschema hv
    obtain ⟨-, htype, hnote⟩ := @partyKey (.str "new") _ _ hk hschema
    obtain rfl := Option.some.inj (hnote.symm.trans hv)
    rw [htype]
    exact ⟨nofun, fun hnumeric => absurd hnumeric (by decide)⟩
  · exact fun hunreadable => absurd hreadable hunreadable

/-- **A null turns into a text when another property is edited**: the editor shows it as an empty
field, and saves the empty text. -/
theorem updateValue_damages :
    ¬ ∀ (ν : Type) (num : JsNumbers ν) (definition : Option (TemplateFieldSchemas ν))
        (draftValue : String) (draft : List (String × Json ν)) (key : String) (schema : Json ν)
        (nextValue : String),
      num.parse (trim draftValue) = some (.obj draft) →
      get (schemaProperties definition) key = some schema →
      ∃ object, num.parse (updateValue num definition draftValue key nextValue) =
          some (.obj object) ∧
        (∀ k, k ≠ key → get object k = get draft k) ∧
        get object key = some (coerceText num (propertyType schema) nextValue) := by
  intro hclaim
  have hdraft := @parse_partyDraft .null rfl rfl
  have hreadable : Readable oneDigit (partyDraft .null) :=
    List.forall_mem_cons.mpr ⟨rfl, List.forall_mem_singleton.mpr rfl⟩
  obtain ⟨object, hparse, hothers, -⟩ := hclaim (Fin 10) oneDigit partyDefinition _ _ "name" _
    "Acme Corp" hdraft rfl
  obtain ⟨object', hparse', hget⟩ := parse_updateValue oneDigit partyDefinition
    (oneDigit.pretty (.obj (partyDraft .null))) "name" "Acme Corp"
  rw [hparse] at hparse'
  obtain rfl := Json.obj.inj (Option.some.inj hparse')
  -- the property that was not edited would still have to be null
  have hnote := (hget "note").symm.trans (hothers "note" (by decide))
  have hschema : get (schemaProperties partyDefinition) "note" =
      some (.obj [("type", .str "string")]) := rfl
  rw [hschema, Option.bind_some, if_neg (by decide)] at hnote
  exact ((emitted_iff hdraft).mp hnote).2.1 hreadable .null rfl

end ExtractFlow
