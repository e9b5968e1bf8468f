import Mathlib.Data.List.Basic
import Mathlib.Data.List.Induction
import ExtractFlow.Lib.JsonText
import ExtractFlow.Lib.Keyed

/-!
# JavaScript objects

The properties of an object have an order of their own: the array indices among the keys
come first, by number, then the other keys, as they were added.  A property that is
written again keeps its place.  So an object that was made of entries, and of its own
properties again, is the same object.

`JSON.parse` makes such objects of the entries it reads.  A value it returned, written and
read again, comes back as it was — but for the numbers that have no text.

## Main definitions

* `keyRank` — the index a key is, or the bound on indices.
* `put`, `get`, `ofEntries` — writing a property, reading it, and the object made of entries.
* `InOrder` — the order of an object's properties.
* `canon`, `jsonParse` — a value with its objects in order, and `JSON.parse`.

## Main results

* `inOrder_ofEntries`, `ofEntries_of_inOrder` — an object is in order, and is made again of
  its own properties.
* `canon_canon` — objects in order stay.
* `jsonParse_stringify` — a value that was read is read again.
-/

namespace JsObject

open JsonText

/-! ### The order of the properties -/

/-- The bound on array indices, 2 to the 32 less one. -/
def indexBound : ℕ := 4294967295

/-- The number a row of digits denotes. -/
def numberOf (key : String) : ℕ := key.toList.foldl (fun n c => 10 * n + (c.toNat - 48)) 0

/-- The array index that a key is, as a text that is the decimal of a number below the bound; the
bound itself for any other key, so those come last. -/
def keyRank (key : String) : ℕ :=
  if toString (numberOf key) = key then min (numberOf key) indexBound else indexBound

section Entries

variable {α β : Type}

/-- Write a property: in its place if it is there, else in front of the indices above it, or
at the end. -/
def put (key : String) (value : α) : List (String × α) → List (String × α)
  | [] => [(key, value)]
  | (k, v) :: kvs =>
      if k = key then (key, value) :: kvs
      else if keyRank key < keyRank k then (key, value) :: (k, v) :: kvs
      else (k, v) :: put key value kvs

/-- The object made of entries: they are put into an empty one in turn, so a later entry replaces
the value of an earlier one of its name. -/
def ofEntries (entries : List (String × α)) : List (String × α) :=
  entries.foldl (fun object entry => put entry.1 entry.2 object) []

/-- The property of a key, if the object has one of its own. -/
def get (object : List (String × α)) (key : String) : Option α :=
  (object.find? fun kv => kv.1 == key).map Prod.snd

/-- One key may stand in front of another. -/
def Before (k l : String) : Prop := k ≠ l ∧ keyRank k ≤ keyRank l

/-- The properties stand in the order in which JavaScript lists them, each once. -/
def InOrder (object : List (String × α)) : Prop := (object.map Prod.fst).Pairwise Before

@[simp] theorem get_nil (key : String) : get ([] : List (String × α)) key = none := rfl

theorem get_cons (k : String) (v : α) (object : List (String × α)) (key : String) :
    get ((k, v) :: object) key = if k = key then some v else get object key := by
  unfold get
  rw [List.find?_cons]
  by_cases h : k = key
  · rw [if_pos h, beq_iff_eq.mpr h]
    rfl
  · rw [if_neg h, beq_eq_false_iff_ne.mpr h]

/-- A property that was written is read. -/
theorem get_put_self (key : String) (value : α) (object : List (String × α)) :
    get (put key value object) key = some value := by
  induction object with
  | nil => simp [put, get_cons]
  | cons kv object ih =>
    rw [put]
    split_ifs with heq hrank
    · rw [get_cons, if_pos rfl]
    · rw [get_cons, if_pos rfl]
    · rw [get_cons, if_neg heq, ih]

/-- The others are read as before. -/
theorem get_put_of_ne {key l : String} (value : α) (object : List (String × α)) (h : l ≠ key) :
    get (put key value object) l = get object l := by
  induction object with
  | nil => rw [put, get_cons, if_neg h.symm]
  | cons kv object ih =>
    rw [put]
    split_ifs with heq hrank
    · rw [get_cons, get_cons, heq, if_neg h.symm, if_neg h.symm]
    · rw [get_cons, if_neg h.symm]
    · rw [get_cons, get_cons, ih]

/-- Changing the values, each with its key. -/
theorem get_map (f : String → α → β) (object : List (String × α)) (key : String) :
    get (object.map fun kv => (kv.1, f kv.1 kv.2)) key = (get object key).map (f key) := by
  induction object with
  | nil => rfl
  | cons kv object ih =>
    rw [List.map_cons, get_cons, get_cons, ih]
    split_ifs with h
    · rw [h]
      rfl
    · rfl

theorem mem_of_get {object : List (String × α)} {key : String} {value : α}
    (h : get object key = some value) : (key, value) ∈ object := by
  obtain ⟨kv, hfind, rfl⟩ := Option.map_eq_some_iff.mp h
  obtain rfl : kv.1 = key := by simpa using List.find?_some hfind
  exact List.mem_of_find?_eq_some hfind

theorem get_eq_none_iff {object : List (String × α)} {key : String} :
    get object key = none ↔ key ∉ object.map Prod.fst := by
  unfold get
  rw [Option.map_eq_none_iff, List.find?_eq_none]
  constructor
  · intro h hmem
    obtain ⟨kv, hkv, rfl⟩ := List.mem_map.mp hmem
    exact h kv hkv (beq_self_eq_true _)
  · intro h kv hkv heq
    exact h (beq_iff_eq.mp heq ▸ List.mem_map_of_mem hkv)

theorem mem_keys_put {key l : String} {value : α} {object : List (String × α)}
    (h : l ∈ (put key value object).map Prod.fst) : l = key ∨ l ∈ object.map Prod.fst := by
  induction object with
  | nil =>
    left
    simpa [put] using h
  | cons kv object ih =>
    rw [put] at h
    split_ifs at h with heq hrank
    · rcases List.mem_cons.mp h with rfl | h
      · exact .inl rfl
      · exact .inr (List.mem_cons_of_mem _ h)
    · exact List.mem_cons.mp h
    · rcases List.mem_cons.mp h with rfl | h
      · exact .inr List.mem_cons_self
      · exact (ih h).imp_right (List.mem_cons_of_mem _)

theorem ofEntries_concat (entries : List (String × α)) (entry : String × α) :
    ofEntries (entries ++ [entry]) = put entry.1 entry.2 (ofEntries entries) := by
  unfold ofEntries
  rw [List.foldl_concat]

/-- A property of the object is the one written, or was there. -/
theorem mem_put {key : String} {value : α} {object : List (String × α)} {kv : String × α}
    (h : kv ∈ put key value object) : kv = (key, value) ∨ kv ∈ object := by
  induction object with
  | nil => exact .inl (List.mem_singleton.mp h)
  | cons kv' object ih =>
    rw [put] at h
    split_ifs at h with heq hrank
    · rcases List.mem_cons.mp h with rfl | h
      · exact .inl rfl
      · exact .inr (List.mem_cons_of_mem _ h)
    · exact List.mem_cons.mp h
    · rcases List.mem_cons.mp h with rfl | h
      · exact .inr List.mem_cons_self
      · exact (ih h).imp_right (List.mem_cons_of_mem _)

/-- The properties of an object come from its entries. -/
theorem mem_ofEntries {entries : List (String × α)} {kv : String × α}
    (h : kv ∈ ofEntries entries) : kv ∈ entries := by
  induction entries using List.reverseRecOn with
  | nil => exact h
  | append_singleton entries entry ih =>
    rw [ofEntries_concat] at h
    rcases mem_put h with rfl | h
    · exact List.mem_append_right _ (List.mem_singleton.mpr rfl)
    · exact List.mem_append_left _ (ih h)

/-- Writing a property keeps the order. -/
theorem inOrder_put {key : String} {value : α} {object : List (String × α)}
    (h : InOrder object) : InOrder (put key value object) := by
  induction object with
  | nil => exact List.pairwise_singleton ..
  | cons kv object ih =>
    obtain ⟨hfirst, hrest⟩ := List.pairwise_cons.mp h
    rw [put]
    split_ifs with heq hrank
    · obtain rfl := heq
      exact h
    · refine List.pairwise_cons.mpr ⟨fun l hl => ?_, h⟩
      rcases List.mem_cons.mp hl with rfl | hl
      · exact ⟨fun heq' => heq heq'.symm, hrank.le⟩
      · have hbefore := (hfirst l hl).2
        refine ⟨fun heq' => ?_, hrank.le.trans hbefore⟩
        rw [← heq'] at hbefore
        exact absurd hrank (Nat.not_lt.mpr hbefore)
    · refine List.pairwise_cons.mpr ⟨fun l hl => ?_, ih hrest⟩
      rcases mem_keys_put hl with rfl | hl
      · exact ⟨heq, Nat.le_of_not_lt hrank⟩
      · exact hfirst l hl

/-- No key stands twice. -/
theorem InOrder.nodup {object : List (String × α)} (h : InOrder object) :
    (object.map Prod.fst).Nodup :=
  List.Pairwise.imp (fun hbefore => hbefore.1) h

/-- Every property is found. -/
theorem InOrder.get_of_mem {object : List (String × α)} (h : InOrder object) {kv : String × α}
    (hkv : kv ∈ object) : get object kv.1 = some kv.2 := by
  unfold get
  rw [Keyed.find?_eq h.nodup hkv]
  rfl

/-- Properties left out keep the others in order. -/
theorem InOrder.sublist {object : List (String × α)} {object' : List (String × β)}
    (h : InOrder object) (hsub : List.Sublist (object'.map Prod.fst) (object.map Prod.fst)) :
    InOrder object' :=
  List.Pairwise.sublist hsub h

/-- **An object’s properties stand in order**, whatever entries it was made of. -/
theorem inOrder_ofEntries (entries : List (String × α)) : InOrder (ofEntries entries) := by
  have hfold : ∀ (entries object : List (String × α)), InOrder object →
      InOrder (entries.foldl (fun object entry => put entry.1 entry.2 object) object) := by
    intro entries
    induction entries with
    | nil => exact fun object h => h
    | cons entry entries ih => exact fun object h => ih _ (inOrder_put h)
  exact hfold entries [] List.Pairwise.nil

/-- A key behind all others is written at the end. -/
theorem put_of_before {key : String} {value : α} {object : List (String × α)}
    (h : ∀ k ∈ object.map Prod.fst, Before k key) :
    put key value object = object ++ [(key, value)] := by
  induction object with
  | nil => rfl
  | cons kv object ih =>
    obtain ⟨⟨hne, hrank⟩, hrest⟩ := List.forall_mem_cons.mp h
    rw [put, if_neg hne, if_neg (by omega), ih hrest, List.cons_append]

/-- **An object is made again of its own properties**, so writing and reading them leaves it as it
was. -/
theorem ofEntries_of_inOrder {object : List (String × α)} (h : InOrder object) :
    ofEntries object = object := by
  have hfold : ∀ rest front : List (String × α), InOrder (front ++ rest) →
      rest.foldl (fun object entry => put entry.1 entry.2 object) front = front ++ rest := by
    intro rest
    induction rest with
    | nil =>
      intro front _
      rw [List.append_nil]
      rfl
    | cons entry rest ih =>
      intro front horder
      have hbefore : ∀ k ∈ front.map Prod.fst, Before k entry.1 := by
        intro k hk
        rw [InOrder, List.map_append, List.pairwise_append] at horder
        exact horder.2.2 k hk entry.1 List.mem_cons_self
      rw [List.foldl_cons, put_of_before hbefore,
        ih _ (by rwa [List.append_assoc, List.singleton_append]), List.append_assoc,
        List.singleton_append]
  exact hfold object [] h

theorem get_append (object object' : List (String × α)) (key : String) :
    get (object ++ object') key = (get object key).or (get object' key) := by
  induction object with
  | nil => rfl
  | cons kv object ih =>
    rw [List.cons_append, get_cons, get_cons, ih]
    split_ifs <;> rfl

/-- An object of entries with distinct keys has the entries' properties. -/
theorem get_ofEntries {entries : List (String × α)} (hnodup : (entries.map Prod.fst).Nodup)
    (key : String) : get (ofEntries entries) key = get entries key := by
  induction entries using List.reverseRecOn with
  | nil => rfl
  | append_singleton entries entry ih =>
    rw [List.map_append, List.nodup_append] at hnodup
    rw [ofEntries_concat, get_append, get_cons, get_nil]
    by_cases hkey : entry.1 = key
    · have hnone : get entries key = none :=
        get_eq_none_iff.mpr fun hmem =>
          hnodup.2.2 key hmem entry.1 (List.mem_singleton.mpr rfl) hkey.symm
      rw [hnone, if_pos hkey, ← hkey, get_put_self]
      rfl
    · rw [get_put_of_ne _ _ (Ne.symm hkey), ih hnodup.1, if_neg hkey, Option.or_none]

/-- Changing the values of an object's properties. -/
theorem put_map (f : α → β) (key : String) (value : α) (object : List (String × α)) :
    put key (f value) (object.map fun kv => (kv.1, f kv.2)) =
      (put key value object).map fun kv => (kv.1, f kv.2) := by
  induction object with
  | nil => rfl
  | cons kv object ih =>
    rw [List.map_cons, put, put, ih]
    split_ifs <;> rfl

theorem ofEntries_map (f : α → β) (entries : List (String × α)) :
    ofEntries (entries.map fun kv => (kv.1, f kv.2)) =
      (ofEntries entries).map fun kv => (kv.1, f kv.2) := by
  have hfold : ∀ entries object : List (String × α),
      (entries.map fun kv => (kv.1, f kv.2)).foldl (fun object entry => put entry.1 entry.2 object)
          (object.map fun kv => (kv.1, f kv.2)) =
        (entries.foldl (fun object entry => put entry.1 entry.2 object) object).map
          fun kv => (kv.1, f kv.2) := by
    intro entries
    induction entries with
    | nil => exact fun object => rfl
    | cons entry entries ih =>
      intro object
      have hput := put_map f entry.1 entry.2 object
      simp only [List.map_cons, List.foldl_cons, hput, ih]
  exact hfold entries []

end Entries

/-! ### Values -/

section Values

variable {ν : Type} (fmt : NumberFormat ν)

mutual

/-- The value as `JSON.parse` builds it: every object in it, at any depth, has its properties in
order. -/
def canon : Json ν → Json ν
  | .null => .null
  | .bool b => .bool b
  | .num n => .num n
  | .str s => .str s
  | .arr items => .arr (canonItems items)
  | .obj entries => .obj (ofEntries (canonEntries entries))

/-- The items of an array. -/
def canonItems : List (Json ν) → List (Json ν)
  | [] => []
  | v :: vs => canon v :: canonItems vs

/-- The entries of an object, not yet in order. -/
def canonEntries : List (String × Json ν) → List (String × Json ν)
  | [] => []
  | (k, v) :: kvs => (k, canon v) :: canonEntries kvs

end

/-- `JSON.parse`: the value that the text stands for, with its objects built of the entries as they
were read; nothing where it throws. -/
def jsonParse (cs : List Char) : Option (Json ν) := (parse fmt cs).map canon

theorem canonEntries_eq (entries : List (String × Json ν)) :
    canonEntries entries = entries.map fun kv => (kv.1, canon kv.2) := by
  induction entries with
  | nil => rfl
  | cons kv entries ih => rw [canonEntries, ih, List.map_cons]

mutual

/-- **Objects in order stay**: what `JSON.parse` built, it builds again. -/
theorem canon_canon : ∀ v : Json ν, canon (canon v) = canon v
  | .null => rfl
  | .bool _ => rfl
  | .num _ => rfl
  | .str _ => rfl
  | .arr items => by rw [canon, canon, canonItems_canonItems items]
  | .obj entries => by
    have hcanon := canonEntries_canonEntries entries
    rw [canon, canon, canonEntries_eq, ← ofEntries_map, ← canonEntries_eq, hcanon,
      ofEntries_of_inOrder (inOrder_ofEntries _)]

theorem canonItems_canonItems : ∀ items : List (Json ν),
    canonItems (canonItems items) = canonItems items
  | [] => rfl
  | v :: vs => by rw [canonItems, canonItems, canon_canon v, canonItems_canonItems vs]

theorem canonEntries_canonEntries : ∀ entries : List (String × Json ν),
    canonEntries (canonEntries entries) = canonEntries entries
  | [] => rfl
  | (k, v) :: kvs => by
    rw [canonEntries, canonEntries, canon_canon v, canonEntries_canonEntries kvs]

end

mutual

/-- The order of the properties does not depend on the numbers. -/
theorem canon_written : ∀ v : Json ν, canon (v.written fmt) = (canon v).written fmt
  | .null => rfl
  | .bool _ => rfl
  | .num n => by
    rw [Json.written, canon, Json.written]
    split <;> rfl
  | .str _ => rfl
  | .arr items => by
    rw [Json.written, canon, canon, Json.written, canonItems_written items]
  | .obj entries => by
    rw [Json.written, canon, canon, Json.written, canonEntries_written entries,
      Json.writtenEntries_eq, Json.writtenEntries_eq, ofEntries_map]

theorem canonItems_written : ∀ items : List (Json ν),
    canonItems (Json.writtenItems fmt items) = Json.writtenItems fmt (canonItems items)
  | [] => rfl
  | v :: vs => by
    rw [Json.writtenItems, canonItems, canonItems, Json.writtenItems, canon_written v,
      canonItems_written vs]

theorem canonEntries_written : ∀ entries : List (String × Json ν),
    canonEntries (Json.writtenEntries fmt entries) =
      Json.writtenEntries fmt (canonEntries entries)
  | [] => rfl
  | (k, v) :: kvs => by
    rw [Json.writtenEntries, canonEntries, canonEntries, Json.writtenEntries, canon_written v,
      canonEntries_written kvs]

end

/-- What was read has its objects in order. -/
theorem canon_jsonParse {cs : List Char} {v : Json ν} (h : jsonParse fmt cs = some v) :
    canon v = v := by
  obtain ⟨w, -, rfl⟩ := Option.map_eq_some_iff.mp h
  exact canon_canon w

theorem map_eq_self_iff {γ : Type} {f : γ → γ} {l : List γ} :
    l.map f = l ↔ ∀ a ∈ l, f a = a := by
  simpa using List.map_eq_map_iff (f := f) (g := id) (l := l)

theorem canonItems_eq (items : List (Json ν)) : canonItems items = items.map canon := by
  induction items with
  | nil => rfl
  | cons v vs ih => rw [canonItems, ih, List.map_cons]

/-- When an object is in order, inside too. -/
theorem canon_obj_iff {object : List (String × Json ν)} :
    canon (.obj object) = .obj object ↔ InOrder object ∧ ∀ kv ∈ object, canon kv.2 = kv.2 := by
  rw [canon, canonEntries_eq, Json.obj.injEq]
  constructor
  · intro h
    have horder : InOrder object := h ▸ inOrder_ofEntries _
    refine ⟨horder, ?_⟩
    rw [ofEntries_map, ofEntries_of_inOrder horder] at h
    intro kv hkv
    have hkv' := map_eq_self_iff.mp h kv hkv
    exact congrArg Prod.snd hkv'
  · rintro ⟨horder, hinside⟩
    rw [ofEntries_map, ofEntries_of_inOrder horder]
    exact map_eq_self_iff.mpr fun kv hkv => by rw [hinside kv hkv]

/-- An object whose properties are in order. -/
theorem canon_obj_of_inOrder {object : List (String × Json ν)} (h : InOrder object) :
    canon (.obj object) = .obj (object.map fun kv => (kv.1, canon kv.2)) := by
  rw [canon, canonEntries_eq, ofEntries_map, ofEntries_of_inOrder h]

/-- When an array is. -/
theorem canon_arr_iff {items : List (Json ν)} :
    canon (.arr items) = .arr items ↔ ∀ v ∈ items, canon v = v := by
  rw [canon, canonItems_eq, Json.arr.injEq, map_eq_self_iff]

/-- **A value that was read is read again** from its own text, but for the numbers that have none.
-/
theorem jsonParse_stringify (gap depth : ℕ) {v : Json ν} (h : canon v = v) :
    jsonParse fmt (stringify fmt gap depth v) = some (v.written fmt) := by
  rw [jsonParse, parse_stringify, Option.map_some, canon_written, h]

end Values

end JsObject
