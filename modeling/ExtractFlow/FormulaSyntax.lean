import ExtractFlow.Values

/-!
# The syntax of formulas

A formula is a Python expression.  The evaluator knows thirteen of the node
classes of `ast`; the others — subscripts, comprehensions, lambdas, starred
arguments and so on — are one constructor here, with the name of their class and
their children, which is all anything looks at.

`ast.walk` visits a tree breadth first; the validator and the collector of
references read the names off that walk.

## Main definitions

* `UnaryOperator`, `BinOperator`, `BoolOperator`, `CmpOp` — the operators.
* `Node` — expressions; `Node.children`, `Node.walk` — `ast.walk`.
* `Node.names` — the identifiers of a tree.
* `normalizeFormula` — `if(` rewritten to `iff(`.

## Main results

* `Node.mem_walk_self`, `Node.mem_walk_of_child` — the walk visits every node below the root.
-/

namespace ExtractFlow

/-! ### Operators -/

/-- The operators with one operand, under the names of their classes in `ast`. -/
inductive UnaryOperator where
  | uSub | uAdd | not | invert
  deriving DecidableEq, Repr, Inhabited

/-- The operators with two operands; the evaluator knows the first four and `mod`. -/
inductive BinOperator where
  | add | sub | mult | div | mod | floorDiv | pow | lShift | rShift | bitOr | bitXor | bitAnd
  | matMult
  deriving DecidableEq, Repr, Inhabited

/-- The operators that stop at the first operand that decides. -/
inductive BoolOperator where
  | and | or
  deriving DecidableEq, Repr, Inhabited

/-- The operators of a comparison, which may stand in a chain. -/
inductive CmpOp where
  | eq | notEq | lt | ltE | gt | gtE | is | isNot | in | notIn
  deriving DecidableEq, Repr, Inhabited

/-! ### Expressions -/

/-- An expression of `ast`, as `ast.parse` gives it; positions and contexts are left out, since
nothing looks at them. -/
inductive Node where
  | constant (value : PyVal)
  | name (id : String)
  | attr (value : Node) (attr : String)
  | list (elts : List Node)
  | tuple (elts : List Node)
  | boolOp (op : BoolOperator) (values : List Node)
  /-- The left operand, and each operator with the operand after it. -/
  | compare (left : Node) (rest : List (CmpOp × Node))
  | ifExp (test body orelse : Node)
  /-- A keyword without a name unpacks a mapping. -/
  | call (func : Node) (args : List Node) (keywords : List (Option String × Node))
  | unaryOp (op : UnaryOperator) (operand : Node)
  | binOp (left : Node) (op : BinOperator) (right : Node)
  /-- A node of any other class.  The kind is the name of the class, which the evaluator puts in
  its message.  A node that no evaluation reaches, such as a parameter of a lambda, has in its
  kind what it holds besides its children: the name of the parameter. -/
  | other (kind : String) (children : List Node)
  deriving Inhabited

namespace Node

/-- `ast.iter_child_nodes`, without the operators and contexts, which have no children
and no name. -/
def children : Node → List Node
  | .constant _ => []
  | .name _ => []
  | .attr value _ => [value]
  | .list elts => elts
  | .tuple elts => elts
  | .boolOp _ values => values
  | .compare left rest => left :: rest.map Prod.snd
  | .ifExp test body orelse => [test, body, orelse]
  | .call func args keywords =>
      func :: (args ++ keywords.map fun kw => .other "keyword" [kw.2])
  | .unaryOp _ operand => [operand]
  | .binOp left _ right => [left, right]
  | .other _ children => children

mutual

/-- The number of levels of the tree. -/
def height : Node → ℕ
  | .constant _ => 1
  | .name _ => 1
  | .attr value _ => height value + 1
  | .list elts => heightList elts + 1
  | .tuple elts => heightList elts + 1
  | .boolOp _ values => heightList values + 1
  | .compare left rest => max (height left) (heightRest rest) + 1
  | .ifExp test body orelse => max (height test) (max (height body) (height orelse)) + 1
  | .call func args keywords =>
      max (height func) (max (heightList args) (heightKeywords keywords + 1)) + 1
  | .unaryOp _ operand => height operand + 1
  | .binOp left _ right => max (height left) (height right) + 1
  | .other _ children => heightList children + 1

/-- The number of levels below a list of siblings. -/
def heightList : List Node → ℕ
  | [] => 0
  | n :: ns => max (height n) (heightList ns)

/-- The number of levels below the operands of a comparison. -/
def heightRest : List (CmpOp × Node) → ℕ
  | [] => 0
  | (_, n) :: rest => max (height n) (heightRest rest)

/-- The number of levels below the values of the keywords. -/
def heightKeywords : List (Option String × Node) → ℕ
  | [] => 0
  | (_, n) :: rest => max (height n) (heightKeywords rest)

end

/-- The first `n` levels below a list of siblings, one level after the other. -/
def levels : ℕ → List Node → List Node
  | 0, _ => []
  | n + 1, nodes => nodes ++ levels n (nodes.flatMap children)

/-- `ast.walk`: the nodes of the tree breadth first, level after level. -/
def walk (node : Node) : List Node := levels node.height [node]

/-- The identifier of a name. -/
def id? : Node → Option String
  | .name id => some id
  | _ => none

/-- The identifiers of a tree, in the order of the walk. A name that occurs twice is
listed twice. -/
def names (node : Node) : List String := node.walk.filterMap id?

/-! ### The walk reaches every node -/

theorem height_le_heightList : ∀ {ns : List Node} {n : Node}, n ∈ ns → n.height ≤ heightList ns := by
  intro ns
  induction ns with
  | nil => intro n h; simp at h
  | cons m ns ih =>
    intro n h
    rw [heightList]
    rcases List.mem_cons.mp h with rfl | h
    · exact Nat.le_max_left _ _
    · exact (ih h).trans (Nat.le_max_right _ _)

theorem height_le_heightRest : ∀ {rest : List (CmpOp × Node)} {p : CmpOp × Node}, p ∈ rest →
    p.2.height ≤ heightRest rest := by
  intro rest
  induction rest with
  | nil => intro p h; simp at h
  | cons q rest ih =>
    intro p h
    obtain ⟨op, n⟩ := q
    rw [heightRest]
    rcases List.mem_cons.mp h with rfl | h
    · exact Nat.le_max_left _ _
    · exact (ih h).trans (Nat.le_max_right _ _)

theorem height_le_heightKeywords : ∀ {kws : List (Option String × Node)}
    {p : Option String × Node}, p ∈ kws → p.2.height ≤ heightKeywords kws := by
  intro kws
  induction kws with
  | nil => intro p h; simp at h
  | cons q kws ih =>
    intro p h
    obtain ⟨arg, n⟩ := q
    rw [heightKeywords]
    rcases List.mem_cons.mp h with rfl | h
    · exact Nat.le_max_left _ _
    · exact (ih h).trans (Nat.le_max_right _ _)

/-- A child has fewer levels than its parent, so as many levels as the root has are enough for the
walk. -/
theorem height_lt_of_child {n c : Node} (h : c ∈ n.children) : c.height < n.height := by
  cases n with
  | constant | name => simp [children] at h
  | attr value name =>
    obtain rfl : c = value := by simpa [children] using h
    rw [height]
    omega
  | list elts | tuple elts | boolOp op elts | other kind elts =>
    have := height_le_heightList (show c ∈ elts from h)
    rw [height]
    omega
  | compare left rest =>
    rw [height]
    -- The first operand, or the right side of one of the comparisons.
    rcases List.mem_cons.mp h with rfl | h
    · omega
    · obtain ⟨p, hp, rfl⟩ := List.mem_map.mp h
      have := height_le_heightRest hp
      omega
  | ifExp test body orelse =>
    rw [height]
    have h : c = test ∨ c = body ∨ c = orelse := by simpa [children] using h
    rcases h with rfl | rfl | rfl <;> omega
  | call func args keywords =>
    rw [height]
    rcases List.mem_cons.mp h with rfl | h
    · omega
    · rcases List.mem_append.mp h with h | h
      · have := height_le_heightList h
        omega
      · obtain ⟨kw, hkw, rfl⟩ := List.mem_map.mp h
        have := height_le_heightKeywords hkw
        simp only [height, heightList]
        omega
  | unaryOp op operand =>
    obtain rfl : c = operand := by simpa [children] using h
    rw [height]
    omega
  | binOp left op right =>
    rw [height]
    have h : c = left ∨ c = right := by simpa [children] using h
    rcases h with rfl | rfl <;> omega

/-- More siblings and more levels, more nodes. -/
theorem levels_mono : ∀ {k k' : ℕ} {ns ns' : List Node}, k ≤ k' → ns ⊆ ns' →
    levels k ns ⊆ levels k' ns' := by
  intro k
  induction k with
  | zero => intro k' ns ns' _ _ n h; simp [levels] at h
  | succ k ih =>
    intro k' ns ns' hk hns n h
    obtain ⟨k', rfl⟩ : ∃ j, k' = j + 1 := ⟨k' - 1, by omega⟩
    rw [levels] at h ⊢
    rcases List.mem_append.mp h with h | h
    · exact List.mem_append_left _ (hns h)
    · refine List.mem_append_right _ (ih (by omega) ?_ h)
      intro c hc
      obtain ⟨m, hm, hc⟩ := List.mem_flatMap.mp hc
      exact List.mem_flatMap.mpr ⟨m, hns hm, hc⟩

theorem height_pos (n : Node) : 0 < n.height := by cases n <;> simp [height]

/-- The walk visits the root of the tree. -/
theorem mem_walk_self (n : Node) : n ∈ n.walk := by
  obtain ⟨k, hk⟩ : ∃ k, n.height = k + 1 := ⟨n.height - 1, by have := n.height_pos; omega⟩
  unfold walk
  rw [hk, levels]
  exact List.mem_append_left _ (List.mem_singleton_self n)

/-- The walk visits whatever the walk of a child visits, though in another order. -/
theorem mem_walk_of_child {n c m : Node} (hc : c ∈ n.children) (hm : m ∈ c.walk) : m ∈ n.walk := by
  have hlt := height_lt_of_child hc
  obtain ⟨k, hk⟩ : ∃ k, n.height = k + 1 := ⟨n.height - 1, by omega⟩
  unfold walk at hm ⊢
  rw [hk, levels]
  refine List.mem_append_right _ (levels_mono (by omega) ?_ hm)
  intro c' hc'
  obtain rfl := List.mem_singleton.mp hc'
  simpa using hc

theorem mem_names_self (id : String) : id ∈ (Node.name id).names :=
  List.mem_filterMap.mpr ⟨.name id, mem_walk_self _, rfl⟩

theorem mem_names_of_child {n c : Node} {id : String} (hc : c ∈ n.children) (h : id ∈ c.names) :
    id ∈ n.names := by
  obtain ⟨m, hm, hid⟩ := List.mem_filterMap.mp h
  exact List.mem_filterMap.mpr ⟨m, mem_walk_of_child hc hm, hid⟩

end Node

/-! ### `if(` -/

/-- The lookbehind of `IF_CALL_PATTERN` fails after this letter. -/
def blocksIf (isAlnum : Char → Bool) : Option Char → Bool
  | some c => isAlnum c || c == '_' || c == '.'
  | none => false

/-- `IF_CALL_PATTERN.sub("iff(", ...)`, where `prev` is the letter before. -/
def normalizeChars (isAlnum : Char → Bool) : Option Char → List Char → List Char
  | prev, 'i' :: 'f' :: '(' :: cs =>
      if blocksIf isAlnum prev then 'i' :: 'f' :: '(' :: normalizeChars isAlnum (some '(') cs
      else 'i' :: 'f' :: 'f' :: '(' :: normalizeChars isAlnum (some '(') cs
  | _, c :: cs => c :: normalizeChars isAlnum (some c) cs
  | _, [] => []

/-- `normalize_formula`: IF as a function name is rewritten, since `if` is a keyword of Python. -/
def normalizeFormula (isAlnum : Char → Bool) (formula : String) : String :=
  String.ofList (normalizeChars isAlnum none formula.toList)

end ExtractFlow
