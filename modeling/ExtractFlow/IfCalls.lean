import ExtractFlow.Evaluator

/-!
# Which `if(` the rewriting changes

Formulas call the helper `iff` under the name `if`, which Python's grammar keeps
for conditional expressions.  `normalize_formula` therefore rewrites the text
before it is parsed: every `if(` that no letter, digit, underscore or dot precedes
becomes `iff(`, wherever it stands.

A formula is a list of tokens here, as Python's tokenizer reads them, with blanks
and comments among them.  A call is written `if(` when the keyword stands where an
operand is expected; after an operand it belongs to a conditional expression, and
inside a literal it is text.

## Main definitions

* `Token`, `IsCallHead`, `rewriteCalls` — the calls written `if(`, and the formula that
  calls `iff` instead.
* `TokenizerLaws` — what is known of Python's tokenizer and parser.
* `OnlyCallHeads` — the pattern matches nowhere else.

## Main results

* `normalizeFormula_eq` — what `normalize_formula` does to each token.
* `if_rewrite_iff` — the formulas that compile to the tree they should.
-/

namespace ExtractFlow

/-! ### Tokens -/

/-- The kinds of tokens, as far as the rewriting and the grammar tell them apart. -/
inductive TokenKind where
  /-- An identifier or a keyword. -/
  | word
  | number
  /-- A string literal, or the end of a formatted one. -/
  | string
  /-- The beginning of a formatted string, and its text outside the braces. -/
  | stringText
  | op
  | space
  | comment
  deriving DecidableEq, Repr

/-- A token with its characters; the text of a formula is that of its tokens in a row. -/
structure Token where
  kind : TokenKind
  chars : List Char
  deriving DecidableEq, Repr

/-- The text of some tokens. -/
def tokensText (ts : List Token) : List Char := ts.flatMap Token.chars

/-- The formula of some tokens. -/
def formulaText (ts : List Token) : String := String.ofList (tokensText ts)

/-- The keywords that are no operand. -/
def operatorKeywords : List String :=
  ["and", "as", "assert", "async", "await", "break", "class", "continue", "def", "del", "elif",
    "else", "except", "finally", "for", "from", "global", "if", "import", "in", "is", "lambda",
    "nonlocal", "not", "or", "pass", "raise", "return", "try", "while", "with", "yield"]

/-- The token ends an operand. -/
def Token.endsOperand (t : Token) : Bool :=
  match t.kind with
  | .word => !operatorKeywords.contains (String.ofList t.chars)
  | .number | .string => true
  | .op => [[')'], [']'], ['}'], ['.', '.', '.']].contains t.chars
  | .stringText | .space | .comment => false

/-- The keyword `if`. -/
def Token.if : Token := ⟨.word, ['i', 'f']⟩

/-- The name of the helper, which the rewriting puts in the place of the keyword. -/
def Token.iff : Token := ⟨.word, ['i', 'f', 'f']⟩

def Token.openParen : Token := ⟨.op, ['(']⟩

def Token.dot : Token := ⟨.op, ['.']⟩

/-- The last token before that is no blank and no comment. -/
def lastToken (before : List Token) : Option Token :=
  before.reverse.find? fun t => t.kind != .space && t.kind != .comment

/-- The token is the head of a call written `if(`: the keyword, with its parenthesis
behind it, where an operand is expected. -/
def IsCallHead (before : List Token) (t : Token) (after : List Token) : Prop :=
  t = .if ∧ after.head? = some .openParen ∧
    ∀ u, lastToken before = some u → u.endsOperand = false ∧ u ≠ .dot

instance (before : List Token) (t : Token) (after : List Token) :
    Decidable (IsCallHead before t after) :=
  match h : lastToken before with
  | none => decidable_of_iff (t = .if ∧ after.head? = some .openParen) (by simp [IsCallHead, h])
  | some u => decidable_of_iff
      (t = .if ∧ after.head? = some .openParen ∧ u.endsOperand = false ∧ u ≠ .dot)
      (by simp [IsCallHead, h])

/-- Each token changed, with what stands before and after it in view. -/
def mapTokens (f : List Token → Token → List Token → Token) : List Token → List Token → List Token
  | _, [] => []
  | before, t :: after => f before t after :: mapTokens f (before ++ [t]) after

/-- The formula in which exactly the calls written `if(` are calls of `iff`. -/
def rewriteCalls (ts : List Token) : List Token :=
  mapTokens (fun before t after => if IsCallHead before t after then .iff else t) [] ts

/-! ### What the pattern matches -/

section Pattern

variable (isAlnum : Char → Bool)

/-- `IF_CALL_PATTERN` matches here. -/
def matchesIf (prev : Option Char) : List Char → Bool
  | 'i' :: 'f' :: '(' :: _ => !blocksIf isAlnum prev
  | _ => false

/-- `IF_CALL_PATTERN` matches at a letter of `cs`, before `rest`. -/
def hasMatch : Option Char → List Char → List Char → Bool
  | _, [], _ => false
  | prev, c :: cs, rest => matchesIf isAlnum prev (c :: (cs ++ rest)) || hasMatch (some c) cs rest

/-- What the rewriting makes of `cs`, before `rest`. -/
def rewriteMatches : Option Char → List Char → List Char → List Char
  | _, [], _ => []
  | prev, c :: cs, rest =>
      if matchesIf isAlnum prev (c :: (cs ++ rest)) then c :: 'f' :: rewriteMatches (some c) cs rest
      else c :: rewriteMatches (some c) cs rest

/-- What the rewriting makes of a token. -/
def rewriteToken (before : List Token) (t : Token) (after : List Token) : Token :=
  { t with chars := rewriteMatches isAlnum (tokensText before).getLast? t.chars (tokensText after) }

/-- The pattern matches where a call is written with the keyword, and nowhere else but
in comments. -/
def OnlyCallHeads (ts : List Token) : Prop :=
  ∀ before t after, ts = before ++ t :: after → t.kind ≠ .comment →
    hasMatch isAlnum (tokensText before).getLast? t.chars (tokensText after) = true →
    IsCallHead before t after

variable {isAlnum}

/-- The pattern matches at a letter `i`. -/
theorem head_of_matchesIf {prev : Option Char} {c : Char} {cs : List Char}
    (h : matchesIf isAlnum prev (c :: cs) = true) : c = 'i' := by
  unfold matchesIf at h
  split at h
  · next heq => exact (List.cons.inj heq).1
  · cases h

theorem rewriteMatches_cons_of_ne {prev : Option Char} {c : Char} {cs rest : List Char}
    (hc : c ≠ 'i') :
    rewriteMatches isAlnum prev (c :: cs) rest = c :: rewriteMatches isAlnum (some c) cs rest := by
  rw [rewriteMatches, if_neg fun h => hc (head_of_matchesIf h)]

/-- `normalize_formula` rewrites the matches one by one. -/
theorem normalizeChars_eq (prev : Option Char) (cs : List Char) :
    normalizeChars isAlnum prev cs = rewriteMatches isAlnum prev cs [] := by
  induction prev, cs using normalizeChars.induct isAlnum with
  | case1 prev cs hblocks ih =>
    rw [normalizeChars, if_pos hblocks, ih, rewriteMatches,
      if_neg (by simp [matchesIf, hblocks]), rewriteMatches_cons_of_ne (by decide),
      rewriteMatches_cons_of_ne (by decide)]
  | case2 prev cs hblocks ih =>
    rw [normalizeChars, if_neg hblocks, ih, rewriteMatches,
      if_pos (by simp [matchesIf, hblocks]), rewriteMatches_cons_of_ne (by decide),
      rewriteMatches_cons_of_ne (by decide)]
  | case3 prev c cs hno ih =>
    rw [normalizeChars, ih, rewriteMatches, if_neg]
    · intro h
      unfold matchesIf at h
      split at h
      · next heq =>
        rw [List.append_nil] at heq
        exact hno _ (List.cons.inj heq).1 (List.cons.inj heq).2
      · cases h
    · exact hno
  | case4 prev => rw [normalizeChars, rewriteMatches]

/-- The rewriting goes letter by letter. -/
theorem rewriteMatches_append (prev : Option Char) (cs ds rest : List Char) :
    rewriteMatches isAlnum prev (cs ++ ds) rest =
      rewriteMatches isAlnum prev cs (ds ++ rest) ++
        rewriteMatches isAlnum (cs.getLast?.or prev) ds rest := by
  induction cs generalizing prev with
  | nil => rfl
  | cons c cs ih =>
    have hlast : (c :: cs).getLast?.or prev = cs.getLast?.or (some c) := by
      rw [List.getLast?_cons]
      cases cs.getLast? <;> rfl
    rw [List.cons_append, rewriteMatches, rewriteMatches, ih, hlast, List.append_assoc]
    split <;> rfl

/-- Nothing changes where nothing matches, and only there, since every match makes the
text longer. -/
theorem rewriteMatches_eq_iff {prev : Option Char} {cs rest : List Char} :
    rewriteMatches isAlnum prev cs rest = cs ↔ hasMatch isAlnum prev cs rest = false := by
  have hlength : ∀ (prev : Option Char) (cs : List Char),
      cs.length ≤ (rewriteMatches isAlnum prev cs rest).length := by
    intro prev cs
    induction cs generalizing prev with
    | nil => exact le_rfl
    | cons c cs ih =>
      have hle := ih (some c)
      rw [rewriteMatches]
      split <;> simp only [List.length_cons] <;> omega
  induction cs generalizing prev with
  | nil => exact iff_of_true rfl rfl
  | cons c cs ih =>
    rw [rewriteMatches, hasMatch, Bool.or_eq_false_iff]
    split
    · next hmatch =>
      refine iff_of_false (fun h => ?_) fun h => absurd hmatch (by simp [h.1])
      -- a match puts in a letter that was not there, and none is ever taken out
      have hle := hlength (some c) cs
      have heq := congrArg List.length h
      simp only [List.length_cons] at heq
      omega
    · next hmatch =>
      rw [Bool.not_eq_true] at hmatch
      rw [List.cons.injEq, hmatch, and_iff_right rfl, and_iff_right rfl]
      exact ih

end Pattern

/-! ### Token by token -/

section MapTokens

variable {f g : List Token → Token → List Token → Token}

/-- Two changes compared at every token. -/
theorem forall₂_mapTokens_iff {R : Token → Token → Prop} {before ts : List Token} :
    List.Forall₂ R (mapTokens f before ts) (mapTokens g before ts) ↔
      ∀ skipped t after, ts = skipped ++ t :: after →
        R (f (before ++ skipped) t after) (g (before ++ skipped) t after) := by
  induction ts generalizing before with
  | nil => exact iff_of_true .nil fun skipped t after h => by simp at h
  | cons u ts ih =>
    rw [mapTokens, mapTokens, List.forall₂_cons, ih]
    constructor
    · rintro ⟨hu, hts⟩ skipped t after h
      cases skipped with
      | nil =>
        obtain ⟨rfl, rfl⟩ := List.cons.inj h
        rwa [List.append_nil]
      | cons v skipped =>
        obtain ⟨rfl, rfl⟩ := List.cons.inj h
        simpa using hts skipped t after rfl
    · intro h
      refine ⟨by simpa using h [] u ts rfl, fun skipped t after hts => ?_⟩
      simpa using h (u :: skipped) t after (by rw [hts, List.cons_append])

/-- A change that leaves every token changes nothing. -/
theorem mapTokens_eq_self {before ts : List Token}
    (h : ∀ skipped t after, ts = skipped ++ t :: after → f (before ++ skipped) t after = t) :
    mapTokens f before ts = ts := by
  induction ts generalizing before with
  | nil => rfl
  | cons u ts ih =>
    have hu : f before u ts = u := by simpa using h [] u ts rfl
    rw [mapTokens, hu, ih]
    intro skipped t after hts
    simpa using h (u :: skipped) t after (by rw [hts, List.cons_append])

end MapTokens

/-- **A formula without a call written `if(`** is the formula it should be parsed as. -/
theorem rewriteCalls_eq_self {ts : List Token}
    (h : ∀ before t after, ts = before ++ t :: after → ¬IsCallHead before t after) :
    rewriteCalls ts = ts :=
  mapTokens_eq_self fun before t after hts => if_neg (h before t after hts)

theorem tokensText_cons (t : Token) (ts : List Token) :
    tokensText (t :: ts) = t.chars ++ tokensText ts := List.flatMap_cons

theorem tokensText_append (ts us : List Token) :
    tokensText (ts ++ us) = tokensText ts ++ tokensText us := List.flatMap_append

/-- **What `normalize_formula` does to each token**: it works on the text, but no match goes across
the end of a token. -/
theorem normalizeFormula_eq (isAlnum : Char → Bool) (ts : List Token) :
    normalizeFormula isAlnum (formulaText ts) =
      formulaText (mapTokens (rewriteToken isAlnum) [] ts) := by
  have htokens : ∀ (ts before : List Token),
      rewriteMatches isAlnum (tokensText before).getLast? (tokensText ts) [] =
        tokensText (mapTokens (rewriteToken isAlnum) before ts) := by
    intro ts
    induction ts with
    | nil => intro before; rfl
    | cons t ts ih =>
      intro before
      have hlast : (tokensText (before ++ [t])).getLast? =
          t.chars.getLast?.or (tokensText before).getLast? := by
        rw [tokensText_append, List.getLast?_append, tokensText_cons]
        simp [tokensText]
      rw [mapTokens, tokensText_cons, tokensText_cons, ← ih, hlast, rewriteMatches_append,
        List.append_nil]
      rfl
  rw [normalizeFormula, formulaText, formulaText, String.toList_ofList, normalizeChars_eq,
    ← htokens ts []]
  rfl

/-! ### The tokenizer and the parser -/

/-- Letters `f` inserted behind letters `i`, which is all that the rewriting ever does to a text. -/
inductive Inserted : List Char → List Char → Prop
  | nil : Inserted [] []
  | keep (c) {cs ds} : Inserted cs ds → Inserted (c :: cs) (c :: ds)
  | insert {cs ds} : Inserted cs ds → Inserted ('i' :: cs) ('i' :: 'f' :: ds)

theorem Inserted.refl : ∀ cs, Inserted cs cs
  | [] => .nil
  | c :: cs => .keep c (refl cs)

theorem inserted_rewriteMatches {isAlnum : Char → Bool} (prev : Option Char)
    (cs rest : List Char) : Inserted cs (rewriteMatches isAlnum prev cs rest) := by
  induction cs generalizing prev with
  | nil => exact .nil
  | cons c cs ih =>
    rw [rewriteMatches]
    split
    · next hmatch =>
      obtain rfl := head_of_matchesIf hmatch
      exact .insert (ih _)
    · exact .keep c (ih _)

/-- A token with such letters inserted. -/
def Token.Grows (t u : Token) : Prop := t.kind = u.kind ∧ Inserted t.chars u.chars

/-- The three dots of `Ellipsis`. -/
def Token.ellipsis : Token := ⟨.op, ['.', '.', '.']⟩

/-- What is known of Python's tokenizer and parser; `reads ts` says that the tokenizer
reads the tokens `ts` from their text. -/
structure TokenizerLaws (py : Python) (reads : List Token → Prop) : Prop where
  /-- A word directly after a letter, a digit, an underscore or a dot follows a number
  or an operator of dots: it would be part of another token otherwise. -/
  words_maximal : ∀ {ts}, reads ts → ∀ before t after, ts = before ++ t :: after →
    t.kind = .word → blocksIf py.text.isAlnum (tokensText before).getLast? = true →
      ∃ u ∈ before.getLast?, u.kind = .number ∨ u = .dot ∨ u = .ellipsis
  /-- The name `iff` is read where the keyword was. -/
  renamed : ∀ {before after}, reads (before ++ .if :: after) → reads (before ++ .iff :: after)
  /-- Comments are not parsed. -/
  comments_ignored : ∀ {ts us}, reads ts →
    List.Forall₂ (fun t u : Token => t.Grows u ∧ (t.kind = .comment ∨ t.chars = u.chars)) ts us →
      py.parse (formulaText us) = py.parse (formulaText ts)
  /-- A letter inserted in a word or in a literal gives another tree, or none.  A word is a
  keyword, or a name that the tree carries: a variable, an attribute, the name of an argument or
  of the parameter of a lambda (it is part of the kind of the parameter's node). -/
  insertions_seen : ∀ {ts us tree}, reads ts → List.Forall₂ Token.Grows ts us →
    py.parse (formulaText ts) = .ok tree → py.parse (formulaText us) = .ok tree →
      List.Forall₂ (fun t u : Token => t.kind = .comment ∨ t.chars = u.chars) ts us

section Compile

variable {py : Python} {reads : List Token → Prop}

/-- The last token before, when it is directly before. -/
theorem lastToken_of_getLast? {before : List Token} {u : Token} (h : before.getLast? = some u)
    (hspace : u.kind ≠ .space) (hcomment : u.kind ≠ .comment) : lastToken before = some u := by
  obtain ⟨ts, rfl⟩ := List.getLast?_eq_some_iff.mp h
  rw [lastToken, List.reverse_append]
  simp [hspace, hcomment]

/-- The pattern matches at every call head. -/
theorem rewriteToken_of_isCallHead (laws : TokenizerLaws py reads) {before after : List Token}
    {t : Token} (hreads : reads (before ++ t :: after)) (h : IsCallHead before t after) :
    rewriteToken py.text.isAlnum before t after = .iff := by
  obtain ⟨rfl, hafter, hbefore⟩ := h
  obtain ⟨rest, rfl⟩ : ∃ rest, after = .openParen :: rest := by
    cases after with
    | nil => cases hafter
    | cons u rest => exact ⟨rest, by rw [Option.some.inj hafter]⟩
  have hfree : blocksIf py.text.isAlnum (tokensText before).getLast? = false := by
    by_contra hblocks
    rw [Bool.not_eq_false] at hblocks
    obtain ⟨u, hu, hkind⟩ := laws.words_maximal hreads before _ _ rfl rfl hblocks
    rcases hkind with hnumber | rfl | rfl
    · have hlast := lastToken_of_getLast? hu (by simp [hnumber]) (by simp [hnumber])
      have hoperand := (hbefore u hlast).1
      simp [Token.endsOperand, hnumber] at hoperand
    · exact (hbefore _ (lastToken_of_getLast? hu (by decide) (by decide))).2 rfl
    · exact absurd (hbefore _ (lastToken_of_getLast? hu (by decide) (by decide))).1 (by decide)
  have hmatch : matchesIf py.text.isAlnum (tokensText before).getLast?
      ('i' :: (['f'] ++ tokensText (.openParen :: rest))) = true := by
    rw [tokensText_cons]
    simp [matchesIf, Token.openParen, hfree]
  rw [rewriteToken, Token.if, rewriteMatches, if_pos hmatch, rewriteMatches_cons_of_ne (by decide)]
  rfl

/-- The tokenizer reads the calls of `iff`. -/
theorem reads_rewriteCalls (laws : TokenizerLaws py reads) {ts : List Token} (h : reads ts) :
    reads (rewriteCalls ts) := by
  have hafter : ∀ (after done before : List Token), reads (done ++ after) → reads (done ++
      mapTokens (fun before t after => if IsCallHead before t after then .iff else t) before
        after) := by
    intro after
    induction after with
    | nil => intro done before h; exact h
    | cons t after ih =>
      intro done before h
      rw [mapTokens]
      have hcons : ∀ u : Token, reads (done ++ u :: after) → reads (done ++ u :: mapTokens
          (fun before t after => if IsCallHead before t after then .iff else t) (before ++ [t])
            after) := by
        intro u hu
        have hdone := ih (done ++ [u]) (before ++ [t]) (by simpa using hu)
        simpa using hdone
      split
      · next hhead =>
        rw [hhead.1] at h ⊢
        rw [hhead.1] at hcons
        exact hcons _ (laws.renamed h)
      · exact hcons t h
  exact hafter ts [] [] h

/-- **The rewriting changes only the calls written `if(`** exactly when its pattern
matches nowhere else but in comments. -/
theorem if_rewrite_iff (laws : TokenizerLaws py reads) {ts : List Token} (hreads : reads ts)
    {tree : Node} (htree : py.parse (formulaText (rewriteCalls ts)) = .ok tree) :
    py.compileFormula (formulaText ts) = .ok tree ↔ OnlyCallHeads py.text.isAlnum ts := by
  have hcompile : py.compileFormula (formulaText ts) = .ok tree ↔
      py.parse (formulaText (mapTokens (rewriteToken py.text.isAlnum) [] ts)) = .ok tree := by
    rw [Python.compileFormula, normalizeFormula_eq]
    split <;> simp_all
  -- both rewritings agree on the calls, and anything else can only have grown
  have hgrows : List.Forall₂ Token.Grows (rewriteCalls ts)
      (mapTokens (rewriteToken py.text.isAlnum) [] ts) := by
    refine forall₂_mapTokens_iff.mpr fun before t after hts => ?_
    rw [List.nil_append]
    split
    · next hhead =>
      rw [rewriteToken_of_isCallHead laws (hts ▸ hreads) hhead]
      exact ⟨rfl, .refl _⟩
    · exact ⟨rfl, inserted_rewriteMatches _ _ _⟩
  rw [hcompile]
  constructor
  · intro hparse before t after hts hcomment hmatch
    have hseen := laws.insertions_seen (reads_rewriteCalls laws hreads) hgrows htree hparse
    -- a match that is no call would have changed what the parser sees
    by_contra hhead
    have ht := forall₂_mapTokens_iff.mp hseen before t after hts
    rw [List.nil_append, if_neg hhead] at ht
    have hsame := rewriteMatches_eq_iff.mp (ht.resolve_left hcomment).symm
    rw [hmatch] at hsame
    cases hsame
  · intro honly
    rw [laws.comments_ignored (reads_rewriteCalls laws hreads) ?_, htree]
    refine forall₂_mapTokens_iff.mpr fun before t after hts => ?_
    refine ⟨by simpa using forall₂_mapTokens_iff.mp hgrows before t after hts, ?_⟩
    rw [List.nil_append]
    split
    · next hhead =>
      rw [rewriteToken_of_isCallHead laws (hts ▸ hreads) hhead]
      exact Or.inr rfl
    · next hhead =>
      refine or_iff_not_imp_left.mpr fun hcomment => (rewriteMatches_eq_iff.mpr ?_).symm
      by_contra hmatch
      exact hhead (honly before t after hts hcomment (by simpa using hmatch))

end Compile

/-! ### A parser that knows one formula -/

/-- What holds at every place of a list holds wherever it is split. -/
theorem forall_split {P : List Token → Token → List Token → Prop} {ts : List Token}
    (h : ∀ i (hi : i < ts.length), P (ts.take i) ts[i] (ts.drop (i + 1))) :
    ∀ before t after, ts = before ++ t :: after → P before t after := by
  rintro before t after rfl
  simpa using h before.length (by simp)

theorem Inserted.length_le {cs ds : List Char} (h : Inserted cs ds) : cs.length ≤ ds.length := by
  induction h with
  | nil => exact le_rfl
  | keep c _ ih => simpa using ih
  | insert _ ih => simp only [List.length_cons]; omega

theorem Inserted.eq_of_length {cs ds : List Char} (h : Inserted cs ds)
    (hlength : ds.length ≤ cs.length) : cs = ds := by
  induction h with
  | nil => rfl
  | keep c _ ih => rw [ih (by simpa using hlength)]
  | insert hrest _ =>
    have hle := hrest.length_le
    simp only [List.length_cons] at hlength
    omega

/-- Tokens that grow and keep their length are the same. -/
theorem chars_eq_of_length {ts us : List Token} (h : List.Forall₂ Token.Grows ts us)
    (hlength : (tokensText us).length ≤ (tokensText ts).length) :
    List.Forall₂ (fun t u : Token => t.chars = u.chars) ts us := by
  have hle : ∀ {ts us : List Token}, List.Forall₂ Token.Grows ts us →
      (tokensText ts).length ≤ (tokensText us).length := by
    intro ts us h
    induction h with
    | nil => exact le_rfl
    | cons ht _ ih =>
      have := ht.2.length_le
      simp only [tokensText_cons, List.length_append]
      omega
  induction h with
  | nil => exact .nil
  | cons ht hts ih =>
    have hhead := ht.2.length_le
    have htail := hle hts
    simp only [tokensText_cons, List.length_append] at hlength
    exact .cons (ht.2.eq_of_length (by omega)) (ih (by omega))

theorem parse_plainPython {key formula : String} {tree tree' : Node}
    (h : (plainPython [(key, tree)]).parse formula = .ok tree') : formula = key := by
  by_contra hne
  have hlookup : List.lookup formula [(key, tree)] = none := by
    rw [List.lookup_cons, beq_eq_false_iff_ne.mpr hne]
    rfl
  simp only [plainPython, hlookup] at h
  cases h

/-- A parser that knows one formula obeys the laws on tokens without comments. -/
theorem tokenizerLaws_plainPython (key : String) (tree : Node) {reads : List Token → Prop}
    (hwords : ∀ {ts}, reads ts → ∀ before t after, ts = before ++ t :: after →
      t.kind = .word → blocksIf Char.isAlphanum (tokensText before).getLast? = true →
        ∃ u ∈ before.getLast?, u.kind = .number ∨ u = .dot ∨ u = .ellipsis)
    (hrenamed : ∀ {before after}, reads (before ++ .if :: after) → reads (before ++ .iff :: after))
    (hcomments : ∀ {ts}, reads ts → ∀ t ∈ ts, t.kind ≠ .comment) :
    TokenizerLaws (plainPython [(key, tree)]) reads where
  words_maximal := hwords
  renamed := hrenamed
  comments_ignored {ts us} hreads h := by
    -- without comments, tokens that agree but for comments are the same
    have hsame : List.Forall₂ (fun t u : Token => t = u) ts us := by
      have hno := hcomments hreads
      clear hreads
      induction h with
      | nil => exact .nil
      | @cons t u ts us htu _ ih =>
        obtain ⟨⟨hkind, -⟩, hchars⟩ := htu
        refine .cons ?_ (ih fun t ht => hno t (List.mem_cons_of_mem _ ht))
        cases t with
        | mk kind chars =>
          cases u with
          | mk kind' chars' =>
            obtain rfl : kind = kind' := hkind
            obtain rfl : chars = chars' := hchars.resolve_left (hno _ (List.mem_cons_self ..))
            rfl
    rw [List.forall₂_eq_eq_eq] at hsame
    rw [hsame]
  insertions_seen {ts us tree'} _ hgrows hts hus := by
    have htext : formulaText us = formulaText ts :=
      (parse_plainPython hus).trans (parse_plainPython hts).symm
    have hlength := congrArg (fun s : String => s.toList.length) htext
    simp only [formulaText, String.toList_ofList] at hlength
    exact (chars_eq_of_length hgrows hlength.le).imp fun _ _ h => Or.inr h

/-- A keyword among some tokens, and the name in its place: renaming reads the second. -/
theorem readings_renamed {f : Token → List Token}
    (hif : ∀ before t after, f .if = before ++ t :: after → t = .if →
      before ++ .iff :: after = f .iff)
    (hiff : ∀ t ∈ f .iff, t ≠ .if) : ∀ {before after : List Token},
      before ++ .if :: after = f .if ∨ before ++ .if :: after = f .iff →
        before ++ .iff :: after = f .if ∨ before ++ .iff :: after = f .iff := by
  rintro before after (h | h)
  · exact Or.inr (hif before _ after h.symm rfl)
  · refine absurd rfl (hiff .if ?_)
    rw [← h]
    exact List.mem_append_right _ (List.mem_cons_self ..)

/-! ### A call and a conditional expression -/

/-- A word, as a token. -/
def Token.named (c : Char) : Token := ⟨.word, [c]⟩

def Token.blank : Token := ⟨.space, [' ']⟩

def Token.comma : Token := ⟨.op, [',']⟩

def Token.closeParen : Token := ⟨.op, [')']⟩

/-- A call of `head`: `if(a,b,c)` or `iff(a,b,c)`. -/
def callTokens (head : Token) : List Token :=
  [head, .openParen, .named 'a', .comma, .named 'b', .comma, .named 'c', .closeParen]

/-- `a if(b) else c`, or with another word for `if`. -/
def conditionalTokens (keyword : Token) : List Token :=
  [.named 'a', .blank, keyword, .openParen, .named 'b', .closeParen, .blank,
    ⟨.word, ['e', 'l', 's', 'e']⟩, .blank, .named 'c']

/-- The tree of `iff(a,b,c)`. -/
def iffTree : Node := helperCall "iff" [.name "a", .name "b", .name "c"]

/-- The tree of `a if(b) else c`. -/
def conditionalTree : Node := .ifExp (.name "b") (.name "a") (.name "c")

/-- The two readings of a call obey the laws. -/
theorem callTokens_laws : TokenizerLaws (plainPython [("iff(a,b,c)", iffTree)])
    fun ts => ts = callTokens .if ∨ ts = callTokens .iff := by
  refine tokenizerLaws_plainPython _ _ ?_ ?_ ?_
  · rintro ts (rfl | rfl)
    · exact forall_split (by decide)
    · exact forall_split (by decide)
  · exact readings_renamed (forall_split (by decide)) (by decide)
  · rintro ts (rfl | rfl) <;> decide

/-- The two readings of a conditional expression obey the laws. -/
theorem conditionalTokens_laws :
    TokenizerLaws (plainPython [("a if(b) else c", conditionalTree)])
      fun ts => ts = conditionalTokens .if ∨ ts = conditionalTokens .iff := by
  refine tokenizerLaws_plainPython _ _ ?_ ?_ ?_
  · rintro ts (rfl | rfl)
    · exact forall_split (by decide)
    · exact forall_split (by decide)
  · exact readings_renamed (forall_split (by decide)) (by decide)
  · rintro ts (rfl | rfl) <;> decide

/-- The call `if(a,b,c)` compiles to a call of `iff` with the same arguments. -/
theorem if_rewrite_iff_call :
    (plainPython [("iff(a,b,c)", iffTree)]).compileFormula (formulaText (callTokens .if)) =
      .ok iffTree := by
  refine (if_rewrite_iff callTokens_laws (Or.inl rfl) rfl).mpr ?_
  exact forall_split (by decide)

/-- **A conditional expression is rewritten**: `a if(b) else c` has a tree, and does not
compile. -/
theorem conditional_rewritten :
    ¬∀ (py : Python) (reads : List Token → Prop), TokenizerLaws py reads →
      ∀ (ts : List Token) (tree : Node), reads ts →
        py.parse (formulaText (rewriteCalls ts)) = .ok tree →
          py.compileFormula (formulaText ts) = .ok tree := by
  intro hclaim
  have hcompiles := hclaim _ _ conditionalTokens_laws (conditionalTokens .if) conditionalTree
    (Or.inl rfl) rfl
  cases hcompiles

end ExtractFlow
