import ExtractFlow.Numerals

/-!
# Texts of floats

What `str` and the format `,.2f` write for a float that was read from a text, and what
the two patterns of the provider read of that.  `str` writes a number that is tiny or huge
with an exponent; the patterns know none, and read what stands in front of it.

## Main definitions

* `NumberText` — a text `float` reads.
* `PlainNumber` — the numbers `str` writes without an exponent.
* `ValueLibrary.FloatTexts` — what is assumed of the texts of floats.
* `amountIn`, `floatIn` — the amount in a text.

## Main results

* `parseNumber_str_iff`, `floatIn_str_iff`, `floatIn_format_iff` — when a number, or an
  amount, is read back from its text.
* `parseCurrencyAmount_str` — an amount is read where the first digit stands.
-/

namespace ExtractFlow

/-! ### What is assumed -/

/-- A text `float` reads: a sign, digits, and digits behind a point. -/
structure NumberText (lib : ValueLibrary) where
  sign : NumeralSign
  whole : List Char
  fraction : List Char
  whole_ne_nil : whole ≠ []
  whole_digits : ∀ c ∈ whole, lib.isDecimal c = true
  fraction_digits : ∀ c ∈ fraction, lib.isDecimal c = true

namespace NumberText

variable {lib : ValueLibrary}

def text (t : NumberText lib) : List Char := t.sign.text ++ (t.whole ++ fractionText t.fraction)

theorem text_ne_nil (t : NumberText lib) : t.text ≠ [] :=
  List.append_ne_nil_of_right_ne_nil _ (List.append_ne_nil_of_left_ne_nil t.whole_ne_nil _)

/-- The float that `float` makes of the text. -/
def float (t : NumberText lib) : PyFloat := lib.parseFloat t.text

/-- Without a sign, and with two decimals at most. -/
def IsAmount (t : NumberText lib) : Prop := t.sign = .absent ∧ t.fraction.length ≤ 2

end NumberText

/-- `str` writes the number without an exponent, as it does for nought and from a ten-thousandth up
to 10^16. -/
def PlainNumber (q : ℚ) : Prop := q = 0 ∨ mkRat 1 10000 ≤ |q| ∧ |q| < 10 ^ 16

/-- What is known of the texts that are written for floats which were read from texts. -/
structure ValueLibrary.FloatTexts (lib : ValueLibrary) : Prop where
  /-- `str` of a number that is plain reads as the number; that of an amount is one. -/
  plain : ∀ (t : NumberText lib) q, t.float = .fin q → PlainNumber q →
    ∃ t' : NumberText lib, (lib.num.str (.float (.fin q))).toList = t'.text ∧
      t'.float = .fin q ∧ (t.IsAmount → t'.IsAmount)
  /-- Another has an exponent, behind a number from one to ten; so is its beginning. -/
  scientific : ∀ (t : NumberText lib) q, t.float = .fin q → ¬ PlainNumber q →
    ∃ (m : NumberText lib) (exponent : List Char),
      (lib.num.str (.float (.fin q))).toList = m.text ++ 'e' :: exponent ∧
      (∀ c ∈ exponent, isPySpace c = false) ∧
      ∀ m' : NumberText lib, m'.whole = m.whole → m'.fraction <+: m.fraction →
        ∃ r, m'.float = .fin r ∧ 1 ≤ |r| ∧ |r| ≤ 10
  /-- `f"{amount:,.2f}"` of an amount is a numeral with two decimals, and reads as the
  amount. -/
  format : ∀ (t : NumberText lib) q, t.float = .fin q → t.IsAmount →
    ∃ n : Numeral lib.digits, (lib.num.formatAmount (.fin q)).toList = n.text ∧
      n.sign = .absent ∧ n.dollar = false ∧ n.decimals.length = 2 ∧
      lib.parseFloat (n.whole ++ fractionText n.decimals) = .fin q
  /-- Other floats have no digits. -/
  nonfinite : ∀ x, (∀ q, x ≠ .fin q) →
    lib.num.str (.float x) ∈ ["inf", "-inf", "nan"] ∧
      lib.num.formatAmount x ∈ ["inf", "-inf", "nan"]

/-! ### Stripped texts -/

section Stripped

variable {lib : ValueLibrary}

theorem pyStrip_idem (s : String) : pyStrip (pyStrip s) = pyStrip s := by
  unfold pyStrip
  rw [String.toList_ofList]
  exact congrArg String.ofList (Trim.trim_idem isPySpace s.toList)

theorem pyStrip_of_forall {s : String} (h : ∀ c ∈ s.toList, isPySpace c = false) :
    pyStrip s = s := by
  rw [pyStrip, stripChars_of_forall h, String.ofList_toList]

theorem stringify_str (s : String) : stringifyLangextractValue lib (.str s) = pyStrip s := rfl

end Stripped

/-! ### Numbers -/

section Numbers

variable {lib : ValueLibrary}

theorem searchFrom_some {α : Type} {matcher : Option Char → List Char → Option α} {a : α} :
    ∀ {cs : List Char} {before : Option Char}, searchFrom matcher before cs = some a →
      ∃ before' cs', matcher before' cs' = some a := by
  intro cs
  induction cs with
  | nil => exact fun h => ⟨_, _, h⟩
  | cons c cs ih =>
    intro before h
    rw [searchFrom] at h
    cases hmatch : matcher before (c :: cs) with
    | some found =>
      rw [hmatch] at h
      exact ⟨before, c :: cs, hmatch.trans h⟩
    | none =>
      rw [hmatch] at h
      exact ih h

/-- The sign of a match is one of three. -/
theorem signOf_cases (cs : List Char) : ∃ sign : NumeralSign, signOf cs = sign.text := by
  cases cs with
  | nil => exact ⟨.absent, rfl⟩
  | cons c cs =>
    unfold signOf
    rw [List.take_succ_cons, List.take_zero, List.takeWhile_cons]
    split
    next h =>
      rcases Bool.or_eq_true_iff.mp h with h | h
      · rw [eq_of_beq h]
        exact ⟨.minus, rfl⟩
      · rw [eq_of_beq h]
        exact ⟨.plus, rfl⟩
    next => exact ⟨.absent, rfl⟩

/-- The digits of a fraction. -/
theorem isDecimal_of_mem_fractionOf (cs : List Char) :
    ∀ c ∈ fractionOf lib.toMockLibrary cs, lib.isDecimal c = true := by
  intro c hc
  unfold fractionOf at hc
  split at hc
  · exact List.mem_takeWhile_imp hc
  · cases hc

/-- What the pattern for numbers matches is the text of a number. -/
theorem numberText_of_match {before : Option Char} {cs found : List Char}
    (h : langExtractNumberMatch lib before cs = some found) :
    ∃ t : NumberText lib, found = t.text := by
  unfold langExtractNumberMatch at h
  dsimp only at h
  split at h
  · cases h
  next hne =>
    obtain ⟨sign, hsign⟩ := signOf_cases cs
    refine ⟨⟨sign, (cs.drop (signOf cs).length).takeWhile lib.isDecimal,
      fractionOf lib.toMockLibrary (cs.drop ((signOf cs).length +
        ((cs.drop (signOf cs).length).takeWhile lib.isDecimal).length)), by simpa using hne,
      fun c hc => List.mem_takeWhile_imp hc, isDecimal_of_mem_fractionOf _⟩, ?_⟩
    rw [← Option.some.inj h, List.append_assoc, NumberText.text, ← hsign]
    rfl

theorem numberText_of_parseNumber {v : PyVal} {x : PyFloat} (h : parseNumber lib v = some x) :
    ∃ t : NumberText lib, t.float = x := by
  obtain ⟨found, hfound, rfl⟩ := Option.map_eq_some_iff.mp h
  obtain ⟨before, cs, hmatch⟩ := searchFrom_some hfound
  obtain ⟨t, rfl⟩ := numberText_of_match hmatch
  exact ⟨t, rfl⟩

/-- The text of a number has no white space. -/
theorem NumberText.isPySpace_of_mem (t : NumberText lib) : ∀ c ∈ t.text, isPySpace c = false := by
  intro c hc
  unfold NumberText.text at hc
  rcases List.mem_append.mp hc with hc | hc
  · exact NumeralSign.isPySpace_of_mem hc
  · rcases List.mem_append.mp hc with hc | hc
    · exact lib.isPySpace_of_isDecimal c (t.whole_digits c hc)
    · unfold fractionText at hc
      split at hc
      · cases hc
      · rcases List.mem_cons.mp hc with rfl | hc
        · decide
        · exact lib.isPySpace_of_isDecimal c (t.fraction_digits c hc)

/-- A fraction ends where a letter that is no digit follows it. -/
theorem fractionOf_fractionText {fraction rest : List Char}
    (hfraction : ∀ c ∈ fraction, lib.isDecimal c = true)
    (hrest : ∀ c ∈ rest.head?, lib.isDecimal c = false ∧ c ≠ '.') :
    fractionOf lib.toMockLibrary (fractionText fraction ++ rest) = fraction := by
  unfold fractionText
  cases fraction with
  | nil =>
    cases rest with
    | nil => rfl
    | cons c rest =>
      have hc := (hrest c rfl).2
      rw [if_pos List.isEmpty_nil, List.nil_append]
      unfold fractionOf
      split
      next heq => exact absurd (List.cons.inj heq).1 hc
      next => rfl
  | cons d fraction =>
    rw [if_neg (by simp)]
    exact takeWhile_decimal hfraction fun c hc => (hrest c hc).1

/-- The head of what stands behind the digits of a number. -/
theorem isDecimal_head_fractionText {fraction rest : List Char}
    (hrest : ∀ c ∈ rest.head?, lib.isDecimal c = false) :
    ∀ c ∈ (fractionText fraction ++ rest).head?, lib.isDecimal c = false := by
  intro c hc
  unfold fractionText at hc
  split at hc
  · exact hrest c hc
  · cases hc
    exact isDecimal_eq_false (by decide) (by decide)

/-- The number at the head of a text. -/
theorem searchFrom_number (t : NumberText lib) {rest : List Char} {before : Option Char}
    (hrest : ∀ c ∈ rest.head?, lib.isDecimal c = false ∧ c ≠ '.') :
    searchFrom (langExtractNumberMatch lib) before (t.text ++ rest) = some t.text := by
  refine searchFrom_of_match ?_
  rw [NumberText.text, List.append_assoc, List.append_assoc,
    langExtractNumberMatch_text t.sign t.whole_ne_nil t.whole_digits
      (isDecimal_head_fractionText fun c hc => (hrest c hc).1),
    fractionOf_fractionText t.fraction_digits hrest]

/-- A text without digits has no number. -/
theorem searchFrom_number_none : ∀ {cs : List Char} {before : Option Char},
    (∀ c ∈ cs, lib.isDecimal c = false) →
      searchFrom (langExtractNumberMatch lib) before cs = none := by
  intro cs
  induction cs with
  | nil => intro before _; rfl
  | cons c cs ih =>
    intro before h
    have hdigits : ((c :: cs).drop (signOf (c :: cs)).length).takeWhile lib.isDecimal = [] := by
      cases hdrop : (c :: cs).drop (signOf (c :: cs)).length with
      | nil => rfl
      | cons d tail =>
        have hmem : d ∈ c :: cs := List.mem_of_mem_drop (hdrop ▸ List.mem_cons_self ..)
        exact List.takeWhile_cons_of_neg (by rw [h d hmem]; decide)
    have hnone : langExtractNumberMatch lib before (c :: cs) = none := by
      unfold langExtractNumberMatch
      dsimp only
      rw [hdigits]
      rfl
    rw [searchFrom, hnone]
    exact ih fun d hd => h d (List.mem_cons_of_mem _ hd)

/-- `str` of a float that is not finite has no digits. -/
theorem no_digits_of_nonfinite (lib : ValueLibrary) {s : String} (h : s ∈ ["inf", "-inf", "nan"]) :
    (∀ c ∈ s.toList, lib.isDecimal c = false) ∧ (∀ c ∈ s.toList, isPySpace c = false) ∧ s ≠ "" := by
  have hascii : ∀ s ∈ ["inf", "-inf", "nan"],
      s.toList.all (fun c => decide (c.toNat < 128 ∧ c.isDigit = false ∧ isPySpace c = false)) =
        true ∧ s ≠ "" := by
    decide
  obtain ⟨hall, hne⟩ := hascii s h
  have hchars : ∀ c ∈ s.toList, c.toNat < 128 ∧ c.isDigit = false ∧ isPySpace c = false :=
    fun c hc => of_decide_eq_true (List.all_eq_true.mp hall c hc)
  exact ⟨fun c hc => isDecimal_eq_false (hchars c hc).1 (hchars c hc).2.1,
    fun c hc => (hchars c hc).2.2, hne⟩

/-- A number from one to ten is plain. -/
theorem plainNumber_of_le {q : ℚ} (hone : 1 ≤ |q|) (hten : |q| ≤ 10) : PlainNumber q := by
  refine Or.inr ⟨le_trans ?_ hone, lt_of_le_of_lt hten ?_⟩
  · decide +kernel
  · norm_num

theorem parseNumber_of_forall {s : String} (h : ∀ c ∈ s.toList, isPySpace c = false) :
    parseNumber lib (.str s) =
      (searchFrom (langExtractNumberMatch lib) none s.toList).map lib.parseFloat := by
  rw [parseNumber, stringify_str, pyStrip_of_forall h]

/-- Behind the exponent nothing is white space, and nothing continues the number. -/
theorem exponent_facts (lib : ValueLibrary) {exponent : List Char}
    (h : ∀ c ∈ exponent, isPySpace c = false) :
    (∀ c ∈ 'e' :: exponent, isPySpace c = false) ∧
      ∀ c ∈ ('e' :: exponent).head?, lib.isDecimal c = false ∧ c ≠ '.' := by
  constructor
  · intro c hc
    rcases List.mem_cons.mp hc with rfl | hc
    · decide
    · exact h c hc
  · intro c hc
    cases hc
    exact ⟨isDecimal_eq_false (by decide) (by decide), by decide⟩

/-- **A number is read back** from its text just in case it is finite, and plain. -/
theorem parseNumber_str_iff (h : lib.FloatTexts) {t : NumberText lib} {x : PyFloat}
    (hx : t.float = x) :
    parseNumber lib (.str (lib.num.str (.float x))) = some x ↔
      ∃ q, x = .fin q ∧ PlainNumber q := by
  by_cases hfinite : ∃ q, x = .fin q
  · obtain ⟨q, rfl⟩ := hfinite
    by_cases hplain : PlainNumber q
    · obtain ⟨t', htext, hfloat, -⟩ := h.plain t q hx hplain
      have hnumber : searchFrom (langExtractNumberMatch lib) none (t'.text ++ []) = some t'.text :=
        searchFrom_number t' fun c hc => by cases hc
      rw [List.append_nil] at hnumber
      rw [parseNumber_of_forall (by rw [htext]; exact t'.isPySpace_of_mem), htext, hnumber]
      exact iff_of_true (congrArg some hfloat) ⟨q, rfl, hplain⟩
    · -- the number in front of the exponent is read
      obtain ⟨m, exponent, htext, hspace, hread⟩ := h.scientific t q hx hplain
      obtain ⟨hspaces, hstop⟩ := exponent_facts lib hspace
      have hchars : ∀ c ∈ (lib.num.str (.float (.fin q))).toList, isPySpace c = false := by
        rw [htext]
        intro c hc
        rcases List.mem_append.mp hc with hc | hc
        · exact m.isPySpace_of_mem c hc
        · exact hspaces c hc
      obtain ⟨r, hr, hone, hten⟩ := hread m rfl (List.prefix_refl _)
      rw [parseNumber_of_forall hchars, htext, searchFrom_number m hstop]
      refine iff_of_false ?_ ?_
      · intro heq
        have hrq : PyFloat.fin r = .fin q := hr.symm.trans (Option.some.inj heq)
        obtain rfl := PyFloat.fin.inj hrq
        exact hplain (plainNumber_of_le hone hten)
      · rintro ⟨q', hq', hplain'⟩
        obtain rfl := PyFloat.fin.inj hq'
        exact hplain hplain'
  · have hnot : ∀ q, x ≠ .fin q := fun q hq => hfinite ⟨q, hq⟩
    obtain ⟨hdigits, hspaces, -⟩ := no_digits_of_nonfinite lib (h.nonfinite x hnot).1
    rw [parseNumber_of_forall hspaces, searchFrom_number_none hdigits]
    refine iff_of_false ?_ fun ⟨q, hq, _⟩ => hnot q hq
    intro heq
    cases heq

end Numbers

/-! ### Amounts -/

section Amounts

variable {lib : ValueLibrary}

/-- The letters of the amount in a text: it begins at the first digit. -/
def amountIn (lib : ValueLibrary) (cs : List Char) : Option (List Char) :=
  amountAt lib.toMockLibrary (cs.dropWhile fun c => !lib.isDecimal c)

/-- The letter cannot continue an amount. -/
def EndsAmount (lib : ValueLibrary) (c : Char) : Prop :=
  lib.isDecimal c = false ∧ c ≠ ',' ∧ c ≠ '.'

theorem endsAmount_of_isPySpace {c : Char} (h : isPySpace c = true) : EndsAmount lib c := by
  refine ⟨isDecimal_of_isPySpace h, ?_, ?_⟩
  · rintro rfl
    exact absurd h (by decide)
  · rintro rfl
    exact absurd h (by decide)

theorem amountIn_skip {pre cs : List Char} (h : ∀ c ∈ pre, lib.isDecimal c = false) :
    amountIn lib (pre ++ cs) = amountIn lib cs := by
  rw [amountIn, dropWhile_append_of_not_decimal h]
  rfl

theorem amountIn_none {cs : List Char} (h : ∀ c ∈ cs, lib.isDecimal c = false) :
    amountIn lib cs = none := by
  have hskip : amountIn lib (cs ++ []) = amountIn lib [] := amountIn_skip h
  rw [List.append_nil] at hskip
  rw [hskip]
  rfl

/-- At a digit the amount begins. -/
theorem amountIn_of_decimal {d : Char} {tail : List Char} (hd : lib.isDecimal d = true) :
    amountIn lib (d :: tail) = amountAt lib.toMockLibrary (d :: tail) := by
  rw [amountIn, List.dropWhile_cons_of_neg (by rw [hd]; decide)]

theorem centsOf_of_ne {c : Char} {cs : List Char} (h : c ≠ '.') :
    centsOf lib.toMockLibrary (c :: cs) = [] := by
  unfold centsOf
  split
  next heq => exact absurd (List.cons.inj heq).1 h
  next => rfl

theorem centsOf_append {cs rest : List Char} (h : ∀ c ∈ rest.head?, EndsAmount lib c) :
    centsOf lib.toMockLibrary (cs ++ rest) = centsOf lib.toMockLibrary cs := by
  have hdigits : (rest.take 1).takeWhile lib.isDecimal = [] := by
    cases rest with
    | nil => rfl
    | cons r rest => exact List.takeWhile_cons_of_neg (by rw [(h r rfl).1]; decide)
  cases cs with
  | nil =>
    cases rest with
    | nil => rfl
    | cons r rest => exact centsOf_of_ne (h r rfl).2.2
  | cons c cs =>
    -- only a point can begin the cents; what is behind the text adds no digit to them
    by_cases hc : c = '.'
    · subst hc
      cases cs with
      | nil =>
        cases rest with
        | nil => rfl
        | cons r rest => exact if_neg (by rw [(h r rfl).1]; decide)
      | cons d cs =>
        cases cs with
        | nil =>
          rw [List.cons_append, List.cons_append, List.nil_append, centsOf, centsOf, hdigits]
          rfl
        | cons e cs => rfl
    · rw [List.cons_append, centsOf_of_ne hc, centsOf_of_ne hc]

theorem takeWhile_append_stop {p : Char → Bool} {rest : List Char}
    (h : ∀ c ∈ rest.head?, p c = false) :
    ∀ tail : List Char, (tail ++ rest).takeWhile p = tail.takeWhile p := by
  intro tail
  induction tail with
  | nil =>
    cases rest with
    | nil => rfl
    | cons r rest => exact List.takeWhile_cons_of_neg (by rw [h r rfl]; decide)
  | cons c tail ih => rw [List.cons_append, List.takeWhile_cons, List.takeWhile_cons, ih]

/-- What cannot continue an amount is not read. -/
theorem amountAt_append {d : Char} {tail rest : List Char}
    (h : ∀ c ∈ rest.head?, EndsAmount lib c) :
    amountAt lib.toMockLibrary (d :: (tail ++ rest)) = amountAt lib.toMockLibrary (d :: tail) := by
  have htake : (tail ++ rest).takeWhile (fun c => lib.isDecimal c || c == ',') =
      tail.takeWhile fun c => lib.isDecimal c || c == ',' := by
    refine takeWhile_append_stop (fun c hc => ?_) tail
    obtain ⟨hdecimal, hcomma, -⟩ := h c hc
    rw [hdecimal, Bool.false_or]
    simpa using hcomma
  have hle : (tail.takeWhile fun c => lib.isDecimal c || c == ',').length ≤ tail.length :=
    (List.takeWhile_prefix _).length_le
  rw [amountAt, amountAt, htake, List.drop_append_of_le_length hle, centsOf_append h]

/-- The first digit, where there is one. -/
theorem dropWhile_of_digit {cs : List Char} (hdigit : ∃ c ∈ cs, lib.isDecimal c = true) :
    ∃ d tail, cs.dropWhile (fun c => !lib.isDecimal c) = d :: tail ∧ lib.isDecimal d = true := by
  cases hdrop : cs.dropWhile (fun c => !lib.isDecimal c) with
  | nil =>
    obtain ⟨c, hc, hdecimal⟩ := hdigit
    have hnone := List.dropWhile_eq_nil_iff.mp hdrop c hc
    rw [hdecimal] at hnone
    cases hnone
  | cons d tail =>
    have hhead := List.head_dropWhile_not (fun c => !lib.isDecimal c)
      (hdrop ▸ List.cons_ne_nil d tail)
    simp only [hdrop, List.head_cons, Bool.not_eq_false'] at hhead
    exact ⟨d, tail, rfl, hhead⟩

theorem amountIn_append {cs rest : List Char} (hdigit : ∃ c ∈ cs, lib.isDecimal c = true)
    (h : ∀ c ∈ rest.head?, EndsAmount lib c) : amountIn lib (cs ++ rest) = amountIn lib cs := by
  obtain ⟨d, tail, hdrop, -⟩ := dropWhile_of_digit hdigit
  have hne : ¬ (cs.dropWhile fun c => !lib.isDecimal c).isEmpty = true := by
    rw [hdrop]
    exact Bool.false_ne_true
  rw [amountIn, amountIn, List.dropWhile_append, if_neg hne, hdrop]
  exact amountAt_append h

/-- White space at the ends of a text has no part in its amount. -/
theorem amountIn_strip (cs : List Char) : amountIn lib (stripChars cs) = amountIn lib cs := by
  obtain ⟨pre, post, hsplit, hpre, hpost⟩ := Trim.trim_split isPySpace cs
  change cs = pre ++ stripChars cs ++ post at hsplit
  have hpre' : ∀ c ∈ pre, lib.isDecimal c = false := fun c hc => isDecimal_of_isPySpace (hpre c hc)
  have hpost' : ∀ c ∈ post, lib.isDecimal c = false :=
    fun c hc => isDecimal_of_isPySpace (hpost c hc)
  by_cases hdigit : ∃ c ∈ stripChars cs, lib.isDecimal c = true
  · have hends : ∀ c ∈ post.head?, EndsAmount lib c :=
      fun c hc => endsAmount_of_isPySpace (hpost c (List.mem_of_mem_head? hc))
    have hwhole := congrArg (amountIn lib) hsplit
    rw [List.append_assoc, amountIn_skip hpre', amountIn_append hdigit hends] at hwhole
    exact hwhole.symm
  · have hnone : ∀ c ∈ stripChars cs, lib.isDecimal c = false := fun c hc => by
      by_contra hdecimal
      exact hdigit ⟨c, hc, by simpa using hdecimal⟩
    have hwhole : ∀ c ∈ cs, lib.isDecimal c = false := by
      intro c hc
      rw [hsplit, List.mem_append, List.mem_append] at hc
      rcases hc with (hc | hc) | hc
      · exact hpre' c hc
      · exact hnone c hc
      · exact hpost' c hc
    rw [amountIn_none hnone, amountIn_none hwhole]

/-- The amount in a text, as a float without its commas. -/
def floatIn (lib : ValueLibrary) (cs : List Char) : Option PyFloat :=
  (amountIn lib cs).map fun amount => lib.parseFloat (amount.filter (· != ','))

/-- **What is read of a text** is the amount that stands in it, wherever it starts. -/
theorem parseCurrencyAmount_str (s : String) :
    parseCurrencyAmount lib (.str s) = floatIn lib s.toList := by
  rw [parseCurrencyAmount, stringify_str, searchFrom_currency, pyStrip, String.toList_ofList]
  exact congrArg (Option.map _) (amountIn_strip s.toList)

/-- The cents of an amount are two decimals at most. -/
theorem centsOf_cases (lib : ValueLibrary) (cs : List Char) : ∃ fraction : List Char,
    fraction.length ≤ 2 ∧ (∀ c ∈ fraction, lib.isDecimal c = true) ∧
      centsOf lib.toMockLibrary cs = fractionText fraction := by
  unfold centsOf
  split
  next d rest =>
    split
    next hd =>
      refine ⟨d :: (rest.take 1).takeWhile lib.isDecimal, ?_, ?_, rfl⟩
      · have hlength := (List.takeWhile_prefix lib.isDecimal (l := rest.take 1)).length_le
        rw [List.length_take] at hlength
        rw [List.length_cons]
        omega
      · intro c hc
        rcases List.mem_cons.mp hc with rfl | hc
        · exact hd
        · exact List.mem_takeWhile_imp hc
    next => exact ⟨[], Nat.zero_le _, fun c hc => (by cases hc), rfl⟩
  next => exact ⟨[], Nat.zero_le _, fun c hc => (by cases hc), rfl⟩

/-- An amount that is read is that of a text with two decimals at most. -/
theorem numberText_of_parseCurrencyAmount {v : PyVal} {x : PyFloat}
    (h : parseCurrencyAmount lib v = some x) :
    ∃ t : NumberText lib, t.IsAmount ∧ t.float = x := by
  obtain ⟨amount, hamount, rfl⟩ := Option.map_eq_some_iff.mp h
  rw [searchFrom_currency] at hamount
  cases hdrop : (stringifyLangextractValue lib v).toList.dropWhile
      (fun c => !lib.isDecimal c) with
  | nil =>
    rw [hdrop] at hamount
    cases hamount
  | cons d tail =>
    have hd : lib.isDecimal d = true := by
      have hhead := List.head_dropWhile_not (fun c => !lib.isDecimal c)
        (hdrop ▸ List.cons_ne_nil d tail)
      simpa only [hdrop, List.head_cons, Bool.not_eq_false'] using hhead
    rw [hdrop, amountAt] at hamount
    obtain rfl := Option.some.inj hamount
    obtain ⟨fraction, hlength, hfraction, hcents⟩ := centsOf_cases lib
      (tail.drop (tail.takeWhile fun c => lib.isDecimal c || c == ',').length)
    have hcomma : d ≠ ',' := by
      rintro rfl
      rw [isDecimal_eq_false (by decide) (by decide)] at hd
      cases hd
    -- without the commas, digits and cents are the text of a number
    have htext : (d :: (tail.takeWhile fun c => lib.isDecimal c || c == ',') ++
        centsOf lib.toMockLibrary (tail.drop (tail.takeWhile fun c =>
          lib.isDecimal c || c == ',').length)).filter (· != ',') =
        (d :: tail.takeWhile fun c => lib.isDecimal c || c == ',').filter (· != ',') ++
          fractionText fraction := by
      rw [hcents, List.filter_append, filter_fractionText hfraction]
    refine ⟨⟨.absent, (d :: tail.takeWhile fun c => lib.isDecimal c || c == ',').filter (· != ','),
      fraction, ?_, ?_, hfraction⟩, ⟨rfl, hlength⟩, congrArg lib.parseFloat htext.symm⟩
    · rw [List.filter_cons_of_pos (by simpa using hcomma)]
      exact List.cons_ne_nil _ _
    · intro c hc
      obtain ⟨hmem, hne⟩ := List.mem_filter.mp hc
      rcases List.mem_cons.mp hmem with rfl | hmem
      · exact hd
      · have hclass := List.mem_takeWhile_imp hmem
        rcases Bool.or_eq_true_iff.mp hclass with hdecimal | hcomma
        · exact hdecimal
        · rw [eq_of_beq hcomma] at hne
          exact absurd hne (by decide)

/-- The amount in the text of a number: its digits, and two decimals of it at most. -/
theorem amountIn_numberText (t : NumberText lib) {rest : List Char}
    (h : ∀ c ∈ rest.head?, EndsAmount lib c) :
    amountIn lib (t.text ++ rest) = some (t.whole ++ fractionText (t.fraction.take 2)) := by
  have hsign : ∀ c ∈ t.sign.text, lib.isDecimal c = false :=
    fun c hc => isDecimal_of_sign (NumeralSign.isSign_of_mem hc)
  obtain ⟨d, tail, hwhole⟩ := List.exists_cons_of_ne_nil t.whole_ne_nil
  have hd : lib.isDecimal d = true := t.whole_digits d (by rw [hwhole]; exact List.mem_cons_self ..)
  have htail : ∀ c ∈ tail, (lib.isDecimal c || c == ',') = true := by
    intro c hc
    rw [t.whole_digits c (by rw [hwhole]; exact List.mem_cons_of_mem _ hc)]
    rfl
  have hstop : ∀ c ∈ (fractionText t.fraction).head?, (lib.isDecimal c || c == ',') = false := by
    intro c hc
    unfold fractionText at hc
    split at hc
    · cases hc
    · cases hc
      rw [isDecimal_eq_false (by decide) (by decide)]
      decide
  -- the digits end at the point, or with the text
  have htake : (tail ++ fractionText t.fraction).takeWhile
      (fun c => lib.isDecimal c || c == ',') = tail := by
    rw [takeWhile_append_stop hstop, List.takeWhile_eq_self_iff.mpr htail]
  have hcents : centsOf lib.toMockLibrary (fractionText t.fraction) =
      fractionText (t.fraction.take 2) := by
    by_cases hempty : t.fraction = []
    · rw [hempty]
      rfl
    · have hpoint : fractionText t.fraction = '.' :: t.fraction := if_neg (by simpa using hempty)
      rw [hpoint, centsOf_point t.fraction_digits]
  rw [NumberText.text, List.append_assoc, amountIn_skip hsign, hwhole, List.append_assoc,
    List.cons_append, amountIn_of_decimal hd, ← List.append_assoc, amountAt_append h, amountAt]
  rw [htake, List.drop_left, hcents, List.cons_append]

/-- The amount in the text of a number, up to its second decimal. -/
theorem floatIn_numberText {t m : NumberText lib} {rest : List Char}
    (h : ∀ c ∈ rest.head?, EndsAmount lib c) (hsign : m.sign = .absent)
    (hwhole : m.whole = t.whole) (hfraction : m.fraction = t.fraction.take 2) :
    floatIn lib (t.text ++ rest) = some m.float := by
  have htext : (m.whole ++ fractionText m.fraction).filter (· != ',') = m.text := by
    rw [List.filter_append, filter_of_digits m.whole_digits, filter_fractionText m.fraction_digits,
      NumberText.text, hsign]
    rfl
  rw [floatIn, amountIn_numberText t h, ← hwhole, ← hfraction, Option.map_some, htext]
  rfl

/-- **An amount is read back from `str`** just in case it is finite, and plain. -/
theorem floatIn_str_iff (h : lib.FloatTexts) {t : NumberText lib} {x : PyFloat}
    (ht : t.IsAmount) (hx : t.float = x) :
    floatIn lib (lib.num.str (.float x)).toList = some x ↔ ∃ q, x = .fin q ∧ PlainNumber q := by
  by_cases hfinite : ∃ q, x = .fin q
  · obtain ⟨q, rfl⟩ := hfinite
    by_cases hplain : PlainNumber q
    · obtain ⟨t', htext, hfloat, hamount⟩ := h.plain t q hx hplain
      obtain ⟨hsign, hlength⟩ := hamount ht
      have hread : floatIn lib (t'.text ++ []) = some t'.float :=
        floatIn_numberText (fun c hc => by cases hc) hsign rfl
          (List.take_of_length_le hlength).symm
      rw [List.append_nil] at hread
      rw [htext, hread, hfloat]
      exact iff_of_true rfl ⟨q, rfl, hplain⟩
    · obtain ⟨m, exponent, htext, hspace, hread⟩ := h.scientific t q hx hplain
      have hends : ∀ c ∈ ('e' :: exponent).head?, EndsAmount lib c := by
        intro c hc
        cases hc
        exact ⟨isDecimal_eq_false (by decide) (by decide), by decide, by decide⟩
      -- what is read stands in front of the exponent
      let m' : NumberText lib :=
        ⟨.absent, m.whole, m.fraction.take 2, m.whole_ne_nil, m.whole_digits,
          fun c hc => m.fraction_digits c (List.mem_of_mem_take hc)⟩
      obtain ⟨r, hr, hone, hten⟩ := hread m' rfl (List.take_prefix _ _)
      have hfloat : floatIn lib (m.text ++ 'e' :: exponent) = some m'.float :=
        floatIn_numberText hends rfl rfl rfl
      rw [htext, hfloat, hr]
      refine iff_of_false ?_ ?_
      · intro heq
        obtain rfl := PyFloat.fin.inj (Option.some.inj heq)
        exact hplain (plainNumber_of_le hone hten)
      · rintro ⟨q', hq', hplain'⟩
        obtain rfl := PyFloat.fin.inj hq'
        exact hplain hplain'
  · have hnot : ∀ q, x ≠ .fin q := fun q hq => hfinite ⟨q, hq⟩
    obtain ⟨hdigits, -, -⟩ := no_digits_of_nonfinite lib (h.nonfinite x hnot).1
    rw [floatIn, amountIn_none hdigits]
    refine iff_of_false ?_ fun ⟨q, hq, _⟩ => hnot q hq
    intro heq
    cases heq

/-- **An amount is read back from its format** just in case it is finite. -/
theorem floatIn_format_iff (h : lib.FloatTexts) {t : NumberText lib} {x : PyFloat}
    (ht : t.IsAmount) (hx : t.float = x) :
    floatIn lib (lib.num.formatAmount x).toList = some x ↔ ∃ q, x = .fin q := by
  by_cases hfinite : ∃ q, x = .fin q
  · obtain ⟨q, rfl⟩ := hfinite
    obtain ⟨n, htext, -, -, hlength, hfloat⟩ := h.format t q hx ht
    refine iff_of_true ?_ ⟨q, rfl⟩
    rw [htext, floatIn, amountIn, dropWhile_numeral, amountAt_numeral, Option.map_some,
      filter_commas, List.take_of_length_le (le_of_eq hlength), hfloat]
  · have hnot : ∀ q, x ≠ .fin q := fun q hq => hfinite ⟨q, hq⟩
    obtain ⟨hdigits, -, -⟩ := no_digits_of_nonfinite lib (h.nonfinite x hnot).2
    rw [floatIn, amountIn_none hdigits]
    refine iff_of_false ?_ hfinite
    intro heq
    cases heq

/-- `str` of a number is not empty. -/
theorem str_ne_empty (h : lib.FloatTexts) {t : NumberText lib} {x : PyFloat}
    (hx : t.float = x) : lib.num.str (.float x) ≠ "" := by
  have hne : ∀ {s : String}, s.toList ≠ [] → s ≠ "" := by
    rintro s hs rfl
    exact hs rfl
  by_cases hfinite : ∃ q, x = .fin q
  · obtain ⟨q, rfl⟩ := hfinite
    by_cases hplain : PlainNumber q
    · obtain ⟨t', htext, -⟩ := h.plain t q hx hplain
      exact hne (by rw [htext]; exact t'.text_ne_nil)
    · obtain ⟨m, exponent, htext, -⟩ := h.scientific t q hx hplain
      exact hne (by rw [htext]; exact List.append_ne_nil_of_left_ne_nil m.text_ne_nil _)
  · have hstr := (h.nonfinite x fun q hq => hfinite ⟨q, hq⟩).1
    exact (no_digits_of_nonfinite lib hstr).2.2

/-- The format of an amount is not blank. -/
theorem format_not_blank (h : lib.FloatTexts) {t : NumberText lib} {x : PyFloat}
    (ht : t.IsAmount) (hx : t.float = x) :
    ∃ c ∈ (lib.num.formatAmount x).toList, isPySpace c = false := by
  by_cases hfinite : ∃ q, x = .fin q
  · obtain ⟨q, rfl⟩ := hfinite
    obtain ⟨n, htext, -⟩ := h.format t q hx ht
    obtain ⟨c, cs, hcons⟩ := List.exists_cons_of_ne_nil n.text_ne_nil
    have hmem : c ∈ n.text := by
      rw [hcons]
      exact List.mem_cons_self ..
    exact ⟨c, htext ▸ hmem, isPySpace_of_mem_text n c hmem⟩
  · have hformat := (h.nonfinite x fun q hq => hfinite ⟨q, hq⟩).2
    obtain ⟨-, hspaces, hne⟩ := no_digits_of_nonfinite lib hformat
    cases hcs : (lib.num.formatAmount x).toList with
    | nil => exact absurd (String.toList_eq_nil_iff.mp hcs) hne
    | cons c cs => exact ⟨c, List.mem_cons_self .., hspaces c (hcs ▸ List.mem_cons_self ..)⟩

end Amounts

end ExtractFlow
