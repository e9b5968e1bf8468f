import Mathlib.Tactic.FieldSimp
import Mathlib.Tactic.Positivity
import ExtractFlow.LangExtractValues
import ExtractFlow.Lib.Trim

/-!
# Numerals

How faithfully `parse_number` and `parse_currency_amount` read a numeral: a sign, for an
amount a dollar sign, digits with commas between the thousands, and a fraction.

The two patterns treat the parts of a numeral differently.  The one for numbers knows no
commas, and reads what stands before the first; the one for amounts drops the sign and all
but two decimals.  Floats are taken for the rationals that are written.

## Main definitions

* `Numeral`, `Numeral.text`, `Numeral.value` — numerals, and what they denote.
* `ValueLibrary.ReadsDecimals` — `float` reads what is written.

## Main results

* `parseNumber_numeral`, `parseCurrencyAmount_numeral` — what is read.
* `numerals_read_iff` — when it is the number that is written.
-/

namespace ExtractFlow

/-! ### Numerals and their values -/

/-- The sign of a numeral, which may be left out. -/
inductive NumeralSign where
  | absent | plus | minus
  deriving DecidableEq, Repr

namespace NumeralSign

/-- The sign as it is written, which for an absent one is nothing. -/
def text : NumeralSign → List Char
  | .absent => []
  | .plus => ['+']
  | .minus => ['-']

theorem isSign_of_mem {sign : NumeralSign} {c : Char} (h : c ∈ sign.text) :
    (c == '-' || c == '+') = true := by
  cases sign with
  | absent => cases h
  | plus =>
    rw [List.mem_singleton.mp h]
    rfl
  | minus =>
    rw [List.mem_singleton.mp h]
    rfl

theorem isPySpace_of_mem {sign : NumeralSign} {c : Char} (h : c ∈ sign.text) :
    isPySpace c = false := by
  rcases Bool.or_eq_true_iff.mp (isSign_of_mem h) with hc | hc
  · rw [eq_of_beq hc]
    decide
  · rw [eq_of_beq hc]
    decide

/-- What the sign multiplies the number with. -/
def factor : NumeralSign → ℚ
  | .minus => -1
  | _ => 1

end NumeralSign

/-- The number of digits before and after the point. -/
def decimalValue (digits : DecimalDigits) (whole fraction : List Char) : ℚ :=
  digits.number whole + digits.number fraction / 10 ^ fraction.length

/-- A fraction with its point, if it has digits. -/
def fractionText (fraction : List Char) : List Char :=
  if fraction.isEmpty then [] else '.' :: fraction

/-- A numeral: its digits are in groups if there are commas, of three digits behind the
first. -/
structure Numeral (digits : DecimalDigits) where
  sign : NumeralSign
  dollar : Bool
  first : List Char
  groups : List (List Char)
  /-- The digits behind the point, if there is one. -/
  fraction : Option (List Char)
  first_ne_nil : first ≠ []
  first_digits : ∀ c ∈ first, digits.isDecimal c = true
  group_digits : ∀ group ∈ groups, group.length = 3 ∧ ∀ c ∈ group, digits.isDecimal c = true
  first_length : groups ≠ [] → first.length ≤ 3
  fraction_digits : ∀ c ∈ fraction.getD [], digits.isDecimal c = true

namespace Numeral

variable {digits : DecimalDigits}

/-- The digits before the point. -/
def whole (n : Numeral digits) : List Char := n.first ++ n.groups.flatten

/-- The decimals. -/
def decimals (n : Numeral digits) : List Char := n.fraction.getD []

/-- The numeral as it is written: sign, dollar sign, the first digits, the groups behind their
commas, and the fraction behind its point. -/
def text (n : Numeral digits) : List Char :=
  n.sign.text ++ ((if n.dollar then ['$'] else []) ++
    (n.first ++ (n.groups.flatMap (',' :: ·) ++ (n.fraction.map ('.' :: ·)).getD [])))

/-- The number it denotes, without the sign. -/
def magnitude (n : Numeral digits) : ℚ := decimalValue digits n.whole n.decimals

/-- **The number it denotes**, in which neither the commas nor the dollar sign count. -/
def value (n : Numeral digits) : ℚ := n.sign.factor * n.magnitude

end Numeral

/-- `float` of a decimal text is the number that is written: the rounding of floats is left out. -/
structure ValueLibrary.ReadsDecimals (lib : ValueLibrary) : Prop where
  parseFloat_eq : ∀ (sign : NumeralSign) (whole fraction : List Char), whole ≠ [] →
    (∀ c ∈ whole, lib.isDecimal c = true) → (∀ c ∈ fraction, lib.isDecimal c = true) →
      lib.parseFloat (sign.text ++ (whole ++ fractionText fraction)) =
        .fin (sign.factor * decimalValue lib.digits whole fraction)

/-! ### Sums of digits -/

section Digits

variable {digits : DecimalDigits}

theorem number_append (a b : List Char) :
    digits.number (a ++ b) = digits.number a * 10 ^ b.length + digits.number b := by
  have hfold : ∀ (cs : List Char) (start : ℕ),
      cs.foldl (fun n c => 10 * n + (digits.value c).getD 0) start =
        start * 10 ^ cs.length + digits.number cs := by
    intro cs
    induction cs with
    | nil => intro start; simp [DecimalDigits.number]
    | cons c cs ih =>
      intro start
      have hnumber : digits.number (c :: cs) =
          (10 * 0 + (digits.value c).getD 0) * 10 ^ cs.length + digits.number cs := ih _
      rw [List.foldl_cons, ih, hnumber, List.length_cons, pow_succ]
      ring
  rw [DecimalDigits.number, List.foldl_append]
  exact hfold b _

theorem decimalValue_nonneg (whole fraction : List Char) :
    0 ≤ decimalValue digits whole fraction := by
  unfold decimalValue
  positivity

/-- The value with fewer decimals is less by those that are left out. -/
theorem decimalValue_append (whole a b : List Char) :
    decimalValue digits whole (a ++ b) =
      decimalValue digits whole a + digits.number b / 10 ^ (a ++ b).length := by
  unfold decimalValue
  rw [number_append, List.length_append, pow_add]
  push_cast
  field_simp
  ring

/-- Leaving out digits at the end of the whole part and all decimals keeps the value only
of nought. -/
theorem decimalValue_prefix_eq_iff {first rest fraction : List Char} (hrest : rest ≠ []) :
    decimalValue digits first [] = decimalValue digits (first ++ rest) fraction ↔
      decimalValue digits (first ++ rest) fraction = 0 := by
  -- each digit left out makes the rest ten times as much
  have hsum : decimalValue digits (first ++ rest) fraction =
      digits.number first * 10 ^ rest.length +
        (digits.number rest + digits.number fraction / 10 ^ fraction.length) := by
    unfold decimalValue
    rw [number_append]
    push_cast
    ring
  have hfirst : decimalValue digits first [] = digits.number first := by
    simp [decimalValue, DecimalDigits.number]
  have hpos : (0 : ℚ) ≤ digits.number rest + digits.number fraction / 10 ^ fraction.length := by
    positivity
  have hnonneg : (0 : ℚ) ≤ digits.number first := by positivity
  have hten : (10 : ℚ) ≤ 10 ^ rest.length := by
    have hlength : 1 ≤ rest.length := List.length_pos_iff.mpr hrest
    calc (10 : ℚ) = 10 ^ 1 := (pow_one _).symm
      _ ≤ 10 ^ rest.length := pow_le_pow_right₀ (by norm_num) hlength
  rw [hsum, hfirst]
  constructor
  · intro heq
    have hzero : (digits.number first : ℚ) = 0 := by
      have hmul : (digits.number first : ℚ) * 10 ≤ digits.number first * 10 ^ rest.length :=
        mul_le_mul_of_nonneg_left hten hnonneg
      linarith
    rw [hzero] at heq ⊢
    linarith
  · intro heq
    have hmul : (0 : ℚ) ≤ digits.number first * 10 ^ rest.length := by positivity
    have hzero : (digits.number first : ℚ) * 10 ^ rest.length = 0 := by linarith
    have hten0 : (10 : ℚ) ^ rest.length ≠ 0 := by positivity
    rw [heq]
    exact (mul_eq_zero.mp hzero).resolve_right hten0

end Digits

/-! ### Reading a numeral -/

section Reading

variable {lib : ValueLibrary}

theorem stripChars_of_forall {cs : List Char} (h : ∀ c ∈ cs, isPySpace c = false) :
    stripChars cs = cs := by
  refine Trim.trim_of_trimmed ⟨fun c rest hcs => ?_, fun init c hcs => ?_⟩
  · exact h c (by simp [hcs])
  · exact h c (by simp [hcs])

/-- The text of a value that is a text without white space. -/
theorem stringify_of_forall {cs : List Char} (h : ∀ c ∈ cs, isPySpace c = false) :
    (stringifyLangextractValue lib (.str (String.ofList cs))).toList = cs := by
  have hstrip : stringifyLangextractValue lib (.str (String.ofList cs)) =
      String.ofList (stripChars (String.ofList cs).toList) := rfl
  rw [hstrip, String.toList_ofList, String.toList_ofList, stripChars_of_forall h]

theorem searchFrom_of_match {α : Type} {matcher : Option Char → List Char → Option α}
    {before : Option Char} {cs : List Char} {a : α} (h : matcher before cs = some a) :
    searchFrom matcher before cs = some a := by
  cases cs with
  | nil => exact h
  | cons c cs => rw [searchFrom, h]

/-- A numeral has no white space, so trimming it changes nothing. -/
theorem isPySpace_of_mem_text (n : Numeral lib.digits) : ∀ c ∈ n.text, isPySpace c = false := by
  have hdigit : ∀ c, lib.digits.isDecimal c = true → isPySpace c = false := fun c hc =>
    lib.isPySpace_of_isDecimal c (by rw [lib.isDecimal_eq]; exact hc)
  intro c hc
  unfold Numeral.text at hc
  simp only [List.mem_append] at hc
  -- The sign, the dollar, the first digits, the groups behind commas, the decimals.
  rcases hc with hc | hc | hc | hc | hc
  · exact NumeralSign.isPySpace_of_mem hc
  · split at hc
    · rw [List.mem_singleton.mp hc]
      decide
    · cases hc
  · exact hdigit c (n.first_digits c hc)
  · obtain ⟨group, hgroup, hc⟩ := List.mem_flatMap.mp hc
    rcases List.mem_cons.mp hc with rfl | hc
    · decide
    · exact hdigit c ((n.group_digits group hgroup).2 c hc)
  · cases hfraction : n.fraction with
    | none =>
      rw [hfraction] at hc
      cases hc
    | some fraction =>
      rw [hfraction] at hc
      rcases List.mem_cons.mp hc with rfl | hc
      · decide
      · have hdigits := n.fraction_digits
        rw [hfraction] at hdigits
        exact hdigit c (hdigits c hc)

/-- The sign in front of a digit. -/
theorem signOf_text (sign : NumeralSign) {d : Char} {tail : List Char}
    (hd : lib.isDecimal d = true) : signOf (sign.text ++ d :: tail) = sign.text := by
  cases sign with
  | absent => exact signOf_of_decimal hd
  | plus => rfl
  | minus => rfl

theorem takeWhile_decimal {cs rest : List Char} (hcs : ∀ c ∈ cs, lib.isDecimal c = true)
    (hrest : ∀ c ∈ rest.head?, lib.isDecimal c = false) :
    (cs ++ rest).takeWhile lib.isDecimal = cs := by
  rw [List.takeWhile_append_of_pos hcs]
  cases rest with
  | nil => simp
  | cons c rest =>
    rw [List.takeWhile_cons_of_neg (by rw [hrest c rfl]; decide), List.append_nil]

/-- What the pattern for numbers matches at the head of a text. -/
theorem langExtractNumberMatch_text (sign : NumeralSign) {whole rest : List Char}
    {before : Option Char} (hne : whole ≠ []) (hwhole : ∀ c ∈ whole, lib.isDecimal c = true)
    (hrest : ∀ c ∈ rest.head?, lib.isDecimal c = false) :
    langExtractNumberMatch lib before (sign.text ++ (whole ++ rest)) =
      some (sign.text ++ (whole ++ fractionText (fractionOf lib.toMockLibrary rest))) := by
  have hsign : signOf (sign.text ++ (whole ++ rest)) = sign.text := by
    cases whole with
    | nil => exact absurd rfl hne
    | cons d whole => exact signOf_text sign (hwhole d (List.mem_cons_self ..))
  unfold langExtractNumberMatch
  dsimp only
  rw [hsign, List.drop_left, takeWhile_decimal hwhole hrest, ← List.drop_drop, List.drop_left,
    List.drop_left, if_neg (by simpa using hne), List.append_assoc]
  rfl

/-- Without the dollar sign. -/
theorem Numeral.text_of_not_dollar {n : Numeral lib.digits} (h : n.dollar = false) :
    n.text = n.sign.text ++ (n.first ++
      (n.groups.flatMap (',' :: ·) ++ (n.fraction.map ('.' :: ·)).getD [])) := by
  unfold Numeral.text
  rw [h]
  rfl

theorem Numeral.first_isDecimal (n : Numeral lib.digits) :
    ∀ c ∈ n.first, lib.isDecimal c = true := fun c hc => by
  rw [lib.isDecimal_eq]
  exact n.first_digits c hc

theorem Numeral.decimals_isDecimal (n : Numeral lib.digits) :
    ∀ c ∈ n.decimals, lib.isDecimal c = true := fun c hc => by
  rw [lib.isDecimal_eq]
  exact n.fraction_digits c hc

theorem Numeral.whole_isDecimal (n : Numeral lib.digits) :
    ∀ c ∈ n.whole, lib.isDecimal c = true := by
  intro c hc
  rcases List.mem_append.mp hc with hc | hc
  · exact n.first_isDecimal c hc
  · obtain ⟨group, hgroup, hc⟩ := List.mem_flatten.mp hc
    rw [lib.isDecimal_eq]
    exact (n.group_digits group hgroup).2 c hc

/-- **What is read as a number**: the numeral up to its first comma. -/
theorem parseNumber_numeral (h : lib.ReadsDecimals) {n : Numeral lib.digits}
    (hdollar : n.dollar = false) :
    parseNumber lib (.str (String.ofList n.text)) =
      some (.fin (n.sign.factor * decimalValue lib.digits n.first
        (if n.groups = [] then n.decimals else []))) := by
  have hcomma : lib.isDecimal ',' = false := isDecimal_eq_false (by decide) (by decide)
  have hpoint : lib.isDecimal '.' = false := isDecimal_eq_false (by decide) (by decide)
  -- behind the first digits stands a comma or the point, and neither is a digit
  have hrest : ∀ c ∈ (n.groups.flatMap (',' :: ·) ++
      (n.fraction.map ('.' :: ·)).getD []).head?, lib.isDecimal c = false := by
    intro c hc
    cases hgroups : n.groups with
    | nil =>
      rw [hgroups] at hc
      cases hfraction : n.fraction with
      | none =>
        rw [hfraction] at hc
        cases hc
      | some fraction =>
        rw [hfraction] at hc
        cases hc
        exact hpoint
    | cons group groups =>
      rw [hgroups] at hc
      cases hc
      exact hcomma
  -- behind a comma no fraction is read
  have hfraction : fractionOf lib.toMockLibrary (n.groups.flatMap (',' :: ·) ++
      (n.fraction.map ('.' :: ·)).getD []) = if n.groups = [] then n.decimals else [] := by
    cases hgroups : n.groups with
    | nil =>
      have hdigits := n.decimals_isDecimal
      unfold Numeral.decimals at hdigits ⊢
      cases hfraction : n.fraction with
      | none => rfl
      | some fraction =>
        rw [hfraction] at hdigits
        exact List.takeWhile_eq_self_iff.mpr hdigits
    | cons group groups => rfl
  unfold parseNumber
  rw [stringify_of_forall (isPySpace_of_mem_text n), Numeral.text_of_not_dollar hdollar,
    searchFrom_of_match (langExtractNumberMatch_text n.sign n.first_ne_nil n.first_isDecimal hrest),
    hfraction, Option.map_some, h.parseFloat_eq _ _ _ n.first_ne_nil n.first_isDecimal ?_]
  intro c hc
  split at hc
  · exact n.decimals_isDecimal c hc
  · cases hc

/-- The digits and commas of a numeral. -/
theorem groupText_class (n : Numeral lib.digits) :
    ∀ c ∈ n.groups.flatMap (',' :: ·), (lib.isDecimal c || c == ',') = true := by
  intro c hc
  obtain ⟨group, hgroup, hc⟩ := List.mem_flatMap.mp hc
  rcases List.mem_cons.mp hc with rfl | hc
  · simp
  · rw [lib.isDecimal_eq, (n.group_digits group hgroup).2 c hc]
    rfl

/-- Two decimals are taken of those behind a point. -/
theorem centsOf_point {fraction : List Char} (h : ∀ c ∈ fraction, lib.isDecimal c = true) :
    centsOf lib.toMockLibrary ('.' :: fraction) = fractionText (fraction.take 2) := by
  cases fraction with
  | nil => rfl
  | cons d rest =>
    have hd : lib.isDecimal d = true := h d (List.mem_cons_self ..)
    have hrest : (rest.take 1).takeWhile lib.isDecimal = rest.take 1 :=
      List.takeWhile_eq_self_iff.mpr fun c hc =>
        h c (List.mem_cons_of_mem _ (List.mem_of_mem_take hc))
    rw [centsOf, if_pos hd, hrest]
    rfl

/-- What is taken of a fraction. -/
theorem centsOf_fraction (n : Numeral lib.digits) :
    centsOf lib.toMockLibrary ((n.fraction.map ('.' :: ·)).getD []) =
      fractionText (n.decimals.take 2) := by
  have hdigits := n.decimals_isDecimal
  unfold Numeral.decimals at hdigits ⊢
  cases hfraction : n.fraction with
  | none => rfl
  | some fraction =>
    rw [hfraction] at hdigits
    exact centsOf_point hdigits

/-- Digits have no commas to be taken out. -/
theorem filter_of_digits {cs : List Char} (h : ∀ c ∈ cs, lib.isDecimal c = true) :
    cs.filter (· != ',') = cs := by
  refine List.filter_eq_self.mpr fun c hc => ?_
  have hne : c ≠ ',' := by
    rintro rfl
    have hcomma : lib.isDecimal ',' = false := isDecimal_eq_false (by decide) (by decide)
    rw [h _ hc] at hcomma
    cases hcomma
  simpa using hne

theorem filter_fractionText {fraction : List Char} (h : ∀ c ∈ fraction, lib.isDecimal c = true) :
    (fractionText fraction).filter (· != ',') = fractionText fraction := by
  unfold fractionText
  split
  · rfl
  · rw [List.filter_cons_of_pos (by decide), filter_of_digits h]

/-- The commas are taken out of an amount. -/
theorem filter_commas (n : Numeral lib.digits) (k : ℕ) :
    (n.first ++ (n.groups.flatMap (',' :: ·) ++ fractionText (n.decimals.take k))).filter
        (· != ',') = n.whole ++ fractionText (n.decimals.take k) := by
  have hgroups : ∀ groups : List (List Char),
      (∀ group ∈ groups, ∀ c ∈ group, lib.isDecimal c = true) →
        (groups.flatMap (',' :: ·)).filter (· != ',') = groups.flatten := by
    intro groups
    induction groups with
    | nil => intro _; rfl
    | cons group groups ih =>
      intro hall
      rw [List.flatMap_cons, List.filter_append, ih fun g hg => hall g (List.mem_cons_of_mem _ hg),
        List.filter_cons_of_neg (by simp), filter_of_digits (hall group (List.mem_cons_self ..)),
        List.flatten_cons]
  have hdigits : ∀ group ∈ n.groups, ∀ c ∈ group, lib.isDecimal c = true := by
    intro group hgroup c hc
    rw [lib.isDecimal_eq]
    exact (n.group_digits group hgroup).2 c hc
  rw [List.filter_append, List.filter_append, filter_of_digits n.first_isDecimal,
    filter_fractionText fun c hc => n.decimals_isDecimal c (List.mem_of_mem_take hc),
    hgroups _ hdigits, Numeral.whole, List.append_assoc]

/-- The amount in a numeral. -/
theorem amountAt_numeral (n : Numeral lib.digits) :
    amountAt lib.toMockLibrary (n.first ++ (n.groups.flatMap (',' :: ·) ++
      (n.fraction.map ('.' :: ·)).getD [])) =
        some (n.first ++ (n.groups.flatMap (',' :: ·) ++ fractionText (n.decimals.take 2))) := by
  obtain ⟨d, tail, hfirst⟩ := List.exists_cons_of_ne_nil n.first_ne_nil
  have htail : ∀ c ∈ tail ++ n.groups.flatMap (',' :: ·),
      (lib.isDecimal c || c == ',') = true := by
    intro c hc
    rcases List.mem_append.mp hc with hc | hc
    · have hdecimal := n.first_isDecimal c (by rw [hfirst]; exact List.mem_cons_of_mem _ hc)
      rw [hdecimal]
      rfl
    · exact groupText_class n c hc
  have hstop : ((n.fraction.map ('.' :: ·)).getD []).takeWhile
      (fun c => lib.isDecimal c || c == ',') = [] := by
    cases n.fraction with
    | none => rfl
    | some fraction =>
      have hpoint : lib.isDecimal '.' = false := isDecimal_eq_false (by decide) (by decide)
      exact List.takeWhile_cons_of_neg (by rw [hpoint]; decide)
  rw [hfirst, List.cons_append, ← List.append_assoc, amountAt,
    List.takeWhile_append_of_pos htail, hstop, List.append_nil, List.drop_left, centsOf_fraction]
  simp

/-- A numeral's first digit stands behind its signs. -/
theorem dropWhile_numeral (n : Numeral lib.digits) :
    n.text.dropWhile (fun c => !lib.isDecimal c) =
      n.first ++ (n.groups.flatMap (',' :: ·) ++ (n.fraction.map ('.' :: ·)).getD []) := by
  have hsign : ∀ c ∈ n.sign.text, lib.isDecimal c = false :=
    fun c hc => isDecimal_of_sign (NumeralSign.isSign_of_mem hc)
  have hdollar : ∀ c ∈ (if n.dollar then ['$'] else []), lib.isDecimal c = false := by
    intro c hc
    split at hc
    · rw [List.mem_singleton.mp hc]
      exact isDecimal_eq_false (by decide) (by decide)
    · cases hc
  obtain ⟨d, tail, hcons⟩ := List.exists_cons_of_ne_nil n.first_ne_nil
  have hd := n.first_isDecimal d (by rw [hcons]; exact List.mem_cons_self ..)
  rw [Numeral.text, dropWhile_append_of_not_decimal hsign, dropWhile_append_of_not_decimal hdollar,
    hcons, List.cons_append, List.dropWhile_cons_of_neg (by simp [hd])]

/-- **What is read as an amount**: the numeral without its sign, and with two decimals at
most. -/
theorem parseCurrencyAmount_numeral (h : lib.ReadsDecimals) (n : Numeral lib.digits) :
    parseCurrencyAmount lib (.str (String.ofList n.text)) =
      some (.fin (decimalValue lib.digits n.whole (n.decimals.take 2))) := by
  have hwhole : n.whole ≠ [] := List.append_ne_nil_of_left_ne_nil n.first_ne_nil _
  have hread := h.parseFloat_eq .absent n.whole (n.decimals.take 2) hwhole n.whole_isDecimal
    fun c hc => n.decimals_isDecimal c (List.mem_of_mem_take hc)
  have hone : NumeralSign.absent.factor = 1 := rfl
  rw [hone, one_mul] at hread
  unfold parseCurrencyAmount
  rw [stringify_of_forall (isPySpace_of_mem_text n), searchFrom_currency, dropWhile_numeral,
    amountAt_numeral, Option.map_some, filter_commas]
  exact congrArg some hread

end Reading

/-! ### When the number is read -/

section Faithful

variable {lib : ValueLibrary}

/-- A numeral without commas, or nought. -/
def ReadAsNumber {digits : DecimalDigits} (n : Numeral digits) : Prop := n.groups = [] ∨ n.value = 0

/-- A numeral that is not negative, with no decimals but noughts behind the second. -/
def ReadAsAmount {digits : DecimalDigits} (n : Numeral digits) : Prop :=
  (n.sign = .minus → n.value = 0) ∧ digits.number (n.decimals.drop 2) = 0

theorem NumeralSign.factor_mul_inj {sign : NumeralSign} {p q : ℚ} :
    sign.factor * p = sign.factor * q ↔ p = q := by
  cases sign <;> simp [NumeralSign.factor]

theorem NumeralSign.factor_mul_eq_zero {sign : NumeralSign} {p : ℚ} :
    sign.factor * p = 0 ↔ p = 0 := by
  cases sign <;> simp [NumeralSign.factor]

/-- When `parse_number` reads the number. -/
theorem parseNumber_faithful_iff (h : lib.ReadsDecimals) {n : Numeral lib.digits}
    (hdollar : n.dollar = false) :
    parseNumber lib (.str (String.ofList n.text)) = some (.fin n.value) ↔ ReadAsNumber n := by
  rw [parseNumber_numeral h hdollar]
  have hinj : ∀ p q : ℚ, some (PyFloat.fin p) = some (.fin q) ↔ p = q := by simp
  rw [hinj, Numeral.value, NumeralSign.factor_mul_inj, Numeral.magnitude, Numeral.whole]
  unfold ReadAsNumber
  by_cases hgroups : n.groups = []
  · rw [if_pos hgroups, hgroups, List.flatten_nil, List.append_nil]
    exact iff_of_true rfl (Or.inl rfl)
  · have hrest : n.groups.flatten ≠ [] := by
      obtain ⟨group, groups, hcons⟩ := List.exists_cons_of_ne_nil hgroups
      have hlength := (n.group_digits group (by rw [hcons]; exact List.mem_cons_self ..)).1
      rw [hcons, List.flatten_cons]
      refine List.append_ne_nil_of_left_ne_nil ?_ _
      rintro rfl
      cases hlength
    rw [if_neg hgroups, decimalValue_prefix_eq_iff hrest]
    constructor
    · intro hzero
      refine Or.inr (NumeralSign.factor_mul_eq_zero.mpr ?_)
      exact hzero
    · intro hzero
      exact NumeralSign.factor_mul_eq_zero.mp (hzero.resolve_left hgroups)

/-- When `parse_currency_amount` reads the number that the numeral denotes. -/
theorem parseCurrencyAmount_faithful_iff (h : lib.ReadsDecimals) (n : Numeral lib.digits) :
    parseCurrencyAmount lib (.str (String.ofList n.text)) = some (.fin n.value) ↔
      ReadAsAmount n := by
  rw [parseCurrencyAmount_numeral h]
  have hinj : ∀ p q : ℚ, some (PyFloat.fin p) = some (.fin q) ↔ p = q := by simp
  -- what is read is the magnitude without the decimals behind the second
  have hsplit : n.magnitude = decimalValue lib.digits n.whole (n.decimals.take 2) +
      lib.digits.number (n.decimals.drop 2) / 10 ^ n.decimals.length := by
    have happend : decimalValue lib.digits n.whole (n.decimals.take 2 ++ n.decimals.drop 2) =
        decimalValue lib.digits n.whole (n.decimals.take 2) +
          lib.digits.number (n.decimals.drop 2) /
            10 ^ (n.decimals.take 2 ++ n.decimals.drop 2).length := decimalValue_append _ _ _
    rwa [List.take_append_drop] at happend
  have hnonneg : 0 ≤ decimalValue lib.digits n.whole (n.decimals.take 2) := decimalValue_nonneg _ _
  have hten : (0 : ℚ) < 10 ^ n.decimals.length := by positivity
  have hcut : (0 : ℚ) ≤ lib.digits.number (n.decimals.drop 2) / 10 ^ n.decimals.length := by
    positivity
  have hcut0 : (lib.digits.number (n.decimals.drop 2) / 10 ^ n.decimals.length : ℚ) = 0 ↔
      lib.digits.number (n.decimals.drop 2) = 0 := by
    rw [div_eq_zero_iff, or_iff_left (ne_of_gt hten), Nat.cast_eq_zero]
  rw [hinj]
  unfold ReadAsAmount Numeral.value
  rw [NumeralSign.factor_mul_eq_zero, ← hcut0]
  -- a minus is not read, so a negative numeral is right for nought only
  by_cases hminus : n.sign = .minus
  · rw [hminus]
    simp only [NumeralSign.factor, forall_const]
    constructor
    · intro heq
      constructor <;> linarith
    · rintro ⟨hzero, hcutzero⟩
      linarith
  · have hfactor : n.sign.factor = 1 := by
      cases hs : n.sign with
      | minus => exact absurd hs hminus
      | absent => rfl
      | plus => rfl
    rw [hfactor, one_mul, hsplit]
    constructor
    · intro heq
      exact ⟨fun hs => absurd hs hminus, by linarith⟩
    · rintro ⟨-, hcutzero⟩
      linarith

/-- The text of a numeral is not empty. -/
theorem Numeral.text_ne_nil {digits : DecimalDigits} (n : Numeral digits) : n.text ≠ [] := by
  obtain ⟨d, tail, hfirst⟩ := List.exists_cons_of_ne_nil n.first_ne_nil
  unfold Numeral.text
  simp [hfirst]

theorem truthy_numeral (n : Numeral lib.digits) :
    (PyVal.str (String.ofList n.text)).truthy = true := by
  show (String.ofList n.text != "") = true
  simpa using n.text_ne_nil

/-- **When a numeral is read as the number it denotes**: as a number without commas between
the thousands, as an amount if it is not negative and has two decimals; nought always.  The
value of the field is what is read. -/
theorem numerals_read_iff (lib : ValueLibrary) (h : lib.ReadsDecimals) (n : Numeral lib.digits) :
    (n.dollar = false →
      (parseNumber lib (.str (String.ofList n.text)) = some (.fin n.value) ↔ ReadAsNumber n)) ∧
    (parseCurrencyAmount lib (.str (String.ofList n.text)) = some (.fin n.value) ↔
      ReadAsAmount n) ∧
    ∀ (definition : ExtractionFieldDefinition) (text : String)
      (attributes : List (String × PyVal)),
      rawValue text attributes = .str (String.ofList n.text) →
        (definition.type = .number → n.dollar = false →
          (normalizeLangextractValue lib (some definition) text attributes =
            .dict [("value", .float (.fin n.value))] ↔ ReadAsNumber n)) ∧
        (definition.type = .currency →
          ((∃ currency display, normalizeLangextractValue lib (some definition) text attributes =
            .dict [("amount", .float (.fin n.value)), ("currency", .str currency),
              ("display_value", .str display)]) ↔ ReadAsAmount n)) := by
  refine ⟨parseNumber_faithful_iff h, parseCurrencyAmount_faithful_iff h n, ?_⟩
  intro definition text attributes hraw
  constructor
  -- The value of a number field holds what `parse_number` reads.
  · intro htype hdollar
    rw [← parseNumber_faithful_iff h hdollar]
    unfold normalizeLangextractValue
    dsimp only
    rw [htype, hraw]
    dsimp only
    rw [parseNumber_numeral h hdollar]
    simp
  · intro htype
    rw [← parseCurrencyAmount_faithful_iff h n]
    -- An amount is read from the raw value, which is not empty here.
    have hsource : amountSource text attributes = .str (String.ofList n.text) := by
      rw [amountSource, hraw, if_pos (truthy_numeral n)]
    unfold normalizeLangextractValue
    dsimp only
    rw [htype]
    dsimp only
    rw [hsource, parseCurrencyAmount_numeral h n]
    unfold currencyValue
    simp

end Faithful

/-! ### Numerals that are read, and numerals that are not -/

/-- `float` of a decimal text, exactly. -/
def exactFloat (digits : DecimalDigits) (cs : List Char) : PyFloat :=
  let sign := signOf cs
  let whole := (cs.drop sign.length).takeWhile digits.isDecimal
  let fraction := (cs.drop (sign.length + whole.length + 1)).takeWhile digits.isDecimal
  .fin ((if sign = ['-'] then -1 else 1) * decimalValue digits whole fraction)

/-- A library with exact floats, for ASCII. -/
def exactLibrary : ValueLibrary where
  isDecimal := DecimalDigits.asciiOnly.isDecimal
  isWord := fun c => c.isAlphanum || c == '_'
  parseFloat := exactFloat DecimalDigits.asciiOnly
  digits := DecimalDigits.asciiOnly
  isDecimal_eq _ := rfl
  isPySpace_of_isDecimal c hc := isPySpace_of_isDigit (DecimalDigits.isDecimal_asciiOnly c ▸ hc)
  num := ⟨fun _ => .error .typeError, fun _ => "", fun _ => "", fun _ => .error .typeError⟩
  lower := .asciiOnly
  parseDate _ := none

theorem exactLibrary_readsDecimals : exactLibrary.ReadsDecimals where
  parseFloat_eq sign whole fraction hne hwhole hfraction := by
    have hpoint : ∀ c ∈ (fractionText fraction).head?, exactLibrary.isDecimal c = false := by
      intro c hc
      unfold fractionText at hc
      split at hc
      · cases hc
      · cases hc
        exact isDecimal_eq_false (by decide) (by decide)
    -- the text falls apart into its sign, its digits and its fraction
    have hsign : signOf (sign.text ++ (whole ++ fractionText fraction)) = sign.text := by
      obtain ⟨d, tail, hcons⟩ := List.exists_cons_of_ne_nil hne
      have hd : exactLibrary.isDecimal d = true :=
        hwhole d (by rw [hcons]; exact List.mem_cons_self ..)
      rw [hcons]
      exact signOf_text sign hd
    have hdrop : (fractionText fraction).drop 1 = fraction := by
      cases fraction with
      | nil => rfl
      | cons c fraction => rfl
    have hdecimals : fraction.takeWhile DecimalDigits.asciiOnly.isDecimal = fraction :=
      List.takeWhile_eq_self_iff.mpr hfraction
    have hminus : (if sign.text = ['-'] then (-1 : ℚ) else 1) = sign.factor := by
      cases sign <;> rfl
    have htake : (whole ++ fractionText fraction).takeWhile
        DecimalDigits.asciiOnly.isDecimal = whole := by
      have hdigits := takeWhile_decimal hwhole hpoint
      exact hdigits
    show exactFloat DecimalDigits.asciiOnly (sign.text ++ (whole ++ fractionText fraction)) = _
    unfold exactFloat
    dsimp only
    rw [hsign, List.drop_left, htake,
      Nat.add_assoc, ← List.drop_drop, List.drop_left, ← List.drop_drop, List.drop_left, hdrop,
      hdecimals, hminus]
    rfl

/-- A thousand, without a comma. -/
def plainThousand : Numeral DecimalDigits.asciiOnly where
  sign := .minus
  dollar := false
  first := ['1', '0', '0', '0']
  groups := []
  fraction := some ['5']
  first_ne_nil := by decide
  first_digits := List.all_eq_true.mp (by decide)
  group_digits := List.forall_mem_nil _
  first_length := by decide
  fraction_digits := List.all_eq_true.mp (by decide)

theorem numerals_read_plainThousand :
    parseNumber exactLibrary (.str "-1000.5") = some (.fin plainThousand.value) :=
  ((numerals_read_iff exactLibrary exactLibrary_readsDecimals plainThousand).1 rfl).mpr
    (Or.inl rfl)

/-- A loss of one thousand two hundred and some cents, with a comma. -/
def commaLoss : Numeral DecimalDigits.asciiOnly where
  sign := .minus
  dollar := false
  first := ['1']
  groups := [['2', '0', '0']]
  fraction := some ['2', '5', '9']
  first_ne_nil := by decide
  first_digits := List.all_eq_true.mp (by decide)
  group_digits := List.forall_mem_singleton.mpr ⟨rfl, List.all_eq_true.mp (by decide)⟩
  first_length := by decide
  fraction_digits := List.all_eq_true.mp (by decide)

/-- **A loss is misread**: as a number for what stands before the comma, as an amount for
a gain, cut off. -/
theorem loss_is_misread :
    commaLoss.text = "-1,200.259".toList ∧ commaLoss.value = mkRat (-1200259) 1000 ∧
      parseNumber exactLibrary (.str "-1,200.259") = some (.fin (-1)) ∧
      parseCurrencyAmount exactLibrary (.str "-1,200.259") = some (.fin (mkRat 120025 100)) ∧
      parseNumber exactLibrary (.str "-1,200.259") ≠ some (.fin commaLoss.value) ∧
      parseCurrencyAmount exactLibrary (.str "-1,200.259") ≠ some (.fin commaLoss.value) := by
  refine ⟨by decide, by decide +kernel, by decide +kernel, by decide +kernel, by decide +kernel,
    by decide +kernel⟩

end ExtractFlow
