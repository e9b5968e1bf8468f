import Mathlib.Data.List.Chain
import ExtractFlow.Lib.Trim
import ExtractFlow.TemplateContract

/-!
# Normalised text

`normalize_text` (`worker/app/services/parser.py`) ends every line of a text with a line
feed, takes the white space off the end of each, and off both ends of the whole.

A text is normalised if no more of it can be taken off.  Normalised texts stay so when they
are joined by line feeds: the items of a page, and the pages, are found in the parser's
text as they were normalised one by one.

## Main definitions

* `splitLines`, `rstrip`, `normalizeText` — `splitlines`, `rstrip`, `normalize_text`.
* `CleanLines`, `Normal` — the lines end with line feeds alone; nor is there white space
  at the ends.

## Main results

* `normal_normalizeText`, `normalizeText_of_normal` — what is normalised is normal, and a
  normal text is left alone.
* `normal_intercalate` — normal texts, joined.
-/

namespace ExtractFlow

/-- The characters at which `splitlines` ends a line. -/
def isLineBreak (c : Char) : Bool :=
  c.toNat ∈ [10, 11, 12, 13, 28, 29, 30, 133, 8232, 8233]

/-- `text.splitlines()`: the lines of the text without their ends. A line feed behind a carriage
return belongs to it. -/
def splitLines : List Char → List (List Char)
  | [] => []
  | '\r' :: '\n' :: cs => [] :: splitLines cs
  | c :: cs =>
      if isLineBreak c then [] :: splitLines cs
      else
        match splitLines cs with
        | line :: lines => (c :: line) :: lines
        | [] => [[c]]

/-- `line.rstrip()`: the line without the white space at its end. -/
def rstrip (line : List Char) : List Char := line.rdropWhile isPySpace

/-- `normalize_text`: the lines without white space at their ends, joined by line feeds, without
white space around the whole. -/
def normalizeText (text : List Char) : List Char :=
  stripChars (['\n'].intercalate ((splitLines text).map rstrip))

/-- Every line ends with a line feed, and no other white space stands before it. -/
structure CleanLines (text : List Char) : Prop where
  breaks : ∀ c ∈ text, isLineBreak c = true → c = '\n'
  trailing : text.IsChain fun c d => d = '\n' → isPySpace c = true → c = '\n'

/-- The text is normalised: no line has white space at its end, and the text has none at
its start. -/
structure Normal (text : List Char) : Prop where
  lines : CleanLines text
  trimmed : Trim.Trimmed isPySpace text

/-! ### Lines -/

section Lines

theorem splitLines_break {c : Char} {cs : List Char} (hc : isLineBreak c = true) (hcr : c ≠ '\r') :
    splitLines (c :: cs) = [] :: splitLines cs := by
  rw [splitLines.eq_3 _ _ (fun _ hc _ => hcr hc), if_pos hc]

theorem splitLines_last {c : Char} {cs : List Char} (hc : isLineBreak c = false)
    (hcs : splitLines cs = []) : splitLines (c :: cs) = [[c]] := by
  have hcr : c ≠ '\r' := by
    rintro rfl
    exact absurd hc (by decide)
  rw [splitLines.eq_3 _ _ (fun _ hc _ => hcr hc), if_neg (by simp [hc]), hcs]

theorem splitLines_letter {c : Char} {cs line : List Char} {lines : List (List Char)}
    (hc : isLineBreak c = false) (hcs : splitLines cs = line :: lines) :
    splitLines (c :: cs) = (c :: line) :: lines := by
  have hcr : c ≠ '\r' := by
    rintro rfl
    exact absurd hc (by decide)
  rw [splitLines.eq_3 _ _ (fun _ hc _ => hcr hc), if_neg (by simp [hc]), hcs]

/-- No line has a line break in it, of whichever kind. -/
theorem isLineBreak_of_mem_splitLines (text : List Char) :
    ∀ line ∈ splitLines text, ∀ c ∈ line, isLineBreak c = false := by
  fun_induction splitLines text with
  | case1 => intro line hline; cases hline
  | case2 cs ih =>
    intro line hline
    rcases List.mem_cons.mp hline with rfl | hline
    · intro c hc; cases hc
    · exact ih line hline
  | case3 c cs hcr hbreak ih =>
    intro line hline
    rcases List.mem_cons.mp hline with rfl | hline
    · intro c hc; cases hc
    · exact ih line hline
  -- An ordinary character goes to the front of the first line.
  | case4 c cs hcr hbreak first lines hcs ih =>
    intro line hline d hd
    rw [hcs] at ih
    rcases List.mem_cons.mp hline with rfl | hline
    · rcases List.mem_cons.mp hd with rfl | hd
      · simpa using hbreak
      · exact ih first (List.mem_cons_self ..) d hd
    · exact ih line (List.mem_cons_of_mem _ hline) d hd
  | case5 c cs hcr hbreak hcs ih =>
    intro line hline d hd
    rw [List.mem_singleton.mp hline] at hd
    rw [List.mem_singleton.mp hd]
    simpa using hbreak

/-- The last character of a line that is stripped is no white space. -/
theorem isPySpace_getLast?_rstrip (line : List Char) :
    ∀ c ∈ (rstrip line).getLast?, isPySpace c = false := by
  intro c hc
  have hne : line.rdropWhile isPySpace ≠ [] := by
    rintro hnil
    rw [rstrip, hnil] at hc
    cases hc
  have hlast := List.rdropWhile_last_not isPySpace line hne
  rw [rstrip, List.getLast?_eq_some_getLast hne, Option.mem_some] at hc
  rw [hc] at hlast
  simpa using hlast

/-- Stripping a line keeps its first character, if something behind it is kept or it is no
white space itself. -/
theorem rstrip_cons {c : Char} {line : List Char} (h : rstrip line ≠ [] ∨ isPySpace c = false) :
    rstrip (c :: line) = c :: rstrip line := by
  unfold rstrip at h ⊢
  unfold List.rdropWhile at h ⊢
  rw [List.reverse_cons, List.dropWhile_append]
  by_cases hline : (line.reverse.dropWhile isPySpace).isEmpty = true
  · have hnil : line.reverse.dropWhile isPySpace = [] := List.isEmpty_iff.mp hline
    have hc : isPySpace c = false := by
      rcases h with h | h
      · exact absurd (by rw [hnil]; rfl) h
      · exact h
    rw [if_pos hline, hnil, List.dropWhile_cons, hc]
    rfl
  · rw [if_neg hline]
    simp

end Lines

/-! ### Clean lines -/

section Clean

theorem CleanLines.of_infix {a b : List Char} (h : CleanLines b) (hab : a <:+: b) :
    CleanLines a where
  breaks c hc := h.breaks c (hab.subset hc)
  trailing := h.trailing.infix hab

/-- A line without line breaks is clean. -/
theorem cleanLines_of_line {line : List Char} (h : ∀ c ∈ line, isLineBreak c = false) :
    CleanLines line where
  breaks c hc hbreak := by
    rw [h c hc] at hbreak
    cases hbreak
  trailing := by
    induction line with
    | nil => exact .nil
    | cons c line ih =>
      refine List.isChain_cons.mpr ⟨?_, ih fun d hd => h d (List.mem_cons_of_mem _ hd)⟩
      rintro d hd rfl
      have hnewline := h '\n' (List.mem_cons_of_mem _ (List.mem_of_mem_head? hd))
      exact absurd hnewline (by decide)

/-- Clean texts, one behind the other, the first without white space at its end. -/
theorem CleanLines.append {a b : List Char} (ha : CleanLines a) (hb : CleanLines b)
    (hlast : ∀ c ∈ a.getLast?, isPySpace c = false) : CleanLines (a ++ '\n' :: b) where
  breaks c hc hbreak := by
    rcases List.mem_append.mp hc with hc | hc
    · exact ha.breaks c hc hbreak
    · rcases List.mem_cons.mp hc with rfl | hc
      · rfl
      · exact hb.breaks c hc hbreak
  trailing := by
    refine List.isChain_append.mpr ⟨ha.trailing, ?_, ?_⟩
    · exact List.isChain_cons.mpr ⟨fun d _ _ _ => rfl, hb.trailing⟩
    · intro c hc d _ _ hspace
      rw [hlast c hc] at hspace
      cases hspace

/-- Lines that are stripped make a text with clean lines. -/
theorem cleanLines_intercalate : ∀ {lines : List (List Char)}, (∀ line ∈ lines, CleanLines line) →
    (∀ line ∈ lines, ∀ c ∈ line.getLast?, isPySpace c = false) →
      CleanLines (['\n'].intercalate lines) := by
  intro lines
  induction lines with
  | nil => exact fun _ _ => cleanLines_of_line fun c hc => by cases hc
  | cons line rest ih =>
    intro hclean hlast
    cases rest with
    | nil => simpa using hclean line (List.mem_cons_self ..)
    | cons next rest =>
      rw [List.intercalate_cons_cons, List.append_assoc]
      exact (hclean line (List.mem_cons_self ..)).append
        (ih (fun l hl => hclean l (List.mem_cons_of_mem _ hl))
          fun l hl => hlast l (List.mem_cons_of_mem _ hl))
        (hlast line (List.mem_cons_self ..))

/-- A clean text without white space at its end is the text of its stripped lines. -/
theorem intercalate_splitLines : ∀ {text : List Char}, CleanLines text →
    (∀ c ∈ text.getLast?, isPySpace c = false) →
      ['\n'].intercalate ((splitLines text).map rstrip) = text := by
  intro text
  induction text with
  | nil => intro _ _; rfl
  | cons c cs ih =>
    intro hclean hlast
    have hrest : ['\n'].intercalate ((splitLines cs).map rstrip) = cs := by
      refine ih (hclean.of_infix (List.suffix_cons c cs).isInfix) ?_
      cases cs with
      | nil => intro d hd; cases hd
      | cons d cs => simpa [List.getLast?_cons_cons] using hlast
    by_cases hbreak : isLineBreak c = true
    · obtain rfl := hclean.breaks c (List.mem_cons_self ..) hbreak
      have hne : (splitLines cs).map rstrip ≠ [] := by
        intro hnil
        rw [hnil, List.intercalate_nil] at hrest
        subst hrest
        exact absurd (hlast '\n' rfl) (by decide)
      rw [splitLines_break hbreak (by decide), List.map_cons,
        List.intercalate_cons_of_ne_nil hne, hrest]
      rfl
    · have hletter : isLineBreak c = false := by simpa using hbreak
      cases hcs : splitLines cs with
      | nil =>
        rw [hcs] at hrest
        obtain rfl : [] = cs := hrest
        have hspace : isPySpace c = false := hlast c rfl
        rw [splitLines_last hletter hcs]
        simp [rstrip, hspace]
      | cons line lines =>
        rw [hcs] at hrest
        -- white space before the end of a line is not there to be stripped
        have hstrip : rstrip (c :: line) = c :: rstrip line := by
          refine rstrip_cons ?_
          by_cases hline : rstrip line = []
          · refine Or.inr ?_
            rw [List.map_cons, hline] at hrest
            cases lines with
            | nil =>
              obtain rfl : [] = cs := hrest
              cases hcs
            | cons next lines =>
              rw [List.map_cons, List.intercalate_cons_cons] at hrest
              subst hrest
              have hchain := (List.isChain_cons_cons.mp hclean.trailing).1 rfl
              by_contra hspace
              rw [hchain (by simpa using hspace)] at hletter
              exact absurd hletter (by decide)
          · exact Or.inl hline
        rw [splitLines_letter hletter hcs, List.map_cons, hstrip,
          List.intercalate_cons_cons_left, ← List.map_cons, hrest]

end Clean

/-! ### Normal texts -/

section Normalised

/-- **What is normalised is normal**, whatever text it was made of. -/
theorem normal_normalizeText (text : List Char) : Normal (normalizeText text) where
  lines := by
    have hclean : CleanLines (['\n'].intercalate ((splitLines text).map rstrip)) := by
      refine cleanLines_intercalate ?_ ?_
      · intro line hline
        obtain ⟨whole, hwhole, rfl⟩ := List.mem_map.mp hline
        refine cleanLines_of_line fun c hc => ?_
        exact isLineBreak_of_mem_splitLines text whole hwhole c
          ((List.rdropWhile_prefix isPySpace whole).subset hc)
      · intro line hline
        obtain ⟨whole, -, rfl⟩ := List.mem_map.mp hline
        exact isPySpace_getLast?_rstrip whole
    obtain ⟨pre, post, hsplit, -, -⟩ :=
      Trim.trim_split isPySpace (['\n'].intercalate ((splitLines text).map rstrip))
    exact hclean.of_infix ⟨pre, post, hsplit.symm⟩
  trimmed := Trim.trimmed_trim isPySpace _

theorem Normal.last {text : List Char} (h : Normal text) :
    ∀ c ∈ text.getLast?, isPySpace c = false := by
  intro c hc
  obtain ⟨init, rfl⟩ := List.getLast?_eq_some_iff.mp hc
  exact h.trimmed.last init c rfl

/-- **A normal text is left alone** by a second normalisation. -/
theorem normalizeText_of_normal {text : List Char} (h : Normal text) :
    normalizeText text = text := by
  unfold normalizeText
  rw [intercalate_splitLines h.lines h.last]
  exact Trim.trim_of_trimmed h.trimmed

/-- **Normal texts, joined** by line feeds, are normal, so the whole is made of the parts as they
are. -/
theorem normal_intercalate {texts : List (List Char)}
    (h : ∀ text ∈ texts, Normal text ∧ text ≠ []) :
    Normal (['\n'].intercalate texts) where
  lines := cleanLines_intercalate (fun text ht => (h text ht).1.lines)
    fun text ht => (h text ht).1.last
  trimmed := Trim.trimmed_intercalate ['\n'] fun text ht => ⟨(h text ht).1.trimmed, (h text ht).2⟩

end Normalised

end ExtractFlow
