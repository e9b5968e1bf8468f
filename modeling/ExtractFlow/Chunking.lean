import ExtractFlow.Lib.Trim
import ExtractFlow.Lib.Windows
import ExtractFlow.Provider

/-!
# Chunks of a text

`split_text_into_chunks` cuts a text that is longer than a chunk into windows: a window
ends at a break in its second half, if there is one, the next one starts an overlap
before that end but at least one letter on, and every window is stripped.

So the loop ends, however large the overlap.  And a short piece of the text is never
cut: a window that a later one does not repeat in full reaches an overlap beyond the
next start, or is at least half a chunk long where the start moves on by one letter.

## Main definitions

* `nextStart` — where the next window starts.
* `SplitRun` — the function, its loop run to the end.

## Main results

* `chunkEnd_spec` — where a window ends.
* `chunks_lose_nothing` — what the chunks of a text are, and what lies in one.
-/

namespace ExtractFlow

open Windows

/-! ### One window -/

section Window

variable {cs : List Char} {chunkSize start : ℕ}

/-- `rfind` finds nothing behind the end it is given. -/
theorem lastIndexIn_le (cs sub : List Char) (lo hi : ℕ) : lastIndexIn cs sub lo hi ≤ hi := by
  unfold lastIndexIn
  split
  · next i hi' =>
    have hfound := List.find?_some hi'
    rw [Bool.and_eq_true, decide_eq_true_eq] at hfound
    omega
  · omega

/-- **Where a window ends**: in the text, within a chunk, and in its second half unless the
text ends there. -/
theorem chunkEnd_spec (hsize : 0 < chunkSize) (hstart : start < cs.length) :
    start < chunkEnd cs chunkSize start ∧ chunkEnd cs chunkSize start ≤ cs.length ∧
      chunkEnd cs chunkSize start ≤ start + chunkSize ∧
      (chunkEnd cs chunkSize start = cs.length ∨
        start + chunkSize / 2 + 1 ≤ chunkEnd cs chunkSize start) := by
  unfold chunkEnd
  extract_lets stop lastBreak
  have hstop : stop = min (start + chunkSize) cs.length := rfl
  have hbreak : lastBreak ≤ stop :=
    max_le (max_le (lastIndexIn_le ..) (lastIndexIn_le ..)) (lastIndexIn_le ..)
  clear_value stop lastBreak
  split
  · next hinside =>
    split
    · omega
    · omega
  · omega

/-- Where the next window starts: an overlap before the end, but at least one letter on. -/
def nextStart (cs : List Char) (chunkSize : ℕ) (overlap : ℤ) (start : ℕ) : ℕ :=
  (max ((chunkEnd cs chunkSize start : ℤ) - overlap) (start + 1)).toNat

theorem lt_nextStart (overlap : ℤ) : start < nextStart cs chunkSize overlap start := by
  unfold nextStart
  omega

end Window

/-! ### The loop -/

/-- The window, stripped. -/
def stripWindow (cs : List Char) (w : ℕ × ℕ) : List Char :=
  stripChars ((cs.drop w.1).take (w.2 - w.1))

/-- The chunks of the windows: those that are not blank. -/
def chunksOf (cs : List Char) (ws : List (ℕ × ℕ)) : List (List Char) :=
  (ws.map (stripWindow cs)).filter fun chunk => !chunk.isEmpty

theorem chunksOf_cons (cs : List Char) (w : ℕ × ℕ) (ws : List (ℕ × ℕ)) :
    chunksOf cs (w :: ws) =
      (if (stripWindow cs w).isEmpty then [] else [stripWindow cs w]) ++ chunksOf cs ws := by
  unfold chunksOf
  rw [List.map_cons, List.filter_cons]
  cases (stripWindow cs w).isEmpty <;> rfl

theorem chunksFrom_eq (cs : List Char) (chunkSize : ℕ) (overlap : ℤ) : ∀ turns start : ℕ,
    chunksFrom cs chunkSize overlap turns start =
      chunksOf cs (windows (chunkEnd cs chunkSize) (nextStart cs chunkSize overlap) cs.length
        turns start) := by
  intro turns
  induction turns with
  | zero => intro start; rfl
  | succ turns ih =>
    intro start
    unfold chunksFrom windows
    split
    · rw [chunksOf_cons]
      dsimp only
      split
      · exact (List.append_nil _).symm
      · exact congrArg _ (ih _)
    · rfl

/-- The function with its loop run to the end, in the three ways it can go: a blank text, a text
that is one chunk, and a text that the loop cuts. -/
inductive SplitRun (text : String) (chunkSize overlap : ℤ) : List String → Prop
  | blank : stripChars text.toList = [] → SplitRun text chunkSize overlap [""]
  | short : stripChars text.toList ≠ [] →
      chunkSize ≤ 0 ∨ ((stripChars text.toList).length : ℤ) ≤ chunkSize →
      SplitRun text chunkSize overlap [pyStrip text]
  | loop (ws) : stripChars text.toList ≠ [] → 0 < chunkSize →
      chunkSize < (stripChars text.toList).length →
      Loop (chunkEnd (stripChars text.toList) chunkSize.toNat)
        (nextStart (stripChars text.toList) chunkSize.toNat overlap)
        (stripChars text.toList).length 0 ws →
      SplitRun text chunkSize overlap
        (if (chunksOf (stripChars text.toList) ws).isEmpty then [pyStrip text]
        else (chunksOf (stripChars text.toList) ws).map String.ofList)

/-- **The function ends**, for every chunk size and overlap. -/
theorem splitRun_splitTextIntoChunks (text : String) (chunkSize overlap : ℤ) :
    SplitRun text chunkSize overlap (splitTextIntoChunks text chunkSize overlap) := by
  unfold splitTextIntoChunks
  dsimp only
  split
  · next hempty => exact .blank (List.isEmpty_iff.mp hempty)
  · next hempty =>
    rw [List.isEmpty_iff] at hempty
    split
    · next hshort => exact .short hempty hshort
    · next hlong =>
      rw [chunksFrom_eq]
      exact .loop _ hempty (by omega) (by omega)
        (loop_windows (fun _ _ => lt_nextStart overlap) le_rfl)

/-! ### What a chunk holds -/

section Holds

variable {cs : List Char} {a b : ℕ}

/-- There is a letter that is no space at the position. -/
def LetterAt (cs : List Char) (i : ℕ) : Prop := ∃ c ∈ cs[i]?, isPySpace c = false

theorem LetterAt.getElem {i : ℕ} (h : LetterAt cs i) :
    ∃ hi : i < cs.length, isPySpace cs[i] = false := by
  obtain ⟨c, hc, hletter⟩ := h
  obtain ⟨hi, hc⟩ := List.getElem?_eq_some_iff.mp hc
  exact ⟨hi, hc ▸ hletter⟩

theorem stripChars_eq_trim (cs : List Char) : stripChars cs = Trim.trim isPySpace cs := rfl

/-- A stripped window is a piece of the text inside the window, and holds every letter of it
that is no space. -/
theorem stripWindow_piece (hab : a ≤ b) (hb : b ≤ cs.length) :
    ∃ a' n, stripWindow cs (a, b) = (cs.drop a').take n ∧ n ≤ b - a ∧ a' + n ≤ cs.length ∧
      ∀ i, a ≤ i → i < b → LetterAt cs i → a' ≤ i ∧ i < a' + n := by
  obtain ⟨p, n, htrim, hlength, hinside⟩ := Trim.slice_trim isPySpace ((cs.drop a).take (b - a))
  rw [List.length_take, List.length_drop] at hlength
  refine ⟨a + p, n, ?_, by omega, by omega, ?_⟩
  · unfold stripWindow
    rw [stripChars_eq_trim, htrim, List.drop_take, List.take_take, List.drop_drop,
      Nat.min_eq_left (by omega)]
  · intro i hai hib hat
    obtain ⟨hi, hletter⟩ := hat.getElem
    have hi' : i - a < ((cs.drop a).take (b - a)).length := by
      rw [List.length_take, List.length_drop]
      omega
    have hitem : ((cs.drop a).take (b - a))[i - a] = cs[i] := by
      simp only [List.getElem_take, List.getElem_drop]
      congr 1
      omega
    have hbetween := hinside (i - a) hi' (by rw [hitem, hletter])
    omega

/-- A chunk comes from a window of the loop. -/
theorem mem_chunksOf {ws : List (ℕ × ℕ)} {chunk : List Char} :
    chunk ∈ chunksOf cs ws ↔ chunk ≠ [] ∧ ∃ w ∈ ws, stripWindow cs w = chunk := by
  unfold chunksOf
  rw [List.mem_filter, List.mem_map, Bool.not_eq_true', List.isEmpty_eq_false_iff]
  exact and_comm

variable {chunkSize : ℕ} {overlap : ℤ} {ws : List (ℕ × ℕ)}

/-- The window of the loop in which a short piece lies: the last that starts at or before it. -/
theorem exists_window_of_short (hsize : 0 < chunkSize)
    (hloop : Loop (chunkEnd cs chunkSize) (nextStart cs chunkSize overlap) cs.length 0 ws)
    {i j : ℕ} (hij : i < j) (hj : j ≤ cs.length) (hoverlap : (j : ℤ) - i ≤ overlap)
    (hhalf : j - i ≤ chunkSize / 2 + 1) :
    ∃ w ∈ ws, w.1 ≤ i ∧ j ≤ w.2 ∧ w.1 < w.2 ∧ w.2 ≤ cs.length := by
  obtain ⟨w, hw, hstart, hends⟩ := hloop.exists_window (Nat.zero_le i) (by omega)
  obtain ⟨hinside, hstop⟩ := hloop.of_mem w hw
  obtain ⟨hlt, hle, -, hlong⟩ := chunkEnd_spec hsize hinside
  rw [← hstop] at hlt hle hlong
  refine ⟨w, hw, hstart, ?_, hlt, hle⟩
  rcases hends with hlast | hnext
  · omega
  · unfold nextStart at hnext
    rw [← hstop] at hnext
    -- the next window starts an overlap before the end of this one, or one letter on
    rcases hlong with hend | hlong
    · omega
    · omega

/-- A short piece lies in a chunk: its letters are letters of the window it lies in. -/
theorem exists_chunk_of_short (hsize : 0 < chunkSize)
    (hloop : Loop (chunkEnd cs chunkSize) (nextStart cs chunkSize overlap) cs.length 0 ws)
    {i j : ℕ} (hij : i < j) (hj : j ≤ cs.length) (hfirst : LetterAt cs i)
    (hlast : LetterAt cs (j - 1)) (hoverlap : (j : ℤ) - i ≤ overlap)
    (hhalf : j - i ≤ chunkSize / 2 + 1) :
    ∃ chunk ∈ chunksOf cs ws, ∃ a, chunk = (cs.drop a).take chunk.length ∧ a ≤ i ∧
      j ≤ a + chunk.length := by
  obtain ⟨⟨a, b⟩, hw, hai, hjb, hab, hb⟩ :=
    exists_window_of_short hsize hloop hij hj hoverlap hhalf
  dsimp only at hai hjb hab hb
  obtain ⟨a', n, hpiece, hn, ha', hinside⟩ := stripWindow_piece (Nat.le_of_lt hab) hb
  obtain ⟨hfrom, -⟩ := hinside i hai (by omega) hfirst
  obtain ⟨-, hto⟩ := hinside (j - 1) (by omega) (by omega) hlast
  have hlength : (stripWindow cs (a, b)).length = n := by
    rw [hpiece, List.length_take, List.length_drop]
    omega
  refine ⟨stripWindow cs (a, b), mem_chunksOf.mpr ⟨?_, _, hw, rfl⟩, a', ?_, hfrom, by omega⟩
  · intro hempty
    rw [hempty] at hlength
    simp at hlength
    omega
  · rw [hlength, hpiece]

/-- A stripped text that is not empty starts with a letter, so there is a chunk. -/
theorem chunksOf_ne_nil (hsize : 0 < chunkSize) (hoverlap : 1 ≤ overlap)
    (hloop : Loop (chunkEnd cs chunkSize) (nextStart cs chunkSize overlap) cs.length 0 ws)
    (htrimmed : Trim.Trimmed isPySpace cs) (hne : cs ≠ []) : chunksOf cs ws ≠ [] := by
  have hlen := List.length_pos_iff.mpr hne
  have hhead : LetterAt cs 0 := by
    cases cs with
    | nil => exact absurd rfl hne
    | cons c rest => exact ⟨c, rfl, htrimmed.head c rest rfl⟩
  obtain ⟨chunk, hchunk, -⟩ :=
    exists_chunk_of_short hsize hloop (by omega) hlen hhead hhead (by omega) (by omega)
  exact List.ne_nil_of_mem hchunk

/-- A chunk is a piece of the text, no longer than a window. -/
theorem chunk_of_loop (hsize : 0 < chunkSize)
    (hloop : Loop (chunkEnd cs chunkSize) (nextStart cs chunkSize overlap) cs.length 0 ws)
    {chunk : List Char} (hchunk : chunk ∈ chunksOf cs ws) :
    chunk ≠ [] ∧ chunk <:+: cs ∧ chunk.length ≤ chunkSize := by
  obtain ⟨hnonempty, ⟨a, b⟩, hw, rfl⟩ := mem_chunksOf.mp hchunk
  obtain ⟨hinside, hstop⟩ := hloop.of_mem _ hw
  dsimp only at hinside hstop
  obtain ⟨hlt, hle, hwithin, -⟩ := chunkEnd_spec hsize hinside
  rw [← hstop] at hlt hle hwithin
  obtain ⟨a', n, hpiece, hn, -, -⟩ := stripWindow_piece (Nat.le_of_lt hlt) hle
  refine ⟨hnonempty, ?_, ?_⟩
  · rw [hpiece]
    exact ((List.take_prefix _ _).isInfix).trans (List.drop_suffix _ _).isInfix
  · rw [hpiece, List.length_take]
    omega

/-- **Chunking loses nothing.**  The function ends; every chunk of a text that is not blank is
a piece of it, not empty and no longer than the chunk size; and a piece of at most the overlap
and of at most half a chunk and a letter, which starts and ends with a letter, lies in one
chunk. -/
theorem chunks_lose_nothing (text : String) {chunkSize overlap : ℤ} (hsize : 0 < chunkSize)
    (hoverlap : 1 ≤ overlap) :
    SplitRun text chunkSize overlap (splitTextIntoChunks text chunkSize overlap) ∧
      (stripChars text.toList ≠ [] →
        (∀ chunk ∈ splitTextIntoChunks text chunkSize overlap,
          chunk ≠ "" ∧ chunk.toList <:+: stripChars text.toList ∧
            (chunk.length : ℤ) ≤ chunkSize) ∧
        ∀ i j, i < j → j ≤ (stripChars text.toList).length →
          LetterAt (stripChars text.toList) i → LetterAt (stripChars text.toList) (j - 1) →
          (j : ℤ) - i ≤ min overlap (chunkSize / 2 + 1) →
          ∃ chunk ∈ splitTextIntoChunks text chunkSize overlap, ∃ a,
            chunk.toList = ((stripChars text.toList).drop a).take chunk.length ∧
              a ≤ i ∧ j ≤ a + chunk.length) := by
  refine ⟨splitRun_splitTextIntoChunks text chunkSize overlap, fun hne => ?_⟩
  have hrun := splitRun_splitTextIntoChunks text chunkSize overlap
  generalize splitTextIntoChunks text chunkSize overlap = chunks at hrun ⊢
  cases hrun with
  | blank hblank => exact absurd hblank hne
  | short _ hshort =>
    have htext : (pyStrip text).toList = stripChars text.toList := String.toList_ofList
    have hlength : (pyStrip text).length = (stripChars text.toList).length := by
      rw [← String.length_toList, htext]
    refine ⟨?_, fun i j hij hj _ _ _ => ⟨_, List.mem_singleton_self _, 0, ?_, by omega, by omega⟩⟩
    · intro chunk hchunk
      obtain rfl := List.mem_singleton.mp hchunk
      refine ⟨fun hempty => hne ?_, ?_, by omega⟩
      · rw [← htext, hempty]
        rfl
      · exact ⟨[], [], by rw [List.nil_append, List.append_nil, htext]⟩
    · rw [htext, hlength, List.drop_zero, List.take_length]
  | loop ws _ _ hlong hloop =>
    have htoNat : 0 < chunkSize.toNat := by omega
    -- some window is not blank, so the fallback for no chunks is not taken
    have hsome := chunksOf_ne_nil htoNat hoverlap hloop (Trim.trimmed_trim _ _) hne
    rw [if_neg (fun hempty => hsome (List.isEmpty_iff.mp hempty))]
    constructor
    · intro chunk hchunk
      obtain ⟨chunk, hmem, rfl⟩ := List.mem_map.mp hchunk
      obtain ⟨hnonempty, hinfix, hlength⟩ := chunk_of_loop htoNat hloop hmem
      refine ⟨fun hempty => hnonempty ?_, ?_, ?_⟩
      · rw [← String.toList_ofList (l := chunk), hempty]
        rfl
      · rwa [String.toList_ofList]
      · rw [← String.length_toList, String.toList_ofList]
        omega
    · intro i j hij hj hfirst hlast hshort
      -- the window that holds the piece is stripped only outside of it
      obtain ⟨chunk, hchunk, a, hpiece, hai, hja⟩ := exists_chunk_of_short htoNat hloop hij hj
        hfirst hlast (by omega) (by omega)
      refine ⟨String.ofList chunk, List.mem_map_of_mem hchunk, a, ?_, hai, ?_⟩
      · rw [← String.length_toList, String.toList_ofList]
        exact hpiece
      · rw [← String.length_toList, String.toList_ofList]
        exact hja

/-- Two words are cut in chunks of five letters, and each lies in one of them. -/
theorem chunks_lose_nothing_words :
    SplitRun "one two" 5 3 (splitTextIntoChunks "one two" 5 3) ∧
      (∀ chunk ∈ splitTextIntoChunks "one two" 5 3,
        chunk.toList <:+: "one two".toList ∧ (chunk.length : ℤ) ≤ 5) ∧
      (∃ chunk ∈ splitTextIntoChunks "one two" 5 3, ∃ a,
        chunk.toList = ("one two".toList.drop a).take chunk.length ∧ a ≤ 0 ∧
          3 ≤ a + chunk.length) ∧
      ∃ chunk ∈ splitTextIntoChunks "one two" 5 3, ∃ a,
        chunk.toList = ("one two".toList.drop a).take chunk.length ∧ a ≤ 4 ∧
          7 ≤ a + chunk.length := by
  have hstrip : stripChars "one two".toList = "one two".toList := by decide
  obtain ⟨hrun, hkept⟩ := @chunks_lose_nothing "one two" 5 3 (by decide) (by decide)
  rw [hstrip] at hkept
  obtain ⟨hchunks, hpieces⟩ := hkept (by decide)
  refine ⟨hrun, fun chunk hchunk => (hchunks chunk hchunk).2, ?_, ?_⟩
  · exact hpieces 0 3 (by decide) (by decide) ⟨'o', rfl, rfl⟩ ⟨'e', rfl, rfl⟩ (by decide)
  · exact hpieces 4 7 (by decide) (by decide) ⟨'t', rfl, rfl⟩ ⟨'o', rfl, rfl⟩ (by decide)

end Holds

end ExtractFlow
