import ExtractFlow.Lib.Utf16

/-!
# Form-encoded texts

Pairs of texts as one text of safe characters, and the reader of such texts.  A text
is its bytes in UTF-8; a blank is written `+`, a byte that is not safe is written as a
percent sign and two hexadecimal digits, and pairs are joined by `&` with `=` between
name and value.  Which bytes are safe differs from writer to writer, so the set is a
parameter; what is written is read the same.

The reader takes any bytes.  Bytes that are no UTF-8 are read as replacement
characters, by the decoder of browsers: a byte that cannot continue a character is read
again as the first of the next one.

## Main definitions

* `bytesOf`, `utf8` — a character and a text in UTF-8.
* `decodeUtf8` — the text of bytes.
* `SafeBytes` — the bytes that stand for themselves.
* `encode`, `serialize` — a text and a list of pairs, written.
* `percentDecode`, `parse` — the reader.

## Main results

* `decodeUtf8_utf8` — a text is read from its bytes.
* `decodeText_encode` — a text is read as it was written.
* `parse_serialize` — so are pairs.
-/

namespace FormEncoding

/-! ### UTF-8 -/

/-- The bytes of a character in UTF-8: one for an ASCII character, two to four for others, of which
all but the first begin with the bits 10. -/
def bytesOf (c : Char) : List ℕ :=
  let v := c.toNat
  if v < 0x80 then [v]
  else if v < 0x800 then [0xC0 + v / 0x40, 0x80 + v % 0x40]
  else if v < 0x10000 then [0xE0 + v / 0x1000, 0x80 + v / 0x40 % 0x40, 0x80 + v % 0x40]
  else [0xF0 + v / 0x40000, 0x80 + v / 0x1000 % 0x40, 0x80 + v / 0x40 % 0x40, 0x80 + v % 0x40]

/-- The bytes of a text in UTF-8, character by character. -/
def utf8 (cs : List Char) : List ℕ := cs.flatMap bytesOf

/-- The character that bytes of no character are read as. -/
def replacement : Char := Char.ofNat 0xFFFD

/-- A character whose first bytes are read: their bits, how many bytes are to come,
and the bounds of the next one. -/
structure Pending where
  bits : ℕ
  needed : ℕ
  lower : ℕ := 0x80
  upper : ℕ := 0xBF

/-- The first byte of a character. -/
def firstByte (b : ℕ) : List Char × Option Pending :=
  if b < 0x80 then ([Char.ofNat b], none)
  else if 0xC2 ≤ b ∧ b ≤ 0xDF then ([], some { bits := b - 0xC0, needed := 1 })
  else if 0xE0 ≤ b ∧ b ≤ 0xEF then
    ([], some
      { bits := b - 0xE0, needed := 2
        lower := if b = 0xE0 then 0xA0 else 0x80
        upper := if b = 0xED then 0x9F else 0xBF })
  else if 0xF0 ≤ b ∧ b ≤ 0xF4 then
    ([], some
      { bits := b - 0xF0, needed := 3
        lower := if b = 0xF0 then 0x90 else 0x80
        upper := if b = 0xF4 then 0x8F else 0xBF })
  else ([replacement], none)

/-- A byte after those of `p`. -/
def nextByte (p : Pending) (b : ℕ) : List Char × Option Pending :=
  if p.lower ≤ b ∧ b ≤ p.upper then
    let bits := p.bits * 0x40 + (b - 0x80)
    if p.needed = 1 then ([Char.ofNat bits], none)
    else ([], some { bits := bits, needed := p.needed - 1 })
  else
    -- the byte does not continue the character, and is read again
    (replacement :: (firstByte b).1, (firstByte b).2)

/-- The text of bytes, with a character begun or none. -/
def decodeFrom : Option Pending → List ℕ → List Char
  | none, [] => []
  | some _, [] => [replacement]
  | none, b :: bs => (firstByte b).1 ++ decodeFrom (firstByte b).2 bs
  | some p, b :: bs => (nextByte p b).1 ++ decodeFrom (nextByte p b).2 bs

/-- The text that a browser reads from bytes, with replacement characters where they are no UTF-8.
-/
def decodeUtf8 (bs : List ℕ) : List Char := decodeFrom none bs

theorem decodeFrom_none {b : ℕ} {cs : List Char} {p : Option Pending}
    (h : firstByte b = (cs, p)) (bs : List ℕ) :
    decodeFrom none (b :: bs) = cs ++ decodeFrom p bs := by
  rw [decodeFrom, h]

theorem decodeFrom_some {p : Pending} {b : ℕ} {l : List Char} {q : Option Pending}
    (h : nextByte p b = (l, q)) (bs : List ℕ) :
    decodeFrom (some p) (b :: bs) = l ++ decodeFrom q bs := by
  rw [decodeFrom, h]

/-- A byte that continues a character, not the last. -/
theorem decodeFrom_continue {p : Pending} {b : ℕ} (hlower : p.lower ≤ b) (hupper : b ≤ p.upper)
    (hneeded : p.needed ≠ 1) (bs : List ℕ) :
    decodeFrom (some p) (b :: bs) =
      decodeFrom (some { bits := p.bits * 0x40 + (b - 0x80), needed := p.needed - 1 }) bs := by
  rw [decodeFrom_some (l := []) (q := some _)
    (by rw [nextByte, if_pos ⟨hlower, hupper⟩, if_neg hneeded])]
  rfl

/-- The last byte of a character. -/
theorem decodeFrom_last {p : Pending} {b : ℕ} (hlower : p.lower ≤ b) (hupper : b ≤ p.upper)
    (hneeded : p.needed = 1) (bs : List ℕ) :
    decodeFrom (some p) (b :: bs) =
      Char.ofNat (p.bits * 0x40 + (b - 0x80)) :: decodeFrom none bs := by
  rw [decodeFrom_some (l := [_]) (q := none)
    (by rw [nextByte, if_pos ⟨hlower, hupper⟩, if_pos hneeded])]
  rfl

/-- **A character is read from its bytes.** -/
theorem decodeFrom_bytesOf (c : Char) (bs : List ℕ) :
    decodeFrom none (bytesOf c ++ bs) = c :: decodeFrom none bs := by
  have hrange := Utf16.not_surrogate c
  have hmax := Utf16.toNat_lt c
  have hself : Char.ofNat c.toNat = c := Char.ofNat_toNat c
  unfold bytesOf
  simp only
  generalize c.toNat = v at hrange hmax hself
  split
  · next h1 =>
    rw [List.singleton_append, decodeFrom_none (by rw [firstByte, if_pos h1]), hself]
    rfl
  · next h1 =>
    split
    · next h2 =>
      -- two bytes
      rw [List.cons_append, List.cons_append, List.nil_append,
        decodeFrom_none (by rw [firstByte, if_neg (by omega), if_pos (by omega)]), List.nil_append,
        decodeFrom_last (by simp) (by simp; omega) rfl]
      have hbits : (0xC0 + v / 0x40 - 0xC0) * 0x40 + (0x80 + v % 0x40 - 0x80) = v := by omega
      simp only [hbits, hself]
    · next h2 =>
      split
      · next h3 =>
        -- three bytes; the second has bounds of its own after 0xE0 and 0xED
        rw [List.cons_append, List.cons_append, List.cons_append, List.nil_append,
          decodeFrom_none (by
            rw [firstByte, if_neg (by omega), if_neg (by omega), if_pos (by omega)]),
          List.nil_append,
          decodeFrom_continue (by simp only; split <;> omega) (by simp only; split <;> omega)
            (by simp),
          decodeFrom_last (by simp) (by simp; omega) rfl]
        have hbits : ((0xE0 + v / 0x1000 - 0xE0) * 0x40 + (0x80 + v / 0x40 % 0x40 - 0x80)) * 0x40 +
            (0x80 + v % 0x40 - 0x80) = v := by omega
        simp only [hbits, hself]
      · next h3 =>
        -- four bytes; the second has bounds of its own after 0xF0 and 0xF4
        rw [List.cons_append, List.cons_append, List.cons_append, List.cons_append,
          List.nil_append,
          decodeFrom_none (by
            rw [firstByte, if_neg (by omega), if_neg (by omega), if_neg (by omega),
              if_pos (by omega)]),
          List.nil_append,
          decodeFrom_continue (by simp only; split <;> omega) (by simp only; split <;> omega)
            (by simp),
          decodeFrom_continue (by simp) (by simp; omega) (by simp),
          decodeFrom_last (by simp) (by simp; omega) rfl]
        have hbits : (((0xF0 + v / 0x40000 - 0xF0) * 0x40 + (0x80 + v / 0x1000 % 0x40 - 0x80)) *
            0x40 + (0x80 + v / 0x40 % 0x40 - 0x80)) * 0x40 + (0x80 + v % 0x40 - 0x80) = v := by
          omega
        simp only [hbits, hself]

/-- **A text is read from its bytes**: decoding undoes encoding, for every text. -/
theorem decodeUtf8_utf8 (cs : List Char) : decodeUtf8 (utf8 cs) = cs := by
  unfold decodeUtf8 utf8
  induction cs with
  | nil => rfl
  | cons c cs ih => rw [List.flatMap_cons, decodeFrom_bytesOf, ih]

theorem lt_of_mem_bytesOf {c : Char} {b : ℕ} (h : b ∈ bytesOf c) : b < 0x100 := by
  have hmax := Utf16.toNat_lt c
  unfold bytesOf at h
  simp only at h
  generalize c.toNat = v at h hmax
  split at h
  · simp only [List.mem_singleton] at h
    omega
  · split at h
    · simp only [List.mem_cons, List.not_mem_nil, or_false] at h
      omega
    · split at h <;> simp only [List.mem_cons, List.not_mem_nil, or_false] at h <;> omega

theorem lt_of_mem_utf8 {cs : List Char} {b : ℕ} (h : b ∈ utf8 cs) : b < 0x100 := by
  obtain ⟨c, -, hb⟩ := List.mem_flatMap.mp h
  exact lt_of_mem_bytesOf hb

/-! ### Writing -/

/-- The bytes that stand for themselves: of ASCII, and none of those the reader takes
for something else. -/
structure SafeBytes where
  safe : ℕ → Bool
  ascii : ∀ b, safe b = true → b < 0x80
  plain : ∀ b, safe b = true → b ≠ 0x20 ∧ b ≠ 0x25 ∧ b ≠ 0x26 ∧ b ≠ 0x2B ∧ b ≠ 0x3D

/-- A hexadecimal digit, in upper case. -/
def hexDigit (d : ℕ) : ℕ := if d < 10 then 0x30 + d else 0x37 + d

variable (set : SafeBytes)

/-- A byte, written. -/
def encodeByte (b : ℕ) : List ℕ :=
  if b = 0x20 then [0x2B]
  else if set.safe b then [b]
  else [0x25, hexDigit (b / 0x10), hexDigit (b % 0x10)]

/-- A text as it is written in a query: its UTF-8 bytes, where those outside the safe set are
escaped. -/
def encode (s : String) : List ℕ := (utf8 s.toList).flatMap (encodeByte set)

/-- A pair, written. -/
def encodePair (pair : String × String) : List ℕ := encode set pair.1 ++ 0x3D :: encode set pair.2

/-- Pairs as they are written in a query: name and value with `=` between them, the pairs with `&`
between them. -/
def serialize (pairs : List (String × String)) : List ℕ :=
  [0x26].intercalate (pairs.map (encodePair set))

/-- The text of bytes of ASCII. -/
def asciiText (bs : List ℕ) : String := String.ofList (bs.map Char.ofNat)

/-! ### Reading -/

/-- The value of a hexadecimal digit. -/
def hexValue (b : ℕ) : Option ℕ :=
  if 0x30 ≤ b ∧ b ≤ 0x39 then some (b - 0x30)
  else if 0x41 ≤ b ∧ b ≤ 0x46 then some (b - 0x37)
  else if 0x61 ≤ b ∧ b ≤ 0x66 then some (b - 0x57)
  else none

/-- The byte that two digits at the front stand for. -/
def hexByte : List ℕ → Option ℕ
  | h :: l :: _ => (hexValue h).bind fun h => (hexValue l).map fun l => h * 0x10 + l
  | _ => none

/-- Percent signs with two digits behind them are the bytes they stand for; the count
of the bytes to skip is that of the digits. -/
def percentDecodeFrom : ℕ → List ℕ → List ℕ
  | _, [] => []
  | skip + 1, _ :: bs => percentDecodeFrom skip bs
  | 0, b :: bs =>
      if b = 0x25 then
        match hexByte bs with
        | some byte => byte :: percentDecodeFrom 2 bs
        | none => b :: percentDecodeFrom 0 bs
      else b :: percentDecodeFrom 0 bs

/-- Percent-decoding: a percent sign with two hexadecimal digits is the byte they name, and any
other byte stands for itself. -/
def percentDecode (bs : List ℕ) : List ℕ := percentDecodeFrom 0 bs

/-- A `+` is a blank. -/
def plusToBlank (b : ℕ) : ℕ := if b = 0x2B then 0x20 else b

/-- A name or a value, read. -/
def decodeText (bs : List ℕ) : String :=
  String.ofList (decodeUtf8 (percentDecode (bs.map plusToBlank)))

/-- A pair, read: the name ends at the first `=`. -/
def decodePair (bs : List ℕ) : String × String :=
  (decodeText (bs.takeWhile (· != 0x3D)), decodeText ((bs.dropWhile (· != 0x3D)).drop 1))

/-- The pairs of bytes. -/
def parseBytes (bs : List ℕ) : List (String × String) :=
  ((bs.splitOn 0x26).filter fun piece => !piece.isEmpty).map decodePair

/-- The pairs a reader finds in a query: it is cut at `&`, each part at its first `=`, and name and
value are decoded. -/
def parse (s : String) : List (String × String) := parseBytes (utf8 s.toList)

/-! ### What is written is read -/

theorem hexValue_hexDigit {d : ℕ} (h : d < 0x10) : hexValue (hexDigit d) = some d := by
  unfold hexDigit hexValue
  split
  · rw [if_pos (by omega)]
    exact congrArg some (by omega)
  · rw [if_neg (by omega), if_pos (by omega)]
    exact congrArg some (by omega)

theorem hexDigit_bounds {d : ℕ} (h : d < 0x10) :
    (0x30 ≤ hexDigit d ∧ hexDigit d ≤ 0x39) ∨ (0x41 ≤ hexDigit d ∧ hexDigit d ≤ 0x46) := by
  unfold hexDigit
  split <;> omega

/-- The bytes that a name or a value is written with. -/
def Written (x : ℕ) : Prop :=
  x = 0x2B ∨ x = 0x25 ∨ set.safe x = true ∨ ∃ d < 0x10, x = hexDigit d

theorem written_of_mem_encodeByte {b x : ℕ} (hb : b < 0x100) (hx : x ∈ encodeByte set b) :
    Written set x := by
  unfold encodeByte at hx
  split at hx
  · exact Or.inl (List.mem_singleton.mp hx)
  · split at hx
    · next hsafe =>
      obtain rfl := List.mem_singleton.mp hx
      exact Or.inr (Or.inr (Or.inl hsafe))
    · simp only [List.mem_cons, List.not_mem_nil, or_false] at hx
      rcases hx with rfl | rfl | rfl
      · exact Or.inr (Or.inl rfl)
      · exact Or.inr (Or.inr (Or.inr ⟨b / 0x10, by omega, rfl⟩))
      · exact Or.inr (Or.inr (Or.inr ⟨b % 0x10, by omega, rfl⟩))

theorem written_of_mem_encode {s : String} {x : ℕ} (hx : x ∈ encode set s) : Written set x := by
  obtain ⟨b, hb, hx⟩ := List.mem_flatMap.mp hx
  exact written_of_mem_encodeByte set (lt_of_mem_utf8 hb) hx

/-- What is written is of ASCII and separates nothing. -/
theorem Written.plain {x : ℕ} (h : Written set x) : x < 0x80 ∧ x ≠ 0x26 ∧ x ≠ 0x3D := by
  rcases h with rfl | rfl | hsafe | ⟨d, hd, rfl⟩
  · omega
  · omega
  · have hascii := set.ascii x hsafe
    have hplain := set.plain x hsafe
    omega
  · have hdigit := hexDigit_bounds hd
    omega

/-- **What pairs are written with**: the bytes of names and values, and the separators. -/
theorem mem_serialize {pairs : List (String × String)} {x : ℕ} (hx : x ∈ serialize set pairs) :
    x = 0x26 ∨ x = 0x3D ∨ Written set x := by
  have hpair : ∀ pair : String × String, x ∈ encodePair set pair → x = 0x3D ∨ Written set x := by
    intro pair hx
    rcases List.mem_append.mp hx with hx | hx
    · exact Or.inr (written_of_mem_encode set hx)
    · rcases List.mem_cons.mp hx with hx | hx
      · exact Or.inl hx
      · exact Or.inr (written_of_mem_encode set hx)
  unfold serialize at hx
  induction pairs with
  | nil => cases hx
  | cons pair pairs ih =>
    cases pairs with
    | nil => exact Or.inr (hpair pair (by simpa using hx))
    | cons pair' pairs =>
      rw [List.map_cons, List.map_cons, List.intercalate_cons_cons, List.mem_append,
        List.mem_append, List.mem_singleton] at hx
      rcases hx with (hx | hx) | hx
      · exact Or.inr (hpair pair hx)
      · exact Or.inl hx
      · exact ih hx

/-- Written pairs are of ASCII. -/
theorem lt_of_mem_serialize {pairs : List (String × String)} {x : ℕ}
    (hx : x ∈ serialize set pairs) : x < 0x80 := by
  rcases mem_serialize set hx with rfl | rfl | hwritten
  · omega
  · omega
  · exact hwritten.plain.1

/-- A byte that is no percent sign is left. -/
theorem percentDecode_cons {b : ℕ} (hb : b ≠ 0x25) (bs : List ℕ) :
    percentDecode (b :: bs) = b :: percentDecode bs := by
  rw [percentDecode, percentDecodeFrom, if_neg hb]
  rfl

/-- Two digits behind a percent sign are a byte. -/
theorem percentDecode_percent {h l x y : ℕ} (hh : hexValue h = some x) (hl : hexValue l = some y)
    (bs : List ℕ) :
    percentDecode (0x25 :: h :: l :: bs) = (x * 0x10 + y) :: percentDecode bs := by
  rw [percentDecode, percentDecodeFrom, if_pos rfl, hexByte, hh, hl]
  rfl

/-- **A byte is read as it was written.** -/
theorem percentDecode_encodeByte {b : ℕ} (hb : b < 0x100) (bs : List ℕ) :
    percentDecode ((encodeByte set b).map plusToBlank ++ bs) = b :: percentDecode bs := by
  unfold encodeByte
  split
  · next hblank =>
    rw [hblank]
    exact percentDecode_cons (b := 0x20) (by omega) bs
  · split
    · next hsafe =>
      obtain ⟨-, hpercent, -, hplus, -⟩ := set.plain b hsafe
      rw [List.map_singleton, List.singleton_append, plusToBlank, if_neg hplus]
      exact percentDecode_cons hpercent bs
    · have hhigh := hexDigit_bounds (d := b / 0x10) (by omega)
      have hlow := hexDigit_bounds (d := b % 0x10) (by omega)
      have hsame : [0x25, hexDigit (b / 0x10), hexDigit (b % 0x10)].map plusToBlank =
          [0x25, hexDigit (b / 0x10), hexDigit (b % 0x10)] := by
        simp only [List.map_cons, List.map_nil, plusToBlank]
        rw [if_neg (by omega), if_neg (by omega), if_neg (by omega)]
      rw [hsame]
      show percentDecode (0x25 :: hexDigit (b / 0x10) :: hexDigit (b % 0x10) :: bs) = _
      rw [percentDecode_percent (hexValue_hexDigit (by omega)) (hexValue_hexDigit (by omega)),
        Nat.div_add_mod']

theorem percentDecode_encodeBytes {bytes : List ℕ} (h : ∀ b ∈ bytes, b < 0x100) :
    percentDecode ((bytes.flatMap (encodeByte set)).map plusToBlank) = bytes := by
  induction bytes with
  | nil => rfl
  | cons b bytes ih =>
    rw [List.flatMap_cons, List.map_append,
      percentDecode_encodeByte set (h b List.mem_cons_self),
      ih fun x hx => h x (List.mem_cons_of_mem b hx)]

/-- **A text is read as it was written**, whatever bytes the writer takes for safe. -/
theorem decodeText_encode (s : String) : decodeText (encode set s) = s := by
  unfold decodeText encode
  rw [percentDecode_encodeBytes set fun b hb => lt_of_mem_utf8 hb, decodeUtf8_utf8,
    String.ofList_toList]

/-- A pair is read as it was written. -/
theorem decodePair_encodePair (pair : String × String) :
    decodePair (encodePair set pair) = pair := by
  have hname : ∀ x ∈ encode set pair.1, (x != 0x3D) = true := by
    intro x hx
    simpa using (written_of_mem_encode set hx).plain.2.2
  unfold decodePair encodePair
  rw [List.takeWhile_append_of_pos hname, List.dropWhile_append_of_pos hname]
  simp [decodeText_encode]

theorem toNat_ofNat {b : ℕ} (hb : b < 0x80) : (Char.ofNat b).toNat = b := by
  have hvalid : b.isValidChar := Or.inl (by omega)
  have hself : Char.ofNat b = Char.ofNatAux b hvalid := dif_pos hvalid
  rw [hself]
  rfl

theorem bytesOf_ofNat {b : ℕ} (hb : b < 0x80) : bytesOf (Char.ofNat b) = [b] := by
  unfold bytesOf
  simp only [toNat_ofNat hb]
  rw [if_pos hb]

/-- The bytes of a text of ASCII. -/
theorem utf8_asciiText {bs : List ℕ} (h : ∀ b ∈ bs, b < 0x80) :
    utf8 (asciiText bs).toList = bs := by
  unfold asciiText utf8
  rw [String.toList_ofList]
  induction bs with
  | nil => rfl
  | cons b bs ih =>
    rw [List.map_cons, List.flatMap_cons, ih fun x hx => h x (List.mem_cons_of_mem b hx),
      bytesOf_ofNat (h b List.mem_cons_self), List.singleton_append]

/-- **Pairs are read as they were written**, in the same order and with nothing added. -/
theorem parse_serialize (pairs : List (String × String)) :
    parse (asciiText (serialize set pairs)) = pairs := by
  unfold parse
  rw [utf8_asciiText fun b hb => lt_of_mem_serialize set hb]
  unfold parseBytes
  by_cases hnil : pairs = []
  · subst hnil
    rfl
  · have hsplit : (serialize set pairs).splitOn 0x26 = pairs.map (encodePair set) := by
      unfold serialize
      apply List.splitOn_intercalate
      · intro piece hpiece
        obtain ⟨pair, -, rfl⟩ := List.mem_map.mp hpiece
        -- a name or a value is written without the separator
        intro hmem
        rcases List.mem_append.mp hmem with hmem | hmem
        · exact (written_of_mem_encode set hmem).plain.2.1 rfl
        · rcases List.mem_cons.mp hmem with heq | hmem
          · cases heq
          · exact (written_of_mem_encode set hmem).plain.2.1 rfl
      · simpa using hnil
    have hfull : (pairs.map (encodePair set)).filter (fun piece => !piece.isEmpty) =
        pairs.map (encodePair set) := by
      rw [List.filter_eq_self]
      intro piece hpiece
      obtain ⟨pair, -, rfl⟩ := List.mem_map.mp hpiece
      simp [encodePair]
    rw [hsplit, hfull, List.map_map]
    exact (List.map_congr_left fun pair _ => decodePair_encodePair set pair).trans
      (List.map_id pairs)

end FormEncoding
