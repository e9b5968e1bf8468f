import Mathlib.Data.List.Basic
import Mathlib.Tactic.Linarith

/-!
# Clock readings and fixed-width time stamps

A UTC clock reading, its order, and the fourteen-digit stamp `YYYYmmddHHMMSS`
that `strftime` writes for it.  The stamp forgets the microseconds and nothing
else: two readings share a stamp exactly when they fall in one second.

## Main definitions

* `Decimal.pad w n` — the last `w` decimal digits of `n`.
* `UtcTime`, `UtcTime.stamp`, `UtcTime.SameSecond`.

## Main results

* `Decimal.pad_inj` — fixed-width decimals are injective below `10 ^ w`.
* `Decimal.toString_inj` — so is the decimal text of a number, everywhere.
* `UtcTime.stamp_eq_iff` — equal stamps, equal seconds.
-/

namespace Decimal

/-- The last `w` decimal digits of `n`, the most significant first: `n` with leading zeros when it
has fewer digits, and cut off when it has more. -/
def pad : ℕ → ℕ → List Char
  | 0, _ => []
  | w + 1, n => pad w (n / 10) ++ [Nat.digitChar (n % 10)]

@[simp] theorem length_pad : ∀ (w n : ℕ), (pad w n).length = w
  | 0, _ => rfl
  | w + 1, n => by simp [pad, length_pad w]

theorem digitChar_inj {a b : ℕ} (ha : a < 10) (hb : b < 10)
    (h : Nat.digitChar a = Nat.digitChar b) : a = b := by
  have key : ∀ a : Fin 10, ∀ b : Fin 10, Nat.digitChar a = Nat.digitChar b → a = b := by decide
  exact congrArg Fin.val (key ⟨a, ha⟩ ⟨b, hb⟩ h)

/-- Fixed-width decimals determine the number, as long as the number fits into the width. -/
theorem pad_inj : ∀ {w m n : ℕ}, m < 10 ^ w → n < 10 ^ w → pad w m = pad w n → m = n := by
  intro w
  induction w with
  | zero => intro m n hm hn _; simp at hm hn; omega
  | succ w ih =>
    intro m n hm hn h
    obtain ⟨hhead, hlast⟩ := List.append_inj' h (by simp)
    have hq : m / 10 = n / 10 := by
      refine ih ?_ ?_ hhead
      · rw [pow_succ] at hm; omega
      · rw [pow_succ] at hn; omega
    have hr : m % 10 = n % 10 :=
      digitChar_inj (Nat.mod_lt _ (by decide)) (Nat.mod_lt _ (by decide)) (by simpa using hlast)
    omega

/-- The decimal text of a number, without leading zeros, determines it. -/
theorem toString_inj {m n : ℕ} (h : (toString m).toList = (toString n).toList) : m = n := by
  have hdigits : Nat.toDigits 10 m = Nat.toDigits 10 n := by
    simpa only [Nat.toString_eq_ofList_toDigits, String.toList_ofList] using h
  rw [← Nat.ofDigitChars_ten_toDigits (n := m), hdigits, Nat.ofDigitChars_ten_toDigits]

end Decimal

/-- A UTC clock reading of a four-digit year. The bounds say that each part fits into the digits the
stamp gives it; no reading violates them. -/
structure UtcTime where
  year : ℕ
  month : ℕ
  day : ℕ
  hour : ℕ
  minute : ℕ
  second : ℕ
  microsecond : ℕ
  year_lt : year < 10000 := by decide
  month_lt : month < 13 := by decide
  day_lt : day < 32 := by decide
  hour_lt : hour < 24 := by decide
  minute_lt : minute < 60 := by decide
  second_lt : second < 60 := by decide
  microsecond_lt : microsecond < 1000000 := by decide
  deriving Repr, DecidableEq

namespace UtcTime

/-- The epoch. -/
def epoch : UtcTime where
  year := 1970
  month := 1
  day := 1
  hour := 0
  minute := 0
  second := 0
  microsecond := 0

instance : Inhabited UtcTime := ⟨epoch⟩

/-- The position of a reading on the time line. -/
def key (t : UtcTime) : ℕ :=
  (((((t.year * 13 + t.month) * 32 + t.day) * 24 + t.hour) * 60 + t.minute) * 60 + t.second)
    * 1000000 + t.microsecond

instance : LE UtcTime := ⟨fun s t => s.key ≤ t.key⟩

instance (s t : UtcTime) : Decidable (s ≤ t) := inferInstanceAs (Decidable (s.key ≤ t.key))

theorem le_refl (t : UtcTime) : t ≤ t := Nat.le_refl t.key

/-- What `strftime("%Y%m%d%H%M%S")` writes: the year in four digits and the other parts in two,
without the microseconds. -/
def stamp (t : UtcTime) : List Char :=
  Decimal.pad 4 t.year ++ Decimal.pad 2 t.month ++ Decimal.pad 2 t.day ++ Decimal.pad 2 t.hour
    ++ Decimal.pad 2 t.minute ++ Decimal.pad 2 t.second

@[simp] theorem length_stamp (t : UtcTime) : t.stamp.length = 14 := by simp [stamp]

/-- The two readings fall in one second: they agree in every part but the microseconds. -/
def SameSecond (s t : UtcTime) : Prop :=
  s.year = t.year ∧ s.month = t.month ∧ s.day = t.day ∧ s.hour = t.hour ∧ s.minute = t.minute ∧
    s.second = t.second

instance (s t : UtcTime) : Decidable (SameSecond s t) :=
  inferInstanceAs (Decidable (_ ∧ _))

/-- **Two readings share a stamp exactly when they fall in one second**, so a stamp tells no two
readings of that second apart. -/
theorem stamp_eq_iff {s t : UtcTime} : s.stamp = t.stamp ↔ SameSecond s t := by
  constructor
  · intro h
    obtain ⟨h, hsec⟩ := List.append_inj' h (by simp)
    obtain ⟨h, hmin⟩ := List.append_inj' h (by simp)
    obtain ⟨h, hhour⟩ := List.append_inj' h (by simp)
    obtain ⟨h, hday⟩ := List.append_inj' h (by simp)
    obtain ⟨hyear, hmonth⟩ := List.append_inj' h (by simp)
    have two : ∀ {m n b : ℕ}, b ≤ 100 → m < b → n < b → Decimal.pad 2 m = Decimal.pad 2 n →
        m = n := fun hb hm hn h => Decimal.pad_inj (by omega) (by omega) h
    exact ⟨Decimal.pad_inj s.year_lt t.year_lt hyear,
      two (by decide) s.month_lt t.month_lt hmonth, two (by decide) s.day_lt t.day_lt hday,
      two (by decide) s.hour_lt t.hour_lt hhour, two (by decide) s.minute_lt t.minute_lt hmin,
      two (by decide) s.second_lt t.second_lt hsec⟩
  · rintro ⟨hy, hmo, hd, hh, hmi, hs⟩
    simp only [stamp, hy, hmo, hd, hh, hmi, hs]

end UtcTime
