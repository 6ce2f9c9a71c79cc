import CaseAccess.Calendar.InstantText
import CaseAccess.Proofs.DayNumber
import Mathlib

/-!
# What is read back of an instant

An instant is kept as a text with six digits of its fraction, and read from that text
again. The writer knows all years of the calendar, the reader only those of four digits;
and the text has no room for what is finer than a microsecond, nor for a leap second that
does not end a minute. `parse?_text` says what comes back: the truncated instant, if its
year has four digits, and nothing otherwise.

The fields of the text have fixed widths, so each is read off by a count of characters.
That is `readExactly_padded`; the rest is the arithmetic of the clock.
-/

namespace CaseAccess

/-! ## Digits -/

namespace Decimal

theorem value_append (ds : List Char) (c : Char) :
    value (ds ++ [c]) = value ds * 10 + (c.toNat - 48) := by
  rw [value, List.foldl_append]
  rfl

/-- The last digit of a number in a fixed width. -/
theorem padded_succ {width n : Nat} (hwidth : 1 ≤ width) :
    padded (width + 1) n = padded width (n / 10) ++ [Nat.digitChar (n % 10)] := by
  rw [padded, padded, digits, digits]
  by_cases hn : n < 10
  · rw [Nat.toDigits_of_lt_base hn, Nat.div_eq_of_lt hn, Nat.mod_eq_of_lt hn, Nat.toDigits_zero]
    obtain ⟨k, rfl⟩ := Nat.exists_eq_add_of_le' hwidth
    simp only [List.length_singleton, Nat.add_sub_cancel]
    rw [List.replicate_succ']
  · rw [Nat.toDigits_of_base_le (by decide) (by omega)]
    simp only [List.length_append, List.length_singleton, Nat.add_sub_add_right, List.append_assoc]

theorem padded_one {n : Nat} (h : n < 10) : padded 1 n = [Nat.digitChar n] := by
  rw [padded, digits, Nat.toDigits_of_lt_base h]
  rfl

theorem isDigit_digitChar : ∀ n < 10, (Nat.digitChar n).isDigit = true := by decide

theorem toNat_digitChar : ∀ n < 10, (Nat.digitChar n).toNat - 48 = n := by decide

/-- A number that fits is written in so many digits, which have its value. -/
theorem padded_fits {width n : Nat} (hwidth : 1 ≤ width) (h : n < 10 ^ width) :
    (padded width n).length = width ∧ (padded width n).all Char.isDigit = true ∧
      value (padded width n) = n := by
  induction hwidth generalizing n with
  | refl =>
      rw [padded_one h]
      refine ⟨rfl, ?_, ?_⟩
      · simp [isDigit_digitChar n h]
      · exact (Nat.zero_add _).trans (toNat_digitChar n h)
  | @step width hwidth ih =>
      have hlast : n % 10 < 10 := Nat.mod_lt _ (by decide)
      have hfront : n / 10 < 10 ^ width := by
        rw [Nat.pow_succ] at h
        omega
      obtain ⟨hlength, hdigits, hvalue⟩ := ih hfront
      rw [padded_succ hwidth]
      refine ⟨?_, ?_, ?_⟩
      · rw [List.length_append, hlength]
        rfl
      · simp [hdigits, isDigit_digitChar _ hlast]
      · rw [value_append, hvalue, toNat_digitChar _ hlast]
        omega

/-- The first digits of a number are those of a smaller one. -/
theorem take_padded_add {width n : Nat} (hwidth : 1 ≤ width) (h : n < 10 ^ (width + 3)) :
    (padded (width + 3) n).take width = padded width (n / 1000) := by
  have hfits : n / 1000 < 10 ^ width := by
    rw [Nat.pow_add] at h
    omega
  rw [padded_succ (by omega), padded_succ (by omega), padded_succ hwidth, Nat.div_div_eq_div_mul,
    Nat.div_div_eq_div_mul, List.append_assoc, List.append_assoc]
  exact List.take_left' (padded_fits hwidth hfits).1

end Decimal

namespace Instant

open Decimal

theorem readExactly_padded {width n : Nat} (hwidth : 1 ≤ width) (h : n < 10 ^ width)
    (rest : List Char) : readExactly width (padded width n ++ rest) = some (n, rest) := by
  obtain ⟨hlength, hdigits, hvalue⟩ := padded_fits hwidth h
  rw [readExactly, List.take_left' hlength, List.drop_left' hlength]
  simp only [hlength, hdigits, hvalue, true_and, if_true]

/-- Six digits of a fraction count microseconds. -/
theorem readFraction_padded {n : Nat} (h : n < 1000000) :
    readFraction ('.' :: (padded 6 n ++ ['Z'])) = some (n * 1000, ['Z']) := by
  obtain ⟨hlength, hdigits, hvalue⟩ : (padded 6 n).length = 6 ∧
      (padded 6 n).all Char.isDigit = true ∧ value (padded 6 n) = n := padded_fits (by decide) h
  have hrun : run? (padded 6 n ++ ['Z']) = some (padded 6 n, ['Z']) := by
    rw [List.all_eq_true] at hdigits
    rw [run?, List.takeWhile_append_of_pos hdigits, List.dropWhile_append_of_pos hdigits]
    cases hpadded : padded 6 n with
    | nil =>
        rw [hpadded] at hlength
        cases hlength
    | cons c cs => simp
  rw [readFraction, hrun]
  show some (value ((padded 6 n).take 9) * Nat.pow 10 (9 - ((padded 6 n).take 9).length), ['Z']) = _
  rw [List.take_of_length_le (by omega), hlength, hvalue]

/-! ## The clock -/

/-- The instant of a day and a second of it is found again by counting from the epoch. -/
theorem ofEpoch?_eq (date : Date) {second nanos : Nat} (hsecond : second < 86400)
    (hnanos : nanos < 2000000000) :
    ofEpoch? ((date.dayNumber - epochDay) * 86400 + second) nanos =
      some ⟨date, second, nanos, hsecond, hnanos⟩ := by
  have hday : ((date.dayNumber - epochDay) * 86400 + second) / 86400 + epochDay =
      date.dayNumber := by omega
  have hrest : (((date.dayNumber - epochDay) * 86400 + second) % 86400).toNat = second := by omega
  rw [ofEpoch?, hday, Date.ofDayNumber?_dayNumber, hrest]
  show of? date second nanos = _
  rw [of?, dif_pos ⟨hsecond, hnanos⟩]

/-- The second that a clock shows, which is 60 in a leap second. -/
def shownSecond (t : Instant) : Nat := t.second % 60 + if t.nanos < 1000000000 then 0 else 1

theorem clock_eq (t : Instant) :
    t.clock = padded 2 (t.second / 3600) ++ ':' :: padded 2 (t.second / 60 % 60)
      ++ ':' :: padded 2 t.shownSecond := rfl

theorem fractionText_six (t : Instant) :
    t.fractionText 6 = '.' :: padded 6 (t.fraction / 1000) := by
  have hfraction : t.fraction < 10 ^ 9 := Nat.mod_lt _ (by decide)
  rw [fractionText, if_neg (by decide), take_padded_add (by decide) hfraction]

/-- Second and nanoseconds of the clock, with a leap second where it is 60. -/
def clockReading (t : Instant) : Nat × Nat :=
  if t.shownSecond = 60 then (59, t.fraction / 1000 * 1000 + 1000000000)
  else (t.shownSecond, t.fraction / 1000 * 1000)

/-- What the clock shows is the truncated instant. -/
theorem clockReading_eq (t : Instant) :
    t.second / 3600 * 3600 + t.second / 60 % 60 * 60 + t.clockReading.1 = t.truncated.second ∧
      t.clockReading.2 = t.truncated.nanos := by
  have hnanos := t.nanos_lt
  rw [clockReading, shownSecond, fraction, truncated]
  by_cases hleap : t.nanos < 1000000000
  · rw [if_pos hleap, if_neg (by omega), dif_neg (by omega)]
    exact ⟨by simp only; omega, by simp only; omega⟩
  · rw [if_neg hleap]
    by_cases hlast : t.second % 60 = 59
    · rw [if_pos (by omega), dif_neg (by omega)]
      exact ⟨by simp only; omega, by simp only; omega⟩
    · rw [if_neg (by omega), dif_pos ⟨hlast, by omega⟩]
      exact ⟨by simp only; omega, by simp only; omega⟩

theorem shownSecond_le (t : Instant) : t.shownSecond ≤ 60 := by
  have hlast : t.second % 60 < 60 := Nat.mod_lt _ (by decide)
  rw [shownSecond]
  split
  · omega
  · omega

/-- The fields of the text, from the largest to the smallest. -/
theorem toList_text {t : Instant} (h : t.isReadable = true) :
    (t.text 6).toList = padded 4 t.date.year.toNat ++ '-' :: (padded 2 t.date.month ++
      '-' :: (padded 2 t.date.day ++ 'T' :: (padded 2 (t.second / 3600) ++
        ':' :: (padded 2 (t.second / 60 % 60) ++ ':' :: (padded 2 t.shownSecond ++
          '.' :: (padded 6 (t.fraction / 1000) ++ ['Z'])))))) := by
  rw [isReadable, Bool.and_eq_true, decide_eq_true_eq, decide_eq_true_eq] at h
  rw [text, String.toList_ofList, Date.text, String.toList_ofList, Date.yearText, if_pos h,
    clock_eq, fractionText_six]
  simp only [List.append_assoc, List.cons_append]

theorem readMark_self {marks : List Char} {c : Char} (h : c ∈ marks) (rest : List Char) :
    readMark marks (c :: rest) = some rest :=
  if_pos h

/-- The text of an instant in a year of four digits is read as the instant truncated. -/
theorem ofText?_text {t : Instant} (h : t.isReadable = true) :
    ofText? (t.text 6).toList = some t.truncated := by
  rw [toList_text h]
  rw [isReadable, Bool.and_eq_true, decide_eq_true_eq, decide_eq_true_eq] at h
  have hyear : (t.date.year.toNat : Int) = t.date.year := Int.toNat_of_nonneg h.1
  obtain ⟨-, -, -, hmonth, -, hday⟩ := t.date.isDate
  have hday : t.date.day ≤ 31 := Nat.le_trans hday (Date.daysInMonth_le _ _)
  have hdate : Date.of? t.date.year t.date.month t.date.day = some t.date := by
    rw [Date.of?, dif_pos t.date.isDate]
  have hsecond := t.second_lt
  have hshown := t.shownSecond_le
  have hfraction : t.fraction < 1000000000 := Nat.mod_lt _ (by decide)
  have readYear : ∀ rest, readExactly 4 (padded 4 t.date.year.toNat ++ rest) = _ :=
    readExactly_padded (by decide) (by omega)
  have readTwo : ∀ n < 100, ∀ rest, readExactly 2 (padded 2 n ++ rest) = some (n, rest) :=
    fun n hn => readExactly_padded (by decide) hn
  have readMicros := readFraction_padded (by omega : t.fraction / 1000 < 1000000)
  have hdash := readMark_self (List.mem_singleton.2 rfl : '-' ∈ ['-'])
  have hcolon := readMark_self (List.mem_singleton.2 rfl : ':' ∈ [':'])
  have htime := readMark_self (List.mem_cons_self : 'T' ∈ ['T', 't', ' '])
  have hzone : readOffset ['Z'] = some 0 := rfl
  rw [ofText?, readYear]
  dsimp only [Option.bind_eq_bind, Option.bind_some]
  rw [hdash, Option.bind_some, readTwo _ (by omega), Option.bind_some, hdash, Option.bind_some,
    readTwo _ (by omega), Option.bind_some, htime, Option.bind_some, readTwo _ (by omega),
    Option.bind_some, hcolon, Option.bind_some, readTwo _ (by omega), Option.bind_some, hcolon,
    Option.bind_some, readTwo _ (by omega), Option.bind_some, readMicros, Option.bind_some, hzone,
    Option.bind_some, hyear, hdate, Option.bind_some]
  rw [if_pos (by omega)]
  obtain ⟨hclock, hnanos⟩ := t.clockReading_eq
  show ofEpoch? ((t.date.dayNumber - epochDay) * 86400 + (_ + t.clockReading.1 : Nat) - 0)
    t.clockReading.2 = _
  rw [hclock, hnanos, Int.sub_zero, ← truncated_date,
    ofEpoch?_eq t.truncated.date t.truncated.second_lt t.truncated.nanos_lt]

/-- A year with a sign is not read. -/
theorem ofText?_of_not_readable {t : Instant} (h : t.isReadable = false) :
    ofText? (t.text 6).toList = none := by
  have hyear : ¬ (0 ≤ t.date.year ∧ t.date.year ≤ 9999) := by
    rw [isReadable, Bool.and_eq_false_iff, decide_eq_false_iff_not, decide_eq_false_iff_not] at h
    omega
  have hsign : ∀ rest : List Char,
      readExactly 4 ((if t.date.year < 0 then '-' else '+') :: rest) = none := by
    intro rest
    rw [readExactly, if_neg]
    rintro ⟨-, hdigits⟩
    rw [List.take_succ_cons, List.all_cons, Bool.and_eq_true] at hdigits
    split at hdigits
    · exact absurd hdigits.1 (by decide)
    · exact absurd hdigits.1 (by decide)
  rw [text, String.toList_ofList, Date.text, String.toList_ofList, Date.yearText, if_neg hyear]
  simp only [List.cons_append]
  rw [ofText?, hsign]
  rfl

/-- What is read back of an instant that is written with six digits. -/
theorem parse?_text (t : Instant) :
    parse? (t.text 6) = if t.isReadable then some t.truncated else none := by
  rw [parse?]
  split
  · next h => exact ofText?_text h
  · next h => exact ofText?_of_not_readable (Bool.not_eq_true _ ▸ h)

end Instant

end CaseAccess
