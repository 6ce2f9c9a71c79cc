import CaseAccess.Proofs.DateNotation
import CaseAccess.Proofs.InstantOrder
import CaseAccess.Proofs.JsonText

/-!
# Dates are read as they were written

The reader of dates takes more than the writer writes. What is written of a date is one of the
forms that are read, so a date is read of its text again: month and day are written in two
digits, and a year in four, or behind a sign in as many as it needs.
-/

namespace CaseAccess

namespace Decimal

theorem value_replicate_append (k : Nat) (ds : List Char) :
    value (List.replicate k '0' ++ ds) = value ds := by
  induction k with
  | zero => rfl
  | succ k ih =>
      rw [List.replicate_succ, List.cons_append]
      exact ih

theorem value_padded (width n : Nat) : value (padded width n) = n := by
  rw [padded, value_replicate_append, digits, Json.value_toDigits]

theorem isDigit_of_mem_padded {width n : Nat} {c : Char} (h : c ∈ padded width n) :
    c.isDigit = true := by
  rcases List.mem_append.1 h with h | h
  · rw [List.eq_of_mem_replicate h]
    rfl
  · exact Json.isDigit_of_mem_toDigits h

theorem padded_ne_nil (width n : Nat) : padded width n ≠ [] := by
  rw [padded]
  exact List.append_ne_nil_of_right_ne_nil _ Nat.toDigits_ne_nil

end Decimal

open Decimal

/-! ## Dates -/

namespace Date

theorem isNumber_padded {width n : Nat} (hwidth : 1 ≤ width) (h : n < 10 ^ width) :
    IsNumber width (padded width n) n :=
  ⟨padded_ne_nil width n, Nat.le_of_eq (padded_fits hwidth h).1, fun _ => isDigit_of_mem_padded,
    value_padded width n⟩

theorem isYear_yearText (year : Int) : IsYear (yearText year) year := by
  have hlong : IsNumber (padded 4 year.natAbs).length (padded 4 year.natAbs) year.natAbs :=
    ⟨padded_ne_nil 4 _, Nat.le_refl _, fun _ => isDigit_of_mem_padded, value_padded 4 _⟩
  rw [yearText]
  split
  · next hplain =>
    have hyear : (year.toNat : Int) = year := Int.toNat_of_nonneg hplain.1
    have hnumber : IsYear (padded 4 year.toNat) year.toNat :=
      .plain (isNumber_padded (by decide) (by omega))
    rwa [hyear] at hnumber
  · split
    · have hyear : -(year.natAbs : Int) = year := by omega
      have hnumber := IsYear.negative hlong
      rwa [hyear] at hnumber
    · have hyear : (year.natAbs : Int) = year := by omega
      have hnumber := IsYear.positive hlong
      rwa [hyear] at hnumber

/-- The interchange form writes its year, month and day, whether there is such a date or not. -/
theorem writes_interchange (year : Int) {month day : Nat} (hmonth : month < 100)
    (hday : day < 100) :
    Writes (yearText year ++ '-' :: (padded 2 month ++ '-' :: padded 2 day)) year month day := by
  have hhyphen : IsHyphen ['-'] := .hyphen (List.forall_mem_nil _) (List.forall_mem_nil _)
  have hwrites := Writes.fields (List.forall_mem_nil _) (isYear_yearText year) hhyphen
    (isNumber_padded (by decide) hmonth) hhyphen (isNumber_padded (by decide) hday)
    (List.forall_mem_nil _)
  simp only [List.nil_append, List.append_nil, List.singleton_append] at hwrites
  exact hwrites

theorem month_lt (d : Date) : d.month < 100 := by
  obtain ⟨-, -, -, hmonth, -⟩ := d.isDate
  omega

theorem day_lt (d : Date) : d.day < 100 := by
  obtain ⟨-, -, -, -, -, hday⟩ := d.isDate
  have hlast : daysInMonth d.year d.month ≤ 31 := daysInMonth_le _ _
  omega

theorem toList_text (d : Date) :
    d.text.toList = yearText d.year ++ '-' :: (padded 2 d.month ++ '-' :: padded 2 d.day) := by
  rw [text, String.toList_ofList, List.append_assoc, List.cons_append]

/-- A date is read as it was written, whatever its year. -/
theorem parse?_text (d : Date) : parse? d.text = some d := by
  rw [parse?, toList_text, ofText?_eq_some_iff]
  exact writes_interchange d.year d.month_lt d.day_lt

/-- Dates are told apart by their texts. -/
theorem text_injective : Function.Injective text := fun d e h => by
  have hparse := congrArg parse? h
  rwa [parse?_text, parse?_text, Option.some.injEq] at hparse

end Date

/-! ## Instants -/

namespace Instant

/-- The fields of the text are the same of what is kept of an instant. -/
theorem fields_truncated (t : Instant) :
    t.truncated.second / 3600 = t.second / 3600 ∧
      t.truncated.second / 60 % 60 = t.second / 60 % 60 ∧
      t.truncated.shownSecond = t.shownSecond ∧
      t.truncated.fraction / 1000 = t.fraction / 1000 := by
  have hnanos := t.nanos_lt
  rw [shownSecond, shownSecond, fraction, fraction, truncated]
  by_cases hwithin : t.second % 60 ≠ 59 ∧ 1000000000 ≤ t.nanos
  · -- A leap second within a minute is kept as the second after it.
    rw [dif_pos hwithin, if_neg (show ¬ t.nanos < 1000000000 by omega)]
    dsimp only
    rw [if_pos (by omega)]
    omega
  · rw [dif_neg hwithin]
    dsimp only
    by_cases hleap : t.nanos < 1000000000
    · rw [if_pos hleap, if_pos (by omega)]
      refine ⟨rfl, rfl, rfl, ?_⟩
      omega
    · rw [if_neg hleap, if_neg (by omega)]
      refine ⟨rfl, rfl, rfl, ?_⟩
      omega

/-- The text shows what is kept of an instant. -/
theorem text_truncated (t : Instant) : t.truncated.text 6 = t.text 6 := by
  obtain ⟨hhour, hminute, hsecond, hfraction⟩ := t.fields_truncated
  rw [text, text, clock_eq, clock_eq, fractionText_six, fractionText_six, truncated_date, hhour,
    hminute, hsecond, hfraction]

/-- Instants have one text just if the same is kept of them. -/
theorem text_eq_text_iff {t u : Instant} :
    t.text 6 = u.text 6 ↔ t.truncated = u.truncated := by
  refine ⟨fun h => ?_, fun h => by rw [← text_truncated t, h, text_truncated]⟩
  have hlength : ∀ v : Instant, (padded 2 (v.second / 3600)).length = 2 ∧
      (padded 2 (v.second / 60 % 60)).length = 2 ∧ (padded 2 v.shownSecond).length = 2 ∧
      (padded 6 (v.fraction / 1000)).length = 6 := by
    intro v
    have hsecond := v.second_lt
    have hshown := v.shownSecond_le
    have hfraction : v.fraction < 1000000000 := Nat.mod_lt _ (by decide)
    exact ⟨(padded_fits (by decide) (by omega)).1, (padded_fits (by decide) (by omega)).1,
      (padded_fits (by decide) (by omega)).1, (padded_fits (by decide) (by omega)).1⟩
  obtain ⟨hthour, htminute, htsecond, htfraction⟩ := hlength t
  obtain ⟨huhour, huminute, husecond, hufraction⟩ := hlength u
  have hpadded : ∀ {width m n : Nat}, padded width m = padded width n → m = n := by
    intro width m n heq
    rw [← value_padded width m, heq, value_padded]
  rw [text, text, String.ofList_inj, clock_eq, clock_eq, fractionText_six, fractionText_six] at h
  simp only [List.append_assoc, List.cons_append] at h
  obtain ⟨hdate, h⟩ := List.append_inj' h (by simp [hthour, htminute, htsecond, htfraction,
    huhour, huminute, husecond, hufraction])
  obtain ⟨hhour, h⟩ := List.append_inj (List.cons.inj h).2 (hthour.trans huhour.symm)
  obtain ⟨hminute, h⟩ := List.append_inj (List.cons.inj h).2 (htminute.trans huminute.symm)
  obtain ⟨hsecond, h⟩ := List.append_inj (List.cons.inj h).2 (htsecond.trans husecond.symm)
  obtain ⟨hfraction, -⟩ := List.append_inj (List.cons.inj h).2 (htfraction.trans hufraction.symm)
  have hreading : t.clockReading = u.clockReading := by
    rw [clockReading, clockReading, hpadded hsecond, hpadded hfraction]
  obtain ⟨htclock, htnanos⟩ := t.clockReading_eq
  obtain ⟨huclock, hunanos⟩ := u.clockReading_eq
  refine ext ?_ ?_ ?_
  · rw [truncated_date, truncated_date]
    exact Date.text_injective (String.toList_inj.1 hdate)
  · rw [← htclock, ← huclock, hpadded hhour, hpadded hminute, hreading]
  · rw [← htnanos, ← hunanos, hreading]

end Instant

end CaseAccess
