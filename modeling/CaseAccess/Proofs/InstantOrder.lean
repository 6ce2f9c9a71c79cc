import CaseAccess.Proofs.InstantReading

/-!
# The order of instants as texts

The statuses of a case are listed by their texts. In years of four digits, and to the
microsecond, that is the order of the instants: the fields stand from the largest to the
smallest, each in a fixed width, so the texts are compared field by field, and of two
instants the earlier one has the smaller field where they differ first.
-/

namespace CaseAccess

/-! ## Fields of a text -/

theorem append_lt_append {a b : List Char} (hlength : a.length = b.length) (h : a < b)
    (x y : List Char) : a ++ x < b ++ y := by
  induction a generalizing b with
  | nil =>
      rw [List.length_nil, eq_comm, List.length_eq_zero_iff] at hlength
      subst hlength
      cases h
  | cons c rest ih =>
      cases b with
      | nil => cases hlength
      | cons c' rest' =>
          rw [List.cons_lt_cons_iff] at h
          rw [List.cons_append, List.cons_append, List.cons_lt_cons_iff]
          rcases h with hlt | ⟨heq, hlt⟩
          · exact .inl hlt
          · exact .inr ⟨heq, ih (Nat.succ.inj hlength) hlt⟩

namespace Decimal

theorem digitChar_lt : ∀ m < 10, ∀ n < 10, m < n → Nat.digitChar m < Nat.digitChar n := by
  decide

theorem padded_lt {width m n : Nat} (hwidth : 1 ≤ width) (h : m < n) (hn : n < 10 ^ width) :
    padded width m < padded width n := by
  induction hwidth generalizing m n with
  | refl =>
      rw [padded_one hn, padded_one (Nat.lt_trans h hn), List.cons_lt_cons_iff]
      exact .inl (digitChar_lt m (Nat.lt_trans h hn) n hn h)
  | @step width hwidth ih =>
      have hfits : n / 10 < 10 ^ width := by
        rw [Nat.pow_succ] at hn
        omega
      have hlength : (padded width (m / 10)).length = (padded width (n / 10)).length := by
        rw [(padded_fits hwidth hfits).1, (padded_fits hwidth (by omega)).1]
      rw [padded_succ hwidth, padded_succ hwidth]
      rcases Nat.lt_or_ge (m / 10) (n / 10) with hfront | hfront
      · exact append_lt_append hlength (ih hfront hfits) _ _
      · have heq : m / 10 = n / 10 := by omega
        rw [heq]
        refine List.append_left_lt ?_
        rw [List.cons_lt_cons_iff]
        exact .inl (digitChar_lt _ (by omega) _ (by omega) (by omega))

/-- A smaller field decides; if it is the same, what follows does. -/
theorem field_lt {width m n : Nat} {x y : List Char} (hwidth : 1 ≤ width) (hn : n < 10 ^ width)
    (h : m < n ∨ m = n ∧ x < y) : padded width m ++ x < padded width n ++ y := by
  rcases h with hlt | ⟨rfl, hlt⟩
  · refine append_lt_append ?_ (padded_lt hwidth hlt hn) _ _
    rw [(padded_fits hwidth hn).1, (padded_fits hwidth (Nat.lt_trans hlt hn)).1]
  · exact List.append_left_lt hlt

theorem mark_lt {c : Char} {x y : List Char} (h : x < y) : c :: x < c :: y := by
  rw [List.cons_lt_cons_iff]
  exact .inr ⟨rfl, h⟩

end Decimal

/-! ## Instants -/

namespace Instant

open Decimal

theorem le_iff {t u : Instant} : t ≤ u ↔
    t.epochSeconds < u.epochSeconds ∨ t.epochSeconds = u.epochSeconds ∧ t.nanos ≤ u.nanos := by
  show t.le u = true ↔ _
  simp [le]

theorem le_total (t u : Instant) : t ≤ u ∨ u ≤ t := by
  rw [le_iff, le_iff]
  omega

theorem le_trans {t u v : Instant} (h : t ≤ u) (h' : u ≤ v) : t ≤ v := by
  rw [le_iff] at *
  omega

theorem le_refl (t : Instant) : t ≤ t := by
  rw [le_iff]
  omega

theorem ext {t u : Instant} (hdate : t.date = u.date) (hsecond : t.second = u.second)
    (hnanos : t.nanos = u.nanos) : t = u := by
  cases t
  cases u
  cases hdate
  cases hsecond
  cases hnanos
  rfl

/-- An earlier instant has an earlier day, or second of it, or fewer nanoseconds. -/
theorem before_cases {t u : Instant} (h : t ≤ u) (hne : t ≠ u) :
    t.date.dayNumber < u.date.dayNumber ∨ t.date = u.date ∧
      (t.second < u.second ∨ t.second = u.second ∧ t.nanos < u.nanos) := by
  have ht := t.second_lt
  have hu := u.second_lt
  rw [le_iff, epochSeconds, epochSeconds] at h
  rcases Int.lt_trichotomy t.date.dayNumber u.date.dayNumber with hday | hday | hday
  · exact .inl hday
  · refine .inr ⟨Date.eq_of_dayNumber_eq hday, ?_⟩
    rw [hday] at h
    rcases Nat.lt_trichotomy t.second u.second with hlt | heq | hgt
    · exact .inl hlt
    · refine .inr ⟨heq, Nat.lt_of_le_of_ne (by omega) fun hnanos => hne ?_⟩
      exact ext (Date.eq_of_dayNumber_eq hday) heq hnanos
    · omega
  · omega

theorem le_antisymm {t u : Instant} (h : t ≤ u) (h' : u ≤ t) : t = u := by
  by_contra hne
  rcases before_cases h hne with hday | ⟨hdate, htime⟩
  · rcases before_cases h' (Ne.symm hne) with hday' | ⟨hdate, -⟩
    · omega
    · rw [hdate] at hday
      omega
  · rcases before_cases h' (Ne.symm hne) with hday | ⟨-, htime'⟩
    · rw [hdate] at hday
      omega
    · omega

/-- What a truncated instant has no room for. -/
theorem truncated_nanos (t : Instant) :
    t.truncated.nanos % 1000 = 0 ∧
      (1000000000 ≤ t.truncated.nanos → t.truncated.second % 60 = 59) := by
  have hnanos := t.nanos_lt
  rw [truncated]
  split
  · exact ⟨by simp only; omega, by simp only; omega⟩
  · exact ⟨by simp only; omega, by simp only; omega⟩

/-- The fields of the clock, at a later second of the day or at the same one. -/
theorem clock_before {t u : Instant} (ht : t.truncated = t) (hu : u.truncated = u)
    (h : t.second < u.second ∨ t.second = u.second ∧ t.nanos < u.nanos) :
    t.second / 3600 < u.second / 3600 ∨ t.second / 3600 = u.second / 3600 ∧
      (t.second / 60 % 60 < u.second / 60 % 60 ∨ t.second / 60 % 60 = u.second / 60 % 60 ∧
        (t.shownSecond < u.shownSecond ∨ t.shownSecond = u.shownSecond ∧
          t.fraction / 1000 < u.fraction / 1000)) := by
  obtain ⟨htmicro, htleap⟩ := t.truncated_nanos
  obtain ⟨humicro, huleap⟩ := u.truncated_nanos
  rw [ht] at htmicro htleap
  rw [hu] at humicro huleap
  have htnanos := t.nanos_lt
  have hunanos := u.nanos_lt
  simp only [shownSecond, fraction]
  split <;> split <;> omega

/-- Of two kept instants the earlier one has the smaller text. -/
theorem text_lt_text {t u : Instant} (ht : t.truncated = t) (hu : u.truncated = u)
    (htread : t.isReadable = true) (huread : u.isReadable = true) (h : t ≤ u) (hne : t ≠ u) :
    t.text 6 < u.text 6 := by
  rw [String.lt_iff, toList_text htread, toList_text huread]
  rw [isReadable, Bool.and_eq_true, decide_eq_true_eq, decide_eq_true_eq] at htread huread
  have hday := Nat.le_trans u.date.isDate.2.2.2.2.2 (Date.daysInMonth_le _ _)
  have hmonth := u.date.isDate.2.2.2.1
  have hsecond := u.second_lt
  have hshown := u.shownSecond_le
  have hfraction : u.fraction < 1000000000 := Nat.mod_lt _ (by decide)
  -- The fields one after another, each with what follows if it is the same in both.
  refine field_lt (by decide) (by omega) ?_
  rcases before_cases h hne with hdate | ⟨hdate, hclock⟩
  · rcases Date.before_of_dayNumber_lt hdate with hyear | ⟨hyear, hrest⟩
    · exact .inl (by omega)
    refine .inr ⟨by rw [hyear], mark_lt (field_lt (by decide) (by omega) ?_)⟩
    rcases hrest with hmonth | ⟨hmonth, hday⟩
    · exact .inl hmonth
    exact .inr ⟨hmonth, mark_lt (field_lt (by decide) (by omega) (.inl hday))⟩
  · rw [hdate]
    refine .inr ⟨rfl, mark_lt (field_lt (by decide) (by omega) (.inr ⟨rfl, ?_⟩))⟩
    refine mark_lt (field_lt (by decide) (by omega) (.inr ⟨rfl, ?_⟩))
    refine mark_lt (field_lt (by decide) (by omega) ?_)
    rcases clock_before ht hu hclock with hhour | ⟨hhour, hrest⟩
    · exact .inl hhour
    refine .inr ⟨hhour, mark_lt (field_lt (by decide) (by omega) ?_)⟩
    rcases hrest with hminute | ⟨hminute, hrest⟩
    · exact .inl hminute
    refine .inr ⟨hminute, mark_lt (field_lt (by decide) (by omega) ?_)⟩
    rcases hrest with hsecond | ⟨hsecond, hmicros⟩
    · exact .inl hsecond
    exact .inr ⟨hsecond, mark_lt (field_lt (by decide) (by omega) (.inl hmicros))⟩

end Instant

end CaseAccess
