import CaseAccess.Case.Archive
import CaseAccess.Proofs.DayNumber

/-!
# Adding a period

Adding a period goes on month by month, takes the last day of the month where there are too
few, and goes on day by day from there: `Period.after`, in a calendar that has no end and
with counts that have no size. What the code does instead is to divide, in 64 bits and
then in 32, and to look whether the date is still in the calendar, once after the months
and once after the days.

Neither look loses a date. Going on never comes back to an earlier year, so what has left
the calendar after the months is not in it after the days; and months that do not fit 32
bits are more than the calendar has.

Going on by the same number of months or days keeps the order. It is an order of pairs, a
month and a day of it: an earlier month stays earlier whatever its days are cut down to, and
in the same month the days are cut down alike. With that a later date gives no earlier one,
and neither does it as the source of an archive date.
-/

namespace CaseAccess

/-! ## Going on in the calendar -/

theorem one_le_daysInMonth (year : Int) (month : Nat) : 1 ≤ daysInMonth year month := by
  rw [daysInMonth]
  split
  · split
    · decide
    · decide
  · split
    · decide
    · decide

/-- The first day of a month. -/
def CivilMonth.firstDay (m : CivilMonth) : CivilDay :=
  { m with day := 1, isDay := ⟨Nat.le_refl 1, one_le_daysInMonth m.year m.month⟩ }

/-- The year and the month of a month that is counted. -/
theorem CivilMonth.year_eq (m : CivilMonth) : m.year = m.index / 12 := by
  have hmonth := m.isMonth
  rw [index]
  omega

theorem CivilMonth.month_eq (m : CivilMonth) : m.month = (m.index % 12).toNat + 1 := by
  have hmonth := m.isMonth
  rw [index]
  omega

namespace CivilDay

/-- The day after. -/
def next (d : CivilDay) : CivilDay :=
  if h : d.day < daysInMonth d.year d.month then
    { d with day := d.day + 1, isDay := ⟨Nat.le_add_left 1 d.day, h⟩ }
  else d.toCivilMonth.next.firstDay

/-- The same day of another month, or its last day if it is too short. -/
def inMonth (d : CivilDay) (m : CivilMonth) : CivilDay where
  toCivilMonth := m
  day := min d.day (daysInMonth m.year m.month)
  isDay := ⟨Nat.le_min.2 ⟨d.isDay.1, one_le_daysInMonth _ _⟩, Nat.min_le_right _ _⟩

/-- The day that many months on. -/
def addMonths (d : CivilDay) (months : Nat) : CivilDay :=
  d.inMonth (CivilMonth.next^[months] d.toCivilMonth)

/-- The calendar of dates goes as far as that day. -/
def InCalendar (d : CivilDay) : Prop := firstYear ≤ d.year ∧ d.year ≤ lastYear

instance (d : CivilDay) : Decidable d.InCalendar := inferInstanceAs (Decidable (_ ∧ _))

variable {d e : CivilDay}

theorem number_next (d : CivilDay) : d.next.number = d.number + 1 := by
  have hday := d.isDay
  have hmonth := d.toCivilMonth.daysBefore_next
  rw [next]
  split
  · rw [number, number]
    simp only
    omega
  · show d.toCivilMonth.next.daysBefore + (1 : Nat) = _
    rw [number, hmonth]
    omega

theorem number_iterate (d : CivilDay) (n : Nat) : (next^[n] d).number = d.number + n := by
  induction n generalizing d with
  | zero => exact (Int.add_zero d.number).symm
  | succ n ih =>
      rw [Function.iterate_succ_apply, ih, number_next]
      omega

theorem index_addMonths (d : CivilDay) (n : Nat) : (d.addMonths n).index = d.index + n :=
  CivilMonth.index_iterate d.toCivilMonth n

theorem iterate_next_mono (n : Nat) (h : d.number ≤ e.number) :
    (next^[n] d).number ≤ (next^[n] e).number := by
  rw [number_iterate, number_iterate]
  omega

/-- Both months move on by the same number, and days of the same month are cut down to the
same length. -/
theorem addMonths_mono (n : Nat) (h : d.number ≤ e.number) :
    (d.addMonths n).number ≤ (e.addMonths n).number := by
  have hd := d.index_addMonths n
  have he := e.index_addMonths n
  rw [number_le_iff]
  rcases number_le_iff.1 h with hlt | ⟨hsame, hday⟩
  · exact .inl (by omega)
  · refine .inr ⟨by omega, ?_⟩
    have hmonth : d.toCivilMonth = e.toCivilMonth := CivilMonth.eq_of_index_eq hsame
    rw [addMonths, addMonths, hmonth, inMonth, inMonth]
    simp only
    omega

theorem addMonths_zero (d : CivilDay) : d.addMonths 0 = d :=
  CivilDay.ext rfl rfl (Nat.min_eq_left d.isDay.2)

theorem number_le_addMonths (d : CivilDay) (n : Nat) : d.number ≤ (d.addMonths n).number := by
  cases n with
  | zero => exact Int.le_of_eq (congrArg number d.addMonths_zero.symm)
  | succ n =>
      refine number_le_iff.2 (.inl ?_)
      rw [index_addMonths]
      omega

/-! ## Leaving the calendar -/

theorem year_mono (h : d.number ≤ e.number) : d.year ≤ e.year := by
  have hle := number_le_iff.1 h
  rw [d.year_eq, e.year_eq]
  omega

theorem toDate?_of_inCalendar (h : d.InCalendar) : ∃ e, d.toDate? = some e ∧ e.civil = d :=
  ⟨⟨d.year, d.month, d.day, h.1, h.2, d.isMonth.1, d.isMonth.2, d.isDay⟩, dif_pos _, rfl⟩

theorem toDate?_of_not_inCalendar (h : ¬ d.InCalendar) : d.toDate? = none :=
  dif_neg fun hdate => h ⟨hdate.1, hdate.2.1⟩

end CivilDay

/-! ## Dates -/

namespace Date

/-- The month that many months on is found by a division. -/
theorem addMonths?_eq (d : Date) (n : Nat) : d.addMonths? n = (d.civil.addMonths n).toDate? := by
  have hindex : (d.civil.addMonths n).index = d.year * 12 + (d.month - 1 : Nat) + n :=
    d.civil.index_addMonths n
  rw [addMonths?, ← hindex]
  simp only [← CivilMonth.year_eq, ← CivilMonth.month_eq]
  rfl

/-- The day that many days on is found by its number. -/
theorem addDays?_eq (d : Date) (n : Nat) :
    d.addDays? n = (CivilDay.next^[n] d.civil).toDate? := by
  rw [addDays?, ← CivilDay.ofDayNumber?_number, CivilDay.number_iterate]
  rfl

end Date

namespace Period

/-- The day that a period leads to from another, in a calendar that has no end. -/
def after (p : Period) (d : CivilDay) : CivilDay :=
  CivilDay.next^[7 * p.weeks.toNat + p.days.toNat]
    (d.addMonths (12 * p.years.toNat + p.months.toNat))

variable {p : Period} {d later e : Date} {n : Nat}

theorem number_le_after (p : Period) (d : CivilDay) : d.number ≤ (p.after d).number := by
  have hmonths := d.number_le_addMonths (12 * p.years.toNat + p.months.toNat)
  rw [after, CivilDay.number_iterate]
  omega

theorem after_mono {d later : CivilDay} (p : Period) (h : d.number ≤ later.number) :
    (p.after d).number ≤ (p.after later).number :=
  CivilDay.iterate_next_mono _ (CivilDay.addMonths_mono _ h)

theorem year_addMonths_le_after (p : Period) (d : CivilDay) :
    (d.addMonths (12 * p.years.toNat + p.months.toNat)).year ≤ (p.after d).year :=
  CivilDay.year_mono (by rw [after, CivilDay.number_iterate]; omega)

/-- What has left the calendar after the months is not in it after the days. -/
theorem not_inCalendar_after (d : Date)
    (h : ¬ (d.civil.addMonths (12 * p.years.toNat + p.months.toNat)).InCalendar) :
    ¬ (p.after d.civil).InCalendar := by
  intro hin
  have hmonths := CivilDay.year_mono
    (d.civil.number_le_addMonths (12 * p.years.toNat + p.months.toNat))
  have hdays := p.year_addMonths_le_after d.civil
  exact h ⟨Int.le_trans d.isDate.1 hmonths, Int.le_trans hdays hin.2⟩

/-- The calendar does not have as many months as do not fit 32 bits. -/
theorem lastYear_lt_of_size_le (d : Date) (h : UInt32.size ≤ n) :
    lastYear < (d.civil.addMonths n).year := by
  have hfirst : firstYear ≤ d.year := d.isDate.1
  have hindex : (d.civil.addMonths n).index = d.year * 12 + (d.month - 1 : Nat) + n :=
    d.civil.index_addMonths n
  have hsize : UInt32.size = 4294967296 := rfl
  rw [CivilMonth.year_eq, hindex]
  rw [firstYear] at hfirst
  rw [lastYear]
  omega

/-- A number that fits 32 bits is kept. -/
theorem narrow?_of_lt {count : UInt64} (h : count.toNat < UInt32.size) :
    ∃ m, narrow? count = some m ∧ m.toNat = count.toNat :=
  ⟨count.toUInt32, if_pos h, (UInt64.toNat_toUInt32 count).trans (Nat.mod_eq_of_lt h)⟩

/-- The date after the months, or none when they leave the calendar. -/
theorem months_eq (p : Period) (d : Date) :
    (narrow? p.totalMonths).bind (fun months => d.addMonths? months.toNat) =
      (d.civil.addMonths (12 * p.years.toNat + p.months.toNat)).toDate? := by
  by_cases hfits : p.totalMonths.toNat < UInt32.size
  · obtain ⟨months, hmonths, hsame⟩ := narrow?_of_lt hfits
    rw [hmonths, Option.bind_some, Date.addMonths?_eq, hsame, toNat_totalMonths]
  · have hlast := lastYear_lt_of_size_le d (Nat.not_lt.1 hfits)
    rw [toNat_totalMonths] at hlast
    rw [narrow?, if_neg hfits, CivilDay.toDate?_of_not_inCalendar fun hin =>
      Int.not_lt.2 hin.2 hlast]
    rfl

/-- Adding a period gives the day that it leads to, if the calendar has it. -/
theorem addTo_eq (p : Period) (d : Date) :
    p.addTo d = match (p.after d.civil).toDate? with
      | some e => .ok e
      | none => .error (.overflow p.text) := by
  have hreached : (do
      let months ← narrow? p.totalMonths
      let date ← d.addMonths? months.toNat
      date.addDays? p.totalDays.toNat) = (p.after d.civil).toDate? := by
    show (narrow? p.totalMonths).bind (fun months =>
      (d.addMonths? months.toNat).bind (·.addDays? p.totalDays.toNat)) = _
    rw [← Option.bind_assoc, months_eq]
    by_cases hin : (d.civil.addMonths (12 * p.years.toNat + p.months.toNat)).InCalendar
    · obtain ⟨date, hdate, hsame⟩ := CivilDay.toDate?_of_inCalendar hin
      rw [hdate, Option.bind_some, Date.addDays?_eq, hsame, toNat_totalDays]
      rfl
    · rw [CivilDay.toDate?_of_not_inCalendar hin,
        CivilDay.toDate?_of_not_inCalendar (not_inCalendar_after d hin)]
      rfl
  rw [← hreached]
  rfl

theorem addTo_of_inCalendar (h : (p.after d.civil).InCalendar) :
    ∃ e, p.addTo d = .ok e ∧ e.civil = p.after d.civil := by
  obtain ⟨e, hdate, hcivil⟩ := CivilDay.toDate?_of_inCalendar h
  exact ⟨e, by rw [addTo_eq, hdate], hcivil⟩

theorem addTo_of_not_inCalendar (h : ¬ (p.after d.civil).InCalendar) :
    p.addTo d = .error (.overflow p.text) := by
  rw [addTo_eq, CivilDay.toDate?_of_not_inCalendar h]

theorem civil_of_addTo_ok (h : p.addTo d = .ok e) : e.civil = p.after d.civil := by
  by_cases hin : (p.after d.civil).InCalendar
  · obtain ⟨e', hadd, hcivil⟩ := addTo_of_inCalendar hin
    rw [h] at hadd
    cases hadd
    exact hcivil
  · rw [addTo_of_not_inCalendar hin] at h
    cases h

theorem le_of_addTo_ok (h : p.addTo d = .ok e) : d ≤ e := by
  show d.civil.number ≤ e.civil.number
  rw [civil_of_addTo_ok h]
  exact p.number_le_after d.civil

/-- Where a later date stays in the calendar an earlier one does, and stays earlier. -/
theorem addTo_mono (hle : d ≤ later) (h : p.addTo later = .ok e) :
    ∃ e', p.addTo d = .ok e' ∧ e' ≤ e := by
  have hafter : (p.after d.civil).number ≤ (p.after later.civil).number := p.after_mono hle
  rw [← civil_of_addTo_ok h] at hafter
  have hyear := CivilDay.year_mono (p.number_le_after d.civil)
  have hlast := CivilDay.year_mono hafter
  have hin : (p.after d.civil).InCalendar :=
    ⟨Int.le_trans d.isDate.1 hyear, Int.le_trans hlast e.isDate.2.1⟩
  obtain ⟨e', hadd, hcivil⟩ := addTo_of_inCalendar hin
  refine ⟨e', hadd, ?_⟩
  show e'.civil.number ≤ e.civil.number
  rw [hcivil]
  exact hafter

end Period

/-! ## Archive dates -/

/-- An end date that the derivation counts from comes no earlier than before: that of the
case, or that of its main case. -/
def ArchiveDerivation.CountsLater (derivation : ArchiveDerivation) (early late : Date)
    (mainEarly mainLate : Option Date) : Prop :=
  match derivation.method with
  | .afgehandeld | .termijn => early ≤ late
  | .hoofdzaak => ∀ m ∈ mainLate, ∃ m' ∈ mainEarly, m' ≤ m
  | _ => False

section Archive

variable {p : Period} {derivation : ArchiveDerivation} {result : ResultType} {z : CaseRecord}
  {early late source date : Date} {mainEarly mainLate : Option Date}

theorem dateAfter_mono (hle : early ≤ late) (h : dateAfter p late = .ok date) :
    ∃ date', dateAfter p early = .ok date' ∧ date' ≤ date := by
  rw [dateAfter] at h
  cases hadd : p.addTo late with
  | error cause =>
      rw [hadd] at h
      cases h
  | ok e =>
      rw [hadd] at h
      cases h
      obtain ⟨e', hadd', hle'⟩ := Period.addTo_mono hle hadd
      exact ⟨e', by rw [dateAfter, hadd'], hle'⟩

/-- An archive date is its period after the source date. -/
theorem actionDate_eq_some : actionDate result z late mainLate = .ok (some date) ↔
    ∃ p source, result.archiveActionPeriod = some p ∧
      sourceDate result.derivation z late mainLate = .ok (some source) ∧
      dateAfter p source = .ok date := by
  rw [actionDate]
  cases result.archiveActionPeriod with
  | none => simp
  | some p =>
      cases sourceDate result.derivation z late mainLate with
      | error e => simp [bind, Except.bind]
      | ok source? =>
          cases source? with
          | none => simp [bind, Except.bind, pure, Except.pure]
          | some source =>
              cases hdate : dateAfter p source with
              | error e => simp [bind, Except.bind, hdate]
              | ok e => simp [bind, Except.bind, pure, Except.pure, hdate]

theorem sourceDate_mono (hlater : derivation.CountsLater early late mainEarly mainLate)
    (h : sourceDate derivation z late mainLate = .ok (some source)) :
    ∃ source', sourceDate derivation z early mainEarly = .ok (some source') ∧
      source' ≤ source := by
  rw [ArchiveDerivation.CountsLater] at hlater
  rw [sourceDate] at h ⊢
  cases hmethod : derivation.method with
  | afgehandeld =>
      simp only [hmethod] at h hlater
      cases h
      exact ⟨early, rfl, hlater⟩
  | hoofdzaak =>
      simp only [hmethod] at h hlater
      obtain ⟨source', hsource', hle⟩ := hlater source (Except.ok.inj h)
      exact ⟨source', congrArg Except.ok hsource', hle⟩
  | termijn =>
      simp only [hmethod] at h hlater
      cases hprocess : derivation.processPeriod with
      | none =>
          rw [hprocess] at h
          cases h
      | some process =>
          simp only [hprocess] at h ⊢
          cases hafter : dateAfter process late with
          | error e =>
              rw [hafter] at h
              cases h
          | ok e =>
              rw [hafter] at h
              cases h
              obtain ⟨source', hsource', hle⟩ := dateAfter_mono hlater hafter
              exact ⟨source', by rw [hsource']; rfl, hle⟩
  | _ =>
      simp only [hmethod] at hlater

theorem actionDate_mono (hlater : result.derivation.CountsLater early late mainEarly mainLate)
    (h : actionDate result z late mainLate = .ok (some date)) :
    ∃ date', actionDate result z early mainEarly = .ok (some date') ∧ date' ≤ date := by
  obtain ⟨p, source, hperiod, hsource, hdate⟩ := actionDate_eq_some.1 h
  obtain ⟨source', hsource', hle⟩ := sourceDate_mono hlater hsource
  obtain ⟨date', hdate', hle'⟩ := dateAfter_mono hle hdate
  exact ⟨date', actionDate_eq_some.2 ⟨p, source', hperiod, hsource', hdate'⟩, hle'⟩

end Archive

/-- Adding a period to a date gives the day that it leads to where the calendar has that day,
and is an overflow where it has not. The day is not before the date; a date that is not later
gives a day that is not later, if the later one gives one; and an archive date counted from
the end of the case or of its main case does not come earlier when that end comes later. -/
theorem addTo_exact_and_monotone (p : Period) (d : Date) :
    ((p.after d.civil).InCalendar → ∃ e, p.addTo d = .ok e ∧ e.civil = p.after d.civil) ∧
    (¬ (p.after d.civil).InCalendar → p.addTo d = .error (.overflow p.text)) ∧
    (∀ e, p.addTo d = .ok e → d ≤ e) ∧
    (∀ later e, d ≤ later → p.addTo later = .ok e → ∃ e', p.addTo d = .ok e' ∧ e' ≤ e) ∧
    ∀ result z late mainEarly mainLate date,
      result.derivation.CountsLater d late mainEarly mainLate →
      actionDate result z late mainLate = .ok (some date) →
        ∃ date', actionDate result z d mainEarly = .ok (some date') ∧ date' ≤ date :=
  ⟨Period.addTo_of_inCalendar, Period.addTo_of_not_inCalendar, fun _ => Period.le_of_addTo_ok,
    fun _ _ => Period.addTo_mono, fun _ _ _ _ _ _ => actionDate_mono⟩

/-- The last days of January and of February, and of the calendar. -/
def almostEndOfJanuary : Date := ⟨2023, 1, 30, by decide⟩
def endOfJanuary : Date := ⟨2023, 1, 31, by decide⟩
def endOfFebruary : Date := ⟨2023, 2, 28, by decide⟩
def lastDay : Date := ⟨262142, 12, 31, by decide⟩

def oneMonth : Period := { months := 1 }

/-- A case that is kept for a month, counted from a month after its end. -/
def keptCase : CaseRecord :=
  { id := "kept", caseType := ⟨"procedure"⟩, confidentiality := .openbaar }

def keptResult : ResultType :=
  { reference := ⟨"granted"⟩, archiveNomination := none, archiveActionPeriod := some oneMonth,
    derivation := { method := .termijn, processPeriod := some oneMonth } }

/-- Two days of January lead to the same end of February, and there is no day after the last
one of the calendar. -/
theorem a_month_after_january :
    ((oneMonth.after endOfJanuary.civil).InCalendar ∧
      ∃ e, oneMonth.addTo endOfJanuary = .ok e ∧
        e.civil = oneMonth.after endOfJanuary.civil) ∧
    (¬ (Period.after { days := 1 } lastDay.civil).InCalendar ∧
      Period.addTo { days := 1 } lastDay = .error (.overflow (Period.text { days := 1 }))) ∧
    (oneMonth.addTo endOfJanuary = .ok endOfFebruary ∧ endOfJanuary ≤ endOfFebruary) ∧
    (almostEndOfJanuary ≤ endOfJanuary ∧
      ∃ e, oneMonth.addTo almostEndOfJanuary = .ok e ∧ e ≤ endOfFebruary) ∧
    (keptResult.derivation.CountsLater almostEndOfJanuary endOfJanuary none none ∧
      actionDate keptResult keptCase endOfJanuary none = .ok (some ⟨2023, 3, 28, by decide⟩) ∧
      ∃ date, actionDate keptResult keptCase almostEndOfJanuary none = .ok (some date) ∧
        date ≤ ⟨2023, 3, 28, by decide⟩) := by
  have hin : (oneMonth.after endOfJanuary.civil).InCalendar := by decide
  have hout : ¬ (Period.after { days := 1 } lastDay.civil).InCalendar := by decide
  have hadd : oneMonth.addTo endOfJanuary = .ok endOfFebruary := by rfl
  have hle : almostEndOfJanuary ≤ endOfJanuary := by decide
  have hkept : actionDate keptResult keptCase endOfJanuary none =
      .ok (some ⟨2023, 3, 28, by decide⟩) := by rfl
  obtain ⟨hexact, -, hafter, -, -⟩ := addTo_exact_and_monotone oneMonth endOfJanuary
  obtain ⟨-, hoverflow, -, -, -⟩ := addTo_exact_and_monotone { days := 1 } lastDay
  obtain ⟨-, -, -, hmono, harchive⟩ := addTo_exact_and_monotone oneMonth almostEndOfJanuary
  exact ⟨⟨hin, hexact hin⟩, ⟨hout, hoverflow hout⟩, ⟨hadd, hafter _ hadd⟩,
    ⟨hle, hmono _ _ hle hadd⟩, hle, hkept, harchive _ _ _ _ _ _ hle hkept⟩

end CaseAccess
