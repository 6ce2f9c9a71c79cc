import CaseAccess.Case.Archive
import CaseAccess.Proofs.CalendarText

/-!
# The date that a property holds

The archive may count from a date that the case keeps in one of its properties. The property
is meant to hold that date, or a point in time on it, and what holds neither is refused:
`IsOn` says which texts hold a date, and on which day they are.

The program looks at less. It takes the first ten bytes, if a character ends there, and reads
in them whatever the reader of dates takes. Every text that holds a date is read as that date,
for the ten bytes are the ones of its year, month and day. But what stands behind them is not
looked at, and what stands in them may be a date in another form than the one that takes ten
bytes, or the beginning of one. So some texts are taken that hold no date, and they are just
those that have another form than `HasForm` and begin with what reads as a date.
-/

namespace CaseAccess

open Decimal
open Date (Writes)

/-! ## Texts that hold a date -/

/-- A year in four digits, a month and a day in two, whether there is such a date or not. -/
def fullDate (year month day : Nat) : List Char :=
  padded 4 year ++ '-' :: (padded 2 month ++ '-' :: padded 2 day)

/-- The fraction of a second, if there is one. -/
inductive IsFraction : List Char → Prop where
  | none : IsFraction []
  | digits {ds : List Char} (ne_nil : ds ≠ []) (areDigits : ∀ c ∈ ds, c.isDigit = true) :
      IsFraction ('.' :: ds)

/-- The offset from UTC, as a letter that says that there is none, or in hours and minutes. -/
inductive IsOffset : List Char → Prop where
  | utc {mark : Char} (mark_mem : mark ∈ ['Z', 'z']) : IsOffset [mark]
  | hours {sign : Char} {hour minute : Nat} (sign_mem : sign ∈ ['+', '-']) (hour_lt : hour < 24)
      (minute_lt : minute < 60) : IsOffset (sign :: (padded 2 hour ++ ':' :: padded 2 minute))

/-- What makes a date a point in time: a mark, the time of day, where a second may be a leap
second, and the offset. -/
inductive IsTimeOfDay : List Char → Prop where
  | clock {mark : Char} {hour minute second : Nat} {fraction offset : List Char}
      (mark_mem : mark ∈ ['T', 't', ' ']) (hour_lt : hour < 24) (minute_lt : minute < 60)
      (second_le : second ≤ 60) (isFraction : IsFraction fraction) (isOffset : IsOffset offset) :
      IsTimeOfDay (mark :: (padded 2 hour ++ ':' :: (padded 2 minute ++
        ':' :: (padded 2 second ++ (fraction ++ offset)))))

/-- The text has the form of a date, or of a point in time. -/
inductive HasForm : List Char → Prop where
  | form {year month day : Nat} {behind : List Char} (year_lt : year < 10000)
      (month_lt : month < 100) (day_lt : day < 100) (ends : behind = [] ∨ IsTimeOfDay behind) :
      HasForm (fullDate year month day ++ behind)

/-- The text is that date, or a point in time on it. -/
inductive IsOn (d : Date) : List Char → Prop where
  | date {behind : List Char} (year_nonneg : 0 ≤ d.year) (year_le : d.year ≤ 9999)
      (ends : behind = [] ∨ IsTimeOfDay behind) :
      IsOn d (fullDate d.year.toNat d.month d.day ++ behind)

variable {text part : List Char} {d : Date} {year month day : Nat}

theorem IsOn.hasForm (h : IsOn d text) : HasForm text := by
  cases h with
  | date hnonneg hle hends => exact .form (by omega) d.month_lt d.day_lt hends

theorem writes_fullDate (hyear : year < 10000) (hmonth : month < 100) (hday : day < 100) :
    Writes (fullDate year month day) year month day := by
  have hfull : fullDate year month day =
      Date.yearText year ++ '-' :: (padded 2 month ++ '-' :: padded 2 day) := by
    rw [fullDate, Date.yearText, if_pos (by omega), Int.toNat_natCast]
  rw [hfull]
  exact Date.writes_interchange year hmonth hday

theorem length_fullDate (hyear : year < 10000) (hmonth : month < 100) (hday : day < 100) :
    (fullDate year month day).length = 10 := by
  have hyear := (padded_fits (by decide : 1 ≤ 4) hyear).1
  have hmonth := (padded_fits (by decide : 1 ≤ 2) hmonth).1
  have hday := (padded_fits (by decide : 1 ≤ 2) hday).1
  rw [fullDate, List.length_append, List.length_cons, List.length_append, List.length_cons,
    hyear, hmonth, hday]

/-- The form of a date begins with a digit, and with a mark what stands behind ten characters. -/
theorem HasForm.marks (h : HasForm text) :
    (∀ c ∈ text.head?, c.isDigit = true) ∧ ∀ c ∈ (text.drop 10).head?, c ∈ ['T', 't', ' '] := by
  cases h with
  | @form year month day behind hyear hmonth hday hends =>
      constructor
      · obtain ⟨digit, rest, hdigits⟩ := List.exists_cons_of_ne_nil (padded_ne_nil 4 year)
        have hdigit : digit ∈ padded 4 year := hdigits ▸ List.mem_cons_self
        rw [fullDate, hdigits]
        rintro _ ⟨⟩
        exact isDigit_of_mem_padded hdigit
      · rw [List.drop_left' (length_fullDate hyear hmonth hday)]
        rcases hends with hnil | htime
        · rw [hnil]
          intro c hc
          cases hc
        · cases htime with
          | clock hmark =>
              intro c hc
              cases hc
              exact hmark

/-! ## The part of a text that is read -/

/-- The number of bytes of a text. -/
def byteCount (s : List Char) : Nat := (s.map Char.utf8Size).sum

/-- What a text has in its first ten bytes, or all of it if no character ends there. -/
inductive IsDatedPart : List Char → List Char → Prop where
  | head {part behind : List Char} (ten : byteCount part = 10) : IsDatedPart (part ++ behind) part
  | whole {text : List Char}
      (uncut : ∀ part behind, text = part ++ behind → byteCount part ≠ 10) : IsDatedPart text text

theorem byteCount_eq_zero {s : List Char} : byteCount s = 0 ↔ s = [] := by
  constructor
  · intro h
    cases s with
    | nil => rfl
    | cons c rest =>
        have hpos := c.utf8Size_pos
        rw [byteCount, List.map_cons, List.sum_cons] at h
        omega
  · rintro rfl
    rfl

theorem byteCount_cons (c : Char) (s : List Char) :
    byteCount (c :: s) = c.utf8Size + byteCount s := by
  rw [byteCount, List.map_cons, List.sum_cons]
  rfl

theorem go_zero_eq_some_iff {s : List Char} :
    firstTenBytes?.go s 0 = some part ↔ ∃ behind, s = part ++ behind ∧ byteCount part = 0 := by
  have hgo : firstTenBytes?.go s 0 = some [] := by cases s <;> rfl
  rw [hgo, Option.some.injEq]
  constructor
  · rintro rfl
    exact ⟨s, rfl, rfl⟩
  · rintro ⟨behind, -, hzero⟩
    exact (byteCount_eq_zero.1 hzero).symm

/-- What has bytes at the head of a text begins as the text does. -/
theorem exists_append_cons_iff {c : Char} {rest : List Char} {n : Nat} :
    (∃ behind, c :: rest = part ++ behind ∧ byteCount part = n + 1) ↔
      ∃ tail, part = c :: tail ∧
        ∃ behind, rest = tail ++ behind ∧ c.utf8Size + byteCount tail = n + 1 := by
  constructor
  · rintro ⟨behind, htext, hcount⟩
    cases part with
    | nil => cases hcount
    | cons c' tail =>
        obtain ⟨rfl, rfl⟩ := List.cons.inj htext
        rw [byteCount_cons] at hcount
        exact ⟨tail, rfl, behind, rfl, hcount⟩
  · rintro ⟨tail, rfl, behind, rfl, hcount⟩
    exact ⟨behind, rfl, (byteCount_cons c tail).trans hcount⟩

/-- So many bytes are taken if a character ends there. -/
theorem go_eq_some_iff {s : List Char} {n : Nat} :
    firstTenBytes?.go s n = some part ↔ ∃ behind, s = part ++ behind ∧ byteCount part = n := by
  induction s generalizing n part with
  | nil =>
      cases n with
      | zero => exact go_zero_eq_some_iff
      | succ n =>
          refine iff_of_false (fun h => by cases h) ?_
          rintro ⟨behind, hempty, hcount⟩
          rw [(List.append_eq_nil_iff.1 hempty.symm).1] at hcount
          cases hcount
  | cons c rest ih =>
      cases n with
      | zero => exact go_zero_eq_some_iff
      | succ n =>
          have hgo : firstTenBytes?.go (c :: rest) (n + 1) =
              if c.utf8Size ≤ n + 1 then
                (firstTenBytes?.go rest (n + 1 - c.utf8Size)).map (c :: ·)
              else none := rfl
          rw [hgo, exists_append_cons_iff]
          split
          · next hfits =>
            rw [Option.map_eq_some_iff]
            constructor
            · rintro ⟨tail, htail, rfl⟩
              obtain ⟨behind, hrest, hcount⟩ := ih.1 htail
              exact ⟨tail, rfl, behind, hrest, by omega⟩
            · rintro ⟨tail, rfl, behind, hrest, hcount⟩
              exact ⟨tail, ih.2 ⟨behind, hrest, by omega⟩, rfl⟩
          · next hlong =>
            refine iff_of_false (fun h => by cases h) ?_
            rintro ⟨tail, -, behind, -, hcount⟩
            omega

theorem firstTenBytes?_eq_some_iff :
    firstTenBytes? text = some part ↔ ∃ behind, text = part ++ behind ∧ byteCount part = 10 :=
  go_eq_some_iff

theorem isDatedPart_iff : IsDatedPart text part ↔ part = (firstTenBytes? text).getD text := by
  constructor
  · rintro (⟨hten⟩ | ⟨huncut⟩)
    · rw [firstTenBytes?_eq_some_iff.2 ⟨_, rfl, hten⟩, Option.getD_some]
    · have hnone : firstTenBytes? text = none := by
        refine Option.eq_none_iff_forall_ne_some.2 fun part hpart => ?_
        obtain ⟨behind, htext, hten⟩ := firstTenBytes?_eq_some_iff.1 hpart
        exact huncut part behind htext hten
      rw [hnone, Option.getD_none]
  · rintro rfl
    cases hpart : firstTenBytes? text with
    | none =>
        refine .whole fun part behind htext hten => ?_
        rw [firstTenBytes?_eq_some_iff.2 ⟨behind, htext, hten⟩] at hpart
        cases hpart
    | some part =>
        obtain ⟨behind, rfl, hten⟩ := firstTenBytes?_eq_some_iff.1 hpart
        exact .head hten

theorem byteCount_eq_length {s : List Char} (h : ∀ c ∈ s, c.utf8Size = 1) :
    byteCount s = s.length := by
  rw [byteCount, List.map_congr_left h, List.map_const', List.sum_replicate_nat, Nat.mul_one]

theorem utf8Size_of_mem_fullDate {c : Char} (h : c ∈ fullDate year month day) :
    c.utf8Size = 1 := by
  have hdigit : ∀ {c : Char}, c.isDigit = true → c.utf8Size = 1 := by
    intro c hc
    simp only [Char.isDigit, Bool.and_eq_true, decide_eq_true_eq] at hc
    exact Char.utf8Size_eq_one_iff.2 (UInt32.le_trans hc.2 (by decide))
  simp only [fullDate, List.mem_append, List.mem_cons] at h
  rcases h with h | rfl | h | rfl | h
  · exact hdigit (isDigit_of_mem_padded h)
  · rfl
  · exact hdigit (isDigit_of_mem_padded h)
  · rfl
  · exact hdigit (isDigit_of_mem_padded h)

/-- The year, the month and the day take ten bytes. -/
theorem isDatedPart_fullDate (hyear : year < 10000) (hmonth : month < 100) (hday : day < 100)
    (behind : List Char) : IsDatedPart (fullDate year month day ++ behind)
      (fullDate year month day) := by
  refine .head ?_
  rw [byteCount_eq_length fun _ => utf8Size_of_mem_fullDate, length_fullDate hyear hmonth hday]

/-! ## What is read -/

theorem propertyDate?_eq_some_iff {value : String} :
    propertyDate? value = some d ↔
      ∃ part, IsDatedPart (trim value.toList) part ∧ Writes part d.year d.month d.day := by
  rw [propertyDate?, Date.ofText?_eq_some_iff]
  constructor
  · exact fun h => ⟨_, isDatedPart_iff.2 rfl, h⟩
  · rintro ⟨part, hpart, hwrites⟩
    rwa [← isDatedPart_iff.1 hpart]

/-- A text that holds a date is read as that date. -/
theorem IsOn.exists_part (h : IsOn d text) :
    ∃ part, IsDatedPart text part ∧ Writes part d.year d.month d.day := by
  cases h with
  | date hnonneg hle hends =>
      have hyear : (d.year.toNat : Int) = d.year := Int.toNat_of_nonneg hnonneg
      have hwrites := writes_fullDate (by omega : d.year.toNat < 10000) d.month_lt d.day_lt
      rw [hyear] at hwrites
      exact ⟨_, isDatedPart_fullDate (by omega) d.month_lt d.day_lt _, hwrites⟩

/-- In the form of a date nothing is read but the date that the text holds. -/
theorem HasForm.isOn (h : HasForm text) (hpart : IsDatedPart text part)
    (hwrites : Writes part d.year d.month d.day) : IsOn d text := by
  cases h with
  | @form year month day behind hyear hmonth hday hends =>
      have hfull := isDatedPart_iff.1 (isDatedPart_fullDate hyear hmonth hday behind)
      rw [isDatedPart_iff.1 hpart, ← hfull] at hwrites
      obtain ⟨hyears, hmonths, hdays⟩ := (writes_fullDate hyear hmonth hday).unique hwrites
      have htoNat : year = d.year.toNat := by omega
      subst hmonths hdays htoNat
      exact .date (by omega) (by omega) hends

section Archive

variable {derivation : ArchiveDerivation} {c : CaseRecord} {endDate : Date}
  {mainCaseEndDate : Option Date} {name value : String}

theorem sourceDate_of_property (hmethod : derivation.method = .eigenschap)
    (hattribute : derivation.dateAttribute = some name)
    (hvalue : c.properties.get? name = some value) :
    sourceDate derivation c endDate mainCaseEndDate =
      orError (.invalidPropertyDate name value) (propertyDate? value) := by
  rw [sourceDate, hmethod]
  simp only [hattribute, hvalue]

theorem orError_eq_ok {α : Type} {e : ArchiveError} {o : Option α} {a : α} :
    orError e o = .ok (some a) ↔ o = some a := by
  cases o with
  | none => simp [orError]
  | some b => simp [orError]

theorem orError_cases {α : Type} (e : ArchiveError) (o : Option α) :
    (∃ a, orError e o = .ok (some a)) ∨ orError e o = .error e := by
  cases o with
  | none => exact .inr rfl
  | some a => exact .inl ⟨a, rfl⟩

/-- From a property the archive counts just if the first ten bytes of it, if a character ends
there, or all of it, write a date in one of the forms that are read; the property is refused
otherwise. So every text that holds a date gives that date, and no other text gives one except
where it begins with what reads as a date and does not have the form of one. -/
theorem property_date_is_held_unless_misshapen (hmethod : derivation.method = .eigenschap)
    (hattribute : derivation.dateAttribute = some name)
    (hvalue : c.properties.get? name = some value) :
    (∀ d, sourceDate derivation c endDate mainCaseEndDate = .ok (some d) ↔
      ∃ part, IsDatedPart (trim value.toList) part ∧ Writes part d.year d.month d.day) ∧
    ((∃ d, sourceDate derivation c endDate mainCaseEndDate = .ok (some d)) ∨
      sourceDate derivation c endDate mainCaseEndDate =
        .error (.invalidPropertyDate name value)) ∧
    (∀ d, IsOn d (trim value.toList) →
      sourceDate derivation c endDate mainCaseEndDate = .ok (some d)) ∧
    ((∀ d, sourceDate derivation c endDate mainCaseEndDate = .ok (some d) ↔
        IsOn d (trim value.toList)) ↔
      ∀ (part : List Char) (d : Date), IsDatedPart (trim value.toList) part →
        Writes part d.year d.month d.day → HasForm (trim value.toList)) := by
  have hread : ∀ d, sourceDate derivation c endDate mainCaseEndDate = .ok (some d) ↔
      ∃ part, IsDatedPart (trim value.toList) part ∧ Writes part d.year d.month d.day := by
    intro d
    rw [sourceDate_of_property hmethod hattribute hvalue, orError_eq_ok,
      propertyDate?_eq_some_iff]
  refine ⟨hread, ?_, fun d hd => (hread d).2 hd.exists_part, fun h part d hpart hwrites => ?_,
    fun h d => ⟨fun hdate => ?_, fun hd => (hread d).2 hd.exists_part⟩⟩
  · rw [sourceDate_of_property hmethod hattribute hvalue]
    exact orError_cases _ _
  · exact ((h d).1 ((hread d).2 ⟨part, hpart, hwrites⟩)).hasForm
  · obtain ⟨part, hpart, hwrites⟩ := (hread d).1 hdate
    exact (h part d hpart hwrites).isOn hpart hwrites

/-- The archive counts from what the case has as its instant. -/
def fromInstant : ArchiveDerivation where
  method := .eigenschap
  dateAttribute := some "tijdstip"

def caseHolding (value : String) : CaseRecord where
  id := "z1"
  caseType := ⟨"zt-1"⟩
  confidentiality := .openbaar
  properties := .ofList [("tijdstip", value)]

def newYear : Date := ⟨2025, 1, 1, by decide⟩

/-- A point in time gives its day, and no other. -/
theorem instant_gives_its_day :
    fromInstant.method = .eigenschap ∧ fromInstant.dateAttribute = some "tijdstip" ∧
      (caseHolding " 2024-07-01T10:00:60.5+02:00").properties.get? "tijdstip" =
        some " 2024-07-01T10:00:60.5+02:00" ∧
      sourceDate fromInstant (caseHolding " 2024-07-01T10:00:60.5+02:00") newYear none =
        .ok (some ⟨2024, 7, 1, by decide⟩) := by
  have hvalue : (caseHolding " 2024-07-01T10:00:60.5+02:00").properties.get? "tijdstip" =
      some " 2024-07-01T10:00:60.5+02:00" := by decide +kernel
  have hoffset : IsOffset ('+' :: (padded 2 2 ++ ':' :: padded 2 0)) :=
    .hours (by decide) (by decide) (by decide)
  have hfraction : IsFraction ['.', '5'] :=
    .digits (by decide) (List.forall_mem_singleton.2 (by decide))
  have htime : IsTimeOfDay ('T' :: (padded 2 10 ++ ':' :: (padded 2 0 ++ ':' :: (padded 2 60 ++
      (['.', '5'] ++ ('+' :: (padded 2 2 ++ ':' :: padded 2 0))))))) :=
    .clock (by decide) (by decide) (by decide) (by decide) hfraction hoffset
  have htext : trim " 2024-07-01T10:00:60.5+02:00".toList =
      fullDate 2024 7 1 ++ 'T' :: (padded 2 10 ++ ':' :: (padded 2 0 ++ ':' :: (padded 2 60 ++
        (['.', '5'] ++ ('+' :: (padded 2 2 ++ ':' :: padded 2 0)))))) := by decide +kernel
  have hon : IsOn ⟨2024, 7, 1, by decide⟩ (trim " 2024-07-01T10:00:60.5+02:00".toList) := by
    rw [htext]
    exact .date (by decide) (by decide) (.inr htime)
  have hmethod : fromInstant.method = .eigenschap := rfl
  have hattribute : fromInstant.dateAttribute = some "tijdstip" := rfl
  exact ⟨hmethod, hattribute, hvalue,
    (property_date_is_held_unless_misshapen hmethod hattribute hvalue).2.2.1 _ hon⟩

/-- Behind a date other text is skipped, and behind a sign the last digit of the day. -/
theorem junk_behind_date_is_skipped :
    (sourceDate fromInstant (caseHolding "2024-06-30junk") newYear none =
        .ok (some ⟨2024, 6, 30, by decide⟩) ∧
      ¬ ∃ d, IsOn d (trim "2024-06-30junk".toList)) ∧
    sourceDate fromInstant (caseHolding "+2024-06-30") newYear none =
        .ok (some ⟨2024, 6, 3, by decide⟩) ∧
      ¬ ∃ d, IsOn d (trim "+2024-06-30".toList) := by
  refine ⟨⟨by decide +kernel, ?_⟩, by decide +kernel, ?_⟩
  · rintro ⟨d, hd⟩
    obtain ⟨-, hmark⟩ := hd.hasForm.marks
    exact absurd (hmark 'j' (by decide +kernel)) (by decide)
  · rintro ⟨d, hd⟩
    obtain ⟨hdigit, -⟩ := hd.hasForm.marks
    exact absurd (hdigit '+' (by decide +kernel)) (by decide)

end Archive

end CaseAccess
