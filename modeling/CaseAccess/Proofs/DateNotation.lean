import CaseAccess.Calendar.DateText
import Mathlib.Data.List.TakeWhile

/-!
# Which texts are dates

A date is written as its year, its month and its day, with hyphens between them. The reader
takes more than one form of it: blanks may stand around each number, the month and the day may
have one digit, and a year may have fewer than four digits, or any number of them behind a
sign. `Writes` says what is written of a date, and `ofText?_eq_some_iff` that the reader takes
just that, if the calendar has the date.

Each number is read as far as its digits go. That this is where the number ends is seen by
what follows it, which is a blank, a hyphen or nothing, and never a digit.
-/

namespace CaseAccess

/-! ## Blanks -/

/-- There are blanks in the text, and nothing else. -/
def AreBlanks (s : List Char) : Prop := ∀ c ∈ s, isBlank c = true

theorem trimLeft_append {blanks : List Char} (h : AreBlanks blanks) (s : List Char) :
    trimLeft (blanks ++ s) = trimLeft s :=
  List.dropWhile_append_of_pos h

theorem exists_trimLeft (s : List Char) :
    ∃ blanks, AreBlanks blanks ∧ s = blanks ++ trimLeft s :=
  ⟨s.takeWhile isBlank, fun _ hc => List.mem_takeWhile_imp hc,
    List.takeWhile_append_dropWhile.symm⟩

theorem trimLeft_eq_nil_iff {s : List Char} : trimLeft s = [] ↔ AreBlanks s := by
  rw [trimLeft, List.dropWhile_eq_nil_iff, AreBlanks]

namespace Date

variable {width n month day : Nat} {year : Int} {s rest ds : List Char}

/-! ## Numbers -/

/-- A number in digits, of which there are `width` at most. -/
structure IsNumber (width : Nat) (ds : List Char) (n : Nat) : Prop where
  ne_nil : ds ≠ []
  short : ds.length ≤ width
  digits : ∀ c ∈ ds, c.isDigit = true
  value : Decimal.value ds = n

/-- No digit stands at the head of the text. -/
def NoDigit (s : List Char) : Prop := ∀ c ∈ s.head?, c.isDigit = false

theorem isBlank_of_isDigit {c : Char} (h : c.isDigit = true) : isBlank c = false := by
  simp only [Char.isDigit, Bool.and_eq_true, decide_eq_true_eq] at h
  have hlow : (48 : Nat) ≤ c.toNat := h.1
  have hhigh : c.toNat ≤ 57 := h.2
  exact isBlank_of_toNat (by omega)

theorem IsNumber.exists_cons (h : IsNumber width ds n) :
    ∃ c cs, ds = c :: cs ∧ c.isDigit = true := by
  obtain ⟨c, cs, rfl⟩ := List.exists_cons_of_ne_nil h.ne_nil
  exact ⟨c, cs, rfl, h.digits c List.mem_cons_self⟩

theorem IsNumber.trimLeft_append (h : IsNumber width ds n) (rest : List Char) :
    trimLeft (ds ++ rest) = ds ++ rest := by
  obtain ⟨c, cs, rfl, hc⟩ := h.exists_cons
  refine trimLeft_eq_self ?_
  rintro _ ⟨⟩
  exact isBlank_of_isDigit hc

theorem of_readNumber (h : readNumber width s = some (n, rest)) :
    ∃ ds, s = ds ++ rest ∧ IsNumber width ds n := by
  rw [readNumber] at h
  split at h
  · cases h
  · next hne =>
    cases h
    have hrun : (s.take width).takeWhile Char.isDigit <+: s.take width := List.takeWhile_prefix _
    have hhead : (s.take width).takeWhile Char.isDigit <+: s :=
      List.IsPrefix.trans hrun <| List.take_prefix _ _
    refine ⟨(s.take width).takeWhile Char.isDigit, (List.prefix_iff_eq_append.1 hhead).symm,
      hne, ?_, fun _ hc => List.mem_takeWhile_imp hc, rfl⟩
    exact Nat.le_trans hrun.length_le (List.length_take_le _ _)

/-- A number is read up to what is no digit. -/
theorem readNumber_append (h : IsNumber width ds n) (hrest : NoDigit rest) :
    readNumber width (ds ++ rest) = some (n, rest) := by
  have hstop : ∀ k, (rest.take k).takeWhile Char.isDigit = [] := by
    intro k
    cases rest with
    | nil => rw [List.take_nil, List.takeWhile_nil]
    | cons c tail =>
        cases k with
        | zero => rfl
        | succ k =>
            rw [List.take_succ_cons, List.takeWhile_cons, hrest c rfl, if_neg Bool.false_ne_true]
  have hdigits : ((ds ++ rest).take width).takeWhile Char.isDigit = ds := by
    rw [List.take_append, List.take_of_length_le h.short,
      List.takeWhile_append_of_pos h.digits, hstop, List.append_nil]
  rw [readNumber, hdigits]
  split
  · exact absurd rfl h.ne_nil
  · rw [List.drop_left, h.value]

/-! ## Years and hyphens -/

/-- How a year is written: in four digits at most, or behind a sign in any number of them. -/
inductive IsYear : List Char → Int → Prop where
  | plain {ds : List Char} {n : Nat} (number : IsNumber 4 ds n) : IsYear ds n
  | negative {ds : List Char} {n : Nat} (number : IsNumber ds.length ds n) :
      IsYear ('-' :: ds) (-n)
  | positive {ds : List Char} {n : Nat} (number : IsNumber ds.length ds n) :
      IsYear ('+' :: ds) n

/-- A hyphen, and blanks around it. -/
inductive IsHyphen : List Char → Prop where
  | hyphen {before after : List Char} (before_blanks : AreBlanks before)
      (after_blanks : AreBlanks after) : IsHyphen (before ++ '-' :: after)

theorem IsYear.trimLeft_append (h : IsYear ds year) (rest : List Char) :
    trimLeft (ds ++ rest) = ds ++ rest := by
  cases h with
  | plain number => exact number.trimLeft_append rest
  | negative number => exact trimLeft_eq_self (by rintro _ ⟨⟩; rfl)
  | positive number => exact trimLeft_eq_self (by rintro _ ⟨⟩; rfl)

theorem IsNumber.of_append (h : IsNumber (ds ++ rest).length ds n) : IsNumber ds.length ds n :=
  ⟨h.ne_nil, Nat.le_refl _, h.digits, h.value⟩

theorem of_readYear (h : readYear s = some (year, rest)) :
    ∃ ds, s = ds ++ rest ∧ IsYear ds year := by
  rw [readYear.eq_def] at h
  split at h
  · obtain ⟨⟨n, tail⟩, hread, heq⟩ := Option.map_eq_some_iff.1 h
    cases heq
    obtain ⟨ds, rfl, hnumber⟩ := of_readNumber hread
    exact ⟨'-' :: ds, rfl, .negative hnumber.of_append⟩
  · obtain ⟨⟨n, tail⟩, hread, heq⟩ := Option.map_eq_some_iff.1 h
    cases heq
    obtain ⟨ds, rfl, hnumber⟩ := of_readNumber hread
    exact ⟨'+' :: ds, rfl, .positive hnumber.of_append⟩
  · obtain ⟨⟨n, tail⟩, hread, heq⟩ := Option.map_eq_some_iff.1 h
    cases heq
    obtain ⟨ds, rfl, hnumber⟩ := of_readNumber hread
    exact ⟨ds, rfl, .plain hnumber⟩

theorem readYear_append (h : IsYear ds year) (hrest : NoDigit rest) :
    readYear (ds ++ rest) = some (year, rest) := by
  have hlong : ∀ {ds : List Char} {n : Nat}, IsNumber ds.length ds n →
      readNumber (ds ++ rest).length (ds ++ rest) = some (n, rest) := by
    intro ds n hnumber
    have hshort : ds.length ≤ (ds ++ rest).length := by
      rw [List.length_append]
      omega
    exact readNumber_append ⟨hnumber.ne_nil, hshort, hnumber.digits, hnumber.value⟩ hrest
  cases h with
  | negative number => rw [List.cons_append, readYear, hlong number, Option.map_some]
  | positive number => rw [List.cons_append, readYear, hlong number, Option.map_some]
  | plain number =>
      have hread := readNumber_append number hrest
      obtain ⟨c, cs, rfl, hc⟩ := number.exists_cons
      rw [readYear.eq_def]
      split
      · next heq =>
        rw [(List.cons.inj heq).1] at hc
        cases hc
      · next heq =>
        rw [(List.cons.inj heq).1] at hc
        cases hc
      · rw [hread, Option.map_some]

theorem of_readHyphen (h : readHyphen s = some rest) :
    ∃ hyphen, s = hyphen ++ rest ∧ IsHyphen hyphen := by
  rw [readHyphen] at h
  split at h
  · next tail htail =>
    cases h
    obtain ⟨before, hbefore, hs⟩ := exists_trimLeft s
    obtain ⟨after, hafter, hafterwards⟩ := exists_trimLeft tail
    refine ⟨before ++ '-' :: after, ?_, .hyphen hbefore hafter⟩
    rw [List.append_assoc, List.cons_append, ← hafterwards, ← htail, ← hs]
  · cases h

theorem readHyphen_append (h : IsHyphen ds) (hrest : trimLeft rest = rest) :
    readHyphen (ds ++ rest) = some rest := by
  cases h with
  | @hyphen before after hbefore hafter =>
      have hmark : trimLeft ('-' :: (after ++ rest)) = '-' :: (after ++ rest) :=
        trimLeft_eq_self (by rintro _ ⟨⟩; rfl)
      rw [readHyphen, List.append_assoc, List.cons_append, CaseAccess.trimLeft_append hbefore,
        hmark]
      simp only [CaseAccess.trimLeft_append hafter, hrest]

theorem noDigit_append (hs : AreBlanks s) (hrest : NoDigit rest) : NoDigit (s ++ rest) := by
  cases s with
  | nil => exact hrest
  | cons c tail =>
      rintro _ ⟨⟩
      have hblank := hs c List.mem_cons_self
      by_contra hdigit
      rw [isBlank_of_isDigit (Bool.not_eq_false _ ▸ hdigit)] at hblank
      cases hblank

theorem noDigit_of_areBlanks (hs : AreBlanks s) : NoDigit s := by
  rw [← List.append_nil s]
  refine noDigit_append hs ?_
  rintro _ ⟨⟩

theorem IsHyphen.noDigit (h : IsHyphen ds) (rest : List Char) : NoDigit (ds ++ rest) := by
  cases h with
  | hyphen hbefore hafter =>
      rw [List.append_assoc]
      refine noDigit_append hbefore ?_
      rintro _ ⟨⟩
      rfl

/-! ## Dates -/

/-- The text writes that year, month and day, whether there is such a date or not. -/
inductive Writes : List Char → Int → Nat → Nat → Prop where
  | fields {before yearText first monthText second dayText after : List Char} {year : Int}
      {month day : Nat} (before_blanks : AreBlanks before) (isYear : IsYear yearText year)
      (first_hyphen : IsHyphen first) (isMonth : IsNumber 2 monthText month)
      (second_hyphen : IsHyphen second) (isDay : IsNumber 2 dayText day)
      (after_blanks : AreBlanks after) :
      Writes (before ++ (yearText ++ (first ++ (monthText ++ (second ++ (dayText ++ after))))))
        year month day

/-- The year, the month and the day that a text writes. -/
def fields? (s : List Char) : Option (Int × Nat × Nat) := do
  let (year, s) ← readYear (trimLeft s)
  let s ← readHyphen s
  let (month, s) ← readNumber 2 s
  let s ← readHyphen s
  let (day, s) ← readNumber 2 s
  if trimLeft s = [] then some (year, month, day) else none

theorem ofText?_eq (s : List Char) :
    ofText? s = (fields? s).bind fun f => of? f.1 f.2.1 f.2.2 := by
  rw [ofText?, fields?]
  simp only [Option.bind_eq_bind, Option.bind_assoc]
  refine Option.bind_congr fun ⟨year, s⟩ _ => Option.bind_congr fun s _ =>
    Option.bind_congr fun ⟨month, s⟩ _ => Option.bind_congr fun s _ =>
      Option.bind_congr fun ⟨day, s⟩ _ => ?_
  split
  · rfl
  · rfl

theorem fields?_eq_some_iff : fields? s = some (year, month, day) ↔ Writes s year month day := by
  constructor
  · intro h
    simp only [fields?, Option.bind_eq_bind, Option.bind_eq_some_iff, Prod.exists] at h
    obtain ⟨year', s₁, hyear, s₂, hfirst, month', s₃, hmonth, s₄, hsecond, day', s₅, hday, h⟩ := h
    split at h
    · next hafter =>
      cases h
      obtain ⟨before, hbefore, hs⟩ := exists_trimLeft s
      obtain ⟨yearText, hs₁, hisYear⟩ := of_readYear hyear
      obtain ⟨first, rfl, hisFirst⟩ := of_readHyphen hfirst
      obtain ⟨monthText, rfl, hisMonth⟩ := of_readNumber hmonth
      obtain ⟨second, rfl, hisSecond⟩ := of_readHyphen hsecond
      obtain ⟨dayText, rfl, hisDay⟩ := of_readNumber hday
      rw [hs, hs₁]
      exact .fields hbefore hisYear hisFirst hisMonth hisSecond hisDay
        (trimLeft_eq_nil_iff.1 hafter)
    · cases h
  · rintro ⟨hbefore, hyear, hfirst, hmonth, hsecond, hday, hafter⟩
    rw [fields?, trimLeft_append hbefore, hyear.trimLeft_append]
    simp only [readYear_append hyear (hfirst.noDigit _),
      readHyphen_append hfirst (hmonth.trimLeft_append _),
      readNumber_append hmonth (hsecond.noDigit _),
      readHyphen_append hsecond (hday.trimLeft_append _),
      readNumber_append hday (noDigit_of_areBlanks hafter), trimLeft_eq_nil_iff.2 hafter,
      Option.bind_eq_bind, Option.bind_some, if_true]

/-- A text writes one year, one month and one day at most. -/
theorem Writes.unique {year' : Int} {month' day' : Nat} (h : Writes s year month day)
    (h' : Writes s year' month' day') : year' = year ∧ month' = month ∧ day' = day := by
  have hfields := (fields?_eq_some_iff.2 h').symm.trans (fields?_eq_some_iff.2 h)
  cases hfields
  exact ⟨rfl, rfl, rfl⟩

theorem of?_eq_some_iff {d : Date} :
    of? year month day = some d ↔ d.year = year ∧ d.month = month ∧ d.day = day := by
  rw [of?]
  constructor
  · intro h
    split at h
    · cases h
      exact ⟨rfl, rfl, rfl⟩
    · cases h
  · rintro ⟨rfl, rfl, rfl⟩
    rw [dif_pos d.isDate]

/-- A text is read as a date just if it writes the year, the month and the day of it. -/
theorem ofText?_eq_some_iff {d : Date} : ofText? s = some d ↔ Writes s d.year d.month d.day := by
  rw [ofText?_eq, Option.bind_eq_some_iff]
  constructor
  · rintro ⟨⟨year, month, day⟩, hfields, hdate⟩
    obtain ⟨rfl, rfl, rfl⟩ := of?_eq_some_iff.1 hdate
    exact fields?_eq_some_iff.1 hfields
  · intro h
    exact ⟨_, fields?_eq_some_iff.2 h, of?_eq_some_iff.2 ⟨rfl, rfl, rfl⟩⟩

end Date

end CaseAccess
