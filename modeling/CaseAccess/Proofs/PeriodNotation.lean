import CaseAccess.Calendar.Period
import CaseAccess.Proofs.JsonText
import Mathlib.Data.List.Nodup

/-!
# Which texts are periods

The text of a period is a `P` and components behind it, each a number in digits and the
letter of the unit that it counts. In the notation of ISO 8601 the units come in the order of
their size, and so each of them at most once.

The reader asks for the components and not for their order. What it accepts is written in one
way only, as `IsWriting.unique` says, so it can be said of a text whether its components are
in order. Where they are, the period holds each number that is written, and nothing else.
Where they are not, the text is read all the same, and of two components of one unit the
earlier one is lost.

What is written of a period is in order: each unit that is not zero is written once. So the
period is read of its text again.
-/

namespace CaseAccess.Period

/-! ## Components as they are written -/

/-- The letter of a unit. -/
def Designator.letter : Designator → Char
  | .years => 'Y'
  | .months => 'M'
  | .weeks => 'W'
  | .days => 'D'

/-- The place of a unit in the notation. -/
def Designator.place : Designator → Nat
  | .years => 0
  | .months => 1
  | .weeks => 2
  | .days => 3

/-- The number of one unit. -/
def get (p : Period) : Designator → UInt32
  | .years => p.years
  | .months => p.months
  | .weeks => p.weeks
  | .days => p.days

/-- A number that fits 32 bits, in digits, and the unit that it counts. -/
structure Part where
  digits : List Char
  unit : Designator
  ne_nil : digits ≠ []
  areDigits : ∀ c ∈ digits, c.isDigit = true
  fits : Decimal.value digits ≤ 4294967295

namespace Part

def chars (part : Part) : List Char := part.digits ++ [part.unit.letter]

def number (part : Part) : UInt32 := UInt32.ofNat (Decimal.value part.digits)

/-- What the reader makes of the component. -/
def entry (part : Part) : Designator × UInt32 := (part.unit, part.number)

theorem toNat_number (part : Part) : part.number.toNat = Decimal.value part.digits :=
  UInt32.toNat_ofNat_of_lt' (Nat.lt_succ_of_le part.fits)

end Part

/-- The text is a `P` and these components, one behind the other. -/
structure IsWriting (text : String) (parts : List Part) : Prop where
  ne_nil : parts ≠ []
  text_eq : text.toList = 'P' :: parts.flatMap Part.chars

/-- The units come in the order of the notation, so none comes twice. -/
def InOrder (parts : List Part) : Prop :=
  parts.Pairwise fun a b => a.unit.place < b.unit.place

/-- The last number that is written for a unit, and zero if there is none. -/
def lastNumber (parts : List Part) (unit : Designator) : UInt32 :=
  ((parts.filter (·.unit = unit)).getLast?.map Part.number).getD 0

section Writings

variable {text : String} {parts others : List Part} {p : Period}

theorem Designator.ofChar?_letter (unit : Designator) : ofChar? unit.letter = some unit := by
  cases unit <;> rfl

theorem Designator.isDigit_letter (unit : Designator) : unit.letter.isDigit = false := by
  cases unit <;> rfl

theorem Designator.eq_letter_of_ofChar? {c : Char} {unit : Designator}
    (h : ofChar? c = some unit) : c = unit.letter := by
  unfold ofChar? at h
  split at h
  all_goals first
    | cases h; rfl
    | cases h

/-! ## What is read -/

theorem count?_eq_some_iff {digits : List Char} {n : UInt32} :
    count? digits = some n ↔
      digits ≠ [] ∧ Decimal.value digits ≤ 4294967295 ∧
        n = UInt32.ofNat (Decimal.value digits) := by
  have hsize : UInt32.size = 4294967296 := rfl
  rw [count?]
  dsimp only
  split
  · next hnil => simp [hnil]
  · next hne =>
    split
    · next hlt =>
      rw [Option.some.injEq]
      exact ⟨fun h => ⟨hne, by omega, h.symm⟩, fun h => h.2.2.symm⟩
    · next hge => exact iff_of_false (fun h => by cases h) fun h => absurd h.2.1 (by omega)

/-- Digits that have been read belong to the first component. -/
theorem of_components? {before s : List Char} {entries : List (Designator × UInt32)}
    (hbefore : ∀ c ∈ before, c.isDigit = true) (h : components? before s = some entries) :
    ∃ parts : List Part, before ++ s = parts.flatMap Part.chars ∧
      entries = parts.map Part.entry := by
  induction s generalizing before entries with
  | nil =>
      rw [components?] at h
      split at h
      · next hnil =>
        cases h
        exact ⟨[], by rw [hnil]; rfl, rfl⟩
      · cases h
  | cons c rest ih =>
      rw [components?] at h
      split at h
      · next hdigit =>
        have hmore : ∀ d ∈ before ++ [c], d.isDigit = true :=
          List.forall_mem_append.2 ⟨hbefore, List.forall_mem_singleton.2 hdigit⟩
        obtain ⟨parts, htext, hentries⟩ := ih hmore h
        exact ⟨parts, by rw [← htext, List.append_assoc]; rfl, hentries⟩
      · simp only [Option.bind_eq_bind, Option.bind_eq_some_iff, Option.pure_def,
          Option.some.injEq] at h
        obtain ⟨n, hn, unit, hunit, tail, htail, rfl⟩ := h
        obtain ⟨hne, hfits, rfl⟩ := count?_eq_some_iff.1 hn
        obtain ⟨parts, htext, rfl⟩ := ih (List.forall_mem_nil _) htail
        refine ⟨⟨before, unit, hne, hbefore, hfits⟩ :: parts, ?_, rfl⟩
        rw [List.flatMap_cons, ← htext, Part.chars, ← Designator.eq_letter_of_ofChar? hunit]
        simp

/-- Digits that are still to be read go behind those that have been. -/
theorem components?_append {ds : List Char} (hds : ∀ c ∈ ds, c.isDigit = true)
    (before rest : List Char) :
    components? before (ds ++ rest) = components? (before ++ ds) rest := by
  induction ds generalizing before with
  | nil => rw [List.append_nil, List.nil_append]
  | cons c tail ih =>
      rw [List.cons_append, components?, if_pos (hds c List.mem_cons_self),
        ih (fun c' hc' => hds c' (List.mem_cons_of_mem _ hc')), List.append_assoc]
      rfl

theorem components?_part (part : Part) (s : List Char) :
    components? [] (part.chars ++ s) = (components? [] s).map (part.entry :: ·) := by
  have hcount : count? part.digits = some part.number :=
    count?_eq_some_iff.2 ⟨part.ne_nil, part.fits, rfl⟩
  rw [Part.chars, List.append_assoc, components?_append part.areDigits, List.nil_append,
    List.singleton_append, components?, if_neg (Bool.eq_false_iff.1 part.unit.isDigit_letter),
    hcount, part.unit.ofChar?_letter]
  cases components? [] s <;> rfl

theorem components?_flatMap (parts : List Part) :
    components? [] (parts.flatMap Part.chars) = some (parts.map Part.entry) := by
  induction parts with
  | nil => rfl
  | cons part rest ih => rw [List.flatMap_cons, components?_part, ih]; rfl

theorem components?_eq_some_iff {s : List Char} {entries : List (Designator × UInt32)} :
    components? [] s = some entries ↔
      ∃ parts : List Part, s = parts.flatMap Part.chars ∧ entries = parts.map Part.entry := by
  constructor
  · exact of_components? fun _ hc => nomatch hc
  · rintro ⟨parts, rfl, rfl⟩
    exact components?_flatMap parts

/-! ## One way to write a text -/

/-- Where the digits end the letter stands, so the first component is found again. -/
theorem Part.eq_of_chars {a b : Part} {s t : List Char} (h : a.chars ++ s = b.chars ++ t) :
    a = b ∧ s = t := by
  have hdigits : ∀ (part : Part) (s : List Char),
      (part.chars ++ s).takeWhile Char.isDigit = part.digits := by
    intro part s
    rw [chars, List.append_assoc, List.takeWhile_append_of_pos part.areDigits,
      List.singleton_append, List.takeWhile_cons, part.unit.isDigit_letter,
      if_neg Bool.false_ne_true, List.append_nil]
  have hsame : a.digits = b.digits := by rw [← hdigits a s, h, hdigits]
  rw [chars, chars, hsame, List.append_assoc, List.append_assoc, List.append_cancel_left_eq] at h
  obtain ⟨hletter, hrest⟩ := List.cons.inj h
  have hunit : a.unit = b.unit := by
    have hchar := congrArg Designator.ofChar? hletter
    rwa [Designator.ofChar?_letter, Designator.ofChar?_letter, Option.some.injEq] at hchar
  refine ⟨?_, hrest⟩
  obtain ⟨digits, unit, _, _, _⟩ := a
  obtain ⟨digits', unit', _, _, _⟩ := b
  cases hsame
  cases hunit
  rfl

theorem Part.chars_ne_nil (part : Part) : part.chars ≠ [] :=
  List.append_ne_nil_of_right_ne_nil _ (List.cons_ne_nil _ _)

theorem flatMap_chars_injective :
    Function.Injective fun parts : List Part => parts.flatMap Part.chars := by
  intro parts
  induction parts with
  | nil =>
      rintro (_ | ⟨b, others⟩) h
      · rfl
      · exact absurd (List.append_eq_nil_iff.1 h.symm).1 b.chars_ne_nil
  | cons a rest ih =>
      rintro (_ | ⟨b, others⟩) h
      · exact absurd (List.append_eq_nil_iff.1 h).1 a.chars_ne_nil
      · obtain ⟨rfl, hrest⟩ := Part.eq_of_chars h
        rw [ih hrest]

/-- A text is written in at most one way. -/
theorem IsWriting.unique (h : IsWriting text parts) (hothers : IsWriting text others) :
    others = parts :=
  flatMap_chars_injective (List.cons.inj (hothers.text_eq.symm.trans h.text_eq)).2

/-! ## What the period holds -/

theorem get_set (p : Period) (unit other : Designator) (n : UInt32) :
    (p.set unit n).get other = if unit = other then n else p.get other := by
  cases unit <;> cases other <;> rfl

theorem ext_get {p q : Period} (h : ∀ unit, p.get unit = q.get unit) : p = q := by
  obtain ⟨years, months, weeks, days⟩ := p
  have hyears := h .years
  have hmonths := h .months
  have hweeks := h .weeks
  have hdays := h .days
  simp only [get] at hyears hmonths hweeks hdays
  subst hyears hmonths hweeks hdays
  rfl

/-- Of the components of one unit the last one stays, and before the first there is what was
there. -/
theorem get_foldl_set (parts : List Part) (p : Period) (unit : Designator) :
    ((parts.map Part.entry).foldl (fun p part => p.set part.1 part.2) p).get unit =
      ((parts.filter (·.unit = unit)).getLast?.map Part.number).getD (p.get unit) := by
  induction parts generalizing p with
  | nil => rfl
  | cons part rest ih =>
      rw [List.map_cons, List.foldl_cons, ih, Part.entry, get_set, List.filter_cons]
      by_cases hunit : part.unit = unit
      · rw [if_pos hunit, if_pos (decide_eq_true hunit), List.getLast?_cons]
        cases (rest.filter (·.unit = unit)).getLast? <;> rfl
      · rw [if_neg hunit, if_neg (by simpa using hunit)]

theorem get_ofComponents (parts : List Part) (unit : Designator) :
    (ofComponents (parts.map Part.entry)).get unit = lastNumber parts unit := by
  have hzero : get {} unit = 0 := by cases unit <;> rfl
  rw [ofComponents, get_foldl_set, hzero, lastNumber]

/-- A text is read just if it is written as components, whatever their order. -/
theorem parse_eq_ok_iff :
    parse text = .ok p ↔
      ∃ parts, IsWriting text parts ∧ ∀ unit, p.get unit = lastNumber parts unit := by
  constructor
  · intro h
    rw [parse] at h
    split at h
    · cases h
    · next body hnot htext =>
      split at h
      · next entries hentries =>
        cases h
        obtain ⟨parts, rfl, rfl⟩ := components?_eq_some_iff.1 hentries
        refine ⟨parts, ⟨?_, htext⟩, get_ofComponents parts⟩
        rintro rfl
        exact hnot rfl
      · cases h
    · cases h
  · rintro ⟨parts, ⟨hne, htext⟩, hget⟩
    have hbody : parts.flatMap Part.chars ≠ [] := fun hnil => hne (flatMap_chars_injective hnil)
    have hperiod : ofComponents (parts.map Part.entry) = p :=
      ext_get fun unit => (get_ofComponents parts unit).trans (hget unit).symm
    rw [parse, htext]
    split
    · next heq => exact absurd (List.cons.inj heq).2 hbody
    · next heq =>
      cases heq
      rw [components?_flatMap]
      exact congrArg Except.ok hperiod
    · next hno => exact absurd rfl (hno _)

theorem exists_parse_iff : (∃ p, parse text = .ok p) ↔ ∃ parts, IsWriting text parts := by
  constructor
  · rintro ⟨p, h⟩
    obtain ⟨parts, hparts, -⟩ := parse_eq_ok_iff.1 h
    exact ⟨parts, hparts⟩
  · rintro ⟨parts, hparts⟩
    exact ⟨ofComponents (parts.map Part.entry),
      parse_eq_ok_iff.2 ⟨parts, hparts, get_ofComponents parts⟩⟩

/-! ## Components in order -/

theorem lastNumber_of_forall_ne {unit : Designator} (h : ∀ part ∈ parts, part.unit ≠ unit) :
    lastNumber parts unit = 0 := by
  have hnone : parts.filter (·.unit = unit) = [] :=
    List.filter_eq_nil_iff.2 fun part hpart => by simpa using h part hpart
  rw [lastNumber, hnone]
  rfl

/-- The last number of a unit is one that is written for it. -/
theorem exists_lastNumber {part : Part} (h : part ∈ parts) :
    ∃ last ∈ parts, last.unit = part.unit ∧ lastNumber parts part.unit = last.number := by
  have hmem : part ∈ parts.filter (·.unit = part.unit) :=
    List.mem_filter.2 ⟨h, decide_eq_true rfl⟩
  have hne : parts.filter (·.unit = part.unit) ≠ [] := List.ne_nil_of_mem hmem
  obtain ⟨hlast, hunit⟩ := List.mem_filter.1 (List.getLast_mem hne)
  refine ⟨_, hlast, of_decide_eq_true hunit, ?_⟩
  rw [lastNumber, List.getLast?_eq_some_getLast hne]
  rfl

/-- No component is lost just if no unit is written with two numbers. -/
theorem lastNumber_eq_iff :
    (∀ part ∈ parts, lastNumber parts part.unit = part.number) ↔
      ∀ a ∈ parts, ∀ b ∈ parts, a.unit = b.unit → a.number = b.number := by
  constructor
  · intro h a ha b hb hunit
    rw [← h a ha, ← h b hb, hunit]
  · intro h part hpart
    obtain ⟨last, hlast, hunit, hnumber⟩ := exists_lastNumber hpart
    rw [hnumber, h last hlast part hpart hunit]

/-- In order each unit is written once. -/
theorem InOrder.eq_of_unit (h : InOrder parts) {a b : Part} (ha : a ∈ parts) (hb : b ∈ parts)
    (hunit : a.unit = b.unit) : a = b := by
  have hnodup : (parts.map (·.unit.place)).Nodup :=
    List.pairwise_map.2 (h.imp fun hlt => Nat.ne_of_lt hlt)
  exact List.inj_on_of_nodup_map hnodup ha hb (congrArg Designator.place hunit)

/-- In order nothing is lost: the number of each unit is the one that is written. -/
theorem lastNumber_of_inOrder (h : InOrder parts) {part : Part} (hpart : part ∈ parts) :
    lastNumber parts part.unit = part.number :=
  lastNumber_eq_iff.2 (fun _ ha _ hb hunit => congrArg Part.number (h.eq_of_unit ha hb hunit))
    part hpart

/-- The reader keeps to the notation just where no text that is written as components is out
of order. -/
theorem exists_parse_iff_inOrder :
    ((∃ p, parse text = .ok p) ↔ ∃ parts, IsWriting text parts ∧ InOrder parts) ↔
      ∀ parts, IsWriting text parts → InOrder parts := by
  rw [exists_parse_iff]
  constructor
  · intro h parts hparts
    obtain ⟨others, hothers, horder⟩ := h.1 ⟨parts, hparts⟩
    exact hothers.unique hparts ▸ horder
  · intro h
    exact ⟨fun ⟨parts, hparts⟩ => ⟨parts, hparts, h parts hparts⟩,
      fun ⟨parts, hparts, _⟩ => ⟨parts, hparts⟩⟩

/-- A text is read just if it is a `P` and components, which it is in one way at most. So the
reader accepts the notation, and no more than it except where components are out of order.
In order the period holds the numbers that are written and no others. In any order it holds
the last number of each unit, so a component is lost just if its unit is written once more
with another number. -/
theorem period_is_exact_unless_disordered (text : String) :
    ((∃ p, parse text = .ok p) ↔ ∃ parts, IsWriting text parts) ∧
    (((∃ p, parse text = .ok p) ↔ ∃ parts, IsWriting text parts ∧ InOrder parts) ↔
      ∀ parts, IsWriting text parts → InOrder parts) ∧
    ∀ parts, IsWriting text parts →
      (∀ others, IsWriting text others → others = parts) ∧
      ∃ p, parse text = .ok p ∧
        (InOrder parts →
          (∀ part ∈ parts, (p.get part.unit).toNat = Decimal.value part.digits) ∧
          ∀ unit, (∀ part ∈ parts, part.unit ≠ unit) → p.get unit = 0) ∧
        (∀ unit, p.get unit = lastNumber parts unit) ∧
        ((∀ part ∈ parts, p.get part.unit = part.number) ↔
          ∀ a ∈ parts, ∀ b ∈ parts, a.unit = b.unit → a.number = b.number) := by
  refine ⟨exists_parse_iff, exists_parse_iff_inOrder, fun parts hparts =>
    ⟨fun _ => hparts.unique, _, parse_eq_ok_iff.2 ⟨parts, hparts, get_ofComponents parts⟩, ?_⟩⟩
  simp only [get_ofComponents]
  refine ⟨fun horder => ⟨fun part hpart => ?_, fun _ => lastNumber_of_forall_ne⟩,
    fun _ => trivial, lastNumber_eq_iff⟩
  rw [lastNumber_of_inOrder horder hpart, part.toNat_number]

example : parse "P4294967296D" = .error (.invalidComponent "P4294967296D") := rfl
example : parse "P٣D" = .error (.invalidComponent "P٣D") := rfl

/-- One year, six months and as many days as there can be. -/
def longWriting : List Part := [
  ⟨['1'], .years, by decide, List.all_eq_true.1 rfl, by decide +kernel⟩,
  ⟨['0', '6'], .months, by decide, List.all_eq_true.1 rfl, by decide +kernel⟩,
  ⟨"4294967295".toList, .days, by decide, List.all_eq_true.1 rfl, by decide +kernel⟩]

theorem long_writing_is_exact :
    IsWriting "P1Y06M4294967295D" longWriting ∧ InOrder longWriting ∧
      ∃ p, parse "P1Y06M4294967295D" = .ok p ∧
        (∀ part ∈ longWriting, (p.get part.unit).toNat = Decimal.value part.digits) ∧
        p.get .weeks = 0 := by
  have hwriting : IsWriting "P1Y06M4294967295D" longWriting := ⟨by decide, by decide⟩
  have horder : InOrder longWriting := by unfold InOrder; decide
  obtain ⟨-, -, hparts⟩ := period_is_exact_unless_disordered "P1Y06M4294967295D"
  obtain ⟨-, p, hparse, hexact, -⟩ := hparts longWriting hwriting
  obtain ⟨hheld, hnone⟩ := hexact horder
  exact ⟨hwriting, horder, p, hparse, hheld, hnone .weeks (by decide)⟩

/-- One year, and then two. -/
def repeatedYears : List Part := [
  ⟨['1'], .years, by decide, List.all_eq_true.1 rfl, by decide +kernel⟩,
  ⟨['2'], .years, by decide, List.all_eq_true.1 rfl, by decide +kernel⟩]

/-- Two years are read and the one before them is lost, of a text that the notation does not
have. -/
theorem first_of_two_years_is_lost :
    parse "P1Y2Y" = .ok { years := 2 } ∧
      ¬ ∃ parts, IsWriting "P1Y2Y" parts ∧ InOrder parts := by
  have hwriting : IsWriting "P1Y2Y" repeatedYears := ⟨by decide, by decide⟩
  refine ⟨rfl, ?_⟩
  rintro ⟨parts, hparts, horder⟩
  rw [hwriting.unique hparts] at horder
  obtain ⟨hfirst, -⟩ := List.pairwise_cons.1 horder
  exact absurd (hfirst _ (List.mem_singleton_self _)) (Nat.lt_irrefl _)

end Writings

/-! ## The text of a period -/

/-- A number of a unit, written without leading zeros. -/
def Part.ofNumber (unit : Designator) (n : UInt32) : Part where
  digits := Decimal.digits n.toNat
  unit := unit
  ne_nil := Nat.toDigits_ne_nil
  areDigits _ := Json.isDigit_of_mem_toDigits
  fits := by
    rw [Decimal.digits, Json.value_toDigits]
    exact Nat.le_of_lt_succ n.toNat_lt

theorem Part.number_ofNumber (unit : Designator) (n : UInt32) : (ofNumber unit n).number = n := by
  show UInt32.ofNat (Decimal.value (Nat.toDigits 10 n.toNat)) = n
  rw [Json.value_toDigits, UInt32.ofNat_toNat]

/-- The units in the order of the notation. -/
def units : List Designator := [.years, .months, .weeks, .days]

/-- The components that are written of a period. -/
def parts (p : Period) : List Part :=
  if p = {} then [.ofNumber .days 0]
  else (units.filter fun unit => p.get unit ≠ 0).map fun unit => .ofNumber unit (p.get unit)

theorem mem_units (unit : Designator) : unit ∈ units := by
  cases unit <;> decide

theorem mem_parts {p : Period} (hp : p ≠ {}) {part : Part} :
    part ∈ p.parts ↔ ∃ unit, p.get unit ≠ 0 ∧ .ofNumber unit (p.get unit) = part := by
  simp only [parts, if_neg hp, List.mem_map, List.mem_filter, mem_units, true_and,
    decide_eq_true_eq]

theorem inOrder_parts (p : Period) : InOrder p.parts := by
  have hunits : units.Pairwise fun a b => a.place < b.place := by decide
  rw [parts]
  split
  · exact List.pairwise_singleton _ _
  · exact List.pairwise_map.2 (hunits.sublist List.filter_sublist)

theorem flatMap_chars (p : Period) (units : List Designator) :
    ((units.filter fun unit => p.get unit ≠ 0).map fun unit =>
        Part.ofNumber unit (p.get unit)).flatMap Part.chars =
      units.flatMap fun unit => componentText (p.get unit) unit.letter := by
  induction units with
  | nil => rfl
  | cons unit rest ih =>
      rw [List.filter_cons, List.flatMap_cons, ← ih]
      by_cases hzero : p.get unit = 0
      · rw [if_neg (by simpa using hzero), componentText, if_pos hzero, List.nil_append]
      · rw [if_pos (decide_eq_true hzero), List.map_cons, List.flatMap_cons, componentText,
          if_neg hzero]
        rfl

/-- The text of a period is a `P` and its components. -/
theorem isWriting_text (p : Period) : IsWriting p.text p.parts := by
  by_cases hzero : p = {}
  · subst hzero
    exact ⟨by decide, rfl⟩
  · refine ⟨fun hnil => hzero (ext_get fun unit => ?_), ?_⟩
    · have hget : p.get unit = 0 := by
        by_contra hne
        have hmem := (mem_parts hzero).2 ⟨unit, hne, rfl⟩
        rw [hnil] at hmem
        cases hmem
      rw [hget]
      cases unit <;> rfl
    · rw [parts, if_neg hzero, flatMap_chars, text, if_neg hzero, String.toList_ofList]
      simp only [units, List.flatMap_cons, List.flatMap_nil, List.append_nil, List.cons_append,
        List.append_assoc]
      rfl

/-- Nothing is written that is zero, unless there is nothing else to write. -/
theorem number_ne_zero {p : Period} (hp : p ≠ {}) {part : Part} (h : part ∈ p.parts) :
    part.number ≠ 0 := by
  obtain ⟨unit, hunit, rfl⟩ := (mem_parts hp).1 h
  rwa [Part.number_ofNumber]

theorem lastNumber_parts (p : Period) (unit : Designator) :
    lastNumber p.parts unit = p.get unit := by
  by_cases hp : p = {}
  · subst hp
    cases unit <;> rfl
  · by_cases hzero : p.get unit = 0
    · rw [hzero]
      refine lastNumber_of_forall_ne fun part hpart hunit => ?_
      obtain ⟨written, hwritten, rfl⟩ := (mem_parts hp).1 hpart
      obtain rfl : written = unit := hunit
      exact hwritten hzero
    · have hmem := (mem_parts hp).2 ⟨unit, hzero, rfl⟩
      exact (lastNumber_of_inOrder p.inOrder_parts hmem).trans (Part.number_ofNumber _ _)

/-- A period is read as it was written. -/
theorem parse_text (p : Period) : parse p.text = .ok p :=
  parse_eq_ok_iff.2 ⟨p.parts, p.isWriting_text, fun unit => (p.lastNumber_parts unit).symm⟩

end CaseAccess.Period
