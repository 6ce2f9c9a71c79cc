import CaseAccess.Json.Parser
import CaseAccess.Json.Printer
import Mathlib.Tactic.IntervalCases

/-!
# JSON text is read as it was written

A document that is written in its compact form is read as the same document. This holds
of a document that has a text of its own: every token has a value, and every number is an
integer of those that are read as integers. Names may stand twice, and strings may hold
any characters.

Reading goes from left to right, so what is shown of a value is that it is read off the
head of a text, whatever follows it. What follows matters in one place only. A number
ends where its text does, so no digit, point or exponent may come next; in compact text a
value is followed by a comma or a closing bracket, or by nothing. The fuel is no bound on
anything: whatever is written with a character takes at most one unit of it for each.
-/

namespace CaseAccess.Json

/-! ## Strings -/

theorem hexValue?_hexDigit {n : Nat} (h : n < 16) : hexValue? (hexDigit n) = some n := by
  revert n
  decide

theorem hexUnit?_hexDigits {n : Nat} (h : n < 32) :
    hexUnit? '0' '0' (hexDigit (n / 16)) (hexDigit (n % 16)) = some n := by
  have hzero : hexValue? '0' = some 0 := rfl
  have hn : ((0 * 16 + 0) * 16 + n / 16) * 16 + n % 16 = n := by omega
  simp only [hexUnit?, hzero, hexValue?_hexDigit (show n / 16 < 16 by omega),
    hexValue?_hexDigit (show n % 16 < 16 by omega), Option.bind_eq_bind, Option.bind_some, hn,
    Option.pure_def]

section Pieces

variable {c letter : Char} {tail : List Char}

theorem parsePieces_char (hquote : c ≠ '"') (hslash : c ≠ '\\') (hcontrol : ¬ c.toNat < 32) :
    parsePieces (c :: tail) = (parsePieces tail).map fun r => (.char c :: r.1, r.2) := by
  rw [parsePieces.eq_def]
  split
  · next heq => cases heq
  · next heq => exact absurd (List.cons.inj heq).1 hquote
  · next heq => exact absurd (List.cons.inj heq).1 hslash
  · next heq => exact absurd (List.cons.inj heq).1 hslash
  · next heq =>
      cases heq
      rw [if_neg hcontrol]
      cases parsePieces tail with
      | none => rfl
      | some r => rfl

theorem parsePieces_letter (hu : letter ≠ 'u') (h : unescapeChar? letter = some c) :
    parsePieces ('\\' :: letter :: tail) =
      (parsePieces tail).map fun r => (.char c :: r.1, r.2) := by
  rw [parsePieces.eq_def]
  split
  · next heq => cases heq
  · next heq => cases heq
  · next heq => exact absurd (List.cons.inj (List.cons.inj heq).2).1 hu
  · next heq =>
      cases heq
      rw [h]
      cases parsePieces tail with
      | none => rfl
      | some r => rfl
  · next hother heq =>
      cases heq
      exact absurd rfl (hother _ _ rfl)

theorem parsePieces_unit {n : Nat} (h : n < 32) :
    parsePieces ('\\' :: 'u' :: '0' :: '0' :: hexDigit (n / 16) :: hexDigit (n % 16) :: tail) =
      (parsePieces tail).map fun r => (.unit n :: r.1, r.2) := by
  rw [parsePieces, hexUnit?_hexDigits h]
  cases parsePieces tail with
  | none => rfl
  | some r => rfl

end Pieces

theorem assemble_unit {n : Nat} (h : n < 32) (pieces : List Piece) :
    assemble (.unit n :: pieces) = (assemble pieces).map (Char.ofNat n :: ·) := by
  have hhigh : isHighHalf n = false := by
    simp only [isHighHalf, Bool.and_eq_false_iff, decide_eq_false_iff_not]
    omega
  have hlow : isLowHalf n = false := by
    simp only [isLowHalf, Bool.and_eq_false_iff, decide_eq_false_iff_not]
    omega
  rw [assemble.eq_def]
  simp only [hhigh, hlow, Bool.false_eq_true, if_false]

/-- A character is read as one piece, which writes it. -/
theorem parsePieces_escapeChar (c : Char) (tail : List Char) :
    ∃ piece, (∀ pieces, assemble (piece :: pieces) = (assemble pieces).map (c :: ·)) ∧
      parsePieces (escapeChar c ++ tail) =
        (parsePieces tail).map fun r => (piece :: r.1, r.2) := by
  have hletter : ∀ {letter : Char}, letter ≠ 'u' → unescapeChar? letter = some c →
      ∃ piece, (∀ pieces, assemble (piece :: pieces) = (assemble pieces).map (c :: ·)) ∧
        parsePieces ('\\' :: letter :: tail) =
          (parsePieces tail).map fun r => (piece :: r.1, r.2) :=
    fun hu h => ⟨.char c, fun _ => rfl, parsePieces_letter hu h⟩
  rw [escapeChar]
  split
  · next hc => exact hletter (by decide) (by rw [hc]; rfl)
  split
  · next hc => exact hletter (by decide) (by rw [hc]; rfl)
  split
  · next hc => exact hletter (by decide) (by rw [hc]; rfl)
  split
  · next hc => exact hletter (by decide) (by rw [hc]; rfl)
  split
  · next hc => exact hletter (by decide) (by rw [hc]; rfl)
  split
  · next hc => exact hletter (by decide) (by rw [hc]; rfl)
  split
  · next hc => exact hletter (by decide) (by rw [hc]; rfl)
  split
  · next hcontrol =>
      refine ⟨.unit c.toNat, fun pieces => ?_, parsePieces_unit hcontrol⟩
      rw [assemble_unit hcontrol, Char.ofNat_toNat]
  · next hquote hslash _ _ _ _ _ hcontrol =>
      exact ⟨.char c, fun _ => rfl, parsePieces_char hquote hslash hcontrol⟩

theorem parsePieces_escaped (cs rest : List Char) :
    ∃ pieces, assemble pieces = some cs ∧
      parsePieces (cs.flatMap escapeChar ++ '"' :: rest) = some (pieces, rest) := by
  induction cs with
  | nil => exact ⟨[], rfl, rfl⟩
  | cons c cs ih =>
      obtain ⟨pieces, hpieces, hparse⟩ := ih
      obtain ⟨piece, hpiece, hescape⟩ :=
        parsePieces_escapeChar c (cs.flatMap escapeChar ++ '"' :: rest)
      refine ⟨piece :: pieces, ?_, ?_⟩
      · rw [hpiece, hpieces]
        rfl
      · rw [List.flatMap_cons, List.append_assoc, hescape, hparse]
        rfl

/-! ## Numbers -/

theorem value_toDigits (n : Nat) : Decimal.value (Nat.toDigits 10 n) = n := by
  have hvalue : ∀ digits : List Char, Decimal.value digits = Nat.ofDigitChars 10 digits 0 := by
    intro digits
    rw [Decimal.value, Nat.ofDigitChars]
    congr 1
    funext m c
    rw [Nat.mul_comm]
    rfl
  rw [hvalue, Nat.ofDigitChars_toDigits (by decide) (by decide)]

theorem isDigit_of_mem_toDigits {n : Nat} {c : Char} (h : c ∈ Nat.toDigits 10 n) :
    c.isDigit = true :=
  Nat.isDigit_of_mem_toDigits (by decide) (by decide) h

/-- The digits of a number start with zero only if it is zero. -/
theorem head?_toDigits {n : Nat} (h : 0 < n) : (Nat.toDigits 10 n).head? ≠ some '0' := by
  induction n using Nat.strong_induction_on with
  | _ n ih =>
      rw [Nat.toDigits_eq_if (by decide)]
      split
      · next hlt => interval_cases n <;> decide
      · next hge =>
          rw [List.head?_append, Option.or_of_isSome (List.isSome_head?.2 Nat.toDigits_ne_nil)]
          exact ih (n / 10) (by omega) (by omega)

theorem not_leadingZero (n : Nat) :
    ¬ ((Nat.toDigits 10 n).head? = some '0' ∧ 1 < (Nat.toDigits 10 n).length) := by
  rintro ⟨hhead, hlength⟩
  rcases Nat.eq_zero_or_pos n with rfl | hpos
  · exact absurd hlength (by decide)
  · exact head?_toDigits hpos hhead

/-- What may come after a value in compact text. -/
def Follows (rest : List Char) : Prop :=
  ∀ c ∈ rest.head?, c = ',' ∨ c = ']' ∨ c = '}'

section Numbers

variable {rest : List Char}

theorem run?_toDigits (h : Follows rest) (n : Nat) :
    Decimal.run? (Nat.toDigits 10 n ++ rest) = some (Nat.toDigits 10 n, rest) := by
  have hdigits : ∀ c ∈ Nat.toDigits 10 n, c.isDigit = true := fun _ => isDigit_of_mem_toDigits
  have hrest : ∀ c ∈ rest.head?, c.isDigit = false := by
    intro c hc
    rcases h c hc with rfl | rfl | rfl <;> rfl
  have htake : rest.takeWhile Char.isDigit = [] := by
    cases rest with
    | nil => rfl
    | cons c tail => rw [List.takeWhile_cons, hrest c rfl, if_neg Bool.false_ne_true]
  have hdrop : rest.dropWhile Char.isDigit = rest := by
    cases rest with
    | nil => rfl
    | cons c tail => rw [List.dropWhile_cons, hrest c rfl, if_neg Bool.false_ne_true]
  rw [Decimal.run?, List.takeWhile_append_of_pos hdigits, List.dropWhile_append_of_pos hdigits,
    htake, hdrop, List.append_nil]
  split
  · next hnil => exact absurd hnil Nat.toDigits_ne_nil
  · rfl

theorem fraction?_of_follows (h : Follows rest) : fraction? rest = some ([], rest) := by
  rw [fraction?.eq_def]
  split
  · rcases h _ rfl with hc | hc | hc <;> cases hc
  · rfl

theorem exponent?_of_follows (h : Follows rest) : exponent? rest = some (none, rest) := by
  rw [exponent?.eq_def]
  split <;> first | rfl | (rcases h _ rfl with hc | hc | hc <;> cases hc)

/-- The digits of a number with its sign before them are read as that number. -/
theorem parseNumber_negative (h : Follows rest) (n : Nat) :
    parseNumber ('-' :: (Nat.toDigits 10 n ++ rest)) =
      some (ofNumber true (Nat.toDigits 10 n) [] none, rest) := by
  simp only [parseNumber, run?_toDigits h, Option.bind_eq_bind, Option.bind_some,
    if_neg (not_leadingZero n), fraction?_of_follows h, exponent?_of_follows h, Option.pure_def]

theorem parseNumber_natural (h : Follows rest) (n : Nat) :
    parseNumber (Nat.toDigits 10 n ++ rest) =
      some (ofNumber false (Nat.toDigits 10 n) [] none, rest) := by
  rw [parseNumber.eq_def]
  split
  rename_i hsign
  split at hsign
  · next tail heq =>
      obtain ⟨c, digits, hdigits⟩ := List.exists_cons_of_ne_nil
        (Nat.toDigits_ne_nil (n := n) (b := 10))
      have hc : c.isDigit = true := isDigit_of_mem_toDigits (hdigits ▸ List.mem_cons_self)
      rw [hdigits] at heq
      rw [(List.cons.inj heq).1] at hc
      cases hc
  · cases hsign
    simp only [run?_toDigits h, Option.bind_eq_bind, Option.bind_some,
      if_neg (not_leadingZero n), fraction?_of_follows h, exponent?_of_follows h, Option.pure_def]

theorem parseNumber_toString {n : Int} (hlow : -0x8000000000000000 ≤ n)
    (hhigh : n < 0x10000000000000000) (h : Follows rest) :
    parseNumber ((toString n).toList ++ rest) = some (.integer n, rest) := by
  cases n with
  | ofNat m =>
      have hm : m < UInt64.size := by
        have hsize : UInt64.size = 0x10000000000000000 := rfl
        have hcast : Int.ofNat m = (m : Int) := rfl
        omega
      have htext : (toString (Int.ofNat m)).toList = Nat.toDigits 10 m := Nat.toList_repr
      have hnumber : ofNumber false (Nat.toDigits 10 m) [] none = .integer (Int.ofNat m) := by
        simp only [ofNumber, value_toDigits, Bool.false_eq_true, false_and, if_false,
          Bool.not_false, hm, and_self, if_true]
        rfl
      rw [htext, parseNumber_natural h, hnumber]
  | negSucc m =>
      have hm : m.succ ≤ 0x8000000000000000 := by omega
      have htext : (toString (Int.negSucc m)).toList = '-' :: Nat.toDigits 10 m.succ := by
        show ("-" ++ m.succ.repr).toList = _
        rw [String.toList_append, Nat.toList_repr]
        rfl
      have hnumber : ofNumber true (Nat.toDigits 10 m.succ) [] none =
          .integer (Int.negSucc m) := by
        simp only [ofNumber, value_toDigits, Nat.succ_pos, hm, and_self, if_true]
        rfl
      rw [htext, List.cons_append, parseNumber_negative h, hnumber]

end Numbers

/-! ## Values -/

mutual

/-- A value with a text of its own: every token has a value, and every number is an
integer that is read as one. -/
def IsPlain : Json → Prop
  | .integer n => -0x8000000000000000 ≤ n ∧ n < 0x10000000000000000
  | .array items => ArePlain items
  | .object members => HavePlain members
  | .decimal _ | .unreadable => False
  | .null | .bool _ | .string _ => True

def ArePlain : List Json → Prop
  | [] => True
  | v :: rest => v.IsPlain ∧ ArePlain rest

def HavePlain : List (String × Json) → Prop
  | [] => True
  | (_, v) :: rest => v.IsPlain ∧ HavePlain rest

end

/-- The characters of the items of an array, and of the members of an object. -/
def itemsText (items : List Json) : List Char := (",".intercalate (compactItems items)).toList

def membersText (members : Members) : List Char :=
  (",".intercalate (compactMembers members)).toList

section Texts

variable (v w : Json) (items : List Json) (name : String) (m : String × Json) (members : Members)

theorem toList_quote : (quote name).toList = '"' :: name.toList.flatMap escapeChar ++ ['"'] :=
  String.toList_ofList

theorem toList_compact_array :
    (Json.array items).compact.toList = '[' :: itemsText items ++ [']'] := by
  rw [compact, String.toList_append, String.toList_append]
  rfl

theorem toList_compact_object :
    (Json.object members).compact.toList = '\x7b' :: membersText members ++ ['\x7d'] := by
  rw [compact, String.toList_append, String.toList_append]
  rfl

theorem itemsText_singleton : itemsText [v] = v.compact.toList := by
  simp [itemsText, compactItems]

theorem itemsText_cons :
    itemsText (v :: w :: items) = v.compact.toList ++ ',' :: itemsText (w :: items) := by
  simp [itemsText, compactItems, String.toList_intercalate]

theorem membersText_singleton :
    membersText [(name, v)] = (quote name).toList ++ ':' :: v.compact.toList := by
  simp [membersText, compactMembers]

theorem membersText_cons :
    membersText ((name, v) :: m :: members) =
      (quote name).toList ++ ':' :: (v.compact.toList ++ ',' :: membersText (m :: members)) := by
  simp [membersText, compactMembers, String.toList_intercalate]

end Texts

theorem follows_nil : Follows [] := fun _ h => by cases h

theorem follows_cons {c : Char} (h : c = ',' ∨ c = ']' ∨ c = '\x7d') (rest : List Char) :
    Follows (c :: rest) := by
  rintro _ ⟨⟩
  exact h

/-- A number starts with a digit or its sign, and nothing else does. -/
theorem parseValue_of_number {c : Char} (h : c.isDigit = true ∨ c = '-') (fuel : Nat)
    (tail : List Char) : parseValue (fuel + 1) (c :: tail) = parseNumber (c :: tail) := by
  have hspace : skipSpaces (c :: tail) = c :: tail := by
    have hc : isSpace c = false := by
      simp only [isSpace, Bool.or_eq_false_iff, decide_eq_false_iff_not]
      refine ⟨⟨⟨?_, ?_⟩, ?_⟩, ?_⟩ <;> (rintro rfl; simp at h)
    rw [skipSpaces, List.dropWhile_cons, hc, if_neg Bool.false_ne_true]
  rw [parseValue, hspace]
  split <;> first | rfl | (rename_i heq; cases heq; simp at h)

theorem parseValue_integer {n : Int} {fuel : Nat} {rest : List Char}
    (hlow : -0x8000000000000000 ≤ n) (hhigh : n < 0x10000000000000000) (h : Follows rest) :
    parseValue (fuel + 1) ((toString n).toList ++ rest) = some (.integer n, rest) := by
  obtain ⟨c, tail, htext, hc⟩ : ∃ c tail, (toString n).toList = c :: tail ∧
      (c.isDigit = true ∨ c = '-') := by
    cases n with
    | ofNat m =>
        obtain ⟨c, digits, hdigits⟩ := List.exists_cons_of_ne_nil
          (Nat.toDigits_ne_nil (n := m) (b := 10))
        refine ⟨c, digits, Nat.toList_repr.trans hdigits, .inl ?_⟩
        exact isDigit_of_mem_toDigits (hdigits ▸ List.mem_cons_self)
    | negSucc m =>
        refine ⟨'-', m.succ.repr.toList, ?_, .inr rfl⟩
        show ("-" ++ m.succ.repr).toList = _
        rw [String.toList_append]
        rfl
  have hnumber := parseNumber_toString hlow hhigh h
  rw [htext] at hnumber ⊢
  exact (parseValue_of_number hc fuel _).trans hnumber

theorem parseValue_string (cs rest : List Char) (fuel : Nat) :
    parseValue (fuel + 1) ('"' :: (cs.flatMap escapeChar ++ '"' :: rest)) =
      some (.string (String.ofList cs), rest) := by
  obtain ⟨pieces, hpieces, hparse⟩ := parsePieces_escaped cs rest
  have hvalue : parseValue (fuel + 1) ('"' :: (cs.flatMap escapeChar ++ '"' :: rest)) =
      (parsePieces (cs.flatMap escapeChar ++ '"' :: rest)).map
        fun r => (ofPieces r.1, r.2) := rfl
  rw [hvalue, hparse, Option.map_some, ofPieces, hpieces]

/-- Items can be read, so the array is not the empty one. -/
theorem parseValue_array {fuel : Nat} {s rest : List Char} {items : List Json}
    (h : parseItems fuel s = some (items, rest)) :
    parseValue (fuel + 1) ('[' :: s) = some (.array items, rest) := by
  have hspace : skipSpaces ('[' :: s) = '[' :: s := rfl
  rw [parseValue, hspace]
  simp only
  split
  · next tail hs =>
      cases fuel with
      | zero => cases h
      | succ fuel =>
          obtain ⟨⟨v, rest'⟩, hvalue, -⟩ := Option.bind_eq_some_iff.1 (parseItems.eq_def _ s ▸ h)
          cases fuel with
          | zero => cases hvalue
          | succ fuel =>
              rw [parseValue, hs] at hvalue
              cases hvalue
  · rw [h]
    rfl

theorem parseValue_object {fuel : Nat} {s rest : List Char}
    {members : List (Option (List Char) × Json)}
    (h : parseMembers fuel s = some (members, rest)) :
    parseValue (fuel + 1) ('\x7b' :: s) = some (ofMembers members, rest) := by
  have hspace : skipSpaces ('\x7b' :: s) = '\x7b' :: s := rfl
  rw [parseValue, hspace]
  simp only
  split
  · next tail hs =>
      cases fuel with
      | zero => cases h
      | succ fuel =>
          rw [parseMembers, hs] at h
          cases h
  · rw [h]
    rfl

/-- The members as they are read: the name of each has a value. -/
def namedMembers (members : Members) : List (Option (List Char) × Json) :=
  members.map fun m => (some m.1.toList, m.2)

theorem ofMembers_namedMembers (members : Members) :
    ofMembers (namedMembers members) = .object members := by
  have hnames : ((namedMembers members).mapM fun m => m.1.map fun cs => (String.ofList cs, m.2)) =
      some members := by
    induction members with
    | nil => rfl
    | cons m members ih =>
        rw [namedMembers, List.map_cons, List.mapM_cons, ← namedMembers, ih]
        simp
  rw [ofMembers]
  split
  · next read hread =>
      rw [hnames] at hread
      cases hread
      rfl
  · next hread =>
      rw [hnames] at hread
      cases hread

section Members

variable {fuel : Nat} {name : String} {v : Json} {s tail : List Char}

theorem toList_member (name : String) (s : List Char) :
    (quote name).toList ++ ':' :: s =
      '"' :: (name.toList.flatMap escapeChar ++ '"' :: ':' :: s) := by
  rw [toList_quote]
  simp

/-- The last member: its name, a colon and its value. -/
theorem parseMembers_last (h : parseValue fuel s = some (v, '\x7d' :: tail)) :
    parseMembers (fuel + 1) ((quote name).toList ++ ':' :: s) =
      some (namedMembers [(name, v)], tail) := by
  obtain ⟨pieces, hpieces, hparse⟩ := parsePieces_escaped name.toList (':' :: s)
  have hquote : ∀ s, skipSpaces ('"' :: s) = '"' :: s := fun _ => rfl
  have hcolon : skipSpaces (':' :: s) = ':' :: s := rfl
  have hclose : skipSpaces ('\x7d' :: tail) = '\x7d' :: tail := rfl
  rw [toList_member, parseMembers, hquote]
  simp only [hparse, hcolon, h, hclose, hpieces, Option.bind_eq_bind, Option.bind_some,
    Option.pure_def]
  rfl

theorem parseMembers_more {members : Members} {rest : List Char}
    (h : parseValue fuel s = some (v, ',' :: tail))
    (hmore : parseMembers fuel tail = some (namedMembers members, rest)) :
    parseMembers (fuel + 1) ((quote name).toList ++ ':' :: s) =
      some (namedMembers ((name, v) :: members), rest) := by
  obtain ⟨pieces, hpieces, hparse⟩ := parsePieces_escaped name.toList (':' :: s)
  have hquote : ∀ s, skipSpaces ('"' :: s) = '"' :: s := fun _ => rfl
  have hcolon : skipSpaces (':' :: s) = ':' :: s := rfl
  have hcomma : skipSpaces (',' :: tail) = ',' :: tail := rfl
  rw [toList_member, parseMembers, hquote]
  simp only [hparse, hcolon, h, hcomma, hmore, hpieces, Option.bind_eq_bind, Option.bind_some,
    Option.pure_def]
  rfl

end Members

/-- The value is read off the head of a text, if enough fuel is there. -/
def IsRead (v : Json) : Prop :=
  ∀ fuel rest, v.compact.toList.length < fuel → Follows rest →
    parseValue fuel (v.compact.toList ++ rest) = some (v, rest)

theorem parseItems_compact {v : Json} {items : List Json} (hv : v.IsRead)
    (hitems : ∀ w ∈ items, w.IsRead) (fuel : Nat) (rest : List Char)
    (hfuel : (itemsText (v :: items)).length + 1 < fuel) :
    parseItems fuel (itemsText (v :: items) ++ ']' :: rest) = some (v :: items, rest) := by
  induction items generalizing v fuel with
  | nil =>
      obtain ⟨fuel, rfl⟩ : ∃ f, fuel = f + 1 := ⟨fuel - 1, by omega⟩
      rw [itemsText_singleton] at hfuel ⊢
      rw [parseItems, hv fuel (']' :: rest) (by omega) (follows_cons (.inr (.inl rfl)) rest)]
      rfl
  | cons w items ih =>
      obtain ⟨fuel, rfl⟩ : ∃ f, fuel = f + 1 := ⟨fuel - 1, by omega⟩
      rw [itemsText_cons] at hfuel ⊢
      simp only [List.length_append, List.length_cons] at hfuel
      have hothers := ih (hitems w List.mem_cons_self)
        (fun u hu => hitems u (List.mem_cons_of_mem w hu)) fuel (by omega)
      have hcomma : ∀ s, skipSpaces (',' :: s) = ',' :: s := fun _ => rfl
      rw [List.append_assoc, List.cons_append, parseItems,
        hv fuel _ (by omega) (follows_cons (.inl rfl) _), Option.bind_eq_bind, Option.bind_some]
      simp only [hcomma, hothers, Option.bind_eq_bind, Option.bind_some, Option.pure_def]

theorem parseMembers_compact {name : String} {v : Json} {members : Members} (hv : v.IsRead)
    (hmembers : ∀ m ∈ members, m.2.IsRead) (fuel : Nat) (rest : List Char)
    (hfuel : (membersText ((name, v) :: members)).length + 1 < fuel) :
    parseMembers fuel (membersText ((name, v) :: members) ++ '\x7d' :: rest) =
      some (namedMembers ((name, v) :: members), rest) := by
  induction members generalizing name v fuel with
  | nil =>
      obtain ⟨fuel, rfl⟩ : ∃ f, fuel = f + 1 := ⟨fuel - 1, by omega⟩
      rw [membersText_singleton] at hfuel ⊢
      simp only [List.length_append, List.length_cons] at hfuel
      rw [List.append_assoc, List.cons_append]
      exact parseMembers_last (hv fuel _ (by omega) (follows_cons (.inr (.inr rfl)) rest))
  | cons m members ih =>
      obtain ⟨other, w⟩ := m
      obtain ⟨fuel, rfl⟩ : ∃ f, fuel = f + 1 := ⟨fuel - 1, by omega⟩
      rw [membersText_cons] at hfuel ⊢
      simp only [List.length_append, List.length_cons] at hfuel
      have hlength : (membersText ((other, w) :: members)).length + 1 < fuel := by omega
      have hothers := ih (hmembers (other, w) List.mem_cons_self)
        (fun u hu => hmembers u (List.mem_cons_of_mem _ hu)) fuel hlength
      rw [List.append_assoc, List.cons_append, List.append_assoc, List.cons_append]
      exact parseMembers_more (hv fuel _ (by omega) (follows_cons (.inl rfl) _)) hothers

theorem isRead_array {items : List Json} (h : ∀ v ∈ items, v.IsRead) :
    (Json.array items).IsRead := by
  intro fuel rest hfuel _
  obtain ⟨fuel, rfl⟩ : ∃ f, fuel = f + 1 := ⟨fuel - 1, by omega⟩
  cases items with
  | nil => rfl
  | cons v items =>
      rw [toList_compact_array] at hfuel ⊢
      simp only [List.cons_append, List.length_append, List.length_cons, List.length_nil] at hfuel
      rw [List.append_assoc, List.cons_append]
      exact parseValue_array (parseItems_compact (h v List.mem_cons_self)
        (fun w hw => h w (List.mem_cons_of_mem v hw)) fuel rest (by omega))

theorem isRead_object {members : Members} (h : ∀ m ∈ members, m.2.IsRead) :
    (Json.object members).IsRead := by
  intro fuel rest hfuel _
  obtain ⟨fuel, rfl⟩ : ∃ f, fuel = f + 1 := ⟨fuel - 1, by omega⟩
  cases members with
  | nil => rfl
  | cons m members =>
      obtain ⟨name, v⟩ := m
      have hv : v.IsRead := h (name, v) List.mem_cons_self
      rw [toList_compact_object] at hfuel ⊢
      simp only [List.cons_append, List.length_append, List.length_cons, List.length_nil] at hfuel
      rw [List.append_assoc, List.cons_append, ← ofMembers_namedMembers]
      exact parseValue_object (parseMembers_compact hv
        (fun w hw => h w (List.mem_cons_of_mem _ hw)) fuel rest (by omega))

theorem isRead_integer {n : Int} (hlow : -0x8000000000000000 ≤ n)
    (hhigh : n < 0x10000000000000000) : (Json.integer n).IsRead := by
  intro fuel rest hfuel hrest
  obtain ⟨fuel, rfl⟩ : ∃ f, fuel = f + 1 := ⟨fuel - 1, by omega⟩
  exact parseValue_integer hlow hhigh hrest

theorem isRead_string (s : String) : (Json.string s).IsRead := by
  intro fuel rest hfuel _
  obtain ⟨fuel, rfl⟩ : ∃ f, fuel = f + 1 := ⟨fuel - 1, by omega⟩
  rw [compact, toList_quote, List.append_assoc, List.cons_append]
  exact (parseValue_string s.toList rest fuel).trans (by rw [String.ofList_toList])

mutual

/-- A plain value is read off the head of a text. -/
theorem isRead : (v : Json) → v.IsPlain → v.IsRead
  | .null, _ => fun fuel rest hfuel _ => by
      obtain ⟨fuel, rfl⟩ : ∃ f, fuel = f + 1 := ⟨fuel - 1, by omega⟩
      rfl
  | .bool b, _ => fun fuel rest hfuel _ => by
      obtain ⟨fuel, rfl⟩ : ∃ f, fuel = f + 1 := ⟨fuel - 1, by omega⟩
      cases b <;> rfl
  | .integer _, h => isRead_integer h.1 h.2
  | .decimal _, h => h.elim
  | .unreadable, h => h.elim
  | .string s, _ => isRead_string s
  | .array items, h => isRead_array (areRead items h)
  | .object members, h => isRead_object (haveRead members h)

theorem areRead : (items : List Json) → ArePlain items → ∀ v ∈ items, v.IsRead
  | [], _ => fun _ h => by cases h
  | v :: items, h => List.forall_mem_cons.2 ⟨isRead v h.1, areRead items h.2⟩

theorem haveRead : (members : List (String × Json)) → HavePlain members →
    ∀ m ∈ members, m.2.IsRead
  | [], _ => fun _ h => by cases h
  | (_, v) :: members, h => List.forall_mem_cons.2 ⟨isRead v h.1, haveRead members h.2⟩

end

/-- What is written is read again. -/
theorem parse?_compact {v : Json} (hv : v.IsPlain) : parse? v.compact = some v := by
  have hvalue := isRead v hv (2 * v.compact.toList.length + 1) [] (by omega) follows_nil
  rw [List.append_nil] at hvalue
  simp only [parse?, hvalue]
  rfl

end CaseAccess.Json
