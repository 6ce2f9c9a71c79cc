/-!
# Labels beyond ASCII

A label of a domain name with characters beyond ASCII is written as `xn--`, its plain
characters, and the places of the others as numbers of a mixed base. The places are
those in the list of all code points at all positions, and each is given by its
distance from the one before; the weights of the digits adapt to the distances.

A label that begins with `xn--` must be the written form of some label that is in
lower case and has a character beyond ASCII.

The standard gives for every character of Unicode what it is read as in a name, and puts
combining marks together with what they stand on. That is followed here for ASCII, for the
Latin, Greek and Cyrillic letters of the ranges below, and for a few characters with a form
in ASCII. It is an approximation for everything else: other characters stand for themselves,
and marks stay apart.
-/

namespace CaseAccess.Url

/-- Lower case in the Latin, Greek and Cyrillic ranges, plain forms for wide ones. -/
def foldChar (c : Char) : Char :=
  let n := c.toNat
  if n < 128 then c.toLower
  else if n = 0x3002 ∨ n = 0xFF0E ∨ n = 0xFF61 then '.'
  else if 0xFF01 ≤ n ∧ n ≤ 0xFF5E then (Char.ofNat (n - 0xFEE0)).toLower
  else if (0xC0 ≤ n ∧ n ≤ 0xDE ∧ n ≠ 0xD7) ∨ (0x391 ≤ n ∧ n ≤ 0x3A9 ∧ n ≠ 0x3A2) ∨
      (0x410 ≤ n ∧ n ≤ 0x42F) then
    Char.ofNat (n + 32)
  else if 0x400 ≤ n ∧ n ≤ 0x40F then Char.ofNat (n + 80)
  else if ((0x100 ≤ n ∧ n ≤ 0x137) ∨ (0x14A ≤ n ∧ n ≤ 0x177)) ∧ n % 2 = 0 then Char.ofNat (n + 1)
  else if ((0x139 ≤ n ∧ n ≤ 0x148) ∨ (0x179 ≤ n ∧ n ≤ 0x17E)) ∧ n % 2 = 1 then Char.ofNat (n + 1)
  else c

/-- Characters with a form of their own: what is left out, letters that stand outside the order
of their range, and ligatures. -/
def ownForms : List (Nat × List Char) := [
  (0xAD, []), (0x200B, []), (0x2060, []), (0xFEFF, []),
  (0xAA, ['a']), (0xBA, ['o']), (0xB2, ['2']), (0xB3, ['3']), (0xB9, ['1']),
  (0xB5, [Char.ofNat 0x3BC]), (0x130, ['i', Char.ofNat 0x307]), (0x132, ['i', 'j']),
  (0x133, ['i', 'j']), (0x13F, ['l', Char.ofNat 0xB7]), (0x140, ['l', Char.ofNat 0xB7]),
  (0x149, [Char.ofNat 0x2BC, 'n']), (0x178, [Char.ofNat 0xFF]), (0x17F, ['s']),
  (0x2126, [Char.ofNat 0x3C9]), (0x212A, ['k']), (0x212B, [Char.ofNat 0xE5]),
  (0xFB00, ['f', 'f']), (0xFB01, ['f', 'i']), (0xFB02, ['f', 'l']), (0xFB03, ['f', 'f', 'i']),
  (0xFB04, ['f', 'f', 'l']), (0xFB05, ['s', 't']), (0xFB06, ['s', 't'])]

/-- What a character of a name is read as. -/
def folded (c : Char) : List Char :=
  (ownForms.lookup c.toNat).getD [foldChar c]

/-- What no name is read with: controls, a space that does not break, private use, and the
places of what is no character. -/
def isRefused (c : Char) : Bool :=
  let n := c.toNat
  (0x80 ≤ n && n ≤ 0xA0) || (0xE000 ≤ n && n ≤ 0xF8FF) || (0xFFF0 ≤ n && n ≤ 0xFFFF) ||
    0xF0000 ≤ n

/-- The digit of a number below 36: letters, then digits. -/
def punyDigit (n : Nat) : Char :=
  if n < 26 then Char.ofNat (97 + n) else Char.ofNat (22 + n)

/-- The digits of a delta. Every round divides what is left, so `fuel` rounds of at
least the delta's size are enough. -/
def punyDigits (bias : Nat) : Nat → Nat → Nat → List Char
  | 0, _, _ => []
  | fuel + 1, k, q =>
      let t := if k ≤ bias then 1 else if bias + 26 ≤ k then 26 else k - bias
      if q < t then [punyDigit q]
      else punyDigit (t + (q - t) % (36 - t)) :: punyDigits bias fuel (k + 36) ((q - t) / (36 - t))

/-- How many times a delta is divided before its digits are few. -/
def punySteps : Nat → Nat → Nat → Nat × Nat
  | 0, delta, k => (delta, k)
  | fuel + 1, delta, k => if 455 < delta then punySteps fuel (delta / 35) (k + 36) else (delta, k)

/-- The bias after a delta. -/
def punyBias (delta count : Nat) (first : Bool) : Nat :=
  let delta := if first then delta / 700 else delta / 2
  let (delta, k) := punySteps 64 (delta + delta / count) 0
  k + 36 * delta / (delta + 38)

/-- What encoding a label carries along: the next code point, the delta, the bias,
the number of characters written and the text so far. -/
structure PunyState where
  next : Nat
  delta : Nat
  bias : Nat
  count : Nat
  output : List Char

/-- Writes the places of one code point of a label. -/
def punyCode (label : List Char) (plain : Nat) (s : PunyState) (code : Nat) : PunyState :=
  let s := { s with delta := s.delta + (code - s.next) * (s.count + 1), next := code }
  let s := label.foldl (fun s c =>
    if c.toNat < code then { s with delta := s.delta + 1 }
    else if c.toNat = code then
      { s with
        output := s.output ++ punyDigits s.bias (s.delta + 1) 36 s.delta
        bias := punyBias s.delta (s.count + 1) (s.count == plain)
        delta := 0
        count := s.count + 1 }
    else s) s
  { s with delta := s.delta + 1, next := s.next + 1 }

/-- The written form of the characters of a label. -/
def punyEncode (label : List Char) : List Char :=
  let plain := label.filter (·.toNat < 128)
  let codes := ((label.filter (128 ≤ ·.toNat)).map (·.toNat)).mergeSort.eraseDups
  let start := if plain.isEmpty then [] else plain ++ ['-']
  (codes.foldl (punyCode label plain.length) ⟨128, 0, 72, plain.length, start⟩).output

/-- The value of a digit. -/
def punyValue? (c : Char) : Option Nat :=
  if 'a' ≤ c ∧ c ≤ 'z' then some (c.toNat - 97)
  else if '0' ≤ c ∧ c ≤ '9' then some (c.toNat - 22)
  else none

/-- A distance at the head of a text, and the text after it. The digit read next has
the place `k` and the given weight. -/
def punyDistance? (bias : Nat) : Nat → Nat → List Char → Option (Nat × List Char)
  | _, _, [] => none
  | k, weight, c :: rest => do
      let digit ← punyValue? c
      let t := if k ≤ bias then 1 else if bias + 26 ≤ k then 26 else k - bias
      if digit < t then return (digit * weight, rest)
      let (distance, tail) ← punyDistance? bias (k + 36) (weight * (36 - t)) rest
      return (digit * weight + distance, tail)

/-- Puts the characters that distances write between those that are there. `place` is
the position after the last of them, and `code` its code point. -/
def punyInsert? : Nat → Nat → Nat → Nat → List Char → List Char → Option (List Char)
  | _, _, _, _, label, [] => some label
  | 0, _, _, _, _, _ => none
  | fuel + 1, code, place, bias, label, s => do
      let (distance, rest) ← punyDistance? bias 36 1 s
      let count := label.length + 1
      let code := code + (place + distance) / count
      let place' := (place + distance) % count
      if ¬ code.isValidChar then none
      punyInsert? fuel code (place' + 1) (punyBias distance count (place = 0))
        (label.take place' ++ Char.ofNat code :: label.drop place') rest

/-- The characters of a label in its written form. -/
def punyDecode? (s : List Char) : Option (List Char) :=
  let digits := (s.reverse.takeWhile (· ≠ '-')).reverse
  let plain := (s.take (s.length - digits.length)).dropLast
  punyInsert? digits.length 128 0 72 plain digits

/-- Whether a label can have that written form: the form is in ASCII, and the label has a
character beyond it and is one in which each character stands for itself. -/
def isWrittenLabel (s : List Char) : Bool :=
  s.all (·.toNat < 128) && match punyDecode? s with
  | none => false
  | some label =>
      label.any (128 ≤ ·.toNat) && label.all fun c => folded c = [c] && !isRefused c

/-- A label in ASCII, if it has such a form. -/
def asciiLabel? (label : List Char) : Option (List Char) :=
  match label with
  | 'x' :: 'n' :: '-' :: '-' :: rest => if isWrittenLabel rest then some label else none
  | _ =>
      if label.all (·.toNat < 128) then some label
      else some ('x' :: 'n' :: '-' :: '-' :: punyEncode label)

end CaseAccess.Url
