/-!
# Bytes as text

Bytes become the text whose UTF-8 form they are. Bytes from outside may also be no
part of any character: a lead byte with the tail bytes that it has, where it has too
few of them, or a single byte that leads nothing. What stands for these in the text
depends on what the text is read for.
-/

namespace CaseAccess.Utf8

/-- How a character of several bytes begins: the bits of its first byte, the number of
bytes that follow, and the bounds of the first of these. -/
structure Lead where
  bits : Nat
  tails : Nat
  low : UInt8 := 0x80
  high : UInt8 := 0xBF

/-- What a byte leads. The bounds leave out the forms that are longer than needed,
the surrogates, and what lies beyond the last character. -/
def lead? (a : UInt8) : Option Lead :=
  if a < 0xC2 then none
  else if a < 0xE0 then some { bits := a.toNat - 0xC0, tails := 1 }
  else if a = 0xE0 then some { bits := 0, tails := 2, low := 0xA0 }
  else if a = 0xED then some { bits := 0xD, tails := 2, high := 0x9F }
  else if a < 0xF0 then some { bits := a.toNat - 0xE0, tails := 2 }
  else if a = 0xF0 then some { bits := 0, tails := 3, low := 0x90 }
  else if a < 0xF4 then some { bits := a.toNat - 0xF0, tails := 3 }
  else if a = 0xF4 then some { bits := 4, tails := 3, high := 0x8F }
  else none

/-- The character that the bits so far and the bytes that follow write, and what
comes after it; or no character, and what comes after the bytes that fit. -/
def follow (bits : Nat) (low high : UInt8) : Nat → List UInt8 → Option Char × List UInt8
  | 0, bytes => (some (Char.ofNat bits), bytes)
  | _ + 1, [] => (none, [])
  | n + 1, b :: rest =>
      if low ≤ b ∧ b ≤ high then follow (bits * 64 + (b.toNat - 0x80)) 0x80 0xBF n rest
      else (none, b :: rest)

theorem length_follow_le (bits : Nat) (low high : UInt8) (n : Nat) (bytes : List UInt8) :
    (follow bits low high n bytes).2.length ≤ bytes.length := by
  induction bytes generalizing bits low high n with
  | nil => cases n <;> simp [follow]
  | cons b rest ih =>
      cases n with
      | zero => simp [follow]
      | succ n =>
          rw [follow]
          split
          · exact Nat.le_succ_of_le (ih ..)
          · exact Nat.le_refl _

/-- The characters that bytes write, with `stray` for each stretch that writes none. -/
def decodeWith (stray : List Char) : List UInt8 → List Char
  | [] => []
  | a :: rest =>
      if a < 0x80 then Char.ofNat a.toNat :: decodeWith stray rest
      else
        match lead? a with
        | none => stray ++ decodeWith stray rest
        | some l =>
            have := length_follow_le l.bits l.low l.high l.tails rest
            match _h : follow l.bits l.low l.high l.tails rest with
            | (some c, rest') => c :: decodeWith stray rest'
            | (none, rest') => stray ++ decodeWith stray rest'
termination_by bytes => bytes.length
decreasing_by all_goals simp_all; try omega

/-- The bytes of a text. -/
def encode (s : String) : List UInt8 := s.toUTF8.toList

/-- The text with the replacement character for what is no part of a character. -/
def lossy (bytes : List UInt8) : String :=
  String.ofList (decodeWith ['\ufffd'] bytes)

/-- The text of a JSON document, with half of a surrogate pair, in its escaped form,
for what is no part of a character: a string that holds it has no value, and in any
other place it is an error. -/
def document (bytes : List UInt8) : String :=
  String.ofList (decodeWith "\\ud800".toList bytes)

end CaseAccess.Utf8
