/-!
# Percent encoding

A character outside a component's set of plain characters is written as the bytes
of its UTF-8 form, each as `%` and two upper-case hexadecimal digits. Every set
leaves out the control characters and everything beyond ASCII.
-/

namespace CaseAccess.Url

/-- A hexadecimal digit, upper case. -/
def hexDigit (n : Nat) : Char :=
  if n < 10 then Char.ofNat (48 + n) else Char.ofNat (55 + n)

/-- A byte as `%` and two digits. -/
def encodeByte (b : UInt8) : List Char :=
  ['%', hexDigit (b.toNat / 16), hexDigit (b.toNat % 16)]

/-- A control character or one beyond ASCII. -/
def isUnwritable (c : Char) : Bool :=
  c.toNat < 32 || 126 < c.toNat

/-- A character as it is written where the characters of `extra` are not plain. -/
def encodeChar (extra : List Char) (c : Char) : List Char :=
  if isUnwritable c || extra.contains c then (String.utf8EncodeChar c).flatMap encodeByte else [c]

def encode (extra : List Char) (s : List Char) : List Char :=
  s.flatMap (encodeChar extra)

/-- What is not plain in a fragment, a path, the part before the host, a query, and
the query of a special scheme. -/
def fragmentSet : List Char := [' ', '"', '<', '>', '\x60']
def pathSet : List Char := fragmentSet ++ ['#', '?', '\x7b', '\x7d']
def userSet : List Char := pathSet ++ ['/', ':', ';', '=', '@', '[', '\\', ']', '^', '|']
def querySet : List Char := [' ', '"', '#', '<', '>']
def specialQuerySet : List Char := querySet ++ ['\'']

/-- The value of a hexadecimal digit of either case. -/
def hexValue? (c : Char) : Option Nat :=
  if c.isDigit then some (c.toNat - 48)
  else if 'a' ≤ c ∧ c ≤ 'f' then some (c.toNat - 87)
  else if 'A' ≤ c ∧ c ≤ 'F' then some (c.toNat - 55)
  else none

/-- The bytes that a text writes; a `%` without two digits stands for itself. -/
def decodeBytes : List Char → List UInt8
  | [] => []
  | '%' :: a :: b :: rest =>
      match hexValue? a, hexValue? b with
      | some x, some y => UInt8.ofNat (x * 16 + y) :: decodeBytes rest
      | _, _ => 0x25 :: decodeBytes (a :: b :: rest)
  | c :: rest => String.utf8EncodeChar c ++ decodeBytes rest

end CaseAccess.Url
