import CaseAccess.Text.Decimal
import CaseAccess.Url.Label
import CaseAccess.Url.Percent

/-!
# Hosts

The host of a special scheme is an address of one of the two internet protocols or
a domain name. A name is read in lower case, with its percent escapes resolved and
its labels beyond ASCII in the `xn--` form, as far as `folded` has the characters; a name
whose last label is a number is an address of the older protocol, or nothing. The host of
any other scheme is kept as it stands, with what cannot be written escaped.
-/

namespace CaseAccess.Url

/-- Why a text is no address. -/
inductive UrlError where
  | relative
  | emptyHost
  | invalidPort
  | invalidIpv4
  | invalidIpv6
  | invalidDomain
  | invalidCharacter
  deriving DecidableEq, Repr

def UrlError.message : UrlError → String
  | .relative => "relative URL without a base"
  | .emptyHost => "empty host"
  | .invalidPort => "invalid port number"
  | .invalidIpv4 => "invalid IPv4 address"
  | .invalidIpv6 => "invalid IPv6 address"
  | .invalidDomain => "invalid international domain name"
  | .invalidCharacter => "invalid domain character"

/-- The parts of a text between the places where a separator stands. -/
def splitOn (separator : Char) : List Char → List (List Char)
  | [] => [[]]
  | c :: rest =>
      if c = separator then [] :: splitOn separator rest
      else
        match splitOn separator rest with
        | part :: parts => (c :: part) :: parts
        | [] => [[c]]

/-- Texts with a separator between them. -/
def joinWith (separator : Char) : List (List Char) → List Char
  | [] => []
  | [part] => part
  | part :: rest => part ++ separator :: joinWith separator rest

/-! ## Addresses of four bytes -/

/-- The number that digits of a base write. -/
def numberIn? (base : Nat) (digits : List Char) : Option Nat :=
  digits.foldlM (fun n c => do
    let d ← hexValue? c
    if d < base then some (n * base + d) else none) 0

/-- One part of an address: hexadecimal after `0x`, octal after `0`, else decimal.
A prefix alone is zero. -/
def ipv4Part? (part : List Char) : Option Nat :=
  match part with
  | [] => none
  | '0' :: 'x' :: digits | '0' :: 'X' :: digits => numberIn? 16 digits
  | '0' :: d :: digits => numberIn? 8 (d :: digits)
  | digits => numberIn? 10 digits

/-- The labels of a name, without an empty one at its end. -/
def labels (name : List Char) : List (List Char) :=
  let parts := splitOn '.' name
  if parts.getLast? = some [] then parts.dropLast else parts

/-- Whether the last label of a name is a number. -/
def endsInNumber (name : List Char) : Bool :=
  match (labels name).getLast? with
  | none => false
  | some last => (!last.isEmpty && last.all Char.isDigit) || (ipv4Part? last).isSome

/-- The address that the parts write: the last part fills the bytes that the others
leave. -/
def ipv4? (name : List Char) : Option Nat := do
  let numbers ← (labels name).mapM ipv4Part?
  let last ← numbers.getLast?
  let first := numbers.dropLast
  if 3 < first.length ∨ Nat.pow 256 (4 - first.length) ≤ last ∨ first.any (255 < ·) then none
  else
    some (first.zipIdx.foldl (fun sum (n, i) => sum + n * Nat.pow 256 (3 - i)) last)

/-- Four numbers with points between them. -/
def ipv4Text (address : Nat) : List Char :=
  joinWith '.'
    ([0x1000000, 0x10000, 0x100, 1].map fun unit => Decimal.digits (address / unit % 256))

/-! ## Addresses of eight groups -/

/-- A group of at most four hexadecimal digits. -/
def group? (part : List Char) : Option Nat :=
  if part.isEmpty ∨ 4 < part.length then none else numberIn? 16 part

/-- A number up to 255 without leading zeros. -/
def byte? (part : List Char) : Option Nat :=
  if part.isEmpty ∨ 3 < part.length ∨ !part.all Char.isDigit then none
  else
    let n := Decimal.value part
    if 255 < n ∨ (part.head? = some '0' ∧ 1 < part.length) then none else some n

/-- The groups of a list of parts; `last` allows four bytes in place of the last two
groups. -/
def groups? (last : Bool) : List (List Char) → Option (List Nat)
  | [] => some []
  | [part] =>
      if last ∧ part.contains '.' then do
        let bytes ← (splitOn '.' part).mapM byte?
        match bytes with
        | [a, b, c, d] => some [a * 256 + b, c * 256 + d]
        | _ => none
      else (group? part).map ([·])
  | part :: rest => do
      let g ← group? part
      let gs ← groups? last rest
      return g :: gs

/-- The texts before and after the first `::`. -/
def splitGap : List Char → Option (List Char × List Char)
  | ':' :: ':' :: rest => some ([], rest)
  | c :: rest => (splitGap rest).map fun (before, after) => (c :: before, after)
  | [] => none

/-- The parts between single colons; an empty text has none. -/
def colonParts (s : List Char) : List (List Char) :=
  if s.isEmpty then [] else splitOn ':' s

/-- The eight groups that a text writes. `::` stands for one zero group or more. -/
def ipv6? (s : List Char) : Option (List Nat) := do
  match splitGap s with
  | none =>
      let gs ← groups? true (colonParts s)
      if gs.length = 8 then some gs else none
  | some (before, after) =>
      let left ← groups? false (colonParts before)
      let right ← groups? true (colonParts after)
      if left.length + right.length < 8 then
        some (left ++ List.replicate (8 - left.length - right.length) 0 ++ right)
      else none

/-- The number of zero groups at the head. -/
def zeroRun (groups : List Nat) : Nat :=
  (groups.takeWhile (· = 0)).length

/-- The place and length of the longest run of zero groups, the first of equals. -/
def longestRun (groups : List Nat) : Nat × Nat :=
  (List.range 8).foldl (fun best i =>
    let n := zeroRun (groups.drop i)
    if best.2 < n then (i, n) else best) (0, 0)

def groupText (g : Nat) : List Char := Nat.toDigits 16 g

/-- Groups in lower-case hexadecimal; the longest run of zeros, if it has more than
one, is `::`. -/
def ipv6Text (groups : List Nat) : List Char :=
  let (start, length) := longestRun groups
  if length < 2 then joinWith ':' (groups.map groupText)
  else
    joinWith ':' ((groups.take start).map groupText) ++ [':', ':']
      ++ joinWith ':' ((groups.drop (start + length)).map groupText)

/-! ## Names -/

/-- What no name may hold. -/
def isForbidden (c : Char) : Bool :=
  c.toNat ≤ 32 || c.toNat = 127
    || ['#', '/', ':', '<', '>', '?', '@', '[', '\\', ']', '^', '|', '%'].contains c

/-- The ASCII form of a name, if it has one. -/
def asciiName? (name : List Char) : Option (List Char) := do
  let name := name.flatMap folded
  if name.any isRefused then none
  let labels ← (splitOn '.' name).mapM asciiLabel?
  let ascii := joinWith '.' labels
  if ascii.any isForbidden then none else some ascii

/-- The host between the brackets of an address of eight groups. -/
def bracketed (s : List Char) : Except UrlError (List Char) :=
  match s.getLast? with
  | some ']' =>
      match ipv6? s.dropLast with
      | some groups => .ok ('[' :: ipv6Text groups ++ [']'])
      | none => .error .invalidIpv6
  | _ => .error .invalidIpv6

/-- The host of a special scheme. -/
def specialHost (s : List Char) : Except UrlError (List Char) :=
  match s with
  | '[' :: rest => bracketed rest
  | _ =>
      match String.fromUTF8? ⟨(decodeBytes s).toArray⟩ with
      | none => .error .invalidDomain
      | some name =>
          match asciiName? name.toList with
          | none => .error .invalidDomain
          | some [] => .error .emptyHost
          | some name =>
              if endsInNumber name then
                match ipv4? name with
                | some address => .ok (ipv4Text address)
                | none => .error .invalidIpv4
              else .ok name

/-- The host of any other scheme. -/
def opaqueHost (s : List Char) : Except UrlError (List Char) :=
  match s with
  | '[' :: rest => bracketed rest
  | _ =>
      if s.any fun c => isForbidden c && !isUnwritable c && c != '%' || c.toNat = 0 then
        .error .invalidCharacter
      else .ok (encode [] s)

end CaseAccess.Url
