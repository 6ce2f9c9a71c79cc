/-!
# Blanks

The characters with the White_Space property, and trimming of texts by them.
-/

namespace CaseAccess

/-- A character with the White_Space property. -/
def isBlank (c : Char) : Bool :=
  let n := c.toNat
  (9 ≤ n && n ≤ 13) || n = 0x20 || n = 0x85 || n = 0xA0 || n = 0x1680
    || (0x2000 ≤ n && n ≤ 0x200A) || n = 0x2028 || n = 0x2029 || n = 0x202F
    || n = 0x205F || n = 0x3000

/-- Of what can be seen in ASCII nothing is blank. -/
theorem isBlank_of_toNat {c : Char} (h : 33 ≤ c.toNat ∧ c.toNat ≤ 126) : isBlank c = false := by
  simp only [isBlank, Bool.or_eq_false_iff, Bool.and_eq_false_iff, decide_eq_false_iff_not]
  omega

/-- A text without the blanks at its head. -/
def trimLeft (s : List Char) : List Char :=
  s.dropWhile isBlank

/-- A text without the blanks at either end. -/
def trim (s : List Char) : List Char :=
  (trimLeft (trimLeft s).reverse).reverse

/-- `trim` on strings. -/
def trimmed (s : String) : String :=
  String.ofList (trim s.toList)

theorem trimLeft_eq_self {s : List Char} (h : ∀ c ∈ s.head?, isBlank c = false) :
    trimLeft s = s := by
  cases s with
  | nil => rfl
  | cons c rest => rw [trimLeft, List.dropWhile_cons, h c rfl, if_neg Bool.false_ne_true]

theorem head_trimLeft (s : List Char) : ∀ c ∈ (trimLeft s).head?, isBlank c = false := by
  induction s with
  | nil => exact fun _ h => nomatch h
  | cons c rest ih =>
      rw [trimLeft, List.dropWhile_cons]
      split
      · exact ih
      · next hc =>
        rintro _ ⟨⟩
        exact Bool.eq_false_iff.2 hc

/-- What is trimmed starts with no blank, nor does its reverse, so it stays as it is. -/
theorem trim_trim (s : List Char) : trim (trim s) = trim s := by
  have hprefix : trim s <+: trimLeft s := by
    rw [← List.reverse_suffix, trim, List.reverse_reverse]
    exact List.dropWhile_suffix _
  have hhead : ∀ c ∈ (trim s).head?, isBlank c = false := by
    intro c hc
    obtain ⟨rest, hrest⟩ := hprefix
    refine head_trimLeft s c ?_
    rw [← hrest, List.head?_append, hc]
    rfl
  have hlast : ∀ c ∈ (trim s).reverse.head?, isBlank c = false := by
    rw [trim, List.reverse_reverse]
    exact head_trimLeft _
  rw [trim, trimLeft_eq_self hhead, trimLeft_eq_self hlast, List.reverse_reverse]

theorem trimmed_trimmed (s : String) : trimmed (trimmed s) = trimmed s := by
  rw [trimmed, trimmed, String.toList_ofList, trim_trim]

end CaseAccess
