import CaseAccess.Proofs.ByteText
import CaseAccess.Sorted.Set

/-!
# Texts in the order of their bytes

Tables keep texts in the order of their characters, and others compare texts by the bytes of
their UTF-8 form. It is the same order: `encode_lt_encode`.

A character is a first byte and behind it the lower bits, six in a byte. The first byte tells
how many there are, and characters of more bytes begin with greater ones, so between two
lengths it decides. At one length the higher bits come before the lower, so the first bytes
that differ are in the order of the characters.
-/

namespace CaseAccess.Utf8

/-- The first byte decides, and where it is the same those behind it. -/
theorem ofNat_cons_lt {m n : Nat} {x y : List UInt8} (hn : n < 256)
    (h : m < n ∨ m = n ∧ x < y) : UInt8.ofNat m :: x < UInt8.ofNat n :: y := by
  rw [List.cons_lt_cons_iff]
  rcases h with hlt | ⟨rfl, hlt⟩
  · refine .inl (UInt8.lt_iff_toNat_lt.2 ?_)
    rw [UInt8.toNat_ofNat', UInt8.toNat_ofNat']
    omega
  · exact .inr ⟨rfl, hlt⟩

/-! ## Characters -/

/-- How many bytes follow the first one of a character. -/
def tailCount (v : Nat) : Nat :=
  if v ≤ 127 then 0 else if v ≤ 2047 then 1 else if v ≤ 65535 then 2 else 3

/-- Where the first bytes begin that tell of so many bytes behind them. -/
def leadMark : Nat → Nat
  | 0 => 0
  | 1 => 192
  | 2 => 224
  | 3 => 240
  | _ => 248

/-- The lowest `k` groups of six bits, each in a byte of its own. -/
def tailBytes (v : Nat) : Nat → List UInt8
  | 0 => []
  | k + 1 => UInt8.ofNat (v / 64 ^ k % 64 + 128) :: tailBytes v k

theorem utf8EncodeChar_eq (c : Char) :
    String.utf8EncodeChar c =
      UInt8.ofNat (c.val.toNat / 64 ^ tailCount c.val.toNat + leadMark (tailCount c.val.toNat)) ::
        tailBytes c.val.toNat (tailCount c.val.toNat) := by
  have hvalid : c.val.toNat < 0xD800 ∨ 0xDFFF < c.val.toNat ∧ c.val.toNat < 0x110000 := c.valid
  rw [String.utf8EncodeChar]
  generalize c.val.toNat = v at hvalid
  rw [tailCount]
  split
  · simp [leadMark, tailBytes]
  split
  · have hlead : v / 64 % 32 = v / 64 := by omega
    simp [leadMark, tailBytes, hlead]
  split
  · have hlead : v / 4096 % 16 = v / 4096 := by omega
    simp [leadMark, tailBytes, hlead]
  · have hlead : v / 262144 % 8 = v / 262144 := by omega
    simp [leadMark, tailBytes, hlead]

/-- The lower bits are in the order of the numbers where the higher ones are the same. -/
theorem tailBytes_lt {v w k : Nat} (hhigh : v / 64 ^ k = w / 64 ^ k) (h : v < w)
    (x y : List UInt8) : tailBytes v k ++ x < tailBytes w k ++ y := by
  induction k with
  | zero =>
      rw [Nat.pow_zero, Nat.div_one, Nat.div_one] at hhigh
      omega
  | succ k ih =>
      have hle : v / 64 ^ k ≤ w / 64 ^ k := Nat.div_le_div_right (Nat.le_of_lt h)
      rw [Nat.pow_succ, ← Nat.div_div_eq_div_mul, ← Nat.div_div_eq_div_mul] at hhigh
      refine ofNat_cons_lt (by omega) ?_
      rcases Nat.lt_or_eq_of_le hle with hlt | heq
      · exact .inl (by omega)
      · exact .inr ⟨by rw [heq], ih heq⟩

theorem leadMark_mono : Monotone leadMark := by
  refine monotone_nat_of_le_succ fun k => ?_
  match k with
  | 0 | 1 | 2 | 3 | _ + 4 => simp [leadMark]

theorem tailCount_mono {v w : Nat} (h : v ≤ w) : tailCount v ≤ tailCount w := by
  rw [tailCount, tailCount]
  split_ifs
  all_goals omega

/-- The first byte of a character tells how many follow. -/
theorem lead_bounds {v : Nat} (h : v < 0x110000) :
    v / 64 ^ tailCount v + leadMark (tailCount v) < leadMark (tailCount v + 1) ∧
      leadMark (tailCount v + 1) ≤ 248 := by
  rw [tailCount]
  split_ifs
  all_goals
    simp only [leadMark]
    omega

/-- Of two characters the lesser has the lesser bytes, whatever stands behind them. -/
theorem utf8EncodeChar_lt {c d : Char} (h : c < d) (x y : List UInt8) :
    String.utf8EncodeChar c ++ x < String.utf8EncodeChar d ++ y := by
  have hlt : c.val.toNat < d.val.toNat := h
  have hvalid : d.val.toNat < 0xD800 ∨ 0xDFFF < d.val.toNat ∧ d.val.toNat < 0x110000 := d.valid
  rw [utf8EncodeChar_eq, utf8EncodeChar_eq]
  generalize c.val.toNat = v at hlt
  generalize d.val.toNat = w at hlt hvalid
  obtain ⟨hvlead, -⟩ := lead_bounds (show v < 0x110000 by omega)
  obtain ⟨hwlead, hfits⟩ := lead_bounds (show w < 0x110000 by omega)
  refine ofNat_cons_lt (by omega) ?_
  rcases Nat.lt_or_eq_of_le (tailCount_mono (Nat.le_of_lt hlt)) with hmore | hsame
  · have hmark : leadMark (tailCount v + 1) ≤ leadMark (tailCount w) := leadMark_mono hmore
    exact .inl (Nat.lt_of_lt_of_le (Nat.lt_of_lt_of_le hvlead hmark) (Nat.le_add_left _ _))
  · rw [hsame]
    have hle : v / 64 ^ tailCount w ≤ w / 64 ^ tailCount w :=
      Nat.div_le_div_right (Nat.le_of_lt hlt)
    rcases Nat.lt_or_eq_of_le hle with hhigher | hhigh
    · exact .inl (by omega)
    · exact .inr ⟨by rw [hhigh], tailBytes_lt hhigh hlt x y⟩

/-! ## Texts -/

theorem flatMap_utf8EncodeChar_lt {s t : List Char} (h : s < t) :
    s.flatMap String.utf8EncodeChar < t.flatMap String.utf8EncodeChar := by
  induction s generalizing t with
  | nil =>
      cases t with
      | nil => cases h
      | cons d rest =>
          rw [List.flatMap_nil, List.flatMap_cons, utf8EncodeChar_eq]
          exact List.nil_lt_cons _ _
  | cons c tail ih =>
      cases t with
      | nil => cases h
      | cons d rest =>
          rw [List.flatMap_cons, List.flatMap_cons]
          rcases List.cons_lt_cons_iff.1 h with hlt | ⟨rfl, hlt⟩
          · exact utf8EncodeChar_lt hlt _ _
          · exact List.append_left_lt (ih hlt)

/-- The lesser text has the lesser bytes. -/
theorem encode_lt_encode {a b : String} (h : Before a b) : encode a < encode b := by
  rw [encode_eq_flatMap, encode_eq_flatMap]
  exact flatMap_utf8EncodeChar_lt (String.lt_iff.1 (compareOfLessAndEq_eq_lt.1 h))

end CaseAccess.Utf8
