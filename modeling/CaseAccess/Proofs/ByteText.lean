import CaseAccess.Text.Utf8
import CaseAccess.Token.Base64Url
import CaseAccess.Url.Host
import Mathlib.Tactic.IntervalCases

/-!
# Bytes and texts, written and read again

A segment of a token is a text whose bytes are written in sixty-four characters, and the
segments stand between points. Each of the three layers is undone by its reader: the
characters give the bytes, the bytes give the text, and the points give the segments.

Of the sixty-four characters it also counts which they are not. No segment holds a point,
so a token falls into the segments that it was made of; and none holds the character
that others pad with, so it makes no difference whether padding is taken off.
-/

namespace CaseAccess

/-! ## Sixty-four characters -/

namespace Base64Url

theorem bits?_symbol {n : Nat} (h : n < 64) : bits? (symbol n) = some n := by
  revert n
  decide

/-- Three bytes are four times six bits, and nothing is lost. -/
theorem decode?_encode (bytes : List UInt8) : decode? (encode bytes) = some bytes := by
  induction bytes using encode.induct with
  | case1 => rfl
  | case2 a =>
      have ha := a.toNat_lt
      have hfirst : a.toNat / 4 * 4 + a.toNat % 4 * 16 / 16 = a.toNat := by omega
      have hrest : a.toNat % 4 * 16 % 16 = 0 := by omega
      simp only [encode, decode?, bits?_symbol (show a.toNat / 4 < 64 by omega),
        bits?_symbol (show a.toNat % 4 * 16 < 64 by omega), Option.bind_eq_bind, Option.bind_some,
        hfirst, hrest, if_true, UInt8.ofNat_toNat]
  | case3 a b =>
      have ha := a.toNat_lt
      have hb := b.toNat_lt
      have hfirst : a.toNat / 4 * 4 + (a.toNat % 4 * 16 + b.toNat / 16) / 16 = a.toNat := by omega
      have hsecond : (a.toNat % 4 * 16 + b.toNat / 16) % 16 * 16 + b.toNat % 16 * 4 / 4 =
          b.toNat := by omega
      have hrest : b.toNat % 16 * 4 % 4 = 0 := by omega
      simp only [encode, decode?, bits?_symbol (show a.toNat / 4 < 64 by omega),
        bits?_symbol (show a.toNat % 4 * 16 + b.toNat / 16 < 64 by omega),
        bits?_symbol (show b.toNat % 16 * 4 < 64 by omega), Option.bind_eq_bind, Option.bind_some,
        hfirst, hsecond, hrest, if_true, UInt8.ofNat_toNat]
  | case4 a b c rest ih =>
      have ha := a.toNat_lt
      have hb := b.toNat_lt
      have hc := c.toNat_lt
      have hfirst : a.toNat / 4 * 4 + (a.toNat % 4 * 16 + b.toNat / 16) / 16 = a.toNat := by omega
      have hsecond : (a.toNat % 4 * 16 + b.toNat / 16) % 16 * 16 +
          (b.toNat % 16 * 4 + c.toNat / 64) / 4 = b.toNat := by omega
      have hthird : (b.toNat % 16 * 4 + c.toNat / 64) % 4 * 64 + c.toNat % 64 = c.toNat := by omega
      simp only [encode, decode?, bits?_symbol (show a.toNat / 4 < 64 by omega),
        bits?_symbol (show a.toNat % 4 * 16 + b.toNat / 16 < 64 by omega),
        bits?_symbol (show b.toNat % 16 * 4 + c.toNat / 64 < 64 by omega),
        bits?_symbol (show c.toNat % 64 < 64 by omega), ih, Option.bind_eq_bind, Option.bind_some,
        hfirst, hsecond, hthird, UInt8.ofNat_toNat, Option.pure_def]

/-- Whatever can be read is written in the sixty-four characters. -/
theorem isSome_bits?_of_decode? {s : List Char} {bytes : List UInt8}
    (h : decode? s = some bytes) : ∀ c ∈ s, (bits? c).isSome = true := by
  induction s using decode?.induct generalizing bytes with
  | case1 => simp
  | case2 a => simp [decode?] at h
  | case3 a b =>
      simp only [decode?, Option.bind_eq_bind, Option.bind_eq_some_iff] at h
      obtain ⟨x, hx, y, hy, -⟩ := h
      simp [hx, hy]
  | case4 a b c =>
      simp only [decode?, Option.bind_eq_bind, Option.bind_eq_some_iff] at h
      obtain ⟨x, hx, y, hy, z, hz, -⟩ := h
      simp [hx, hy, hz]
  | case5 a b c d rest ih =>
      simp only [decode?, Option.bind_eq_bind, Option.bind_eq_some_iff] at h
      obtain ⟨x, hx, y, hy, z, hz, w, hw, tail, htail, -⟩ := h
      simpa [hx, hy, hz, hw] using ih htail

theorem not_mem_of_decode? {s : List Char} {bytes : List UInt8} (h : decode? s = some bytes)
    {c : Char} (hc : bits? c = none) : c ∉ s := by
  intro hmem
  have hsome := isSome_bits?_of_decode? h c hmem
  rw [hc] at hsome
  cases hsome

theorem not_mem_encode (bytes : List UInt8) {c : Char} (hc : bits? c = none) : c ∉ encode bytes :=
  not_mem_of_decode? (decode?_encode bytes) hc

end Base64Url

/-! ## Characters -/

namespace Utf8

theorem toList_loop (bytes : ByteArray) (i : Nat) (r : List UInt8) :
    ByteArray.toList.loop bytes i r = r.reverse ++ bytes.data.toList.drop i := by
  fun_induction ByteArray.toList.loop bytes i r with
  | case1 i r h ih =>
      have hi : i < bytes.data.toList.length := h
      have hget : bytes.get! i = bytes.data.toList[i] := by
        show bytes.data[i]! = _
        rw [getElem!_pos bytes.data i h, Array.getElem_toList]
      rw [ih, List.drop_eq_getElem_cons hi, List.reverse_cons, List.append_assoc, hget]
      rfl
  | case2 i r h =>
      have hi : bytes.data.toList.length ≤ i := Nat.le_of_not_lt h
      rw [List.drop_eq_nil_of_le hi, List.append_nil]

/-- The bytes of a text are those of its characters. -/
theorem encode_eq_flatMap (s : String) : encode s = s.toList.flatMap String.utf8EncodeChar := by
  rw [encode, String.toUTF8_eq_toByteArray, ByteArray.toList, toList_loop,
    ← String.utf8Encode_toList, List.utf8Encode, List.toList_data_toByteArray]
  rfl

variable {stray : List Char} {rest : List UInt8}

theorem decodeWith_ascii {a : UInt8} (h : a.toNat < 0x80) :
    decodeWith stray (a :: rest) = Char.ofNat a.toNat :: decodeWith stray rest := by
  rw [decodeWith, if_pos (UInt8.lt_iff_toNat_lt.2 h)]

/-- A byte that leads a character, with the bytes that follow it. -/
theorem decodeWith_of_follow {a : UInt8} {bytes : List UInt8} {l : Lead} {c : Char}
    (hlead : lead? a = some l)
    (hfollow : follow l.bits l.low l.high l.tails bytes = (some c, rest)) :
    decodeWith stray (a :: bytes) = c :: decodeWith stray rest := by
  have ha : ¬ a < 0x80 := by
    intro hlt
    have hC2 : a < 0xC2 := by
      rw [UInt8.lt_iff_toNat_lt] at hlt ⊢
      exact Nat.lt_trans hlt (by decide)
    rw [lead?, if_pos hC2] at hlead
    cases hlead
  rw [decodeWith, if_neg ha]
  simp only [hlead]
  split
  · next c' rest' heq =>
      rw [hfollow] at heq
      cases heq
      rfl
  · next rest' heq =>
      rw [hfollow] at heq
      cases heq

/-- A byte that carries six bits more of a character. -/
theorem follow_tail {bits k n : Nat} {low high : UInt8} (hk : k < 64)
    (hlow : low.toNat ≤ k + 128) (hhigh : k + 128 ≤ high.toNat) :
    follow bits low high (n + 1) (UInt8.ofNat (k + 128) :: rest) =
      follow (bits * 64 + k) 0x80 0xBF n rest := by
  have htoNat : (UInt8.ofNat (k + 128)).toNat = k + 128 := by
    rw [UInt8.toNat_ofNat']
    omega
  have hfits : low ≤ UInt8.ofNat (k + 128) ∧ UInt8.ofNat (k + 128) ≤ high := by
    rw [UInt8.le_iff_toNat_le, UInt8.le_iff_toNat_le, htoNat]
    exact ⟨hlow, hhigh⟩
  rw [follow, if_pos hfits, htoNat, Nat.add_sub_cancel]

/-- After the second byte of a character, any six bits may come. -/
theorem follow_later {bits k n : Nat} (hk : k < 64) :
    follow bits 0x80 0xBF (n + 1) (UInt8.ofNat (k + 128) :: rest) =
      follow (bits * 64 + k) 0x80 0xBF n rest := by
  have hlow : (0x80 : UInt8).toNat = 128 := rfl
  have hhigh : (0xBF : UInt8).toNat = 191 := rfl
  exact follow_tail hk (by omega) (by omega)

/-- The first of two bytes. -/
theorem lead?_two {k : Nat} (hlow : 2 ≤ k) (hhigh : k < 32) :
    lead? (UInt8.ofNat (k + 192)) = some { bits := k, tails := 1 } := by
  interval_cases k <;> rfl

/-- The first of three bytes; two of them bound what follows. -/
theorem lead?_three {k : Nat} (hk : k < 16) :
    ∃ l, lead? (UInt8.ofNat (k + 224)) = some l ∧ l.bits = k ∧ l.tails = 2 ∧
      l.low.toNat = (if k = 0 then 0xA0 else 0x80) ∧
      l.high.toNat = if k = 13 then 0x9F else 0xBF := by
  interval_cases k <;> exact ⟨_, rfl, rfl, rfl, rfl, rfl⟩

/-- The first of four bytes; the first and the last of them bound what follows. -/
theorem lead?_four {k : Nat} (hk : k < 5) :
    ∃ l, lead? (UInt8.ofNat (k + 240)) = some l ∧ l.bits = k ∧ l.tails = 3 ∧
      l.low.toNat = (if k = 0 then 0x90 else 0x80) ∧
      l.high.toNat = if k = 4 then 0x8F else 0xBF := by
  interval_cases k <;> exact ⟨_, rfl, rfl, rfl, rfl, rfl⟩

/-- The bytes of a character write that character. The bounds on a second byte are just
those of the characters that there are: none has a shorter form, none is half of a pair
and none lies beyond the last. -/
theorem decodeWith_utf8EncodeChar (c : Char) :
    decodeWith stray (String.utf8EncodeChar c ++ rest) = c :: decodeWith stray rest := by
  have hvalid : c.val.toNat < 0xD800 ∨ 0xDFFF < c.val.toNat ∧ c.val.toNat < 0x110000 := c.valid
  have hc : Char.ofNat c.val.toNat = c := Char.ofNat_toNat c
  rw [String.utf8EncodeChar]
  generalize c.val.toNat = v at hvalid hc
  subst hc
  split
  · next hv =>
      have htoNat : (UInt8.ofNat v).toNat = v := by
        rw [UInt8.toNat_ofNat']
        omega
      rw [List.singleton_append, decodeWith_ascii (by omega), htoNat]
  · split
    · next hv =>
        have hbits : v / 64 % 32 * 64 + v % 64 = v := by omega
        rw [List.cons_append, List.cons_append, List.nil_append]
        refine decodeWith_of_follow (lead?_two (by omega) (by omega)) ?_
        rw [follow_later (by omega), follow, hbits]
    · split
      · next hv =>
          have hbits : (v / 4096 % 16 * 64 + v / 64 % 64) * 64 + v % 64 = v := by omega
          obtain ⟨l, hlead, hl, htails, hlow, hhigh⟩ := lead?_three (k := v / 4096 % 16) (by omega)
          simp only [List.cons_append, List.nil_append]
          refine decodeWith_of_follow hlead ?_
          have hfrom : l.low.toNat ≤ v / 64 % 64 + 128 := by split at hlow <;> omega
          have hto : v / 64 % 64 + 128 ≤ l.high.toNat := by split at hhigh <;> omega
          rw [htails, hl, follow_tail (by omega) hfrom hto, follow_later (by omega), follow, hbits]
      · next hv =>
          have hbits : ((v / 262144 % 8 * 64 + v / 4096 % 64) * 64 + v / 64 % 64) * 64 + v % 64 =
              v := by omega
          obtain ⟨l, hlead, hl, htails, hlow, hhigh⟩ := lead?_four (k := v / 262144 % 8) (by omega)
          simp only [List.cons_append, List.nil_append]
          refine decodeWith_of_follow hlead ?_
          have hfrom : l.low.toNat ≤ v / 4096 % 64 + 128 := by split at hlow <;> omega
          have hto : v / 4096 % 64 + 128 ≤ l.high.toNat := by split at hhigh <;> omega
          rw [htails, hl, follow_tail (by omega) hfrom hto, follow_later (by omega),
            follow_later (by omega), follow, hbits]

/-- Reading a text from its own bytes gives it back, whatever stands for stray bytes. -/
theorem decodeWith_encode (s : String) : decodeWith stray (encode s) = s.toList := by
  rw [encode_eq_flatMap]
  induction s.toList with
  | nil => rw [List.flatMap_nil, decodeWith]
  | cons c rest ih => rw [List.flatMap_cons, decodeWith_utf8EncodeChar, ih]

theorem document_encode (s : String) : document (encode s) = s := by
  rw [document, decodeWith_encode, String.ofList_toList]

end Utf8

/-! ## Parts between separators -/

namespace Url

variable {separator : Char} {s rest : List Char}

theorem splitOn_of_not_mem (h : separator ∉ s) : splitOn separator s = [s] := by
  induction s with
  | nil => rfl
  | cons c rest ih =>
      obtain ⟨hc, hrest⟩ := List.ne_and_not_mem_of_not_mem_cons h
      rw [splitOn, if_neg (Ne.symm hc), ih hrest]

theorem splitOn_append (h : separator ∉ s) :
    splitOn separator (s ++ separator :: rest) = s :: splitOn separator rest := by
  induction s with
  | nil => rw [List.nil_append, splitOn, if_pos rfl]
  | cons c tail ih =>
      obtain ⟨hc, htail⟩ := List.ne_and_not_mem_of_not_mem_cons h
      rw [List.cons_append, splitOn, if_neg (Ne.symm hc), ih htail]

theorem splitOn_ne_nil : splitOn separator s ≠ [] := by
  cases s with
  | nil => exact List.cons_ne_nil _ _
  | cons c rest =>
      rw [splitOn]
      split
      · exact List.cons_ne_nil _ _
      · split <;> exact List.cons_ne_nil _ _

/-- The parts make up the text. -/
theorem joinWith_splitOn : joinWith separator (splitOn separator s) = s := by
  induction s with
  | nil => rfl
  | cons c rest ih =>
      rw [splitOn]
      split
      · next hc =>
          rw [hc]
          cases hparts : splitOn separator rest with
          | nil => exact absurd hparts splitOn_ne_nil
          | cons part parts =>
              rw [joinWith, ← hparts, ih, List.nil_append]
              exact List.cons_ne_nil part parts
      · split
        · next part parts hparts =>
            rw [hparts] at ih
            rw [← ih]
            cases parts with
            | nil => rfl
            | cons next parts => rfl
        · next hparts => exact absurd hparts splitOn_ne_nil

theorem not_mem_of_mem_splitOn {part : List Char} (h : part ∈ splitOn separator s) :
    separator ∉ part := by
  induction s generalizing part with
  | nil =>
      rw [splitOn, List.mem_singleton] at h
      simp [h]
  | cons c rest ih =>
      rw [splitOn] at h
      split at h
      · rcases List.mem_cons.1 h with rfl | h
        · exact List.not_mem_nil
        · exact ih h
      · next hc =>
          split at h
          · next first parts hparts =>
              rw [hparts] at ih
              rcases List.mem_cons.1 h with rfl | h
              · exact List.not_mem_cons_of_ne_of_not_mem (Ne.symm hc) (ih List.mem_cons_self)
              · exact ih (List.mem_cons_of_mem _ h)
          · next hparts => exact absurd hparts splitOn_ne_nil

end Url

end CaseAccess
