import CaseAccess.Proofs.ByteText
import CaseAccess.Proofs.Effect
import CaseAccess.Url.Parser
import Mathlib.Data.List.DropRight

/-!
# The segments of an address

Not every text can stand in the path of an address. A slash divides it, a question mark
ends it, two points lead out of it, and what cannot be written is written in another way.
`IsSegment` says of a text that nothing of the kind happens to it, so it is read as the
one segment that it is.

The segments of an address that was read are of this form, except those that are empty.
What encodes a character is never encoded again, and an encoding is never taken for the
points that lead elsewhere, because no point is ever encoded.
-/

namespace CaseAccess.Url

/-- A text that stands in a path as it is, and is read there as one segment. -/
structure IsSegment (special : Bool) (s : List Char) : Prop where
  ne_nil : s ≠ []
  plain : ∀ c ∈ s, encodeChar pathSet c = [c]
  noSlash : '/' ∉ s
  noBackslash : special = true → '\\' ∉ s
  noSingleDot : isSingleDot s = false
  noDoubleDot : isDoubleDot s = false

instance (special : Bool) (s : List Char) : Decidable (IsSegment special s) :=
  decidable_of_iff
    (s ≠ [] ∧ s.all (fun c => encodeChar pathSet c = [c]) = true ∧ '/' ∉ s ∧
      (special = true → '\\' ∉ s) ∧ isSingleDot s = false ∧ isDoubleDot s = false)
    ⟨fun ⟨hne, hplain, hslash, hbackslash, hsingle, hdouble⟩ =>
        ⟨hne, fun c hc => of_decide_eq_true (List.all_eq_true.1 hplain c hc), hslash, hbackslash,
          hsingle, hdouble⟩,
      fun ⟨hne, hplain, hslash, hbackslash, hsingle, hdouble⟩ =>
        ⟨hne, List.all_eq_true.2 fun c hc => decide_eq_true (hplain c hc), hslash, hbackslash,
          hsingle, hdouble⟩⟩

/-! ## What is encoded -/

section Encoding

variable {c d : Char} {s : List Char} {b : UInt8} {extra : List Char}

/-- What a byte is written with is plain for a set. -/
def KeepsBytes (extra : List Char) : Prop :=
  encodeChar extra '%' = ['%'] ∧ ∀ n < 16, encodeChar extra (hexDigit n) = [hexDigit n]

instance (extra : List Char) : Decidable (KeepsBytes extra) :=
  inferInstanceAs (Decidable (_ ∧ _))

theorem mem_encodeByte (h : d ∈ encodeByte b) : d = '%' ∨ ∃ n < 16, d = hexDigit n := by
  have hb : b.toNat < 256 := b.toNat_lt
  rw [encodeByte, List.mem_cons, List.mem_cons, List.mem_singleton] at h
  rcases h with rfl | rfl | rfl
  · exact .inl rfl
  · exact .inr ⟨_, by omega, rfl⟩
  · exact .inr ⟨_, by omega, rfl⟩

/-- A character is encoded by its bytes or not at all. -/
theorem encodeChar_cases (extra : List Char) (c : Char) :
    encodeChar extra c = (String.utf8EncodeChar c).flatMap encodeByte ∨
      encodeChar extra c = [c] := by
  rw [encodeChar]
  split
  · exact .inl rfl
  · exact .inr rfl

/-- What was encoded is plain, and was there before or writes a byte. -/
theorem mem_encode (hextra : KeepsBytes extra) (h : d ∈ encode extra s) :
    encodeChar extra d = [d] ∧ (d ∈ s ∨ d = '%' ∨ ∃ n < 16, d = hexDigit n) := by
  obtain ⟨c, hc, hd⟩ := List.mem_flatMap.1 h
  rcases encodeChar_cases extra c with hbytes | hplain
  · rw [hbytes] at hd
    obtain ⟨b, -, hd⟩ := List.mem_flatMap.1 hd
    rcases mem_encodeByte hd with rfl | ⟨n, hn, rfl⟩
    · exact ⟨hextra.1, .inr (.inl rfl)⟩
    · exact ⟨hextra.2 n hn, .inr (.inr ⟨n, hn, rfl⟩)⟩
  · rw [hplain, List.mem_singleton] at hd
    subst hd
    exact ⟨hplain, .inl hc⟩

/-- What has no character to encode is left as it is. -/
theorem encode_eq_self (h : ∀ c ∈ s, encodeChar extra c = [c]) : encode extra s = s := by
  induction s with
  | nil => rfl
  | cons c rest ih =>
      rw [encode, List.flatMap_cons, h c List.mem_cons_self, ← encode,
        ih fun d hd => h d (List.mem_cons_of_mem _ hd)]
      rfl

/-- What is plain can be seen and is none of the set. -/
theorem of_plain (h : encodeChar extra c = [c]) : isUnwritable c = false ∧ c ∉ extra := by
  rw [encodeChar] at h
  split at h
  · obtain ⟨b, bytes, hbytes⟩ := List.exists_cons_of_ne_nil (String.utf8EncodeChar_ne_nil (c := c))
    rw [hbytes] at h
    cases h
  · next hplain =>
    rw [Bool.not_eq_true, Bool.or_eq_false_iff] at hplain
    exact ⟨hplain.1, by simpa using hplain.2⟩

/-- What is not encoded can be seen. -/
theorem toNat_of_plain (h : encodeChar pathSet c = [c]) : 32 < c.toNat ∧ c.toNat ≤ 126 := by
  obtain ⟨hwritable, hset⟩ := of_plain h
  simp only [isUnwritable, Bool.or_eq_false_iff, decide_eq_false_iff_not] at hwritable
  have hblank : c.toNat ≠ 32 := by
    intro heq
    have hc : c = ' ' := Char.ext (UInt32.toNat_inj.1 heq)
    exact hset (hc ▸ by decide)
  omega

/-! ### Points -/

/-- Wherever something is written by its bytes it is a point, in lower case. -/
def escapesOnlyPoints : List Char → Bool
  | [] => true
  | c :: rest => (c ≠ '%' || ['2', 'e'].isPrefixOf rest) && escapesOnlyPoints rest

/-- A point is the only character whose first byte is that of a point. -/
theorem eq_point_of_head (h : (String.utf8EncodeChar c).head? = some 0x2E) : c = '.' := by
  have hval : c.val.toNat = 0x2E := by
    rw [String.utf8EncodeChar] at h
    have hbyte : ∀ n : Nat, UInt8.ofNat n = 0x2E → n % 256 = 0x2E := by
      intro n hn
      have := congrArg UInt8.toNat hn
      rwa [UInt8.toNat_ofNat'] at this
    split at h
    · have := hbyte _ (Option.some.inj h)
      omega
    · split at h
      · have := hbyte _ (Option.some.inj h)
        omega
      · split at h
        · have := hbyte _ (Option.some.inj h)
          omega
        · have := hbyte _ (Option.some.inj h)
          omega
  exact Char.ext (UInt32.toNat_inj.1 hval)

theorem toLower_hexDigit {n : Nat} (h : n < 16) :
    ((hexDigit n).toLower = '2' → n = 2) ∧ ((hexDigit n).toLower = 'e' → n = 14) := by
  interval_cases n <;> decide

/-- Where only points are written by their bytes, nothing was encoded. -/
theorem encode_eq_of_escapesOnlyPoints
    (h : escapesOnlyPoints ((encode pathSet s).map Char.toLower) = true) :
    encode pathSet s = s := by
  induction s with
  | nil => rfl
  | cons c rest ih =>
      rw [encode, List.flatMap_cons, ← encode] at h ⊢
      rcases encodeChar_cases pathSet c with hbytes | hplain
      · obtain ⟨b, bytes, hcons⟩ : ∃ b bytes, String.utf8EncodeChar c = b :: bytes :=
          List.exists_cons_of_ne_nil String.utf8EncodeChar_ne_nil
        have hb : b.toNat < 256 := b.toNat_lt
        have hpercent : Char.toLower '%' = '%' := by decide
        rw [hbytes, hcons] at h
        simp only [List.flatMap_cons, encodeByte, List.cons_append, List.map_cons, hpercent,
          escapesOnlyPoints, List.isPrefixOf, Bool.and_eq_true, Bool.or_eq_true, beq_iff_eq,
          ne_eq, not_true_eq_false, decide_false, Bool.false_eq_true, false_or, and_true] at h
        obtain ⟨⟨hhigh, hlow⟩, -⟩ := h
        have h₁ := (toLower_hexDigit (by omega)).1 hhigh.symm
        have h₂ := (toLower_hexDigit (by omega)).2 hlow.symm
        have hpoint : b = 0x2E := UInt8.toNat_inj.1 (by
          show b.toNat = 46
          omega)
        have hc : c = '.' := eq_point_of_head (by rw [hcons, hpoint]; rfl)
        subst hc
        exact absurd hbytes (by decide)
      · rw [hplain, List.singleton_append] at h ⊢
        rw [List.map_cons, escapesOnlyPoints, Bool.and_eq_true] at h
        rw [ih h.2]

theorem encode_eq_of_word {word : String} (hword : escapesOnlyPoints word.toList = true)
    (h : String.ofList ((encode pathSet s).map Char.toLower) = word) : encode pathSet s = s := by
  have hchars : (encode pathSet s).map Char.toLower = word.toList := by
    rw [← h, String.toList_ofList]
  exact encode_eq_of_escapesOnlyPoints (hchars ▸ hword)

/-- Nothing is encoded as points. -/
theorem isSingleDot_encode (h : isSingleDot s = false) :
    isSingleDot (encode pathSet s) = false := by
  rw [← Bool.not_eq_true] at h ⊢
  intro hdot
  have hself : encode pathSet s = s := by
    simp only [isSingleDot, Bool.or_eq_true, decide_eq_true_eq] at hdot
    rcases hdot with hdot | hdot
    · exact encode_eq_of_word (by decide) hdot
    · exact encode_eq_of_word (by decide) hdot
  exact h (hself ▸ hdot)

theorem isDoubleDot_encode (h : isDoubleDot s = false) :
    isDoubleDot (encode pathSet s) = false := by
  rw [← Bool.not_eq_true] at h ⊢
  intro hdot
  have hself : encode pathSet s = s := by
    simp only [isDoubleDot, Bool.or_eq_true, decide_eq_true_eq] at hdot
    rcases hdot with ((hdot | hdot) | hdot) | hdot
    · exact encode_eq_of_word (by decide) hdot
    · exact encode_eq_of_word (by decide) hdot
    · exact encode_eq_of_word (by decide) hdot
    · exact encode_eq_of_word (by decide) hdot
  exact h (hself ▸ hdot)

end Encoding

/-! ## What is read -/

/-- Every one of the texts is empty or a segment. -/
def AreSegments (special : Bool) (path : List (List Char)) : Prop :=
  ∀ s ∈ path, s = [] ∨ IsSegment special s

section Reading

variable {special file last : Bool} {path raw : List (List Char)} {s segment : List Char}

/-- The text can be between two slashes. -/
def IsRaw (special : Bool) (s : List Char) : Prop := '/' ∉ s ∧ (special = true → '\\' ∉ s)

theorem areSegments_append {rest : List (List Char)} (h : AreSegments special path)
    (hrest : AreSegments special rest) : AreSegments special (path ++ rest) :=
  List.forall_mem_append.2 ⟨h, hrest⟩

theorem areSegments_empty : AreSegments special [[]] := List.forall_mem_singleton.2 (.inl rfl)

theorem isSegment_encode (hraw : IsRaw special segment) (hsingle : isSingleDot segment = false)
    (hdouble : isDoubleDot segment = false) :
    encode pathSet segment = [] ∨ IsSegment special (encode pathSet segment) := by
  rcases eq_or_ne (encode pathSet segment) [] with hnil | hne
  · exact .inl hnil
  · have hkept : ∀ mark, mark ≠ '%' → (∀ n < 16, mark ≠ hexDigit n) →
        mark ∈ encode pathSet segment → mark ∈ segment := by
      intro mark hpercent hhex hmem
      rcases (mem_encode (by decide) hmem).2 with hmem | hmem | ⟨n, hn, hmem⟩
      · exact hmem
      · exact absurd hmem hpercent
      · exact absurd hmem (hhex n hn)
    refine .inr ⟨hne, fun c hc => (mem_encode (by decide) hc).1, fun hmem => ?_, fun h hmem => ?_,
      isSingleDot_encode hsingle, isDoubleDot_encode hdouble⟩
    · exact hraw.1 (hkept '/' (by decide) (by decide) hmem)
    · exact hraw.2 h (hkept '\\' (by decide) (by decide) hmem)

theorem toNat_of_isAlphanum {c : Char} (h : c.isAlphanum = true) :
    48 ≤ c.toNat ∧ c.toNat ≤ 122 := by
  have hbetween : ∀ low high : UInt32, low ≤ c.val → c.val ≤ high →
      low.toNat ≤ c.toNat ∧ c.toNat ≤ high.toNat := fun _ _ hlow hhigh => ⟨hlow, hhigh⟩
  rcases (Bool.or_eq_true _ _).mp h with hletter | hdigit
  · rcases (Bool.or_eq_true _ _).mp hletter with hupper | hlower
    · obtain ⟨hlow, hhigh⟩ := of_decide_eq_true hupper
      have hrange := hbetween 65 90 hlow hhigh
      exact ⟨(by decide : 48 ≤ (65 : UInt32).toNat).trans hrange.1, hrange.2.trans (by decide)⟩
    · obtain ⟨hlow, hhigh⟩ := (Bool.and_eq_true _ _).mp hlower
      have hrange := hbetween 97 122 (of_decide_eq_true hlow) (of_decide_eq_true hhigh)
      exact ⟨(by decide : 48 ≤ (97 : UInt32).toNat).trans hrange.1, hrange.2⟩
  · obtain ⟨hlow, hhigh⟩ := (Bool.and_eq_true _ _).mp hdigit
    have hrange := hbetween 48 57 (of_decide_eq_true hlow) (of_decide_eq_true hhigh)
    exact ⟨hrange.1, hrange.2.trans (by decide)⟩

theorem plain_of_isAlpha {c : Char} (h : c.isAlpha = true) : encodeChar pathSet c = [c] := by
  have hset : c ∉ pathSet := by
    have hnone : pathSet.all (!·.isAlpha) = true := by decide
    intro hmem
    have hc := List.all_eq_true.1 hnone c hmem
    rw [h] at hc
    cases hc
  have hwritable : isUnwritable c = false := by
    have hrange := toNat_of_isAlphanum (c := c) (by rw [Char.isAlphanum, h, Bool.true_or])
    simp only [isUnwritable, Bool.or_eq_false_iff, decide_eq_false_iff_not]
    omega
  rw [encodeChar, hwritable, Bool.false_or, if_neg (by simpa using hset)]

/-- The drive of a file is a letter, and no point. -/
theorem isSegment_drive (h : isDrive segment = true) :
    IsSegment special [segment.headD ' ', ':'] := by
  obtain ⟨c, m, rfl, hc⟩ : ∃ c m, segment = [c, m] ∧ c.isAlpha = true := by
    unfold isDrive at h
    split at h
    · next c m => exact ⟨c, m, rfl, (Bool.and_eq_true _ _ ▸ h).1⟩
    · cases h
  have hmark : ∀ d : Char, d.isAlpha = false → d ≠ ':' → d ∉ [c, ':'] := by
    intro d hd hcolon hmem
    rcases List.mem_cons.1 hmem with rfl | hmem
    · rw [hc] at hd
      cases hd
    · exact hcolon (List.mem_singleton.1 hmem)
  have hword : ∀ word : String, ':' ∉ word.toList →
      String.ofList ([c, ':'].map Char.toLower) ≠ word := by
    rintro _ hword rfl
    rw [String.toList_ofList] at hword
    exact hword (List.mem_map.2 ⟨':', by simp, rfl⟩)
  refine ⟨List.cons_ne_nil _ _, ?_, hmark _ (by decide) (by decide),
    fun _ => hmark _ (by decide) (by decide), ?_, ?_⟩
  · exact List.forall_mem_cons.2 ⟨plain_of_isAlpha hc, List.forall_mem_singleton.2 (by decide)⟩
  · simp only [isSingleDot, Bool.or_eq_false_iff, decide_eq_false_iff_not]
    exact ⟨hword _ (by decide), hword _ (by decide)⟩
  · simp only [isDoubleDot, Bool.or_eq_false_iff, decide_eq_false_iff_not]
    exact ⟨⟨⟨hword _ (by decide), hword _ (by decide)⟩, hword _ (by decide)⟩, hword _ (by decide)⟩

theorem areSegments_addSegment (hpath : AreSegments special path) (hraw : IsRaw special segment) :
    AreSegments special (addSegment file path segment last) := by
  have hend : AreSegments special (if last then [[]] else []) := by
    split
    · exact areSegments_empty
    · exact fun _ h => nomatch h
  have hparent : AreSegments special (parent file path) := by
    intro s hs
    refine hpath s ?_
    unfold parent at hs
    split at hs
    · split at hs
      · exact hs
      · cases hs
    · exact (List.dropLast_sublist _).subset hs
  rw [addSegment]
  split
  · exact areSegments_append hparent hend
  · next hdouble =>
    split
    · exact areSegments_append hpath hend
    · next hsingle =>
      split
      · next hdrive =>
        rw [Bool.and_eq_true] at hdrive
        exact areSegments_append hpath
          (List.forall_mem_singleton.2 (.inr (isSegment_drive hdrive.2)))
      · exact areSegments_append hpath (List.forall_mem_singleton.2
          (isSegment_encode hraw (Bool.eq_false_iff.2 hsingle) (Bool.eq_false_iff.2 hdouble)))

theorem areSegments_resolve (hpath : AreSegments special path)
    (hraw : ∀ s ∈ raw, IsRaw special s) : AreSegments special (resolve file path raw) := by
  fun_induction resolve file path raw with
  | case1 path => exact hpath
  | case2 path segment =>
      exact areSegments_addSegment hpath (hraw segment List.mem_cons_self)
  | case3 path segment rest hrest ih =>
      exact ih (areSegments_addSegment hpath (hraw segment List.mem_cons_self))
        fun s hs => hraw s (List.mem_cons_of_mem _ hs)

theorem mem_joinWith {mark c : Char} {parts : List (List Char)} {part : List Char}
    (h : part ∈ parts) (hc : c ∈ part) : c ∈ joinWith mark parts := by
  induction parts with
  | nil => cases h
  | cons first rest ih =>
      cases rest with
      | nil => exact List.mem_singleton.1 h ▸ hc
      | cons next rest =>
          rw [joinWith]
          · rcases List.mem_cons.1 h with rfl | h
            · exact List.mem_append_left _ hc
            · exact List.mem_append_right _ (List.mem_cons_of_mem _ (ih h))
          · exact List.cons_ne_nil _ _

theorem isRaw_of_mem_rawSegments (h : segment ∈ rawSegments special s) : IsRaw special segment := by
  refine ⟨not_mem_of_mem_splitOn h, ?_⟩
  rintro rfl hmem
  rw [rawSegments, if_pos rfl] at h
  have htext : '\\' ∈ joinWith '/' (splitOn '/' (s.map fun c => if c = '\\' then '/' else c)) :=
    mem_joinWith h hmem
  rw [joinWith_splitOn] at htext
  obtain ⟨c, -, hc⟩ := List.mem_map.1 htext
  split at hc
  · cases hc
  · next hne => exact hne hc

/-- The segments of a file do not start with an empty one, unless that is all. -/
def leading (path : List (List Char)) : List (List Char) :=
  match path.dropWhile List.isEmpty with
  | [] => [[]]
  | rest => rest

theorem pathSegments_eq (scheme s : List Char) :
    pathSegments scheme s =
      if scheme = "file".toList then
        leading (resolve true [] (leading (rawSegments (isSpecial scheme) s)))
      else resolve false [] (rawSegments (isSpecial scheme) s) := rfl

theorem mem_leading {path : List (List Char)} (h : segment ∈ leading path) :
    segment = [] ∨ segment ∈ path := by
  rw [leading] at h
  split at h
  · exact .inl (List.mem_singleton.1 h)
  · exact .inr ((List.dropWhile_suffix _).subset h)

theorem areSegments_pathSegments (scheme s : List Char) :
    AreSegments (isSpecial scheme) (pathSegments scheme s) := by
  have hnil : AreSegments (isSpecial scheme) [] := fun _ h => nomatch h
  have hraw : ∀ segment ∈ rawSegments (isSpecial scheme) s, IsRaw (isSpecial scheme) segment :=
    fun _ => isRaw_of_mem_rawSegments
  rw [pathSegments_eq]
  split
  · intro segment hsegment
    rcases mem_leading hsegment with hempty | hsegment
    · exact .inl hempty
    · refine areSegments_resolve hnil (fun part hpart => ?_) segment hsegment
      rcases mem_leading hpart with rfl | hpart
      · exact ⟨List.not_mem_nil, fun _ => List.not_mem_nil⟩
      · exact hraw part hpart
  · exact areSegments_resolve hnil hraw

theorem areSegments_afterSlashes {scheme s : List Char} {u : Url}
    (h : afterSlashes scheme s = .ok u) : AreSegments (isSpecial u.scheme) u.segments := by
  obtain ⟨authority, -, h⟩ := except_of_bind_ok h
  cases h
  show AreSegments (isSpecial scheme) _
  split
  · split
    · exact areSegments_empty
    · exact fun _ h => nomatch h
  · exact areSegments_pathSegments scheme _
  · exact areSegments_pathSegments scheme _

theorem areSegments_ofFile {s : List Char} {u : Url} (h : ofFile s = .ok u) :
    AreSegments (isSpecial u.scheme) u.segments := by
  have hfile := areSegments_pathSegments "file".toList
  simp only [ofFile] at h
  split at h
  · split at h
    · cases h
      exact hfile _
    · split at h
      · cases h
        exact hfile _
      · obtain ⟨host, -, h⟩ := except_of_bind_ok h
        cases h
        exact hfile _
  · cases h
    exact hfile _

/-- The segments of an address that was read are empty or stand there as they are. -/
theorem areSegments_of_ofText {s : List Char} {u : Url} (h : ofText s = .ok u) :
    AreSegments (isSpecial u.scheme) u.segments := by
  simp only [ofText] at h
  split at h
  · cases h
  · split at h
    · exact areSegments_ofFile h
    · split at h
      · exact areSegments_afterSlashes h
      · split at h
        · exact areSegments_afterSlashes h
        · cases h
          exact areSegments_pathSegments _ _
        · cases h
          exact fun _ h => nomatch h

end Reading

end CaseAccess.Url
