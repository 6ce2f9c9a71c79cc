import CaseAccess.Proofs.JsonText
import CaseAccess.Proofs.PathSegments

/-!
# A host is read again as itself

The normal form of a host is read as nothing but itself. This is not to say that it is
read at all: the `xn--` form of a label must itself be the form of some label, and that
is checked anew. But a label in ASCII is either refused or left as it is, and so the form
need not be decoded here.

Names aside, a host is an address of four bytes or of eight groups, and then what matters
is that its text writes the same numbers. In the text of eight groups the longest run of
zeros is a gap; the first gap of the text is that run, because everything before it stands
between single colons.
-/

namespace CaseAccess.Url

/-! ## Lists of parts -/

section Parts

variable {c : Char} {s : List Char}

theorem of_mem_joinWith {mark : Char} {parts : List (List Char)} (h : c ∈ joinWith mark parts) :
    c = mark ∨ ∃ part ∈ parts, c ∈ part := by
  induction parts with
  | nil => cases h
  | cons first rest ih =>
      cases rest with
      | nil => exact .inr ⟨first, List.mem_singleton.2 rfl, h⟩
      | cons next rest =>
          rw [joinWith] at h
          · rcases List.mem_append.1 h with h | h
            · exact .inr ⟨first, List.mem_cons_self, h⟩
            · rcases List.mem_cons.1 h with rfl | h
              · exact .inl rfl
              · rcases ih h with rfl | ⟨part, hpart, hc⟩
                · exact .inl rfl
                · exact .inr ⟨part, List.mem_cons_of_mem _ hpart, hc⟩
          · exact List.cons_ne_nil _ _

theorem mem_of_mem_splitOn {mark : Char} {part : List Char} (h : part ∈ splitOn mark s)
    (hc : c ∈ part) : c ∈ s := by
  have hmem : c ∈ joinWith mark (splitOn mark s) := mem_joinWith h hc
  rwa [joinWith_splitOn] at hmem

/-- The parts of texts with a separator between them are these texts. -/
theorem splitOn_joinWith {mark : Char} {parts : List (List Char)} (hne : parts ≠ [])
    (h : ∀ part ∈ parts, mark ∉ part) : splitOn mark (joinWith mark parts) = parts := by
  induction parts with
  | nil => exact absurd rfl hne
  | cons first rest ih =>
      have hfirst := h first List.mem_cons_self
      cases rest with
      | nil => exact splitOn_of_not_mem hfirst
      | cons next rest =>
          rw [joinWith]
          · rw [splitOn_append hfirst, ih (List.cons_ne_nil _ _) fun part hpart =>
              h part (List.mem_cons_of_mem _ hpart)]
          · exact List.cons_ne_nil _ _

/-- What a list of options holds comes from a member. -/
theorem exists_of_mapM_some {α β : Type} {f : α → Option β} {l : List α} {bs : List β}
    (h : l.mapM f = some bs) {b : β} (hb : b ∈ bs) : ∃ a ∈ l, f a = some b := by
  induction l generalizing bs with
  | nil =>
      cases h
      cases hb
  | cons a rest ih =>
      rw [List.mapM_cons] at h
      obtain ⟨b', ha, h⟩ := Option.bind_eq_some_iff.1 h
      obtain ⟨bs', hrest, h⟩ := Option.bind_eq_some_iff.1 h
      cases h
      rcases List.mem_cons.1 hb with rfl | hb
      · exact ⟨a, List.mem_cons_self, ha⟩
      · obtain ⟨a', ha', hfa'⟩ := ih hrest hb
        exact ⟨a', List.mem_cons_of_mem _ ha', hfa'⟩

/-- Where each member can only give itself, so can the list. -/
theorem eq_of_mapM_some {α : Type} {f : α → Option α} {l bs : List α}
    (hf : ∀ a ∈ l, ∀ b, f a = some b → b = a) (h : l.mapM f = some bs) : bs = l := by
  induction l generalizing bs with
  | nil =>
      cases h
      rfl
  | cons a rest ih =>
      rw [List.mapM_cons] at h
      obtain ⟨b, hb, h⟩ := Option.bind_eq_some_iff.1 h
      obtain ⟨bs', hrest, h⟩ := Option.bind_eq_some_iff.1 h
      cases h
      rw [hf a List.mem_cons_self b hb, ih (fun a ha => hf a (List.mem_cons_of_mem _ ha)) hrest]

end Parts

/-! ## Names -/

section Names

variable {c : Char} {s label name ascii : List Char}

/-! ### Folding -/

/-- A character that reading a name leaves as it is. -/
def IsFolded (c : Char) : Prop := c.toNat < 128 ∧ foldChar c = c

instance (c : Char) : Decidable (IsFolded c) := inferInstanceAs (Decidable (_ ∧ _))

theorem isFolded_toLower {n : Nat} (h : n < 128) : IsFolded (Char.ofNat n).toLower := by
  have hall : ∀ n < 128, IsFolded (Char.ofNat n).toLower := by decide +kernel
  exact hall n h

theorem toNat_ofNat_of_lt {n : Nat} (h : n < 0xD800) : (Char.ofNat n).toNat = n := by
  rw [Char.ofNat, dif_pos (.inl h)]
  exact UInt32.toNat_ofNatLT ..

/-- What is folded into ASCII is not folded further. -/
theorem isFolded_foldChar (h : (foldChar c).toNat < 128) : IsFolded (foldChar c) := by
  -- A letter of another range is folded within its range.
  have hbeyond : ∀ n, 128 ≤ n → n < 0xD800 → ¬ (Char.ofNat n).toNat < 128 := by
    intro n hn hvalid
    rw [toNat_ofNat_of_lt hvalid]
    omega
  rw [foldChar] at h ⊢
  split_ifs at h ⊢ with hascii hdot hwide hletter hcyrillic heven hodd
  · have hc := isFolded_toLower hascii
    rwa [Char.ofNat_toNat] at hc
  · decide
  · exact isFolded_toLower (by omega)
  · exact absurd h (hbeyond _ (by omega) (by omega))
  · exact absurd h (hbeyond _ (by omega) (by omega))
  · exact absurd h (hbeyond _ (by omega) (by omega))
  · exact absurd h (hbeyond _ (by omega) (by omega))
  · exact absurd h hascii

/-- A character with a form of its own is beyond ASCII, and its form is not folded further. -/
theorem ownForms_lookup_cases (c : Char) :
    ownForms.lookup c.toNat = none ∨ 128 ≤ c.toNat ∧ ∃ form, ownForms.lookup c.toNat = some form ∧
      ∀ d ∈ form, d.toNat < 128 → IsFolded d := by
  have hall : ∀ p ∈ ownForms, 128 ≤ p.1 ∧
      p.2.all (fun d => decide (128 ≤ d.toNat) || decide (IsFolded d)) = true := by decide +kernel
  cases hform : ownForms.lookup c.toNat with
  | none => exact .inl rfl
  | some form =>
      obtain ⟨before, after, hsplit, -⟩ := List.lookup_eq_some_iff.1 hform
      have hmem : (c.toNat, form) ∈ ownForms := by
        rw [hsplit]
        exact List.mem_append_right _ List.mem_cons_self
      obtain ⟨hbeyond, hfolded⟩ := hall _ hmem
      refine .inr ⟨hbeyond, form, rfl, fun d hd hascii => ?_⟩
      have hboth := List.all_eq_true.1 hfolded d hd
      rw [Bool.or_eq_true, decide_eq_true_eq, decide_eq_true_eq] at hboth
      exact hboth.resolve_left (by omega)

theorem IsFolded.folded_eq (h : IsFolded c) : folded c = [c] := by
  rcases ownForms_lookup_cases c with hnone | ⟨hbeyond, -⟩
  · rw [folded, hnone, Option.getD_none, h.2]
  · exact absurd h.1 (by omega)

theorem isFolded_of_mem_folded {d : Char} (hd : d ∈ folded c) (h : d.toNat < 128) :
    IsFolded d := by
  rcases ownForms_lookup_cases c with hnone | ⟨-, form, hform, hall⟩
  · rw [folded, hnone, Option.getD_none, List.mem_singleton] at hd
    subst hd
    exact isFolded_foldChar h
  · rw [folded, hform, Option.getD_some] at hd
    exact hall d hd h

theorem isFolded_punyDigit {n : Nat} (h : n < 36) : IsFolded (punyDigit n) := by
  have hall : ∀ n < 36, IsFolded (punyDigit n) := by decide
  exact hall n h

theorem isFolded_of_mem_punyDigits {bias fuel k q : Nat} (h : c ∈ punyDigits bias fuel k q) :
    IsFolded c := by
  induction fuel generalizing k q with
  | zero => cases h
  | succ fuel ih =>
      have ht : (if k ≤ bias then 1 else if bias + 26 ≤ k then 26 else k - bias) ≤ 26 := by
        split
        · omega
        · split <;> omega
      rw [punyDigits] at h
      generalize (if k ≤ bias then 1 else if bias + 26 ≤ k then 26 else k - bias) = t at h ht
      split at h
      · next hlast =>
        rw [List.mem_singleton.1 h]
        exact isFolded_punyDigit (by omega)
      · rcases List.mem_cons.1 h with rfl | h
        · have hmod : (q - t) % (36 - t) < 36 - t := Nat.mod_lt _ (by omega)
          exact isFolded_punyDigit (by omega)
        · exact ih h

/-- What is written for a label holds its plain characters, hyphens and digits. -/
theorem isFolded_of_mem_punyEncode (h : ∀ c ∈ label, c.toNat < 128 → IsFolded c)
    (hc : c ∈ punyEncode label) : IsFolded c := by
  have hinner : ∀ (code plain : Nat) (l : List Char) (s : PunyState),
      (∀ c ∈ s.output, IsFolded c) →
      ∀ c ∈ (l.foldl (fun s c =>
        if c.toNat < code then { s with delta := s.delta + 1 }
        else if c.toNat = code then
          { s with
            output := s.output ++ punyDigits s.bias (s.delta + 1) 36 s.delta
            bias := punyBias s.delta (s.count + 1) (s.count == plain)
            delta := 0
            count := s.count + 1 }
        else s) s).output, IsFolded c := by
    intro code plain l
    induction l with
    | nil => exact fun s hs => hs
    | cons d l ih =>
        intro s hs
        refine ih _ ?_
        beta_reduce
        split
        · exact hs
        · split
          · exact List.forall_mem_append.2 ⟨hs, fun c hc => isFolded_of_mem_punyDigits hc⟩
          · exact hs
  have hcodes : ∀ (codes : List Nat) (plain : Nat) (s : PunyState),
      (∀ c ∈ s.output, IsFolded c) →
      ∀ c ∈ (codes.foldl (punyCode label plain) s).output, IsFolded c := by
    intro codes plain
    induction codes with
    | nil => exact fun s hs => hs
    | cons code codes ih => exact fun s hs => ih _ (hinner code plain label _ hs)
  refine hcodes _ _ _ ?_ c hc
  split
  · exact fun c hc => nomatch hc
  · refine List.forall_mem_append.2 ⟨fun c hc => ?_, List.forall_mem_singleton.2 (by decide)⟩
    obtain ⟨hmem, hascii⟩ := List.mem_filter.1 hc
    exact h c hmem (of_decide_eq_true hascii)

/-! ### Labels -/

/-- A label in ASCII stands for itself if it stands for anything. -/
theorem asciiLabel?_of_ascii {written : List Char} (h : ∀ c ∈ label, c.toNat < 128)
    (hlabel : asciiLabel? label = some written) : written = label := by
  unfold asciiLabel? at hlabel
  split at hlabel
  · split at hlabel
    · exact (Option.some.inj hlabel).symm
    · cases hlabel
  · rw [if_pos (List.all_eq_true.2 fun c hc => decide_eq_true (h c hc))] at hlabel
    exact (Option.some.inj hlabel).symm

theorem isFolded_of_asciiLabel? {written : List Char}
    (h : ∀ c ∈ label, c.toNat < 128 → IsFolded c) (hlabel : asciiLabel? label = some written) :
    ∀ c ∈ written, IsFolded c := by
  unfold asciiLabel? at hlabel
  split at hlabel
  · next rest =>
    split at hlabel
    · next hwritten =>
      cases hlabel
      rw [isWrittenLabel, Bool.and_eq_true, List.all_eq_true] at hwritten
      intro c hc
      refine h c hc ?_
      simp only [List.mem_cons] at hc
      rcases hc with rfl | rfl | rfl | rfl | hc
      · decide
      · decide
      · decide
      · decide
      · exact of_decide_eq_true (hwritten.1 c hc)
    · cases hlabel
  · split at hlabel
    · next hascii =>
      cases hlabel
      exact fun c hc => h c hc (of_decide_eq_true (List.all_eq_true.1 hascii c hc))
    · cases hlabel
      intro c hc
      simp only [List.mem_cons] at hc
      rcases hc with rfl | rfl | rfl | rfl | hc
      · decide
      · decide
      · decide
      · decide
      · exact isFolded_of_mem_punyEncode h hc

theorem asciiName?_eq_some : asciiName? name = some ascii ↔
    (name.flatMap folded).any isRefused = false ∧
      ∃ labels, (splitOn '.' (name.flatMap folded)).mapM asciiLabel? = some labels ∧
        joinWith '.' labels = ascii ∧ ascii.any isForbidden = false := by
  rw [asciiName?]
  split
  · next hrefused => simp [hrefused]
  · next hrefused =>
    rw [Bool.not_eq_true] at hrefused
    simp only [hrefused, true_and, Option.bind_eq_bind, Option.bind_eq_some_iff]
    refine exists_congr fun labels => and_congr_right fun _ => ?_
    split
    · next hforbidden =>
      refine iff_of_false (fun h => nomatch h) ?_
      rintro ⟨rfl, hnone⟩
      rw [hforbidden] at hnone
      cases hnone
    · next hforbidden =>
      constructor
      · intro h
        cases h
        exact ⟨rfl, Bool.eq_false_iff.2 hforbidden⟩
      · rintro ⟨rfl, -⟩
        rfl

/-- A character of the host of a special scheme, other than in brackets. -/
structure IsNameChar (c : Char) : Prop where
  folded : IsFolded c
  allowed : isForbidden c = false

instance (c : Char) : Decidable (IsNameChar c) :=
  decidable_of_iff (IsFolded c ∧ isForbidden c = false)
    ⟨fun h => ⟨h.1, h.2⟩, fun h => ⟨h.1, h.2⟩⟩

theorem isNameChar_of_asciiName? (h : asciiName? name = some ascii) :
    ∀ c ∈ ascii, IsNameChar c := by
  obtain ⟨-, labels, hlabels, rfl, hallowed⟩ := asciiName?_eq_some.1 h
  intro c hc
  refine ⟨?_, Bool.eq_false_iff.2 fun hforbidden => ?_⟩
  · rcases of_mem_joinWith hc with rfl | ⟨written, hwritten, hc⟩
    · decide
    · obtain ⟨label, hlabel, hread⟩ := exists_of_mapM_some hlabels hwritten
      refine isFolded_of_asciiLabel? (fun d hd hascii => ?_) hread c hc
      obtain ⟨e, -, hd⟩ := List.mem_flatMap.1 (mem_of_mem_splitOn hlabel hd)
      exact isFolded_of_mem_folded hd hascii
  · rw [List.any_eq_false] at hallowed
    exact hallowed c hc hforbidden

/-- A name in normal form is the name of nothing but itself. -/
theorem asciiName?_again {again : List Char} (hascii : ∀ c ∈ ascii, IsFolded c)
    (h : asciiName? ascii = some again) : again = ascii := by
  obtain ⟨-, labels, hlabels, rfl, -⟩ := asciiName?_eq_some.1 h
  have hread : ascii.flatMap folded = ascii := by
    rw [List.flatMap_congr fun c hc => (hascii c hc).folded_eq, List.flatMap_singleton']
  rw [hread] at hlabels
  have hsame : labels = splitOn '.' ascii := by
    refine eq_of_mapM_some (fun label hlabel written hwritten => ?_) hlabels
    exact asciiLabel?_of_ascii (fun c hc => (hascii c (mem_of_mem_splitOn hlabel hc)).1) hwritten
  rw [hsame, joinWith_splitOn]

/-! ### Four bytes -/

theorem ipv4Part?_digits {n : Nat} (h : n < 256) : ipv4Part? (Decimal.digits n) = some n := by
  have hall : ∀ n < 256, ipv4Part? (Decimal.digits n) = some n := by decide +kernel
  exact hall n h

theorem isDigit_of_mem_digits {n : Nat} (h : c ∈ Decimal.digits n) : c.isDigit = true :=
  Json.isDigit_of_mem_toDigits h

theorem labels_ipv4Text (address : Nat) : labels (ipv4Text address) =
    [0x1000000, 0x10000, 0x100, 1].map fun unit => Decimal.digits (address / unit % 256) := by
  have hparts : splitOn '.' (ipv4Text address) =
      [0x1000000, 0x10000, 0x100, 1].map fun unit => Decimal.digits (address / unit % 256) := by
    refine splitOn_joinWith (List.cons_ne_nil _ _) fun part hpart hdot => ?_
    obtain ⟨unit, -, rfl⟩ := List.mem_map.1 hpart
    exact absurd (isDigit_of_mem_digits hdot) (by decide)
  rw [labels, hparts, if_neg]
  intro hlast
  exact Nat.toDigits_ne_nil (Option.some.inj hlast)

/-- The bytes of an address are those that its text writes. -/
theorem ipv4?_ipv4Text (address : Nat) :
    ipv4? (ipv4Text address) = some (address % 0x100000000) := by
  have hpart : ∀ unit, ipv4Part? (Decimal.digits (address / unit % 256)) =
      some (address / unit % 256) := fun unit => ipv4Part?_digits (Nat.mod_lt _ (by decide))
  have hnumbers : (labels (ipv4Text address)).mapM ipv4Part? = some [address / 0x1000000 % 256,
      address / 0x10000 % 256, address / 0x100 % 256, address / 1 % 256] := by
    rw [labels_ipv4Text]
    simp only [List.map_cons, List.map_nil, List.mapM_cons, List.mapM_nil, hpart]
    rfl
  rw [ipv4?, hnumbers]
  refine (if_neg ?_).trans (congrArg some ?_)
  · rintro (hcount | hlast | hfirst)
    · exact Nat.lt_irrefl 3 hcount
    · have hlast : 256 ≤ address / 1 % 256 := hlast
      omega
    · obtain ⟨byte, hbyte, hlarge⟩ := List.any_eq_true.1 hfirst
      have hlarge := of_decide_eq_true hlarge
      simp only [List.dropLast, List.mem_cons, List.not_mem_nil, or_false] at hbyte
      omega
  · show address / 1 % 256 + address / 0x1000000 % 256 * 0x1000000 +
      address / 0x10000 % 256 * 0x10000 + address / 0x100 % 256 * 0x100 = _
    omega

theorem isNameChar_of_isDigit (h : c.isDigit = true) : IsNameChar c := by
  have hdigit : ∀ n, 48 ≤ n → n ≤ 57 → IsNameChar (Char.ofNat n) := by
    intro n hlow hhigh
    interval_cases n <;> decide
  obtain ⟨hlow, hhigh⟩ := (Bool.and_eq_true _ _).mp h
  have hself := hdigit c.toNat (of_decide_eq_true hlow) (of_decide_eq_true hhigh)
  rwa [Char.ofNat_toNat] at hself

theorem isNameChar_of_mem_ipv4Text {address : Nat} (h : c ∈ ipv4Text address) : IsNameChar c := by
  rcases of_mem_joinWith h with rfl | ⟨part, hpart, hc⟩
  · decide
  · obtain ⟨unit, -, rfl⟩ := List.mem_map.1 hpart
    exact isNameChar_of_isDigit (isDigit_of_mem_digits hc)

theorem ipv4Text_mod (address : Nat) : ipv4Text (address % 0x100000000) = ipv4Text address := by
  have hbyte : ∀ unit ∈ [0x1000000, 0x10000, 0x100, 1],
      address % 0x100000000 / unit % 256 = address / unit % 256 := by
    intro unit hunit
    simp only [List.mem_cons, List.not_mem_nil, or_false] at hunit
    rcases hunit with rfl | rfl | rfl | rfl <;> omega
  rw [ipv4Text, ipv4Text]
  exact congrArg (joinWith '.') (List.map_congr_left fun unit hunit => by rw [hbyte unit hunit])

/-! ### Reading a name -/

theorem decodeBytes_of_not_mem (h : '%' ∉ s) : decodeBytes s = s.flatMap String.utf8EncodeChar := by
  induction s with
  | nil => rfl
  | cons c rest ih =>
      obtain ⟨hc, hrest⟩ := List.ne_and_not_mem_of_not_mem_cons h
      rw [decodeBytes, ih hrest]
      · rfl
      · rintro a b tail rfl
        exact absurd rfl hc

/-- A text without escapes is the text that its bytes write. -/
theorem fromUTF8?_decodeBytes (h : '%' ∉ s) :
    String.fromUTF8? ⟨(decodeBytes s).toArray⟩ = some (String.ofList s) := by
  have hbytes : ByteArray.mk (decodeBytes s).toArray = (String.ofList s).toByteArray := by
    rw [decodeBytes_of_not_mem h, String.toByteArray_ofList, List.utf8Encode]
    exact ByteArray.ext List.data_toByteArray.symm
  rw [hbytes, String.fromUTF8?, dif_pos (String.ofList s).isValidUTF8]
  rfl

theorem IsNameChar.ne {mark : Char} (h : IsNameChar c) (hmark : isForbidden mark = true) :
    c ≠ mark := by
  rintro rfl
  rw [h.allowed] at hmark
  cases hmark

/-- A name is read as itself, unless it is an address of four bytes. -/
theorem specialHost_of_name {host : List Char} (hname : ∀ c ∈ name, IsNameChar c)
    (h : specialHost name = .ok host) :
    host = name ∨ endsInNumber name = true ∧
      ∃ address, ipv4? name = some address ∧ host = ipv4Text address := by
  have hnot : ∀ mark, isForbidden mark = true → mark ∉ name := fun mark hmark hmem =>
    (hname mark hmem).ne hmark rfl
  rw [specialHost] at h
  · rw [fromUTF8?_decodeBytes (hnot '%' (by decide))] at h
    simp only [String.toList_ofList] at h
    split at h
    · cases h
    · cases h
    · next again hagain =>
      obtain rfl := asciiName?_again (fun c hc => (hname c hc).folded) hagain
      split at h
      · next hnumber =>
        split at h
        · next address haddress =>
          cases h
          exact .inr ⟨hnumber, address, haddress, rfl⟩
        · cases h
      · cases h
        exact .inl rfl
  · rintro rest rfl
    exact hnot '[' (by decide) List.mem_cons_self

end Names

/-! ## Eight groups -/

section Groups

variable {c : Char} {s rest before after : List Char} {groups again : List Nat} {g n : Nat}

theorem hexValue?_digitChar (h : n < 16) : hexValue? n.digitChar = some n := by
  interval_cases n <;> rfl

/-- The digits of a group write the group. -/
theorem numberIn?_groupText (g : Nat) : numberIn? 16 (groupText g) = some g := by
  induction g using Nat.strong_induction_on with
  | _ g ih =>
      rw [groupText, Nat.toDigits_eq_if (by decide)]
      split
      · next hlt =>
        rw [numberIn?, List.foldlM_cons, hexValue?_digitChar hlt]
        simp [hlt]
      · next hge =>
        have hdigit : g % 16 < 16 := Nat.mod_lt _ (by decide)
        have hfront := ih (g / 16) (by omega)
        rw [groupText, numberIn?] at hfront
        rw [numberIn?, List.foldlM_append, hfront]
        show List.foldlM _ (g / 16) _ = _
        rw [List.foldlM_cons, hexValue?_digitChar hdigit]
        simp [hdigit]
        omega

theorem group?_groupText (h : group? (groupText g) = some n) : n = g := by
  rw [group?] at h
  split at h
  · cases h
  · rw [numberIn?_groupText] at h
    exact (Option.some.inj h).symm

theorem groupText_ne_nil : groupText g ≠ [] := Nat.toDigits_ne_nil

theorem mem_groupText (h : c ∈ groupText g) : ∃ n < 16, c = n.digitChar := by
  induction g using Nat.strong_induction_on with
  | _ g ih =>
      rw [groupText, Nat.toDigits_eq_if (by decide)] at h
      split at h
      · next hlt => exact ⟨g, hlt, List.mem_singleton.1 h⟩
      · rcases List.mem_append.1 h with h | h
        · exact ih (g / 16) (by omega) h
        · exact ⟨g % 16, Nat.mod_lt _ (by decide), List.mem_singleton.1 h⟩

theorem not_mem_groupText (hc : hexValue? c = none) : c ∉ groupText g := by
  intro hmem
  obtain ⟨n, hn, rfl⟩ := mem_groupText hmem
  rw [hexValue?_digitChar hn] at hc
  cases hc

/-- The texts of groups are those of nothing but these groups. -/
theorem groups?_map_groupText {last : Bool} (h : groups? last (groups.map groupText) = some again) :
    again = groups := by
  induction groups generalizing again with
  | nil => exact (Option.some.inj h).symm
  | cons g groups ih =>
      have hdot : (groupText g).contains '.' = false := by
        simpa using not_mem_groupText (c := '.') (by decide)
      cases groups with
      | nil =>
          rw [List.map_cons, List.map_nil, groups?, hdot, if_neg (by simp)] at h
          obtain ⟨n, hn, rfl⟩ := Option.map_eq_some_iff.1 h
          rw [group?_groupText hn]
      | cons next groups =>
          rw [List.map_cons, groups?] at h
          · obtain ⟨n, hn, h⟩ := Option.bind_eq_some_iff.1 h
            obtain ⟨ns, hns, h⟩ := Option.bind_eq_some_iff.1 h
            cases h
            rw [group?_groupText hn, ih hns]
          · exact List.cons_ne_nil _ _

/-! ### The gap -/

/-- Texts that stand between colons. -/
def AreParts (parts : List (List Char)) : Prop := ∀ part ∈ parts, part ≠ [] ∧ ':' ∉ part

theorem areParts_map_groupText (groups : List Nat) : AreParts (groups.map groupText) := by
  rintro _ hpart
  obtain ⟨g, -, rfl⟩ := List.mem_map.1 hpart
  exact ⟨groupText_ne_nil, not_mem_groupText (by decide)⟩

theorem colonParts_joinWith {parts : List (List Char)} (h : AreParts parts) :
    colonParts (joinWith ':' parts) = parts := by
  cases parts with
  | nil => rfl
  | cons first rest =>
      have hne : (joinWith ':' (first :: rest)).isEmpty = false := by
        obtain ⟨c, tail, rfl⟩ := List.exists_cons_of_ne_nil (h first List.mem_cons_self).1
        have hmem : c ∈ joinWith ':' ((c :: tail) :: rest) :=
          mem_joinWith List.mem_cons_self List.mem_cons_self
        simpa using List.ne_nil_of_mem hmem
      rw [colonParts, hne, if_neg Bool.false_ne_true,
        splitOn_joinWith (List.cons_ne_nil _ _) fun part hpart => (h part hpart).2]

theorem splitGap_cons (hc : c ≠ ':') :
    splitGap (c :: rest) = (splitGap rest).map fun (before, after) => (c :: before, after) := by
  rw [splitGap]
  rintro tail rfl
  exact absurd rfl hc

theorem splitGap_append (h : ':' ∉ s) (rest : List Char) :
    splitGap (s ++ rest) = (splitGap rest).map fun (before, after) => (s ++ before, after) := by
  induction s with
  | nil => exact (Option.map_id_fun' ▸ rfl)
  | cons c tail ih =>
      obtain ⟨hc, htail⟩ := List.ne_and_not_mem_of_not_mem_cons h
      rw [List.cons_append, splitGap_cons (Ne.symm hc), ih htail, Option.map_map]
      rfl

/-- A single colon is no gap. -/
theorem splitGap_colon (hc : c ≠ ':') : splitGap (':' :: c :: rest) =
    (splitGap (c :: rest)).map fun (before, after) => (':' :: before, after) := by
  rw [splitGap]
  rintro tail - htail
  exact hc (List.cons.inj htail).1

theorem exists_joinWith_cons {first : List Char} {parts : List (List Char)}
    (h : AreParts (first :: parts)) :
    ∃ c tail, joinWith ':' (first :: parts) = c :: tail ∧ c ≠ ':' := by
  obtain ⟨hne, hcolon⟩ := h first List.mem_cons_self
  obtain ⟨c, tail, rfl⟩ := List.exists_cons_of_ne_nil hne
  have hc : c ≠ ':' := fun heq => hcolon (heq ▸ List.mem_cons_self)
  cases parts with
  | nil => exact ⟨c, tail, rfl, hc⟩
  | cons next parts => exact ⟨c, _, rfl, hc⟩

/-- The first gap is behind the parts that stand before it. -/
theorem splitGap_joinWith {parts : List (List Char)} (h : AreParts parts) (after : List Char) :
    splitGap (joinWith ':' parts) = none ∧
      splitGap (joinWith ':' parts ++ ':' :: ':' :: after) = some (joinWith ':' parts, after) := by
  induction parts with
  | nil => exact ⟨rfl, rfl⟩
  | cons first parts ih =>
      have hfirst := (h first List.mem_cons_self).2
      have hparts : AreParts parts := fun part hpart => h part (List.mem_cons_of_mem _ hpart)
      cases parts with
      | nil =>
          have hnone := splitGap_append hfirst []
          rw [List.append_nil] at hnone
          refine ⟨hnone, ?_⟩
          show splitGap (first ++ ':' :: ':' :: after) = some (first, after)
          rw [splitGap_append hfirst, splitGap]
          exact congrArg some (Prod.ext (List.append_nil first) rfl)
      | cons next parts =>
          obtain ⟨hnone, hgap⟩ := ih hparts
          obtain ⟨c, tail, htext, hc⟩ := exists_joinWith_cons hparts
          have hjoin : joinWith ':' (first :: next :: parts) =
              first ++ ':' :: joinWith ':' (next :: parts) := by
            rw [joinWith]
            exact List.cons_ne_nil _ _
          rw [htext] at hnone hgap
          rw [hjoin, htext]
          refine ⟨?_, ?_⟩
          · rw [splitGap_append hfirst, splitGap_colon hc, hnone]
            rfl
          · rw [List.append_assoc, splitGap_append hfirst, List.cons_append, List.cons_append,
              splitGap_colon hc, ← List.cons_append, hgap]
            rfl

/-! ### The longest run of zeros -/

theorem eq_replicate_zeroRun (groups : List Nat) :
    groups = List.replicate (zeroRun groups) 0 ++ groups.drop (zeroRun groups) := by
  induction groups with
  | nil => rfl
  | cons g groups ih =>
      rw [zeroRun, List.takeWhile_cons]
      split
      · next hzero =>
        have hzero : g = 0 := of_decide_eq_true hzero
        rw [List.length_cons, ← zeroRun, List.replicate_succ, List.cons_append, List.drop_succ_cons,
          ← ih, hzero]
      · rfl

/-- The longest run is a run of zeros. -/
theorem longestRun_eq (groups : List Nat) :
    (longestRun groups).2 = 0 ∨
      (longestRun groups).2 = zeroRun (groups.drop (longestRun groups).1) := by
  have hfold : ∀ (places : List Nat) (best : Nat × Nat),
      best.2 = 0 ∨ best.2 = zeroRun (groups.drop best.1) →
      let run := places.foldl (fun best i =>
        let n := zeroRun (groups.drop i)
        if best.2 < n then (i, n) else best) best
      run.2 = 0 ∨ run.2 = zeroRun (groups.drop run.1) := by
    intro places
    induction places with
    | nil => exact fun best hbest => hbest
    | cons i places ih =>
        intro best hbest
        refine ih _ ?_
        simp only
        split
        · exact .inr rfl
        · exact hbest
  exact hfold _ _ (.inl rfl)

/-- Eight groups are made up of those before the longest run, the run and those after it. -/
theorem take_longestRun (groups : List Nat) :
    groups = groups.take (longestRun groups).1 ++
      (List.replicate (longestRun groups).2 0 ++
        groups.drop ((longestRun groups).1 + (longestRun groups).2)) := by
  have hdrop : groups.drop (longestRun groups).1 = List.replicate (longestRun groups).2 0 ++
      groups.drop ((longestRun groups).1 + (longestRun groups).2) := by
    rw [← List.drop_drop]
    rcases longestRun_eq groups with hnone | hrun
    · rw [hnone]
      rfl
    · rw [hrun]
      exact eq_replicate_zeroRun _
  rw [← hdrop, List.take_append_drop]

theorem length_of_ipv6? (h : ipv6? s = some groups) : groups.length = 8 := by
  rw [ipv6?] at h
  split at h
  · obtain ⟨gs, -, h⟩ := Option.bind_eq_some_iff.1 h
    split at h
    · next hlength =>
      cases h
      exact hlength
    · cases h
  · obtain ⟨left, -, h⟩ := Option.bind_eq_some_iff.1 h
    obtain ⟨right, -, h⟩ := Option.bind_eq_some_iff.1 h
    split at h
    · cases h
      simp only [List.length_append, List.length_replicate]
      omega
    · cases h

theorem colonParts_groupTexts (groups : List Nat) :
    colonParts (joinWith ':' (groups.map groupText)) = groups.map groupText :=
  colonParts_joinWith (areParts_map_groupText groups)

theorem ipv6?_of_whole (h : ipv6? (joinWith ':' (groups.map groupText)) = some again) :
    again = groups := by
  rw [ipv6?, (splitGap_joinWith (areParts_map_groupText groups) []).1] at h
  obtain ⟨gs, hgs, hagain⟩ := Option.bind_eq_some_iff.1 h
  rw [colonParts_groupTexts] at hgs
  rw [groups?_map_groupText hgs] at hagain
  split at hagain
  · exact (Option.some.inj hagain).symm
  · cases hagain

theorem ipv6?_of_gap {left right : List Nat}
    (h : ipv6? (joinWith ':' (left.map groupText) ++ [':', ':'] ++
      joinWith ':' (right.map groupText)) = some again) :
    again = left ++ List.replicate (8 - left.length - right.length) 0 ++ right := by
  rw [List.append_assoc, List.cons_append, List.cons_append, List.nil_append, ipv6?,
    (splitGap_joinWith (areParts_map_groupText left) _).2] at h
  obtain ⟨gs, hgs, hrest⟩ := Option.bind_eq_some_iff.1 h
  obtain ⟨gs', hgs', hagain⟩ := Option.bind_eq_some_iff.1 hrest
  rw [colonParts_groupTexts] at hgs hgs'
  rw [groups?_map_groupText hgs, groups?_map_groupText hgs'] at hagain
  split at hagain
  · exact (Option.some.inj hagain).symm
  · cases hagain

/-- The text of eight groups is that of nothing but these groups. -/
theorem ipv6?_ipv6Text (hlength : groups.length = 8) (h : ipv6? (ipv6Text groups) = some again) :
    again = groups := by
  have hsplit := take_longestRun groups
  rw [ipv6Text] at h
  generalize longestRun groups = run at h hsplit
  obtain ⟨start, length⟩ := run
  simp only at h hsplit
  split at h
  · exact ipv6?_of_whole h
  · have hparts := congrArg List.length hsplit
    simp only [List.length_append, List.length_replicate] at hparts
    rw [ipv6?_of_gap h, List.append_assoc]
    conv_rhs => rw [hsplit]
    congr 3
    omega

theorem mem_ipv6Text (h : c ∈ ipv6Text groups) : c = ':' ∨ ∃ n < 16, c = n.digitChar := by
  have hjoined : ∀ gs : List Nat, c ∈ joinWith ':' (gs.map groupText) →
      c = ':' ∨ ∃ n < 16, c = n.digitChar := by
    intro gs hc
    rcases of_mem_joinWith hc with rfl | ⟨part, hpart, hc⟩
    · exact .inl rfl
    · obtain ⟨g, -, rfl⟩ := List.mem_map.1 hpart
      exact .inr (mem_groupText hc)
  rw [ipv6Text] at h
  generalize longestRun groups = run at h
  obtain ⟨start, length⟩ := run
  simp only at h
  split at h
  · exact hjoined _ h
  · rcases List.mem_append.1 h with h | h
    · rcases List.mem_append.1 h with h | h
      · exact hjoined _ h
      · simp only [List.mem_cons, List.not_mem_nil, or_false, or_self] at h
        exact .inl h
    · exact hjoined _ h

end Groups

/-! ## Hosts -/

section Hosts

variable {special : Bool} {c : Char} {s host other : List Char} {groups : List Nat}

/-- The host that a text writes in a scheme that is special or not. -/
def readHost (special : Bool) (s : List Char) : Except UrlError (List Char) :=
  if special then specialHost s else opaqueHost s

/-- A character that can stand in a host: it can be seen, and does not end the part
before the path or the user in it. -/
structure IsHostChar (c : Char) : Prop where
  visible : isUnwritable c = false
  inside : endsAuthority true c = false
  noUser : c ≠ '@'

instance (c : Char) : Decidable (IsHostChar c) :=
  decidable_of_iff (isUnwritable c = false ∧ endsAuthority true c = false ∧ c ≠ '@')
    ⟨fun h => ⟨h.1, h.2.1, h.2.2⟩, fun h => ⟨h.1, h.2, h.3⟩⟩

/-- A host in normal form: it is read as itself if at all, and colons are in brackets. -/
structure IsHost (special : Bool) (host : List Char) : Prop where
  ne_nil : special = true → host ≠ []
  again : ∀ other, readHost special host = .ok other → other = host
  chars : ∀ c ∈ host, IsHostChar c
  colons : (∀ c ∈ [':', '[', ']'], c ∉ host) ∨
    ∃ inner, host = '[' :: (inner ++ [']']) ∧ '[' ∉ inner ∧ ']' ∉ inner

theorem isHostChar_of_allowed (hvisible : isUnwritable c = false)
    (h : isForbidden c = false ∨ c = '%') : IsHostChar c := by
  rcases h with hallowed | rfl
  · refine ⟨hvisible, Bool.eq_false_iff.2 fun hends => ?_, ?_⟩
    · simp only [endsAuthority, Bool.or_eq_true, Bool.and_eq_true, decide_eq_true_eq] at hends
      rcases hends with ((rfl | rfl) | rfl) | ⟨-, rfl⟩
      · exact absurd hallowed (by decide)
      · exact absurd hallowed (by decide)
      · exact absurd hallowed (by decide)
      · exact absurd hallowed (by decide)
    · rintro rfl
      exact absurd hallowed (by decide)
  · decide

theorem IsNameChar.isHostChar (h : IsNameChar c) : IsHostChar c := by
  refine isHostChar_of_allowed ?_ (.inl h.allowed)
  have hlow := h.folded.1
  have hallowed := h.allowed
  simp only [isForbidden, Bool.or_eq_false_iff, decide_eq_false_iff_not] at hallowed
  simp only [isUnwritable, Bool.or_eq_false_iff, decide_eq_false_iff_not]
  omega

theorem isHost_bracketed {inner : List Char} (h : bracketed inner = .ok host) :
    IsHost special host := by
  obtain ⟨groups, hlength, rfl⟩ : ∃ groups : List Nat, groups.length = 8 ∧
      host = '[' :: (ipv6Text groups ++ [']']) := by
    rw [bracketed] at h
    split at h
    · split at h
      · next groups hgroups =>
        cases h
        exact ⟨groups, length_of_ipv6? hgroups, rfl⟩
      · cases h
    · cases h
  have hmem : ∀ c ∈ ipv6Text groups, IsHostChar c ∧ c ≠ '[' ∧ c ≠ ']' := by
    have hdigit : ∀ n < 16, IsHostChar n.digitChar ∧ n.digitChar ≠ '[' ∧ n.digitChar ≠ ']' := by
      decide
    intro c hc
    rcases mem_ipv6Text hc with rfl | ⟨n, hn, rfl⟩
    · decide
    · exact hdigit n hn
  refine ⟨fun _ => List.cons_ne_nil _ _, fun other hother => ?_, ?_,
    .inr ⟨_, rfl, fun hc => (hmem _ hc).2.1 rfl, fun hc => (hmem _ hc).2.2 rfl⟩⟩
  · have hbracketed : bracketed (ipv6Text groups ++ [']']) = .ok other := by
      cases special with
      | true => exact hother
      | false => exact hother
    rw [bracketed, List.getLast?_concat, List.dropLast_concat] at hbracketed
    simp only at hbracketed
    split at hbracketed
    · next again hagain =>
      cases hbracketed
      rw [ipv6?_ipv6Text hlength hagain]
      rfl
    · cases hbracketed
  · refine List.forall_mem_cons.2 ⟨by decide, List.forall_mem_append.2 ⟨?_, ?_⟩⟩
    · exact fun c hc => (hmem c hc).1
    · exact List.forall_mem_singleton.2 (by decide)

/-- A host without brackets, all of whose characters are allowed. -/
theorem isHost_of_allowed (hne : special = true → host ≠ [])
    (hagain : ∀ other, readHost special host = .ok other → other = host)
    (h : ∀ c ∈ host, isUnwritable c = false ∧ (isForbidden c = false ∨ c = '%')) :
    IsHost special host := by
  refine ⟨hne, hagain, fun c hc => isHostChar_of_allowed (h c hc).1 (h c hc).2, .inl ?_⟩
  intro mark hmark hmem
  have hallowed := (h mark hmem).2
  simp only [List.mem_cons, List.not_mem_nil, or_false] at hmark
  rcases hmark with rfl | rfl | rfl
  · exact absurd hallowed (by decide)
  · exact absurd hallowed (by decide)
  · exact absurd hallowed (by decide)

theorem isHost_of_name (hne : host ≠ [])
    (hagain : ∀ other, readHost special host = .ok other → other = host)
    (h : ∀ c ∈ host, IsNameChar c) : IsHost special host :=
  isHost_of_allowed (fun _ => hne) hagain fun c hc =>
    ⟨(h c hc).isHostChar.visible, .inl (h c hc).allowed⟩

theorem isHost_of_specialHost (h : specialHost s = .ok host) : IsHost true host := by
  unfold specialHost at h
  split at h
  · exact isHost_bracketed h
  · split at h
    · cases h
    · split at h
      · cases h
      · cases h
      · next name hne hname =>
        split at h
        · split at h
          · next address haddress =>
            cases h
            have hchars : ∀ c ∈ ipv4Text address, IsNameChar c := fun c =>
              isNameChar_of_mem_ipv4Text
            have hne : ipv4Text address ≠ [] := by
              intro hnil
              have hlabels := labels_ipv4Text address
              rw [hnil] at hlabels
              cases hlabels
            refine isHost_of_name hne (fun other hother => ?_) hchars
            rcases specialHost_of_name hchars hother with hsame | ⟨-, again, hagain, rfl⟩
            · exact hsame
            · rw [ipv4?_ipv4Text, Option.some.injEq] at hagain
              rw [← hagain, ipv4Text_mod]
          · cases h
        · next hnumber =>
          cases h
          have hchars := isNameChar_of_asciiName? hname
          refine isHost_of_name hne (fun other hother => ?_) hchars
          rcases specialHost_of_name hchars hother with hsame | ⟨hends, -⟩
          · exact hsame
          · exact absurd hends hnumber

theorem isHost_of_opaqueHost (h : opaqueHost s = .ok host) : IsHost false host := by
  unfold opaqueHost at h
  split at h
  · exact isHost_bracketed h
  · split at h
    · cases h
    · next hallowed =>
      cases h
      have hplain : ∀ c ∈ encode [] s, encodeChar [] c = [c] := fun c hc =>
        (mem_encode (by decide) hc).1
      have hchars : ∀ c ∈ encode [] s,
          isUnwritable c = false ∧ (isForbidden c = false ∨ c = '%') := by
        intro c hc
        have hvisible := (of_plain (hplain c hc)).1
        refine ⟨hvisible, ?_⟩
        rcases (mem_encode (by decide) hc).2 with hmem | rfl | ⟨n, hn, rfl⟩
        · rw [Bool.not_eq_true, List.any_eq_false] at hallowed
          have hc := hallowed c hmem
          simp only [hvisible, Bool.not_false, Bool.and_true, Bool.or_eq_true, Bool.and_eq_true,
            bne_iff_ne, decide_eq_true_eq, not_or, not_and, not_not] at hc
          rcases Bool.eq_false_or_eq_true (isForbidden c) with hforbidden | hfree
          · exact .inr (hc.1 hforbidden)
          · exact .inl hfree
        · exact .inr rfl
        · have hdigit : ∀ n < 16, isForbidden (hexDigit n) = false := by decide
          exact .inl (hdigit n hn)
      refine isHost_of_allowed (fun h => nomatch h) (fun other hother => ?_) hchars
      have hother : opaqueHost (encode [] s) = .ok other := hother
      unfold opaqueHost at hother
      split at hother
      · next rest hbracket =>
        have hmem : '[' ∈ encode [] s := hbracket ▸ List.mem_cons_self
        exact absurd (hchars '[' hmem).2 (by decide)
      · split at hother
        · cases hother
        · cases hother
          exact encode_eq_self hplain

theorem isHost_of_readHost (h : readHost special s = .ok host) : IsHost special host := by
  cases special with
  | true => exact isHost_of_specialHost h
  | false => exact isHost_of_opaqueHost h

end Hosts
end CaseAccess.Url
