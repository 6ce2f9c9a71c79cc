import CaseAccess.Proofs.AuthorityText

/-!
# Addresses in normal form

Of an address that was read more is known than of any record of its parts: its scheme is in
lower case, its authority is one that is read as itself, its segments contain no slash and
lead nowhere, and its query and fragment are not encoded any further. That is `IsNormal`,
and every address that is read and has segments has it, except that of a file, whose first
segment can be a drive.

What is known of the parts says what is read of texts that begin with them. A path that is
written again is divided into the same segments, and these are resolved to themselves, so
what follows them is resolved from there. And one path is written below another just if its
segments are: two texts cannot agree up to a slash and differ in a segment before it.
-/

namespace CaseAccess.Url

section Schemes

variable {c : Char} {s scheme rest : List Char}

theorem isSchemeChar_lower (h : isSchemeChar c = true) :
    isSchemeChar c.toLower = true ∧ c.toLower.toLower = c.toLower ∧
      isUnwritable c.toLower = false ∧ (c.isAlpha = true → c.toLower.isAlpha = true) := by
  have hall : ∀ n < 128, isSchemeChar (Char.ofNat n) = true →
      isSchemeChar (Char.ofNat n).toLower = true ∧
        (Char.ofNat n).toLower.toLower = (Char.ofNat n).toLower ∧
        isUnwritable (Char.ofNat n).toLower = false ∧
        ((Char.ofNat n).isAlpha = true → (Char.ofNat n).toLower.isAlpha = true) := by
    decide +kernel
  have hascii : c.toNat < 128 := by
    simp only [isSchemeChar, Bool.or_eq_true, decide_eq_true_eq] at h
    rcases h with ((h | rfl) | rfl) | rfl
    · have hrange := toNat_of_isAlphanum h
      omega
    · decide
    · decide
    · decide
  have hc := hall c.toNat hascii
  rw [Char.ofNat_toNat] at hc
  exact hc h

/-- A scheme in normal form. -/
structure IsScheme (scheme : List Char) : Prop where
  chars : ∀ c ∈ scheme, isSchemeChar c = true ∧ c.toLower = c ∧ isUnwritable c = false
  letter : ∃ c rest, scheme = c :: rest ∧ c.isAlpha = true

theorem isScheme_of_scheme? (h : scheme? s = some (scheme, rest)) : IsScheme scheme := by
  cases s with
  | nil => cases h
  | cons c tail =>
      simp only [scheme?] at h
      split at h
      · next hc =>
        split at h
        · cases h
          have hscheme : isSchemeChar c = true := by
            simp only [isSchemeChar, Char.isAlphanum, hc, Bool.true_or]
          refine ⟨fun d hd => ?_, ?_⟩
          · obtain ⟨e, he, rfl⟩ := List.mem_map.1 hd
            have hlower := isSchemeChar_lower (List.mem_takeWhile_imp he)
            exact ⟨hlower.1, hlower.2.1, hlower.2.2.1⟩
          · rw [List.takeWhile_cons, if_pos hscheme, List.map_cons]
            exact ⟨_, _, rfl, (isSchemeChar_lower hscheme).2.2.2 hc⟩
        · cases h
      · cases h

theorem IsScheme.scheme?_eq (h : IsScheme scheme) (rest : List Char) :
    scheme? (scheme ++ ':' :: rest) = some (scheme, rest) := by
  obtain ⟨c, tail, rfl, hc⟩ := h.letter
  have hall : ∀ d ∈ c :: tail, isSchemeChar d = true := fun d hd => (h.chars d hd).1
  have hcolon : isSchemeChar ':' = false := by decide
  have htake : (c :: tail ++ ':' :: rest).takeWhile isSchemeChar = c :: tail := by
    rw [List.takeWhile_append_of_pos hall, List.takeWhile_cons, hcolon, if_neg Bool.false_ne_true,
      List.append_nil]
  have hdrop : (c :: tail ++ ':' :: rest).dropWhile isSchemeChar = ':' :: rest := by
    rw [List.dropWhile_append_of_pos hall, List.dropWhile_cons, hcolon, if_neg Bool.false_ne_true]
  have hlower : (c :: tail).map Char.toLower = c :: tail :=
    (List.map_congr_left fun d hd => (h.chars d hd).2.1).trans (List.map_id _)
  rw [List.cons_append] at htake hdrop ⊢
  simp only [scheme?, hc, if_true, hdrop, htake, hlower]

end Schemes

section Paths

variable {special : Bool} {segment tail : List Char}
  {segments directory path raw : List (List Char)}

/-- The segments of a path before its last slash, or all if no name comes after it. -/
def directoryOf (segments : List (List Char)) : List (List Char) :=
  if segments.getLast? = some [] then segments.dropLast else segments

theorem areSegments_directoryOf (h : AreSegments special segments) :
    AreSegments special (directoryOf segments) := by
  rw [directoryOf]
  split
  · exact fun s hs => h s ((List.dropLast_sublist _).subset hs)
  · exact h

theorem addSegment_of_areSegments {last : Bool} (h : segment = [] ∨ IsSegment special segment) :
    addSegment false path segment last = path ++ [segment] := by
  rcases h with rfl | h
  · rfl
  · exact addSegment_of_isSegment h rfl

theorem walk_of_areSegments (h : AreSegments special directory) :
    walk false path directory = path ++ directory := by
  induction directory generalizing path with
  | nil => exact (List.append_nil path).symm
  | cons s directory ih =>
      have hstep : walk false path (s :: directory) =
          walk false (addSegment false path s false) directory := rfl
      rw [hstep, addSegment_of_areSegments (h s List.mem_cons_self),
        ih fun s hs => h s (List.mem_cons_of_mem _ hs), List.append_assoc]
      rfl

/-- What is written below a directory is resolved from there. -/
theorem resolve_below (h : AreSegments special directory) (hraw : raw ≠ []) :
    resolve false [] (directory ++ raw) = resolve false directory raw := by
  obtain ⟨s, rest, rfl⟩ := List.exists_cons_of_ne_nil hraw
  rw [resolve_append, walk_of_areSegments h, List.nil_append]

/-- Segments are resolved to themselves. -/
theorem resolve_self (h : AreSegments special segments) (hne : segments ≠ []) :
    resolve false [] segments = segments := by
  obtain ⟨front, last, rfl⟩ := (List.eq_nil_or_concat' segments).resolve_left hne
  have hfront : AreSegments special front := fun s hs => h s (List.mem_append_left _ hs)
  rw [resolve_below hfront (List.cons_ne_nil _ _), resolve]
  exact addSegment_of_areSegments (h last (by simp))

theorem isRaw_of_areSegments (h : segment = [] ∨ IsSegment special segment) :
    IsRaw special segment := by
  rcases h with rfl | h
  · exact ⟨List.not_mem_nil, fun _ => List.not_mem_nil⟩
  · exact h.isRaw

theorem slashed_slash (segments : List (List Char)) (rest : List Char) :
    slashed segments ++ '/' :: rest = '/' :: (slashed segments ++ '/' :: rest).drop 1 := by
  cases segments <;> rfl

theorem rawSegments_slashed (h : AreSegments special directory) (tail : List Char) :
    rawSegments special ((slashed directory ++ '/' :: tail).drop 1) =
      directory ++ rawSegments special tail := by
  induction directory with
  | nil => rfl
  | cons s directory ih =>
      have hrest : AreSegments special directory := fun s hs => h s (List.mem_cons_of_mem _ hs)
      have hsplit : (slashed (s :: directory) ++ '/' :: tail).drop 1 =
          s ++ '/' :: (slashed directory ++ '/' :: tail).drop 1 := by
        rw [← slashed_slash]
        simp [slashed]
      rw [hsplit, rawSegments_append, ih hrest,
        rawSegments_of_isRaw (isRaw_of_areSegments (h s List.mem_cons_self))]
      rfl

/-- The text of segments is divided into them again. -/
theorem rawSegments_self (h : AreSegments special segments) (hne : segments ≠ []) :
    rawSegments special ((slashed segments).drop 1) = segments := by
  obtain ⟨front, last, rfl⟩ := (List.eq_nil_or_concat' segments).resolve_left hne
  have hlast := h last (by simp)
  have htext : slashed (front ++ [last]) = slashed front ++ '/' :: last := by simp [slashed]
  rw [htext, rawSegments_slashed fun s hs => h s (List.mem_append_left _ hs),
    rawSegments_of_isRaw (isRaw_of_areSegments hlast)]

theorem rawSegments_ne_nil : rawSegments special tail ≠ [] := splitOn_ne_nil

/-! ### Texts of paths -/

/-- A character that a segment has not. -/
def EndsSegment (c : Char) : Prop := c = '/' ∨ c = '?' ∨ c = '#'

instance (c : Char) : Decidable (EndsSegment c) := inferInstanceAs (Decidable (_ ∨ _ ∨ _))

theorem not_endsSegment {c : Char} (h : segment = [] ∨ IsSegment special segment)
    (hc : c ∈ segment) : ¬ EndsSegment c := by
  rcases h with rfl | h
  · cases hc
  · rintro (rfl | rfl | rfl)
    · exact h.noSlash hc
    · exact absurd (h.plain _ hc) (by decide)
    · exact absurd (h.plain _ hc) (by decide)

/-- Nothing, or a text that is not part of a segment, and begins no other. -/
def EndsPath (tail : List Char) : Prop := ∀ c ∈ tail.head?, c = '?' ∨ c = '#'

theorem endsSegment_head (segments : List (List Char)) (h : ∀ c ∈ tail.head?, EndsSegment c) :
    ∀ c ∈ (slashed segments ++ tail).head?, EndsSegment c := by
  intro c hc
  cases segments with
  | nil => exact h c hc
  | cons s segments =>
      cases hc
      exact .inl rfl

/-- Where two texts agree up to what ends a segment, so do the segments. -/
theorem eq_of_prefix_segment {s t rest tail : List Char} (hs : ∀ c ∈ s, ¬ EndsSegment c)
    (ht : ∀ c ∈ t, ¬ EndsSegment c) (htail : ∀ c ∈ tail.head?, EndsSegment c)
    (h : s ++ '/' :: rest <+: t ++ tail) : s = t ∧ '/' :: rest <+: tail := by
  induction s generalizing t with
  | nil =>
      cases t with
      | nil => exact ⟨rfl, h⟩
      | cons d t =>
          obtain ⟨rfl, -⟩ := List.cons_prefix_cons.1 h
          exact absurd (.inl rfl) (ht '/' List.mem_cons_self)
  | cons c s ih =>
      cases t with
      | nil =>
          cases tail with
          | nil => cases List.prefix_nil.1 h
          | cons d tail =>
              obtain ⟨rfl, -⟩ := List.cons_prefix_cons.1 h
              exact absurd (htail c rfl) (hs c List.mem_cons_self)
      | cons d t =>
          obtain ⟨rfl, hcons⟩ := List.cons_prefix_cons.1 h
          obtain ⟨rfl, hrest⟩ := ih (fun e he => hs e (List.mem_cons_of_mem _ he))
            (fun e he => ht e (List.mem_cons_of_mem _ he)) hcons
          exact ⟨rfl, hrest⟩

theorem not_prefix_of_endsPath {rest : List Char} (h : EndsPath tail) :
    ¬ '/' :: rest <+: tail := by
  intro hslash
  cases tail with
  | nil => cases List.prefix_nil.1 hslash
  | cons c tail =>
      obtain ⟨rfl, -⟩ := List.cons_prefix_cons.1 hslash
      exact absurd (h '/' rfl) (by decide)

theorem slashed_cons_append (s : List Char) (segments : List (List Char)) (more : List Char) :
    slashed (s :: segments) ++ more = '/' :: (s ++ (slashed segments ++ more)) := by
  simp [slashed]

/-- A path is written below a directory just if its segments are. -/
theorem slashed_prefix_iff (hdirectory : AreSegments special directory)
    (hpath : AreSegments special path) (htail : EndsPath tail) :
    slashed directory ++ ['/'] <+: slashed path ++ tail ↔
      ∃ below, below ≠ [] ∧ path = directory ++ below := by
  constructor
  · intro h
    induction directory generalizing path with
    | nil =>
        refine ⟨path, ?_, rfl⟩
        rintro rfl
        exact not_prefix_of_endsPath htail h
    | cons s directory ih =>
        rw [slashed_cons_append, slashed_slash] at h
        cases path with
        | nil => exact absurd h (not_prefix_of_endsPath htail)
        | cons t path =>
            rw [slashed_cons_append] at h
            obtain ⟨rfl, hlater⟩ := eq_of_prefix_segment
              (fun c => not_endsSegment (hdirectory s List.mem_cons_self))
              (fun c => not_endsSegment (hpath t List.mem_cons_self))
              (endsSegment_head path fun c hc => .inr (htail c hc)) (List.cons_prefix_cons.1 h).2
            rw [← slashed_slash] at hlater
            obtain ⟨below, hne, rfl⟩ := ih
              (fun s hs => hdirectory s (List.mem_cons_of_mem _ hs))
              (fun s hs => hpath s (List.mem_cons_of_mem _ hs)) hlater
            exact ⟨below, hne, rfl⟩
  · rintro ⟨below, hne, rfl⟩
    obtain ⟨s, rest, rfl⟩ := List.exists_cons_of_ne_nil hne
    refine ⟨s ++ (slashed rest ++ tail), ?_⟩
    simp [slashed]

end Paths

section Normal

variable {scheme s rest more : List Char} {u : Url} {query fragment : Option (List Char)}
  {path raw : List (List Char)}

/-- What is not plain in the query of a scheme. -/
def querySetOf (scheme : List Char) : List Char :=
  if isSpecial scheme then specialQuerySet else querySet

/-- A text is not encoded any further. -/
def IsEncoded (extra s : List Char) : Prop := ∀ c ∈ s, encodeChar extra c = [c]

theorem keepsBytes_querySetOf (scheme : List Char) : KeepsBytes (querySetOf scheme) := by
  rw [querySetOf]
  split <;> decide

theorem isEncoded_encode {extra : List Char} (hextra : KeepsBytes extra) (s : List Char) :
    IsEncoded extra (encode extra s) := fun _ hc => (mem_encode hextra hc).1

theorem resolve_ne_nil (h : raw ≠ []) : resolve false path raw ≠ [] := by
  fun_induction resolve false path raw with
  | case1 => exact absurd rfl h
  | case2 path segment =>
      rw [addSegment]
      split
      · exact List.append_ne_nil_of_right_ne_nil _ (List.cons_ne_nil _ _)
      · split
        · exact List.append_ne_nil_of_right_ne_nil _ (List.cons_ne_nil _ _)
        · split <;> exact List.append_ne_nil_of_right_ne_nil _ (List.cons_ne_nil _ _)
  | case3 path segment rest hrest ih => exact ih hrest

/-- An address that has been read and is not that of a file. -/
structure IsNormal (u : Url) : Prop where
  isScheme : IsScheme u.scheme
  isAuthority : ∀ a, u.authority = some a → ∃ s atEnd, readAuthority u.scheme s atEnd = .ok a
  areSegments : AreSegments (isSpecial u.scheme) u.segments
  hasSegments : isSpecial u.scheme = true ∨ u.authority = none → u.segments ≠ []
  hasAuthority : isSpecial u.scheme = true → u.authority ≠ none
  path_eq : u.path = .segments u.segments
  query : ∀ q, u.query = some q → IsEncoded (querySetOf u.scheme) q
  fragment : ∀ f, u.fragment = some f → IsEncoded fragmentSet f

theorem isNormal_build {authority : Option (List Char)} (hscheme : IsScheme scheme)
    (hauthority : ∀ a, authority = some a → ∃ s atEnd, readAuthority scheme s atEnd = .ok a)
    (hpath : AreSegments (isSpecial scheme) path)
    (hne : isSpecial scheme = true ∨ authority = none → path ≠ [])
    (hspecial : isSpecial scheme = true → authority ≠ none) :
    IsNormal (build scheme authority (.segments path) query fragment) where
  isScheme := hscheme
  isAuthority := hauthority
  areSegments := hpath
  hasSegments := hne
  hasAuthority := hspecial
  path_eq := rfl
  query q hq := by
    obtain ⟨text, -, rfl⟩ := Option.map_eq_some_iff.1 hq
    exact isEncoded_encode (keepsBytes_querySetOf scheme) text
  fragment f hf := by
    obtain ⟨text, -, rfl⟩ := Option.map_eq_some_iff.1 hf
    exact isEncoded_encode (by decide) text

theorem pathSegments_of_not_file (hfile : scheme ≠ "file".toList) (s : List Char) :
    pathSegments scheme s = resolve false [] (rawSegments (isSpecial scheme) s) := by
  rw [pathSegments_eq, if_neg hfile]

theorem isNormal_afterSlashes (hscheme : IsScheme scheme) (hfile : scheme ≠ "file".toList)
    (h : afterSlashes scheme s = .ok u) : IsNormal u := by
  have hsegments := areSegments_afterSlashes h
  obtain ⟨authority, hauthority, h⟩ := except_of_bind_ok h
  cases h
  refine isNormal_build hscheme ?_ hsegments ?_ fun _ => by simp
  · intro a ha
    cases ha
    exact ⟨_, _, hauthority⟩
  · rintro (hspecial | hnone)
    · split
      · rw [if_pos hspecial]
        exact List.cons_ne_nil _ _
      · rw [pathSegments_of_not_file hfile]
        exact resolve_ne_nil rawSegments_ne_nil
      · rw [pathSegments_of_not_file hfile]
        exact resolve_ne_nil rawSegments_ne_nil
    · cases hnone

theorem isNormal_of_ofText (h : ofText s = .ok u) (hlisted : u.isOpaque = false)
    (hfile : u.scheme ≠ "file".toList) : IsNormal u := by
  simp only [ofText] at h
  split at h
  · cases h
  · next scheme rest hread =>
    have hscheme : IsScheme scheme := isScheme_of_scheme? hread
    clear hread
    split at h
    · exact absurd (scheme_of_ofFile h).1 hfile
    · next hother =>
      split at h
      · exact isNormal_afterSlashes hscheme hother h
      · next hspecial =>
        split at h
        · exact isNormal_afterSlashes hscheme hother h
        · cases h
          refine isNormal_build hscheme (fun a ha => by cases ha) (areSegments_pathSegments _ _) ?_
            fun h => absurd h hspecial
          rw [pathSegments_of_not_file hother]
          exact fun _ => resolve_ne_nil rawSegments_ne_nil
        · cases h
          cases hlisted

/-! ### Queries and fragments -/

theorem splitTail_fragment (text : List Char) : splitTail ('#' :: text) = ([], none, some text) :=
  rfl

theorem splitTail_query (h : '#' ∉ s) (rest : List Char) :
    splitTail ('?' :: (s ++ rest)) =
      ([], some (s ++ (rest.span (· ≠ '#')).1), (splitTail rest).2.2) := by
  have hspan : ('?' :: (s ++ rest)).span (· ≠ '#') =
      ('?' :: (s ++ (rest.span (· ≠ '#')).1), (rest.span (· ≠ '#')).2) := by
    have hmark : '#' ∉ '?' :: s := List.not_mem_cons_of_ne_of_not_mem (by decide) h
    exact span_append (ne_of_not_mem hmark) rest
  simp only [splitTail, hspan]
  rfl

end Normal

end CaseAccess.Url
