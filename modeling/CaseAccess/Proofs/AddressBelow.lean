import CaseAccess.Proofs.NormalAddress

/-!
# Addresses below a root

A root is the text of an address with a slash at its end. Whether another address is below
it is asked of texts: its own, or the one that it was read from. The two answers need not
be the same. What is written behind a root is read again as a whole, and the segments in it
can lead out of the path of the root.

Here it is said when they do. Reading stops at the end of each part of the root, since that
part is in normal form, so the scheme and the authority come back and only the path is left.
There the segments that are written are resolved from the directory of the root, and the
address is below the root just if they end up below that directory (`StaysBelow`). Segments
none of which is two points always do. A root that ends in a query or a fragment cannot be
left at all: everything behind it goes on with that.

Two kinds of roots are read in another way. A path without an authority that begins with an
empty segment has a point before it, which is no part of it. And a root that is a scheme
with slashes and nothing more has no path that could be left.
-/

namespace CaseAccess.Url

section Roots

variable {scheme s a rest tail more : List Char} {root url : Url}
  {directory raw : List (List Char)} {special : Bool} {segments : List (List Char)}

/-! ## The text of a root -/

theorem not_mem_slashed (h : AreSegments special segments) {c : Char}
    (hc : c = '?' ∨ c = '#') : c ∉ slashed segments := by
  intro hmem
  obtain ⟨segment, hsegment, hmem⟩ := List.mem_flatMap.1 hmem
  rcases List.mem_cons.1 hmem with rfl | hmem
  · exact absurd hc (by decide)
  · exact not_endsSegment (h segment hsegment) hmem (.inr hc)

theorem getLast?_ne_slash (h : segments ≠ []) (hsegments : AreSegments special segments)
    (hlast : segments.getLast? ≠ some []) (front : List Char) :
    (front ++ slashed segments).getLast? ≠ some '/' := by
  obtain ⟨init, last, rfl⟩ := (List.eq_nil_or_concat' segments).resolve_left h
  rw [List.getLast?_concat] at hlast
  have hne : last ≠ [] := fun hnil => hlast (congrArg some hnil)
  have htext : front ++ slashed (init ++ [last]) = (front ++ slashed init ++ ['/']) ++ last := by
    simp [slashed]
  rw [htext, List.getLast?_append_of_ne_nil _ hne]
  intro hslash
  have hmem := List.mem_of_getLast? hslash
  exact not_endsSegment (hsegments last (by simp)) hmem (.inl rfl)

/-- A path with a slash at its end is the text of its directory. -/
theorem withSlash_slashed {front : List Char} (hsegments : AreSegments special segments)
    (h : segments ≠ [] ∨ front.getLast? ≠ some '/') :
    withSlash (front ++ slashed segments) = front ++ (slashed (directoryOf segments) ++ ['/']) := by
  rw [directoryOf]
  split
  · next hempty =>
    obtain ⟨init, rfl⟩ := List.getLast?_eq_some_iff.1 hempty
    have htext : front ++ slashed (init ++ [[]]) = (front ++ slashed init) ++ ['/'] := by
      simp [slashed]
    rw [htext, withSlash, List.getLast?_concat, if_pos rfl, List.dropLast_concat, List.append_assoc]
  · next hlast =>
    rw [withSlash, if_neg, List.append_assoc]
    cases segments with
    | nil =>
        rw [slashed, List.flatMap_nil, List.append_nil]
        exact h.resolve_left fun hne => hne rfl
    | cons s segments => exact getLast?_ne_slash (List.cons_ne_nil _ _) hsegments hlast front

theorem withSlash_cases (s : List Char) : ∃ slash, (slash = [] ∨ slash = ['/']) ∧
    withSlash s = s ++ slash := by
  rw [withSlash]
  split
  · exact ⟨[], .inl rfl, (List.append_nil s).symm⟩
  · exact ⟨['/'], .inr rfl, rfl⟩

/-- There is neither a query nor a fragment behind the path. -/
def EndsInPath (u : Url) : Prop := u.query = none ∧ u.fragment = none

/-- The query and fragment of an address, with their marks. -/
def tailText (u : Url) : List Char := marked '?' u.query ++ marked '#' u.fragment

theorem endsPath_tailText (u : Url) : EndsPath u.tailText := by
  intro c hc
  rw [tailText] at hc
  cases hquery : u.query with
  | some q =>
      rw [hquery] at hc
      cases hc
      exact .inl rfl
  | none =>
      rw [hquery] at hc
      cases hfragment : u.fragment with
      | some f =>
          rw [hfragment] at hc
          cases hc
          exact .inr rfl
      | none =>
          rw [hfragment] at hc
          cases hc

theorem tailText_eq_nil (h : root.EndsInPath) : root.tailText = [] := by
  rw [tailText, h.1, h.2]
  rfl

theorem tailText_ne_nil (h : ¬ root.EndsInPath) : root.tailText ≠ [] := by
  rw [tailText]
  cases hquery : root.query with
  | some q => exact List.cons_ne_nil _ _
  | none =>
      cases hfragment : root.fragment with
      | some f => exact List.cons_ne_nil _ _
      | none => exact absurd ⟨hquery, hfragment⟩ h

theorem isEncoded_slash {slash : List Char} (h : slash = [] ∨ slash = ['/'])
    (scheme : List Char) : IsEncoded (querySetOf scheme) slash ∧ IsEncoded fragmentSet slash := by
  rcases h with rfl | rfl
  · exact ⟨List.forall_mem_nil _, List.forall_mem_nil _⟩
  · refine ⟨List.forall_mem_singleton.2 ?_, List.forall_mem_singleton.2 (by decide)⟩
    rw [querySetOf]
    split <;> decide

theorem encode_append_self {extra : List Char} (h : IsEncoded extra s) (rest : List Char) :
    encode extra (s ++ rest) = s ++ encode extra rest := by
  rw [encode, List.flatMap_append, ← encode, ← encode, encode_eq_self h]

theorem not_mem_query (h : IsEncoded (querySetOf scheme) s) : '#' ∉ s := by
  intro hmem
  refine (of_plain (h _ hmem)).2 ?_
  rw [querySetOf]
  split <;> decide

/-- The address with that path and with the query and fragment of a text. -/
def withTail (scheme : List Char) (authority : Option (List Char)) (path : List (List Char))
    (s : List Char) : Url :=
  build scheme authority (.segments path) (splitTail s).2.1 (splitTail s).2.2

theorem tailText_withTail (scheme : List Char) (authority : Option (List Char))
    (path : List (List Char)) (s : List Char) :
    (withTail scheme authority path s).tailText =
      marked '?' ((splitTail s).2.1.map (encode (querySetOf scheme))) ++
        marked '#' ((splitTail s).2.2.map (encode fragmentSet)) := rfl

/-- What is written behind a query or a fragment goes on with it. -/
theorem IsNormal.prefix_tailText (h : IsNormal root)
    (hmarks : ¬ root.EndsInPath)
    {slash : List Char} (hslash : slash = [] ∨ slash = ['/']) (rest : List Char)
    (authority : Option (List Char)) (path : List (List Char)) :
    (splitTail (root.tailText ++ (slash ++ rest))).1 = [] ∧
      root.tailText ++ slash <+:
        (withTail root.scheme authority path (root.tailText ++ (slash ++ rest))).tailText := by
  obtain ⟨hslashQuery, hslashFragment⟩ := isEncoded_slash hslash root.scheme
  rw [tailText_withTail, tailText]
  cases hfragment : root.fragment with
  | some f =>
      have hf : encode fragmentSet (f ++ (slash ++ rest)) =
          f ++ (slash ++ encode fragmentSet rest) := by
        rw [encode_append_self (h.fragment f hfragment), encode_append_self hslashFragment]
      cases hquery : root.query with
      | none =>
          have htext : marked '?' none ++ marked '#' (some f) ++ (slash ++ rest) =
              '#' :: (f ++ (slash ++ rest)) := by simp [marked]
          rw [htext, splitTail_fragment]
          refine ⟨rfl, encode fragmentSet rest, ?_⟩
          simp [marked, hf]
      | some q =>
          have hq := h.query q hquery
          have htext : marked '?' (some q) ++ marked '#' (some f) ++ (slash ++ rest) =
              '?' :: (q ++ ('#' :: (f ++ (slash ++ rest)))) := by simp [marked]
          have hspan : ('#' :: (f ++ (slash ++ rest))).span (· ≠ '#') =
              ([], '#' :: (f ++ (slash ++ rest))) := rfl
          rw [htext, splitTail_query (not_mem_query hq), hspan, splitTail_fragment, List.append_nil]
          refine ⟨rfl, encode fragmentSet rest, ?_⟩
          simp [marked, hf, encode_eq_self hq]
  | none =>
      obtain ⟨q, hquery⟩ := Option.ne_none_iff_exists'.1 fun hnone => hmarks ⟨hnone, hfragment⟩
      have hq := h.query q hquery
      have htext : marked '?' (some q) ++ marked '#' none ++ (slash ++ rest) =
          '?' :: ((q ++ slash) ++ rest) := by simp [marked]
      have hplain : IsEncoded (querySetOf root.scheme) (q ++ slash) :=
        List.forall_mem_append.2 ⟨hq, hslashQuery⟩
      rw [hquery, htext, splitTail_query (not_mem_query hplain)]
      refine ⟨rfl, ?_⟩
      simp only [Option.map_some, encode_append_self hplain]
      refine ⟨encode (querySetOf root.scheme) (rest.span (· ≠ '#')).1 ++
        marked '#' ((splitTail rest).2.2.map (encode fragmentSet)), ?_⟩
      simp [marked]

/-! ## Reading behind a root -/

/-- Segments that are written below a directory and resolved from there are still below it. -/
def StaysBelow (directory raw : List (List Char)) : Prop :=
  ∃ below, below ≠ [] ∧ resolve false directory raw = directory ++ below

/-- The segments that a text writes behind the root of a service. -/
def writtenSegments (scheme rest : List Char) : List (List Char) :=
  rawSegments (isSpecial scheme) (splitTail rest).1

theorem IsNormal.chars_eq (h : IsNormal url) (ha : url.authority = some a) :
    url.chars =
      url.scheme ++ ':' :: '/' :: '/' :: (a ++ (slashed url.segments ++ url.tailText)) := by
  have hpath : url.pathText = slashed url.segments := by
    rw [pathText, ha, h.path_eq]
    cases url.segments with
    | nil => rfl
    | cons s rest =>
        cases s with
        | nil => cases rest <;> rfl
        | cons c s => rfl
  rw [chars, ha, hpath, tailText]
  simp

theorem IsNormal.authority_chars (h : IsNormal url) (ha : url.authority = some a) :
    ∀ c ∈ a, isUnwritable c = false ∧ endsAuthority true c = false := by
  obtain ⟨s, atEnd, hread⟩ := h.isAuthority a ha
  exact inside_of_readAuthority hread

theorem IsNormal.authority_ne_nil (h : IsNormal url) (ha : url.authority = some a)
    (hspecial : isSpecial url.scheme = true) : a ≠ [] := by
  obtain ⟨s, atEnd, hread⟩ := h.isAuthority a ha
  exact ne_nil_of_readAuthority hread hspecial

/-- The path of an address, given what stands between its authority and its query. -/
def pathBehind (scheme : List Char) : List Char → List (List Char)
  | [] => if isSpecial scheme then [[]] else []
  | _ :: front => pathSegments scheme front

theorem endsAuthority_mono {c : Char} (h : endsAuthority true c = false) :
    endsAuthority special c = false := by
  simp only [endsAuthority, Bool.or_eq_false_iff, Bool.and_eq_false_iff] at h ⊢
  exact ⟨h.1, h.2.elim (fun htrue => absurd htrue.symm Bool.false_ne_true) .inr⟩

/-- What ends an authority is a slash or leaves nothing of a path. -/
theorem splitTail_of_ends (h : ∀ c ∈ rest.head?, EndsSegment c) :
    (splitTail rest).1 = [] ∨ ∃ front, (splitTail rest).1 = '/' :: front := by
  cases rest with
  | nil => exact .inl rfl
  | cons c rest =>
      rcases h c rfl with rfl | rfl | rfl
      · have hsplit : splitTail (['/'] ++ rest) = _ := splitTail_append (by decide) (by decide) rest
        rw [List.singleton_append] at hsplit
        rw [hsplit]
        exact .inr ⟨_, rfl⟩
      · have hsplit : splitTail ('?' :: ([] ++ rest)) = _ := splitTail_query List.not_mem_nil rest
        rw [List.nil_append] at hsplit
        rw [hsplit]
        exact .inl rfl
      · exact .inl rfl

/-- An authority in normal form is read back, and reading goes on with what ends it. -/
theorem afterSlashes_authority (hinside : ∀ c ∈ a, endsAuthority true c = false)
    (hagain : ∀ atEnd b, readAuthority scheme a atEnd = .ok b → b = a)
    (hends : ∀ c ∈ rest.head?, EndsSegment c) (h : afterSlashes scheme (a ++ rest) = .ok url) :
    url = withTail scheme (some a) (pathBehind scheme (splitTail rest).1) rest := by
  have hmarks : '?' ∉ a ∧ '#' ∉ a :=
    ⟨fun hmem => absurd (hinside _ hmem) (by decide),
      fun hmem => absurd (hinside _ hmem) (by decide)⟩
  have hall : ∀ c ∈ a, (!endsAuthority (isSpecial scheme) c) = true := fun c hc => by
    rw [endsAuthority_mono (hinside c hc)]
    rfl
  have hslash : endsAuthority (isSpecial scheme) '/' = true := rfl
  rw [afterSlashes, splitTail_append hmarks.1 hmarks.2] at h
  obtain ⟨b, hb, hurl⟩ := except_of_bind_ok h
  rcases splitTail_of_ends hends with hfront | ⟨front, hfront⟩
  · simp only [hfront, List.append_nil, List.takeWhile_eq_self_iff.2 hall] at hb hurl
    obtain rfl := hagain _ _ hb
    simp only [List.drop_length] at hurl
    rw [hfront]
    exact (Except.ok.inj hurl).symm
  · have htake :
        (a ++ '/' :: front).takeWhile (fun c => !endsAuthority (isSpecial scheme) c) = a := by
      rw [List.takeWhile_append_of_pos hall, List.takeWhile_cons, hslash, Bool.not_true,
        if_neg Bool.false_ne_true, List.append_nil]
    simp only [hfront, htake] at hb hurl
    obtain rfl := hagain _ _ hb
    simp only [List.drop_left] at hurl
    rw [hfront]
    exact (Except.ok.inj hurl).symm

/-- What is read behind the root of a service with an authority. -/
theorem IsNormal.read_below (h : IsNormal root) (hfile : root.scheme ≠ "file".toList)
    (ha : root.authority = some a) (hmore : ∀ c ∈ more.head?, EndsSegment c)
    (hclean : cleaned s = root.scheme ++ ':' :: '/' :: '/' :: (a ++ more))
    (hread : ofText s = .ok url) :
    url = withTail root.scheme (some a) (pathBehind root.scheme (splitTail more).1) more := by
  obtain ⟨t, atEnd, hauthority⟩ := h.isAuthority a ha
  have hinside : ∀ c ∈ a, endsAuthority true c = false := fun c hc => (h.authority_chars ha c hc).2
  have hagain : ∀ atEnd b, readAuthority root.scheme a atEnd = .ok b → b = a := fun _ _ hb =>
    readAuthority_again hauthority hb
  rw [ofText, hclean, h.isScheme.scheme?_eq] at hread
  simp only [if_neg hfile] at hread
  split at hread
  · next hspecial =>
    obtain ⟨c, tail, rfl⟩ := List.exists_cons_of_ne_nil (h.authority_ne_nil ha hspecial)
    have hc := hinside c List.mem_cons_self
    have hdrop : ('/' :: '/' :: (c :: tail ++ more)).dropWhile (fun c => c = '/' || c = '\\') =
        c :: tail ++ more := by
      have hslash : (decide (c = '/') || decide (c = '\\')) = false := by
        simp only [endsAuthority, Bool.or_eq_false_iff, Bool.true_and] at hc
        rw [hc.1.1.1, hc.2]
        rfl
      rw [List.dropWhile_cons_of_pos (by decide), List.dropWhile_cons_of_pos (by decide),
        List.cons_append, List.dropWhile_cons_of_neg (by rw [hslash]; exact Bool.false_ne_true)]
    rw [hdrop] at hread
    exact afterSlashes_authority hinside hagain hmore hread
  · exact afterSlashes_authority hinside hagain hmore hread

/-- The path that is read from the text of segments. -/
theorem IsNormal.pathBehind_self (h : IsNormal root) (hfile : root.scheme ≠ "file".toList) :
    pathBehind root.scheme (slashed root.segments) = root.segments := by
  cases hsegments : root.segments with
  | nil =>
      have hspecial : isSpecial root.scheme = false :=
        Bool.eq_false_iff.2 fun hspecial => h.hasSegments (.inl hspecial) hsegments
      show (if isSpecial root.scheme then [[]] else []) = []
      rw [hspecial, if_neg Bool.false_ne_true]
  | cons s rest =>
      have hne : root.segments ≠ [] := hsegments ▸ List.cons_ne_nil _ _
      have hself := rawSegments_self h.areSegments hne
      rw [hsegments] at hself hne
      show pathSegments root.scheme ((slashed (s :: rest)).drop 1) = s :: rest
      rw [pathSegments_of_not_file hfile, hself, resolve_self (hsegments ▸ h.areSegments) hne]

/-- The path that is read from the text of a directory and more. -/
theorem IsNormal.pathBehind_below (h : IsNormal root) (hfile : root.scheme ≠ "file".toList)
    (rest : List Char) :
    pathBehind root.scheme (slashed (directoryOf root.segments) ++ '/' :: rest) =
      resolve false (directoryOf root.segments) (rawSegments (isSpecial root.scheme) rest) := by
  have hdirectory := areSegments_directoryOf h.areSegments
  rw [slashed_slash]
  show pathSegments root.scheme ((slashed (directoryOf root.segments) ++ '/' :: rest).drop 1) = _
  rw [pathSegments_of_not_file hfile, rawSegments_slashed hdirectory,
    resolve_below hdirectory rawSegments_ne_nil]

theorem IsNormal.of_withTail {authority : Option (List Char)} {path : List (List Char)}
    (h : url = withTail scheme authority path s) (hread : ofText more = .ok url)
    (hfile : scheme ≠ "file".toList) : IsNormal url := by
  subst h
  exact isNormal_of_ofText hread rfl hfile

/-- The text of a root with nothing behind its path. -/
theorem IsNormal.rootText (h : IsNormal root) (ha : root.authority = some a)
    (hmarks : root.EndsInPath) (hne : root.segments ≠ [] ∨ a ≠ []) :
    withSlash root.chars = root.scheme ++ ':' :: '/' :: '/' ::
      (a ++ (slashed (directoryOf root.segments) ++ ['/'])) := by
  have hchars : root.chars = (root.scheme ++ ':' :: '/' :: '/' :: a) ++ slashed root.segments := by
    rw [h.chars_eq ha, tailText_eq_nil hmarks]
    simp
  have hlast : root.segments ≠ [] ∨
      (root.scheme ++ ':' :: '/' :: '/' :: a).getLast? ≠ some '/' := by
    refine hne.imp_right fun hne hslash => ?_
    have hsplit : root.scheme ++ ':' :: '/' :: '/' :: a =
        (root.scheme ++ [':', '/', '/']) ++ a := by simp
    rw [hsplit, List.getLast?_append_of_ne_nil _ hne] at hslash
    exact absurd (h.authority_chars ha _ (List.mem_of_getLast? hslash)).2 (by decide)
  rw [hchars, withSlash_slashed h.areSegments hlast]
  simp

/-- Behind a root that is a path, segments are read and resolved from there. -/
theorem IsNormal.read_path (h : IsNormal root) (hfile : root.scheme ≠ "file".toList)
    (hread : ofText s = .ok url) {authority : Option (List Char)}
    (hmore : more = slashed (directoryOf root.segments) ++ '/' :: rest)
    (hurl : url = withTail root.scheme authority (pathBehind root.scheme (splitTail more).1) more) :
    IsNormal url ∧ url.scheme = root.scheme ∧ url.authority = authority ∧
      url.segments =
        resolve false (directoryOf root.segments) (writtenSegments root.scheme rest) := by
  have hdirectory := areSegments_directoryOf h.areSegments
  have hfront : ∀ mark, mark = '?' ∨ mark = '#' →
      mark ∉ slashed (directoryOf root.segments) ++ ['/'] := by
    intro mark hmark
    refine List.not_mem_append (not_mem_slashed hdirectory hmark) fun hmem => ?_
    rw [List.mem_singleton.1 hmem] at hmark
    exact absurd hmark (by decide)
  have hsplit := splitTail_append (hfront '?' (.inl rfl)) (hfront '#' (.inr rfl)) rest
  rw [List.append_assoc, List.singleton_append, ← hmore, List.append_assoc,
    List.singleton_append] at hsplit
  refine ⟨.of_withTail hurl hread hfile, by rw [hurl]; rfl, by rw [hurl]; rfl, ?_⟩
  rw [hurl, hsplit]
  exact h.pathBehind_below hfile _

/-- Behind a root with a query or a fragment, what is written goes on with it. -/
theorem IsNormal.read_marks (h : IsNormal root) (hfile : root.scheme ≠ "file".toList)
    (hread : ofText s = .ok url) (hmarks : ¬ root.EndsInPath)
    {slash : List Char} (hslash : slash = [] ∨ slash = ['/']) {authority : Option (List Char)}
    (hmore : more = slashed root.segments ++ (root.tailText ++ (slash ++ rest)))
    (hurl : url = withTail root.scheme authority (pathBehind root.scheme (splitTail more).1) more) :
    IsNormal url ∧ url.scheme = root.scheme ∧ url.authority = authority ∧
      url.segments = root.segments ∧ root.tailText ++ slash <+: url.tailText := by
  obtain ⟨hnothing, htail⟩ := h.prefix_tailText hmarks hslash rest authority root.segments
  have hsplit := splitTail_append (not_mem_slashed h.areSegments (.inl rfl))
    (not_mem_slashed h.areSegments (.inr rfl)) (root.tailText ++ (slash ++ rest))
  rw [hnothing, List.append_nil, ← hmore] at hsplit
  rw [withTail, hsplit, h.pathBehind_self hfile] at hurl
  exact ⟨.of_withTail hurl hread hfile, by rw [hurl]; rfl, by rw [hurl]; rfl, by rw [hurl]; rfl,
    by rw [hurl]; exact htail⟩

theorem endsSegment_tailText (hmarks : ¬ root.EndsInPath)
    (more : List Char) : ∀ c ∈ (root.tailText ++ more).head?, EndsSegment c := by
  obtain ⟨mark, text, htext⟩ := List.exists_cons_of_ne_nil (tailText_ne_nil hmarks)
  intro c hc
  rw [htext] at hc
  cases hc
  exact .inr (endsPath_tailText root _ (by rw [htext]; rfl))

/-! ## Roots without an authority -/

/-- What stands before a path that would begin with two slashes. -/
def pointText : List (List Char) → List Char
  | [] :: _ :: _ => ['/', '.']
  | _ => []

theorem pointText_cases (segments : List (List Char)) :
    pointText segments = [] ∨
      pointText segments = ['/', '.'] ∧ ∃ s rest, segments = [] :: s :: rest := by
  rw [pointText.eq_def]
  split
  · exact .inr ⟨rfl, _, _, rfl⟩
  · exact .inl rfl

theorem IsNormal.chars_eq_of_none (h : IsNormal url) (hnone : url.authority = none) :
    url.chars = url.scheme ++ ':' ::
      (pointText url.segments ++ (slashed url.segments ++ url.tailText)) := by
  have hpath : url.pathText = pointText url.segments ++ slashed url.segments := by
    rw [pathText, hnone, h.path_eq]
    cases url.segments with
    | nil => rfl
    | cons s rest =>
        cases s with
        | nil => cases rest <;> rfl
        | cons c s => rfl
  rw [chars, hnone, hpath, tailText]
  simp

/-- Every address with segments goes on with a slash behind its scheme. -/
theorem IsNormal.prefix_slash (h : IsNormal url) : url.scheme ++ [':', '/'] <+: url.chars := by
  cases hauthority : url.authority with
  | some a =>
      rw [h.chars_eq hauthority]
      exact ⟨'/' :: (a ++ (slashed url.segments ++ url.tailText)), by simp⟩
  | none =>
      obtain ⟨s, rest, hsegments⟩ :=
        List.exists_cons_of_ne_nil (h.hasSegments (.inr hauthority))
      obtain ⟨more, hmore⟩ : ∃ more,
          pointText url.segments ++ (slashed url.segments ++ url.tailText) = '/' :: more := by
        rw [hsegments]
        cases s with
        | nil => cases rest <;> exact ⟨_, rfl⟩
        | cons c s => exact ⟨_, rfl⟩
      rw [h.chars_eq_of_none hauthority, hmore]
      exact ⟨more, by simp⟩

/-- The point before a path is read as nothing. -/
theorem pathSegments_point (hfile : scheme ≠ "file".toList) (s : List Char) :
    pathSegments scheme ('.' :: '/' :: s) = pathSegments scheme s := by
  have hpoint : rawSegments (isSpecial scheme) ['.'] = [['.']] :=
    rawSegments_of_isRaw ⟨by decide, fun _ => by decide⟩
  have hsplit := rawSegments_append (isSpecial scheme) ['.'] s
  rw [List.singleton_append, hpoint] at hsplit
  obtain ⟨first, rest, hraw⟩ := List.exists_cons_of_ne_nil
    (l := rawSegments (isSpecial scheme) s) rawSegments_ne_nil
  rw [pathSegments_of_not_file hfile, pathSegments_of_not_file hfile, hsplit, hraw]
  rfl

/-- What is read behind the root of a service without an authority. -/
theorem IsNormal.read_below_of_none (h : IsNormal root) (hfile : root.scheme ≠ "file".toList)
    (hnone : root.authority = none)
    (hmore : pointText root.segments = [] → more.head? ≠ some '/')
    (hclean : cleaned s = root.scheme ++ ':' :: (pointText root.segments ++ '/' :: more))
    (hread : ofText s = .ok url) :
    url = withTail root.scheme none (pathBehind root.scheme (splitTail ('/' :: more)).1)
      ('/' :: more) := by
  have hspecial : ¬ isSpecial root.scheme = true := fun hspecial => h.hasAuthority hspecial hnone
  have hslash : splitTail ('/' :: more) = ('/' :: (splitTail more).1, (splitTail more).2) :=
    splitTail_append (s := ['/']) (by decide) (by decide) more
  have hpoint : splitTail ('.' :: '/' :: more) =
      ('.' :: '/' :: (splitTail more).1, (splitTail more).2) :=
    splitTail_append (s := ['.', '/']) (by decide) (by decide) more
  rw [ofText, hclean, h.isScheme.scheme?_eq] at hread
  simp only [if_neg hfile, if_neg hspecial] at hread
  rw [withTail, hslash]
  rcases pointText_cases root.segments with hpointText | ⟨hpointText, -⟩
  · rw [hpointText] at hread
    have hhead := hmore hpointText
    split at hread
    · next heq =>
      cases heq
      exact absurd rfl hhead
    · next heq =>
      cases heq
      exact (Except.ok.inj hread).symm
    · next heq => exact absurd rfl (heq more)
  · rw [hpointText] at hread
    have hurl : build root.scheme none (.segments (pathSegments root.scheme
        (splitTail ('.' :: '/' :: more)).1)) (splitTail ('.' :: '/' :: more)).2.1
        (splitTail ('.' :: '/' :: more)).2.2 = url := Except.ok.inj hread
    rw [← hurl, hpoint]
    simp only [pathSegments_point hfile]
    rfl

theorem pointText_cons {segment : List Char} (h : segments ≠ []) :
    pointText (segment :: segments) = if segment = [] then ['/', '.'] else [] := by
  obtain ⟨next, rest, rfl⟩ := List.exists_cons_of_ne_nil h
  cases segment with
  | nil => rfl
  | cons c segment => rfl

theorem pointText_directoryOf {segment : List Char}
    (h : directoryOf segments = segment :: directory) :
    pointText segments = if segment = [] then ['/', '.'] else [] := by
  rw [directoryOf] at h
  split at h
  · next hempty =>
    obtain ⟨init, rfl⟩ := List.getLast?_eq_some_iff.1 hempty
    rw [List.dropLast_concat] at h
    rw [h, List.cons_append]
    exact pointText_cons (List.append_ne_nil_of_right_ne_nil _ (List.cons_ne_nil _ _))
  · next hlast =>
    subst h
    cases directory with
    | nil =>
        have hne : segment ≠ [] := fun hnil => hlast (congrArg some hnil)
        obtain ⟨c, segment, rfl⟩ := List.exists_cons_of_ne_nil hne
        rfl
    | cons next directory => exact pointText_cons (List.cons_ne_nil _ _)

theorem not_isSegment_point : ¬ (['.'] = [] ∨ IsSegment special ['.']) := by
  rintro (hnil | hsegment)
  · cases hnil
  · exact absurd hsegment.noSingleDot (by decide)

/-- A path that would begin with two slashes is taken for no other. -/
theorem point_prefix_iff {path : List (List Char)} (hdirectory : AreSegments special directory)
    (hpath : AreSegments special path) (htail : EndsPath tail) (hsome : directory ≠ [])
    (hne : path ≠ []) (hsegments : directoryOf segments = directory) :
    pointText segments ++ (slashed directory ++ ['/']) <+:
        pointText path ++ (slashed path ++ tail) ↔
      ∃ below, below ≠ [] ∧ path = directory ++ below := by
  obtain ⟨d, directory, rfl⟩ := List.exists_cons_of_ne_nil hsome
  rw [pointText_directoryOf hsegments]
  have hsame : (∃ below, below ≠ [] ∧ path = d :: directory ++ below) →
      pointText path = if d = [] then ['/', '.'] else [] := by
    rintro ⟨below, hbelow, rfl⟩
    exact pointText_cons (List.append_ne_nil_of_right_ne_nil _ hbelow)
  have hiff := slashed_prefix_iff hdirectory hpath htail
  constructor
  · intro h
    have hpoints : pointText path = if d = [] then ['/', '.'] else [] := by
      by_contra hdiff
      rw [slashed_cons_append, slashed_slash] at h
      rcases pointText_cases path with hnone | ⟨hpoint, s, rest, rfl⟩
      · have hd : d = [] := by
          by_contra hd
          exact hdiff (by rw [hnone, if_neg hd])
        obtain ⟨t, rest, rfl⟩ := List.exists_cons_of_ne_nil hne
        rw [hnone, if_pos hd, List.nil_append, slashed_cons_append] at h
        have hpoint := (eq_of_prefix_segment (List.forall_mem_singleton.2 (by decide))
          (fun c => not_endsSegment (hpath t List.mem_cons_self))
          (endsSegment_head rest fun c hc => .inr (htail c hc))
          (List.cons_prefix_cons.1 h).2).1
        exact not_isSegment_point (hpoint ▸ hpath t List.mem_cons_self)
      · have hd : d ≠ [] := fun hd => hdiff (by rw [hpoint, if_pos hd])
        rw [hpoint, if_neg hd, List.nil_append, slashed_cons_append] at h
        have hpoint := (eq_of_prefix_segment
          (fun c => not_endsSegment (hdirectory d List.mem_cons_self))
          (List.forall_mem_singleton.2 (by decide))
          (fun c hc => by cases hc; exact .inl rfl) (List.cons_prefix_cons.1 h).2).1
        exact not_isSegment_point (hpoint ▸ hdirectory d List.mem_cons_self)
    rw [hpoints, List.prefix_append_right_inj] at h
    exact hiff.1 h
  · intro h
    rw [hsame h, List.prefix_append_right_inj, hiff]
    exact h

/-- What follows a path that has no point before it does not begin with a slash again. -/
theorem head_ne_slash {segment : List Char} (h : AreSegments special (segment :: segments))
    (hmore : slashed (segment :: segments) ++ tail = '/' :: more)
    (hempty : segment = [] → segments = [] ∧ tail.head? ≠ some '/') : more.head? ≠ some '/' := by
  intro hslash
  cases segment with
  | cons c segment =>
      cases hmore
      exact not_endsSegment (h _ List.mem_cons_self) List.mem_cons_self
        (.inl (Option.some.inj hslash))
  | nil =>
      obtain ⟨rfl, htail⟩ := hempty rfl
      cases hmore
      exact htail hslash

/-! ## What can be seen of an address -/

theorem not_isUnwritable_slashed {c : Char} (h : AreSegments special segments)
    (hc : c ∈ slashed segments) : isUnwritable c = false := by
  obtain ⟨segment, hsegment, hc⟩ := List.mem_flatMap.1 hc
  rcases List.mem_cons.1 hc with rfl | hc
  · decide
  · rcases h segment hsegment with rfl | h
    · cases hc
    · exact (of_plain (h.plain c hc)).1

theorem not_isUnwritable_marked {mark c : Char} {extra : List Char} {text : Option (List Char)}
    (hmark : isUnwritable mark = false) (h : ∀ t, text = some t → IsEncoded extra t)
    (hc : c ∈ marked mark text) : isUnwritable c = false := by
  cases text with
  | none => cases hc
  | some t =>
      rcases List.mem_cons.1 hc with rfl | hc
      · exact hmark
      · exact (of_plain (h t rfl c hc)).1

theorem not_isUnwritable_pointText {c : Char} (hc : c ∈ pointText segments) :
    isUnwritable c = false := by
  rcases pointText_cases segments with hnone | ⟨hpoint, -⟩
  · rw [hnone] at hc
    cases hc
  · rw [hpoint, List.mem_pair] at hc
    rcases hc with rfl | rfl <;> decide

theorem IsNormal.visible (h : IsNormal url) : ∀ c ∈ url.chars, isUnwritable c = false := by
  have hscheme : ∀ c ∈ url.scheme, isUnwritable c = false := fun c hc =>
    (h.isScheme.chars c hc).2.2
  have hslashed : ∀ c ∈ slashed url.segments, isUnwritable c = false := fun c hc =>
    not_isUnwritable_slashed h.areSegments hc
  have htail : ∀ c ∈ url.tailText, isUnwritable c = false := by
    intro c hc
    rcases List.mem_append.1 hc with hc | hc
    · exact not_isUnwritable_marked (by decide) h.query hc
    · exact not_isUnwritable_marked (by decide) h.fragment hc
  cases ha : url.authority with
  | some a =>
      rw [h.chars_eq ha]
      simp only [List.forall_mem_append, List.forall_mem_cons]
      exact ⟨hscheme, by decide, by decide, by decide, fun c hc => (h.authority_chars ha c hc).1,
        hslashed, htail⟩
  | none =>
      rw [h.chars_eq_of_none ha]
      simp only [List.forall_mem_append, List.forall_mem_cons]
      exact ⟨hscheme, by decide, fun c hc => not_isUnwritable_pointText hc, hslashed, htail⟩

theorem isKept_of_visible {c : Char} (h : isUnwritable c = false) : isKept c = true := by
  rw [isKept, decide_eq_true_eq]
  refine ⟨?_, ?_, ?_⟩ <;> (rintro rfl; exact absurd h (by decide))

theorem IsNormal.exists_letter (h : IsNormal url) :
    ∃ c text, url.chars = c :: text ∧ c.isAlpha = true := by
  obtain ⟨c, scheme, hscheme, hc⟩ := h.isScheme.letter
  rw [chars, hscheme]
  exact ⟨c, _, rfl, hc⟩

/-- Of a text up to what can be seen nothing is dropped before reading. -/
theorem cleaned_visible {c : Char} (hhead : ∀ d ∈ s.head?, isEdge d = false)
    (hkept : ∀ d ∈ s, isKept d = true) (hc : isEdge c = false) (rest : List Char) :
    cleaned (s ++ c :: rest) =
      s ++ c :: (rest.reverse.dropWhile isEdge).reverse.filter isKept := by
  have hdrop : s.dropWhile isEdge = s := by
    cases s with
    | nil => rfl
    | cons d s =>
        exact List.dropWhile_cons_of_neg (by rw [hhead d rfl]; exact Bool.false_ne_true)
  rw [cleaned_append_stop hc, hdrop, List.filter_eq_self.2 hkept]

/-- Before reading nothing is dropped from a root, and behind it only at the end. -/
theorem IsNormal.exists_cleaned (h : IsNormal root) (rest : List Char) :
    ∃ more, cleaned (withSlash root.chars ++ rest) = withSlash root.chars ++ more := by
  obtain ⟨front, hfront, hsub⟩ : ∃ front, withSlash root.chars = front ++ ['/'] ∧
      front <+: root.chars := by
    rw [withSlash]
    split
    · next hlast =>
      obtain ⟨front, hfront⟩ := List.getLast?_eq_some_iff.1 hlast
      exact ⟨front, hfront, ['/'], hfront.symm⟩
    · exact ⟨root.chars, rfl, List.prefix_rfl⟩
  have hhead : ∀ d ∈ front.head?, isEdge d = false := by
    obtain ⟨c, text, hchars, hc⟩ := h.exists_letter
    have hedge : isEdge c = false :=
      isEdge_of_isAlphanum (by rw [Char.isAlphanum, hc, Bool.true_or])
    cases front with
    | nil => rintro _ ⟨⟩
    | cons d front =>
        rw [hchars, List.cons_prefix_cons] at hsub
        rintro _ ⟨⟩
        rw [hsub.1, hedge]
  have hkept : ∀ d ∈ front, isKept d = true := fun d hd =>
    isKept_of_visible (h.visible d (hsub.subset hd))
  rw [hfront, List.append_assoc, List.singleton_append, cleaned_visible hhead hkept (by decide)]
  exact ⟨_, (List.append_assoc front ['/'] _).symm⟩

/-- Behind the root of a file there is that of a file again. -/
theorem scheme_of_fileRoot (hfile : root.scheme = "file".toList)
    (hread : ofText (withSlash root.chars ++ rest) = .ok url) : url.scheme = "file".toList := by
  have hcolon : scheme? "file:".toList = some ("file".toList, []) := by decide
  have hscheme := isScheme_of_scheme? hcolon
  have hhead : ∀ d ∈ "file".toList.head?, isEdge d = false := by
    rintro _ ⟨⟩
    decide
  have hkept : ∀ d ∈ "file".toList, isKept d = true := fun d hd =>
    isKept_of_visible (hscheme.chars d hd).2.2
  obtain ⟨text, htext⟩ : ∃ text, withSlash root.chars ++ rest = "file".toList ++ ':' :: text := by
    obtain ⟨slash, -, hroot⟩ := withSlash_cases root.chars
    rw [hroot, chars, hfile, List.append_assoc, List.append_assoc, List.cons_append]
    exact ⟨_, rfl⟩
  obtain ⟨after, hafter, -⟩ := scheme_of_ofText hread
  rw [htext, cleaned_visible hhead hkept (by decide), hscheme.scheme?_eq] at hafter
  exact (Prod.mk.inj (Option.some.inj hafter)).1.symm

/-! ## What stays below a root -/

/-- What is written behind a query or a fragment leaves the path of the root as it is. -/
theorem IsNormal.below_of_marks (h : IsNormal root) (hfile : root.scheme ≠ "file".toList)
    (hmarks : ¬ root.EndsInPath) (hclean : cleaned s = withSlash root.chars ++ rest)
    (hread : ofText s = .ok url) :
    url.scheme = root.scheme ∧ url.authority = root.authority ∧
      withSlash root.chars <+: url.chars := by
  obtain ⟨slash, hslash, htext⟩ := withSlash_cases root.chars
  cases ha : root.authority with
  | some a =>
      have hmore : cleaned s = root.scheme ++ ':' :: '/' :: '/' ::
          (a ++ (slashed root.segments ++ (root.tailText ++ (slash ++ rest)))) := by
        rw [hclean, htext, h.chars_eq ha]
        simp
      have hends := endsSegment_head root.segments (endsSegment_tailText hmarks (slash ++ rest))
      obtain ⟨hnormal, hscheme, hauthority, hpath, more, hmore⟩ :=
        h.read_marks hfile hread hmarks hslash rfl (h.read_below hfile ha hends hmore hread)
      refine ⟨hscheme, hauthority, more, ?_⟩
      rw [htext, h.chars_eq ha, hnormal.chars_eq hauthority, hscheme, hpath, ← hmore]
      simp
  | none =>
      obtain ⟨d, segments, hcons⟩ := List.exists_cons_of_ne_nil (h.hasSegments (.inr ha))
      obtain ⟨more, hmore⟩ : ∃ more,
          slashed root.segments ++ (root.tailText ++ (slash ++ rest)) = '/' :: more := by
        rw [hcons]
        exact ⟨_, rfl⟩
      have hhead : pointText root.segments = [] → more.head? ≠ some '/' := by
        intro hpoint
        rw [hcons] at hmore hpoint
        refine head_ne_slash (hcons ▸ h.areSegments) hmore fun hd => ⟨?_, ?_⟩
        · by_contra hne
          rw [pointText_cons hne, if_pos hd] at hpoint
          cases hpoint
        · obtain ⟨mark, text, htext⟩ := List.exists_cons_of_ne_nil (tailText_ne_nil hmarks)
          have hends := endsPath_tailText root mark (by rw [htext]; rfl)
          rw [htext]
          rintro ⟨⟩
          exact absurd hends (by decide)
      have hclean' : cleaned s =
          root.scheme ++ ':' :: (pointText root.segments ++ '/' :: more) := by
        rw [hclean, htext, h.chars_eq_of_none ha, ← hmore]
        simp
      obtain ⟨hnormal, hscheme, hauthority, hpath, more, hmore⟩ :=
        h.read_marks hfile hread hmarks hslash hmore.symm
          (h.read_below_of_none hfile ha hhead hclean' hread)
      refine ⟨hscheme, hauthority, more, ?_⟩
      rw [htext, h.chars_eq_of_none ha, hnormal.chars_eq_of_none hauthority, hscheme, hpath,
        ← hmore]
      simp

/-- Behind a root with an authority segments are resolved from its directory. -/
theorem IsNormal.below_of_authority (h : IsNormal root) (hfile : root.scheme ≠ "file".toList)
    (ha : root.authority = some a) (hmarks : root.EndsInPath)
    (hne : root.segments ≠ [] ∨ a ≠ []) (hclean : cleaned s = withSlash root.chars ++ rest)
    (hread : ofText s = .ok url) :
    url.scheme = root.scheme ∧ url.authority = some a ∧
      (withSlash root.chars <+: url.chars ↔
        StaysBelow (directoryOf root.segments) (writtenSegments root.scheme rest)) := by
  have hcut : ∀ t : List Char, root.scheme ++ ':' :: '/' :: '/' :: (a ++ t) =
      (root.scheme ++ ':' :: '/' :: '/' :: a) ++ t := fun t => by simp
  rw [h.rootText ha hmarks hne] at hclean ⊢
  have hmore : cleaned s = root.scheme ++ ':' :: '/' :: '/' ::
      (a ++ (slashed (directoryOf root.segments) ++ '/' :: rest)) := by
    rw [hclean]
    simp
  have hslash : ∀ c ∈ ('/' :: rest).head?, EndsSegment c := by
    rintro _ ⟨⟩
    exact .inl rfl
  have hends := endsSegment_head (directoryOf root.segments) hslash
  obtain ⟨hnormal, hscheme, hauthority, hpath⟩ :=
    h.read_path hfile hread rfl (h.read_below hfile ha hends hmore hread)
  have hsegments := hnormal.areSegments
  rw [hscheme, hpath] at hsegments
  refine ⟨hscheme, hauthority, ?_⟩
  rw [hnormal.chars_eq hauthority, hscheme, hpath, StaysBelow, hcut, hcut,
    List.prefix_append_right_inj, slashed_prefix_iff (areSegments_directoryOf h.areSegments)
      hsegments (endsPath_tailText url)]

/-- Behind a root without an authority segments are resolved from its directory. -/
theorem IsNormal.below_of_noAuthority (h : IsNormal root) (hfile : root.scheme ≠ "file".toList)
    (hnone : root.authority = none) (hmarks : root.EndsInPath)
    (hsome : directoryOf root.segments ≠ []) (hclean : cleaned s = withSlash root.chars ++ rest)
    (hread : ofText s = .ok url) :
    url.scheme = root.scheme ∧
      (withSlash root.chars <+: url.chars ↔
        StaysBelow (directoryOf root.segments) (writtenSegments root.scheme rest)) := by
  have hdirectory := areSegments_directoryOf h.areSegments
  have htext : withSlash root.chars = root.scheme ++ ':' ::
      (pointText root.segments ++ (slashed (directoryOf root.segments) ++ ['/'])) := by
    have hfront : root.chars =
        (root.scheme ++ ':' :: pointText root.segments) ++ slashed root.segments := by
      rw [h.chars_eq_of_none hnone, tailText_eq_nil hmarks]
      simp
    rw [hfront, withSlash_slashed h.areSegments (.inl (h.hasSegments (.inr hnone)))]
    simp
  obtain ⟨more, hmore⟩ : ∃ more,
      slashed (directoryOf root.segments) ++ '/' :: rest = '/' :: more :=
    ⟨_, slashed_slash _ rest⟩
  have hhead : pointText root.segments = [] → more.head? ≠ some '/' := by
    obtain ⟨d, directory, hcons⟩ := List.exists_cons_of_ne_nil hsome
    intro hpoint
    rw [hcons] at hmore hdirectory
    rw [pointText_directoryOf hcons] at hpoint
    refine head_ne_slash hdirectory hmore fun hd => ?_
    rw [if_pos hd] at hpoint
    cases hpoint
  have hclean' : cleaned s =
      root.scheme ++ ':' :: (pointText root.segments ++ '/' :: more) := by
    rw [hclean, htext, ← hmore]
    simp
  obtain ⟨hnormal, hscheme, hauthority, hpath⟩ :=
    h.read_path hfile hread hmore.symm (h.read_below_of_none hfile hnone hhead hclean' hread)
  have hpathSegments := hnormal.areSegments
  have hpathSome := hnormal.hasSegments (.inr hauthority)
  rw [hscheme, hpath] at hpathSegments
  rw [hpath] at hpathSome
  refine ⟨hscheme, ?_⟩
  rw [htext, hnormal.chars_eq_of_none hauthority, hscheme, hpath, StaysBelow,
    List.prefix_append_right_inj, List.cons_prefix_cons, point_prefix_iff hdirectory
      hpathSegments (endsPath_tailText url) hsome hpathSome rfl]
  exact and_iff_right rfl

theorem staysBelow_nil (scheme rest : List Char) : StaysBelow [] (writtenSegments scheme rest) :=
  ⟨_, resolve_ne_nil rawSegments_ne_nil, rfl⟩

theorem directoryOf_eq_nil (h : directoryOf segments = []) (hne : segments ≠ []) :
    segments = [[]] := by
  rw [directoryOf] at h
  split at h
  · next hempty =>
    obtain ⟨init, rfl⟩ := List.getLast?_eq_some_iff.1 hempty
    rw [List.dropLast_concat] at h
    rw [h, List.nil_append]
  · exact absurd h hne

/-- A root that is a scheme and two slashes is that of everything that it can be written
before. -/
theorem IsNormal.below_slashes (h : IsNormal root) (hfile : root.scheme ≠ "file".toList)
    (hspecial : ¬ isSpecial root.scheme = true)
    (hclean : cleaned s = root.scheme ++ ':' :: '/' :: '/' :: rest) (hread : ofText s = .ok url) :
    url.scheme = root.scheme ∧ root.scheme ++ [':', '/', '/'] <+: url.chars := by
  have hafter : afterSlashes root.scheme rest = .ok url := by
    rw [ofText, hclean, h.isScheme.scheme?_eq] at hread
    simp only [if_neg hfile, if_neg hspecial] at hread
    exact hread
  have hnormal := isNormal_afterSlashes h.isScheme hfile hafter
  have hscheme := (scheme_of_afterSlashes hafter).1
  obtain ⟨b, hb⟩ : ∃ b, url.authority = some b := by
    obtain ⟨b, -, hurl⟩ := except_of_bind_ok hafter
    cases hurl
    exact ⟨b, rfl⟩
  refine ⟨hscheme, b ++ (slashed url.segments ++ url.tailText), ?_⟩
  rw [hnormal.chars_eq hb, hscheme]
  simp

/-- A root that is a scheme and one slash is that of every address of the scheme. -/
theorem IsNormal.below_slash (h : IsNormal root) (hfile : root.scheme ≠ "file".toList)
    (hclean : cleaned s = root.scheme ++ ':' :: '/' :: rest) (hread : ofText s = .ok url)
    (hlisted : url.isOpaque = false) :
    url.scheme = root.scheme ∧ root.scheme ++ [':', '/'] <+: url.chars := by
  obtain ⟨after, hafter, -⟩ := scheme_of_ofText hread
  rw [hclean, h.isScheme.scheme?_eq] at hafter
  have hscheme : url.scheme = root.scheme := (Prod.mk.inj (Option.some.inj hafter)).1.symm
  have hnormal := isNormal_of_ofText hread hlisted (hscheme ▸ hfile)
  exact ⟨hscheme, hscheme ▸ hnormal.prefix_slash⟩

/-- What is written behind a root that is a path is below it just if its segments are. -/
theorem IsNormal.below_of_path (h : IsNormal root) (hfile : root.scheme ≠ "file".toList)
    (hmarks : root.EndsInPath) (hclean : cleaned s = withSlash root.chars ++ rest)
    (hread : ofText s = .ok url) (hlisted : url.isOpaque = false) :
    url.scheme = root.scheme ∧
      (∀ a, a ≠ [] → root.authority = some a → url.authority = some a) ∧
      (withSlash root.chars <+: url.chars ↔
        StaysBelow (directoryOf root.segments) (writtenSegments root.scheme rest)) := by
  have htail := tailText_eq_nil hmarks
  cases ha : root.authority with
  | some a =>
      by_cases hbare : root.segments = [] ∧ a = []
      · obtain ⟨hsegments, rfl⟩ := hbare
        have hspecial : ¬ isSpecial root.scheme = true := fun hspecial =>
          h.authority_ne_nil ha hspecial rfl
        have htext : withSlash root.chars = root.scheme ++ [':', '/', '/'] := by
          have hchars : root.chars = root.scheme ++ [':', '/'] ++ ['/'] := by
            rw [h.chars_eq ha, hsegments, htail]
            simp [slashed]
          rw [hchars, withSlash, List.getLast?_concat, if_pos rfl, List.append_assoc]
          rfl
        rw [htext, List.append_assoc] at hclean
        obtain ⟨hscheme, hprefix⟩ := h.below_slashes hfile hspecial hclean hread
        refine ⟨hscheme, fun b hne hb => ?_, iff_of_true (htext ▸ hprefix) ?_⟩
        · cases hb
          exact absurd rfl hne
        · rw [hsegments]
          exact staysBelow_nil _ _
      · rw [not_and_or] at hbare
        obtain ⟨hscheme, hauthority, hiff⟩ :=
          h.below_of_authority hfile ha hmarks hbare hclean hread
        refine ⟨hscheme, fun b _ hb => ?_, hiff⟩
        cases hb
        exact hauthority
  | none =>
      by_cases hdirectory : directoryOf root.segments = []
      · have hsegments := directoryOf_eq_nil hdirectory (h.hasSegments (.inr ha))
        have htext : withSlash root.chars = root.scheme ++ [':', '/'] := by
          have hchars : root.chars = root.scheme ++ [':'] ++ ['/'] := by
            rw [h.chars_eq_of_none ha, hsegments, htail]
            simp [slashed, pointText]
          rw [hchars, withSlash, List.getLast?_concat, if_pos rfl, List.append_assoc]
          rfl
        rw [htext, List.append_assoc] at hclean
        obtain ⟨hscheme, hprefix⟩ := h.below_slash hfile hclean hread hlisted
        refine ⟨hscheme, fun b _ hb => (by cases hb), iff_of_true (htext ▸ hprefix) ?_⟩
        rw [hdirectory]
        exact staysBelow_nil _ _
      · obtain ⟨hscheme, hiff⟩ :=
          h.below_of_noAuthority hfile ha hmarks hdirectory hclean hread
        exact ⟨hscheme, fun b _ hb => (by cases hb), hiff⟩

/-- What is written behind a root is below it just if its segments are, or if they are no
segments but the rest of a query or a fragment. -/
theorem IsNormal.below_root (h : IsNormal root) (hfile : root.scheme ≠ "file".toList)
    (hclean : cleaned s = withSlash root.chars ++ rest) (hread : ofText s = .ok url)
    (hlisted : url.isOpaque = false) :
    url.scheme = root.scheme ∧
      (∀ a, a ≠ [] → root.authority = some a → url.authority = some a) ∧
      (withSlash root.chars <+: url.chars ↔ (root.EndsInPath →
        StaysBelow (directoryOf root.segments) (writtenSegments root.scheme rest))) := by
  by_cases hmarks : root.EndsInPath
  · rw [forall_prop_of_true hmarks]
    exact h.below_of_path hfile hmarks hclean hread hlisted
  · obtain ⟨hscheme, hauthority, hprefix⟩ := h.below_of_marks hfile hmarks hclean hread
    exact ⟨hscheme, fun a _ ha => hauthority.trans ha,
      iff_of_true hprefix fun hpath => absurd hpath hmarks⟩

theorem addSegment_of_noDoubleDot {file last : Bool} {path : List (List Char)}
    {segment : List Char} (h : isDoubleDot segment = false) :
    ∃ more, addSegment file path segment last = path ++ more ∧ (last = true → more ≠ []) := by
  rw [addSegment, h, if_neg Bool.false_ne_true]
  split
  · refine ⟨_, rfl, fun hlast => ?_⟩
    rw [if_pos hlast]
    exact List.cons_ne_nil _ _
  · split
    · exact ⟨_, rfl, fun _ => List.cons_ne_nil _ _⟩
    · exact ⟨_, rfl, fun _ => List.cons_ne_nil _ _⟩

/-- Without points that lead out, nothing does. -/
theorem staysBelow_of_noDoubleDot (hne : raw ≠ []) (h : ∀ s ∈ raw, isDoubleDot s = false) :
    StaysBelow directory raw := by
  rw [StaysBelow]
  fun_induction resolve false directory raw with
  | case1 => exact absurd rfl hne
  | case2 path segment =>
      obtain ⟨more, hmore, hlast⟩ := addSegment_of_noDoubleDot (h segment List.mem_cons_self)
      exact ⟨more, hlast rfl, hmore⟩
  | case3 path segment rest hrest ih =>
      obtain ⟨more, hmore, -⟩ := addSegment_of_noDoubleDot (h segment List.mem_cons_self)
      obtain ⟨below, hbelow, hpath⟩ := ih hrest fun s hs => h s (List.mem_cons_of_mem _ hs)
      rw [hmore] at hpath
      exact ⟨more ++ below, List.append_ne_nil_of_right_ne_nil _ hbelow, by
        rw [hmore, hpath, List.append_assoc]⟩

end Roots

end CaseAccess.Url
