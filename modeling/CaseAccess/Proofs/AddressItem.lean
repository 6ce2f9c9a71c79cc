import CaseAccess.Proofs.PathSegments
import Mathlib.Data.List.TakeDrop
import Mathlib.Data.List.TakeWhile

/-!
# The address of an item in a collection

Addresses are put together as texts: the names of a collection and of an item in it are
written behind the address of a catalog. Here such a text is read. If the address of the
catalog ends in a name and a slash, has neither a query nor a fragment and has segments,
and if both names can stand in a path, then what is read is the address of the catalog
with two segments more, and its text goes on where that of the catalog ends.

Reading goes through a text from the left to the right, and at every stage stops at a
character that the catalog has already: the scheme at a colon, the authority at a slash.
So each stage is shown to hand on the rest with the names behind it, and only the path is
different. What could be cut off at the end of the shorter text are blanks, and a name and
a slash stand before them.
-/

namespace CaseAccess.Url

section Appending

variable {special file : Bool} {path : List (List Char)} {scheme s collection key : List Char}

theorem splitOn_append_mark (mark : Char) (s rest : List Char) :
    splitOn mark (s ++ mark :: rest) = splitOn mark s ++ splitOn mark rest := by
  induction s with
  | nil =>
      show splitOn mark (mark :: rest) = [] :: splitOn mark rest
      rw [splitOn, if_pos rfl]
  | cons c tail ih =>
      rw [List.cons_append, splitOn, splitOn, ih]
      split
      · rfl
      · cases hparts : splitOn mark tail with
        | nil => exact absurd hparts splitOn_ne_nil
        | cons part parts => rfl

theorem rawSegments_append (special : Bool) (s rest : List Char) :
    rawSegments special (s ++ '/' :: rest) = rawSegments special s ++ rawSegments special rest := by
  cases special with
  | false => exact splitOn_append_mark '/' s rest
  | true =>
      have hslash : (if '/' = '\\' then '/' else '/') = '/' := by decide
      rw [rawSegments, if_pos rfl, List.map_append, List.map_cons, hslash, splitOn_append_mark]
      rfl

theorem rawSegments_of_isRaw (h : IsRaw special s) : rawSegments special s = [s] := by
  have hself : (if special then s.map fun c => if c = '\\' then '/' else c else s) = s := by
    split
    · next hspecial =>
      refine (List.map_congr_left fun c hc => if_neg ?_).trans (List.map_id s)
      rintro rfl
      exact h.2 hspecial hc
    · rfl
  rw [rawSegments, hself, splitOn_of_not_mem h.1]

theorem IsSegment.isRaw (h : IsSegment special s) : IsRaw special s := ⟨h.noSlash, h.noBackslash⟩

/-- The names of a collection and of an item in it can stand in a path. -/
structure IsItem (special : Bool) (collection key : List Char) : Prop where
  isCollection : IsSegment special collection
  noDrive : isDrive collection = false
  isKey : IsSegment special key

/-- Nothing, or a text with a slash at its end. -/
def EndsInSlash (s : List Char) : Prop := s = [] ∨ ∃ front, s = front ++ ['/']

/-- What ends in a slash has an empty last segment, and two names are read in its place. -/
theorem rawSegments_item (hs : EndsInSlash s) (hitem : IsItem special collection key) :
    ∃ front, rawSegments special s = front ++ [[]] ∧
      rawSegments special (s ++ (collection ++ '/' :: key)) = front ++ [collection, key] := by
  have hempty : rawSegments special [] = [[]] :=
    rawSegments_of_isRaw ⟨List.not_mem_nil, fun _ => List.not_mem_nil⟩
  have hnames : rawSegments special (collection ++ '/' :: key) = [collection, key] := by
    rw [rawSegments_append, rawSegments_of_isRaw hitem.isCollection.isRaw,
      rawSegments_of_isRaw hitem.isKey.isRaw]
    rfl
  rcases hs with rfl | ⟨front, rfl⟩
  · exact ⟨[], hempty, hnames⟩
  · refine ⟨rawSegments special front, ?_, ?_⟩
    · rw [rawSegments_append, hempty]
    · rw [List.append_assoc, List.singleton_append, rawSegments_append, hnames]

/-! ### Resolving -/

/-- The path up to a segment that is not the last. -/
def walk (file : Bool) (path raw : List (List Char)) : List (List Char) :=
  raw.foldl (fun path segment => addSegment file path segment false) path

theorem resolve_append (file : Bool) (path front : List (List Char)) (segment : List Char)
    (rest : List (List Char)) :
    resolve file path (front ++ segment :: rest) =
      resolve file (walk file path front) (segment :: rest) := by
  induction front generalizing path with
  | nil => rfl
  | cons first front ih =>
      rw [List.cons_append, resolve]
      · exact ih _
      · exact List.append_ne_nil_of_right_ne_nil _ (List.cons_ne_nil _ _)

theorem addSegment_of_isSegment {last : Bool} (h : IsSegment special s)
    (hdrive : (file && path.isEmpty && isDrive s) = false) :
    addSegment file path s last = path ++ [s] := by
  rw [addSegment, h.noDoubleDot, h.noSingleDot, hdrive, encode_eq_self h.plain]
  rfl

theorem resolve_empty : resolve file path [[]] = path ++ [[]] := by
  have hdouble : isDoubleDot [] = false := by decide
  have hsingle : isSingleDot [] = false := by decide
  have hdrive : (file && path.isEmpty && isDrive []) = false := Bool.and_false _
  rw [resolve, addSegment, hdouble, hsingle, hdrive]
  rfl

theorem resolve_item (hitem : IsItem special collection key) :
    resolve file path [collection, key] = path ++ [collection, key] := by
  have hfirst : (file && path.isEmpty && isDrive collection) = false := by
    rw [hitem.noDrive, Bool.and_false]
  have hsecond : (file && (path ++ [collection]).isEmpty && isDrive key) = false := by simp
  rw [resolve, resolve, addSegment_of_isSegment hitem.isCollection hfirst,
    addSegment_of_isSegment hitem.isKey hsecond, List.append_assoc]
  · rfl
  · exact List.cons_ne_nil _ _

theorem leading_empty (front : List (List Char)) :
    leading (front ++ [[]]) = front.dropWhile List.isEmpty ++ [[]] := by
  induction front with
  | nil => rfl
  | cons first front ih =>
      cases first with
      | nil => exact ih
      | cons c text => rfl

theorem leading_append (front : List (List Char)) (h : s ≠ []) (rest : List (List Char)) :
    leading (front ++ s :: rest) = front.dropWhile List.isEmpty ++ s :: rest := by
  induction front with
  | nil =>
      have hs : s.isEmpty = false := by simpa using h
      rw [leading, List.nil_append, List.dropWhile_cons, hs, if_neg Bool.false_ne_true]
      rfl
  | cons first front ih =>
      cases first with
      | nil => exact ih
      | cons c text => rfl

/-- An item more in a text that ends in a slash is two segments more in its path. -/
theorem pathSegments_item (hs : EndsInSlash s)
    (hitem : IsItem (isSpecial scheme) collection key) :
    ∃ path, pathSegments scheme s = path ++ [[]] ∧
      pathSegments scheme (s ++ (collection ++ '/' :: key)) = path ++ [collection, key] := by
  obtain ⟨front, hempty, hnames⟩ := rawSegments_item hs hitem
  rw [pathSegments_eq, pathSegments_eq, hempty, hnames]
  split
  · refine ⟨(walk true [] (front.dropWhile List.isEmpty)).dropWhile List.isEmpty, ?_, ?_⟩
    · rw [leading_empty, resolve_append, resolve_empty, leading_empty]
    · rw [leading_append _ hitem.isCollection.ne_nil, resolve_append, resolve_item hitem,
        leading_append _ hitem.isCollection.ne_nil]
  · refine ⟨walk false [] front, ?_, ?_⟩
    · rw [resolve_append, resolve_empty]
    · rw [resolve_append, resolve_item hitem]

end Appending

section Extending

variable {scheme s collection key : List Char} {u v : Url}

/-- The address `v` is that of an item in a collection below `u`. -/
structure Extends (collection key : List Char) (u v : Url) : Prop where
  noQuery : u.query = none
  noFragment : u.fragment = none
  path : ∃ path, u.path = .segments (path ++ [[]]) ∧
    v = { u with path := .segments (path ++ [collection, key]) }

theorem extends_build (authority : Option (List Char)) (hs : EndsInSlash s)
    (hitem : IsItem (isSpecial scheme) collection key) :
    Extends collection key
      (build scheme authority (.segments (pathSegments scheme s)) none none)
      (build scheme authority
        (.segments (pathSegments scheme (s ++ (collection ++ '/' :: key)))) none none) := by
  obtain ⟨path, hempty, hnames⟩ := pathSegments_item hs hitem
  exact ⟨rfl, rfl, path, by rw [hempty]; rfl, by rw [hnames]; rfl⟩

theorem IsItem.not_mem {special : Bool} {c : Char} (h : IsItem special collection key)
    (hc : encodeChar pathSet c ≠ [c]) (hslash : c ≠ '/') : c ∉ collection ++ '/' :: key := by
  rw [List.mem_append, List.mem_cons]
  rintro (hmem | rfl | hmem)
  · exact hc (h.isCollection.plain c hmem)
  · exact hslash rfl
  · exact hc (h.isKey.plain c hmem)

theorem ne_of_not_mem {mark : Char} (h : mark ∉ s) : ∀ c ∈ s, decide (c ≠ mark) = true :=
  fun _ hc => decide_eq_true fun heq => h (heq ▸ hc)

theorem span_append {p : Char → Bool} (h : ∀ c ∈ s, p c = true) (rest : List Char) :
    (s ++ rest).span p = (s ++ (rest.span p).1, (rest.span p).2) := by
  simp only [List.span_eq_takeWhile_dropWhile, List.takeWhile_append_of_pos h,
    List.dropWhile_append_of_pos h]

/-- What stands before a path does not change its query and fragment. -/
theorem splitTail_append (hquery : '?' ∉ s) (hfragment : '#' ∉ s) (rest : List Char) :
    splitTail (s ++ rest) = (s ++ (splitTail rest).1, (splitTail rest).2) := by
  simp only [splitTail, span_append (ne_of_not_mem hquery), span_append (ne_of_not_mem hfragment)]

theorem splitTail_of_not_mem (hquery : '?' ∉ s) (hfragment : '#' ∉ s) :
    splitTail s = (s, none, none) := by
  have hsplit := splitTail_append hquery hfragment []
  rw [List.append_nil] at hsplit
  rw [hsplit]
  exact congrArg (Prod.mk · (none, none)) (List.append_nil s)

theorem endsInSlash_of_suffix {front rest : List Char} (h : rest <:+ front ++ ['/']) :
    EndsInSlash rest := by
  rcases List.suffix_concat_iff.1 h with rfl | ⟨front', rfl, -⟩
  · exact .inl rfl
  · exact .inr ⟨front', rfl⟩

/-- Where reading stops in a text, it stops there with more behind it. -/
theorem exists_stop {p : Char → Bool} (h : ∃ c ∈ s, p c = false) :
    ∃ head c tail, s = head ++ c :: tail ∧ p c = false ∧ ∀ more,
      (s ++ more).takeWhile p = head ∧ (s ++ more).dropWhile p = c :: (tail ++ more) ∧
        (s ++ more).drop head.length = c :: (tail ++ more) := by
  induction s with
  | nil =>
      obtain ⟨c, hc, -⟩ := h
      cases hc
  | cons c rest ih =>
      cases hp : p c with
      | false =>
          refine ⟨[], c, rest, rfl, hp, fun more => ⟨?_, ?_, rfl⟩⟩
          · rw [List.cons_append, List.takeWhile_cons, hp, if_neg Bool.false_ne_true]
          · rw [List.cons_append, List.dropWhile_cons, hp, if_neg Bool.false_ne_true]
      | true =>
          have hrest : ∃ d ∈ rest, p d = false := by
            obtain ⟨d, hd, hstop⟩ := h
            rcases List.mem_cons.1 hd with rfl | hd
            · rw [hp] at hstop
              cases hstop
            · exact ⟨d, hd, hstop⟩
          obtain ⟨head, d, tail, rfl, hstop, hmore⟩ := ih hrest
          refine ⟨c :: head, d, tail, rfl, hstop, fun more => ?_⟩
          obtain ⟨htake, hdrop, hlength⟩ := hmore more
          refine ⟨?_, ?_, hlength⟩
          · rw [List.cons_append, List.takeWhile_cons, hp, if_pos rfl, htake]
          · rw [List.cons_append, List.dropWhile_cons, hp, if_pos rfl, hdrop]

/-- The path after an authority begins behind the character that ends it. -/
theorem afterSlashes_eq {host tail more : List Char} {c : Char}
    (hquery : '?' ∉ s ++ more) (hfragment : '#' ∉ s ++ more)
    (hc : c = '/' ∨ c ≠ '/' ∧ isSpecial scheme = true)
    (htake : (s ++ more).takeWhile (fun c => !endsAuthority (isSpecial scheme) c) = host)
    (hdrop : (s ++ more).drop host.length = c :: (tail ++ more)) :
    afterSlashes scheme (s ++ more) =
      (readAuthority scheme host false).map fun authority =>
        build scheme (some authority) (.segments (pathSegments scheme (tail ++ more))) none
          none := by
  have hmore : host.length ≠ (s ++ more).length := by
    intro heq
    rw [heq, List.drop_length] at hdrop
    cases hdrop
  simp only [afterSlashes, splitTail_of_not_mem hquery hfragment, htake, hdrop, hmore, decide_false]
  cases readAuthority scheme host false with
  | error e => rfl
  | ok authority =>
      rcases hc with rfl | ⟨hne, hspecial⟩
      · rfl
      · simp only [hspecial, if_true]
        split
        · next h => cases h
        · next h =>
          cases h
          exact absurd rfl hne
        · rfl

/-- The authority ends before the slash at the end, so an item does not change it. -/
theorem afterSlashes_extends {front : List Char} (hs : s = front ++ ['/']) (hquery : '?' ∉ s)
    (hfragment : '#' ∉ s) (hitem : IsItem (isSpecial scheme) collection key)
    (h : afterSlashes scheme s = .ok u) :
    ∃ v, afterSlashes scheme (s ++ (collection ++ '/' :: key)) = .ok v ∧
      Extends collection key u v := by
  have hstop : ∃ c ∈ s, (!endsAuthority (isSpecial scheme) c) = false :=
    ⟨'/', by simp [hs], rfl⟩
  obtain ⟨host, c, tail, hsplit, hc, hreads⟩ := exists_stop hstop
  have hmem : c ∈ s := hsplit ▸ List.mem_append_right _ List.mem_cons_self
  have hslash : c = '/' ∨ c ≠ '/' ∧ isSpecial scheme = true := by
    have hends : endsAuthority (isSpecial scheme) c = true := by simpa using hc
    simp only [endsAuthority, Bool.or_eq_true, Bool.and_eq_true, decide_eq_true_eq] at hends
    rcases hends with ((hslash | hmark) | hmark) | ⟨hspecial, hmark⟩
    · exact .inl hslash
    · exact absurd (hmark ▸ hmem) hquery
    · exact absurd (hmark ▸ hmem) hfragment
    · exact .inr ⟨by simp [hmark], hspecial⟩
  have htail : EndsInSlash tail := by
    have hsuffix : tail <:+ front ++ ['/'] :=
      ⟨host ++ [c], by rw [List.append_assoc, List.singleton_append, ← hsplit, hs]⟩
    exact endsInSlash_of_suffix hsuffix
  have hbare : afterSlashes scheme (s ++ []) = (readAuthority scheme host false).map fun a =>
      build scheme (some a) (.segments (pathSegments scheme (tail ++ []))) none none :=
    afterSlashes_eq (by simpa using hquery) (by simpa using hfragment) hslash (hreads []).1
      (hreads []).2.2
  have hmore : afterSlashes scheme (s ++ (collection ++ '/' :: key)) =
      (readAuthority scheme host false).map fun a => build scheme (some a)
        (.segments (pathSegments scheme (tail ++ (collection ++ '/' :: key)))) none none :=
    afterSlashes_eq
      (List.not_mem_append hquery (hitem.not_mem (by decide) (by decide)))
      (List.not_mem_append hfragment (hitem.not_mem (by decide) (by decide)))
      hslash (hreads _).1 (hreads _).2.2
  rw [List.append_nil, List.append_nil] at hbare
  rw [hbare] at h
  cases hauthority : readAuthority scheme host false with
  | error e =>
      rw [hauthority] at h
      cases h
  | ok authority =>
      rw [hauthority] at h hmore
      cases h
      exact ⟨_, hmore, extends_build (some authority) htail hitem⟩

end Extending

/-! ### Files -/

section Files

variable {s collection key : List Char} {u : Url}

/-- The text ends in a slash behind a letter or a digit. -/
def EndsInName (s : List Char) : Prop := ∃ front c, s = front ++ [c, '/'] ∧ c.isAlphanum = true

theorem EndsInName.endsInSlash (h : EndsInName s) : ∃ front, s = front ++ ['/'] := by
  obtain ⟨front, c, rfl, -⟩ := h
  exact ⟨front ++ [c], by simp⟩

theorem EndsInName.mem (h : EndsInName s) : '/' ∈ s := by
  obtain ⟨front, rfl⟩ := h.endsInSlash
  simp

/-- Reading on behind a character that is no letter does not reach the end. -/
theorem EndsInName.of_cons {c : Char} (h : EndsInName (c :: s)) (hc : c.isAlphanum = false) :
    EndsInName s := by
  obtain ⟨front, d, hs, hd⟩ := h
  cases front with
  | nil =>
      cases hs
      rw [hc] at hd
      cases hd
  | cons first front =>
      cases hs
      exact ⟨front, d, rfl, hd⟩

theorem EndsInName.exists_cons (h : EndsInName s) : ∃ a b rest, s = a :: b :: rest := by
  obtain ⟨front, c, rfl, -⟩ := h
  match front with
  | [] => exact ⟨c, '/', [], rfl⟩
  | [a] => exact ⟨a, c, ['/'], rfl⟩
  | a :: b :: front => exact ⟨a, b, front ++ [c, '/'], rfl⟩

/-- In the address of a file every bar is read as a slash. -/
def slashes (s : List Char) : List Char := s.map fun c => if c = '\\' then '/' else c

theorem EndsInName.slashes (h : EndsInName s) : EndsInName (slashes s) := by
  obtain ⟨front, c, rfl, hc⟩ := h
  have hletter : (if c = '\\' then '/' else c) = c := by
    refine if_neg ?_
    rintro rfl
    exact absurd hc (by decide)
  exact ⟨Url.slashes front, c, by simp [Url.slashes, hletter], hc⟩

theorem slashes_item (hitem : IsItem true collection key) :
    slashes (s ++ (collection ++ '/' :: key)) = slashes s ++ (collection ++ '/' :: key) := by
  have hself : ∀ t : List Char, '\\' ∉ t → slashes t = t := by
    intro t ht
    refine (List.map_congr_left fun c hc => if_neg ?_).trans (List.map_id t)
    rintro rfl
    exact ht hc
  have hitem : '\\' ∉ collection ++ '/' :: key := by
    rw [List.mem_append, List.mem_cons]
    rintro (hmem | hmem | hmem)
    · exact hitem.isCollection.noBackslash rfl hmem
    · exact absurd hmem (by decide)
    · exact hitem.isKey.noBackslash rfl hmem
  rw [slashes, List.map_append, ← slashes, ← slashes, hself _ hitem]

/-- The address of a file without query and fragment. -/
def fileUrl (host path : List Char) : Url :=
  build "file".toList (some host) (.segments (pathSegments "file".toList path)) none none

/-- Whether the first segment of a path is the name of a drive. -/
def startsInDrive (path : List Char) : Bool :=
  match pathSegments "file".toList path with
  | first :: _ => isDrive first
  | [] => false

/-- A file behind two slashes has a host, unless a drive stands there. -/
theorem ofFile_of_host (hquery : '?' ∉ s) (hfragment : '#' ∉ s) {rest host path : List Char}
    (hslashes : slashes s = '/' :: '/' :: rest) (hhost : rest.takeWhile (· ≠ '/') = host)
    (hpath : rest.drop host.length = path) :
    ofFile s =
      if host.isEmpty then .ok (fileUrl [] path)
      else if isDrive host then .ok (fileUrl [] rest)
      else (specialHost host).map fun name =>
        fileUrl (if name == "localhost".toList || startsInDrive path then [] else name) path := by
  subst hhost hpath
  simp only [ofFile, splitTail_of_not_mem hquery hfragment]
  rw [← slashes]
  simp only [hslashes]
  cases specialHost (rest.takeWhile (· ≠ '/')) with
  | error e => rfl
  | ok name => rfl

/-- Any other file has none. -/
theorem ofFile_of_path (hquery : '?' ∉ s) (hfragment : '#' ∉ s)
    (hslashes : ∀ rest, slashes s ≠ '/' :: '/' :: rest) :
    ofFile s = .ok (fileUrl [] (slashes s)) := by
  simp only [ofFile, splitTail_of_not_mem hquery hfragment]
  rw [← slashes]
  split
  · next rest heq => exact absurd heq (hslashes rest)
  · rfl

section Item

variable (hitem : IsItem (isSpecial "file".toList) collection key)

include hitem

theorem extends_fileUrl (host : List Char) (hs : EndsInSlash s) :
    Extends collection key (fileUrl host s) (fileUrl host (s ++ (collection ++ '/' :: key))) :=
  extends_build (some host) hs hitem

/-- Neither the empty segment at the end of a path nor the names in its place are drives. -/
theorem startsInDrive_item (hs : EndsInSlash s) :
    startsInDrive (s ++ (collection ++ '/' :: key)) = startsInDrive s := by
  obtain ⟨path, hempty, hnames⟩ := pathSegments_item hs hitem
  rw [startsInDrive, startsInDrive, hempty, hnames]
  cases path with
  | nil => exact hitem.noDrive
  | cons first path => rfl

/-- The host of a file ends before the slash at the end, so an item does not change it. -/
theorem ofFile_extends_host (hquery : '?' ∉ s) (hfragment : '#' ∉ s) {rest : List Char}
    (hslashes : slashes s = '/' :: '/' :: rest) (hrest : EndsInName rest) (h : ofFile s = .ok u) :
    ∃ v, ofFile (s ++ (collection ++ '/' :: key)) = .ok v ∧ Extends collection key u v := by
  have hquery' := List.not_mem_append hquery (hitem.not_mem (c := '?') (by decide) (by decide))
  have hfragment' :=
    List.not_mem_append hfragment (hitem.not_mem (c := '#') (by decide) (by decide))
  have hslashes' : slashes (s ++ (collection ++ '/' :: key)) =
      '/' :: '/' :: (rest ++ (collection ++ '/' :: key)) := by
    rw [slashes_item hitem, hslashes]
    rfl
  have hstop : ∃ c ∈ rest, decide (c ≠ '/') = false := ⟨'/', hrest.mem, by decide⟩
  obtain ⟨host, c, tail, hsplit, hc, hreads⟩ := exists_stop hstop
  have htail : EndsInSlash (c :: tail) := by
    obtain ⟨front, hend⟩ := hrest.endsInSlash
    have hsuffix : c :: tail <:+ front ++ ['/'] := ⟨host, by rw [← hsplit, hend]⟩
    exact endsInSlash_of_suffix hsuffix
  have hbare := hreads []
  rw [List.append_nil, List.append_nil] at hbare
  obtain ⟨hhost, -, hpath⟩ := hreads (collection ++ '/' :: key)
  rw [ofFile_of_host hquery hfragment hslashes hbare.1 hbare.2.2] at h
  rw [ofFile_of_host hquery' hfragment' hslashes' hhost hpath]
  split at h
  · next hempty =>
    cases h
    rw [if_pos hempty]
    exact ⟨_, rfl, extends_fileUrl hitem [] htail⟩
  · next hempty =>
    rw [if_neg hempty]
    split at h
    · next hdrive =>
      cases h
      rw [if_pos hdrive]
      exact ⟨_, rfl, extends_fileUrl hitem [] (.inr hrest.endsInSlash)⟩
    · next hdrive =>
      rw [if_neg hdrive]
      cases hname : specialHost host with
      | error e =>
          rw [hname] at h
          cases h
      | ok name =>
          rw [hname] at h
          cases h
          rw [← List.cons_append, startsInDrive_item hitem htail]
          exact ⟨_, rfl, extends_fileUrl hitem _ htail⟩

theorem ofFile_extends (hs : EndsInName s) (hquery : '?' ∉ s) (hfragment : '#' ∉ s)
    (h : ofFile s = .ok u) :
    ∃ v, ofFile (s ++ (collection ++ '/' :: key)) = .ok v ∧ Extends collection key u v := by
  obtain ⟨a, b, rest, hfront⟩ := hs.slashes.exists_cons
  by_cases hslashes : a = '/' ∧ b = '/'
  · obtain ⟨rfl, rfl⟩ := hslashes
    have hname : EndsInName ('/' :: '/' :: rest) := hfront ▸ hs.slashes
    have hrest : EndsInName rest := (hname.of_cons (by decide)).of_cons (by decide)
    exact ofFile_extends_host hitem hquery hfragment hfront hrest h
  · have hnone : ∀ more rest', slashes s ++ more ≠ '/' :: '/' :: rest' := by
      intro more rest' heq
      rw [hfront] at heq
      cases heq
      exact hslashes ⟨rfl, rfl⟩
    have hnone' : ∀ rest', slashes (s ++ (collection ++ '/' :: key)) ≠ '/' :: '/' :: rest' := by
      rw [slashes_item hitem]
      exact hnone _
    rw [ofFile_of_path hquery hfragment fun rest' => by simpa using hnone [] rest'] at h
    cases h
    rw [ofFile_of_path (List.not_mem_append hquery (hitem.not_mem (by decide) (by decide)))
      (List.not_mem_append hfragment (hitem.not_mem (by decide) (by decide))) hnone',
      slashes_item hitem]
    exact ⟨_, rfl, extends_fileUrl hitem [] (.inr hs.slashes.endsInSlash)⟩

end Item

end Files

/-! ### All of an address -/

section Whole

variable {s more scheme rest collection key : List Char} {u v : Url}

/-- The scheme of a text is what stands before its first colon. -/
theorem scheme?_append (h : scheme? s = some (scheme, rest)) :
    (∃ front, s = front ++ ':' :: rest) ∧
      ∀ more, scheme? (s ++ more) = some (scheme, rest ++ more) := by
  cases s with
  | nil => cases h
  | cons c tail =>
      simp only [scheme?] at h
      split at h
      · next hc =>
        split at h
        · next after hafter =>
          cases h
          have hstop : ∃ d ∈ c :: tail, isSchemeChar d = false := by
            have hcolon : ':' ∈ (c :: tail).dropWhile isSchemeChar := by rw [hafter]; simp
            exact ⟨':', (List.dropWhile_suffix _).subset hcolon, by decide⟩
          obtain ⟨head, d, behind, hsplit, -, hreads⟩ := exists_stop hstop
          have hbare := hreads []
          rw [List.append_nil, List.append_nil, hafter] at hbare
          obtain ⟨htake, heq, -⟩ := hbare
          cases heq
          refine ⟨⟨head, hsplit⟩, fun more => ?_⟩
          obtain ⟨htake', hdrop, -⟩ := hreads more
          rw [List.cons_append] at htake' hdrop
          simp only [List.cons_append, scheme?, if_pos hc, htake', hdrop, htake]
        · cases h
      · cases h

theorem EndsInName.of_append {front : List Char} {c : Char} (h : EndsInName (front ++ c :: s))
    (hc : c.isAlphanum = false) (hslash : c ≠ '/') : EndsInName s := by
  induction front with
  | nil => exact h.of_cons hc
  | cons first front ih =>
      obtain ⟨start, d, hsplit, hd⟩ := h
      cases start with
      | nil =>
          obtain ⟨-, hrest⟩ := List.cons.inj hsplit
          have hmem : c ∈ ['/'] := hrest ▸ List.mem_append_right _ List.mem_cons_self
          exact absurd (List.mem_singleton.1 hmem) hslash
      | cons e start => exact ih ⟨start, d, (List.cons.inj hsplit).2, hd⟩

theorem dropWhile_append_stop {p : Char → Bool} {c : Char} (hc : p c = false)
    (front rest : List Char) :
    (front ++ c :: rest).dropWhile p = front.dropWhile p ++ c :: rest := by
  induction front with
  | nil => rw [List.nil_append, List.dropWhile_cons, hc, if_neg Bool.false_ne_true]; rfl
  | cons first front ih =>
      rw [List.cons_append, List.dropWhile_cons, List.dropWhile_cons]
      split
      · exact ih
      · rfl

theorem EndsInName.dropWhile {p : Char → Bool} (h : EndsInName s)
    (hp : ∀ c, c.isAlphanum = true → p c = false) :
    EndsInName (s.dropWhile p) ∧
      ∀ more, (s ++ more).dropWhile p = s.dropWhile p ++ more := by
  obtain ⟨front, c, rfl, hc⟩ := h
  have hdrop := dropWhile_append_stop (hp c hc) front
  refine ⟨⟨front.dropWhile p, c, hdrop ['/'], hc⟩, fun more => ?_⟩
  rw [List.append_assoc, List.cons_append, List.singleton_append, hdrop, hdrop, List.append_assoc]
  rfl

/-- What is dropped at the ends of a text, and what is dropped nowhere. -/
def isEdge (c : Char) : Bool := c.toNat ≤ 32

def isKept (c : Char) : Bool := c ≠ '\t' ∧ c ≠ '\n' ∧ c ≠ '\r'

theorem isKept_of_isEdge {c : Char} (h : isEdge c = false) : isKept c = true := by
  rw [isKept, decide_eq_true_eq]
  refine ⟨?_, ?_, ?_⟩ <;> (rintro rfl; exact absurd h (by decide))

theorem isEdge_of_isAlphanum {c : Char} (h : c.isAlphanum = true) : isEdge c = false := by
  have hrange := toNat_of_isAlphanum h
  rw [isEdge, decide_eq_false_iff_not]
  omega

/-- What stands before a character that is not dropped, and what stands behind it, are
cleaned by themselves. -/
theorem cleaned_append_stop {c : Char} (hc : isEdge c = false) (front more : List Char) :
    cleaned (front ++ c :: more) =
      (front.dropWhile isEdge).filter isKept ++
        c :: (more.reverse.dropWhile isEdge).reverse.filter isKept := by
  show (((front ++ c :: more).dropWhile isEdge).reverse.dropWhile isEdge).reverse.filter isKept = _
  rw [dropWhile_append_stop hc, List.reverse_append, List.reverse_cons, List.append_assoc,
    List.singleton_append, dropWhile_append_stop hc, List.reverse_append, List.reverse_cons,
    List.reverse_reverse, List.append_assoc, List.singleton_append, List.filter_append,
    List.filter_cons, if_pos (isKept_of_isEdge hc)]

theorem cleaned_eq (front : List Char) {c : Char} (hc : c.isAlphanum = true) (more : List Char) :
    cleaned (front ++ c :: '/' :: more) =
      (front.dropWhile isEdge).filter isKept ++
        c :: '/' :: (more.reverse.dropWhile isEdge).reverse.filter isKept := by
  have hedge := isEdge_of_isAlphanum hc
  have hstop : isEdge '/' = false := by decide
  have hsplit : front ++ c :: '/' :: more = (front ++ [c]) ++ '/' :: more := by simp
  rw [hsplit, cleaned_append_stop hstop, dropWhile_append_stop hedge, List.filter_append,
    List.filter_cons, if_pos (isKept_of_isEdge hedge), List.append_assoc]
  rfl

theorem EndsInName.cleaned (h : EndsInName s) : EndsInName (cleaned s) := by
  obtain ⟨front, c, rfl, hc⟩ := h
  rw [cleaned_eq front hc]
  exact ⟨_, c, rfl, hc⟩

theorem cleaned_append (hs : EndsInName s) (more : List Char) :
    cleaned (s ++ more) =
      cleaned s ++ (more.reverse.dropWhile isEdge).reverse.filter isKept := by
  obtain ⟨front, c, rfl, hc⟩ := hs
  have hbare := cleaned_eq front hc []
  rw [List.append_assoc, List.cons_append, List.singleton_append, cleaned_eq front hc, hbare,
    List.append_assoc]
  rfl

theorem cleaned_append_plain (hs : EndsInName s) (hmore : ∀ c ∈ more, 32 < c.toNat) :
    cleaned (s ++ more) = cleaned s ++ more := by
  have hedge : ∀ c ∈ more, isEdge c = false := by
    intro c hc
    have hrange := hmore c hc
    rw [isEdge, decide_eq_false_iff_not]
    omega
  have hdrop : more.reverse.dropWhile isEdge = more.reverse := by
    refine List.dropWhile_eq_self_iff.2 fun hlength => ?_
    rw [Bool.not_eq_true]
    exact hedge _ (List.mem_reverse.1 (List.getElem_mem hlength))
  have hkept : more.filter isKept = more :=
    List.filter_eq_self.2 fun c hc => isKept_of_isEdge (hedge c hc)
  rw [cleaned_append hs, hdrop, List.reverse_reverse, hkept]

theorem scheme_of_afterSlashes (h : afterSlashes scheme s = .ok u) :
    u.scheme = scheme ∧ u.isOpaque = false := by
  obtain ⟨authority, -, h⟩ := except_of_bind_ok h
  cases h
  exact ⟨rfl, rfl⟩

theorem scheme_of_ofFile (h : ofFile s = .ok u) :
    u.scheme = "file".toList ∧ u.isOpaque = false := by
  simp only [ofFile] at h
  split at h
  · split at h
    · cases h
      exact ⟨rfl, rfl⟩
    · split at h
      · cases h
        exact ⟨rfl, rfl⟩
      · obtain ⟨host, -, h⟩ := except_of_bind_ok h
        cases h
        exact ⟨rfl, rfl⟩
  · cases h
    exact ⟨rfl, rfl⟩

/-- An address has the scheme that its text begins with, and if it has segments the scheme
is special or a slash comes next. -/
theorem scheme_of_ofText (h : ofText s = .ok u) :
    ∃ rest, scheme? (cleaned s) = some (u.scheme, rest) ∧
      (u.isOpaque = false ↔ isSpecial u.scheme = true ∨ rest.head? = some '/') := by
  simp only [ofText] at h
  split at h
  · cases h
  · next scheme rest hscheme =>
    split at h
    · next hfile =>
      obtain ⟨hu, hsegments⟩ := scheme_of_ofFile h
      refine ⟨rest, by rw [hscheme, hu, hfile], iff_of_true hsegments (.inl ?_)⟩
      rw [hu]
      decide
    · split at h
      · next hspecial =>
        obtain ⟨rfl, hsegments⟩ := scheme_of_afterSlashes h
        exact ⟨rest, hscheme, iff_of_true hsegments (.inl hspecial)⟩
      · next hspecial =>
        split at h
        · obtain ⟨rfl, hsegments⟩ := scheme_of_afterSlashes h
          exact ⟨_, hscheme, iff_of_true hsegments (.inr rfl)⟩
        · cases h
          exact ⟨_, hscheme, iff_of_true rfl (.inr rfl)⟩
        · next hslash =>
          cases h
          refine ⟨rest, hscheme,
            iff_of_false (fun hsegments => absurd hsegments.symm Bool.false_ne_true) ?_⟩
          rintro (h | h)
          · exact hspecial h
          · obtain ⟨path, rfl⟩ := List.head?_eq_some_iff.1 h
            exact hslash path rfl

theorem mem_of_mem_cleaned {c : Char} (h : c ∈ cleaned s) : c ∈ s := by
  have hinner := List.mem_reverse.1 (List.mem_filter.1 h).1
  exact (List.dropWhile_suffix _).subset
    (List.mem_reverse.1 ((List.dropWhile_suffix _).subset hinner))

/-! What a text is read as, by its scheme and by what comes next. -/

theorem ofText_of_file (hread : scheme? (cleaned s) = some ("file".toList, rest)) :
    ofText s = ofFile rest := by
  simp only [ofText, hread]
  rfl

theorem ofText_of_special (hread : scheme? (cleaned s) = some (scheme, rest))
    (hfile : scheme ≠ "file".toList) (hspecial : isSpecial scheme = true) :
    ofText s = afterSlashes scheme (rest.dropWhile fun c => c = '/' || c = '\\') := by
  simp only [ofText, hread, if_neg hfile, if_pos hspecial]

theorem ofText_of_authority (hread : scheme? (cleaned s) = some (scheme, '/' :: '/' :: rest))
    (hspecial : isSpecial scheme = false) : ofText s = afterSlashes scheme rest := by
  have hfile : scheme ≠ "file".toList := by
    rintro rfl
    exact absurd hspecial (by decide)
  simp only [ofText, hread, if_neg hfile, hspecial, Bool.false_eq_true, if_false]

theorem ofText_of_rooted (hread : scheme? (cleaned s) = some (scheme, '/' :: rest))
    (hspecial : isSpecial scheme = false) (hslash : ∀ tail, rest ≠ '/' :: tail)
    (hquery : '?' ∉ rest) (hfragment : '#' ∉ rest) :
    ofText s = .ok (build scheme none (.segments (pathSegments scheme rest)) none none) := by
  have hfile : scheme ≠ "file".toList := by
    rintro rfl
    exact absurd hspecial (by decide)
  simp only [ofText, hread, if_neg hfile, hspecial, Bool.false_eq_true, if_false]
  rw [splitTail_of_not_mem hquery hfragment]

section Item

variable (hitem : IsItem (isSpecial scheme) collection key)

include hitem

theorem cleaned_item (hs : EndsInName s) :
    cleaned (s ++ (collection ++ '/' :: key)) = cleaned s ++ (collection ++ '/' :: key) := by
  refine cleaned_append_plain hs fun c hc => ?_
  rw [List.mem_append, List.mem_cons] at hc
  rcases hc with hc | rfl | hc
  · exact (toNat_of_plain (hitem.isCollection.plain c hc)).1
  · decide
  · exact (toNat_of_plain (hitem.isKey.plain c hc)).1

/-- However many slashes come after the colon, what comes after them goes on with the item. -/
theorem afterSlashes_extends_dropWhile (hrest : EndsInName rest) (hquery : '?' ∉ rest)
    (hfragment : '#' ∉ rest)
    (h : afterSlashes scheme (rest.dropWhile fun c => c = '/' || c = '\\') = .ok u) :
    ∃ v, afterSlashes scheme
        ((rest ++ (collection ++ '/' :: key)).dropWhile fun c => c = '/' || c = '\\') = .ok v ∧
      Extends collection key u v := by
  have hletter : ∀ c : Char, c.isAlphanum = true →
      (decide (c = '/') || decide (c = '\\')) = false := by
    intro c hc
    rw [Bool.or_eq_false_iff, decide_eq_false_iff_not, decide_eq_false_iff_not]
    refine ⟨?_, ?_⟩ <;> (rintro rfl; exact absurd hc (by decide))
  obtain ⟨hname, hdrop⟩ := hrest.dropWhile hletter
  obtain ⟨start, hend⟩ := hname.endsInSlash
  have hsuffix : (rest.dropWhile fun c => c = '/' || c = '\\') ⊆ rest :=
    (List.dropWhile_suffix _).subset
  rw [hdrop]
  exact afterSlashes_extends hend (mt (@hsuffix _) hquery) (mt (@hsuffix _) hfragment) hitem h

/-- The same for a scheme that is not special, where one slash begins a path and two begin an
authority. -/
theorem ofText_extends_rooted (hspecial : isSpecial scheme = false)
    (hread : scheme? (cleaned s) = some (scheme, '/' :: rest))
    (hmore : scheme? (cleaned (s ++ (collection ++ '/' :: key))) =
      some (scheme, '/' :: rest ++ (collection ++ '/' :: key)))
    (hrest : EndsInName rest) (hquery : '?' ∉ rest) (hfragment : '#' ∉ rest)
    (h : ofText s = .ok u) :
    ∃ v, ofText (s ++ (collection ++ '/' :: key)) = .ok v ∧ Extends collection key u v := by
  obtain ⟨a, b, tail, rfl⟩ := hrest.exists_cons
  by_cases hslash : a = '/'
  · subst hslash
    rw [ofText_of_authority hread hspecial] at h
    rw [ofText_of_authority hmore hspecial]
    obtain ⟨start, hend⟩ := (hrest.of_cons (by decide)).endsInSlash
    exact afterSlashes_extends hend (mt (List.mem_cons_of_mem _) hquery)
      (mt (List.mem_cons_of_mem _) hfragment) hitem h
  · have hnone : ∀ more tail', a :: more ≠ '/' :: tail' := by
      intro more tail' heq
      cases heq
      exact hslash rfl
    rw [ofText_of_rooted hread hspecial (hnone _) hquery hfragment] at h
    cases h
    refine ⟨_, ofText_of_rooted hmore hspecial (hnone _)
      (List.not_mem_append hquery (hitem.not_mem (by decide) (by decide)))
      (List.not_mem_append hfragment (hitem.not_mem (by decide) (by decide))), ?_⟩
    exact extends_build none (.inr hrest.endsInSlash) hitem

end Item

/-- An item below an address that ends in a name and a slash is read as what it is. -/
theorem ofText_extends (hs : EndsInName s) (hquery : '?' ∉ s) (hfragment : '#' ∉ s)
    (h : ofText s = .ok u) (hu : u.isOpaque = false)
    (hitem : IsItem (isSpecial u.scheme) collection key) :
    ∃ v, ofText (s ++ (collection ++ '/' :: key)) = .ok v ∧ Extends collection key u v := by
  obtain ⟨rest, hread, hsegments⟩ := scheme_of_ofText h
  have hnext := hsegments.1 hu
  clear hsegments
  generalize u.scheme = scheme at hread hnext hitem
  obtain ⟨⟨front, hsplit⟩, hscheme⟩ := scheme?_append hread
  have hmore : scheme? (cleaned (s ++ (collection ++ '/' :: key))) =
      some (scheme, rest ++ (collection ++ '/' :: key)) := by
    rw [cleaned_item hitem hs]
    exact hscheme _
  have hrest : EndsInName rest := by
    have hcleaned := hs.cleaned
    rw [hsplit] at hcleaned
    exact hcleaned.of_append (by decide) (by decide)
  have hnone : ∀ c, c ∉ s → c ∉ rest := by
    intro c hc hmem
    have hcleaned : c ∈ cleaned s := hsplit ▸ List.mem_append_right _ (List.mem_cons_of_mem _ hmem)
    exact hc (mem_of_mem_cleaned hcleaned)
  cases hspecial : isSpecial scheme with
  | true =>
      by_cases hfile : scheme = "file".toList
      · subst hfile
        rw [ofText_of_file hread] at h
        rw [ofText_of_file hmore]
        exact ofFile_extends hitem hrest (hnone _ hquery) (hnone _ hfragment) h
      · rw [ofText_of_special hread hfile hspecial] at h
        rw [ofText_of_special hmore hfile hspecial]
        exact afterSlashes_extends_dropWhile hitem hrest (hnone _ hquery) (hnone _ hfragment) h
  | false =>
      rw [hspecial] at hnext
      obtain ⟨path, rfl⟩ := List.head?_eq_some_iff.1 (hnext.resolve_left Bool.false_ne_true)
      exact ofText_extends_rooted hitem hspecial hread hmore (hrest.of_cons (by decide))
        (mt (List.mem_cons_of_mem _) (hnone _ hquery))
        (mt (List.mem_cons_of_mem _) (hnone _ hfragment)) h

end Whole

/-! ### The text of an item's address -/

section Text

variable {collection key : List Char} {u v : Url}

namespace Extends

theorem isOpaque_eq (h : Extends collection key u v) : v.isOpaque = false := by
  obtain ⟨path, -, rfl⟩ := h.path
  rfl

theorem getLast_names (h : Extends collection key u v) (hkey : key ≠ []) :
    v.names.getLast? = some key := by
  obtain ⟨path, -, rfl⟩ := h.path
  have hlast : path ++ [collection, key] = (path ++ [collection]) ++ [key] := by simp
  have hkept : (!key.isEmpty) = true := by simpa using hkey
  have hfilter : [key].filter (fun s => !s.isEmpty) = [key] := by
    rw [List.filter_cons, hkept, if_pos rfl, List.filter_nil]
  rw [names, segments, hlast, List.filter_append, hfilter]
  exact List.getLast?_concat

/-- The slash at the end of the shorter address goes on in the longer one. -/
theorem pathText_eq (h : Extends collection key u v) (hcollection : collection ≠ []) :
    ∃ front, u.pathText = front ++ ['/'] ∧
      v.pathText = front ++ '/' :: (collection ++ '/' :: key) := by
  obtain ⟨path, hpath, rfl⟩ := h.path
  obtain ⟨scheme, authority, _, query, fragment⟩ := u
  cases hpath
  have hbare : slashed (path ++ [[]]) = slashed path ++ ['/'] := by
    rw [slashed, List.flatMap_append]
    rfl
  have hmore : slashed (path ++ [collection, key]) =
      slashed path ++ '/' :: (collection ++ '/' :: key) := by
    rw [slashed, List.flatMap_append]
    simp [slashed]
  match authority, path, hbare, hmore with
  | some a, path, hbare, hmore =>
      have hsome : ∀ list, pathText ⟨scheme, some a, .segments list, query, fragment⟩ =
          slashed list := by
        intro list
        match list with
        | [] => rfl
        | [[]] => rfl
        | [] :: _ :: _ => rfl
        | (_ :: _) :: _ => rfl
      exact ⟨slashed path, (hsome _).trans hbare, (hsome _).trans hmore⟩
  | none, [], hbare, hmore =>
      obtain ⟨c, rest, rfl⟩ := List.exists_cons_of_ne_nil hcollection
      exact ⟨[], hbare, hmore⟩
  | none, (c :: first) :: path, hbare, hmore =>
      exact ⟨slashed ((c :: first) :: path), hbare, hmore⟩
  | none, [[]], hbare, hmore =>
      refine ⟨'/' :: '.' :: slashed [[]], ?_, ?_⟩
      · exact congrArg (fun text => '/' :: '.' :: text) hbare
      · exact congrArg (fun text => '/' :: '.' :: text) hmore
  | none, [] :: second :: path, hbare, hmore =>
      refine ⟨'/' :: '.' :: slashed ([] :: second :: path), ?_, ?_⟩
      · exact congrArg (fun text => '/' :: '.' :: text) hbare
      · exact congrArg (fun text => '/' :: '.' :: text) hmore

theorem chars_eq (h : Extends collection key u v) (hcollection : collection ≠ []) :
    ∃ front, u.chars = front ++ ['/'] ∧ v.chars = front ++ '/' :: (collection ++ '/' :: key) := by
  obtain ⟨front, hu, hv⟩ := h.pathText_eq hcollection
  obtain ⟨path, -, hsame⟩ := h.path
  have hquery := h.noQuery
  have hfragment := h.noFragment
  cases hauthority : u.authority with
  | none =>
      refine ⟨u.scheme ++ ':' :: front, ?_, ?_⟩
      · simp [chars, hu, hauthority, hquery, hfragment, marked]
      · rw [chars, hv, hsame]
        simp [hauthority, hquery, hfragment, marked]
  | some a =>
      refine ⟨u.scheme ++ ':' :: '/' :: '/' :: (a ++ front), ?_, ?_⟩
      · simp [chars, hu, hauthority, hquery, hfragment, marked]
      · rw [chars, hv, hsame]
        simp [hauthority, hquery, hfragment, marked]

end Extends

end Text

end CaseAccess.Url
