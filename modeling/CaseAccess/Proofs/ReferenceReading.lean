import CaseAccess.LocalBases
import CaseAccess.Proofs.AddressItem

/-!
# What a reference is read from

A reference that was read is a remote one, and then it is the text that it was read from,
or the identifier of an object that is held here. The identifier is not blank at its ends,
and it is no address itself.

The address under which an object is shown is made of that of the own catalog, the
collection and the identifier, one behind the other. Read again it gives the identifier
back just if the address of the catalog is one that has a host or a path, and the
identifier can stand in a path. Any other identifier is lost: it is read as more than one
segment, as the query, as another place, or in another spelling.
-/

namespace CaseAccess

open Url (EndsInName IsItem IsSegment)

/-! ## Marks of a scheme -/

theorem hasSchemeMark_cons {c : Char} {s : List Char} (hc : c ≠ ':') :
    hasSchemeMark (c :: s) = hasSchemeMark s := by
  rw [hasSchemeMark]
  rintro rest rfl
  exact absurd rfl hc

theorem hasSchemeMark_of_not_mem {s : List Char} (h : '/' ∉ s) : hasSchemeMark s = false := by
  fun_induction hasSchemeMark s with
  | case1 rest => exact absurd (by simp) h
  | case2 c rest hrest ih => exact ih fun hmem => h (List.mem_cons_of_mem _ hmem)
  | case3 => rfl

theorem hasSchemeMark_dropBlanks (s : List Char) :
    hasSchemeMark (s.dropWhile isBlank) = hasSchemeMark s := by
  induction s with
  | nil => rfl
  | cons c rest ih =>
      rw [List.dropWhile_cons]
      split
      · next hblank =>
        rw [ih, hasSchemeMark_cons]
        rintro rfl
        exact absurd hblank (by decide)
      · rfl

theorem hasSchemeMark_three (a b c : Char) (s : List Char) :
    hasSchemeMark (a :: b :: c :: s) =
      ((a = ':' ∧ b = '/' ∧ c = '/') || hasSchemeMark (b :: c :: s)) := by
  by_cases hmark : a = ':' ∧ b = '/' ∧ c = '/'
  · obtain ⟨rfl, rfl, rfl⟩ := hmark
    rfl
  · rw [decide_eq_false hmark, Bool.false_or, hasSchemeMark]
    intro rest ha hrest
    obtain ⟨hb, hrest⟩ := List.cons.inj hrest
    exact hmark ⟨ha, hb, (List.cons.inj hrest).1⟩

/-- No mark begins in a name and a slash and goes on behind them. -/
theorem hasSchemeMark_append {s : List Char} (hs : EndsInName s) (rest : List Char) :
    hasSchemeMark (s ++ rest) = (hasSchemeMark s || hasSchemeMark rest) := by
  obtain ⟨front, c, rfl, hc⟩ := hs
  induction front with
  | nil =>
      have hcolon : c ≠ ':' := by
        rintro rfl
        exact absurd hc (by decide)
      have hname : hasSchemeMark [c, '/'] = false := by
        rw [hasSchemeMark_cons hcolon]
        rfl
      rw [List.nil_append, hname, List.cons_append, List.singleton_append,
        hasSchemeMark_cons hcolon, hasSchemeMark_cons (by decide), Bool.false_or]
  | cons a front ih =>
      obtain ⟨b, d, tail, htail⟩ := EndsInName.exists_cons ⟨front, c, rfl, hc⟩
      rw [htail] at ih
      rw [List.cons_append, htail, List.cons_append, List.cons_append, List.cons_append,
        hasSchemeMark_three, hasSchemeMark_three, Bool.or_assoc, ← ih]
      rfl

theorem hasSchemeMark_append_of_not_mem {front : List Char} (h : ':' ∉ front)
    (rest : List Char) : hasSchemeMark (front ++ rest) = hasSchemeMark rest := by
  induction front with
  | nil => rfl
  | cons c front ih =>
      have hc : c ≠ ':' := fun heq => h (heq ▸ List.mem_cons_self)
      rw [List.cons_append, hasSchemeMark_cons hc, ih fun hmem => h (List.mem_cons_of_mem _ hmem)]

/-! ## Blanks -/

/-- A text that is not blank at its ends has a character at its end that is not blank. -/
theorem exists_last {word : List Char} (h : trim word = word) (hne : word ≠ []) :
    ∃ front c, word = front ++ [c] ∧ isBlank c = false := by
  have hlast : ∀ c ∈ word.reverse.head?, isBlank c = false := by
    rw [← h, trim, List.reverse_reverse]
    exact head_trimLeft _
  obtain ⟨c, rest, hreverse⟩ := List.exists_cons_of_ne_nil (List.reverse_ne_nil_iff.2 hne)
  refine ⟨rest.reverse, c, ?_, hlast c ?_⟩
  · rw [← List.reverse_reverse word, hreverse, List.reverse_cons]
  · rw [hreverse]
    rfl

/-- Behind what is not blank at its end nothing is trimmed. -/
theorem trim_append {word : List Char} (h : trim word = word) (hne : word ≠ [])
    (front : List Char) : trim (front ++ word) = (front ++ word).dropWhile isBlank := by
  obtain ⟨start, c, rfl, hc⟩ := exists_last h hne
  have hdrop : (front ++ (start ++ [c])).dropWhile isBlank =
      (front ++ start).dropWhile isBlank ++ [c] := by
    rw [← List.append_assoc]
    exact Url.dropWhile_append_stop hc (front ++ start) []
  have hend : ∀ d ∈ ((front ++ start).dropWhile isBlank ++ [c]).reverse.head?,
      isBlank d = false := by
    rw [List.reverse_append]
    rintro _ ⟨⟩
    exact hc
  have hleft : trimLeft (front ++ (start ++ [c])) =
      (front ++ start).dropWhile isBlank ++ [c] := hdrop
  rw [trim, hleft, trimLeft_eq_self hend, List.reverse_reverse, hdrop]

theorem trim_of_plain {word : List Char} (h : ∀ c ∈ word, Url.encodeChar Url.pathSet c = [c]) :
    trim word = word := by
  have hself : ∀ s : List Char, (∀ c ∈ s, Url.encodeChar Url.pathSet c = [c]) → trimLeft s = s := by
    intro s hs
    refine trimLeft_eq_self fun c hc => ?_
    have hrange := Url.toNat_of_plain (hs c (List.mem_of_mem_head? hc))
    exact isBlank_of_toNat (by omega)
  rw [trim, hself _ h, hself _ fun c hc => h c (List.mem_reverse.1 hc), List.reverse_reverse]

namespace Url

/-- What is dropped before a scheme is followed by a letter. -/
theorem isBlank_of_scheme {s : List Char} (hs : EndsInName s)
    (h : (scheme? (cleaned s)).isSome = true) :
    ∀ c ∈ (s.dropWhile isEdge).head?, isBlank c = false := by
  have hletter : ∀ c : Char, c.isAlphanum = true → isBlank c = false := by
    intro c hc
    have hrange := toNat_of_isAlphanum hc
    exact isBlank_of_toNat (by omega)
  obtain ⟨front, d, rfl, hd⟩ := hs
  rw [cleaned_eq front hd []] at h
  rw [dropWhile_append_stop (isEdge_of_isAlphanum hd)]
  cases hfront : front.dropWhile isEdge with
  | nil =>
      rintro _ ⟨⟩
      exact hletter d hd
  | cons c rest =>
      have hedge : isEdge c = false := by
        have hnot := List.head_dropWhile_not isEdge (hfront ▸ List.cons_ne_nil c rest)
        simpa only [hfront, List.head_cons] using hnot
      rw [hfront, List.filter_cons, if_pos (isKept_of_isEdge hedge)] at h
      rintro _ ⟨⟩
      simp only [List.cons_append, scheme?] at h
      split at h
      · next hc => exact hletter c (by rw [Char.isAlphanum, hc, Bool.true_or])
      · cases h

/-- Blanks before the scheme of an address do not count. -/
theorem cleaned_dropBlanks {s : List Char} (hs : EndsInName s)
    (h : (scheme? (cleaned s)).isSome = true) : cleaned (s.dropWhile isBlank) = cleaned s := by
  have hhead := isBlank_of_scheme hs h
  have hdrop : (s.dropWhile isBlank).dropWhile isEdge = s.dropWhile isEdge := by
    clear hs h
    induction s with
    | nil => rfl
    | cons c rest ih =>
        rw [List.dropWhile_cons] at hhead
        rw [List.dropWhile_cons]
        split
        · next hblank =>
          cases hedge : isEdge c with
          | true =>
              rw [if_pos hedge] at hhead
              rw [ih hhead, List.dropWhile_cons, if_pos hedge]
          | false =>
              rw [if_neg (by rw [hedge]; exact Bool.false_ne_true)] at hhead
              rw [hhead c rfl] at hblank
              cases hblank
        · rfl
  show (((s.dropWhile isBlank).dropWhile isEdge).reverse.dropWhile isEdge).reverse.filter isKept = _
  rw [hdrop]
  rfl

end Url

/-! ## What is read -/

namespace LocalBases

open Url (ofText isSpecial)

variable {bases : LocalBases} {text : String} {r : TypeRef} {chars : List Char}

/-- What a text without blanks at its ends is read as. -/
inductive ReadAs (bases : LocalBases) (chars : List Char) : TypeRef → Prop where
  | identifier (ne_nil : chars ≠ []) (noMark : hasSchemeMark chars = false) :
      ReadAs bases chars ⟨String.ofList chars⟩
  | held {url : Url} {name : List Char} (mark : hasSchemeMark chars = true)
      (parsed : ofText chars = .ok url) (segments : url.isOpaque = false)
      (covered : bases.covers url.chars = true) (last : url.names.getLast? = some name) :
      ReadAs bases chars ⟨String.ofList name⟩
  | elsewhere {url : Url} (mark : hasSchemeMark chars = true) (parsed : ofText chars = .ok url)
      (segments : url.isOpaque = false) (notCovered : bases.covers url.chars = false) :
      ReadAs bases chars ⟨String.ofList chars⟩

theorem read_iff : bases.read text = .ok r ↔ bases.ReadAs (trim text.toList) r := by
  constructor
  · intro h
    simp only [read] at h
    split at h
    · cases h
    · next hne =>
      split at h
      · next hmark =>
        cases h
        exact .identifier hne (by simpa using hmark)
      · next hmark =>
        have hmark : hasSchemeMark (trim text.toList) = true := by simpa using hmark
        split at h
        · cases h
        · next url hparsed =>
          split at h
          · cases h
          · next hsegments =>
            have hsegments := Bool.eq_false_iff.2 hsegments
            split at h
            · next hcovered =>
              split at h
              · next name hlast =>
                cases h
                exact .held hmark hparsed hsegments hcovered hlast
              · cases h
            · next hcovered =>
              cases h
              exact .elsewhere hmark hparsed hsegments (Bool.eq_false_iff.2 hcovered)
  · intro h
    cases h with
    | identifier hne hmark => simp [read, hne, hmark]
    | held hmark hparsed hsegments hcovered hlast =>
        have hne : trim text.toList ≠ [] := by
          intro hnil
          rw [hnil] at hmark
          cases hmark
        simp [read, hne, hmark, hparsed, hsegments, hcovered, hlast]
    | elsewhere hmark hparsed hsegments hcovered =>
        have hne : trim text.toList ≠ [] := by
          intro hnil
          rw [hnil] at hmark
          cases hmark
        simp [read, hne, hmark, hparsed, hsegments, hcovered]

theorem isRemote_ofList (s : List Char) : TypeRef.isRemote ⟨String.ofList s⟩ = hasSchemeMark s := by
  rw [TypeRef.isRemote, String.toList_ofList]

/-- The last name of an address can stand in a path. -/
theorem isSegment_of_last {url : Url} {name : List Char} (hparsed : ofText chars = .ok url)
    (hlast : url.names.getLast? = some name) : IsSegment (isSpecial url.scheme) name := by
  obtain ⟨hmem, hne⟩ := List.mem_filter.1 (List.mem_of_getLast? hlast)
  refine (Url.areSegments_of_ofText hparsed name hmem).resolve_left ?_
  simpa using hne

/-- A remote reference is the text of an address that is below none of the bases. -/
theorem remote_cases (h : bases.ReadAs chars r) (hr : r.isRemote = true) :
    r = ⟨String.ofList chars⟩ ∧ hasSchemeMark chars = true ∧
      ∃ url, ofText chars = .ok url ∧ url.isOpaque = false ∧ bases.covers url.chars = false := by
  cases h with
  | identifier hne hmark =>
      rw [isRemote_ofList, hmark] at hr
      cases hr
  | held hmark hparsed hsegments hcovered hlast =>
      rw [isRemote_ofList, hasSchemeMark_of_not_mem (isSegment_of_last hparsed hlast).noSlash] at hr
      cases hr
  | elsewhere hmark hparsed hsegments hcovered =>
      exact ⟨rfl, hmark, _, hparsed, hsegments, hcovered⟩

/-- A remote reference is read as itself. -/
theorem read_remote (h : bases.read text = .ok r) (hr : r.isRemote = true) :
    bases.read r.key = .ok r := by
  obtain ⟨rfl, hmark, url, hparsed, hsegments, hcovered⟩ := remote_cases (read_iff.1 h) hr
  rw [read_iff, String.toList_ofList, trim_trim]
  exact .elsewhere hmark hparsed hsegments hcovered

/-- An identifier that was read is not blank at its ends. -/
theorem trim_of_local (h : bases.read text = .ok r) (hr : r.isRemote = false) :
    trim r.key.toList = r.key.toList ∧ r.key.toList ≠ [] := by
  cases read_iff.1 h with
  | identifier hne hmark =>
      rw [String.toList_ofList]
      exact ⟨trim_trim _, hne⟩
  | held hmark hparsed hsegments hcovered hlast =>
      have hname := isSegment_of_last hparsed hlast
      rw [String.toList_ofList]
      exact ⟨trim_of_plain hname.plain, hname.ne_nil⟩
  | elsewhere hmark hparsed hsegments hcovered =>
      rw [isRemote_ofList, hmark] at hr
      cases hr

end LocalBases

/-! ## Addresses below the own catalog -/

/-- The address of the own catalog, as it is written and as it is read. -/
structure LocalBases.IsCatalog (bases : LocalBases) (catalog : List Char) (own : Url) :
    Prop where
  endsInName : EndsInName catalog
  noQuery : '?' ∉ catalog
  noFragment : '#' ∉ catalog
  parsed : Url.ofText catalog = .ok own
  isRoot : withSlash own.chars ∈ bases.roots

/-- The name of a collection of the own catalog. -/
structure IsCollection (collection : List Char) : Prop where
  isSegment : ∀ special, IsSegment special collection
  noDrive : Url.isDrive collection = false
  noColon : ':' ∉ collection

/-- The identifier can be found again at the end of an address below the catalog. -/
structure Url.CanName (catalog : List Char) (own : Url) (key : List Char) : Prop where
  mark : hasSchemeMark catalog = true
  segments : own.isOpaque = false
  isSegment : IsSegment (isSpecial own.scheme) key

section Item

variable {bases : LocalBases} {catalog collection key : List Char} {own : Url}

/-- What is left of the address of an item without the blanks around it. -/
theorem trim_item (hcatalog : EndsInName catalog) (htrim : trim key = key) (hkey : key ≠ []) :
    trim (catalog ++ (collection ++ '/' :: key)) =
      catalog.dropWhile isBlank ++ (collection ++ '/' :: key) := by
  have hletter : ∀ c : Char, c.isAlphanum = true → isBlank c = false := by
    intro c hc
    have hrange := Url.toNat_of_isAlphanum hc
    exact isBlank_of_toNat (by omega)
  have hsplit : catalog ++ (collection ++ '/' :: key) =
      (catalog ++ (collection ++ ['/'])) ++ key := by simp
  rw [← (hcatalog.dropWhile hletter).2, hsplit, trim_append htrim hkey]

theorem endsInName_dropBlanks (hcatalog : EndsInName catalog) :
    EndsInName (catalog.dropWhile isBlank) := by
  refine (hcatalog.dropWhile fun c hc => ?_).1
  have hrange := Url.toNat_of_isAlphanum hc
  exact isBlank_of_toNat (by omega)

namespace LocalBases.IsCatalog

/-- The catalog is read as the same without the blanks before it. -/
theorem ofText_dropBlanks (h : bases.IsCatalog catalog own) :
    Url.ofText (catalog.dropWhile isBlank) = .ok own := by
  obtain ⟨rest, hscheme, -⟩ := Url.scheme_of_ofText h.parsed
  have hclean : Url.cleaned (catalog.dropWhile isBlank) = Url.cleaned catalog :=
    Url.cleaned_dropBlanks h.endsInName (by rw [hscheme]; rfl)
  have hparsed := h.parsed
  rw [Url.ofText, ← hclean] at hparsed
  exact hparsed

theorem dropBlanks (h : bases.IsCatalog catalog own) :
    bases.IsCatalog (catalog.dropWhile isBlank) own where
  endsInName := endsInName_dropBlanks h.endsInName
  noQuery hmem := h.noQuery ((List.dropWhile_suffix _).subset hmem)
  noFragment hmem := h.noFragment ((List.dropWhile_suffix _).subset hmem)
  parsed := h.ofText_dropBlanks
  isRoot := h.isRoot

theorem read_item (h : bases.IsCatalog catalog own) (hcollection : IsCollection collection)
    (hname : Url.CanName catalog own key) :
    bases.ReadAs (catalog ++ (collection ++ '/' :: key)) ⟨String.ofList key⟩ := by
  have hitem : IsItem (Url.isSpecial own.scheme) collection key :=
    ⟨hcollection.isSegment _, hcollection.noDrive, hname.isSegment⟩
  obtain ⟨url, hurl, hextends⟩ :=
    Url.ofText_extends h.endsInName h.noQuery h.noFragment h.parsed hname.segments hitem
  have hmark : hasSchemeMark (catalog ++ (collection ++ '/' :: key)) = true := by
    rw [hasSchemeMark_append h.endsInName, hname.mark, Bool.true_or]
  have hcovered : bases.covers url.chars = true := by
    obtain ⟨front, hown, hchars⟩ := hextends.chars_eq hitem.isCollection.ne_nil
    have hroot : withSlash own.chars = front ++ ['/'] := by
      rw [withSlash, hown, List.getLast?_concat, if_pos rfl]
    refine List.any_eq_true.2 ⟨_, h.isRoot, ?_⟩
    rw [hroot, hchars, List.isPrefixOf_iff_prefix]
    exact ⟨collection ++ '/' :: key, by simp⟩
  exact .held hmark hurl hextends.isOpaque_eq hcovered
    (hextends.getLast_names hname.isSegment.ne_nil)

theorem canName_of_read (h : bases.IsCatalog catalog own) (hcollection : IsCollection collection)
    (hkey : hasSchemeMark key = false)
    (hread : bases.ReadAs (catalog ++ (collection ++ '/' :: key)) ⟨String.ofList key⟩) :
    Url.CanName catalog own key := by
  have hlonger : ∀ chars : List Char, chars = catalog ++ (collection ++ '/' :: key) →
      String.ofList key ≠ String.ofList chars := by
    rintro _ rfl heq
    have hlength := congrArg List.length (String.ofList_injective heq)
    simp only [List.length_append, List.length_cons] at hlength
    omega
  generalize hchars : catalog ++ (collection ++ '/' :: key) = chars at hread
  generalize hr : (⟨String.ofList key⟩ : TypeRef) = r at hread
  cases hread with
  | identifier => exact absurd (congrArg TypeRef.key hr) (hlonger _ hchars.symm)
  | elsewhere => exact absurd (congrArg TypeRef.key hr) (hlonger _ hchars.symm)
  | @held url name hmark hparsed hsegments hcovered hlast =>
      have hname : key = name := String.ofList_injective (congrArg TypeRef.key hr)
      subst hname
      obtain ⟨rest, hscheme, hopaque⟩ := Url.scheme_of_ofText h.parsed
      obtain ⟨rest', hscheme', hopaque'⟩ := Url.scheme_of_ofText hparsed
      obtain ⟨⟨front, hsplit⟩, hmore⟩ := Url.scheme?_append hscheme
      rw [← hchars, Url.cleaned_append h.endsInName, hmore] at hscheme'
      obtain ⟨hsame, hrest⟩ := Prod.mk.inj (Option.some.inj hscheme')
      have hhead : rest'.head? = rest.head? := by
        have hends : EndsInName rest := by
          have hclean := h.endsInName.cleaned
          rw [hsplit] at hclean
          exact hclean.of_append (by decide) (by decide)
        obtain ⟨a, b, tail, rfl⟩ := hends.exists_cons
        rw [← hrest]
        rfl
      rw [← hchars, hasSchemeMark_append h.endsInName,
        hasSchemeMark_append_of_not_mem hcollection.noColon, hasSchemeMark_cons (by decide),
        hkey, Bool.or_false] at hmark
      rw [← hsame, hhead, ← hopaque] at hopaque'
      exact ⟨hmark, hopaque'.1 hsegments, hsame ▸ isSegment_of_last hparsed hlast⟩

/-- The address of an item is read as the item just if it can be found again there. -/
theorem read_eq_iff (h : bases.IsCatalog catalog own) (hcollection : IsCollection collection)
    (htrim : trim key = key) (hne : key ≠ []) (hkey : hasSchemeMark key = false) :
    bases.read (String.ofList (catalog ++ (collection ++ '/' :: key))) =
      .ok ⟨String.ofList key⟩ ↔ Url.CanName catalog own key := by
  have hmark := hasSchemeMark_dropBlanks catalog
  rw [read_iff, String.toList_ofList, trim_item h.endsInName htrim hne]
  constructor
  · intro hread
    have hname := h.dropBlanks.canName_of_read hcollection hkey hread
    exact ⟨hmark ▸ hname.mark, hname.segments, hname.isSegment⟩
  · intro hname
    exact h.dropBlanks.read_item hcollection ⟨hmark.trans hname.mark, hname.segments,
      hname.isSegment⟩

end LocalBases.IsCatalog

/-- A base that is configured is one of the roots. -/
theorem LocalBases.mem_roots {addresses : List String} {text : String}
    (h : LocalBases.of? addresses = .ok bases) (hmem : text ∈ addresses) :
    ∃ url, Url.parse text = .ok url ∧ withSlash url.chars ∈ bases.roots := by
  obtain ⟨roots, hroots, hbases⟩ := except_of_bind_ok h
  cases hbases
  obtain ⟨root, hroot, hread⟩ := mem_of_mapM_ok hroots hmem
  split at hread
  · next url hparse =>
    cases hread
    exact ⟨url, hparse, hroot⟩
  · cases hread

end Item

end CaseAccess
