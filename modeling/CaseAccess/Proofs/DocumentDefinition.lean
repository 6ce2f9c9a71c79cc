import CaseAccess.Proofs.Lookup
import CaseAccess.Proofs.StableSort
import Mathlib.Data.List.Forall2

/-!
# What a document defines

A document of another catalog defines a type just if everything in it that has to be read can
be read: the addresses of what it lists, the address of its catalog and the periods of its
results, of which an empty text says nothing. `Defines` says of the parts of a document what
they define, one part at a time and without the order in which they are read.

Results stay in the order of the document, and statuses come in the order of their numbers,
where those of one number stay in the order of the document. What is found under a reference
can be said of the document alone then: of the results that name it the first, and of the
statuses the one with the least number, the first of equals.
-/

namespace CaseAccess

/-! ## The order of statuses -/

/-- The same statuses in the order of their numbers, and those of one number as they were. -/
structure InStableOrder (entries sorted : List StatusType) : Prop where
  perm : sorted.Perm entries
  ascending : sorted.Pairwise fun a b => a.order ≤ b.order
  stable : ∀ n, sorted.filter (·.order = n) = entries.filter (·.order = n)

theorem StatusType.order_trans (a b c : StatusType) (hab : decide (a.order ≤ b.order) = true)
    (hbc : decide (b.order ≤ c.order) = true) : decide (a.order ≤ c.order) = true :=
  decide_eq_true (UInt32.le_trans (of_decide_eq_true hab) (of_decide_eq_true hbc))

theorem StatusType.order_total (a b : StatusType) :
    (decide (a.order ≤ b.order) || decide (b.order ≤ a.order)) = true := by
  simpa using UInt32.le_total a.order b.order

theorem inStableOrder_inOrder (entries : List StatusType) :
    InStableOrder entries (inOrder entries) where
  perm := List.mergeSort_perm _ _
  ascending := (List.pairwise_mergeSort StatusType.order_trans StatusType.order_total _).imp
    of_decide_eq_true
  stable n := by
    refine filter_mergeSort StatusType.order_trans StatusType.order_total fun a b ha hb => ?_
    rw [of_decide_eq_true ha, of_decide_eq_true hb]
    exact decide_eq_true (UInt32.le_refl _)

namespace InStableOrder

variable {entries sorted : List StatusType} {p : StatusType → Bool} {s : StatusType}

theorem order_le_of_mem {first e : StatusType} {rest : List StatusType}
    (h : (first :: rest).Pairwise fun a b => a.order ≤ b.order) (he : e ∈ first :: rest) :
    first.order ≤ e.order := by
  rcases List.mem_cons.1 he with rfl | he
  · exact UInt32.le_refl _
  · exact List.rel_of_pairwise_cons h he

theorem mem_of_filter_eq {l m : List StatusType}
    (h : ∀ n, l.filter (·.order = n) = m.filter (·.order = n)) {a : StatusType} (ha : a ∈ l) :
    a ∈ m := by
  have hlevel : a ∈ l.filter (·.order = a.order) := List.mem_filter.2 ⟨ha, decide_eq_true rfl⟩
  rw [h] at hlevel
  exact List.mem_of_mem_filter hlevel

/-- Lists in the order of the numbers are told apart by what they have of one number. -/
theorem eq_of_filter_eq {l m : List StatusType} (hl : l.Pairwise fun a b => a.order ≤ b.order)
    (hm : m.Pairwise fun a b => a.order ≤ b.order)
    (h : ∀ n, l.filter (·.order = n) = m.filter (·.order = n)) : l = m := by
  have hback : ∀ n, m.filter (·.order = n) = l.filter (·.order = n) := fun n => (h n).symm
  induction l generalizing m with
  | nil =>
      cases m with
      | nil => rfl
      | cons b tail => cases mem_of_filter_eq hback List.mem_cons_self
  | cons a rest ih =>
      cases m with
      | nil => cases mem_of_filter_eq h List.mem_cons_self
      | cons b tail =>
          have horder : a.order = b.order :=
            UInt32.le_antisymm (order_le_of_mem hl (mem_of_filter_eq hback List.mem_cons_self))
              (order_le_of_mem hm (mem_of_filter_eq h List.mem_cons_self))
          have hfirst := h a.order
          rw [List.filter_cons, List.filter_cons, if_pos (decide_eq_true rfl),
            if_pos (decide_eq_true horder.symm)] at hfirst
          obtain rfl : a = b := (List.cons.inj hfirst).1
          have hrest : ∀ n, rest.filter (·.order = n) = tail.filter (·.order = n) := by
            intro n
            have hn := h n
            rw [List.filter_cons, List.filter_cons] at hn
            split at hn
            · exact (List.cons.inj hn).2
            · exact hn
          rw [ih (List.pairwise_cons.1 hl).2 (List.pairwise_cons.1 hm).2 hrest
            fun n => (hrest n).symm]

/-- There is one stable order. -/
theorem unique {other : List StatusType} (h : InStableOrder entries sorted)
    (hother : InStableOrder entries other) : sorted = other :=
  eq_of_filter_eq h.ascending hother.ascending fun n => (h.stable n).trans (hother.stable n).symm

/-- What is found is of the least number, and was the first of that number. -/
theorem find?_eq_some_iff (h : InStableOrder entries sorted) :
    sorted.find? p = some s ↔
      ∃ i : Nat, entries[i]? = some s ∧ p s = true ∧
        ∀ (j : Nat) other, entries[j]? = some other → p other = true →
          s.order < other.order ∨ s.order = other.order ∧ i ≤ j := by
  have hleast : ∀ (other : StatusType) (i j : Nat),
      (decide (s.order ≤ other.order) = true ∧
        (decide (other.order ≤ s.order) = true → i ≤ j)) ↔
      (s.order < other.order ∨ s.order = other.order ∧ i ≤ j) := by
    intro other i j
    rw [decide_eq_true_eq, decide_eq_true_eq, UInt32.le_iff_toNat_le, UInt32.le_iff_toNat_le,
      UInt32.lt_iff_toNat_lt, ← UInt32.toNat_inj]
    omega
  rw [h.unique (inStableOrder_inOrder entries), inOrder,
    find?_mergeSort StatusType.order_trans StatusType.order_total]
  simp only [hleast]

end InStableOrder

/-! ## What the parts define -/

section Parts

variable {ε α : Type} {bases : LocalBases} {text : Option String} {kept : Option α}

/-- What is kept of an optional text is what is read of it, and an empty text is none. -/
def KeptOf (read : String → Except ε α) (text : Option String) (kept : Option α) : Prop :=
  ∀ a, kept = some a ↔ ∃ written, text = some written ∧ written ≠ "" ∧ read written = .ok a

/-- The same of a text that is kept as it is. -/
def KeptText (text kept : Option String) : Prop :=
  ∀ a, kept = some a ↔ text = some a ∧ a ≠ ""

/-- An optional text says nothing or can be read. -/
def CanBeRead (read : String → Except ε α) (text : Option String) : Prop :=
  ∀ written, text = some written → written ≠ "" → ∃ a, read written = .ok a

structure StatusDocument.Defines (bases : LocalBases) (d : StatusDocument) (s : StatusType) :
    Prop where
  reference : bases.read d.url = .ok s.reference
  order : s.order = d.number
  isFinal : s.isFinal = d.isFinal

structure ProcedureDocument.Defines (d : ProcedureDocument) (e : ArchiveDerivation) : Prop where
  method : e.method = d.method
  processPeriod : KeptOf Period.parse d.processPeriod e.processPeriod
  dateAttribute : KeptText d.dateAttribute e.dateAttribute

structure ResultDocument.Defines (bases : LocalBases) (d : ResultDocument) (e : ResultType) :
    Prop where
  reference : bases.read d.url = .ok e.reference
  archiveNomination : KeptText d.archiveNomination e.archiveNomination
  archiveActionPeriod : KeptOf Period.parse d.archiveActionPeriod e.archiveActionPeriod
  byHand : d.procedure = none → e.derivation = { method := .anderDatumkenmerk }
  derivation : ∀ procedure, d.procedure = some procedure → procedure.Defines e.derivation

/-- The periods of a result can be read. -/
structure ResultDocument.HasPeriods (d : ResultDocument) : Prop where
  archiveActionPeriod : CanBeRead Period.parse d.archiveActionPeriod
  processPeriod : ∀ procedure, d.procedure = some procedure →
    CanBeRead Period.parse procedure.processPeriod

theorem nonEmpty_eq_some_iff {text : Option String} {a : String} :
    nonEmpty text = some a ↔ text = some a ∧ a ≠ "" := by
  simp [nonEmpty, Option.filter_eq_some_iff]

theorem eq_nonEmpty_iff {text kept : Option String} :
    kept = nonEmpty text ↔ KeptText text kept := by
  constructor
  · rintro rfl a
    exact nonEmpty_eq_some_iff
  · intro h
    exact Option.ext fun a => (h a).trans nonEmpty_eq_some_iff.symm

/-- An optional value is read just if it is not there or can be read. -/
theorem option_mapM_eq_ok {β : Type} {f : α → Except ε β} {o : Option α} {kept : Option β} :
    o.mapM f = .ok kept ↔
      (∀ a ∈ o, ∃ b, f a = .ok b) ∧ ∀ b, kept = some b ↔ ∃ a, o = some a ∧ f a = .ok b := by
  cases o with
  | none =>
      have hnone : (none : Option α).mapM f = .ok none := rfl
      rw [hnone, Except.ok.injEq]
      constructor
      · rintro rfl
        simp
      · rintro ⟨-, h⟩
        exact (Option.eq_none_iff_forall_ne_some.2 fun b hb => by simpa using (h b).1 hb).symm
  | some a =>
      have hsome : (some a).mapM f = (f a).map some := rfl
      rw [hsome]
      cases ha : f a with
      | error e => simp [Except.map, ha]
      | ok b =>
          simp only [Except.map, Except.ok.injEq, Option.mem_def, Option.some.injEq,
            exists_eq_left', forall_eq', ha, exists_eq', true_and]
          constructor
          · rintro rfl
            simp
          · intro h
            exact ((h b).2 rfl).symm

theorem mapM_nonEmpty_eq_ok {read : String → Except ε α} :
    (nonEmpty text).mapM read = .ok kept ↔ CanBeRead read text ∧ KeptOf read text kept := by
  simp only [option_mapM_eq_ok, CanBeRead, KeptOf, Option.mem_def, nonEmpty_eq_some_iff, and_imp,
    and_assoc]

theorem readAddress_eq_ok {bases : LocalBases} {text : String} {reference : TypeRef} :
    bases.readAddress text = .ok reference ↔ bases.read text = .ok reference := by
  rw [LocalBases.readAddress]
  cases bases.read text with
  | ok r => simp
  | error cause => simp

theorem readPeriod_eq_ok {written : String} {p : Period} :
    readPeriod written = .ok p ↔ Period.parse written = .ok p := by
  rw [readPeriod]
  cases Period.parse written with
  | ok q => simp
  | error cause => simp

theorem mapM_readPeriod_eq_ok {kept : Option Period} :
    (nonEmpty text).mapM readPeriod = .ok kept ↔
      CanBeRead Period.parse text ∧ KeptOf Period.parse text kept := by
  rw [mapM_nonEmpty_eq_ok]
  simp only [CanBeRead, KeptOf, readPeriod_eq_ok]

theorem mapM_readAddress_eq_ok {kept : Option TypeRef} :
    (nonEmpty text).mapM bases.readAddress = .ok kept ↔
      CanBeRead bases.read text ∧ KeptOf bases.read text kept := by
  rw [mapM_nonEmpty_eq_ok]
  simp only [CanBeRead, KeptOf, readAddress_eq_ok]

theorem atMember_eq_ok {member : String} {x : Except DocumentFault α} {a : α} :
    atMember member x = .ok a ↔ x = .ok a := by
  cases x with
  | ok b => simp [atMember]
  | error fault => simp [atMember]

theorem StatusDocument.definition_eq_ok {d : StatusDocument} {s : StatusType} :
    d.definition bases = .ok s ↔ d.Defines bases s := by
  simp only [definition, except_bind_eq_ok, except_pure_eq_ok, readAddress_eq_ok]
  constructor
  · rintro ⟨r, hr, rfl⟩
    exact ⟨hr, rfl, rfl⟩
  · rintro ⟨hr, horder, hfinal⟩
    exact ⟨_, hr, by rw [← horder, ← hfinal]⟩

theorem ProcedureDocument.derivation_eq_ok {d : ProcedureDocument} {e : ArchiveDerivation} :
    d.derivation = .ok e ↔ CanBeRead Period.parse d.processPeriod ∧ d.Defines e := by
  simp only [derivation, except_bind_eq_ok, except_pure_eq_ok, mapM_readPeriod_eq_ok]
  constructor
  · rintro ⟨period, ⟨hread, hperiod⟩, rfl⟩
    exact ⟨hread, rfl, hperiod, eq_nonEmpty_iff.1 rfl⟩
  · rintro ⟨hread, hmethod, hperiod, hattribute⟩
    exact ⟨_, ⟨hread, hperiod⟩, by rw [← hmethod, ← eq_nonEmpty_iff.2 hattribute]⟩

theorem ResultDocument.definition_eq_ok {d : ResultDocument} {e : ResultType} :
    d.definition bases = .ok e ↔ d.HasPeriods ∧ d.Defines bases e := by
  have hderivation : ∀ derivation, d.derivation = .ok derivation ↔
      (∀ procedure, d.procedure = some procedure →
        CanBeRead Period.parse procedure.processPeriod) ∧
      (d.procedure = none → derivation = { method := .anderDatumkenmerk }) ∧
      ∀ procedure, d.procedure = some procedure → procedure.Defines derivation := by
    intro derivation
    rw [ResultDocument.derivation]
    cases d.procedure with
    | none => simp [eq_comm]
    | some procedure => simp [ProcedureDocument.derivation_eq_ok]
  simp only [definition, except_bind_eq_ok, except_pure_eq_ok, readAddress_eq_ok,
    mapM_readPeriod_eq_ok, hderivation]
  constructor
  · rintro ⟨derivation, ⟨hprocess, hbyHand, hdefines⟩, r, hr, period, ⟨hread, hperiod⟩, rfl⟩
    exact ⟨⟨hread, hprocess⟩, hr, eq_nonEmpty_iff.1 rfl, hperiod, hbyHand, hdefines⟩
  · rintro ⟨⟨hread, hprocess⟩, hr, hnomination, hperiod, hbyHand, hdefines⟩
    exact ⟨_, ⟨hprocess, hbyHand, hdefines⟩, _, hr, _, ⟨hread, hperiod⟩, by
      rw [← eq_nonEmpty_iff.2 hnomination]⟩

end Parts

/-! ### One definition of a part -/

section Unique

variable {ε α : Type} {read : String → Except ε α} {text : Option String}

theorem keptOf_bind (read : String → Except ε α) (text : Option String) :
    KeptOf read text ((nonEmpty text).bind fun written => (read written).toOption) := by
  intro a
  have hread : ∀ written, (read written).toOption = some a ↔ read written = .ok a := by
    intro written
    cases read written <;> simp [Except.toOption]
  simp only [Option.bind_eq_some_iff, nonEmpty_eq_some_iff, hread, and_assoc]

theorem KeptOf.unique {kept other : Option α} (h : KeptOf read text kept)
    (hother : KeptOf read text other) : kept = other :=
  Option.ext fun a => (h a).trans (hother a).symm

theorem KeptText.unique {kept other : Option String} (h : KeptText text kept)
    (hother : KeptText text other) : kept = other :=
  Option.ext fun a => (h a).trans (hother a).symm

theorem StatusDocument.Defines.unique {bases : LocalBases} {d : StatusDocument} {s t : StatusType}
    (h : d.Defines bases s) (ht : d.Defines bases t) : s = t :=
  Except.ok.inj ((definition_eq_ok.2 h).symm.trans (definition_eq_ok.2 ht))

theorem ProcedureDocument.Defines.unique {d : ProcedureDocument} {e f : ArchiveDerivation}
    (h : d.Defines e) (hf : d.Defines f) : e = f := by
  obtain ⟨method, period, date⟩ := e
  obtain ⟨hmethod, hperiod, hattribute⟩ := h
  obtain rfl : method = f.method := hmethod.trans hf.method.symm
  obtain rfl : period = f.processPeriod := hperiod.unique hf.processPeriod
  obtain rfl : date = f.dateAttribute := hattribute.unique hf.dateAttribute
  rfl

theorem ResultDocument.Defines.unique {bases : LocalBases} {d : ResultDocument} {e f : ResultType}
    (h : d.Defines bases e) (hf : d.Defines bases f) : e = f := by
  obtain ⟨reference, nomination, period, derivation⟩ := e
  obtain ⟨hreference, hnomination, hperiod, hbyHand, hderivation⟩ := h
  obtain rfl : reference = f.reference := Except.ok.inj (hreference.symm.trans hf.reference)
  obtain rfl : nomination = f.archiveNomination := hnomination.unique hf.archiveNomination
  obtain rfl : period = f.archiveActionPeriod := hperiod.unique hf.archiveActionPeriod
  obtain rfl : derivation = f.derivation := by
    cases hprocedure : d.procedure with
    | none => exact (hbyHand hprocedure).trans (hf.byHand hprocedure).symm
    | some procedure =>
        exact (hderivation procedure hprocedure).unique (hf.derivation procedure hprocedure)
  rfl

theorem StatusDocument.exists_defines {bases : LocalBases} {d : StatusDocument} :
    (∃ s, d.Defines bases s) ↔ ∃ r, bases.read d.url = .ok r :=
  ⟨fun ⟨s, hs⟩ => ⟨s.reference, hs.reference⟩,
    fun ⟨r, hr⟩ => ⟨⟨r, d.number, d.isFinal⟩, hr, rfl, rfl⟩⟩

theorem ProcedureDocument.exists_defines (d : ProcedureDocument) : ∃ e, d.Defines e :=
  ⟨⟨d.method, _, nonEmpty d.dateAttribute⟩, rfl, keptOf_bind _ _, eq_nonEmpty_iff.1 rfl⟩

theorem ResultDocument.exists_defines {bases : LocalBases} {d : ResultDocument} :
    (∃ e, d.Defines bases e) ↔ ∃ r, bases.read d.url = .ok r := by
  refine ⟨fun ⟨e, he⟩ => ⟨e.reference, he.reference⟩, ?_⟩
  rintro ⟨r, hr⟩
  have hderivation : ∃ derivation : ArchiveDerivation,
      (d.procedure = none → derivation = { method := .anderDatumkenmerk }) ∧
        ∀ procedure, d.procedure = some procedure → procedure.Defines derivation := by
    cases d.procedure with
    | none => exact ⟨_, fun _ => rfl, fun _ h => by cases h⟩
    | some procedure =>
        obtain ⟨e, he⟩ := procedure.exists_defines
        refine ⟨e, (fun h => by cases h), ?_⟩
        rintro _ ⟨⟩
        exact he
  obtain ⟨derivation, hbyHand, hdefines⟩ := hderivation
  exact ⟨⟨r, nonEmpty d.archiveNomination, _, derivation⟩, hr, eq_nonEmpty_iff.1 rfl,
    keptOf_bind _ _, hbyHand, hdefines⟩

end Unique

/-! ## What the whole defines -/

namespace TypeDocument

/-- The addresses that a document lists of one relation. -/
def addresses (d : TypeDocument) : Relation → List String
  | .document => d.documentTypes
  | .decision => d.decisionTypes
  | .status => d.statusTypes.map (·.url)
  | .result => d.resultTypes.map (·.url)

/-- Everything in the document that has to be read can be read. -/
structure Readable (bases : LocalBases) (d : TypeDocument) : Prop where
  catalog : CanBeRead bases.read d.catalog
  addresses : ∀ relation, ∀ address ∈ d.addresses relation, ∃ r, bases.read address = .ok r
  periods : ∀ result ∈ d.resultTypes, result.HasPeriods

/-- The document says what is in the definition, and the definition has what it says. -/
structure Defines (bases : LocalBases) (d : TypeDocument) (t : TypeDefinition) : Prop where
  catalog : KeptOf bases.read d.catalog t.catalog
  related : ∀ relation r, r ∈ t.related relation ↔
    ∃ address ∈ d.addresses relation, bases.read address = .ok r
  statuses : ∃ entries, List.Forall₂ (StatusDocument.Defines bases) d.statusTypes entries ∧
    InStableOrder entries t.relations.statusTypes
  results : List.Forall₂ (ResultDocument.Defines bases) d.resultTypes t.relations.resultTypes

/-- At that place the document lists a status under the reference, no other under it has a
lesser number, and none of that number comes before it. -/
structure LeastStatus (bases : LocalBases) (d : TypeDocument) (r : TypeRef) (place : Nat)
    (status : StatusDocument) : Prop where
  listed : d.statusTypes[place]? = some status
  reads : bases.read status.url = .ok r
  least : ∀ (other : Nat) (s : StatusDocument), d.statusTypes[other]? = some s →
    bases.read s.url = .ok r →
      status.number < s.number ∨ status.number = s.number ∧ place ≤ other

/-- At that place the document lists a result under the reference, and at none before it. -/
structure FirstResult (bases : LocalBases) (d : TypeDocument) (r : TypeRef) (place : Nat)
    (result : ResultDocument) : Prop where
  listed : d.resultTypes[place]? = some result
  reads : bases.read result.url = .ok r
  first : ∀ (other : Nat) (e : ResultDocument), d.resultTypes[other]? = some e →
    bases.read e.url = .ok r → place ≤ other

variable {bases : LocalBases} {d : TypeDocument} {reference r : TypeRef} {component : Component}
  {t : TypeDefinition}

theorem definition_eq_ok :
    d.definition bases reference component = .ok t ↔
      ∃ catalog documentTypes decisionTypes statusTypes resultTypes,
        (CanBeRead bases.read d.catalog ∧ KeptOf bases.read d.catalog catalog) ∧
        List.Forall₂ (fun a r => bases.read a = .ok r) d.documentTypes documentTypes ∧
        List.Forall₂ (fun a r => bases.read a = .ok r) d.decisionTypes decisionTypes ∧
        List.Forall₂ (StatusDocument.Defines bases) d.statusTypes statusTypes ∧
        List.Forall₂ (fun e result => e.HasPeriods ∧ e.Defines bases result) d.resultTypes
          resultTypes ∧
        t = ⟨reference, component, catalog, ⟨SortedSet.ofList documentTypes,
          SortedSet.ofList decisionTypes, inOrder statusTypes, resultTypes⟩⟩ := by
  simp only [definition, except_bind_eq_ok, except_pure_eq_ok, atMember_eq_ok,
    mapM_readAddress_eq_ok, mapM_eq_ok_iff, readAddress_eq_ok, StatusDocument.definition_eq_ok,
    ResultDocument.definition_eq_ok]
  constructor
  · rintro ⟨catalog, hcatalog, documentTypes, hdocuments, decisionTypes, hdecisions, statusTypes,
      hstatuses, resultTypes, hresults, rfl⟩
    exact ⟨catalog, documentTypes, decisionTypes, statusTypes, resultTypes, hcatalog, hdocuments,
      hdecisions, hstatuses, hresults, rfl⟩
  · rintro ⟨catalog, documentTypes, decisionTypes, statusTypes, resultTypes, hcatalog, hdocuments,
      hdecisions, hstatuses, hresults, rfl⟩
    exact ⟨catalog, hcatalog, documentTypes, hdocuments, decisionTypes, hdecisions, statusTypes,
      hstatuses, resultTypes, hresults, rfl⟩

/-- A document defines a type just if everything in it can be read. -/
theorem exists_definition_iff :
    (∃ t, d.definition bases reference component = .ok t) ↔ d.Readable bases := by
  simp only [definition_eq_ok]
  constructor
  · rintro ⟨t, catalog, documentTypes, decisionTypes, statusTypes, resultTypes, ⟨hcatalog, -⟩,
      hdocuments, hdecisions, hstatuses, hresults, rfl⟩
    refine ⟨hcatalog, fun relation address haddress => ?_, fun result hresult => ?_⟩
    · cases relation with
      | document => exact exists_forall₂_iff.1 ⟨_, hdocuments⟩ address haddress
      | decision => exact exists_forall₂_iff.1 ⟨_, hdecisions⟩ address haddress
      | status =>
          obtain ⟨status, hstatus, rfl⟩ := List.mem_map.1 haddress
          exact StatusDocument.exists_defines.1 (exists_forall₂_iff.1 ⟨_, hstatuses⟩ status hstatus)
      | result =>
          obtain ⟨result, hresult, rfl⟩ := List.mem_map.1 haddress
          obtain ⟨e, -, he⟩ := exists_forall₂_iff.1 ⟨_, hresults⟩ result hresult
          exact ⟨e.reference, he.reference⟩
    · obtain ⟨e, hperiods, -⟩ := exists_forall₂_iff.1 ⟨_, hresults⟩ result hresult
      exact hperiods
  · rintro ⟨hcatalog, haddresses, hperiods⟩
    obtain ⟨documentTypes, hdocuments⟩ := exists_forall₂_iff.2 (haddresses .document)
    obtain ⟨decisionTypes, hdecisions⟩ := exists_forall₂_iff.2 (haddresses .decision)
    have hstatuses : ∀ status ∈ d.statusTypes, ∃ s, status.Defines bases s := fun status hstatus =>
      StatusDocument.exists_defines.2 (haddresses .status _ (List.mem_map_of_mem hstatus))
    have hresults : ∀ result ∈ d.resultTypes, ∃ e, result.HasPeriods ∧ result.Defines bases e := by
      intro result hresult
      obtain ⟨e, he⟩ := ResultDocument.exists_defines.2
        (haddresses .result _ (List.mem_map_of_mem hresult))
      exact ⟨e, hperiods result hresult, he⟩
    obtain ⟨statusTypes, hstatuses⟩ := exists_forall₂_iff.2 hstatuses
    obtain ⟨resultTypes, hresults⟩ := exists_forall₂_iff.2 hresults
    exact ⟨_, _, documentTypes, decisionTypes, statusTypes, resultTypes,
      ⟨hcatalog, keptOf_bind _ _⟩, hdocuments, hdecisions, hstatuses, hresults, rfl⟩

/-- What is listed names a reference just if what is defined of it has the reference. -/
theorem exists_reference_iff {α β : Type} {R : α → β → Prop} {l : List α} {m : List β}
    (h : List.Forall₂ R l m) (address : α → String) (ref : β → TypeRef)
    (hread : ∀ a b, R a b → bases.read (address a) = .ok (ref b)) :
    (∃ b ∈ m, ref b = r) ↔ ∃ a ∈ l, bases.read (address a) = .ok r := by
  constructor
  · rintro ⟨b, hb, rfl⟩
    obtain ⟨a, ha, hab⟩ := forall₂_mem_right h hb
    exact ⟨a, ha, hread a b hab⟩
  · rintro ⟨a, ha, hr⟩
    obtain ⟨b, hb, hab⟩ := forall₂_mem_left h ha
    exact ⟨b, hb, Except.ok.inj ((hread a b hab).symm.trans hr)⟩

theorem defines_of_definition (h : d.definition bases reference component = .ok t) :
    t.reference = reference ∧ t.component = component ∧ d.Defines bases t := by
  obtain ⟨catalog, documentTypes, decisionTypes, statusTypes, resultTypes, ⟨-, hcatalog⟩,
    hdocuments, hdecisions, hstatuses, hresults, rfl⟩ := definition_eq_ok.1 h
  have hresults' : List.Forall₂ (ResultDocument.Defines bases) d.resultTypes resultTypes :=
    hresults.imp fun _ _ he => he.2
  refine ⟨rfl, rfl, hcatalog, fun relation r => ?_,
    ⟨statusTypes, hstatuses, inStableOrder_inOrder statusTypes⟩, hresults'⟩
  cases relation with
  | document =>
      have href := exists_reference_iff (r := r) hdocuments id id fun _ _ hr => hr
      simpa [TypeDefinition.related, addresses] using href
  | decision =>
      have href := exists_reference_iff (r := r) hdecisions id id fun _ _ hr => hr
      simpa [TypeDefinition.related, addresses] using href
  | status =>
      have href := exists_reference_iff (r := r) hstatuses (·.url) (·.reference)
        fun _ _ hs => hs.reference
      simpa [TypeDefinition.related, addresses, inOrder] using href
  | result =>
      have href := exists_reference_iff (r := r) hresults' (·.url) (·.reference)
        fun _ _ he => he.reference
      simpa [TypeDefinition.related, addresses] using href

namespace Defines

/-- The status under a reference is the one with the least number, the first of equals. -/
theorem statusType?_eq_some (h : d.Defines bases t) {s : StatusType} :
    t.statusType? r = some s ↔
      ∃ place status, d.LeastStatus bases r place status ∧ status.Defines bases s := by
  obtain ⟨entries, hentries, horder⟩ := h.statuses
  rw [TypeDefinition.statusType?, horder.find?_eq_some_iff]
  simp only [decide_eq_true_eq]
  constructor
  · rintro ⟨place, hplace, rfl, hleast⟩
    obtain ⟨status, hstatus, hdefines⟩ := forall₂_getElem?_right hentries hplace
    refine ⟨place, status, ⟨hstatus, hdefines.reference, fun other o hother hread => ?_⟩, hdefines⟩
    obtain ⟨e, he, hdefines'⟩ := forall₂_getElem?_left hentries hother
    have href : e.reference = s.reference :=
      Except.ok.inj (hdefines'.reference.symm.trans hread)
    have hbefore := hleast other e he href
    rwa [hdefines.order, hdefines'.order] at hbefore
  · rintro ⟨place, status, ⟨hstatus, hread, hleast⟩, hdefines⟩
    obtain ⟨e, he, hdefines'⟩ := forall₂_getElem?_left hentries hstatus
    obtain rfl : e = s := hdefines'.unique hdefines
    refine ⟨place, he, Except.ok.inj (hdefines.reference.symm.trans hread),
      fun other o hother href => ?_⟩
    obtain ⟨status', hstatus', hdefines'⟩ := forall₂_getElem?_right hentries hother
    have hbefore := hleast other status' hstatus' (href ▸ hdefines'.reference)
    rwa [← hdefines.order, ← hdefines'.order] at hbefore

/-- The result under a reference is the first. -/
theorem resultType?_eq_some (h : d.Defines bases t) {e : ResultType} :
    t.resultType? r = some e ↔
      ∃ place result, d.FirstResult bases r place result ∧ result.Defines bases e := by
  rw [TypeDefinition.resultType?, find?_eq_some_iff_getElem?]
  simp only [decide_eq_true_eq]
  constructor
  · rintro ⟨place, hplace, rfl, hfirst⟩
    obtain ⟨result, hresult, hdefines⟩ := forall₂_getElem?_right h.results hplace
    refine ⟨place, result, ⟨hresult, hdefines.reference, fun other o hother hread => ?_⟩, hdefines⟩
    obtain ⟨e', he', hdefines'⟩ := forall₂_getElem?_left h.results hother
    exact hfirst other e' he' (Except.ok.inj (hdefines'.reference.symm.trans hread))
  · rintro ⟨place, result, ⟨hresult, hread, hfirst⟩, hdefines⟩
    obtain ⟨e', he', hdefines'⟩ := forall₂_getElem?_left h.results hresult
    obtain rfl : e' = e := hdefines'.unique hdefines
    refine ⟨place, he', Except.ok.inj (hdefines.reference.symm.trans hread),
      fun other o hother href => ?_⟩
    obtain ⟨result', hresult', hdefines'⟩ := forall₂_getElem?_right h.results hother
    exact hfirst other result' hresult' (href ▸ hdefines'.reference)

/-- A document defines one type of a reference and a component. -/
theorem unique {u : TypeDefinition} (h : d.Defines bases t) (hu : d.Defines bases u)
    (hreference : t.reference = u.reference) (hcomponent : t.component = u.component) : t = u := by
  have hsame : ∀ relation, t.related relation = u.related relation := fun relation =>
    SortedSet.eq_of_mem_iff fun r => (h.related relation r).trans (hu.related relation r).symm
  obtain ⟨entries, hentries, horder⟩ := h.statuses
  obtain ⟨entries', hentries', horder'⟩ := hu.statuses
  have hstatus : Relator.RightUnique (StatusDocument.Defines bases) := fun _ _ _ hs => hs.unique
  have hresult : Relator.RightUnique (ResultDocument.Defines bases) := fun _ _ _ he => he.unique
  obtain rfl : entries = entries' := List.right_unique_forall₂' hstatus hentries hentries'
  have hstatuses := horder.unique horder'
  have hresults := List.right_unique_forall₂' hresult h.results hu.results
  have hcatalog := h.catalog.unique hu.catalog
  have hdocuments := hsame .document
  have hdecisions := hsame .decision
  obtain ⟨_, _, _, _, _, _, _⟩ := t
  obtain ⟨_, _, _, _, _, _, _⟩ := u
  simp only [TypeDefinition.related] at hdocuments hdecisions
  simp only at hreference hcomponent hcatalog hstatuses hresults
  rw [hreference, hcomponent, hcatalog, hdocuments, hdecisions, hstatuses, hresults]

end Defines

/-- The definition of a document is the one type that it defines. -/
theorem definition_iff_defines :
    d.definition bases reference component = .ok t ↔
      d.Readable bases ∧ t.reference = reference ∧ t.component = component ∧ d.Defines bases t := by
  constructor
  · intro h
    exact ⟨exists_definition_iff.1 ⟨t, h⟩, defines_of_definition h⟩
  · rintro ⟨hreadable, hreference, hcomponent, hdefines⟩
    obtain ⟨u, hu⟩ : ∃ u, d.definition bases reference component = .ok u :=
      exists_definition_iff.2 hreadable
    obtain ⟨hreference', hcomponent', hdefines'⟩ := defines_of_definition hu
    rw [hu, hdefines'.unique hdefines (hreference'.trans hreference.symm)
      (hcomponent'.trans hcomponent.symm)]

end TypeDocument

/-- What is fetched is defined by the document that a catalog answers with. -/
theorem Context.defines_of_fetched {c : Context} {reference : TypeRef} {component : Component}
    {t : TypeDefinition} (h : c.fetched reference component = .ok t) :
    ∃ service document, c.answer service reference.key = .found document ∧
      t.reference = reference ∧ t.component = component ∧ document.Defines c.bases t := by
  rw [fetched] at h
  split at h
  · cases h
  · next service hservice =>
      rw [CatalogAnswer.resolution.eq_def] at h
      split at h
      · next document hanswer =>
          split at h
          · next hdefinition =>
              cases h
              exact ⟨service, document, hanswer, TypeDocument.defines_of_definition hdefinition⟩
          · cases h
      all_goals cases h

/-- Something is found under a reference just if it is related. -/
theorem TypeDefinition.exists_found_iff (t : TypeDefinition) (r : TypeRef) :
    ((∃ s, t.statusType? r = some s) ↔ r ∈ t.related .status) ∧
      ((∃ e, t.resultType? r = some e) ↔ r ∈ t.related .result) := by
  simp only [← Option.isSome_iff_exists, statusType?, resultType?, List.find?_isSome, related,
    SortedSet.mem_ofList, List.mem_map, decide_eq_true_eq, and_self]

/-- A document defines a type just if everything in it can be read, and the type is the one that
it defines. Under a reference the least of the statuses is found and the first of the results,
and something is found just if it is listed. -/
theorem document_loses_and_invents_nothing (bases : LocalBases) (d : TypeDocument)
    (reference : TypeRef) (component : Component) :
    ((∃ t, d.definition bases reference component = .ok t) ↔ d.Readable bases) ∧
    (∀ t, d.definition bases reference component = .ok t ↔
      d.Readable bases ∧ t.reference = reference ∧ t.component = component ∧ d.Defines bases t) ∧
    ∀ t, d.definition bases reference component = .ok t → ∀ r,
      (∀ s, t.statusType? r = some s ↔
        ∃ place status, d.LeastStatus bases r place status ∧ status.Defines bases s) ∧
      (∀ e, t.resultType? r = some e ↔
        ∃ place result, d.FirstResult bases r place result ∧ result.Defines bases e) ∧
      ((∃ s, t.statusType? r = some s) ↔ r ∈ t.related .status) ∧
      ((∃ e, t.resultType? r = some e) ↔ r ∈ t.related .result) := by
  refine ⟨TypeDocument.exists_definition_iff, fun t => TypeDocument.definition_iff_defines,
    fun t h r => ?_⟩
  obtain ⟨-, -, hdefines⟩ := TypeDocument.defines_of_definition h
  exact ⟨fun _ => hdefines.statusType?_eq_some, fun _ => hdefines.resultType?_eq_some,
    t.exists_found_iff r⟩

/-- A document that lists things twice, two statuses under one number, and empty texts. -/
def tiedDocument : TypeDocument where
  url := "https://zgw.example.nl/catalogi/zaaktypen/file"
  catalog := some ""
  documentTypes := ["photo", "https://zgw.example.nl/catalogi/informatieobjecttypen/photo"]
  statusTypes := [⟨"open", 3, true⟩, ⟨"closed", 1, true⟩, ⟨" open ", 1, false⟩, ⟨"open", 1, true⟩]
  resultTypes := [
    ⟨"kept", some "", some "P1Y", some ⟨.termijn, some "", some ""⟩⟩,
    ⟨"kept", some "vernietigen", some "", none⟩]

/-- Of the three entries of one status the second counts, and of both results the first. -/
theorem tied_document_is_defined :
    ∃ t, tiedDocument.definition ⟨["https://zgw.example.nl/catalogi/".toList]⟩ ⟨"file"⟩ .zrc =
        .ok t ∧
      t.statusType? ⟨"open"⟩ = some ⟨⟨"open"⟩, 1, false⟩ ∧
      t.resultType? ⟨"kept"⟩ =
        some ⟨⟨"kept"⟩, none, some { years := 1 }, ⟨.termijn, none, none⟩⟩ := by
  let bases : LocalBases := ⟨["https://zgw.example.nl/catalogi/".toList]⟩
  obtain ⟨t, ht⟩ : ∃ t, tiedDocument.definition bases ⟨"file"⟩ .zrc = .ok t := by
    have hok : (tiedDocument.definition bases ⟨"file"⟩ .zrc).isOk = true := by decide +kernel
    cases hdefinition : tiedDocument.definition bases ⟨"file"⟩ .zrc with
    | ok t => exact ⟨t, rfl⟩
    | error e =>
        rw [hdefinition] at hok
        cases hok
  have hclosed : bases.read "closed" ≠ .ok ⟨"open"⟩ := by decide +kernel
  have hopen : tiedDocument.LeastStatus bases ⟨"open"⟩ 2 ⟨" open ", 1, false⟩ := by
    refine ⟨rfl, by decide +kernel, fun other s hs hread => ?_⟩
    match other with
    | 0 =>
        cases hs
        exact .inl (by decide)
    | 1 =>
        cases hs
        exact absurd hread hclosed
    | 2 =>
        cases hs
        exact .inr ⟨rfl, Nat.le_refl 2⟩
    | 3 =>
        cases hs
        exact .inr ⟨rfl, by omega⟩
    | _ + 4 => cases hs
  have hkept : tiedDocument.FirstResult bases ⟨"kept"⟩ 0
      ⟨"kept", some "", some "P1Y", some ⟨.termijn, some "", some ""⟩⟩ :=
    ⟨rfl, by decide +kernel, fun _ _ _ _ => Nat.zero_le _⟩
  obtain ⟨-, -, hfound⟩ := document_loses_and_invents_nothing bases tiedDocument ⟨"file"⟩ .zrc
  obtain ⟨hstatus, -⟩ := hfound t ht ⟨"open"⟩
  obtain ⟨-, hresult, -⟩ := hfound t ht ⟨"kept"⟩
  exact ⟨t, ht,
    (hstatus _).2 ⟨2, _, hopen, StatusDocument.definition_eq_ok.1 (by decide +kernel)⟩,
    (hresult _).2 ⟨0, _, hkept, (ResultDocument.definition_eq_ok.1 (by decide +kernel)).2⟩⟩

end CaseAccess
