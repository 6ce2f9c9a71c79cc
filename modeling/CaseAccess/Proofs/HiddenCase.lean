import CaseAccess.Proofs.CaseChange
import CaseAccess.Proofs.CatalogExpansion
import CaseAccess.Proofs.RemoteCatalog
import CaseAccess.Proofs.Run
import CaseAccess.Proofs.StatusVerdict

/-!
# A case that the caller may not see

Whoever has the scopes of an operation nowhere among cases is told the same of a case
that is there as of one that is not: permission denied. The two answers come about in two
ways. For a missing case the component as a whole is asked, where a grant on a catalog
counts if the catalog holds a type of cases. For a case that is there its type is asked,
and then a grant on a catalog counts if the type resolves to a definition in it.

For a type that is held here the second is never more than the first, since the type is
itself what the catalog holds. A type of another installation is resolved by what that
one answers, and the answer may name a catalog that holds nothing, or fail to come while
a grant on such a catalog seems to leave the matter open. Then the case is `Exposed`.
The theorem at the end says that nothing else tells the two apart, that an exposed case
does, and that it takes a grant on an empty catalog.
-/

namespace CaseAccess

open Operation
open Installation (Steady)

/-! ## What is given on a case, and among cases -/

/-- The request for scopes anywhere among cases. -/
abbrev casesRequest (scopes : ScopeSet) : AccessRequest :=
  { component := some .zrc, scopes := scopes }

/-- A catalog that is held here and has no type of cases. -/
def Store.HoldsNoCases (s : Store) (catalog : TypeRef) : Prop :=
  catalog.isRemote = false ∧ ∀ d ∈ s.types.rows, d.catalog = some catalog → d.component ≠ .zrc

section Exposed

variable (z : CaseRecord) (applications : List Application) (c : Context) (i : Installation)
  (scopes : ScopeSet)

/-- Something is asked for, and all of it is given on the case by explicit grants or by
grants on catalogs of a kind, as if the type of the case were in them. -/
structure CaseRecord.Covered (kind : TypeRef → Prop) : Prop where
  asked : ∃ scope, scope ∈ scopes
  given : ∀ scope ∈ scopes,
    (z.request scopes z.confidentiality).ProvidedExplicitly applications i .zrc scope ∨
      ∃ g ∈ i.store.catalogGrants.rows, kind g.catalog ∧ HeldBy applications g.application ∧
        g.component = .zrc ∧ Admits g.ceiling (some z.confidentiality) ∧ scope ∈ g.scopes

/-- What another installation answers about the type of the case makes a difference:
there is no answer for now and grants on catalogs could give what is asked for, or it
names a catalog on which the grants do give it. -/
inductive CaseRecord.Exposed : Prop where
  | unavailable (why : Unresolved)
      (resolved : c.resolution i.store i.typeCache z.caseType .zrc = .error why)
      (transient : why.isTransient = true)
      (covered : z.Covered applications i scopes fun _ => True)
  | claimed (d : TypeDefinition) (catalog : TypeRef)
      (resolved : c.resolution i.store i.typeCache z.caseType .zrc = .ok d)
      (inCatalog : d.catalog = some catalog)
      (covered : z.Covered applications i scopes (· = catalog))

end Exposed

namespace CaseRecord

variable {z : CaseRecord} {applications : List Application} {c : Context} {i : Installation}
  {scopes : ScopeSet} {kind : TypeRef → Prop}

theorem Covered.applications_ne_nil (h : z.Covered applications i scopes kind) :
    applications ≠ [] := by
  obtain ⟨⟨scope, hscope⟩, hgiven⟩ := h
  rcases hgiven scope hscope with ⟨g, -, ⟨a, ha, -⟩, -⟩ | ⟨g, -, -, ⟨a, ha, -⟩, -⟩
  · exact List.ne_nil_of_mem ha
  · exact List.ne_nil_of_mem ha

/-- An explicit grant on a case counts anywhere among cases. -/
theorem provided_of_explicit {scope : String}
    (h : (z.request scopes z.confidentiality).ProvidedExplicitly applications i .zrc scope) :
    (casesRequest scopes).Provided applications c i .zrc scope := by
  obtain ⟨g, hg, hheld, hcomponent, -, -, hgives⟩ := h
  exact .explicit g hg hheld hcomponent (fun _ hlevel => by cases hlevel)
    (fun _ ht => by cases ht) hgives

/-- What is asked for and not given among cases takes a grant on an empty catalog. -/
theorem Covered.exists_empty (h : z.Covered applications i scopes kind)
    (hdenied : ¬ (casesRequest scopes).Entitled applications c i) :
    ∃ g ∈ i.store.catalogGrants.rows, kind g.catalog ∧ HeldBy applications g.application ∧
      g.component = .zrc ∧ i.store.HoldsNoCases g.catalog := by
  have hmissing : ∃ scope ∈ scopes,
      ¬ (casesRequest scopes).Provided applications c i .zrc scope := by
    by_contra hnone
    push Not at hnone
    exact hdenied ⟨h.applications_ne_nil, .inr ⟨h.asked, .zrc, rfl, hnone⟩⟩
  obtain ⟨scope, hscope, hnot⟩ := hmissing
  rcases h.given scope hscope with hexplicit | ⟨g, hg, hkind, hheld, hcomponent, -, hgives⟩
  · exact absurd (provided_of_explicit hexplicit) hnot
  · have hcounts : ¬ (casesRequest scopes).Counts c i .zrc g.catalog := fun hcounts =>
      hnot (.catalog g hg hheld hcomponent (fun _ hlevel => by cases hlevel) hcounts hgives)
    rw [AccessRequest.Counts, not_or] at hcounts
    refine ⟨g, hg, hkind, hheld, hcomponent, Bool.eq_false_iff.2 hcounts.1, ?_⟩
    exact fun d hd hcatalog hzrc => hcounts.2 ⟨d, hd, hcatalog, hzrc⟩

/-- A case is exposed only by another installation, and by a grant on an empty catalog. -/
theorem Exposed.of_denied (h : z.Exposed applications c i scopes)
    (hdenied : ¬ (casesRequest scopes).Entitled applications c i) :
    z.caseType.isRemote = true ∧
      ∃ g ∈ i.store.catalogGrants.rows, HeldBy applications g.application ∧
        g.component = .zrc ∧ i.store.HoldsNoCases g.catalog := by
  cases h with
  | unavailable why hresolved htransient hcovered =>
      obtain ⟨g, hg, -, hrest⟩ := hcovered.exists_empty hdenied
      refine ⟨?_, g, hg, hrest⟩
      by_contra hlocal
      rw [AccessRequest.not_transient_of_local (Bool.eq_false_iff.2 hlocal) hresolved] at htransient
      cases htransient
  | claimed d catalog hresolved hcatalog hcovered =>
      obtain ⟨g, hg, rfl, hheld, hcomponent, hempty⟩ := hcovered.exists_empty hdenied
      refine ⟨?_, g, hg, hheld, hcomponent, hempty⟩
      by_contra hlocal
      obtain ⟨hrow, -, hzrc⟩ :=
        (resolveType_local (Bool.eq_false_iff.2 hlocal)).1 (resolveType_eq_ok.2 hresolved)
      exact hempty.2 d hrow hcatalog hzrc

/-- What the type of the case gives beyond explicit grants, it gives by a catalog that it
is said to be in. -/
theorem exposed_of_entitled
    (h : (z.request scopes z.confidentiality).Entitled applications c i)
    (hdenied : ¬ (casesRequest scopes).Entitled applications c i) :
    z.Exposed applications c i scopes := by
  obtain ⟨hne, hsuper | ⟨hasked, component, hcomponent, hall⟩⟩ := h
  · exact absurd ⟨hne, .inl hsuper⟩ hdenied
  · cases hcomponent
    have hmissing : ∃ scope ∈ scopes,
        ¬ (z.request scopes z.confidentiality).ProvidedExplicitly applications i .zrc scope := by
      by_contra hnone
      push Not at hnone
      exact hdenied ⟨hne, .inr ⟨hasked, .zrc, rfl,
        fun scope hscope => provided_of_explicit (hnone scope hscope)⟩⟩
    obtain ⟨scope, hscope, hnot⟩ := hmissing
    cases hall scope hscope with
    | explicit g hg hheld hcomp ha ht hgives =>
        exact absurd ⟨g, hg, hheld, hcomp, ha, ht, hgives⟩ hnot
    | catalog g hg hheld hcomp ha hcounts hgives =>
        obtain ⟨d, hd, hcatalog⟩ := hcounts
        refine .claimed d g.catalog (resolveType_eq_ok.1 hd) hcatalog ⟨hasked, fun s hs => ?_⟩
        cases hall s hs with
        | explicit g hg hheld hcomp ha ht hgives =>
            exact .inl ⟨g, hg, hheld, hcomp, ha, ht, hgives⟩
        | catalog g' hg' hheld' hcomp' ha' hcounts' hgives' =>
            obtain ⟨d', hd', hcatalog'⟩ := hcounts'
            rw [hd] at hd'
            cases hd'
            rw [hcatalog] at hcatalog'
            exact .inr ⟨g', hg', (Option.some.inj hcatalog').symm, hheld', hcomp', ha', hgives'⟩

theorem entitled_of_claimed {d : TypeDefinition} {catalog : TypeRef}
    (hresolved : c.resolution i.store i.typeCache z.caseType .zrc = .ok d)
    (hcatalog : d.catalog = some catalog) (h : z.Covered applications i scopes (· = catalog)) :
    (z.request scopes z.confidentiality).Entitled applications c i := by
  refine ⟨h.applications_ne_nil, .inr ⟨h.asked, .zrc, rfl, fun scope hscope => ?_⟩⟩
  rcases h.given scope hscope with
    ⟨g, hg, hheld, hcomp, ha, ht, hgives⟩ | ⟨g, hg, rfl, hheld, hcomp, ha, hgives⟩
  · exact .explicit g hg hheld hcomp ha ht hgives
  · exact .catalog g hg hheld hcomp ha ⟨d, resolveType_eq_ok.2 hresolved, hcatalog⟩ hgives

end CaseRecord

/-! ## The decision on the case -/

namespace Snapshot

variable {s : Snapshot} {required : ScopeSet} {typeRef : TypeRef} {level : Option Confidentiality}
  {resolution : Resolution}

theorem decideResolved_eq_unavailable {detail : String} :
    s.decideResolved required typeRef level resolution = .deny (.catalogUnavailable detail) ↔
      ∃ why, resolution = .error why ∧ why.isTransient = true ∧
        detail = s!"cannot resolve type {typeRef}: {why}" := by
  cases resolution with
  | ok d =>
      rw [decideResolved]
      cases d.catalog with
      | none => simp
      | some catalog =>
          rcases AccessRequest.covering_cases required (s.scopesIn typeRef level catalog) with h | h
          · simp [h]
          · simp [h]
  | error why =>
      rw [decideResolved]
      constructor
      · intro h
        split at h
        · next htransient =>
            cases h
            exact ⟨why, rfl, htransient, rfl⟩
        · cases h
      · rintro ⟨_, ⟨⟩, htransient, rfl⟩
        exact if_pos htransient

/-- The matter is left open where explicit grants do not give everything, the type may
resolve later, and each scope could then be given by some catalog. -/
theorem decideObject_eq_unavailable {detail : String} :
    s.decideObject (m := Id) required typeRef level resolution =
        .deny (.catalogUnavailable detail) ↔
      (∃ scope ∈ required, ¬ scope ∈ s.explicitScopes typeRef level) ∧
        (∀ scope ∈ required, scope ∈ s.potentialScopes typeRef level) ∧
          ∃ why, resolution = .error why ∧ why.isTransient = true ∧
            detail = s!"cannot resolve type {typeRef}: {why}" := by
  show (if required.isSubset (s.explicitScopes typeRef level) then Decision.allow
    else if !required.isSubset (s.potentialScopes typeRef level) then .deny .scopesNotGranted
    else s.decideResolved required typeRef level resolution) = _ ↔ _
  split
  · next hexplicit =>
      rw [SortedSet.isSubset_iff] at hexplicit
      refine ⟨fun h => (by cases h), ?_⟩
      rintro ⟨⟨scope, hscope, hnot⟩, -⟩
      exact absurd (hexplicit scope hscope) hnot
  · next hexplicit =>
      rw [and_iff_right (exists_not_mem_of_not_isSubset hexplicit), ← SortedSet.isSubset_iff]
      cases required.isSubset (s.potentialScopes typeRef level) with
      | false => simp
      | true => exact (decideResolved_eq_unavailable).trans (by simp)

theorem decideObject_of_transient {why : Unresolved} (hwhy : why.isTransient = true)
    (h : ∀ scope ∈ required, scope ∈ s.potentialScopes typeRef level) :
    (s.decideObject (m := Id) required typeRef level (.error why : Resolution)).toResult ≠
      .error .permissionDenied := by
  rw [← SortedSet.isSubset_iff] at h
  rw [decideObject]
  split
  · exact fun hdeny => by cases hdeny
  · rw [h]
    show (s.decideResolved required typeRef level (.error why)).toResult ≠ _
    rw [decideResolved, if_pos hwhy]
    exact fun hdeny => by cases hdeny

end Snapshot

/-- A request is left open only on an object, by applications without every permission. -/
theorem AccessRequest.verdict_eq_unavailable {r : AccessRequest} {applications : List Application}
    {s : Store} {resolution : TypeRef → Component → Resolution} {detail : String} :
    r.verdict applications s resolution = .deny (.catalogUnavailable detail) ↔
      applications ≠ [] ∧ (∀ a ∈ applications, a.hasAllPermissions = false) ∧
        (∃ scope, scope ∈ r.scopes) ∧
          ∃ typeRef component, r.typeRef = some typeRef ∧ r.component = some component ∧
            (s.snapshot applications component (some typeRef)).decideObject (m := Id) r.scopes
              typeRef r.confidentiality (resolution typeRef component) =
                .deny (.catalogUnavailable detail) := by
  rw [verdict, exists_mem_iff_not_isEmpty]
  split
  · next hnone => simp [hnone]
  · next hsome =>
      rw [and_iff_right hsome]
      split
      · next hsuper =>
          constructor
          · intro h
            cases h
          · rintro ⟨hordinary, -⟩
            obtain ⟨a, ha, hsuper⟩ := List.any_eq_true.1 hsuper
            rw [hordinary a ha] at hsuper
            cases hsuper
      · next hordinary =>
          have hordinary : ∀ a ∈ applications, a.hasAllPermissions = false := by
            simpa using hordinary
          rw [and_iff_right hordinary]
          split
          · next hempty => simp [hempty]
          · next hasked =>
              rw [and_iff_right hasked]
              cases r.component with
              | none => simp
              | some component =>
                  cases r.typeRef with
                  | some typeRef => simp
                  | none =>
                      rcases covering_cases r.scopes ((s.snapshot applications component
                        none).componentScopes r.confidentiality) with h | h
                      · simp [Snapshot.decideComponent, h]
                      · simp [Snapshot.decideComponent, h]

/-- What grants could give on a type is given by explicit grants or on some catalog. -/
theorem AccessRequest.mem_potentialScopes {r : AccessRequest} {applications : List Application}
    {i : Installation} {component : Component} {typeRef : TypeRef} {scope : String}
    (h : r.typeRef = some typeRef) :
    scope ∈ (i.store.snapshot applications component (some typeRef)).potentialScopes typeRef
        r.confidentiality ↔
      r.ProvidedExplicitly applications i component scope ∨
        ∃ g ∈ i.store.catalogGrants.rows, True ∧ HeldBy applications g.application ∧
          g.component = component ∧ Admits g.ceiling r.confidentiality ∧ scope ∈ g.scopes := by
  simp only [Snapshot.mem_potentialScopes, Snapshot.mem_explicitScopes, Store.mem_grants_snapshot,
    Store.mem_catalogGrants_snapshot, AccessRequest.ProvidedExplicitly, h, Option.mem_some_iff,
    forall_eq', and_assoc, true_and]

namespace CaseRecord

variable {z : CaseRecord} {applications : List Application} {c : Context} {i : Installation}
  {scopes : ScopeSet}

theorem exposed_of_unavailable {detail : String}
    (h : z.decision applications c i scopes z.confidentiality =
      .deny (.catalogUnavailable detail)) : z.Exposed applications c i scopes := by
  obtain ⟨-, -, hasked, typeRef, component, htype, hcomponent, h⟩ :=
    AccessRequest.verdict_eq_unavailable.1 h
  cases htype
  cases hcomponent
  obtain ⟨-, hpotential, why, hresolved, htransient, -⟩ :=
    Snapshot.decideObject_eq_unavailable.1 h
  refine .unavailable why hresolved htransient ⟨hasked, fun scope hscope => ?_⟩
  exact (AccessRequest.mem_potentialScopes rfl).1 (hpotential scope hscope)

/-- Where the scopes are not given among cases, the decision on the case is a denial of
permission, unless the case is exposed. -/
theorem decision_denies_iff (hdenied : ¬ (casesRequest scopes).Entitled applications c i) :
    (z.decision applications c i scopes z.confidentiality).toResult = .error .permissionDenied ↔
      ¬ z.Exposed applications c i scopes := by
  constructor
  · intro hresult hexposed
    cases hexposed with
    | claimed d catalog hresolved hcatalog hcovered =>
        have hallowed : z.decision applications c i scopes z.confidentiality = .allow :=
          AccessRequest.verdict_eq_allow.2 (entitled_of_claimed hresolved hcatalog hcovered)
        rw [hallowed] at hresult
        cases hresult
    | unavailable why hresolved htransient hcovered =>
        have hasked := AccessRequest.exists_mem_iff_not_isEmpty.1 hcovered.asked
        rw [decision, AccessRequest.verdict, if_neg hcovered.applications_ne_nil] at hresult
        split at hresult
        · cases hresult
        · rw [CaseRecord.request, if_neg hasked] at hresult
          simp only [hresolved] at hresult
          refine Snapshot.decideObject_of_transient htransient (fun scope hscope => ?_) hresult
          exact (AccessRequest.mem_potentialScopes (r := z.request scopes z.confidentiality)
            rfl).2 (hcovered.given scope hscope)
  · intro hhidden
    cases hd : z.decision applications c i scopes z.confidentiality with
    | allow =>
        have hentitled := AccessRequest.verdict_eq_allow.1 hd
        exact absurd (exposed_of_entitled hentitled hdenied) hhidden
    | deny reason =>
        cases reason with
        | catalogUnavailable detail => exact absurd (exposed_of_unavailable hd) hhidden
        | _ => rfl

end CaseRecord

/-! ## Operations that end by denying permission -/

section Operations

variable {α β : Type} {c : Context} {i : Installation}

theorem ends_bind_error {m : Operation α} {f : α → Operation β} {e : ApiError}
    (h : Ends c i m (.error e)) : Ends c i (m >>= f) (.error e) := by
  intro j hj
  obtain ⟨k, hk, hmk⟩ := h j hj
  exact ⟨k, hk, by rw [bind_apply, hmk]⟩

/-- The operation ends, but not by denying permission. -/
def Operation.NeverDenies (c : Context) (i : Installation) (m : Operation α) : Prop :=
  ∀ j, Steady c i j → (m c j).1 ≠ .error .permissionDenied

theorem neverDenies_fail {e : ApiError} (h : e ≠ .permissionDenied) :
    NeverDenies c i (fail e : Operation α) :=
  fun _ _ hdenied => h (Except.error.inj hdenied)

theorem neverDenies_of_succeeds {m : Operation α} (h : Succeeds m) : NeverDenies c i m := by
  intro j _ hdenied
  obtain ⟨a, k, hk⟩ := h c j
  rw [hk] at hdenied
  cases hdenied

theorem neverDenies_bind {m : Operation α} {f : α → Operation β} {x : Except ApiError α}
    (hm : Ends c i m x) (hx : x ≠ .error .permissionDenied)
    (hf : ∀ a, x = .ok a → NeverDenies c i (f a)) : NeverDenies c i (m >>= f) := by
  intro j hj hdenied
  obtain ⟨k, hk, hmk⟩ := hm j hj
  rw [bind_apply, hmk] at hdenied
  cases x with
  | ok a => exact hf a rfl k hk hdenied
  | error e =>
      have hdenied : (.error e : Except ApiError β) = .error .permissionDenied := hdenied
      cases hdenied
      exact hx rfl

theorem neverDenies_refusal {p : Prop} [Decidable p] {e : ApiError} {m : Operation α}
    (he : e ≠ .permissionDenied) (hm : NeverDenies c i m) :
    NeverDenies c i (if p then (do fail e; m) else m) := by
  split
  · exact neverDenies_bind (ends_fail e) (fun h => he (Except.error.inj h)) fun _ _ => hm
  · exact hm

theorem neverDenies_forget {m : Operation α} (h : NeverDenies c i m) :
    NeverDenies c i m.forget := by
  intro j hj hdenied
  have hm := h j hj
  rw [Operation.forget, bind_apply] at hdenied
  rcases hmj : m c j with ⟨e | a, k⟩
  · rw [hmj] at hm hdenied
    have hdenied : (.error e : Except ApiError Unit) = .error .permissionDenied := hdenied
    cases hdenied
    exact hm rfl
  · rw [hmj] at hdenied
    cases hdenied

theorem readText_ne_denied (field text : String) :
    readText c field text ≠ .error .permissionDenied := by
  rw [readText]
  cases c.bases.read text with
  | ok r => exact fun h => by cases h
  | error e =>
      intro h
      have hkind := congrArg ApiError.kind (Except.error.inj h)
      cases hkind

theorem caseType_ne_denied (reference : TypeRef) :
    caseType c i reference ≠ .error .permissionDenied := by
  rw [caseType]
  cases c.resolution i.store i.typeCache reference .zrc with
  | ok d => exact fun h => by cases h
  | error why =>
      simp only
      split
      · intro h
        have hkind := congrArg ApiError.kind (Except.error.inj h)
        cases hkind
      · intro h
        have hkind := congrArg ApiError.kind (Except.error.inj h)
        cases hkind

theorem ends_relatedTypes (reference : TypeRef) (relation : Relation) :
    Ends c i (relatedTypes reference relation)
      (.ok ((c.anyResolution i.store i.typeCache reference none).toOption.map
        (·.related relation))) := by
  refine .of_steady (relatedTypes_steady reference relation) fun j hj => ?_
  obtain ⟨k, hk⟩ := resolve_ok reference none c j
  have hsame : c.anyResolution j.store j.typeCache reference none =
      c.anyResolution i.store i.typeCache reference none := by
    rw [Context.anyResolution, Context.anyResolution, hj.remote, hj.store]
  rw [relatedTypes, bind_of_ok hk, hsame]
  cases c.anyResolution i.store i.typeCache reference none with
  | ok d => rfl
  | error why => rfl

/-! ## The operations -/

/-- The commands on the case of an id for which a caller needs these scopes. -/
inductive CaseCommand.Takes (applications : List Application) :
    ScopeSet → (String → CaseCommand) → Prop where
  | update (change : CaseUpdate) :
      Takes applications updateScopes fun id => .update applications id change
  | setResult (resultType : String) :
      Takes applications updateScopes fun id => .setResult applications id resultType
  | attach (a : Attachment) : Takes applications a.scopes fun id => .attach applications id a

/-- The command does not give a case another level. -/
def CaseCommand.KeepsLevel (z : CaseRecord) : CaseCommand → Prop
  | .update _ _ change => (change.apply z).confidentiality = z.confidentiality
  | _ => True

variable {applications : List Application} {scopes : ScopeSet} {command : String → CaseCommand}
  {id : String} {z : CaseRecord}

/-- Whoever is not let in to a case is told why, whatever the command. -/
theorem run_of_openCase {e : ApiError} (htakes : CaseCommand.Takes applications scopes command)
    (h : Ends c i (openCase applications id scopes) (.error e)) :
    ((command id).run c i).1 = .error e := by
  obtain ⟨k, -, hk⟩ := h i (refl_of (Steady c) i)
  cases htakes with
  | update change =>
      show (((openCase applications id updateScopes >>= _) >>= _) c i).1 = _
      rw [bind_apply, bind_apply, hk]
  | setResult resultType =>
      show (((openCase applications id updateScopes >>= _) >>= _) c i).1 = _
      rw [bind_apply, bind_apply, hk]
  | attach a =>
      show ((openCase applications id a.scopes >>= _) c i).1 = _
      rw [bind_apply, hk]

/-- What the guard says to a caller of a write that takes these scopes. -/
def CaseRecord.guarded (z : CaseRecord) (applications : List Application) (c : Context)
    (i : Installation) (required : ScopeSet) : Except ApiError Unit :=
  match z.writeDenial? (z.hasScope applications c i) c.settings.guard required with
  | some denial => .error denial.toApiError
  | none => .ok ()

/-- The case for a write that takes these scopes, or the error that the caller is told. -/
def CaseRecord.opened (z : CaseRecord) (applications : List Application) (c : Context)
    (i : Installation) (scopes : ScopeSet) : Except ApiError CaseRecord := do
  (z.decision applications c i scopes z.confidentiality).toResult
  z.guarded applications c i scopes
  return z

theorem guarded_ne_denied : z.guarded applications c i scopes ≠ .error .permissionDenied := by
  rw [CaseRecord.guarded, CaseRecord.writeDenial?]
  split
  · next hdenial =>
      split at hdenial
      · cases hdenial
        exact fun h => by cases congrArg ApiError.kind (Except.error.inj h)
      · cases hdenial
  · exact fun h => by cases h

theorem eq_of_opened {found : CaseRecord} (h : z.opened applications c i scopes = .ok found) :
    found = z := by
  obtain ⟨_, -, h⟩ := except_of_bind_ok h
  obtain ⟨_, -, h⟩ := except_of_bind_ok h
  cases h
  rfl

/-- Whoever has the scopes on a case gets it, or is told something else. -/
theorem opened_ne_denied
    (hallowed : (z.decision applications c i scopes z.confidentiality).toResult ≠
      .error .permissionDenied) :
    z.opened applications c i scopes ≠ .error .permissionDenied := by
  rw [CaseRecord.opened]
  cases hdecision : (z.decision applications c i scopes z.confidentiality).toResult with
  | error e =>
      rw [hdecision] at hallowed
      exact fun h => hallowed (congrArg Except.error (Except.error.inj h))
  | ok _ =>
      rw [except_ok_bind]
      cases hguarded : z.guarded applications c i scopes with
      | error e =>
          exact fun h => guarded_ne_denied
            (hguarded.trans (congrArg Except.error (Except.error.inj h)))
      | ok _ => exact fun h => by cases h

variable (hi : i.grantCache.Agrees i.store)

include hi

theorem ends_openCase_missing (hmissing : i.store.case? id = none)
    (hdenied : ¬ (casesRequest scopes).Entitled applications c i) :
    Ends c i (openCase applications id scopes) (.error .permissionDenied) := by
  have hfound : foundCase applications c i id scopes = .error .permissionDenied := by
    have hlocal : (casesRequest scopes).IsLocal := fun _ ht => by cases ht
    rw [foundCase, hmissing]
    rcases hlocal.verdict_cases applications c i.store i.typeCache with hverdict | hverdict
    · exact absurd (AccessRequest.verdict_eq_allow.1 hverdict) hdenied
    · simp only [hverdict, AccessRequest.refusal]
      split
      · rfl
      · split
        · rfl
        · rfl
  refine ends_bind_error ?_
  rw [← hfound]
  exact ends_foundCase hi id scopes

theorem ends_loadCase (hz : i.store.case? id = some z) :
    Ends c i (loadCase applications id scopes) (.ok z) := by
  have hload : Ends c i (loadCase applications id scopes)
      (foundCase applications c i id scopes) := ends_foundCase hi id scopes
  rw [foundCase, hz] at hload
  exact hload

/-- The guard turns a write away because a case is closed, and for nothing else. -/
theorem ends_guardWrite (z : CaseRecord) (required : ScopeSet) :
    Ends c i (z.guardWrite applications required) (z.guarded applications c i required) := by
  have hcheck : Ends c i (z.checkWrite (z.holds applications) c.settings.guard required) _ :=
    ends_checkWrite (ends_holds hi z) z c.settings.guard required
  refine Ends.bind_ok (a := c) (.of_same fun _ _ => rfl) (hcheck.bind_ok ?_)
  rw [CaseRecord.guarded]
  cases z.writeDenial? (z.hasScope applications c i) c.settings.guard required with
  | some denial => exact ends_fail _
  | none => exact ends_pure ()

theorem ends_openCase (hz : i.store.case? id = some z) :
    Ends c i (openCase applications id scopes) (z.opened applications c i scopes) :=
  (ends_loadCase hi hz).bind_ok
    ((ends_check hi _).bind fun _ _ => (ends_guardWrite hi z scopes).bind fun _ _ => ends_pure z)

theorem ends_openCase_denied (hz : i.store.case? id = some z)
    (hdenied : (z.decision applications c i scopes z.confidentiality).toResult =
      .error .permissionDenied) :
    Ends c i (openCase applications id scopes) (.error .permissionDenied) := by
  have hopen : Ends c i (openCase applications id scopes) (z.opened applications c i scopes) :=
    ends_openCase hi hz
  rw [CaseRecord.opened, hdenied] at hopen
  exact hopen

omit hi in
theorem checkLevel_of_keeps {change : CaseUpdate}
    (h : (change.apply z).confidentiality = z.confidentiality) :
    change.checkLevel applications z = pure () := by
  rw [CaseUpdate.checkLevel]
  rw [CaseUpdate.apply] at h
  cases hlevel : change.confidentiality with
  | none => rfl
  | some level =>
      rw [hlevel] at h
      exact if_pos h

/-- Whoever has the scopes on a case is not denied permission by a command that leaves
its level alone. -/
theorem run_neverDenies (htakes : CaseCommand.Takes applications scopes command)
    (hlevel : (command id).KeepsLevel z) (hz : i.store.case? id = some z)
    (hallowed : (z.decision applications c i scopes z.confidentiality).toResult ≠
      .error .permissionDenied) :
    ((command id).run c i).1 ≠ .error .permissionDenied := by
  have hopen : Ends c i (openCase applications id scopes) (z.opened applications c i scopes) :=
    ends_openCase hi hz
  have hx := opened_ne_denied hallowed
  refine (?_ : NeverDenies c i ((command id).run)) i (refl_of (Steady c) i)
  cases htakes with
  | update change =>
      refine neverDenies_forget (neverDenies_bind hopen hx fun found hfound => ?_)
      obtain rfl := eq_of_opened hfound
      rw [checkLevel_of_keeps hlevel]
      refine neverDenies_of_succeeds (succeeds_bind (succeeds_pure ()) fun _ => ?_)
      refine succeeds_bind (fun _ _ => ⟨(), _, rfl⟩) fun _ => ?_
      exact succeeds_bind (succeeds_announceCase _ _ _) fun _ => succeeds_pure _
  | setResult resultType =>
      refine neverDenies_forget (neverDenies_bind hopen hx fun found hfound => ?_)
      refine neverDenies_bind (ends_readText _ _) (readText_ne_denied _ _) fun reference _ => ?_
      refine neverDenies_bind (ends_caseType _) (caseType_ne_denied _) fun d _ => ?_
      refine neverDenies_refusal (fun h => by cases congrArg ApiError.kind h) ?_
      refine neverDenies_of_succeeds (succeeds_bind (fun _ _ => ⟨(), _, rfl⟩) fun _ => ?_)
      exact succeeds_bind (succeeds_announceCase _ _ _) fun _ => succeeds_pure _
  | attach a =>
      refine neverDenies_bind hopen hx fun found hfound => ?_
      refine neverDenies_bind (ends_readText _ _) (readText_ne_denied _ _) fun reference _ => ?_
      refine neverDenies_bind (ends_caseType _) (caseType_ne_denied _) fun d _ => ?_
      refine neverDenies_bind (ends_relatedTypes _ _) (fun h => by cases h) fun related _ => ?_
      split
      · exact neverDenies_fail fun h => by cases congrArg ApiError.kind h
      · exact neverDenies_of_succeeds (succeeds_pure ())

end Operations

theorem not_entitled_of_allow {i : Installation} (hi : i.grantCache.Agrees i.store)
    {r : AccessRequest} {applications : List Application} {c : Context}
    (h : (r.allow applications c i).1 = .ok false) : ¬ r.Entitled applications c i := by
  rw [allow_eq_verdict hi, Except.ok.injEq] at h
  rw [← AccessRequest.isAllowed_verdict, h]
  exact Bool.false_ne_true

/-- Where a caller has the scopes of a command nowhere among cases, it is denied
permission on a case that is not there, and just so on one that is, unless this one is
exposed. An exposed case gives itself away, whatever the command, as long as this asks for
nothing more by giving the case another level; and no case is exposed but one of a type
that another installation holds, to a caller with a grant on a catalog that is held here
and has no type of cases. -/
theorem hidden_unless_exposed {i : Installation} (hi : i.grantCache.Agrees i.store)
    {applications : List Application} {c : Context} {scopes : ScopeSet}
    (hdenied : ((casesRequest scopes).allow applications c i).1 = .ok false)
    {command : String → CaseCommand} (htakes : CaseCommand.Takes applications scopes command)
    {z : CaseRecord} {id missing : String} (hz : i.store.case? id = some z)
    (hmissing : i.store.case? missing = none) :
    ((command missing).run c i).1 = .error .permissionDenied ∧
    (¬ z.Exposed applications c i scopes →
      ((command id).run c i).1 = .error .permissionDenied) ∧
    (z.Exposed applications c i scopes → (command id).KeepsLevel z →
      ((command id).run c i).1 ≠ .error .permissionDenied) ∧
    (z.Exposed applications c i scopes → z.caseType.isRemote = true ∧
      ∃ g ∈ i.store.catalogGrants.rows, HeldBy applications g.application ∧
        g.component = .zrc ∧ i.store.HoldsNoCases g.catalog) := by
  have hdenied := not_entitled_of_allow hi hdenied
  have hiff := CaseRecord.decision_denies_iff (z := z) hdenied
  refine ⟨run_of_openCase htakes (ends_openCase_missing hi hmissing hdenied),
    fun hhidden => run_of_openCase htakes (ends_openCase_denied hi hz (hiff.2 hhidden)),
    fun hexposed hlevel => ?_, fun hexposed => hexposed.of_denied hdenied⟩
  exact run_neverDenies hi htakes hlevel hz fun h => hiff.1 h hexposed

/-- A loan of a type that another installation holds. -/
def loan : CaseRecord where
  id := "loan-1"
  caseType := ⟨"http://far.example/zaaktypen/1"⟩
  confidentiality := .openbaar

/-- The loan, and a grant of the library on a shelf without types of cases. -/
def lendingDesk : Installation where
  store := {
    catalogGrants := ⟨[{ shelfGrant with scopes := updateScopes }], 1⟩
    cases := ⟨[loan], by decide⟩ }

/-- A context in which the other installation does not answer. -/
def Context.withSilentNeighbour : Context :=
  { Context.alone with
    services := ⟨[{ apiRoot := "http://far.example/" }]⟩
    answer := fun _ _ => .timedOut }

/-- While nothing is remembered, a loan is of the type that is fetched. -/
theorem resolution_loan (c : Context) (s : Store) {why : Unresolved}
    (h : c.fetched ⟨"http://far.example/zaaktypen/1"⟩ .zrc = .error why) :
    c.resolution s {} ⟨"http://far.example/zaaktypen/1"⟩ .zrc = .error why := by
  have hremote : TypeRef.isRemote ⟨"http://far.example/zaaktypen/1"⟩ = true := by decide
  have hforgotten : c.remoteResolution {} ⟨"http://far.example/zaaktypen/1"⟩ .zrc =
      c.fetched ⟨"http://far.example/zaaktypen/1"⟩ .zrc := rfl
  rw [Context.resolution, Context.anyResolution, if_pos hremote, component_farBook, hforgotten, h]

theorem loan_exposed :
    loan.Exposed [reader] Context.withSilentNeighbour lendingDesk updateScopes := by
  have hservice : Context.withSilentNeighbour.services.find? "http://far.example/zaaktypen/1" =
      some { apiRoot := "http://far.example/" } := by decide
  refine .unavailable .timeout (resolution_loan _ _ ?_) rfl ⟨⟨"zaken.bijwerken", by decide⟩, ?_⟩
  · rw [Context.fetched, hservice]
    rfl
  intro scope hscope
  refine .inr ⟨_, List.mem_singleton.2 rfl, trivial, ⟨reader, by decide, rfl⟩, rfl, ?_, hscope⟩
  exact passes_iff.1 rfl

theorem loan_not_exposed : ¬ loan.Exposed [reader] Context.alone lendingDesk updateScopes := by
  have hresolution : Context.alone.resolution lendingDesk.store lendingDesk.typeCache loan.caseType
      .zrc = .error .unknownService := resolution_loan _ _ rfl
  intro hexposed
  cases hexposed with
  | unavailable why hresolved htransient =>
      rw [hresolution] at hresolved
      cases hresolved
      cases htransient
  | claimed d catalog hresolved =>
      rw [hresolution] at hresolved
      cases hresolved

/-- The desk tells a caller that may not change anything whether a loan is there. -/
theorem loan_gives_itself_away :
    ((casesRequest updateScopes).allow [reader] Context.withSilentNeighbour lendingDesk).1 =
        .ok false ∧
      (CaseCommand.run (.update [reader] "loan-2" {}) Context.withSilentNeighbour lendingDesk).1 =
        .error .permissionDenied ∧
      (CaseCommand.run (.update [reader] "loan-1" {}) Context.withSilentNeighbour lendingDesk).1 ≠
        .error .permissionDenied := by
  have hi : lendingDesk.grantCache.Agrees lendingDesk.store := GrantCache.Agrees.of_empty
  have hdenied : ((casesRequest updateScopes).allow [reader] Context.withSilentNeighbour
      lendingDesk).1 = .ok false := by decide +kernel
  have hiff := CaseRecord.decision_denies_iff (z := loan) (not_entitled_of_allow hi hdenied)
  refine ⟨hdenied, by decide +kernel, ?_⟩
  exact run_neverDenies hi (.update {}) rfl rfl fun h => hiff.1 h loan_exposed

/-- With the neighbour silent the loan is given away; where no neighbour is known it is
hidden like one that is not there. -/
theorem loan_hidden_alone :
    (CaseCommand.run (.update [reader] "loan-1" {}) Context.withSilentNeighbour lendingDesk).1 ≠
        .error .permissionDenied ∧
      (CaseCommand.run (.update [reader] "loan-1" {}) Context.alone lendingDesk).1 =
        .error .permissionDenied := by
  have hi : lendingDesk.grantCache.Agrees lendingDesk.store := GrantCache.Agrees.of_empty
  have hz : lendingDesk.store.case? "loan-1" = some loan := rfl
  have hmissing : lendingDesk.store.case? "loan-2" = none := rfl
  have htakes : CaseCommand.Takes [reader] updateScopes fun id => .update [reader] id {} :=
    .update {}
  have hsilent := hidden_unless_exposed hi (c := Context.withSilentNeighbour) (by decide +kernel)
    htakes hz hmissing
  have halone := hidden_unless_exposed hi (c := Context.alone) (by decide +kernel) htakes hz
    hmissing
  exact ⟨hsilent.2.2.1 loan_exposed rfl, halone.2.1 loan_not_exposed⟩

end CaseAccess
