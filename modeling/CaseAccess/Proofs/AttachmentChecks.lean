import CaseAccess.Proofs.HiddenCase

/-!
# What an attachment is checked for

Five things have to hold for an object to be linked to a case, and the caller is told of
the first that does not. The first two are about the caller and the case, the third is
about the text of the request, and the last two about the type of the case, which is
resolved twice: as a type of cases, which may be refused, and then as whatever it is, for
what it is related to. `anyResolution_of_resolution` says that the second gives the same
definition as the first.

Each check is stated by itself and in terms of what the evaluator, the resolver and the
reader of references give before anything was looked up. That nothing they give changes on
the way is what `Ends` is for.
-/

namespace CaseAccess

open Operation
open Installation (Steady)

/-! ## The checks -/

/-- What is looked at when an object is to be attached to a case. -/
inductive Attachment.Check where
  /-- the caller has the scopes on the case -/
  | permission
  /-- the case takes writes -/
  | writable
  /-- the text is a reference -/
  | reference
  /-- the type of the case is known -/
  | caseType
  /-- the type of the case is related to the reference -/
  | relation
  deriving DecidableEq, Repr

namespace Attachment

/-- The place of a check among those that are made. -/
def Check.place : Check → Nat
  | .permission => 0
  | .writable => 1
  | .reference => 2
  | .caseType => 3
  | .relation => 4

theorem Check.place_inj {check other : Check} (h : check.place = other.place) :
    check = other := by
  cases check <;> cases other <;> first | rfl | cases h

/-- What holds of all checks before one and of this one holds of all before the next. -/
theorem Check.before_next {p : Check → Prop} {check : Check} (next : Check)
    (hnext : next.place = check.place + 1) (hbefore : ∀ other, other.place < check.place → p other)
    (h : p check) : ∀ other, other.place < next.place → p other := by
  intro other hother
  rcases Nat.lt_or_eq_of_le (Nat.le_of_lt_succ (hnext ▸ hother)) with hlt | heq
  · exact hbefore other hlt
  · rw [Check.place_inj heq]
    exact h

section Checks

variable (a : Attachment) (applications : List Application) (c : Context) (i : Installation)
  (z : CaseRecord)

/-- The check is passed. -/
def Passes : Check → Prop
  | .permission => ((z.request a.scopes z.confidentiality).allow applications c i).1 = .ok true
  | .writable =>
      z.isClosed = false ∨ ∃ scope ∈ c.settings.guard.bypassScopes a.scopes,
        (z.holds applications scope c i).1 = .ok true
  | .reference => ∃ r, c.bases.read a.typeRef = .ok r
  | .caseType => ∃ d, (resolveType z.caseType .zrc c i).1 = .ok (.ok d)
  | .relation =>
      ∃ r d, c.bases.read a.typeRef = .ok r ∧
        (resolveType z.caseType .zrc c i).1 = .ok (.ok d) ∧ r ∈ d.related a.relation

/-- The check fails, and this is what the caller is told if it gets so far. -/
def FailsWith : Check → ApiError → Prop
  | .permission, e =>
      ((z.request a.scopes z.confidentiality).check applications c i).1 = .error e
  | .writable, e =>
      ¬ a.Passes applications c i z .writable ∧ e = GuardDenial.caseClosed.toApiError
  | .reference, e =>
      ∃ cause, c.bases.read a.typeRef = .error cause ∧
        e = .invalidParam a.relation.field "bad-url" cause.message
  | .caseType, e =>
      ∃ why, (resolveType z.caseType .zrc c i).1 = .ok (.error why) ∧
        e = if why.isTransient then
            .catalogUnavailable s!"cannot resolve case type {z.caseType}: {why}"
          else .invalidParam "zaaktype" "invalid-resource" s!"case type {z.caseType}: {why}"
  | .relation, e =>
      ∃ r d, c.bases.read a.typeRef = .ok r ∧
        (resolveType z.caseType .zrc c i).1 = .ok (.ok d) ∧ r ∉ d.related a.relation ∧
        e = .typeMismatch a.relation.mismatchCode
          s!"{a.relation.field} {r} is not permitted by the case type"

/-- The check is the first that fails. -/
def FirstFailure (check : Check) (e : ApiError) : Prop :=
  a.FailsWith applications c i z check e ∧
    ∀ earlier, earlier.place < check.place → a.Passes applications c i z earlier

/-- What the checks on the types come to, one after the other. -/
def typed : Except ApiError Unit := do
  let r ← readText c a.relation.field a.typeRef
  let d ← caseType c i z.caseType
  if r ∉ d.related a.relation then
    .error (.typeMismatch a.relation.mismatchCode
      s!"{a.relation.field} {r} is not permitted by the case type")

/-- What all checks come to. -/
def outcome : Except ApiError Unit := do
  let z ← z.opened applications c i a.scopes
  a.typed c i z

end Checks

end Attachment

/-- A type that is known as a type of a component is the same without asking for one. -/
theorem anyResolution_of_resolution {c : Context} {i : Installation} {reference : TypeRef}
    {d : TypeDefinition} (h : c.resolution i.store i.typeCache reference .zrc = .ok d) :
    c.anyResolution i.store i.typeCache reference none = .ok d := by
  have hcomponent : componentOf reference none = componentOf reference (some .zrc) := by
    rw [componentOf, componentOf]
    cases Component.ofTypeUrl? reference.key with
    | none => rfl
    | some component => rfl
  rw [Context.resolution] at h
  cases hany : c.anyResolution i.store i.typeCache reference (some .zrc) with
  | error why =>
      rw [hany] at h
      cases h
  | ok found =>
      rw [hany] at h
      simp only [TypeDefinition.asComponent] at h
      split at h
      · cases h
        rw [Context.anyResolution] at hany ⊢
        rw [hcomponent]
        exact hany
      · cases h

theorem resolution_of_caseType {c : Context} {i : Installation} {reference : TypeRef}
    {d : TypeDefinition} (h : caseType c i reference = .ok d) :
    c.resolution i.store i.typeCache reference .zrc = .ok d := by
  rw [caseType] at h
  split at h
  · next hresolved =>
      cases h
      exact hresolved
  · split at h
    · cases h
    · cases h

/-! ## What each check comes to -/

namespace Attachment

variable {a : Attachment} {applications : List Application} {c : Context} {i : Installation}
  {z : CaseRecord} {check other : Check} {e e' : ApiError} {id : String}

section Parts

variable (hi : i.grantCache.Agrees i.store)

include hi

theorem passes_permission :
    a.Passes applications c i z .permission ↔
      z.decision applications c i a.scopes z.confidentiality = .allow := by
  rw [Passes, allow_eq_verdict hi, Except.ok.injEq, CaseRecord.decision]
  cases AccessRequest.verdict _ applications i.store (c.resolution i.store i.typeCache) with
  | allow => exact iff_of_true rfl rfl
  | deny reason => exact iff_of_false Bool.false_ne_true (fun h => by cases h)

theorem failsWith_permission :
    a.FailsWith applications c i z .permission e ↔
      (z.decision applications c i a.scopes z.confidentiality).toResult = .error e := by
  obtain ⟨j, -, hj⟩ := ends_check hi (z.request a.scopes z.confidentiality) i
    (refl_of (Steady c) i)
  rw [FailsWith, hj]
  rfl

theorem passes_writable :
    a.Passes applications c i z .writable ↔
      z.writeDenial? (z.hasScope applications c i) c.settings.guard a.scopes = none := by
  have hholds : ∀ scope, (z.holds applications scope c i).1 = .ok true ↔
      z.hasScope applications c i scope = true := by
    intro scope
    obtain ⟨j, -, hj⟩ := ends_holds hi z scope i (refl_of (Steady c) i)
    rw [hj, Except.ok.injEq]
  simp only [Passes, hholds, CaseRecord.writeDenial?]
  rw [← List.any_eq_true]
  cases z.isClosed with
  | false => simp
  | true => simp

/-- A check that fails is not passed. -/
theorem FailsWith.not_passes (h : a.FailsWith applications c i z check e) :
    ¬ a.Passes applications c i z check := by
  intro hpasses
  cases check with
  | permission =>
      rw [failsWith_permission hi, (passes_permission hi).1 hpasses] at h
      cases h
  | writable => exact h.1 hpasses
  | reference =>
      obtain ⟨cause, hcause, -⟩ := h
      obtain ⟨r, hr⟩ := hpasses
      rw [hr] at hcause
      cases hcause
  | caseType =>
      obtain ⟨why, hwhy, -⟩ := h
      obtain ⟨d, hd⟩ := hpasses
      rw [hd] at hwhy
      cases hwhy
  | relation =>
      obtain ⟨r, d, hr, hd, hnot, -⟩ := h
      obtain ⟨r', d', hr', hd', hmem⟩ := hpasses
      rw [hr] at hr'
      cases hr'
      rw [hd] at hd'
      cases hd'
      exact hnot hmem

omit hi in
theorem FailsWith.unique (h : a.FailsWith applications c i z check e)
    (h' : a.FailsWith applications c i z check e') : e = e' := by
  cases check with
  | permission => exact Except.error.inj ((Eq.symm h).trans h')
  | writable => exact h.2.trans h'.2.symm
  | reference =>
      obtain ⟨cause, hcause, rfl⟩ := h
      obtain ⟨cause', hcause', rfl⟩ := h'
      rw [hcause] at hcause'
      cases hcause'
      rfl
  | caseType =>
      obtain ⟨why, hwhy, rfl⟩ := h
      obtain ⟨why', hwhy', rfl⟩ := h'
      rw [hwhy] at hwhy'
      cases hwhy'
      rfl
  | relation =>
      obtain ⟨r, d, hr, hd, -, rfl⟩ := h
      obtain ⟨r', d', hr', hd', -, rfl⟩ := h'
      rw [hr] at hr'
      cases hr'
      rfl

/-- There is one first failure at most. -/
theorem FirstFailure.unique (h : a.FirstFailure applications c i z check e)
    (h' : a.FirstFailure applications c i z other e') : e = e' := by
  rcases Nat.lt_trichotomy check.place other.place with hlt | heq | hgt
  · exact absurd (h'.2 check hlt) (h.1.not_passes hi)
  · cases Check.place_inj heq
    exact h.1.unique h'.1
  · exact absurd (h.2 other hgt) (h'.1.not_passes hi)

/-- A caller gets as far as the types, or is told of the first check that failed. -/
theorem opened_cases (a : Attachment) (applications : List Application) (c : Context)
    (z : CaseRecord) :
    (∀ check : Check, check.place < Check.reference.place → a.Passes applications c i z check) ∧
        z.opened applications c i a.scopes = .ok z ∨
      ∃ check e, a.FirstFailure applications c i z check e ∧
        z.opened applications c i a.scopes = .error e := by
  have hnone : ∀ other : Check, other.place < Check.permission.place →
      a.Passes applications c i z other := fun _ h => absurd h (Nat.not_lt_zero _)
  rw [CaseRecord.opened]
  cases hdecision : z.decision applications c i a.scopes z.confidentiality with
  | deny reason =>
      refine .inr ⟨.permission, reason.toApiError, ⟨?_, hnone⟩, rfl⟩
      exact (failsWith_permission hi).2 (congrArg Decision.toResult hdecision)
  | allow =>
      have hpermission := (passes_permission hi).2 hdecision
      have hadmitted := Check.before_next .writable rfl hnone hpermission
      have hwritable : a.Passes applications c i z .writable ↔
          z.writeDenial? (z.hasScope applications c i) c.settings.guard a.scopes = none :=
        passes_writable hi
      rw [CaseRecord.guarded]
      cases hdenial : z.writeDenial? (z.hasScope applications c i) c.settings.guard a.scopes with
      | none =>
          exact .inl ⟨Check.before_next .reference rfl hadmitted (hwritable.2 hdenial),
            rfl⟩
      | some denial =>
          have hclosed : denial = .caseClosed := by
            rw [CaseRecord.writeDenial?] at hdenial
            split at hdenial
            · exact (Option.some.inj hdenial).symm
            · cases hdenial
          rw [hdenial] at hwritable
          refine .inr ⟨.writable, denial.toApiError, ⟨⟨?_, hclosed ▸ rfl⟩, hadmitted⟩, rfl⟩
          exact fun h => by cases hwritable.1 h

omit hi in
theorem typed_cases (hopen : ∀ check : Check, check.place < Check.reference.place →
      a.Passes applications c i z check) :
    (∀ check, a.Passes applications c i z check) ∧ a.typed c i z = .ok () ∨
      ∃ check e, a.FirstFailure applications c i z check e ∧ a.typed c i z = .error e := by
  rw [typed, readText]
  cases hread : c.bases.read a.typeRef with
  | error cause => exact .inr ⟨.reference, _, ⟨⟨cause, hread, rfl⟩, hopen⟩, rfl⟩
  | ok r =>
      have hreads := Check.before_next .caseType rfl hopen ⟨r, hread⟩
      simp only [except_ok_bind, caseType]
      cases hresolved : c.resolution i.store i.typeCache z.caseType .zrc with
      | error why =>
          refine .inr ⟨.caseType, _, ⟨⟨why, resolveType_eq_ok.2 hresolved, rfl⟩, hreads⟩, ?_⟩
          cases hwhy : why.isTransient with
          | true => simp only [hwhy]; rfl
          | false => simp only [hwhy]; rfl
      | ok d =>
          have hd := resolveType_eq_ok.2 hresolved
          have hknown := Check.before_next .relation rfl hreads ⟨d, hd⟩
          simp only [except_ok_bind]
          split
          · next hnot => exact .inr ⟨.relation, _, ⟨⟨r, d, hread, hd, hnot, rfl⟩, hknown⟩, rfl⟩
          · next hmem =>
              have hrelated : a.Passes applications c i z .relation :=
                ⟨r, d, hread, hd, Decidable.not_not.1 hmem⟩
              refine .inl ⟨fun check => ?_, rfl⟩
              rcases Nat.lt_or_ge check.place Check.relation.place with hlt | hge
              · exact hknown check hlt
              · cases check <;> first | exact hrelated | cases (Nat.not_lt.2 hge (by decide))

/-- The checks are all passed, or the outcome is what the first that fails says. -/
theorem outcome_cases (a : Attachment) (applications : List Application) (c : Context)
    (z : CaseRecord) :
    (∀ check, a.Passes applications c i z check) ∧ a.outcome applications c i z = .ok () ∨
      ∃ check e, a.FirstFailure applications c i z check e ∧
        a.outcome applications c i z = .error e := by
  rcases opened_cases hi a applications c z with ⟨hopen, hok⟩ | ⟨check, e, hfirst, herror⟩
  · rw [outcome, hok, except_ok_bind]
    exact typed_cases hopen
  · exact .inr ⟨check, e, hfirst, by rw [outcome, herror]; rfl⟩

theorem outcome_eq_ok : a.outcome applications c i z = .ok () ↔
    ∀ check, a.Passes applications c i z check := by
  rcases outcome_cases hi a applications c z with ⟨hall, hok⟩ | ⟨check, e, hfirst, herror⟩
  · exact iff_of_true hok hall
  · exact iff_of_false (fun hok => by rw [hok] at herror; cases herror)
      fun hall => hfirst.1.not_passes hi (hall check)

theorem outcome_eq_error : a.outcome applications c i z = .error e ↔
    ∃ check, a.FirstFailure applications c i z check e := by
  rcases outcome_cases hi a applications c z with ⟨hall, hok⟩ | ⟨check, e', hfirst, herror⟩
  · rw [hok]
    exact iff_of_false (fun h => by cases h)
      fun ⟨check, hfirst⟩ => hfirst.1.not_passes hi (hall check)
  · rw [herror]
    constructor
    · intro h
      cases h
      exact ⟨check, hfirst⟩
    · rintro ⟨other, hother⟩
      rw [hfirst.unique hi hother]

/-- The operation makes these checks. -/
theorem ends_authorizeAttachment (hz : i.store.case? id = some z) :
    Ends c i (authorizeAttachment applications id a) (a.outcome applications c i z) := by
  refine (ends_openCase hi hz).bind fun found hfound => ?_
  obtain rfl := eq_of_opened hfound
  refine (ends_readText _ _).bind fun r _ => (ends_caseType _).bind fun d hd => ?_
  -- `d` is also what the type comes to when it is looked up for its relations
  have hsame := anyResolution_of_resolution (resolution_of_caseType hd)
  refine (ends_relatedTypes _ _).bind_ok ?_
  rw [hsame]
  show Ends c i (if r ∉ d.related a.relation then _ else _) _
  split
  · exact ends_fail _
  · exact ends_pure ()

theorem authorizeAttachment_eq (hz : i.store.case? id = some z) :
    (authorizeAttachment applications id a c i).1 = a.outcome applications c i z := by
  have hends : Ends c i (authorizeAttachment applications id a) (a.outcome applications c i z) :=
    ends_authorizeAttachment hi hz
  obtain ⟨j, -, hj⟩ := hends i (refl_of (Steady c) i)
  rw [hj]

/-- A caller that does not get past the first check is denied permission, or is told that
the matter is open while a type does not resolve. -/
theorem exists_of_not_permitted (hnot : ¬ a.Passes applications c i z .permission) :
    ∃ e, a.outcome applications c i z = .error e ∧
      (e.kind = .permissionDenied ∨ e.kind = .catalogUnavailable) := by
  rw [passes_permission hi] at hnot
  rw [outcome, CaseRecord.opened]
  cases hdecision : z.decision applications c i a.scopes z.confidentiality with
  | allow => exact absurd hdecision hnot
  | deny reason =>
      refine ⟨reason.toApiError, rfl, ?_⟩
      cases reason with
      | catalogUnavailable detail => exact .inr rfl
      | _ => exact .inl rfl

end Parts

end Attachment

/-- An attachment to a case that is there is authorized just when every check is passed, and
otherwise the caller is told what the first check that fails says; a check that fails is one
that is not passed. So a caller without permission is told of nothing but that. Whatever comes
of it, nothing is stored and nothing is announced. -/
theorem attachment_told_of_first_failure {i : Installation} (hi : i.grantCache.Agrees i.store)
    {id : String} {z : CaseRecord} (hz : i.store.case? id = some z)
    (applications : List Application) (a : Attachment) (c : Context) :
    ((authorizeAttachment applications id a c i).1 = .ok () ↔
      ∀ check, a.Passes applications c i z check) ∧
    (∀ e, (authorizeAttachment applications id a c i).1 = .error e ↔
      ∃ check, a.FirstFailure applications c i z check e) ∧
    (∀ check e, a.FailsWith applications c i z check e →
      ¬ a.Passes applications c i z check) ∧
    (¬ a.Passes applications c i z .permission →
      ∃ e, (authorizeAttachment applications id a c i).1 = .error e ∧
        (e.kind = .permissionDenied ∨ e.kind = .catalogUnavailable)) ∧
    (authorizeAttachment applications id a c i).2.store = i.store ∧
    (authorizeAttachment applications id a c i).2.outbox = i.outbox := by
  have hsteady := authorizeAttachment_steady applications id a c i
  rw [Attachment.authorizeAttachment_eq hi hz]
  exact ⟨Attachment.outcome_eq_ok hi, fun _ => Attachment.outcome_eq_error hi,
    fun _ _ h => h.not_passes hi, Attachment.exists_of_not_permitted hi, hsteady.store,
    hsteady.outbox⟩

/-- A type of permit that takes letters, and a permit of it. -/
def permitWithLetters : TypeDefinition where
  reference := ⟨"permit"⟩
  component := .zrc
  catalog := none
  relations := { documentTypes := SortedSet.ofList [⟨"letter"⟩] }

def filedPermit : CaseRecord where
  id := "permit-1"
  caseType := ⟨"permit"⟩
  confidentiality := .openbaar

def filingOffice : Installation where
  store := { types := ⟨[permitWithLetters], by decide⟩, cases := ⟨[filedPermit], by decide⟩ }

def filing (type : String) : Attachment :=
  ⟨.document, type, SortedSet.ofList ["documenten.aanmaken"]⟩

def filingClerk : Application := ⟨"clerk", "Clerk", {}, true⟩

/-- The clerk may file a letter, and is told that a photo does not go with a permit. Who acts
for no application is told nothing of that. -/
theorem only_letters_are_filed :
    (∀ check, (filing "letter").Passes [filingClerk] .alone filingOffice filedPermit check) ∧
    (∃ e, e.kind = .typeMismatch ∧ ∃ check,
      (filing "photo").FirstFailure [filingClerk] .alone filingOffice filedPermit check e) ∧
    ∃ check, (filing "photo").FirstFailure [] .alone filingOffice filedPermit check
      .permissionDenied := by
  have hi : filingOffice.grantCache.Agrees filingOffice.store := GrantCache.Agrees.of_empty
  have hz : filingOffice.store.case? "permit-1" = some filedPermit := rfl
  have hletter : (authorizeAttachment [filingClerk] "permit-1" (filing "letter") .alone
      filingOffice).1 = .ok () := by decide +kernel
  have hphoto : (authorizeAttachment [filingClerk] "permit-1" (filing "photo") .alone
      filingOffice).1 = .error (.typeMismatch "missing-zaaktype-informatieobjecttype-relation"
        "informatieobjecttype photo is not permitted by the case type") := by decide +kernel
  have hnobody : (authorizeAttachment [] "permit-1" (filing "photo") .alone filingOffice).1 =
      .error .permissionDenied := by decide +kernel
  obtain ⟨hok, -⟩ := attachment_told_of_first_failure hi hz [filingClerk] (filing "letter") .alone
  obtain ⟨-, herror, -⟩ :=
    attachment_told_of_first_failure hi hz [filingClerk] (filing "photo") .alone
  obtain ⟨-, hdenied, -⟩ := attachment_told_of_first_failure hi hz [] (filing "photo") .alone
  exact ⟨hok.1 hletter, ⟨_, rfl, (herror _).1 hphoto⟩, (hdenied _).1 hnobody⟩

end CaseAccess
