import CaseAccess.Proofs.CacheCoherence
import CaseAccess.Proofs.CaseHistory
import CaseAccess.Proofs.ClosedCase
import CaseAccess.Proofs.PlanRows

/-!
# No write to a case without authority

An operation on cases that ends well was allowed to its caller, changed the rows that it
is for and no others, and announced every case that it changed once. Each of these is
read off one description of what a command writes, `CaseCommand.Writes`.

Three operations are allowed by one set of scopes, and changing a case is allowed twice:
at the level that the case has, and at the one that it gets. Recording a status is
allowed by any of several sets. It is also the one that writes other cases: closing a
main case sets the archive dates of sub-cases that wait for it. These are announced one
by one, and none of them twice, because they were read from the table below the case.
-/

namespace CaseAccess

open Operation
open Installation (Steady)

/-! ## What allows a write -/

/-- The caller may have the scopes on the type of a case, at a level. -/
def CaseRecord.Allowed (z : CaseRecord) (applications : List Application) (c : Context)
    (i : Installation) (scopes : ScopeSet) (level : Confidentiality) : Prop :=
  ((z.request scopes level).allow applications c i).1 = .ok true

/-- The announcement of a case, not of something that belongs to it. -/
def Context.notice (c : Context) (z : CaseRecord) (action : Action) : Notification :=
  Notification.ofCase c.settings.publicBaseUrl c.now z none action

section Allowed

variable {applications : List Application} {c : Context} {i j k : Installation}
  (hi : i.grantCache.Agrees i.store)

include hi

theorem allowed_of_authorize {z : CaseRecord} {scopes : ScopeSet} {level : Confidentiality}
    (hij : Steady c i j) (h : z.authorize applications scopes level c j = (.ok (), k)) :
    z.Allowed applications c i scopes level := by
  have hends : Ends c i ((z.request scopes level).check applications) _ := ends_check hi _
  obtain ⟨k', -, hk'⟩ := hends j hij
  have hallowed := congrArg Prod.fst (hk'.symm.trans h)
  rw [CaseRecord.Allowed, allow_eq_verdict hi]
  cases hd : (z.request scopes level).verdict applications i.store
      (c.resolution i.store i.typeCache) with
  | allow => rfl
  | deny reason =>
      rw [hd] at hallowed
      cases hallowed

omit hi in
theorem resolution_of_resolveCaseType {reference : TypeRef} {d : TypeDefinition}
    (hij : Steady c i j) (h : resolveCaseType reference c j = (.ok d, k)) :
    c.resolution i.store i.typeCache reference .zrc = .ok d := by
  obtain ⟨k', -, hk'⟩ := ends_caseType (c := c) (i := i) reference j hij
  have htype := congrArg Prod.fst (hk'.symm.trans h)
  rw [caseType] at htype
  cases hd : c.resolution i.store i.typeCache reference .zrc with
  | ok d' =>
      rw [hd] at htype
      cases htype
      rfl
  | error why =>
      simp only [hd] at htype
      split at htype
      · cases htype
      · cases htype

theorem allowed_of_has {z : CaseRecord} {scopes : ScopeSet}
    (h : z.has applications c i scopes = true) :
    z.Allowed applications c i scopes z.confidentiality := by
  rw [CaseRecord.Allowed, allow_eq_verdict hi, Except.ok.injEq]
  exact h

theorem allowed_of_openCase {id : String} {z : CaseRecord} {scopes : ScopeSet}
    (h : openCase applications id scopes c i = (.ok z, j)) :
    z.Allowed applications c i scopes z.confidentiality := by
  obtain ⟨z', i₁, h₁, -, h⟩ := MovesIn.of_bind_ok (loadCase_steady applications id _) h
  obtain ⟨_, i₂, hauthorize, h⟩ := of_bind_ok h
  obtain ⟨_, i₃, -, h⟩ := of_bind_ok h
  cases h
  exact allowed_of_authorize hi h₁ hauthorize

theorem allowed_of_checkLevel {u : CaseUpdate} {z : CaseRecord} (hij : Steady c i j)
    (hold : z.Allowed applications c i updateScopes z.confidentiality)
    (h : u.checkLevel applications z c j = (.ok (), k)) :
    z.Allowed applications c i updateScopes (u.apply z).confidentiality := by
  rw [CaseUpdate.checkLevel] at h
  rw [CaseUpdate.apply]
  cases hlevel : u.confidentiality with
  | none => exact hold
  | some level =>
      simp only [hlevel] at h
      split at h
      · next hsame =>
          rw [Option.getD_some, hsame]
          exact hold
      · exact allowed_of_authorize hi hij h

end Allowed

/-! ## What a command writes -/

/-- What a command that ends well has written, and what it has announced. -/
inductive CaseCommand.Writes (c : Context) (i : Installation) :
    CaseCommand → Store → List Notification → Prop where
  | create {applications : List Application} {freshId : String} {input : NewCase} (z : CaseRecord)
      (d : TypeDefinition) (cases : Table CaseRecord.id)
      (allowed : z.Allowed applications c i (c.settings.authz.createScope .zrc) z.confidentiality)
      (resolved : c.resolution i.store i.typeCache z.caseType .zrc = .ok d)
      (new : z.endDate = none ∧ z.archiveActionDate = none)
      (added : i.store.cases.add? z = some cases) :
      Writes c i (.create applications freshId input) { i.store with cases := cases }
        [c.notice z .create]
  | update {applications : List Application} {id : String} {u : CaseUpdate} (z : CaseRecord)
      (found : i.store.case? id = some z)
      (allowed : z.Allowed applications c i updateScopes z.confidentiality)
      (allowedAfter : z.Allowed applications c i updateScopes (u.apply z).confidentiality) :
      Writes c i (.update applications id u) (i.store.updateCase (u.apply z))
        [c.notice (u.apply z) .update]
  | recordStatus {applications : List Application} {id statusType : String} {setAt : Instant}
      (z : CaseRecord) (required : ScopeSet) (reference : TypeRef) (d : TypeDefinition)
      (t : StatusTransition) (isFinal : Bool) (plan : TransitionPlan) (r : StatusRecord)
      (s : Store) (found : i.store.case? id = some z)
      (candidate : required ∈ statusScopes c.settings)
      (allowed : z.Allowed applications c i required z.confidentiality)
      (resolved : c.resolution i.store i.typeCache z.caseType .zrc = .ok d)
      (read : transition c i z required d reference setAt = .ok t)
      (planned : (if isFinal then t.closing else .ok t.opening) = .ok plan)
      (created : i.store.createStatus plan.status = .ok (r, s)) :
      Writes c i (.recordStatus applications id statusType setAt) (plan.written s)
        (plan.notices c r.id)
  | setResult {applications : List Application} {id resultType : String} (z : CaseRecord)
      (result : ResultRecord) (found : i.store.case? id = some z)
      (allowed : z.Allowed applications c i updateScopes z.confidentiality)
      (ofCase : result.caseId = id) :
      Writes c i (.setResult applications id resultType) (i.store.saveResult result)
        [.ofCase c.settings.publicBaseUrl c.now z (some ⟨"resultaat", s!"resultaten/{z.id}"⟩)
          .create]
  | attach {applications : List Application} {id : String} {a : Attachment} (z : CaseRecord)
      (found : i.store.case? id = some z)
      (allowed : z.Allowed applications c i a.scopes z.confidentiality) :
      Writes c i (.attach applications id a) i.store []

section WritesOf

variable {c : Context} {i j : Installation} (hi : i.grantCache.Agrees i.store)

include hi

variable {applications : List Application}

theorem createCase_writes {freshId : String} {input : NewCase} {z : CaseRecord}
    (h : createCase applications freshId input c i = (.ok z, j)) :
    CaseCommand.Writes c i (.create applications freshId input) j.store [c.notice z .create] ∧
      j.outbox = i.outbox ++ [c.notice z .create] := by
  obtain ⟨ctx, i₀, hctx, h⟩ := of_bind_ok h
  cases hctx
  obtain ⟨caseType, i₁, h₁, -, h⟩ := MovesIn.of_bind_ok (readReference_steady _ _) h
  obtain ⟨_, i₂, h₂, hauthorize, h⟩ := MovesIn.of_bind_ok (authorize_steady applications _ _ _) h
  have hallowed := allowed_of_authorize hi h₁ hauthorize
  have h₂ : Steady c i i₂ := trans_of (Steady c) h₁ h₂
  obtain ⟨d, i₃, h₃, htype, h⟩ := MovesIn.of_bind_ok (resolveCaseType_steady _) h
  have hresolved := resolution_of_resolveCaseType h₂ htype
  obtain ⟨main, i₄, h₄, -, h⟩ := MovesIn.of_bind_ok (checkMainCases_steady applications _ _ _) h
  have h₄ : Steady c i i₄ := trans_of (Steady c) h₂ (trans_of (Steady c) h₃ h₄)
  obtain ⟨_, i₅, hstore, h⟩ := of_bind_ok h
  obtain ⟨_, i₆, hannounce, h⟩ := of_bind_ok h
  cases h
  cases hannounce
  obtain ⟨found, i₇, hread, hstore⟩ := of_bind_ok (of_transaction_ok hstore)
  obtain ⟨-, rfl⟩ := of_reading_ok hread
  obtain ⟨-, hstore⟩ := of_refusal_ok hstore
  obtain ⟨s, hs, rfl⟩ := of_changingOr_ok hstore
  obtain ⟨cases, hadd, rfl⟩ := Store.createCase_ok hs
  rw [h₄.store] at hadd
  refine ⟨?_, congrArg (· ++ _) h₄.outbox⟩
  show CaseCommand.Writes c i _ { i₄.store with cases := cases } _
  rw [h₄.store]
  exact .create _ d cases hallowed hresolved ⟨rfl, rfl⟩ hadd

theorem updateCase_writes {id : String} {u : CaseUpdate} {z : CaseRecord}
    (h : updateCase applications id u c i = (.ok z, j)) :
    CaseCommand.Writes c i (.update applications id u) j.store [c.notice z .update] ∧
      j.outbox = i.outbox ++ [c.notice z .update] := by
  obtain ⟨before, i₁, h₁, hopen, h⟩ := MovesIn.of_bind_ok (openCase_steady applications id _) h
  have hallowed := allowed_of_openCase hi hopen
  obtain ⟨_, i₂, h₂, hlevel, h⟩ := MovesIn.of_bind_ok (checkLevel_steady applications u before) h
  have hafter := allowed_of_checkLevel hi h₁ hallowed hlevel
  have h₂ : Steady c i i₂ := trans_of (Steady c) h₁ h₂
  obtain ⟨_, i₃, hchange, h⟩ := of_bind_ok h
  obtain ⟨_, i₄, hannounce, h⟩ := of_bind_ok h
  cases h
  cases hchange
  cases hannounce
  refine ⟨?_, congrArg (· ++ _) h₂.outbox⟩
  show CaseCommand.Writes c i _ (i₂.store.updateCase _) _
  rw [h₂.store]
  exact .update before (openCase_ok hopen) hallowed hafter

theorem recordStatus_writes {id statusType : String} {setAt : Instant} {r : StatusRecord}
    (h : recordStatus applications id statusType setAt c i = (.ok r, j)) :
    ∃ news, CaseCommand.Writes c i (.recordStatus applications id statusType setAt) j.store news ∧
      j.outbox = i.outbox ++ news := by
  obtain ⟨plan, houtcome, houtbox⟩ := recordStatus_outcome hi h
  obtain ⟨hplan, s, hcreate, hwritten⟩ := statusOutcome_eq_ok.1 houtcome
  obtain ⟨z, required, reference, d, t, hadmission, ht, hverdict⟩ := statusPlan_eq_ok.1 hplan
  refine ⟨_, ?_, houtbox⟩
  rw [← hwritten]
  obtain ⟨type, -, -, -, -, hplanned⟩ := plan_eq_ok.1 (verdict_eq_ok.1 hverdict)
  have hheld := List.find?_some hadmission.admitted
  exact .recordStatus z required reference d t type.isFinal plan r s hadmission.found
    (List.mem_of_find?_eq_some hadmission.admitted) (allowed_of_has hi hheld)
    hadmission.resolved ht hplanned hcreate

theorem setResult_writes {id resultType : String} {result : ResultRecord}
    (h : setResult applications id resultType c i = (.ok result, j)) :
    ∃ news, CaseCommand.Writes c i (.setResult applications id resultType) j.store news ∧
      j.outbox = i.outbox ++ news := by
  obtain ⟨before, i₁, h₁, hopen, h⟩ := MovesIn.of_bind_ok (openCase_steady applications id _) h
  have hfound := openCase_ok hopen
  have hid : before.id = id := Table.key_of_get? hfound
  obtain ⟨resultRef, i₂, h₂, -, h⟩ := MovesIn.of_bind_ok (readReference_steady _ _) h
  obtain ⟨caseType, i₃, h₃, -, h⟩ := MovesIn.of_bind_ok (resolveCaseType_steady _) h
  have h₃ : Steady c i i₃ := trans_of (Steady c) h₁ (trans_of (Steady c) h₂ h₃)
  obtain ⟨-, h⟩ := of_refusal_ok h
  obtain ⟨_, i₄, hchange, h⟩ := of_bind_ok h
  obtain ⟨_, i₅, hannounce, h⟩ := of_bind_ok h
  cases h
  cases hchange
  cases hannounce
  refine ⟨_, ?_, congrArg (· ++ _) h₃.outbox⟩
  show CaseCommand.Writes c i _ (i₃.store.saveResult _) _
  rw [h₃.store]
  exact .setResult before _ hfound (allowed_of_openCase hi hopen) hid

theorem authorizeAttachment_writes {id : String} {a : Attachment}
    (h : authorizeAttachment applications id a c i = (.ok (), j)) :
    CaseCommand.Writes c i (.attach applications id a) j.store [] ∧ j.outbox = i.outbox ++ [] := by
  have hsteady := authorizeAttachment_steady applications id a c i
  rw [h] at hsteady
  obtain ⟨z, i₁, h₁, hopen, -⟩ := MovesIn.of_bind_ok (openCase_steady applications id _) h
  refine ⟨?_, hsteady.outbox.trans (List.append_nil _).symm⟩
  rw [hsteady.store]
  exact .attach z (openCase_ok hopen) (allowed_of_openCase hi hopen)

theorem CaseCommand.writes_of {command : CaseCommand} (h : command.run c i = (.ok (), j)) :
    ∃ news, command.Writes c i j.store news ∧ j.outbox = i.outbox ++ news := by
  cases command with
  | create applications freshId input =>
      obtain ⟨z, _, hrun, h⟩ := of_bind_ok h
      cases h
      exact ⟨_, createCase_writes hi hrun⟩
  | update applications id change =>
      obtain ⟨z, _, hrun, h⟩ := of_bind_ok h
      cases h
      exact ⟨_, updateCase_writes hi hrun⟩
  | recordStatus applications id statusType setAt =>
      obtain ⟨r, _, hrun, h⟩ := of_bind_ok h
      cases h
      exact recordStatus_writes hi hrun
  | setResult applications id resultType =>
      obtain ⟨result, _, hrun, h⟩ := of_bind_ok h
      cases h
      exact setResult_writes hi hrun
  | attach applications id attachment => exact ⟨_, authorizeAttachment_writes hi h⟩

end WritesOf

/-! ## Authority -/

theorem mem_withoutRepeats {α : Type} [DecidableEq α] {a : α} {l : List α}
    (h : a ∈ withoutRepeats l) : a ∈ l := by
  fun_induction withoutRepeats l with
  | case1 b rest ih => exact List.mem_cons_of_mem _ (ih h)
  | case2 b c rest _ ih =>
      rcases List.mem_cons.1 h with rfl | h
      · exact List.mem_cons_self
      · exact List.mem_cons_of_mem _ (ih h)
  | case3 l _ => exact h

theorem mem_statusScopes {settings : Settings} {scopes : ScopeSet}
    (h : scopes ∈ statusScopes settings) :
    scopes = updateScopes ∨ scopes = settings.authz.createScope .zrc ∨
      (∃ scope ∈ settings.guard.statusScope, scopes = ScopeSet.single scope) ∨
      scopes = ScopeSet.single settings.guard.reopenScope := by
  have h := mem_withoutRepeats h
  simp only [List.mem_append, List.mem_singleton, Option.mem_toList, Option.map_eq_some_iff] at h
  rcases h with ((h | h) | ⟨scope, hscope, rfl⟩) | h
  · exact .inl h
  · split at h
    · cases h
    · exact .inr (.inl (List.mem_singleton.1 h))
  · exact .inr (.inr (.inl ⟨scope, hscope, rfl⟩))
  · exact .inr (.inr (.inr h))

/-- The caller of a command was allowed what the command takes, where the command led
from `i` to the store `t`. -/
def CaseCommand.Authorized (c : Context) (i : Installation) (t : Store) : CaseCommand → Prop
  | .create applications _ _ =>
      ∃ z, i.store.case? z.id = none ∧ t.case? z.id = some z ∧
        z.Allowed applications c i (c.settings.authz.createScope .zrc) z.confidentiality
  | .update applications id _ =>
      ∃ z z', i.store.case? id = some z ∧ t.case? id = some z' ∧
        z.Allowed applications c i updateScopes z.confidentiality ∧
        z.Allowed applications c i updateScopes z'.confidentiality
  | .recordStatus applications id _ _ =>
      ∃ z scopes, i.store.case? id = some z ∧
        z.Allowed applications c i scopes z.confidentiality ∧
        (scopes = updateScopes ∨ scopes = c.settings.authz.createScope .zrc ∨
          (∃ scope ∈ c.settings.guard.statusScope, scopes = ScopeSet.single scope) ∨
          scopes = ScopeSet.single c.settings.guard.reopenScope)
  | .setResult applications id _ =>
      ∃ z, i.store.case? id = some z ∧ z.Allowed applications c i updateScopes z.confidentiality
  | .attach applications id a =>
      ∃ z, i.store.case? id = some z ∧ z.Allowed applications c i a.scopes z.confidentiality

theorem CaseCommand.Writes.authorized {c : Context} {i : Installation} {command : CaseCommand}
    {t : Store} {news : List Notification} (h : command.Writes c i t news) :
    command.Authorized c i t := by
  cases h with
  | create z d cases hallowed _ _ hadd =>
      have hnew := Table.get?_add? hadd z.id
      rw [if_pos rfl] at hnew
      exact ⟨z, Table.get?_of_add? hadd, hnew, hallowed⟩
  | @update applications id u z hfound hallowed hafter =>
      have hid : id = (u.apply z).id := (Table.key_of_get? hfound).symm
      refine ⟨z, u.apply z, hfound, ?_, hallowed, hafter⟩
      rw [Store.case?_updateCase, if_pos hid, hfound]
      rfl
  | recordStatus z required reference d t isFinal plan r s hfound hmem hallowed _ _ _ _ =>
      exact ⟨z, required, hfound, hallowed, mem_statusScopes hmem⟩
  | setResult z result hfound hallowed hof => exact ⟨z, hfound, hallowed⟩
  | attach z hfound hallowed => exact ⟨z, hfound, hallowed⟩

/-! ## The rows that differ -/

/-- The rows that a command may change. -/
def CaseCommand.Changes (s t : Store) : CaseCommand → Prop
  | .create _ _ _ =>
      ∃ z cases, cases.rows = s.cases.rows ++ [z] ∧ t = { s with cases := cases }
  | .update _ id _ =>
      t = { s with cases := t.cases } ∧
        t.cases.rows.map (·.id) = s.cases.rows.map (·.id) ∧
        ∀ other, other ≠ id → t.case? other = s.case? other
  | .recordStatus _ id _ _ =>
      t = { s with cases := t.cases, statuses := t.statuses } ∧
        (∃ r, r.caseId = id ∧ t.statuses.rows = s.statuses.rows ++ [r]) ∧
        t.cases.rows.map (·.id) = s.cases.rows.map (·.id) ∧
        ∀ other, other ≠ id → t.case? other ≠ s.case? other →
          ∃ z nomination date, s.case? other = some z ∧ z.mainCase = some id ∧
            z.isClosed = true ∧ t.case? other =
              some { z with archiveNomination := nomination, archiveActionDate := date }
  | .setResult _ id _ =>
      t = { s with results := t.results } ∧
        ∀ other, other ≠ id → t.result? other = s.result? other
  | .attach _ _ _ => t = s

theorem result?_saveResult (s : Store) (result : ResultRecord) {id : String}
    (h : id ≠ result.caseId) : (s.saveResult result).result? id = s.result? id := by
  show (s.results.put result).get? id = s.results.get? id
  rw [Table.put]
  cases hadd : s.results.add? result with
  | none =>
      rw [Option.getD_none, Table.get?_replace]
      cases hfound : s.results.get? id with
      | none => rfl
      | some other =>
          have hother : other.caseId = id := Table.key_of_get? hfound
          rw [Option.map_some, Table.instead, if_neg (hother ▸ h)]
  | some results =>
      rw [Option.getD_some, Table.get?_add? hadd, if_neg (Ne.symm h)]

theorem CaseCommand.Writes.changes {c : Context} {i : Installation} {command : CaseCommand}
    {t : Store} {news : List Notification} (h : command.Writes c i t news)
    (hi : i.store.Chronicled) : command.Changes i.store t := by
  cases h with
  | create z d cases _ _ _ hadd => exact ⟨z, cases, (Table.add?_eq_some.1 hadd).2, rfl⟩
  | @update applications id u z hfound _ _ =>
      have hid : z.id = id := Table.key_of_get? hfound
      refine ⟨rfl, Table.map_key_instead _ _, fun other hne => ?_⟩
      have hother : other ≠ (u.apply z).id := fun h => hne (h.trans hid)
      rw [Store.case?_updateCase, if_neg hother]
  | recordStatus z required reference d t isFinal plan r s hfound _ _ _ ht hplan hcreate =>
      have hread := transition_readFrom ht
      have hid : z.id = _ := Table.key_of_get? hfound
      subst hid
      have hmain : z.mainCase ≠ some z.id := hi.apex z (Table.mem_of_get? hfound)
      obtain ⟨hframe, hstatuses, hids⟩ := written_frame hcreate
      refine ⟨hframe, ⟨i.store.keptStatus plan.status, ?_, ?_⟩, hids, fun other hne hdiffers => ?_⟩
      · show plan.status.caseId = z.id
        rw [(plan_follows hplan).status, StatusTransition.status, hread.case]
      · rw [hstatuses]
        rfl
      · rw [case?_written hread hfound hplan hcreate hmain, if_neg hne] at hdiffers ⊢
        cases hy : plan.subCases.find? (·.id = other) with
        | none =>
            rw [hy, Option.none_or] at hdiffers
            exact absurd rfl hdiffers
        | some y =>
            have hother : y.id = other := by simpa using List.find?_some hy
            obtain ⟨sub, -, harchived, hclosed, hbelow, hsub⟩ :=
              ((plan_dates hplan).below hread).2 y (List.mem_of_find?_eq_some hy)
            obtain ⟨_, -, -, -, hdated⟩ := of_archived? harchived
            rw [← hother, hsub]
            exact ⟨sub.case, _, _, rfl, hbelow, hclosed, congrArg some (of_archived hdated).1⟩
  | setResult z result hfound _ hof =>
      subst hof
      exact ⟨rfl, fun other hne => result?_saveResult i.store result hne⟩
  | attach z _ _ => rfl

/-! ## Announcements -/

/-- Whether a notification is of a case itself, the one with that id. -/
def Notification.ofCaseItself (n : Notification) (base id : String) : Bool :=
  n.channel = casesChannel && n.resource = "zaak" && n.mainObject = caseUrl base id &&
    n.resourceUrl = caseUrl base id

theorem caseUrl_inj {base id id' : String} : caseUrl base id = caseUrl base id' ↔ id = id' := by
  rw [caseUrl, caseUrl, casesUrl, casesUrl, String.append_right_inj, String.append_right_inj]

theorem ofCaseItself_notice {c : Context} {z : CaseRecord} {action : Action} {id : String} :
    (c.notice z action).ofCaseItself c.settings.publicBaseUrl id = decide (z.id = id) := by
  simp [Context.notice, Notification.ofCase, Notification.ofCaseItself, caseUrl_inj]

/-- The announcement of what belongs to a case is not one of the case. -/
theorem ofCaseItself_sub {base id : String} {now : Instant} {z : CaseRecord}
    {sub : Notification.SubResource} {action : Action} (h : sub.name ≠ "zaak") :
    (Notification.ofCase base now z (some sub) action).ofCaseItself base id = false := by
  simp [Notification.ofCase, Notification.ofCaseItself, h]

/-- Of records that are announced once each, every one is announced once. -/
theorem notice_once {c : Context} {l : List CaseRecord} {action : Action}
    (hdistinct : (l.map (·.id)).Nodup) {z : CaseRecord} (hz : z ∈ l) :
    (l.map (c.notice · action)).filter (·.ofCaseItself c.settings.publicBaseUrl z.id) =
      [c.notice z action] := by
  have hkey : ((·.ofCaseItself c.settings.publicBaseUrl z.id) ∘ (c.notice · action)) =
      fun y : CaseRecord => decide (y.id = z.id) := by
    funext y
    exact ofCaseItself_notice
  rw [List.filter_map, hkey, filter_eq_singleton hdistinct hz]
  rfl

/-- Every case that differs between two stores is announced once, as new or as changed. -/
def Context.AnnouncesChanges (c : Context) (s t : Store) (news : List Notification) : Prop :=
  ∀ id, t.case? id ≠ s.case? id →
    ∃ n, news.filter (·.ofCaseItself c.settings.publicBaseUrl id) = [n] ∧
      n.action = if (s.case? id).isSome then .update else .create

theorem announcesChanges_of_cases {c : Context} {s t : Store} (h : t.cases = s.cases)
    (news : List Notification) : c.AnnouncesChanges s t news := by
  intro id hdiffers
  rw [Store.case?, Store.case?, h] at hdiffers
  exact absurd rfl hdiffers

/-- One case is written and announced, as new or as changed. -/
theorem announcesChanges_of_one {c : Context} {s t : Store} {z : CaseRecord} {action : Action}
    (hothers : ∀ id, id ≠ z.id → t.case? id = s.case? id)
    (haction : action = if (s.case? z.id).isSome then .update else .create) :
    c.AnnouncesChanges s t [c.notice z action] := by
  intro id hdiffers
  by_cases hid : id = z.id
  · subst hid
    exact ⟨c.notice z action, notice_once (l := [z]) (by simp) List.mem_cons_self, haction⟩
  · exact absurd (hothers id hid) hdiffers

section OfPlan

variable {c : Context} {s s' : Store} {z : CaseRecord} {tr : StatusTransition} {isFinal : Bool}
  {plan : TransitionPlan} (hread : tr.ReadFrom s z) (hfound : s.case? z.id = some z)
  (hplan : (if isFinal then tr.closing else .ok tr.opening) = .ok plan)
  (hmain : z.mainCase ≠ some z.id)

include hread hfound hplan hmain

theorem nodup_planned : ((plan.case :: plan.subCases).map (·.id)).Nodup := by
  have hdates := plan_dates hplan
  have hcase : plan.case.id = z.id := by rw [(plan_follows hplan).id, hread.case]
  rw [List.map_cons, List.nodup_cons, hcase]
  refine ⟨fun hmem => ?_, (hdates.below hread).1⟩
  obtain ⟨y, hy, hid⟩ := List.mem_map.1 hmem
  exact hdates.ne hread hfound hmain hy hid

/-- A case that differs is the one of the plan or one of its sub-cases, and was there before. -/
theorem exists_planned_of_differs {r : StatusRecord}
    (hcreate : s.createStatus plan.status = .ok (r, s')) {id : String}
    (hdiffers : (plan.written s').case? id ≠ s.case? id) :
    ∃ y ∈ plan.case :: plan.subCases, y.id = id ∧ (s.case? id).isSome = true := by
  have hcase : plan.case.id = z.id := by rw [(plan_follows hplan).id, hread.case]
  rw [case?_written hread hfound hplan hcreate hmain] at hdiffers
  split at hdiffers
  · next hid =>
    refine ⟨plan.case, List.mem_cons_self, hcase.trans hid.symm, ?_⟩
    rw [hid, hfound]
    rfl
  · cases hy : plan.subCases.find? (·.id = id) with
    | none =>
        rw [hy, Option.none_or] at hdiffers
        exact absurd rfl hdiffers
    | some y =>
        have hmem := List.mem_of_find?_eq_some hy
        have hid : y.id = id := by simpa using List.find?_some hy
        obtain ⟨sub, -, -, -, -, hsub⟩ := ((plan_dates hplan).below hread).2 y hmem
        refine ⟨y, List.mem_cons_of_mem _ hmem, hid, ?_⟩
        rw [← hid, hsub]
        rfl

/-- The status is announced, and with it every case of the plan. -/
theorem announcesChanges_of_plan {r : StatusRecord}
    (hcreate : s.createStatus plan.status = .ok (r, s')) {path : String} {action : Action} :
    c.AnnouncesChanges s (plan.written s')
      (.ofCase c.settings.publicBaseUrl c.now plan.case (some ⟨"status", path⟩) action ::
        (plan.case :: plan.subCases).map (c.notice · .update)) := by
  intro id hdiffers
  obtain ⟨y, hy, rfl, hthere⟩ :=
    exists_planned_of_differs hread hfound hplan hmain hcreate hdiffers
  refine ⟨c.notice y .update, ?_, (if_pos hthere).symm⟩
  rw [List.filter_cons_of_neg, notice_once (nodup_planned hread hfound hplan hmain) hy]
  rw [ofCaseItself_sub (show "status" ≠ "zaak" by decide)]
  exact Bool.false_ne_true

end OfPlan

theorem CaseCommand.Writes.announces {c : Context} {i : Installation} {command : CaseCommand}
    {t : Store} {news : List Notification} (h : command.Writes c i t news)
    (hi : i.store.Chronicled) : c.AnnouncesChanges i.store t news := by
  cases h with
  | create z d cases _ _ _ hadd =>
      refine announcesChanges_of_one (fun id hne => ?_) ?_
      · have hnew : ({ i.store with cases := cases } : Store).case? id =
            if z.id = id then some z else i.store.case? id := Table.get?_add? hadd id
        rw [hnew, if_neg hne.symm]
      · have hfree : i.store.case? z.id = none := Table.get?_of_add? hadd
        rw [hfree]
        rfl
  | @update applications id u z hfound _ _ =>
      have hid : id = (u.apply z).id := (Table.key_of_get? hfound).symm
      subst hid
      refine announcesChanges_of_one (fun other hne => ?_) ?_
      · rw [Store.case?_updateCase, if_neg hne]
      · rw [hfound]
        rfl
  | recordStatus z required reference d t isFinal plan r s hfound _ _ _ ht hplan hcreate =>
      have hid : z.id = _ := Table.key_of_get? hfound
      subst hid
      have hmain : z.mainCase ≠ some z.id := hi.apex z (Table.mem_of_get? hfound)
      exact announcesChanges_of_plan (transition_readFrom ht) hfound hplan hmain hcreate
  | setResult z result hfound _ hof => exact announcesChanges_of_cases rfl _
  | attach z _ _ => exact announcesChanges_of_cases rfl _

/-- In every installation that can be found running, a command on cases that ends well
was allowed to its caller before it wrote anything, changes only the rows that it is for,
and publishes one announcement for every case that it changes. -/
theorem case_write_has_authority {i j : Installation} (hreach : Reachable i)
    {command : CaseCommand} {c : Context} (h : command.run c i = (.ok (), j)) :
    command.Authorized c i j.store ∧ command.Changes i.store j.store ∧
      ∃ news, j.outbox = i.outbox ++ news ∧ c.AnnouncesChanges i.store j.store news := by
  obtain ⟨news, hwrites, houtbox⟩ := CaseCommand.writes_of hreach.coherent.agrees h
  exact ⟨hwrites.authorized, hwrites.changes hreach.chronicled, news, houtbox,
    hwrites.announces hreach.chronicled⟩

/-- A type of case whose results are kept for ten years from the end of the case, or for
five from the end of its main case. -/
def dossier : TypeDefinition where
  reference := ⟨"dossier"⟩
  component := .zrc
  catalog := none
  relations := {
    statusTypes := [⟨⟨"opened"⟩, 1, false⟩, ⟨⟨"done"⟩, 2, true⟩]
    resultTypes := [
      ⟨⟨"kept"⟩, some "blijvend_bewaren", some { years := 10 }, { method := .afgehandeld }⟩,
      ⟨⟨"inherited"⟩, some "vernietigen", some { years := 5 }, { method := .hoofdzaak }⟩] }

/-- An archive from its start, with its types. -/
def archiveRoom : Installation :=
  (AdministrationCommand.run (.registerTypes [dossier]) Context.alone (.start {} {})).2

/-- A dossier below another one, with results, and closed. -/
def closedDossier : List CaseCommand := [
  .create [clerk] "dossier-1" ⟨none, "dossier", .openbaar, none, {}⟩,
  .create [clerk] "dossier-2" ⟨none, "dossier", .openbaar, some "dossier-1", {}⟩,
  .setResult [clerk] "dossier-1" "kept",
  .setResult [clerk] "dossier-2" "inherited",
  .recordStatus [clerk] "dossier-2" "done" Instant.epoch]

def dossierRoom : Installation := CaseCommand.runAll closedDossier Context.alone archiveRoom

theorem reachable_dossierRoom : Reachable dossierRoom :=
  ((Reachable.start {}).step (.administration _ _ _)).reaches (reaches_runAll _ _ _)

/-- The dossier above is closed too. -/
def closeDossier : CaseCommand := .recordStatus [clerk] "dossier-1" "done" Instant.epoch

def closedRoom : Installation := (closeDossier.run Context.alone dossierRoom).2

/-- Closing the dossier above dates the one below, which is announced for that. -/
theorem closing_dossier_announces_both :
    (dossierRoom.store.case? "dossier-2").any (·.archiveActionDate.isNone) = true ∧
      (closedRoom.store.case? "dossier-2").any (·.archiveActionDate.isSome) = true ∧
      closeDossier.Authorized Context.alone dossierRoom closedRoom.store ∧
      closeDossier.Changes dossierRoom.store closedRoom.store ∧
      ∃ news, closedRoom.outbox = dossierRoom.outbox ++ news ∧
        Context.alone.AnnouncesChanges dossierRoom.store closedRoom.store news := by
  have hok : (closeDossier.run Context.alone dossierRoom).1 = .ok () := by decide +kernel
  have hrun : closeDossier.run Context.alone dossierRoom = (.ok (), closedRoom) := Prod.ext hok rfl
  exact ⟨by decide +kernel, by decide +kernel, case_write_has_authority reachable_dossierRoom hrun⟩

end CaseAccess
