import CaseAccess.Proofs.Atomicity
import CaseAccess.Proofs.CacheCoherence
import CaseAccess.Proofs.Verdict

/-!
# A closed case takes no writes

A write gets through on a closed case only by a scope that lifts the block: the one
that forces every write, the one that reopens, or one that is configured in place of
the first. Without any of them every operation on the case ends with an error.

The guard does not ask for these scopes at the moment a request comes in. By then the
caller was authorized, types were fetched and grants were remembered, and recording a
status tries several sets of scopes before. What carries the denial over all that is
`Steady`: a decision depends on the store and on what types resolve to, and looking
things up changes neither. So `Barred` holds at every moment of an operation, and the
guard is where each operation ends.
-/

namespace CaseAccess

open Operation
open Installation (Steady)

/-- Every scope that lets something through on a closed case. -/
def GuardConfig.liftingScopes (config : GuardConfig) : List String :=
  config.forceWriteScope :: config.reopenScope :: config.closedCaseBypass.toList.map (·.2)

theorem mem_liftingScopes_of_bypass {config : GuardConfig} {required : ScopeSet} {scope : String}
    (h : scope ∈ config.bypassScopes required) : scope ∈ config.liftingScopes := by
  rw [GuardConfig.bypassScopes, SortedSet.mem_toList, SortedSet.mem_ofList] at h
  split at h
  · rw [List.mem_singleton] at h
    subst h
    exact List.mem_cons_self
  · obtain ⟨key, -, hkey⟩ := List.mem_filterMap.1 h
    obtain ⟨entry, hentry, rfl⟩ := Option.map_eq_some_iff.1 hkey
    refine List.mem_cons_of_mem _ (List.mem_cons_of_mem _ ?_)
    exact List.mem_map_of_mem (List.mem_of_find?_eq_some hentry)

/-- What a caller has on a case stays the same while things are looked up. -/
theorem holds_of_steady {z : CaseRecord} {applications : List Application} {scope : String}
    {c : Context} {i j : Installation} (hi : i.grantCache.Agrees i.store) (hij : Steady c i j) :
    (z.holds applications scope c j).1 = (z.holds applications scope c i).1 := by
  rw [CaseRecord.holds, allow_eq_verdict (hij.agrees hi), allow_eq_verdict hi,
    hij.resolution_eq, hij.store]

/-- A closed case on which the caller has none of the scopes that lift the block. -/
structure CaseRecord.Barred (z : CaseRecord) (applications : List Application) (c : Context)
    (i : Installation) : Prop where
  closed : z.isClosed = true
  denied : ∀ scope ∈ c.settings.guard.liftingScopes, (z.holds applications scope c i).1 = .ok false
  agrees : i.grantCache.Agrees i.store

namespace CaseRecord.Barred

variable {z : CaseRecord} {applications : List Application} {c : Context} {i j : Installation}

theorem of_steady (h : z.Barred applications c i) (hij : Steady c i j) :
    z.Barred applications c j := by
  refine ⟨h.closed, fun scope hscope => ?_, hij.agrees h.agrees⟩
  rw [holds_of_steady h.agrees hij]
  exact h.denied scope hscope

/-! ## The guard -/

theorem holds_eq (h : z.Barred applications c i) {scope : String}
    (hscope : scope ∈ c.settings.guard.liftingScopes) :
    ∃ j, Steady c i j ∧ z.holds applications scope c i = (.ok false, j) := by
  refine ⟨(z.holds applications scope c i).2, holds_steady applications z scope c i, ?_⟩
  exact Prod.ext (h.denied scope hscope) rfl

theorem holdsAny_eq (h : z.Barred applications c i) (scopes : List String)
    (hscopes : ∀ scope ∈ scopes, scope ∈ c.settings.guard.liftingScopes) :
    ∃ j, holdsAny (z.holds applications) scopes c i = (.ok false, j) := by
  induction scopes generalizing i with
  | nil => exact ⟨i, rfl⟩
  | cons scope rest ih =>
      obtain ⟨j, hij, hj⟩ := h.holds_eq (hscopes scope List.mem_cons_self)
      obtain ⟨k, hk⟩ := ih (h.of_steady hij) fun s hs => hscopes s (List.mem_cons_of_mem _ hs)
      refine ⟨k, ?_⟩
      rw [holdsAny, bind_of_ok hj]
      exact hk

theorem checkWrite_eq (h : z.Barred applications c i) (required : ScopeSet) :
    ∃ j, z.checkWrite (z.holds applications) c.settings.guard required c i =
      (.ok (some .caseClosed), j) := by
  obtain ⟨j, hj⟩ := h.holdsAny_eq (c.settings.guard.bypassScopes required) fun _ =>
    mem_liftingScopes_of_bypass
  refine ⟨j, ?_⟩
  rw [CaseRecord.checkWrite, h.closed, Bool.not_true, if_neg Bool.false_ne_true, bind_of_ok hj]
  rfl

theorem guardWrite_ne_ok (h : z.Barred applications c i) (required : ScopeSet) :
    z.guardWrite applications required c i ≠ (.ok (), j) := by
  intro hok
  obtain ⟨ctx, i₀, hctx, hok⟩ := of_bind_ok hok
  cases hctx
  obtain ⟨denial, i₁, hdenial, hok⟩ := of_bind_ok hok
  obtain ⟨j', hj'⟩ := h.checkWrite_eq required
  rw [hj'] at hdenial
  cases hdenial
  cases hok

/-- Neither a final status nor another one may be recorded: the one is a write, the
other would reopen the case. -/
theorem checkState_ne_ok {t : StatusTransition} {isFinal : Bool}
    (ht : t.case.Barred applications c i) :
    t.checkState (t.case.holds applications) c.settings.guard isFinal c i ≠ (.ok none, j) := by
  intro hok
  rw [StatusTransition.checkState, ht.closed, Bool.true_and] at hok
  cases isFinal with
  | true =>
      obtain ⟨j', hj'⟩ := ht.checkWrite_eq t.required
      rw [Bool.not_true, if_neg Bool.false_ne_true, hj'] at hok
      cases hok
  | false =>
      rw [Bool.not_false, if_pos rfl] at hok
      split at hok
      · cases hok
      · obtain ⟨held, i₁, hheld, hok⟩ := of_bind_ok hok
        have hmem : c.settings.guard.reopenScope ∈ c.settings.guard.liftingScopes :=
          List.mem_cons_of_mem _ List.mem_cons_self
        obtain ⟨j', -, hj'⟩ := ht.holds_eq hmem
        rw [hj'] at hheld
        cases hheld
        cases hok

/-! ## The operations -/

theorem openCase_ne_ok {id : String} {required : ScopeSet} {found : CaseRecord}
    (h : z.Barred applications c i) (hz : i.store.case? id = some z) :
    openCase applications id required c i ≠ (.ok found, j) := by
  intro hok
  obtain ⟨z', i₁, h₁, hload, hok⟩ := MovesIn.of_bind_ok (loadCase_steady applications id _) hok
  have hfound := loadCase_ok hload
  rw [hz, Option.some.injEq] at hfound
  subst hfound
  obtain ⟨_, i₂, h₂, -, hok⟩ := MovesIn.of_bind_ok (authorize_steady applications z _ _) hok
  obtain ⟨_, i₃, hguard, -⟩ := of_bind_ok hok
  exact ((h.of_steady h₁).of_steady h₂).guardWrite_ne_ok required hguard

theorem checkMainCase_ne_ok {required : ScopeSet} {id : String} {main : CaseRecord}
    (h : z.Barred applications c i) (hz : i.store.case? z.id = some z) :
    checkMainCase applications required id z.id c i ≠ (.ok main, j) := by
  intro hok
  obtain ⟨found, i₁, hread, hok⟩ := of_bind_ok hok
  obtain ⟨hfound, rfl⟩ := of_reading_ok hread
  rw [hz] at hfound
  subst hfound
  obtain ⟨-, hok⟩ := of_refusal_ok hok
  obtain ⟨_, i₂, hguard, -⟩ := of_bind_ok hok
  exact h.guardWrite_ne_ok required hguard

theorem createCase_ne_ok {freshId : String} {input : NewCase} {created : CaseRecord}
    (h : z.Barred applications c i) (hz : i.store.case? z.id = some z)
    (hmain : input.mainCase = some z.id) :
    createCase applications freshId input c i ≠ (.ok created, j) := by
  intro hok
  obtain ⟨i₁, i₂, i₃, main, h₁, hchecked, -⟩ := createCase_checked hok
  rw [hmain] at hchecked
  rcases of_optionMapM_ok hchecked with ⟨hnone, -⟩ | ⟨_, main, hsome, -, hcheck⟩
  · cases hnone
  · cases hsome
    refine (h.of_steady h₁).checkMainCase_ne_ok ?_ hcheck
    rw [h₁.store]
    exact hz

theorem recordStatus_ne_ok {id statusType : String} {setAt : Instant} {r : StatusRecord}
    (h : z.Barred applications c i) (hz : i.store.case? id = some z) :
    recordStatus applications id statusType setAt c i ≠ (.ok r, j) := by
  intro hok
  obtain ⟨before, t, type, plan, s, i₁, i₂, hfound, hread, h₁, hstate, -⟩ := recordStatus_ok hok
  rw [hz, Option.some.injEq] at hfound
  subst hfound
  have hbarred := h.of_steady h₁
  rw [← hread.case] at hbarred hstate
  exact hbarred.checkState_ne_ok hstate

end CaseRecord.Barred

/-- The commands of a caller that would write to a case: those on the case itself, and
creating another one below it. -/
inductive CaseCommand.WritesTo (applications : List Application) (id : String) :
    CaseCommand → Prop where
  | create (freshId : String) (input : NewCase) (h : input.mainCase = some id) :
      WritesTo applications id (.create applications freshId input)
  | update (change : CaseUpdate) : WritesTo applications id (.update applications id change)
  | recordStatus (statusType : String) (setAt : Instant) :
      WritesTo applications id (.recordStatus applications id statusType setAt)
  | setResult (resultType : String) :
      WritesTo applications id (.setResult applications id resultType)
  | attach (attachment : Attachment) : WritesTo applications id (.attach applications id attachment)

theorem CaseRecord.Barred.run_ne_ok {z : CaseRecord} {applications : List Application}
    {c : Context} {i j : Installation} {command : CaseCommand} (h : z.Barred applications c i)
    (hz : i.store.case? z.id = some z) (hwrites : command.WritesTo applications z.id) :
    command.run c i ≠ (.ok (), j) := by
  intro hok
  cases hwrites with
  | create freshId input hmain =>
      obtain ⟨created, _, hcreate, -⟩ := of_bind_ok hok
      exact h.createCase_ne_ok hz hmain hcreate
  | update change =>
      obtain ⟨_, _, hupdate, -⟩ := of_bind_ok hok
      obtain ⟨_, _, hopen, -⟩ := of_bind_ok hupdate
      exact h.openCase_ne_ok hz hopen
  | recordStatus statusType setAt =>
      obtain ⟨_, _, hrecord, -⟩ := of_bind_ok hok
      exact h.recordStatus_ne_ok hz hrecord
  | setResult resultType =>
      obtain ⟨_, _, hset, -⟩ := of_bind_ok hok
      obtain ⟨_, _, hopen, -⟩ := of_bind_ok hset
      exact h.openCase_ne_ok hz hopen
  | attach attachment =>
      obtain ⟨_, _, hopen, -⟩ := of_bind_ok hok
      exact h.openCase_ne_ok hz hopen

/-- Whoever has none of the scopes that lift the block cannot write to a closed case, in
any installation that can be found running and under any settings: the command ends with
an error, and what is stored stays as it is, of the case, of its statuses and result,
and of the cases below it. -/
theorem closed_case_takes_no_writes {i : Installation} (hreach : Reachable i) {z : CaseRecord}
    (hz : z ∈ i.store.cases.rows) (hclosed : z.isClosed = true) {c : Context}
    {applications : List Application}
    (hdenied : ∀ scope ∈ c.settings.guard.liftingScopes,
      (z.holds applications scope c i).1 = .ok false)
    {command : CaseCommand} (hwrites : command.WritesTo applications z.id) :
    ∃ e j, command.run c i = (.error e, j) ∧ j.store = i.store := by
  have hbarred : z.Barred applications c i := ⟨hclosed, hdenied, hreach.coherent.agrees⟩
  have hfound : i.store.case? z.id = some z := Table.get?_eq_some.2 ⟨hz, rfl⟩
  rcases hrun : command.run c i with ⟨e | _, j⟩
  · exact ⟨e, j, rfl, (caseCommand_quiet command c i e j hrun).store⟩
  · exact absurd hrun (hbarred.run_ne_ok hfound hwrites)

/-- An application that may change permits, and has no scope that lifts the block. -/
def desk : Application := ⟨"desk", "Desk", {}, false⟩

/-- The office from its start, with its types and the desk. -/
def staffedOffice : Installation :=
  (AdministrationCommand.run (.create "desk" {
    label := "Desk"
    clientIds := ["desk-client"]
    grants := [{
      component := "zrc"
      scopes := ["zaken.bijwerken"]
      types := { zaaktype := some "permit" }
      ceiling := some "openbaar" }] }) Context.alone
    (AdministrationCommand.run (.registerTypes [permit]) Context.alone (.start {} {})).2).2

theorem reachable_staffedOffice : Reachable staffedOffice :=
  ((Reachable.start {}).step (.administration _ _ _)).step (.administration _ _ _)

/-- Until the permit is closed the desk may change it, and then not any more. -/
theorem desk_cannot_change_closed_permit :
    (CaseCommand.run (.update [desk] "permit-1" {}) Context.alone
        (CaseCommand.runAll (grantedPermit.take 3) Context.alone staffedOffice)).1 = .ok () ∧
      ∃ e j, CaseCommand.run (.update [desk] "permit-1" {}) Context.alone
        (CaseCommand.runAll grantedPermit Context.alone staffedOffice) = (.error e, j) ∧
        j.store = (CaseCommand.runAll grantedPermit Context.alone staffedOffice).store := by
  refine ⟨by decide +kernel, ?_⟩
  generalize hrun : CaseCommand.runAll grantedPermit Context.alone staffedOffice = i
  have hreach : Reachable i := hrun ▸ reachable_staffedOffice.reaches (reaches_runAll _ _ _)
  have hclosed : (i.store.case? "permit-1").any (·.isClosed) = true := by
    rw [← hrun]
    decide +kernel
  have hdenied : (i.store.case? "permit-1").all (fun z =>
      Context.alone.settings.guard.liftingScopes.all fun scope =>
        decide ((z.holds [desk] scope Context.alone i).1 = .ok false)) = true := by
    rw [← hrun]
    decide +kernel
  cases hfound : i.store.case? "permit-1" with
  | none =>
      rw [hfound] at hclosed
      cases hclosed
  | some z =>
      rw [hfound] at hclosed hdenied
      obtain ⟨hz, hid⟩ := Table.get?_eq_some.1 hfound
      have hwrites : CaseCommand.WritesTo [desk] z.id (.update [desk] "permit-1" {}) := by
        rw [hid]
        exact .update {}
      refine closed_case_takes_no_writes hreach hz hclosed (fun scope hscope => ?_) hwrites
      exact of_decide_eq_true (List.all_eq_true.1 hdenied scope hscope)

end CaseAccess
