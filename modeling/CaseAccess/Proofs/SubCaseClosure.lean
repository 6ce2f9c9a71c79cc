import CaseAccess.Proofs.CaseHistory
import Mathlib.Logic.Function.Basic

/-!
# A main case closes over its sub-cases

As long as no case is created below one that is closed, the sub-cases of a closed case
are closed too, and whatever is closed has a result. Nobody can reopen a sub-case while
its main case is closed, and nobody can close a main case over a sub-case that is open
or lacks a result.

Two rules of the guard hold this up from two sides: a case is closed only over closed
sub-cases, and it is reopened only below an open case. They are about two records, and
every command writes one of them, so what has to be followed through the commands is
how the cases of a store stand to each other. `Standing` is what matters of a case for
that, and `StandingStep` lists all that a command can do to it: nothing, a new open
case, or one case whose being closed is decided anew, under the conditions of the
guard. Everything else is read off these.
-/

namespace CaseAccess

open Operation
open Installation (LooksUp KeepsCases)

/-! ## How cases stand -/

/-- Whether a case is closed, and below which other it is. -/
structure Standing where
  closed : Bool
  mainCase : Option String

def CaseRecord.standing (z : CaseRecord) : Standing := ⟨z.isClosed, z.mainCase⟩

theorem CaseRecord.SameStanding.standing_eq {z z' : CaseRecord} (h : z.SameStanding z') :
    z'.standing = z.standing := by
  rw [standing, standing, isClosed, isClosed, h.endDate, h.mainCase]

namespace Store

variable {s t : Store} {id : String}

def standing? (s : Store) (id : String) : Option Standing :=
  (s.case? id).map (·.standing)

def HasResult (s : Store) (id : String) : Prop := (s.result? id).isSome = true

theorem standing?_of_mem {z : CaseRecord} (h : z ∈ s.cases.rows) :
    s.standing? z.id = some z.standing := by
  have hfound : s.case? z.id = some z := Table.get?_eq_some.2 ⟨h, rfl⟩
  rw [standing?, hfound]
  rfl

theorem standing?_eq_some {p : Standing} :
    s.standing? id = some p ↔ ∃ z ∈ s.cases.rows, z.id = id ∧ z.standing = p := by
  rw [standing?, Option.map_eq_some_iff]
  refine exists_congr fun z => ?_
  rw [case?, Table.get?_eq_some, and_assoc]

theorem standing?_eq_none : s.standing? id = none ↔ s.case? id = none :=
  Option.map_eq_none_iff

theorem standing?_updateCase {z z' : CaseRecord} (h : s.case? z'.id = some z) :
    (s.updateCase z').standing? = Function.update s.standing? z'.id (some z'.standing) := by
  funext id
  have hget : (s.updateCase z').case? id = (s.case? id).map (Table.instead CaseRecord.id z') :=
    Table.get?_replace s.cases z' id
  rw [standing?, hget]
  by_cases hid : id = z'.id
  · subst hid
    have hz : z.id = z'.id := Table.key_of_get? h
    rw [Function.update_self, h, Option.map_some, Table.instead, if_pos hz]
    rfl
  · rw [Function.update_of_ne hid, standing?]
    cases hy : s.case? id with
    | none => rfl
    | some y =>
        have hne : y.id ≠ z'.id := by
          rw [Table.key_of_get? hy]
          exact hid
        rw [Option.map_some, Table.instead, if_neg hne]

/-- A case that is rewritten in its old standing. -/
theorem standing?_updateCase_same {z : CaseRecord} (h : s.standing? z.id = some z.standing) :
    (s.updateCase z).standing? = s.standing? := by
  obtain ⟨y, hy, -⟩ := Option.map_eq_some_iff.1 h
  rw [standing?_updateCase hy, ← h, Function.update_eq_self]

theorem standing?_foldl_updateCase {l : List CaseRecord}
    (h : ∀ z ∈ l, s.standing? z.id = some z.standing) :
    (l.foldl (fun s z => s.updateCase z) s).standing? = s.standing? := by
  induction l generalizing s with
  | nil => rfl
  | cons z rest ih =>
      have hz := standing?_updateCase_same (h z List.mem_cons_self)
      rw [List.foldl_cons, ih, hz]
      intro y hy
      rw [hz]
      exact h y (List.mem_cons_of_mem _ hy)

/-! ## What a command does to it -/

/-- One command, as far as the standing of cases goes. -/
inductive StandingStep (s t : Store) : Prop where
  | same (hstanding : t.standing? = s.standing?)
      (hresults : ∀ id, s.HasResult id → t.HasResult id)
  | created (id : String) (mainCase : Option String) (hfree : s.standing? id = none)
      (hmain : mainCase ≠ some id)
      (hstanding : t.standing? = Function.update s.standing? id (some ⟨false, mainCase⟩))
      (hresults : ∀ id, s.HasResult id → t.HasResult id)
  | recorded (id : String) (p : Standing) (isFinal : Bool) (hfound : s.standing? id = some p)
      (hclosing : isFinal = true → s.HasResult id ∧
        ∀ z ∈ s.subCases id, z.isClosed = true ∧ s.HasResult z.id)
      (hreopening : isFinal = false → p.closed = true → ∀ mainId q, p.mainCase = some mainId →
        s.standing? mainId = some q → q.closed = false)
      (hstanding : t.standing? =
        Function.update s.standing? id (some { p with closed := isFinal }))
      (hresults : ∀ id, s.HasResult id → t.HasResult id)

/-! ## The invariant -/

structure Sealed (s : Store) : Prop where
  result : ∀ id p, s.standing? id = some p → p.closed = true → s.HasResult id
  below : ∀ id p mainId q, s.standing? id = some p → p.mainCase = some mainId →
    s.standing? mainId = some q → q.closed = true → p.closed = true
  /-- No case is its own main case. -/
  apex : ∀ id p, s.standing? id = some p → p.mainCase ≠ some id

/-- Between the two stores no case was created below one that was closed. -/
def Orderly (s t : Store) : Prop :=
  ∀ z ∈ t.cases.rows, s.case? z.id = none → (z.mainCase >>= s.case?).any (·.isClosed) = false

instance (s t : Store) : Decidable (s.Orderly t) :=
  inferInstanceAs (Decidable (∀ z ∈ t.cases.rows, s.case? z.id = none →
    (z.mainCase >>= s.case?).any (·.isClosed) = false))

theorem main_open {z : CaseRecord} {mainId : String} {q : Standing}
    (h : (z.mainCase >>= s.case?).any (·.isClosed) = false) (hmain : z.mainCase = some mainId)
    (hq : s.standing? mainId = some q) : q.closed = false := by
  obtain ⟨main, hfound, rfl⟩ := Option.map_eq_some_iff.1 hq
  rw [hmain, Option.bind_eq_bind, Option.bind_some, hfound, Option.any_some] at h
  exact h

theorem Orderly.main_open (h : s.Orderly t) {mainId : String} {p q : Standing}
    (hfree : s.standing? id = none) (hp : t.standing? id = some p)
    (hmain : p.mainCase = some mainId) (hq : s.standing? mainId = some q) :
    q.closed = false := by
  obtain ⟨z, hz, rfl, rfl⟩ := standing?_eq_some.1 hp
  exact Store.main_open (h z hz (standing?_eq_none.1 hfree)) hmain hq

theorem Sealed.of_empty (h : s.cases.rows = []) : s.Sealed := by
  have hnone : ∀ id, s.standing? id = none := by
    intro id
    rw [standing?_eq_none, case?, Table.get?_eq_none, h]
    simp
  refine ⟨fun id p hp => ?_, fun id p _ _ hp => ?_, fun id p hp => ?_⟩
  all_goals rw [hnone] at hp; cases hp

/-- One case may come to stand anew: closed, if it has a result and all below it is
closed, or open, if it is below no closed case. -/
theorem Sealed.update (hs : s.Sealed) {new : Standing}
    (hstanding : t.standing? = Function.update s.standing? id (some new))
    (hresults : ∀ id, s.HasResult id → t.HasResult id)
    (hresult : new.closed = true → s.HasResult id)
    (hbelow : new.closed = true → ∀ z ∈ s.subCases id, z.isClosed = true)
    (habove : new.closed = false → ∀ mainId q, new.mainCase = some mainId →
      s.standing? mainId = some q → q.closed = false)
    (hmain : new.mainCase ≠ some id) : t.Sealed := by
  have hthis : t.standing? id = some new := by
    rw [hstanding, Function.update_self]
  have hother : ∀ other, other ≠ id → t.standing? other = s.standing? other := by
    intro other hne
    rw [hstanding, Function.update_of_ne hne]
  refine ⟨fun other p hp hclosed => ?_, fun other p mainId q hp hunder hq hclosed => ?_,
    fun other p hp => ?_⟩
  · by_cases hid : other = id
    · subst hid
      rw [hthis] at hp
      cases hp
      exact hresults other (hresult hclosed)
    · rw [hother other hid] at hp
      exact hresults other (hs.result other p hp hclosed)
  · by_cases hid : other = id
    · subst hid
      rw [hthis] at hp
      cases hp
      -- The case is not its own main case, so its main case stands as before.
      have hne : mainId ≠ other := fun h => hmain (h ▸ hunder)
      rw [hother mainId hne] at hq
      by_contra hopen
      have hfalse := habove (Bool.eq_false_iff.2 hopen) mainId q hunder hq
      rw [hfalse] at hclosed
      cases hclosed
    · rw [hother other hid] at hp
      by_cases hmainId : mainId = id
      · subst hmainId
        rw [hthis] at hq
        cases hq
        obtain ⟨z, hz, rfl, rfl⟩ := standing?_eq_some.1 hp
        exact hbelow hclosed z (mem_subCases.2 ⟨hz, hunder⟩)
      · rw [hother mainId hmainId] at hq
        exact hs.below other p mainId q hp hunder hq hclosed
  · by_cases hid : other = id
    · subst hid
      rw [hthis] at hp
      cases hp
      exact hmain
    · rw [hother other hid] at hp
      exact hs.apex other p hp

/-- What a command does keeps the invariant, unless it creates a case below a closed
one. -/
theorem Sealed.step (hs : s.Sealed) (h : StandingStep s t) (horderly : s.Orderly t) :
    t.Sealed := by
  cases h with
  | same hstanding hresults =>
      refine ⟨?_, ?_, ?_⟩
      · rw [hstanding]
        exact fun id p hp hclosed => hresults id (hs.result id p hp hclosed)
      · rw [hstanding]
        exact hs.below
      · rw [hstanding]
        exact hs.apex
  | created id mainCase hfree hmain hstanding hresults =>
      have hnew : t.standing? id = some ⟨false, mainCase⟩ := by
        rw [hstanding, Function.update_self]
      refine hs.update hstanding hresults (fun h => ?_) (fun h => ?_)
        (fun _ mainId q hbelow hq => ?_) hmain
      · cases h
      · cases h
      · exact horderly.main_open hfree hnew hbelow hq
  | recorded id p isFinal hfound hclosing hreopening hstanding hresults =>
      refine hs.update hstanding hresults (fun h => (hclosing h).1)
        (fun h z hz => ((hclosing h).2 z hz).1) (fun h mainId q hbelow hq => ?_)
        (hs.apex id p hfound)
      -- An open case has an open main case; a closed one is reopened only below one.
      cases hp : p.closed with
      | true => exact hreopening h hp mainId q hbelow hq
      | false =>
          by_contra hclosed
          have hwas := hs.below id p mainId q hfound hbelow hq (eq_true_of_ne_false hclosed)
          rw [hp] at hwas
          cases hwas

/-- Below a closed case, what is closed stays closed. -/
theorem StandingStep.stays_closed (h : StandingStep s t) {mainId : String} {p q : Standing}
    (hp : s.standing? id = some p) (hclosed : p.closed = true) (hbelow : p.mainCase = some mainId)
    (hq : s.standing? mainId = some q) (hmain : q.closed = true) :
    ∃ p', t.standing? id = some p' ∧ p'.closed = true := by
  cases h with
  | same hstanding _ =>
      rw [hstanding]
      exact ⟨p, hp, hclosed⟩
  | created new mainCase hfree _ hstanding _ =>
      have hne : id ≠ new := by
        rintro rfl
        rw [hfree] at hp
        cases hp
      rw [hstanding, Function.update_of_ne hne]
      exact ⟨p, hp, hclosed⟩
  | recorded this before isFinal hfound _ hreopening hstanding _ =>
      rw [hstanding]
      by_cases hid : id = this
      · subst hid
        rw [hp] at hfound
        cases hfound
        rw [Function.update_self]
        refine ⟨_, rfl, ?_⟩
        cases isFinal with
        | true => rfl
        | false =>
            have hopen := hreopening rfl hclosed mainId q hbelow hq
            rw [hopen] at hmain
            cases hmain
      · rw [Function.update_of_ne hid]
        exact ⟨p, hp, hclosed⟩

/-! ## Commands -/

variable {z : CaseRecord}

theorem standing?_congr (h : t.cases = s.cases) : t.standing? = s.standing? := by
  funext id
  rw [standing?, standing?, case?, case?, h]

theorem hasResult_congr (h : t.results = s.results) (id : String) (hid : s.HasResult id) :
    t.HasResult id := by
  rw [HasResult, result?, h]
  exact hid

theorem standingStep_same (hcases : t.cases = s.cases) (hresults : t.results = s.results) :
    StandingStep s t :=
  .same (standing?_congr hcases) (hasResult_congr hresults)

theorem standingStep_createCase {cases : Table CaseRecord.id}
    (hadd : s.cases.add? z = some cases) (hend : z.endDate = none)
    (hmain : z.mainCase ≠ some z.id) : StandingStep s { s with cases := cases } := by
  have hfree : s.case? z.id = none := Table.get?_of_add? hadd
  refine .created z.id z.mainCase (standing?_eq_none.2 hfree) hmain ?_ fun _ h => h
  funext id
  have hget : ({ s with cases := cases } : Store).case? id =
      if z.id = id then some z else s.case? id := Table.get?_add? hadd id
  rw [standing?, hget]
  by_cases hid : z.id = id
  · subst hid
    rw [if_pos rfl, Function.update_self, Option.map_some, CaseRecord.standing,
      CaseRecord.isClosed, hend]
    rfl
  · rw [if_neg hid, Function.update_of_ne (Ne.symm hid)]
    rfl

/-- A plan that closes a case was made over its result and closed sub-cases. -/
theorem closing_over {tr : StatusTransition} {plan : TransitionPlan} (hread : tr.ReadFrom s z)
    (h : tr.closing = .ok plan) :
    s.HasResult z.id ∧ ∀ y ∈ s.subCases z.id, y.isClosed = true ∧ s.HasResult y.id := by
  obtain ⟨hresult, hnone⟩ := closing_ok h
  rw [openSubCase?_eq_none] at hnone
  refine ⟨?_, fun y hy => ?_⟩
  · rw [hread.result, Option.isSome_map] at hresult
    exact hresult
  · obtain ⟨sub, hsub, rfl, hhas⟩ := hread.exists_subCase hy
    obtain ⟨hclosed, hresult⟩ := hnone sub hsub
    rw [hhas] at hresult
    exact ⟨hclosed, hresult⟩

theorem standing_of_follows {tr : StatusTransition} {isFinal : Bool} {plan : TransitionPlan}
    (h : plan.Follows tr isFinal) :
    plan.case.standing = { tr.case.standing with closed := isFinal } := by
  have hclosed : plan.case.isClosed = isFinal := by
    rw [CaseRecord.isClosed, h.endDate]
    cases isFinal with
    | true => rfl
    | false => rfl
  rw [CaseRecord.standing, hclosed, h.mainCase]
  rfl

/-- The sub-cases that a plan rewrites are other cases, and stand as they did. -/
theorem subCase_of_follows (hs : s.Sealed) {tr : StatusTransition} {isFinal : Bool}
    {plan : TransitionPlan} (hread : tr.ReadFrom s z) (h : plan.Follows tr isFinal)
    {y : CaseRecord} (hy : y ∈ plan.subCases) :
    y.id ≠ z.id ∧ s.standing? y.id = some y.standing := by
  obtain ⟨sub, hsub, hsame⟩ := h.subCases y hy
  obtain ⟨hrow, hbelow⟩ := mem_subCases.1 (hread.case_mem_subCases hsub)
  have hstand := standing?_of_mem hrow
  rw [hsame.id, hsame.standing_eq]
  refine ⟨fun hid => ?_, hstand⟩
  -- Otherwise the case would be its own main case.
  refine hs.apex sub.case.id sub.case.standing hstand ?_
  rw [hid]
  exact hbelow

/-- A plan that passed the guard decides one case anew, and rewrites its sub-cases in
their old standing. -/
theorem standingStep_plan (hs : s.Sealed) {tr : StatusTransition} {isFinal : Bool}
    {plan : TransitionPlan} {r : StatusRecord} {id : String} (hfound : s.case? id = some z)
    (hread : tr.ReadFrom s z)
    (hplan : (if isFinal then tr.closing else .ok tr.opening) = .ok plan)
    (hreopening : isFinal = false → z.isClosed = true → tr.mainCase.any (·.isClosed) = false)
    (hcreate : s.createStatus plan.status = .ok (r, t)) :
    StandingStep s (plan.subCases.foldl (fun s z => s.updateCase z) (t.updateCase plan.case)) := by
  have hfollows := plan_follows hplan
  have hz : z ∈ s.cases.rows := Table.mem_of_get? hfound
  have hid : plan.case.id = z.id := by rw [hfollows.id, hread.case]
  obtain ⟨rfl, -⟩ := createStatus_ok hcreate
  have hfirst : (({ s with statuses := s.statuses.add fun _ => s.keptStatus plan.status } :
      Store).updateCase plan.case).standing? =
        Function.update s.standing? z.id (some { z.standing with closed := isFinal }) := by
    rw [standing?_updateCase (z := z), hid, standing_of_follows hfollows, hread.case]
    · rfl
    · rw [hid]
      exact Table.get?_eq_some.2 ⟨hz, rfl⟩
  refine .recorded z.id z.standing isFinal (standing?_of_mem hz) (fun hfinal => ?_)
    (fun hopen hwas mainId q hbelow hq => ?_) ?_ ?_
  · rw [hfinal, if_pos rfl] at hplan
    exact closing_over hread hplan
  · have hopen := hreopening hopen hwas
    rw [hread.mainCase] at hopen
    exact main_open hopen hbelow hq
  · rw [standing?_foldl_updateCase, hfirst]
    intro y hy
    obtain ⟨hne, hstand⟩ := subCase_of_follows hs hread hfollows hy
    rw [hfirst, Function.update_of_ne hne, hstand]
  · obtain ⟨cases, hcases⟩ := foldl_updateCase_eq plan.subCases
      (({ s with statuses := s.statuses.add fun _ => s.keptStatus plan.status } :
        Store).updateCase plan.case)
    rw [hcases]
    exact fun _ h => h

end Store

/-- What a command does, from a store in which the invariant holds. -/
def Installation.Restands (i j : Installation) : Prop :=
  i.store.Sealed → i.store.StandingStep j.store

open Installation (Restands)

theorem Installation.LooksUp.restands {i j : Installation} (h : LooksUp i j) : Restands i j := by
  intro _
  rw [h.store]
  exact Store.standingStep_same rfl rfl

theorem Installation.KeepsCases.restands {i j : Installation} (h : KeepsCases i j) :
    Restands i j :=
  fun _ => Store.standingStep_same h.cases h.results

section Commands

variable (applications : List Application)

theorem createCase_restands (freshId : String) (input : NewCase) :
    Moves Restands (createCase applications freshId input) := by
  refine (createCase_quiet applications freshId input).moves Installation.LooksUp.restands ?_
  intro c i z j hop hi
  obtain ⟨cases, hadd, hj, -, hend, hmain⟩ := createCase_ok hop
  rw [hj]
  exact Store.standingStep_createCase hadd hend fun hself => (hmain z.id hself).1 rfl

theorem updateCase_restands (id : String) (u : CaseUpdate) :
    Moves Restands (updateCase applications id u) := by
  refine (updateCase_quiet applications id u).moves Installation.LooksUp.restands ?_
  intro c i z j hop hi
  obtain ⟨before, hfound, rfl, hj⟩ := updateCase_ok hop
  have hsame := apply_sameStanding u before
  have hstand : i.store.standing? (u.apply before).id = some (u.apply before).standing := by
    rw [hsame.id, hsame.standing_eq]
    exact Store.standing?_of_mem (Table.mem_of_get? hfound)
  rw [hj]
  exact .same (Store.standing?_updateCase_same hstand) fun _ h => h

theorem recordStatus_restands (id statusType : String) (setAt : Instant) :
    Moves Restands (recordStatus applications id statusType setAt) := by
  refine (recordStatus_quiet applications id statusType setAt).moves
    Installation.LooksUp.restands ?_
  intro c i r j hop hi
  obtain ⟨before, t, type, plan, s, i₁, i₂, hfound, hread, -, hstate, hplan, hcreate, hj⟩ :=
    recordStatus_ok hop
  rw [hj]
  refine Store.standingStep_plan hi hfound hread hplan (fun hfinal hclosed => ?_) hcreate
  rw [hfinal] at hstate
  refine checkState_ok hstate ?_
  rw [hread.case]
  exact hclosed

theorem setResult_restands (id resultType : String) :
    Moves Restands (setResult applications id resultType) := by
  refine (setResult_quiet applications id resultType).moves Installation.LooksUp.restands ?_
  intro c i result j hop hi
  obtain ⟨before, -, -, hj⟩ := setResult_ok hop
  rw [hj]
  exact .same (Store.standing?_congr rfl) fun _ h => Table.isSome_get?_put result h

end Commands

theorem step_restands {i j : Installation} (h : Step i j) : Restands i j := by
  cases h with
  | administration command c => exact (administration_keepsCases command c i).restands
  | onCases command c =>
      cases command with
      | create applications freshId input =>
          exact moves_forget (createCase_restands applications freshId input) c i
      | update applications id change =>
          exact moves_forget (updateCase_restands applications id change) c i
      | recordStatus applications id statusType setAt =>
          exact moves_forget (recordStatus_restands applications id statusType setAt) c i
      | setResult applications id resultType =>
          exact moves_forget (setResult_restands applications id resultType) c i
      | attach applications id attachment =>
          exact (authorizeAttachment_steady applications id attachment c i).toLooksUp.restands

/-! ## Orderly runs -/

/-- One command is run, and no case is created below a closed one. -/
def OrderlyStep (i j : Installation) : Prop := Step i j ∧ i.store.Orderly j.store

abbrev OrderlyReaches : Installation → Installation → Prop := Relation.ReflTransGen OrderlyStep

theorem orderlyReaches_sealed {i j : Installation} (hi : i.store.Sealed)
    (hrun : OrderlyReaches i j) : j.store.Sealed := by
  induction hrun with
  | refl => exact hi
  | tail _ hstep ih => exact ih.step (step_restands hstep.1 ih) hstep.2

/-- A final status is recorded only over closed sub-cases with results. -/
theorem recordStatus_final {applications : List Application} {id statusType : String}
    {setAt : Instant} {c : Context} {i j : Installation} {r : StatusRecord}
    (h : recordStatus applications id statusType setAt c i = (.ok r, j))
    (hfinal : r.isFinal = true) {z : CaseRecord} (hz : z ∈ i.store.subCases id) :
    z.isClosed = true ∧ i.store.HasResult z.id := by
  obtain ⟨before, t, type, plan, s, i₁, i₂, hfound, hread, -, -, hplan, hcreate, -⟩ :=
    recordStatus_ok h
  rw [Store.createStatus_given hcreate, (plan_follows hplan).status] at hfinal
  have htype : type.isFinal = true := hfinal
  rw [htype, if_pos rfl] at hplan
  rw [← Table.key_of_get? hfound] at hz
  exact (Store.closing_over hread hplan).2 z hz

/-- From a store without cases, after any commands that create no case below a closed
one: whatever is closed has a result, the sub-cases of a closed case are closed, and no
further command, whoever runs it, opens one of them again. A final status is recorded by
nobody while a sub-case is open or has no result. -/
theorem main_case_closes_over_sub_cases {i j : Installation} (hstart : i.store.cases.rows = [])
    (hrun : OrderlyReaches i j) :
    (∀ z ∈ j.store.cases.rows, z.isClosed = true → (j.store.result? z.id).isSome = true) ∧
    (∀ main ∈ j.store.cases.rows, main.isClosed = true → ∀ z ∈ j.store.subCases main.id,
      z.isClosed = true ∧ (j.store.result? z.id).isSome = true ∧
      ∀ k, Step j k → (k.store.case? z.id).any (·.isClosed) = true) ∧
    ∀ applications id statusType setAt c r k,
      recordStatus applications id statusType setAt c j = (.ok r, k) → r.isFinal = true →
      ∀ z ∈ j.store.subCases id, z.isClosed = true ∧ (j.store.result? z.id).isSome = true := by
  have hj := orderlyReaches_sealed (.of_empty hstart) hrun
  have hresult : ∀ z ∈ j.store.cases.rows, z.isClosed = true → j.store.HasResult z.id :=
    fun z hz hclosed => hj.result z.id z.standing (Store.standing?_of_mem hz) hclosed
  refine ⟨hresult, fun main hmain hclosed z hz => ?_,
    fun applications id statusType setAt c r k h hfinal z hz => recordStatus_final h hfinal hz⟩
  obtain ⟨hrow, hbelow⟩ := Store.mem_subCases.1 hz
  have hstand := Store.standing?_of_mem hrow
  have hmainStand := Store.standing?_of_mem hmain
  have hsub : z.isClosed = true := hj.below z.id _ main.id _ hstand hbelow hmainStand hclosed
  refine ⟨hsub, hresult z hrow hsub, fun k hk => ?_⟩
  obtain ⟨p, hp, hstays⟩ :=
    (step_restands hk hj).stays_closed hstand hsub hbelow hmainStand hclosed
  obtain ⟨z', hz', rfl⟩ := Option.map_eq_some_iff.1 hp
  rw [hz', Option.any_some]
  exact hstays

/-- Whether commands that are run one after another are orderly. -/
def CaseCommand.allOrderly : List CaseCommand → Context → Installation → Bool
  | [], _, _ => true
  | command :: rest, c, i =>
      decide (i.store.Orderly (command.run c i).2.store) && allOrderly rest c (command.run c i).2

theorem orderlyReaches_runAll {commands : List CaseCommand} {c : Context} {i : Installation}
    (h : CaseCommand.allOrderly commands c i = true) :
    OrderlyReaches i (CaseCommand.runAll commands c i) := by
  induction commands generalizing i with
  | nil => exact .refl
  | cons command rest ih =>
      rw [CaseCommand.allOrderly, Bool.and_eq_true, decide_eq_true_eq] at h
      exact .head ⟨.onCases command c i, h.1⟩ (ih h.2)

/-- A permit below another one, both granted, and closed from below. -/
def nestedPermits : List CaseCommand := [
  .create [clerk] "permit-1" ⟨none, "permit", .openbaar, none, {}⟩,
  .create [clerk] "permit-2" ⟨none, "permit", .openbaar, some "permit-1", {}⟩,
  .setResult [clerk] "permit-1" "granted",
  .setResult [clerk] "permit-2" "granted",
  .recordStatus [clerk] "permit-2" "done" Instant.epoch,
  .recordStatus [clerk] "permit-1" "done" Instant.epoch]

theorem nestedPermits_stay_closed :
    office.store.cases.rows = [] ∧
      (CaseCommand.runAll nestedPermits Context.alone office).store.cases.rows.map (·.isClosed) =
        [true, true] ∧
      ∀ k, Step (CaseCommand.runAll nestedPermits Context.alone office) k →
        (k.store.case? "permit-2").any (·.isClosed) = true := by
  have horderly : CaseCommand.allOrderly nestedPermits Context.alone office = true := by
    decide +kernel
  refine ⟨rfl, by decide +kernel, ?_⟩
  obtain ⟨-, hbelow, -⟩ :=
    main_case_closes_over_sub_cases (i := office) rfl (orderlyReaches_runAll horderly)
  have hclosed : (CaseCommand.runAll nestedPermits Context.alone office).store.cases.rows.any
      (fun main => main.id = "permit-1" && main.isClosed) = true := by decide +kernel
  have hsubs : ((CaseCommand.runAll nestedPermits Context.alone office).store.subCases
      "permit-1").map (·.id) = ["permit-2"] := by decide +kernel
  obtain ⟨main, hmain, hboth⟩ := List.any_eq_true.1 hclosed
  rw [Bool.and_eq_true, decide_eq_true_eq] at hboth
  have hmem : "permit-2" ∈ ((CaseCommand.runAll nestedPermits Context.alone office).store.subCases
      "permit-1").map (·.id) := by
    rw [hsubs]
    exact List.mem_cons_self
  obtain ⟨z, hz, hid⟩ := List.mem_map.1 hmem
  rw [← hboth.1] at hz
  rw [← hid]
  exact (hbelow main hmain hboth.2 z hz).2.2

end CaseAccess
