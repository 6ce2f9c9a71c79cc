import CaseAccess.Proofs.CaseLookup
import CaseAccess.Proofs.Rows

/-!
# What the operations on cases write

An operation on cases that ends with an error has only looked things up: until it
writes it does nothing else, it writes in one transaction, and announcing what was
written does not fail. That is `FailsQuietly`.

An operation that ends well has written one thing. The theorems at the end of this
file say what, as an equation between the store before and the store after, together
with what was read to get there. Whatever is to be shown of the operations follows from
these, without a further look at how they are put together.
-/

namespace CaseAccess

open Operation
open Installation (LooksUp Steady)

namespace Operation

variable {α β : Type}

/-- Ending with an error, the operation has only looked things up. -/
def FailsQuietly (m : Operation α) : Prop :=
  ∀ c i e j, m c i = (.error e, j) → LooksUp i j

/-- The operation ends well, wherever it is started. -/
def Succeeds (m : Operation α) : Prop :=
  ∀ c i, ∃ a j, m c i = (.ok a, j)

/-- Nothing but the store differs. -/
def ChangesStore (i j : Installation) : Prop :=
  j = { i with store := j.store }

instance : IsPreorder Installation ChangesStore where
  refl _ := rfl
  trans i j k h₁ h₂ := by
    rw [ChangesStore] at h₁ h₂ ⊢
    rw [h₂, h₁]

theorem Moves.failsQuietly {m : Operation α} (h : Moves LooksUp m) : FailsQuietly m := by
  intro c i e j hm
  have hij := h c i
  rw [hm] at hij
  exact hij

theorem FailsQuietly.after {m : Operation α} {f : α → Operation β} (hm : Moves LooksUp m)
    (hf : ∀ a, FailsQuietly (f a)) : FailsQuietly (m >>= f) := by
  intro c i e k h
  have hij := hm c i
  rcases of_bind_error h with h | ⟨a, j, hj, hk⟩
  · rw [h] at hij
    exact hij
  · rw [hj] at hij
    exact trans_of LooksUp hij (hf a c j e k hk)

theorem FailsQuietly.refusal {p : Prop} [Decidable p] {e : ApiError} {m : Operation α}
    (h : FailsQuietly m) : FailsQuietly (if p then (do fail e; m) else m) := by
  split
  · exact FailsQuietly.after (moves_fail _) fun _ => h
  · exact h

theorem FailsQuietly.before {m : Operation α} {f : α → Operation β} (hm : FailsQuietly m)
    (hf : ∀ a, Succeeds (f a)) : FailsQuietly (m >>= f) := by
  intro c i e k h
  rcases of_bind_error h with h | ⟨a, j, _, hk⟩
  · exact hm c i e k h
  · obtain ⟨b, k', hb⟩ := hf a c j
    rw [hb] at hk
    cases hk

/-- What such an operation does is known from what it does when it ends well. -/
theorem FailsQuietly.moves {R : Installation → Installation → Prop} {m : Operation α}
    (h : FailsQuietly m) (hlooks : ∀ {i j}, LooksUp i j → R i j)
    (hok : ∀ c i a j, m c i = (.ok a, j) → R i j) : Moves R m := by
  intro c i
  rcases hm : m c i with ⟨e | a, j⟩
  · exact hlooks (h c i e j hm)
  · exact hok c i a j hm

/-- A transaction that changes nothing but the store fails without a trace. -/
theorem failsQuietly_transaction {m : Operation α} (hm : Moves ChangesStore m) :
    FailsQuietly (transaction m) := by
  intro c i e j h
  have hij := hm c i
  rw [transaction] at h
  split at h
  · cases h
  · next e' t ht =>
      rw [ht] at hij
      have ht' : t = { i with store := t.store } := hij
      have hback : { t with store := i.store } = i := by rw [ht']
      rw [hback] at h
      cases h
      exact refl_of LooksUp i

theorem succeeds_pure (a : α) : Succeeds (pure a : Operation α) := fun _ i => ⟨a, i, rfl⟩

theorem succeeds_bind {m : Operation α} {f : α → Operation β} (hm : Succeeds m)
    (hf : ∀ a, Succeeds (f a)) : Succeeds (m >>= f) := by
  intro c i
  obtain ⟨a, j, hj⟩ := hm c i
  obtain ⟨b, k, hk⟩ := hf a c j
  exact ⟨b, k, by rw [bind_of_ok hj, hk]⟩

theorem succeeds_forM {f : α → Operation PUnit} (hf : ∀ a, Succeeds (f a)) (l : List α) :
    Succeeds (l.forM f) := by
  induction l with
  | nil => exact succeeds_pure _
  | cons a rest ih =>
      show Succeeds (f a >>= fun _ => rest.forM f)
      exact succeeds_bind (hf a) fun _ => ih

end Operation

theorem succeeds_announceCase (z : CaseRecord) (sub : Option Notification.SubResource)
    (action : Action) : Succeeds (announceCase z sub action) :=
  fun _ _ => ⟨(), _, rfl⟩

/-! ## Failures -/

theorem storeCase_quiet (z : CaseRecord) : FailsQuietly (storeCase z) := by
  refine failsQuietly_transaction (moves_bind (moves_reading _) fun found => ?_)
  exact moves_refusal (moves_changingOr fun _ _ _ => rfl)

theorem store_quiet (plan : TransitionPlan) : FailsQuietly plan.store := by
  refine failsQuietly_transaction ?_
  refine moves_bind (moves_changingWithOr fun _ _ _ _ => rfl) fun created => ?_
  refine moves_bind (moves_changing fun _ => rfl) fun _ => ?_
  exact moves_bind (moves_forM (fun _ => moves_changing fun _ => rfl) _) fun _ => moves_pure _

theorem createCase_quiet (applications : List Application) (freshId : String) (input : NewCase) :
    FailsQuietly (createCase applications freshId input) := by
  refine FailsQuietly.after moves_context fun c => ?_
  refine FailsQuietly.after (readReference_steady _ _).looksUp fun caseType => ?_
  refine FailsQuietly.after (authorize_steady applications _ _ _).looksUp fun _ => ?_
  refine FailsQuietly.after (resolveCaseType_steady _).looksUp fun _ => ?_
  refine FailsQuietly.after (checkMainCases_steady applications _ _ _).looksUp fun main => ?_
  refine FailsQuietly.before (storeCase_quiet _) fun _ => ?_
  exact succeeds_bind (succeeds_announceCase _ _ _) fun _ => succeeds_pure _

theorem updateCase_quiet (applications : List Application) (id : String) (u : CaseUpdate) :
    FailsQuietly (updateCase applications id u) := by
  refine FailsQuietly.after (openCase_steady applications id _).looksUp fun z => ?_
  refine FailsQuietly.after (checkLevel_steady applications u z).looksUp fun _ => ?_
  refine FailsQuietly.before (fun c i e j h => by cases h) fun _ => ?_
  exact succeeds_bind (succeeds_announceCase _ _ _) fun _ => succeeds_pure _

theorem recordStatus_quiet (applications : List Application) (id statusType : String)
    (setAt : Instant) : FailsQuietly (recordStatus applications id statusType setAt) := by
  refine FailsQuietly.after moves_context fun c => ?_
  refine FailsQuietly.after (loadCase_steady applications id _).looksUp fun z => ?_
  refine FailsQuietly.after (authorizeAny_steady applications z _).looksUp fun required => ?_
  refine FailsQuietly.after (readReference_steady _ _).looksUp fun statusType => ?_
  refine FailsQuietly.after (resolveCaseType_steady _).looksUp fun caseType => ?_
  have hread := readTransition_steady z required caseType statusType setAt
  refine FailsQuietly.after hread.looksUp fun t => ?_
  have hdecide := decideStatus_steady (holds_steady applications z) t c.settings.guard
  refine FailsQuietly.after hdecide.looksUp fun plan => ?_
  split
  · exact (moves_fail _).failsQuietly
  · refine FailsQuietly.before (store_quiet _) fun created => ?_
    refine succeeds_bind (succeeds_announceCase _ _ _) fun _ => ?_
    refine succeeds_bind (succeeds_announceCase _ _ _) fun _ => ?_
    refine succeeds_bind (succeeds_forM (fun _ => succeeds_announceCase _ _ _) _) fun _ => ?_
    exact succeeds_pure _

theorem setResult_quiet (applications : List Application) (id resultType : String) :
    FailsQuietly (setResult applications id resultType) := by
  refine FailsQuietly.after (openCase_steady applications id _).looksUp fun z => ?_
  refine FailsQuietly.after (readReference_steady _ _).looksUp fun resultType => ?_
  refine FailsQuietly.after (resolveCaseType_steady _).looksUp fun caseType => ?_
  refine FailsQuietly.refusal (FailsQuietly.before (fun c i e j h => by cases h) fun _ => ?_)
  exact succeeds_bind (succeeds_announceCase _ _ _) fun _ => succeeds_pure _

/-- Deciding about an attachment only looks things up, whatever it decides. -/
theorem authorizeAttachment_steady (applications : List Application) (id : String)
    (a : Attachment) : MovesIn Steady (authorizeAttachment applications id a) := by
  refine movesIn_bind (openCase_steady applications id _) fun z => ?_
  refine movesIn_bind (readReference_steady _ _) fun typeRef => ?_
  refine movesIn_bind (resolveCaseType_steady _) fun caseType => ?_
  refine movesIn_bind (relatedTypes_steady _ _) fun related => ?_
  split
  · exact steady_fail _
  · exact steady_pure _

/-! ## Successes -/

section Successes

variable {applications : List Application} {c : Context} {i j : Installation} {z : CaseRecord}

/-- Announcing leaves the store alone. -/
def KeepsStore (i j : Installation) : Prop := j.store = i.store

instance : IsPreorder Installation KeepsStore where
  refl _ := rfl
  trans _ _ _ h₁ h₂ := h₂.trans h₁

theorem announceCase_keepsStore (z : CaseRecord) (sub : Option Notification.SubResource)
    (action : Action) : Moves KeepsStore (announceCase z sub action) :=
  fun _ _ => rfl

theorem storeCase_ok (h : storeCase z c i = (.ok (), j)) :
    ∃ cases, i.store.cases.add? z = some cases ∧
      j.store = { i.store with cases := cases } := by
  obtain ⟨found, i₁, hread, h⟩ := of_bind_ok (of_transaction_ok h)
  obtain ⟨-, rfl⟩ := of_reading_ok hread
  obtain ⟨-, h⟩ := of_refusal_ok h
  obtain ⟨s, hs, rfl⟩ := of_changingOr_ok h
  exact Store.createCase_ok hs

/-- A plan is written as a new status, the case, and its sub-cases one after another. -/
theorem TransitionPlan.store_ok {plan : TransitionPlan} {r : StatusRecord}
    (h : plan.store c i = (.ok r, j)) :
    ∃ s, i.store.createStatus plan.status = .ok (r, s) ∧
      j.store = plan.subCases.foldl (fun s z => s.updateCase z) (s.updateCase plan.case) := by
  obtain ⟨created, i₁, hcreate, h⟩ := of_bind_ok (of_transaction_ok h)
  obtain ⟨_, i₂, hcase, h⟩ := of_bind_ok h
  obtain ⟨_, i₃, hsubs, h⟩ := of_bind_ok h
  cases h
  cases hcase
  rw [forM_changing fun z s => s.updateCase z] at hsubs
  cases hsubs
  obtain ⟨s, hs, rfl⟩ := of_changingWithOr_ok hcreate
  exact ⟨s, hs, rfl⟩

/-- What was checked of the main case before a case was stored. -/
theorem createCase_checked {freshId : String} {input : NewCase}
    (h : createCase applications freshId input c i = (.ok z, j)) :
    ∃ (i₁ i₂ i₃ : Installation) (main : Option CaseRecord), Steady c i i₁ ∧
      input.mainCase.mapM (checkMainCase applications (c.settings.authz.createScope .zrc) z.id)
        c i₁ = (.ok main, i₂) ∧
      z.mainCase = main.map (·.id) ∧ z.lifecycle = .new ∧ z.endDate = none ∧
      i₂.store = i.store ∧ storeCase z c i₂ = (.ok (), i₃) ∧ j.store = i₃.store := by
  obtain ⟨ctx, i₀, hctx, h⟩ := of_bind_ok h
  cases hctx
  obtain ⟨caseType, i₁, h₁, -, h⟩ := MovesIn.of_bind_ok (readReference_steady _ _) h
  obtain ⟨_, i₂, h₂, -, h⟩ := MovesIn.of_bind_ok (authorize_steady applications _ _ _) h
  obtain ⟨_, i₃, h₃, -, h⟩ := MovesIn.of_bind_ok (resolveCaseType_steady _) h
  obtain ⟨main, i₄, h₄, hmain, h⟩ :=
    MovesIn.of_bind_ok (checkMainCases_steady applications _ _ _) h
  obtain ⟨_, i₅, hstore, h⟩ := of_bind_ok h
  obtain ⟨_, i₆, h₆, -, h⟩ := Moves.of_bind_ok (announceCase_keepsStore _ _ _) h
  cases h
  have h₃ : Steady c i i₃ := trans_of (Steady c) h₁ (trans_of (Steady c) h₂ h₃)
  have h₄ : i₄.store = i.store := by rw [h₄.store, h₃.store]
  exact ⟨i₃, i₄, i₅, main, h₃, hmain, rfl, rfl, rfl, h₄, hstore, h₆⟩

/-- A case is created as a new row, new and without an end date, below a case that is
there and has no main case itself. -/
theorem createCase_ok {freshId : String} {input : NewCase}
    (h : createCase applications freshId input c i = (.ok z, j)) :
    ∃ cases, i.store.cases.add? z = some cases ∧ j.store = { i.store with cases := cases } ∧
      z.lifecycle = .new ∧ z.endDate = none ∧
        ∀ mainId ∈ z.mainCase, mainId ≠ z.id ∧
          ∃ main, i.store.case? mainId = some main ∧ main.mainCase = none := by
  obtain ⟨i₁, i₂, i₃, main, h₁, hmain, hbelow, hnew, hend, h₂, hstore, hj⟩ := createCase_checked h
  obtain ⟨cases, hadd, hi₃⟩ := storeCase_ok hstore
  rw [h₂] at hadd hi₃
  refine ⟨cases, hadd, hj.trans hi₃, hnew, hend, ?_⟩
  intro mainId hmem
  rw [hbelow] at hmem
  rcases of_optionMapM_ok hmain with ⟨-, rfl, -⟩ | ⟨asked, main, -, rfl, hcheck⟩
  · cases hmem
  · obtain ⟨hfound, hnone, hne⟩ := checkMainCase_ok hcheck
    have hid : main.id = asked := Table.key_of_get? hfound
    cases hmem
    rw [h₁.store, ← hid] at hfound
    exact ⟨hne, main, hfound, hnone⟩

theorem updateCase_ok {id : String} {u : CaseUpdate}
    (h : updateCase applications id u c i = (.ok z, j)) :
    ∃ before, i.store.case? id = some before ∧ z = u.apply before ∧
      j.store = i.store.updateCase z := by
  obtain ⟨before, i₁, h₁, hopen, h⟩ := MovesIn.of_bind_ok (openCase_steady applications id _) h
  obtain ⟨_, i₂, h₂, -, h⟩ := MovesIn.of_bind_ok (checkLevel_steady applications u before) h
  obtain ⟨_, i₃, hchange, h⟩ := of_bind_ok h
  obtain ⟨_, i₄, hannounce, h⟩ := of_bind_ok h
  cases h
  cases hchange
  cases hannounce
  refine ⟨before, openCase_ok hopen, rfl, ?_⟩
  show i₂.store.updateCase _ = _
  rw [h₂.store, h₁.store]

/-- A status is recorded by a plan that was decided on a transition read from the
store, after this had passed the guard. -/
theorem recordStatus_ok {id statusType : String} {setAt : Instant} {r : StatusRecord}
    (h : recordStatus applications id statusType setAt c i = (.ok r, j)) :
    ∃ (before : CaseRecord) (t : StatusTransition) (type : StatusType) (plan : TransitionPlan)
      (s : Store) (i₁ i₂ : Installation), i.store.case? id = some before ∧
      t.ReadFrom i.store before ∧ Steady c i i₁ ∧
      t.checkState (before.holds applications) c.settings.guard type.isFinal c i₁ =
        (.ok none, i₂) ∧
      (if type.isFinal then t.closing else .ok t.opening) = .ok plan ∧
      i.store.createStatus plan.status = .ok (r, s) ∧
      j.store = plan.subCases.foldl (fun s z => s.updateCase z) (s.updateCase plan.case) := by
  obtain ⟨ctx, i₀, hctx, h⟩ := of_bind_ok h
  cases hctx
  obtain ⟨before, i₁, h₁, hload, h⟩ := MovesIn.of_bind_ok (loadCase_steady applications id _) h
  obtain ⟨required, i₂, h₂, -, h⟩ :=
    MovesIn.of_bind_ok (authorizeAny_steady applications before _) h
  obtain ⟨statusRef, i₃, h₃, -, h⟩ := MovesIn.of_bind_ok (readReference_steady _ _) h
  obtain ⟨caseType, i₄, h₄, -, h⟩ := MovesIn.of_bind_ok (resolveCaseType_steady _) h
  obtain ⟨t, i₅, h₅, hread, h⟩ :=
    MovesIn.of_bind_ok (readTransition_steady before required caseType statusRef setAt) h
  obtain ⟨decision, i₆, h₆, hdecide, h⟩ :=
    MovesIn.of_bind_ok (decideStatus_steady (holds_steady applications before) t _) h
  cases decision with
  | error denial => cases h
  | ok plan =>
      obtain ⟨created, i₇, hstore, h⟩ := of_bind_ok h
      obtain ⟨_, i₈, h₈, -, h⟩ := Moves.of_bind_ok (announceCase_keepsStore _ _ _) h
      obtain ⟨_, i₉, h₉, -, h⟩ := Moves.of_bind_ok (announceCase_keepsStore _ _ _) h
      obtain ⟨_, i₁₀, h₁₀, -, h⟩ :=
        Moves.of_bind_ok (moves_forM (fun z => announceCase_keepsStore z none .update) _) h
      cases h
      have h₄ : Steady c i i₄ :=
        trans_of (Steady c) h₁ (trans_of (Steady c) h₂ (trans_of (Steady c) h₃ h₄))
      have h₅ : Steady c i i₅ := trans_of (Steady c) h₄ h₅
      obtain ⟨hfrom, -⟩ := readTransition_ok hread
      obtain ⟨type, i', -, hstate, hplan⟩ := decideStatus_ok hdecide
      obtain ⟨s, hcreate, hi₇⟩ := TransitionPlan.store_ok hstore
      rw [h₄.store] at hfrom
      rw [h₆.store, h₅.store] at hcreate
      refine ⟨before, t, type, plan, s, i₅, i', loadCase_ok hload, hfrom, h₅, hstate, hplan,
        hcreate, ?_⟩
      rw [← hi₇]
      exact Eq.trans h₁₀ (Eq.trans h₉ h₈)

theorem setResult_ok {id resultType : String} {result : ResultRecord}
    (h : setResult applications id resultType c i = (.ok result, j)) :
    ∃ before, i.store.case? id = some before ∧ result.caseId = before.id ∧
      j.store = i.store.saveResult result := by
  obtain ⟨before, i₁, h₁, hopen, h⟩ := MovesIn.of_bind_ok (openCase_steady applications id _) h
  obtain ⟨resultRef, i₂, h₂, -, h⟩ := MovesIn.of_bind_ok (readReference_steady _ _) h
  obtain ⟨caseType, i₃, h₃, -, h⟩ := MovesIn.of_bind_ok (resolveCaseType_steady _) h
  obtain ⟨-, h⟩ := of_refusal_ok h
  obtain ⟨_, i₄, hchange, h⟩ := of_bind_ok h
  obtain ⟨_, i₅, hannounce, h⟩ := of_bind_ok h
  cases h
  cases hchange
  cases hannounce
  refine ⟨before, openCase_ok hopen, rfl, ?_⟩
  show i₃.store.saveResult _ = _
  rw [h₃.store, h₂.store, h₁.store]

end Successes

end CaseAccess
