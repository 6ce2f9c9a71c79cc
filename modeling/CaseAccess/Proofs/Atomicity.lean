import CaseAccess.Proofs.CaseHistory

/-!
# All or nothing

An operation that ends with an error leaves what is stored as it was and announces
nothing. An operation on cases that fails has only looked things up, as was seen when
its writes were listed. The administration writes in several steps, any of which can be
refused after others were made, so there it takes the transaction.

Its operations have one form. They read, then they change the store in a transaction,
and then they announce; only the first two can fail. In each part what is given and
what is written depends on the context and the store alone, and the grant cache at most
loses entries. That is carried up from the steps: `Reads`, `OnStore` and `Announces`
are the three parts, and `Atomic` is what they make together. An atomic operation is a
function that either refuses, or gives an answer with the new store and everything that
is to be announced.
-/

namespace CaseAccess

namespace Operation

variable {α β : Type} {m : Operation α} {f : α → Operation β}

/-! ## The parts of an operation -/

/-- Nothing is changed. -/
def Reads (m : Operation α) : Prop :=
  ∃ answer : Context → Store → Except ApiError α, ∀ c i, m c i = (answer c i.store, i)

/-- The store may be changed, also before an error, and nothing is announced. -/
def OnStore (m : Operation α) : Prop :=
  ∃ effect : Context → Store → Except ApiError α × Store, ∀ c i, ∃ g,
    m c i = ((effect c i.store).1, { i with store := (effect c i.store).2, grantCache := g })

/-- Nothing is read from the store or written to it, and nothing fails. -/
def Announces (m : Operation α) : Prop :=
  ∃ news : Context → α × List Notification, ∀ c i,
    m c i = (.ok (news c).1, { i with outbox := i.outbox ++ (news c).2 })

/-- What an operation that ended well gave, and what it left in the store and in the
outbox. -/
abbrev Outcome (α : Type) := α × Store × List Notification

/-- The installation after an outcome, or after an error. -/
def settle (i : Installation) (g : GrantCache) :
    Except ApiError (Outcome α) → Except ApiError α × Installation
  | .ok (a, store, notifications) =>
      (.ok a, { i with store := store, grantCache := g, outbox := i.outbox ++ notifications })
  | .error e => (.error e, { i with grantCache := g })

/-- All or nothing: the store decides between an outcome and an error without one. -/
def Atomic (m : Operation α) : Prop :=
  ∃ outcome : Context → Store → Except ApiError (Outcome α), ∀ c i, ∃ g,
    m c i = settle i g (outcome c i.store)

/-! ## Reading -/

theorem reads_pure (a : α) : Reads (pure a) := ⟨fun _ _ => .ok a, fun _ _ => rfl⟩

theorem reads_fail (e : ApiError) : Reads (fail e : Operation α) :=
  ⟨fun _ _ => .error e, fun _ _ => rfl⟩

theorem reads_context : Reads context := ⟨fun c _ => .ok c, fun _ _ => rfl⟩

theorem reads_reading (f : Store → α) : Reads (reading f) :=
  ⟨fun _ s => .ok (f s), fun _ _ => rfl⟩

theorem reads_ofExcept (x : Except ApiError α) : Reads (ofExcept x) := by
  cases x with
  | ok a => exact reads_pure a
  | error e => exact reads_fail e

theorem reads_readingOr (f : Store → Except StoreFault α) : Reads (readingOr f) := by
  refine ⟨fun _ s => (f s).mapError fun _ => .serverFault, fun c i => ?_⟩
  simp only [readingOr]
  cases f i.store with
  | ok a => rfl
  | error fault => rfl

theorem reads_bind (hm : Reads m) (hf : ∀ a, Reads (f a)) : Reads (m >>= f) := by
  obtain ⟨answer, hanswer⟩ := hm
  choose next hnext using hf
  refine ⟨fun c s => answer c s >>= fun a => next a c s, fun c i => ?_⟩
  rw [bind_apply, hanswer]
  beta_reduce
  cases answer c i.store with
  | ok a => exact hnext a c i
  | error e => rfl

/-! ## Changing the store -/

theorem Reads.onStore (h : Reads m) : OnStore m := by
  obtain ⟨answer, hanswer⟩ := h
  exact ⟨fun c s => (answer c s, s), fun c i => ⟨i.grantCache, hanswer c i⟩⟩

theorem onStore_changing (f : Store → Store) : OnStore (changing f) :=
  ⟨fun _ s => (.ok (), f s), fun _ i => ⟨i.grantCache, rfl⟩⟩

theorem onStore_changingWith (f : Store → α × Store) : OnStore (changingWith f) :=
  ⟨fun _ s => (.ok (f s).1, (f s).2), fun _ i => ⟨i.grantCache, rfl⟩⟩

/-- A function of the store that may fail, as an effect: a fault leaves the store as it is. -/
def orServerFault (f : Store → Except StoreFault (α × Store)) (s : Store) :
    Except ApiError α × Store :=
  ((f s).map Prod.fst |>.mapError fun _ => .serverFault,
    ((f s).map Prod.snd).toOption.getD s)

theorem onStore_changingWithOr (f : Store → Except StoreFault (α × Store)) :
    OnStore (changingWithOr f) := by
  refine ⟨fun _ => orServerFault f, fun c i => ⟨i.grantCache, ?_⟩⟩
  simp only [changingWithOr, orServerFault]
  cases f i.store with
  | ok p => rfl
  | error fault => rfl

theorem onStore_changingOr (f : Store → Except StoreFault Store) : OnStore (changingOr f) := by
  refine ⟨fun _ => orServerFault fun s => (f s).map ((), ·), fun c i => ⟨i.grantCache, ?_⟩⟩
  simp only [changingOr, orServerFault]
  cases f i.store with
  | ok t => rfl
  | error fault => rfl

theorem onStore_changingCache (f : GrantCache → GrantCache) : OnStore (changingCache f) :=
  ⟨fun _ s => (.ok (), s), fun _ i => ⟨f i.grantCache, rfl⟩⟩

theorem onStore_bind (hm : OnStore m) (hf : ∀ a, OnStore (f a)) : OnStore (m >>= f) := by
  obtain ⟨effect, heffect⟩ := hm
  choose next hnext using hf
  refine ⟨fun c s => match effect c s with
    | (.ok a, t) => next a c t
    | (.error e, t) => (.error e, t), fun c i => ?_⟩
  obtain ⟨g, hg⟩ := heffect c i
  rw [bind_apply, hg]
  beta_reduce
  -- The second part begins with a cache that the first may have thinned out already.
  rcases effect c i.store with ⟨e | a, t⟩
  · exact ⟨g, rfl⟩
  · obtain ⟨g', hg'⟩ := hnext a c { i with store := t, grantCache := g }
    exact ⟨g', hg'⟩

theorem onStore_refusal {p : Prop} [Decidable p] {e : ApiError} (h : OnStore m) :
    OnStore (if p then (do fail e; m) else m) := by
  split
  · exact onStore_bind (reads_fail _).onStore fun _ => h
  · exact h

theorem onStore_mapM (hf : ∀ a, OnStore (f a)) (l : List α) : OnStore (l.mapM f) := by
  induction l with
  | nil => exact (reads_pure []).onStore
  | cons a rest ih =>
      rw [List.mapM_cons]
      refine onStore_bind (hf a) fun _ => onStore_bind ih fun _ => ?_
      exact (reads_pure _).onStore

theorem onStore_forM {f : α → Operation PUnit} (hf : ∀ a, OnStore (f a)) (l : List α) :
    OnStore (l.forM f) := by
  induction l with
  | nil => exact (reads_pure _).onStore
  | cons a rest ih =>
      show OnStore (f a >>= fun _ => rest.forM f)
      exact onStore_bind (hf a) fun _ => ih

/-! ## Announcing -/

theorem announces_pure (a : α) : Announces (pure a) := by
  refine ⟨fun _ => (a, []), fun c i => ?_⟩
  rw [List.append_nil]
  rfl

theorem announces_bind (hm : Announces m) (hf : ∀ a, Announces (f a)) :
    Announces (m >>= f) := by
  obtain ⟨news, hnews⟩ := hm
  choose next hnext using hf
  refine ⟨fun c => ((next (news c).1 c).1, (news c).2 ++ (next (news c).1 c).2), fun c i => ?_⟩
  rw [bind_of_ok (hnews c i), hnext, ← List.append_assoc]

/-! ## All or nothing -/

theorem Reads.atomic (h : Reads m) : Atomic m := by
  obtain ⟨answer, hanswer⟩ := h
  refine ⟨fun c s => (answer c s).map fun a => (a, s, []), fun c i => ⟨i.grantCache, ?_⟩⟩
  rw [hanswer]
  beta_reduce
  cases answer c i.store with
  | ok a => simp [Except.map, settle]
  | error e => rfl

/-- What was written before an error is taken back. -/
theorem atomic_transaction (h : OnStore m) : Atomic (transaction m) := by
  obtain ⟨effect, heffect⟩ := h
  refine ⟨fun c s => (effect c s).1.map fun a => (a, (effect c s).2, []), fun c i => ?_⟩
  obtain ⟨g, hg⟩ := heffect c i
  refine ⟨g, ?_⟩
  rw [transaction, hg]
  beta_reduce
  rcases effect c i.store with ⟨e | a, t⟩
  · rfl
  · simp [Except.map, settle]

theorem Atomic.after (hm : Reads m) (hf : ∀ a, Atomic (f a)) : Atomic (m >>= f) := by
  obtain ⟨answer, hanswer⟩ := hm
  choose outcome houtcome using hf
  refine ⟨fun c s => answer c s >>= fun a => outcome a c s, fun c i => ?_⟩
  rw [bind_apply, hanswer]
  beta_reduce
  cases answer c i.store with
  | ok a => exact houtcome a c i
  | error e => exact ⟨i.grantCache, rfl⟩

theorem Atomic.before (hm : Atomic m) (hf : ∀ a, Announces (f a)) : Atomic (m >>= f) := by
  obtain ⟨outcome, houtcome⟩ := hm
  choose news hnews using hf
  refine ⟨fun c s => (outcome c s).map fun p =>
    ((news p.1 c).1, p.2.1, p.2.2 ++ (news p.1 c).2), fun c i => ?_⟩
  obtain ⟨g, hg⟩ := houtcome c i
  refine ⟨g, ?_⟩
  rw [bind_apply, hg]
  beta_reduce
  rcases outcome c i.store with e | ⟨a, t, notifications⟩
  · rfl
  · show f a c _ = _
    rw [hnews, List.append_assoc]
    rfl

theorem Atomic.of_error (h : Atomic m) {c : Context} {i j : Installation} {e : ApiError}
    (hm : m c i = (.error e, j)) : ∃ g, j = { i with grantCache := g } := by
  obtain ⟨outcome, houtcome⟩ := h
  obtain ⟨g, hg⟩ := houtcome c i
  rw [hg] at hm
  cases hends : outcome c i.store with
  | ok p =>
      rw [hends] at hm
      cases hm
  | error e' =>
      rw [hends] at hm
      cases hm
      exact ⟨g, rfl⟩

end Operation

open Operation

/-! ## The administration -/

namespace Administration

theorem reads_application (uuid : String) : Reads (application uuid) := by
  refine reads_bind (reads_reading _) fun found => ?_
  split
  · exact reads_pure _
  · exact reads_fail _

theorem reads_shown (a : Application) : Reads (shown a) :=
  reads_bind reads_context fun _ => reads_reading _

theorem reads_checkClientIds (uuid : String) (clientIds : SortedSet String) :
    Reads (checkClientIds uuid clientIds) :=
  reads_bind (reads_reading _) fun _ => reads_ofExcept _

theorem reads_checkKeptGrants (uuid : String) (hasAllPermissions : Bool) :
    Reads (checkKeptGrants uuid hasAllPermissions) :=
  reads_bind (reads_reading _) fun _ => reads_ofExcept _

theorem reads_listApplications : Reads listApplications :=
  reads_bind reads_context fun _ => reads_reading _

theorem reads_getApplication (uuid : String) : Reads (getApplication uuid) :=
  reads_bind (reads_application uuid) reads_shown

theorem reads_findConsumer (clientId : String) : Reads (findConsumer clientId) := by
  refine reads_bind (reads_reading _) fun found => ?_
  split
  · exact reads_shown _
  · exact reads_fail _

theorem announces_announce (changes : PermissionChanges) : Announces (announce changes) :=
  ⟨fun c => ((), changes.notifications c.settings.publicBaseUrl c.now), fun _ _ => rfl⟩

/-- What was announced may still be followed by the answer. -/
theorem announces_answer {α : Type} (changes : PermissionChanges) (a : α) :
    Announces (do announce changes; return a) :=
  announces_bind (announces_announce changes) fun _ => announces_pure a

theorem onStore_createGrants (uuid : String) (grants : List Grant) :
    OnStore (createGrants uuid grants) :=
  onStore_forM (fun _ => onStore_changing _) grants

theorem onStore_replaceGrants (uuid : String) (grants : List Grant) :
    OnStore (replaceGrants uuid grants) := by
  refine onStore_bind (onStore_changing _) fun _ => ?_
  exact onStore_bind (onStore_changing _) fun _ => onStore_createGrants uuid grants

theorem onStore_registerType (d : TypeDefinition) : OnStore (registerType d) := by
  refine onStore_refusal (onStore_bind (reads_reading _).onStore fun taken => ?_)
  refine onStore_refusal (onStore_bind (onStore_changingOr _) fun _ => ?_)
  refine onStore_bind (reads_reading _).onStore fun applications => ?_
  refine onStore_bind (onStore_forM (fun _ => onStore_changingCache _) _) fun _ => ?_
  exact (reads_pure _).onStore

theorem atomic_createApplication (uuid : String) (body : ApplicationBody) :
    Atomic (createApplication uuid body) := by
  refine Atomic.after reads_context fun c => Atomic.after (reads_ofExcept _) fun input => ?_
  refine Atomic.before (atomic_transaction ?_) fun view => announces_answer _ view
  refine onStore_bind (reads_checkClientIds _ _).onStore fun _ => ?_
  refine onStore_bind (onStore_changingOr _) fun _ => ?_
  refine onStore_bind (onStore_createGrants _ _) fun _ => ?_
  exact onStore_bind (onStore_changingCache _) fun _ => (reads_shown _).onStore

theorem atomic_update (uuid : String) (input : ApplicationInput) :
    Atomic (update uuid input) := by
  refine Atomic.before (atomic_transaction ?_) fun view => announces_answer _ view
  refine onStore_bind (reads_application _).onStore fun _ => ?_
  refine onStore_bind (reads_checkClientIds _ _).onStore fun _ => ?_
  have hrest : OnStore (do
      changingOr (·.updateApplication
        ⟨uuid, input.label, input.clientIds, input.hasAllPermissions⟩)
      changingCache (·.invalidate uuid)
      shown ⟨uuid, input.label, input.clientIds, input.hasAllPermissions⟩) := by
    refine onStore_bind (onStore_changingOr _) fun _ => ?_
    exact onStore_bind (onStore_changingCache _) fun _ => (reads_shown _).onStore
  split
  · exact onStore_bind (onStore_replaceGrants _ _) fun _ => hrest
  · exact onStore_bind (reads_checkKeptGrants _ _).onStore fun _ => hrest

theorem atomic_replaceApplication (uuid : String) (body : ApplicationBody) :
    Atomic (replaceApplication uuid body) :=
  Atomic.after reads_context fun _ => Atomic.after (reads_ofExcept _) fun _ => atomic_update _ _

theorem atomic_patchApplication (uuid : String) (change : ApplicationPatch) :
    Atomic (patchApplication uuid change) := by
  refine Atomic.after reads_context fun c => Atomic.after (reads_application _) fun _ => ?_
  exact Atomic.after (reads_ofExcept _) fun _ => atomic_update _ _

theorem atomic_deleteApplication (uuid : String) : Atomic (deleteApplication uuid) := by
  refine Atomic.before (atomic_transaction ?_) fun _ => announces_announce _
  refine onStore_bind (reads_application _).onStore fun _ => ?_
  exact onStore_bind (onStore_changing _) fun _ => onStore_changingCache _

theorem atomic_addGrant (g : Grant) : Atomic (addGrant g) := by
  refine Atomic.before (atomic_transaction ?_) fun created => announces_answer _ created
  refine onStore_bind (reads_application _).onStore fun _ => ?_
  refine onStore_bind (onStore_changingWith _) fun _ => ?_
  exact onStore_bind (onStore_changingCache _) fun _ => (reads_pure _).onStore

theorem atomic_revokeGrant (id : Nat) : Atomic (revokeGrant id) := by
  refine Atomic.before (atomic_transaction ?_) fun revoked => announces_answer _ revoked
  refine onStore_bind (reads_reading _).onStore fun g => ?_
  split
  · exact (reads_fail _).onStore
  · refine onStore_bind (onStore_changing _) fun _ => ?_
    exact onStore_bind (onStore_changingCache _) fun _ => (reads_pure _).onStore

theorem atomic_addCatalogGrant (g : CatalogGrant) : Atomic (addCatalogGrant g) := by
  refine Atomic.before (atomic_transaction ?_) fun created => announces_answer _ created
  refine onStore_bind (reads_application _).onStore fun _ => ?_
  refine onStore_bind (reads_reading _).onStore fun taken => ?_
  refine onStore_refusal (onStore_bind (onStore_changingWithOr _) fun _ => ?_)
  exact onStore_bind (onStore_changingCache _) fun _ => (reads_pure _).onStore

theorem atomic_revokeCatalogGrant (id : Nat) : Atomic (revokeCatalogGrant id) := by
  refine Atomic.before (atomic_transaction ?_) fun revoked => announces_answer _ revoked
  refine onStore_bind (reads_reading _).onStore fun g => ?_
  split
  · exact (reads_fail _).onStore
  · refine onStore_bind (onStore_changing _) fun _ => ?_
    exact onStore_bind (onStore_changingCache _) fun _ => (reads_pure _).onStore

theorem atomic_registerTypes (definitions : List TypeDefinition) :
    Atomic (registerTypes definitions) :=
  Atomic.before (atomic_transaction (onStore_mapM onStore_registerType definitions)) fun _ =>
    announces_announce _

end Administration

/-! ## Requests -/

/-- A question that is answered from what is stored, with its input. -/
inductive Inquiry where
  | listApplications
  | getApplication (uuid : String)
  | findConsumer (clientId : String)
  | getCase (id : String)
  | listStatuses (id : String)

/-- What answering a question does. -/
def Inquiry.run : Inquiry → Operation Unit
  | .listApplications => Administration.listApplications.forget
  | .getApplication uuid => (Administration.getApplication uuid).forget
  | .findConsumer clientId => (Administration.findConsumer clientId).forget
  | .getCase id => (CaseAccess.getCase id).forget
  | .listStatuses id => (CaseAccess.listStatuses id).forget

/-- Whatever an installation can be asked to do. -/
inductive ServiceRequest where
  | onCases (command : CaseCommand)
  | administration (command : AdministrationCommand)
  | inquiry (question : Inquiry)

def ServiceRequest.run : ServiceRequest → Operation Unit
  | .onCases command => command.run
  | .administration command => command.run
  | .inquiry question => question.run

theorem caseCommand_quiet (command : CaseCommand) : FailsQuietly command.run := by
  cases command with
  | create applications freshId input =>
      exact (createCase_quiet applications freshId input).before fun _ => succeeds_pure _
  | update applications id change =>
      exact (updateCase_quiet applications id change).before fun _ => succeeds_pure _
  | recordStatus applications id statusType setAt =>
      exact (recordStatus_quiet applications id statusType setAt).before fun _ => succeeds_pure _
  | setResult applications id resultType =>
      exact (setResult_quiet applications id resultType).before fun _ => succeeds_pure _
  | attach applications id attachment =>
      exact (authorizeAttachment_steady applications id attachment).looksUp.failsQuietly

theorem atomic_forget {α : Type} {m : Operation α} (h : Atomic m) : Atomic m.forget :=
  h.before fun _ => announces_pure _

theorem administration_atomic (command : AdministrationCommand) : Atomic command.run := by
  cases command with
  | create uuid body => exact atomic_forget (Administration.atomic_createApplication uuid body)
  | replace uuid body => exact atomic_forget (Administration.atomic_replaceApplication uuid body)
  | patch uuid change => exact atomic_forget (Administration.atomic_patchApplication uuid change)
  | delete uuid => exact Administration.atomic_deleteApplication uuid
  | addGrant g => exact atomic_forget (Administration.atomic_addGrant g)
  | revokeGrant id => exact atomic_forget (Administration.atomic_revokeGrant id)
  | addCatalogGrant g => exact atomic_forget (Administration.atomic_addCatalogGrant g)
  | revokeCatalogGrant id => exact atomic_forget (Administration.atomic_revokeCatalogGrant id)
  | registerTypes definitions => exact Administration.atomic_registerTypes definitions

theorem inquiry_atomic (question : Inquiry) : Atomic question.run := by
  cases question with
  | listApplications => exact atomic_forget Administration.reads_listApplications.atomic
  | getApplication uuid => exact atomic_forget (Administration.reads_getApplication uuid).atomic
  | findConsumer clientId => exact atomic_forget (Administration.reads_findConsumer clientId).atomic
  | getCase id => exact atomic_forget (reads_reading _).atomic
  | listStatuses id => exact atomic_forget (reads_readingOr _).atomic

/-- Whatever was asked, and wherever: when the answer is an error, what is stored is as
it was before, and nothing was announced. -/
theorem failed_request_leaves_no_trace (request : ServiceRequest) {c : Context}
    {i j : Installation} {e : ApiError} (h : request.run c i = (.error e, j)) :
    j.store = i.store ∧ j.outbox = i.outbox := by
  cases request with
  | onCases command =>
      have hlooks := caseCommand_quiet command c i e j h
      exact ⟨hlooks.store, hlooks.outbox⟩
  | administration command =>
      obtain ⟨g, rfl⟩ := (administration_atomic command).of_error h
      exact ⟨rfl, rfl⟩
  | inquiry question =>
      obtain ⟨g, rfl⟩ := (inquiry_atomic question).of_error h
      exact ⟨rfl, rfl⟩

/-- A batch of types that is refused at its last one, which is registered already. -/
def refusedBatch : ServiceRequest :=
  .administration (.registerTypes [{ permit with reference := ⟨"licence"⟩ }, permit])

theorem refusedBatch_leaves_no_trace :
    ∃ e j, refusedBatch.run Context.alone office = (.error e, j) ∧
      j.store = office.store ∧ j.outbox = office.outbox := by
  have hrefused : (refusedBatch.run Context.alone office).1.isOk = false := by decide +kernel
  rcases h : refusedBatch.run Context.alone office with ⟨e | _, j⟩
  · exact ⟨e, j, rfl, failed_request_leaves_no_trace refusedBatch h⟩
  · rw [h] at hrefused
    cases hrefused

end CaseAccess
