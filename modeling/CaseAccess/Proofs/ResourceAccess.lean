import CaseAccess.Http.Server
import CaseAccess.Proofs.AdministrationChange
import CaseAccess.Proofs.Atomicity
import CaseAccess.Proofs.CatalogExpansion
import CaseAccess.Proofs.StatusVerdict
import CaseAccess.Proofs.TokenRoundTrip

/-!
# Who gets at the applications

A request for the applications is turned away before anything else is looked at. Its
token has to verify, and the applications of its client have to be allowed the scopes of
the endpoint, for authorisations as a whole. Only then is the body read, the application
looked for, and something written. So nothing is written for a caller that may not change
applications, and nothing is shown to one that may not read them.

More is true of a request that is turned away: it learns nothing. `gate` is the error
that it is turned away with, and it is a function of the secrets, of the applications of
the client with their grants on authorisations, and of the types of that component. An
answer with the status of a denial comes from there, because what is done behind the gate
never ends with such a status. Whatever else is stored, and whatever the body says, the
answer is the same up to the identifier of the occurrence.
-/

namespace CaseAccess

open Operation Administration
open Installation (Steady)

/-- A request for scopes on authorisations as a whole. -/
def AccessRequest.onAuthorisations (scopes : ScopeSet) : AccessRequest :=
  { component := some .ac, scopes := scopes }

/-! ## The gate -/

namespace Installation

variable (i : Installation) (c : Context) (r : HttpRequest)

/-- What the token of a request says. -/
def credential : Except TokenError Credential :=
  Token.authenticate i.store.secret? c.settings.authn.window c.now.epochSeconds r.credential?

/-- The token of a request verifies, and the applications of its client are allowed the
scopes on authorisations as a whole. -/
def LetsIn (scopes : ScopeSet) : Prop :=
  ∃ k, i.credential c r = .ok k ∧
    ((AccessRequest.onAuthorisations scopes).allow (i.store.clientApplications k.clientId) c i).1 =
      .ok true

/-- The decision on the applications of a client. -/
def decision (clientId : String) (scopes : ScopeSet) : Decision :=
  (AccessRequest.onAuthorisations scopes).verdict (i.store.clientApplications clientId) i.store
    (c.resolution i.store i.typeCache)

/-- The error that a request is turned away with, if it is turned away. -/
def gate (scopes : ScopeSet) : Except ApiError Unit :=
  match i.credential c r with
  | .ok k => (i.decision c k.clientId scopes).toResult
  | .error e => .error e.toApiError

end Installation

/-- The stores agree on what a client is let in for: on its applications, on their grants on
authorisations, and on the types of that component. -/
structure Store.AgreesFor (clientId : String) (s t : Store) : Prop where
  applications : t.clientApplications clientId = s.clientApplications clientId
  grants : ∀ a ∈ s.clientApplications clientId, t.grantSet a.uuid .ac = s.grantSet a.uuid .ac
  types : ∀ d : TypeDefinition, d.component = .ac → (d ∈ t.types.rows ↔ d ∈ s.types.rows)

/-- The errors that tell nothing of what is stored but whether a client has a secret. -/
inductive ApiError.TurnsAway (credential : Except TokenError Credential) : ApiError → Prop where
  | token {e : TokenError} (refused : credential = .error e) : TurnsAway credential e.toApiError
  | denied : TurnsAway credential .permissionDenied
  | method : TurnsAway credential .methodNotAllowed

section Gate

variable {i j : Installation} {c : Context} {r : HttpRequest} {scopes : ScopeSet}

theorem gate_eq_ok (hi : i.grantCache.Agrees i.store) :
    i.gate c r scopes = .ok () ↔ i.LetsIn c r scopes := by
  rw [Installation.gate, Installation.LetsIn]
  cases hk : i.credential c r with
  | error e => simp
  | ok k =>
      have hallow := allow_eq_verdict hi (.onAuthorisations scopes)
        (i.store.clientApplications k.clientId) c
      simp only [Except.ok.injEq, exists_eq_left', hallow, Installation.decision]
      cases AccessRequest.verdict (.onAuthorisations scopes)
          (i.store.clientApplications k.clientId) i.store (c.resolution i.store i.typeCache) with
      | allow => simp [Decision.toResult, Decision.isAllowed]
      | deny reason => simp [Decision.toResult, Decision.isAllowed]

/-- Of a decision without a type only the denial itself is told. -/
theorem turnsAway_of_gate {e : ApiError} (h : i.gate c r scopes = .error e) :
    e.TurnsAway (i.credential c r) := by
  rw [Installation.gate] at h
  cases hk : i.credential c r with
  | error why =>
      rw [hk] at h
      cases h
      exact .token rfl
  | ok k =>
      rw [hk] at h
      have hlocal : (AccessRequest.onAuthorisations scopes).IsLocal := fun _ h => nomatch h
      have hcases := hlocal.verdict_cases (i.store.clientApplications k.clientId) c i.store
        i.typeCache
      simp only [Installation.decision] at h
      rcases hcases with hallow | hdeny
      · rw [hallow] at h
        cases h
      · rw [hdeny, AccessRequest.refusal] at h
        split at h
        · cases h
          exact .denied
        · split at h
          · cases h
            exact .denied
          · split at h
            · cases h
              exact .denied
            · cases h
              exact .denied

/-! ### Two stores -/

theorem isPopulated_congr {s t : Store} {component : Component}
    (h : ∀ d : TypeDefinition, d.component = component → (d ∈ t.types.rows ↔ d ∈ s.types.rows))
    (catalog : TypeRef) : t.isPopulated component catalog = s.isPopulated component catalog := by
  rw [Bool.eq_iff_iff, Store.isPopulated_iff, Store.isPopulated_iff]
  refine or_congr_right ⟨?_, ?_⟩
  · rintro ⟨d, hd, hcatalog, hcomponent⟩
    exact ⟨d, (h d hcomponent).1 hd, hcatalog, hcomponent⟩
  · rintro ⟨d, hd, hcatalog, hcomponent⟩
    exact ⟨d, (h d hcomponent).2 hd, hcatalog, hcomponent⟩

/-- The snapshot of the client's applications is the same in both stores. -/
theorem Store.AgreesFor.snapshot_eq {clientId : String} {s t : Store} (h : s.AgreesFor clientId t) :
    t.snapshot (s.clientApplications clientId) .ac none =
      s.snapshot (s.clientApplications clientId) .ac none := by
  have hsets : t.grantSets (s.clientApplications clientId) .ac =
      s.grantSets (s.clientApplications clientId) .ac :=
    List.map_congr_left h.grants
  have hpopulated : t.isPopulated .ac = s.isPopulated .ac := funext (isPopulated_congr h.types)
  rw [Store.snapshot, Store.snapshot, Store.snapshotOf, Store.snapshotOf, hsets, hpopulated]
  rfl

theorem decision_congr {clientId : String} (h : i.store.AgreesFor clientId j.store) :
    j.decision c clientId scopes = i.decision c clientId scopes := by
  rw [Installation.decision, Installation.decision, h.applications, AccessRequest.verdict,
    AccessRequest.verdict]
  simp only [AccessRequest.onAuthorisations, h.snapshot_eq]
  rfl

theorem credential_congr {r' : HttpRequest} (hsecrets : j.store.secret? = i.store.secret?)
    (htoken : r'.credential? = r.credential?) : j.credential c r' = i.credential c r := by
  rw [Installation.credential, Installation.credential, hsecrets, htoken]

/-- Of a request only the token counts. -/
theorem letsIn_congr {r' : HttpRequest} (htoken : r'.credential? = r.credential?) :
    i.LetsIn c r' scopes ↔ i.LetsIn c r scopes := by
  rw [Installation.LetsIn, Installation.LetsIn, credential_congr rfl htoken]

theorem gate_congr {r' : HttpRequest} (hsecrets : j.store.secret? = i.store.secret?)
    (htoken : r'.credential? = r.credential?)
    (h : ∀ k, i.credential c r = .ok k → i.store.AgreesFor k.clientId j.store) :
    j.gate c r' scopes = i.gate c r scopes := by
  rw [Installation.gate, Installation.gate, credential_congr hsecrets htoken]
  cases hk : i.credential c r with
  | error e => rfl
  | ok k => simp only [decision_congr (h k hk)]

end Gate

/-! ## Behind the gate -/

/-- The status of an answer says that access is denied. -/
def DeniesAccess (status : Nat) : Prop := status = 401 ∨ status = 403

namespace Operation

variable {α β : Type} {m : Operation α} {f : α → Operation β}

/-- Wherever the operation is started, it does not end with an error that denies access. -/
def DeniesNothing (m : Operation α) : Prop :=
  ∀ c i e j, m c i = (.error e, j) → ¬ DeniesAccess e.kind.status

theorem deniesNothing_of_ok (h : ∀ c i, ∃ a j, m c i = (.ok a, j)) : DeniesNothing m := by
  intro c i e j hm
  obtain ⟨a, k, hok⟩ := h c i
  rw [hok] at hm
  cases hm

theorem deniesNothing_fail {e : ApiError} (h : ¬ DeniesAccess e.kind.status) :
    DeniesNothing (fail e : Operation α) := by
  rintro c i _ j ⟨⟩
  exact h

theorem deniesNothing_bind (hm : DeniesNothing m) (hf : ∀ a, DeniesNothing (f a)) :
    DeniesNothing (m >>= f) := by
  intro c i e k h
  rcases of_bind_error h with h | ⟨a, j, -, hk⟩
  · exact hm c i e k h
  · exact hf a c j e k hk

theorem deniesNothing_ofExcept {x : Except ApiError α}
    (h : ∀ e, x = .error e → ¬ DeniesAccess e.kind.status) : DeniesNothing (ofExcept x) := by
  cases x with
  | ok a => exact deniesNothing_of_ok fun _ _ => ⟨_, _, rfl⟩
  | error e => exact deniesNothing_fail (h e rfl)

theorem deniesNothing_transaction (h : DeniesNothing m) : DeniesNothing (transaction m) := by
  intro c i e k hm
  rw [transaction] at hm
  split at hm
  · cases hm
  · next e' t ht =>
    cases hm
    exact h c i e t ht

theorem deniesNothing_changingOr (f : Store → Except StoreFault Store) :
    DeniesNothing (changingOr f) := by
  intro c i e k h
  rw [changingOr] at h
  split at h
  · cases h
  · cases h
    simp [DeniesAccess, ApiError.serverFault, ApiError.plain, ErrorKind.status]

theorem deniesNothing_reading (f : Store → α) : DeniesNothing (reading f) :=
  deniesNothing_of_ok fun _ _ => ⟨_, _, rfl⟩

theorem deniesNothing_pure (a : α) : DeniesNothing (pure a) :=
  deniesNothing_of_ok fun _ _ => ⟨_, _, rfl⟩

end Operation

theorem deniesAccess_ofParams {params : List InvalidParam} {e : ApiError}
    (h : ApiError.ofParams params = .error e) : ¬ DeniesAccess e.kind.status := by
  rw [ApiError.ofParams] at h
  split at h
  · cases h
  · cases h
    simp [DeniesAccess, ApiError.invalid, ErrorKind.status]

theorem deniesAccess_notFound (detail : String) :
    ¬ DeniesAccess (ApiError.notFound detail).kind.status := by
  simp [DeniesAccess, ApiError.notFound, ErrorKind.status]

theorem deniesAccess_readBody {α : Type} {read : Json.Reader α} {body : String} {e : ApiError}
    (h : readBody read body = .error e) : ¬ DeniesAccess e.kind.status := by
  rw [readBody] at h
  split at h
  · cases h
    simp [DeniesAccess, ApiError.invalidParam, ApiError.invalid, ErrorKind.status]
  · split at h
    · cases h
    · cases h
      simp [DeniesAccess, ApiError.invalidParam, ApiError.invalid, ErrorKind.status]

namespace Administration

theorem deniesNothing_application (uuid : String) : DeniesNothing (application uuid) := by
  refine deniesNothing_bind (deniesNothing_reading _) fun found => ?_
  split
  · exact deniesNothing_pure _
  · exact deniesNothing_fail (deniesAccess_notFound _)

theorem deniesNothing_shown (a : Application) : DeniesNothing (shown a) :=
  deniesNothing_of_ok fun _ _ => ⟨_, _, rfl⟩

theorem deniesNothing_checkClientIds (uuid : String) (clientIds : SortedSet String) :
    DeniesNothing (checkClientIds uuid clientIds) :=
  deniesNothing_bind (deniesNothing_reading _) fun _ =>
    deniesNothing_ofExcept fun _ => deniesAccess_ofParams

theorem deniesNothing_announceOne (uuid : String) (action : Action) :
    DeniesNothing (announceOne uuid action) :=
  deniesNothing_of_ok fun _ _ => ⟨_, _, rfl⟩

theorem deniesNothing_createGrants (uuid : String) (grants : List Grant) :
    DeniesNothing (createGrants uuid grants) :=
  deniesNothing_of_ok fun c i => ⟨_, _, createGrants_eq uuid grants c i⟩

theorem deniesNothing_createApplication (uuid : String) (body : ApplicationBody) :
    DeniesNothing (createApplication uuid body) := by
  refine deniesNothing_bind (deniesNothing_of_ok fun _ _ => ⟨_, _, rfl⟩) fun c => ?_
  refine deniesNothing_bind (deniesNothing_ofExcept fun e he => ?_) fun input => ?_
  · rcases except_of_bind_error he with he | ⟨_, -, he⟩
    · exact deniesAccess_ofParams he
    · cases he
  · refine deniesNothing_bind (deniesNothing_transaction ?_) fun view =>
      deniesNothing_of_ok fun _ _ => ⟨_, _, rfl⟩
    refine deniesNothing_bind (deniesNothing_checkClientIds _ _) fun _ => ?_
    refine deniesNothing_bind (deniesNothing_changingOr _) fun _ => ?_
    refine deniesNothing_bind (deniesNothing_createGrants _ _) fun _ => ?_
    exact deniesNothing_of_ok fun _ _ => ⟨_, _, rfl⟩

theorem deniesNothing_update (uuid : String) (input : ApplicationInput) :
    DeniesNothing (update uuid input) := by
  have hwrite : DeniesNothing (do
      let a : Application := ⟨uuid, input.label, input.clientIds, input.hasAllPermissions⟩
      changingOr (·.updateApplication a)
      changingCache (·.invalidate uuid)
      shown a) :=
    deniesNothing_bind (deniesNothing_changingOr _) fun _ =>
      deniesNothing_of_ok fun _ _ => ⟨_, _, rfl⟩
  refine deniesNothing_bind (deniesNothing_transaction ?_) fun view =>
    deniesNothing_of_ok fun _ _ => ⟨_, _, rfl⟩
  refine deniesNothing_bind (deniesNothing_application uuid) fun _ => ?_
  refine deniesNothing_bind (deniesNothing_checkClientIds _ _) fun _ => ?_
  split
  · next grants _ =>
    refine deniesNothing_bind ?_ fun _ => hwrite
    exact deniesNothing_of_ok fun c i => ⟨_, _, replaceGrants_eq uuid grants c i⟩
  · refine deniesNothing_bind ?_ fun _ => hwrite
    exact deniesNothing_bind (deniesNothing_reading _) fun _ =>
      deniesNothing_ofExcept fun _ => deniesAccess_ofParams

theorem deniesNothing_replaceApplication (uuid : String) (body : ApplicationBody) :
    DeniesNothing (replaceApplication uuid body) := by
  refine deniesNothing_bind (deniesNothing_of_ok fun _ _ => ⟨_, _, rfl⟩) fun c => ?_
  refine deniesNothing_bind (deniesNothing_ofExcept fun e he => ?_) (deniesNothing_update uuid)
  rcases except_of_bind_error he with he | ⟨_, -, he⟩
  · exact deniesAccess_ofParams he
  · cases he

theorem deniesNothing_patchApplication (uuid : String) (change : ApplicationPatch) :
    DeniesNothing (patchApplication uuid change) := by
  refine deniesNothing_bind (deniesNothing_of_ok fun _ _ => ⟨_, _, rfl⟩) fun c => ?_
  refine deniesNothing_bind (deniesNothing_application uuid) fun current => ?_
  refine deniesNothing_bind (deniesNothing_ofExcept fun e he => ?_) (deniesNothing_update uuid)
  rcases except_of_bind_error he with he | ⟨_, -, he⟩
  · exact deniesAccess_ofParams he
  · cases he

theorem deniesNothing_deleteApplication (uuid : String) :
    DeniesNothing (deleteApplication uuid) := by
  refine deniesNothing_bind (deniesNothing_transaction ?_) fun _ =>
    deniesNothing_announceOne uuid .destroy
  exact deniesNothing_bind (deniesNothing_application uuid) fun _ =>
    deniesNothing_of_ok fun _ _ => ⟨_, _, rfl⟩

theorem deniesNothing_findConsumer (clientId : String) :
    DeniesNothing (findConsumer clientId) := by
  refine deniesNothing_bind (deniesNothing_reading _) fun found => ?_
  split
  · exact deniesNothing_shown _
  · exact deniesNothing_fail (deniesAccess_notFound _)

end Administration

/-- What an endpoint does for a caller that is let in does not end as if it was not. -/
theorem Endpoint.perform_deniesNothing (e : Endpoint) (uuid : String) (r : HttpRequest) :
    DeniesNothing (e.perform uuid r) := by
  have hread : ∀ {α : Type} (read : Json.Reader α),
      DeniesNothing (ofExcept (readBody read r.body)) := fun read =>
    deniesNothing_ofExcept fun _ => deniesAccess_readBody
  cases e with
  | list =>
      exact deniesNothing_bind (deniesNothing_of_ok fun _ _ => ⟨_, _, rfl⟩) fun _ =>
        deniesNothing_pure _
  | create =>
      exact deniesNothing_bind (hread _) fun body =>
        deniesNothing_bind (deniesNothing_createApplication uuid body) fun _ =>
          deniesNothing_pure _
  | consumer =>
      rw [Endpoint.perform]
      split
      · refine deniesNothing_fail ?_
        simp [DeniesAccess, ApiError.invalidParam, ApiError.invalid, ErrorKind.status]
      · exact deniesNothing_bind (deniesNothing_findConsumer _) fun _ => deniesNothing_pure _
  | read id =>
      exact deniesNothing_bind (deniesNothing_bind (deniesNothing_application id)
        deniesNothing_shown) fun _ => deniesNothing_pure _
  | replace id =>
      exact deniesNothing_bind (hread _) fun body =>
        deniesNothing_bind (deniesNothing_replaceApplication id body) fun _ =>
          deniesNothing_pure _
  | patch id =>
      exact deniesNothing_bind (hread _) fun change =>
        deniesNothing_bind (deniesNothing_patchApplication id change) fun _ =>
          deniesNothing_pure _
  | delete id =>
      exact deniesNothing_bind (deniesNothing_deleteApplication id) fun _ =>
        deniesNothing_pure _

/-- Nor does what it answers. -/
theorem Endpoint.status_of_perform {e : Endpoint} {uuid : String} {r : HttpRequest} {c : Context}
    {i j : Installation} {response : HttpResponse}
    (h : e.perform uuid r c i = (.ok response, j)) : ¬ DeniesAccess response.status := by
  have hok : ¬ DeniesAccess 200 := by simp [DeniesAccess]
  have hcreated : ¬ DeniesAccess 201 := by simp [DeniesAccess]
  have hempty : ¬ DeniesAccess 204 := by simp [DeniesAccess]
  cases e with
  | list =>
      cases h
      exact hok
  | create =>
      obtain ⟨body, i₁, -, h⟩ := of_bind_ok h
      obtain ⟨view, i₂, -, h⟩ := of_bind_ok h
      cases h
      exact hcreated
  | consumer =>
      cases hquery : r.queryValue? "clientId" with
      | none =>
          simp only [Endpoint.perform, hquery] at h
          cases h
      | some clientId =>
          simp only [Endpoint.perform, hquery] at h
          obtain ⟨view, i₁, -, h⟩ := of_bind_ok h
          cases h
          exact hok
  | read id =>
      obtain ⟨view, i₁, -, h⟩ := of_bind_ok h
      cases h
      exact hok
  | replace id =>
      obtain ⟨body, i₁, -, h⟩ := of_bind_ok h
      obtain ⟨view, i₂, -, h⟩ := of_bind_ok h
      cases h
      exact hok
  | patch id =>
      obtain ⟨change, i₁, -, h⟩ := of_bind_ok h
      obtain ⟨view, i₂, -, h⟩ := of_bind_ok h
      cases h
      exact hok
  | delete id =>
      obtain ⟨_, i₁, -, h⟩ := of_bind_ok h
      cases h
      exact hempty

/-- What is read for a caller leaves everything as it is. -/
theorem Endpoint.perform_reads {e : Endpoint} (h : e.isRead = true) (uuid : String)
    (r : HttpRequest) : Reads (e.perform uuid r) := by
  cases e with
  | list => exact reads_bind reads_listApplications fun _ => reads_pure _
  | consumer =>
      rw [Endpoint.perform]
      split
      · exact reads_fail _
      · exact reads_bind (reads_findConsumer _) fun _ => reads_pure _
  | read id => exact reads_bind (reads_getApplication id) fun _ => reads_pure _
  | create => cases h
  | replace id => cases h
  | patch id => cases h
  | delete id => cases h

/-! ## Answers -/

section Answers

variable {i : Installation} {c : Context} {r : HttpRequest} {server : HttpServer} {fresh : Fresh}

/-- An endpoint is served behind the gate, or not at all. -/
theorem Endpoint.serve_eq (hi : i.grantCache.Agrees i.store) (e : Endpoint) (uuid : String) :
    ∃ j, j.store = i.store ∧ e.serve uuid r c i =
      match i.gate c r (e.scopes c.settings.authz) with
      | .ok () => e.perform uuid r c j
      | .error refused => (.error refused, j) := by
  have hauthenticate : authenticate r c i = match i.credential c r with
      | .ok k => (.ok k, i)
      | .error why => (.error why.toApiError, i) := by
    show (match i.credential c r with
      | .ok k => pure k
      | .error why => fail why.toApiError : Operation Credential) c i = _
    cases i.credential c r <;> rfl
  rw [Endpoint.serve, bind_apply, hauthenticate, Installation.gate]
  cases i.credential c r with
  | error why => exact ⟨i, rfl, rfl⟩
  | ok k =>
      obtain ⟨g, hg, happlications⟩ := clientApplications_eq (c := c) hi k.clientId
      have hlookup := clientApplications_steady k.clientId c i
      rw [happlications] at hlookup
      obtain ⟨j, hj, hcheck⟩ := ends_check hi
        (AccessRequest.onAuthorisations (e.scopes c.settings.authz)) _ hlookup
      have hauthorize : e.authorize k c i =
          ((i.decision c k.clientId (e.scopes c.settings.authz)).toResult, j) := by
        rw [Endpoint.authorize, bind_context, bind_of_ok happlications]
        exact hcheck
      refine ⟨j, hj.store, ?_⟩
      show (e.authorize k >>= fun _ => e.perform uuid r) c i =
        match (i.decision c k.clientId (e.scopes c.settings.authz)).toResult with
        | .ok () => e.perform uuid r c j
        | .error refused => (.error refused, j)
      rw [bind_apply, hauthorize]
      cases (i.decision c k.clientId (e.scopes c.settings.authz)).toResult <;> rfl

theorem handle_eq (hpath : HttpServer.isApplicationsPath r.route = true) :
    server.handle fresh r c i = HttpServer.handleApplications fresh (server.limited r) c i := by
  have hroute : (server.limited r).route = r.route := by
    rw [HttpServer.limited]
    split <;> rfl
  rw [HttpServer.handle]
  simp only [hroute, hpath, if_true]

/-- Nothing but the body of a request is limited. -/
theorem limited_asks (server : HttpServer) (r : HttpRequest) :
    (server.limited r).method = r.method ∧ (server.limited r).path = r.path ∧
      (server.limited r).credential? = r.credential? := by
  rw [HttpServer.limited]
  split
  · exact ⟨rfl, rfl, rfl⟩
  · exact ⟨rfl, rfl, rfl⟩

/-- A request for the applications is answered by its endpoint, or with the error that it
ended with. -/
theorem handleApplications_eq (fresh : Fresh) (r : HttpRequest) (c : Context) (i : Installation) :
    HttpServer.handleApplications fresh r c i =
      match Endpoint.parse? r.method (HttpServer.pathBelow r.path) with
      | none => (.ok (ApiError.methodNotAllowed.response c.settings.publicBaseUrl
          fresh.occurrence), i)
      | some e =>
          match e.serve fresh.uuid r c i with
          | (.ok response, j) => (.ok response, j)
          | (.error refused, j) =>
              (.ok (refused.response c.settings.publicBaseUrl fresh.occurrence), j) := by
  rw [HttpServer.handleApplications, bind_context]
  cases Endpoint.parse? r.method (HttpServer.pathBelow r.path) with
  | none => rfl
  | some e =>
      show (attempt (e.serve fresh.uuid r) >>= _) c i = _
      rcases hserve : e.serve fresh.uuid r c i with ⟨refused | response, j⟩
      · simp only [bind_apply, attempt, hserve]
        rfl
      · simp only [bind_apply, attempt, hserve]
        rfl

/-- A request that is turned away is answered with the error, and changes nothing. -/
theorem answer_of_gate_error (hi : i.grantCache.Agrees i.store) {e : Endpoint}
    (hparse : Endpoint.parse? r.method (HttpServer.pathBelow r.path) = some e) {refused : ApiError}
    (hgate : i.gate c r (e.scopes c.settings.authz) = .error refused) (fresh : Fresh) :
    ∃ j, j.store = i.store ∧ HttpServer.handleApplications fresh r c i =
      (.ok (refused.response c.settings.publicBaseUrl fresh.occurrence), j) := by
  obtain ⟨j, hj, hserve⟩ := e.serve_eq (c := c) (r := r) hi fresh.uuid
  refine ⟨j, hj, ?_⟩
  rw [handleApplications_eq, hparse]
  simp only [hserve, hgate]

/-- An answer that denies access is that of a request that was turned away. -/
theorem gate_of_denial (hi : i.grantCache.Agrees i.store) {response : HttpResponse}
    (h : (HttpServer.handleApplications fresh r c i).1 = .ok response)
    (hdenies : DeniesAccess response.status) :
    ∃ e refused, Endpoint.parse? r.method (HttpServer.pathBelow r.path) = some e ∧
      i.gate c r (e.scopes c.settings.authz) = .error refused := by
  rw [handleApplications_eq] at h
  cases hparse : Endpoint.parse? r.method (HttpServer.pathBelow r.path) with
  | none =>
      rw [hparse] at h
      cases h
      revert hdenies
      simp [DeniesAccess, ApiError.response, ApiError.methodNotAllowed, ApiError.plain,
        ErrorKind.status]
  | some e =>
      cases hgate : i.gate c r (e.scopes c.settings.authz) with
      | error refused => exact ⟨e, refused, rfl, hgate⟩
      | ok u =>
          obtain ⟨j, -, hserve⟩ := e.serve_eq (c := c) (r := r) hi fresh.uuid
          simp only [hparse, hserve, hgate] at h
          exfalso
          rcases hperform : e.perform fresh.uuid r c j with ⟨err | answer, k⟩
          · rw [hperform] at h
            cases h
            exact e.perform_deniesNothing fresh.uuid r c j err k hperform hdenies
          · rw [hperform] at h
            cases h
            exact e.status_of_perform hperform hdenies

theorem Endpoint.isRead_of_get {path : String} {e : Endpoint}
    (h : Endpoint.parse? "GET" path = some e) : e.isRead = true := by
  simp only [Endpoint.parse?] at h
  split at h
  · cases h
  · split at h
    · cases h
      rfl
    · simp only [if_true, Option.some.injEq] at h
      split at h <;> (cases h; rfl)

theorem gate_cases (hi : i.grantCache.Agrees i.store) (scopes : ScopeSet) :
    i.LetsIn c r scopes ∧ i.gate c r scopes = .ok () ∨
      ∃ refused : ApiError, i.gate c r scopes = .error refused ∧
        refused.TurnsAway (i.credential c r) := by
  cases hgate : i.gate c r scopes with
  | ok u => exact .inl ⟨(gate_eq_ok hi).1 hgate, rfl⟩
  | error refused => exact .inr ⟨refused, rfl, turnsAway_of_gate hgate⟩

theorem letsIn_of_change (hi : i.grantCache.Agrees i.store)
    (h : (HttpServer.handleApplications fresh r c i).2.store ≠ i.store) :
    i.LetsIn c r (c.settings.authz.createScope .ac) := by
  cases hparse : Endpoint.parse? r.method (HttpServer.pathBelow r.path) with
  | none =>
      rw [handleApplications_eq, hparse] at h
      exact absurd rfl h
  | some e =>
      rcases gate_cases (c := c) (r := r) hi (e.scopes c.settings.authz) with
        ⟨hin, hgate⟩ | ⟨refused, hgate, -⟩
      · cases hread : e.isRead with
        | false =>
            rw [Endpoint.scopes, hread, if_neg Bool.false_ne_true] at hin
            exact hin
        | true =>
            obtain ⟨j, hj, hserve⟩ := e.serve_eq (c := c) (r := r) hi fresh.uuid
            obtain ⟨answer, hanswer⟩ := Endpoint.perform_reads hread fresh.uuid r
            rw [handleApplications_eq, hparse] at h
            simp only [hserve, hgate, hanswer] at h
            split at h
            · next heq =>
                obtain ⟨-, rfl⟩ := Prod.mk.inj heq
                exact absurd hj h
            · next heq =>
                obtain ⟨-, rfl⟩ := Prod.mk.inj heq
                exact absurd hj h
      · obtain ⟨j, hj, hanswer⟩ := answer_of_gate_error hi hparse hgate fresh
        rw [hanswer] at h
        exact absurd hj h

theorem turnsAway_of_get (hi : i.grantCache.Agrees i.store) (hget : r.method = "GET")
    (hout : ¬ i.LetsIn c r c.settings.authz.readScopes) (fresh : Fresh) :
    ∃ e : ApiError, e.TurnsAway (i.credential c r) ∧
      (HttpServer.handleApplications fresh r c i).1 =
        .ok (e.response c.settings.publicBaseUrl fresh.occurrence) := by
  cases hparse : Endpoint.parse? r.method (HttpServer.pathBelow r.path) with
  | none =>
      refine ⟨.methodNotAllowed, .method, ?_⟩
      rw [handleApplications_eq, hparse]
  | some e =>
      have hread : e.isRead = true := Endpoint.isRead_of_get (hget ▸ hparse)
      have hscopes : e.scopes c.settings.authz = c.settings.authz.readScopes := if_pos hread
      rcases gate_cases (c := c) (r := r) hi (e.scopes c.settings.authz) with
        ⟨hin, -⟩ | ⟨refused, hgate, haway⟩
      · rw [hscopes] at hin
        exact absurd hin hout
      · obtain ⟨j, -, hanswer⟩ := answer_of_gate_error hi hparse hgate fresh
        exact ⟨refused, haway, by rw [hanswer]⟩

/-- A denial is the same for a request with the same token to the same endpoint, wherever
the secrets and what is stored for the client are the same. -/
theorem denial_elsewhere {j : Installation} (hi : i.grantCache.Agrees i.store)
    (hj : j.grantCache.Agrees j.store) (hsecrets : j.store.secret? = i.store.secret?)
    (hagrees : ∀ k, i.credential c r = .ok k → i.store.AgreesFor k.clientId j.store)
    {response : HttpResponse} (h : (HttpServer.handleApplications fresh r c i).1 = .ok response)
    (hdenies : DeniesAccess response.status) :
    ∃ e : ApiError, e.TurnsAway (i.credential c r) ∧
      response = e.response c.settings.publicBaseUrl fresh.occurrence ∧
      ∀ (other : Fresh) (r' : HttpRequest), r'.method = r.method → r'.path = r.path →
        r'.credential? = r.credential? →
        (HttpServer.handleApplications other r' c j).1 =
          .ok (e.response c.settings.publicBaseUrl other.occurrence) := by
  obtain ⟨e, refused, hparse, hgate⟩ := gate_of_denial hi h hdenies
  refine ⟨refused, turnsAway_of_gate hgate, ?_, fun other r' hmethod hpath htoken => ?_⟩
  · obtain ⟨k, -, hanswer⟩ := answer_of_gate_error hi hparse hgate fresh
    rw [hanswer] at h
    exact (Except.ok.inj h).symm
  · have hparse' : Endpoint.parse? r'.method (HttpServer.pathBelow r'.path) = some e := by
      rw [hmethod, hpath, hparse]
    have hgate' : j.gate c r' (e.scopes c.settings.authz) = .error refused := by
      rw [gate_congr hsecrets htoken hagrees, hgate]
    obtain ⟨k, -, hanswer⟩ := answer_of_gate_error hj hparse' hgate' other
    rw [hanswer]

end Answers

/-- Whoever asks for the applications, whatever is stored. Rows change only for a caller
that is let in for the scope that changes applications, and a caller that is not let in for
the one that reads them gets no answer to a `GET` but an error that tells nothing of what
is stored. And whoever is denied access in one installation is denied it in the same words
in every other one with the same secrets that agrees on the applications of the caller,
with whatever body. -/
theorem applications_are_guarded {server : HttpServer} {r : HttpRequest}
    (hpath : HttpServer.isApplicationsPath r.route = true) {c : Context} {i : Installation}
    (hi : i.grantCache.Agrees i.store) (fresh : Fresh) :
    ((server.handle fresh r c i).2.store ≠ i.store →
      i.LetsIn c r (c.settings.authz.createScope .ac)) ∧
    (r.method = "GET" → ¬ i.LetsIn c r c.settings.authz.readScopes →
      ∃ e : ApiError, e.TurnsAway (i.credential c r) ∧ (server.handle fresh r c i).1 =
        .ok (e.response c.settings.publicBaseUrl fresh.occurrence)) ∧
    ∀ j, j.grantCache.Agrees j.store → j.store.secret? = i.store.secret? →
      (∀ k, i.credential c r = .ok k → i.store.AgreesFor k.clientId j.store) →
      ∀ response, (server.handle fresh r c i).1 = .ok response →
        DeniesAccess response.status →
        ∃ e : ApiError, e.TurnsAway (i.credential c r) ∧
          response = e.response c.settings.publicBaseUrl fresh.occurrence ∧
          ∀ body other, (server.handle other { r with body := body } c j).1 =
            .ok (e.response c.settings.publicBaseUrl other.occurrence) := by
  obtain ⟨hmethod, hrest, htoken⟩ := limited_asks server r
  rw [handle_eq hpath, ← credential_congr rfl htoken]
  generalize server.limited r = limited at hmethod hrest htoken ⊢
  refine ⟨fun hchange => ?_, fun hget hout => ?_,
    fun j hj hsecrets hagrees response h hdenies => ?_⟩
  · exact (letsIn_congr htoken).1 (letsIn_of_change hi hchange)
  · exact turnsAway_of_get hi (hmethod.trans hget) (fun hin => hout ((letsIn_congr htoken).1 hin))
      fresh
  · obtain ⟨e, haway, hresponse, helsewhere⟩ := denial_elsewhere hi hj hsecrets hagrees h hdenies
    refine ⟨e, haway, hresponse, fun body other => ?_⟩
    obtain ⟨hmethod', hrest', htoken'⟩ := limited_asks server { r with body := body }
    have hpath' : HttpServer.isApplicationsPath
        (HttpRequest.route { r with body := body }) = true := hpath
    rw [handle_eq hpath']
    exact helsewhere other _ (hmethod'.trans hmethod.symm) (hrest'.trans hrest.symm)
      (htoken'.trans htoken.symm)

/-! ## A caller that is turned away -/

/-- A client that has a secret, and no application. -/
def porter : Token.Signer := ⟨"porter", "sleutel"⟩

/-- Where nothing is stored but the secret of the porter. -/
def lodge : Installation :=
  .start {} (({} : Store).saveSecret porter.clientId porter.secret)

/-- The same with an application, of which the porter does not know. -/
def staffedLodge : Installation :=
  ((AdministrationCommand.create "root" {
    label := "Root"
    clientIds := ["operator"]
    hasAllPermissions := true }).run Context.alone lodge).2

/-- A request of the porter to create an application. -/
def porterRequest : HttpRequest where
  method := "POST"
  path := HttpServer.applicationsPath
  authorization := some ("Bearer " ++ porter.sign 0 none none)

theorem credential?_porterRequest :
    porterRequest.credential? = some ("Bearer " ++ porter.sign 0 none none) := by
  refine Option.filter_eq_some_iff.2 ⟨rfl, List.all_eq_true.2 fun c hc => ?_⟩
  rw [String.toList_append, List.mem_append] at hc
  rcases hc with hc | hc
  · have hscheme : "Bearer ".toList.all HttpRequest.isHeaderChar = true := by decide
    exact List.all_eq_true.1 hscheme c hc
  · have hrange := Token.toNat_of_mem_sign porter 0 none none hc
    have hvisible : ' ' ≤ c ∧ c ≤ '~' :=
      ⟨(by decide : ' '.toNat ≤ 45).trans hrange.1, hrange.2.trans (by decide : 122 ≤ '~'.toNat)⟩
    rw [HttpRequest.isHeaderChar, decide_eq_true hvisible.1, decide_eq_true hvisible.2]
    exact Bool.or_true _

/-- The porter is known by what it signed. -/
theorem credential_porterRequest : lodge.credential Context.alone porterRequest =
    .ok ⟨"porter", 0, some "porter", some "", some ""⟩ := by
  have hclient : porter.clientId ≠ "" := by decide
  have hsecret : lodge.store.secret? porter.clientId = some porter.secret := by decide +kernel
  rw [Installation.credential, credential?_porterRequest, Token.authenticate_sign,
    Token.verify_sign porter none none hclient hsecret (by decide)]
  rfl

/-- The porter is denied access in the same words, whether there is an application or not,
and whether its request has a body or not. -/
theorem porter_denied_alike :
    let server : HttpServer := ⟨"http://localhost/", 1⟩
    let denial := ApiError.permissionDenied.response "http://localhost/" "occurrence"
    (server.handle ⟨"new", "occurrence"⟩ porterRequest Context.alone lodge).1 = .ok denial ∧
      (server.handle ⟨"new", "occurrence"⟩ { porterRequest with body := "\x7b" } Context.alone
        staffedLodge).1 = .ok denial := by
  intro server denial
  have hpath : HttpServer.isApplicationsPath porterRequest.route = true := by decide +kernel
  have hlodge : lodge.grantCache.Agrees lodge.store := GrantCache.Agrees.of_empty
  have hstaffed : staffedLodge.grantCache.Agrees staffedLodge.store := GrantCache.Agrees.of_empty
  have hparse : Endpoint.parse? porterRequest.method (HttpServer.pathBelow porterRequest.path) =
      some .create := by decide +kernel
  have hgate : lodge.gate Context.alone porterRequest
      (Endpoint.create.scopes Context.alone.settings.authz) = .error .permissionDenied := by
    have hdecision : lodge.decision Context.alone "porter"
        (Endpoint.create.scopes Context.alone.settings.authz) = .deny .noApplications := by
      decide +kernel
    rw [Installation.gate, credential_porterRequest]
    simp only [hdecision]
    rfl
  have hanswer : (server.handle ⟨"new", "occurrence"⟩ porterRequest Context.alone lodge).1 =
      .ok denial := by
    have hlimited : server.limited porterRequest = porterRequest := if_neg (by decide)
    obtain ⟨j, -, hj⟩ := answer_of_gate_error hlodge hparse hgate ⟨"new", "occurrence"⟩
    rw [handle_eq hpath, hlimited, hj]
    rfl
  have hagrees : ∀ k, lodge.credential Context.alone porterRequest = .ok k →
      lodge.store.AgreesFor k.clientId staffedLodge.store := by
    intro k hk
    rw [credential_porterRequest] at hk
    cases hk
    have hnone : lodge.store.clientApplications "porter" = [] := by decide +kernel
    have hnone' : staffedLodge.store.clientApplications "porter" = [] := by decide +kernel
    have htypes : staffedLodge.store.types = lodge.store.types := by decide +kernel
    refine ⟨hnone'.trans hnone.symm, ?_, fun d _ => by rw [htypes]⟩
    rw [hnone]
    exact fun a ha => nomatch ha
  have hsecrets : staffedLodge.store.secret? = lodge.store.secret? := by
    have hrows : staffedLodge.store.secrets = lodge.store.secrets := by decide +kernel
    funext clientId
    rw [Store.secret?, Store.secret?, hrows]
  obtain ⟨-, -, hdenied⟩ := applications_are_guarded (c := Context.alone) hpath hlodge
    ⟨"new", "occurrence"⟩
  obtain ⟨e, -, hsame, helsewhere⟩ :=
    hdenied staffedLodge hstaffed hsecrets hagrees denial hanswer (.inr rfl)
  refine ⟨hanswer, ?_⟩
  rw [hsame]
  exact helsewhere "\x7b" ⟨"new", "occurrence"⟩

end CaseAccess
