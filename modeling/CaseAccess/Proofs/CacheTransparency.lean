import CaseAccess.Proofs.Atomicity
import CaseAccess.Proofs.CacheCoherence
import CaseAccess.Proofs.Verdict

/-!
# The grant cache is invisible

Nobody who asks an installation about access, or changes access, can tell from the
answers whether the grant cache is enabled. Two installations that differ only in what
they remember of grants, and remember nothing wrong, answer a call alike and differ
afterwards only in that again; so they answer a sequence of calls alike.

There are two reasons why a call does not tell. A change of the administration never
asks the cache, and its answer is a function of the store. A lookup does ask it, and an
entry that is found is what the store would have answered; after that it goes on
without the cache, to types and to other catalogs.
-/

namespace CaseAccess

open Operation

/-- Two installations that differ in nothing but what they remember of grants, which is
right in both. -/
structure Installation.Alike (i j : Installation) : Prop where
  left : i.Coherent
  right : j.Coherent
  others : ∃ g, j = { i with grantCache := g }

open Installation (Alike KeepsCoherence Steady)

namespace Operation

variable {α β : Type} {m : Operation α} {f : α → Operation β}

/-- Installations that are alike are told alike, and are alike afterwards. -/
def Transparent (m : Operation α) : Prop :=
  ∀ c i j, Alike i j → (m c i).1 = (m c j).1 ∧ Alike (m c i).2 (m c j).2

theorem transparent_pure (a : α) : Transparent (pure a) := fun _ _ _ h => ⟨rfl, h⟩

theorem transparent_bind (hm : Transparent m) (hf : ∀ a, Transparent (f a)) :
    Transparent (m >>= f) := by
  intro c i j hij
  obtain ⟨hanswer, hafter⟩ := hm c i j hij
  rw [bind_apply, bind_apply]
  rcases hi : m c i with ⟨x, i'⟩
  rcases hj : m c j with ⟨y, j'⟩
  rw [hi, hj] at hanswer hafter
  obtain rfl : x = y := hanswer
  cases x with
  | ok a => exact hf a c i' j' hafter
  | error e => exact ⟨rfl, hafter⟩

theorem Atomic.transparent (h : Atomic m) (hkeeps : Moves KeepsCoherence m) :
    Transparent m := by
  rintro c i j ⟨hi, hj, g, rfl⟩
  have hi' := hkeeps c i hi
  have hj' := hkeeps c { i with grantCache := g } hj
  obtain ⟨outcome, houtcome⟩ := h
  obtain ⟨g₁, h₁⟩ := houtcome c i
  obtain ⟨g₂, h₂⟩ := houtcome c { i with grantCache := g }
  rw [h₁] at hi' ⊢
  rw [h₂] at hj' ⊢
  -- Both begin with one store, so they come to one outcome.
  have hanswer : (settle i g₁ (outcome c i.store)).1 =
      (settle { i with grantCache := g } g₂ (outcome c i.store)).1 := by
    cases outcome c i.store with
    | ok p => rfl
    | error e => rfl
  refine ⟨hanswer, hi', hj', g₂, ?_⟩
  show (settle { i with grantCache := g } g₂ (outcome c i.store)).2 = _
  cases outcome c i.store with
  | ok p => rfl
  | error e => rfl

/-! ## Without the cache -/

/-- The grant cache is neither asked nor changed. -/
def Blind (m : Operation α) : Prop :=
  ∀ c i g, m c { i with grantCache := g } = ((m c i).1, { (m c i).2 with grantCache := g })

theorem blind_pure (a : α) : Blind (pure a) := fun _ _ _ => rfl

theorem blind_bind (hm : Blind m) (hf : ∀ a, Blind (f a)) : Blind (m >>= f) := by
  intro c i g
  rw [bind_apply, bind_apply, hm c i g]
  rcases m c i with ⟨e | a, j⟩
  · rfl
  · exact hf a c j g

theorem Blind.transparent (h : Blind m) (hsteady : MovesIn Steady m) : Transparent m := by
  rintro c i j ⟨hi, hj, g, rfl⟩
  have hkeeps := coherent_of_steady hsteady
  have hi' := hkeeps c i hi
  have hj' := hkeeps c { i with grantCache := g } hj
  rw [h c i g] at hj' ⊢
  exact ⟨rfl, hi', hj', g, rfl⟩

end Operation

theorem blind_fetchType (reference : TypeRef) (component : Component) :
    Blind (fetchType reference component) := by
  refine blind_bind (fun _ _ _ => rfl) fun c => ?_
  split
  · exact blind_pure _
  · exact blind_bind (fun _ _ _ => rfl) fun _ => blind_pure _

theorem blind_resolveRemote (reference : TypeRef) (component : Component) :
    Blind (resolveRemote reference component) := by
  refine blind_bind (fun _ _ _ => rfl) fun remembered => ?_
  split
  · exact blind_pure _
  · refine blind_bind (blind_fetchType reference component) fun fetched => ?_
    split
    · exact blind_bind (fun _ _ _ => rfl) fun _ => blind_pure _
    · exact blind_pure _

theorem blind_resolveType (reference : TypeRef) (component : Component) :
    Blind (resolveType reference component) := by
  have hresolve : Blind (resolve reference (some component)) := by
    rw [resolve]
    split
    · exact blind_resolveRemote _ _
    · exact fun _ _ _ => rfl
  refine blind_bind hresolve fun resolution => ?_
  split
  · exact blind_pure _
  · exact blind_pure _

theorem blind_resolution (s : Snapshot) (typeRef : TypeRef) (component : Component) :
    Blind (s.resolution typeRef component) := by
  rw [Snapshot.resolution]
  split
  · exact blind_resolveType _ _
  · exact blind_pure _

theorem blind_decideObject (s : Snapshot) (required : ScopeSet) (typeRef : TypeRef)
    (level : Option Confidentiality) (component : Component) :
    Blind (s.decideObject required typeRef level (s.resolution typeRef component)) := by
  rw [Snapshot.decideObject]
  split
  · exact blind_pure _
  · split
    · exact blind_pure _
    · exact blind_bind (blind_resolution s typeRef component) fun _ => blind_pure _

/-! ## Through the cache -/

/-- A lookup that gives what the store says, and at most remembers it. -/
theorem transparent_of_lookup {α : Type} {m : Operation α} (value : Store → α)
    (h : ∀ c i, i.grantCache.Agrees i.store → ∃ g : GrantCache, g.Agrees i.store ∧
      m c i = (.ok (value i.store), { i with grantCache := g })) : Transparent m := by
  rintro c i j ⟨hi, hj, g, rfl⟩
  obtain ⟨g₁, hg₁, h₁⟩ := h c i hi.agrees
  obtain ⟨g₂, hg₂, h₂⟩ := h c { i with grantCache := g } hj.agrees
  rw [h₁, h₂]
  exact ⟨rfl, ⟨hg₁, hi.grants, hi.catalogGrants⟩, ⟨hg₂, hi.grants, hi.catalogGrants⟩, g₂, rfl⟩

theorem transparent_clientApplications (clientId : String) :
    Transparent (clientApplications clientId) :=
  transparent_of_lookup (·.clientApplications clientId) fun _ _ h =>
    clientApplications_eq h clientId

theorem transparent_grantSet (application : String) (component : Component) :
    Transparent (grantSet application component) :=
  transparent_of_lookup (·.grantSet application component) fun _ _ h =>
    grantSet_eq h application component

theorem transparent_snapshot (applications : List Application) (component : Component)
    (typeRef : Option TypeRef) :
    Transparent (CaseAccess.snapshot applications component typeRef) :=
  transparent_of_lookup (·.snapshot applications component typeRef) fun _ _ h =>
    snapshot_eq h applications component typeRef

theorem transparent_decide (r : AccessRequest) (applications : List Application) :
    Transparent (r.decide applications) := by
  rw [AccessRequest.decide]
  split
  · exact transparent_pure _
  · split
    · exact transparent_pure _
    · split
      · exact transparent_pure _
      · split
        · exact transparent_pure _
        · next component hcomponent =>
            refine transparent_bind (transparent_snapshot _ _ _) fun s => ?_
            split
            · exact transparent_pure _
            · next typeRef htype =>
                have hresolution := resolution_steady s typeRef component
                exact (blind_decideObject s _ typeRef _ component).transparent
                  (decideObject_steady s _ typeRef _ hresolution)

/-! ## Calls -/

/-- A change of access, or a question about it, with its input. -/
inductive AccessCall where
  | administration (command : AdministrationCommand)
  | clientApplications (clientId : String)
  | grantSet (application : String) (component : Component)
  | snapshot (applications : List Application) (component : Component) (typeRef : Option TypeRef)
  | decide (request : AccessRequest) (applications : List Application)

/-- What a call is answered with. -/
inductive Reply where
  | done
  | view (view : ApplicationView)
  | grant (g : Grant)
  | catalogGrant (g : CatalogGrant)
  | applications (applications : List Application)
  | grantSet (set : GrantSet)
  | snapshot (s : Snapshot)
  | decision (d : Decision)
  deriving DecidableEq

open Administration in
/-- A command, with what it gives back. -/
def AdministrationCommand.answer : AdministrationCommand → Operation Reply
  | .create uuid body => return .view (← createApplication uuid body)
  | .replace uuid body => return .view (← replaceApplication uuid body)
  | .patch uuid change => return .view (← patchApplication uuid change)
  | .delete uuid => do deleteApplication uuid; return .done
  | .addGrant g => return .grant (← Administration.addGrant g)
  | .revokeGrant id => return .grant (← Administration.revokeGrant id)
  | .addCatalogGrant g => return .catalogGrant (← Administration.addCatalogGrant g)
  | .revokeCatalogGrant id => return .catalogGrant (← Administration.revokeCatalogGrant id)
  | .registerTypes definitions => do Administration.registerTypes definitions; return .done

def AccessCall.answer : AccessCall → Operation Reply
  | .administration command => command.answer
  | .clientApplications clientId => return .applications (← CaseAccess.clientApplications clientId)
  | .grantSet application component => do
      return .grantSet (← CaseAccess.grantSet application component)
  | .snapshot applications component typeRef => do
      return .snapshot (← CaseAccess.snapshot applications component typeRef)
  | .decide request applications => return .decision (← request.decide applications)

theorem transparent_command (command : AdministrationCommand) : Transparent command.answer := by
  have hanswer : ∀ {α : Type} {m : Operation α} (reply : α → Reply), Atomic m →
      Moves KeepsCoherence m → Transparent (m >>= fun a => pure (reply a)) :=
    fun reply hm hkeeps => transparent_bind (hm.transparent hkeeps) fun _ => transparent_pure _
  open Administration in
  cases command with
  | create uuid body =>
      exact hanswer .view (atomic_createApplication uuid body)
        (coherent_createApplication uuid body)
  | replace uuid body =>
      exact hanswer .view (atomic_replaceApplication uuid body)
        (coherent_replaceApplication uuid body)
  | patch uuid change =>
      exact hanswer .view (atomic_patchApplication uuid change)
        (coherent_patchApplication uuid change)
  | delete uuid =>
      exact hanswer (fun _ => .done) (atomic_deleteApplication uuid)
        (coherent_deleteApplication uuid)
  | addGrant g => exact hanswer .grant (atomic_addGrant g) (coherent_addGrant g)
  | revokeGrant id => exact hanswer .grant (atomic_revokeGrant id) (coherent_revokeGrant id)
  | addCatalogGrant g =>
      exact hanswer .catalogGrant (atomic_addCatalogGrant g) (coherent_addCatalogGrant g)
  | revokeCatalogGrant id =>
      exact hanswer .catalogGrant (atomic_revokeCatalogGrant id) (coherent_revokeCatalogGrant id)
  | registerTypes definitions =>
      exact hanswer (fun _ => .done) (atomic_registerTypes definitions)
        (coherent_registerTypes definitions)

theorem transparent_call (call : AccessCall) : Transparent call.answer := by
  cases call with
  | administration command => exact transparent_command command
  | clientApplications clientId =>
      exact transparent_bind (transparent_clientApplications clientId) fun _ => transparent_pure _
  | grantSet application component =>
      exact transparent_bind (transparent_grantSet application component) fun _ =>
        transparent_pure _
  | snapshot applications component typeRef =>
      exact transparent_bind (transparent_snapshot applications component typeRef) fun _ =>
        transparent_pure _
  | decide request applications =>
      exact transparent_bind (transparent_decide request applications) fun _ => transparent_pure _

/-! ## Sequences of calls -/

/-- The answers to calls, each in its own context, and the installation after them. -/
def answers : List (Context × AccessCall) → Installation →
    List (Except ApiError Reply) × Installation
  | [], i => ([], i)
  | (c, call) :: rest, i =>
      let (reply, j) := call.answer c i
      let (replies, k) := answers rest j
      (reply :: replies, k)

theorem answers_alike (calls : List (Context × AccessCall)) {i j : Installation}
    (h : Alike i j) :
    (answers calls i).1 = (answers calls j).1 ∧ Alike (answers calls i).2 (answers calls j).2 := by
  induction calls generalizing i j with
  | nil => exact ⟨rfl, h⟩
  | cons p rest ih =>
      obtain ⟨c, call⟩ := p
      obtain ⟨hreply, hafter⟩ := transparent_call call c i j h
      obtain ⟨hreplies, hend⟩ := ih hafter
      refine ⟨?_, hend⟩
      show (call.answer c i).1 :: _ = (call.answer c j).1 :: _
      rw [hreply]
      exact congrArg _ hreplies

/-! ## From the start -/

/-- The configuration with the cache enabled or disabled. -/
def ServerConfig.caching (config : ServerConfig) (enabled : Bool) : ServerConfig :=
  { config with storage.cache.enable := enabled }

theorem start_alike (config : ServerConfig) :
    Alike (Installation.start (config.caching true) {})
      (Installation.start (config.caching false) {}) :=
  ⟨coherent_start _ (.of_empty rfl) (.of_empty rfl),
    coherent_start _ (.of_empty rfl) (.of_empty rfl), { enabled := false }, rfl⟩

/-- The answers of an installation that starts with an empty store, with the cache
enabled or disabled, and the installation after them. -/
def session (config : ServerConfig) (enabled : Bool) (calls : List (Context × AccessCall)) :
    List (Except ApiError Reply) × Installation :=
  answers calls (Installation.start (config.caching enabled) {})

/-- Whatever is asked and changed, and in whatever contexts: every answer is the same
with the grant cache and without it, and so is everything that is kept beside it. All
that is remembered of a client is what the store says of its applications, and all that
is remembered of an application is what the store says of its grants. -/
theorem grant_cache_is_invisible (config : ServerConfig) (calls : List (Context × AccessCall)) :
    (session config true calls).1 = (session config false calls).1 ∧
      (∃ g, (session config false calls).2 =
        { (session config true calls).2 with grantCache := g }) ∧
      ∀ enabled,
        (session config enabled calls).2.grantCache.Agrees
          (session config enabled calls).2.store := by
  obtain ⟨hreplies, hend⟩ := answers_alike calls (start_alike config)
  refine ⟨hreplies, hend.others, fun enabled => ?_⟩
  cases enabled with
  | true => exact hend.left.agrees
  | false => exact hend.right.agrees

-- That a client has no applications is remembered too, and found the next time.
example :
    (session {} true [(Context.alone, .clientApplications "nobody")]).2.grantCache.applications?
      "nobody" = some [] := by decide +kernel

end CaseAccess
