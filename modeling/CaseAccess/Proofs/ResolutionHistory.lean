import CaseAccess.Proofs.DocumentDefinition
import CaseAccess.Proofs.Verdict

/-!
# Resolving has no history

Definitions from other catalogs are remembered, and are asked for as types of one
component, as types of another, or without saying which. Still, as long as the catalogs
answer as they did, what a reference resolves to does not depend on what was asked and
forgotten before, when it was, or for how long definitions are remembered: it is what a
resolver that remembers nothing gives.

The reason is that a definition is remembered under all that it depends on, its address
and the component it was fetched for. So every entry is what its catalog answers for
just these two; `Faithful` says so. It says nothing of ages: an entry that is too old
is not used, but it is not wrong. A failure has no entry, and the next lookup of its
reference asks the catalog again.
-/

namespace CaseAccess

open Operation

/-- The same services answer the same, to the same installation. -/
structure Context.SameCatalogs (c c' : Context) : Prop where
  services : c.services = c'.services
  answer : c.answer = c'.answer
  bases : c.bases = c'.bases

theorem Context.SameCatalogs.fetched {c c' : Context} (h : c.SameCatalogs c') :
    c.fetched = c'.fetched := by
  funext reference component
  rw [Context.fetched, Context.fetched, h.services, h.answer, h.bases]

/-! ## What is remembered -/

/-- Whatever is remembered is what the catalogs answer. -/
def TypeCache.Faithful (c : Context) (types : TypeCache) : Prop :=
  ∀ e ∈ types.entries, c.fetched ⟨e.1.1⟩ e.1.2 = .ok e.2.definition

namespace TypeCache.Faithful

variable {c c' : Context} {types : TypeCache}

theorem of_empty : Faithful c {} := fun e he => by cases he

theorem congr (h : types.Faithful c) (hsame : c.SameCatalogs c') : types.Faithful c' := by
  rw [Faithful, ← hsame.fetched]
  exact h

theorem save (h : types.Faithful c) {reference : TypeRef} {component : Component}
    {d : TypeDefinition} (hfetched : c.fetched reference component = .ok d) (uptime : Nat) :
    (types.save uptime reference.key component d).Faithful c := by
  intro e he
  rcases List.mem_cons.1 he with rfl | he
  · exact hfetched
  · exact h e (List.mem_filter.1 he).1

theorem invalidate (h : types.Faithful c) (url : String) : (types.invalidate url).Faithful c :=
  fun e he => h e (List.mem_filter.1 he).1

theorem get? (h : types.Faithful c) {ttl uptime : Nat} {reference : TypeRef}
    {component : Component} {d : TypeDefinition}
    (hget : types.get? ttl uptime reference.key component = some d) :
    c.fetched reference component = .ok d := by
  rw [TypeCache.get?] at hget
  split at hget
  · next key cached hfind =>
      split at hget
      · cases hget
        have hkey : key = (reference.key, component) := by simpa using List.find?_some hfind
        have hentry := h _ (List.mem_of_find?_eq_some hfind)
        rw [hkey] at hentry
        exact hentry
      · cases hget
  · cases hget

/-- A cache that is faithful makes no difference. -/
theorem remoteResolution_eq (h : types.Faithful c) (reference : TypeRef)
    (component : Component) : c.remoteResolution types reference component =
      c.fetched reference component := by
  rw [Context.remoteResolution]
  cases hget : types.get? c.typeTtl c.uptime reference.key component with
  | some d => exact (h.get? hget).symm
  | none => rfl

theorem anyResolution_eq (h : types.Faithful c) (s : Store) (reference : TypeRef)
    (asked : Option Component) :
    c.anyResolution s types reference asked = c.anyResolution s {} reference asked := by
  rw [Context.anyResolution, Context.anyResolution, h.remoteResolution_eq,
    of_empty.remoteResolution_eq]

theorem resolution_eq (h : types.Faithful c) (s : Store) (reference : TypeRef)
    (component : Component) :
    c.resolution s types reference component = c.resolution s {} reference component := by
  rw [Context.resolution, Context.resolution, h.anyResolution_eq]

end TypeCache.Faithful

/-- While things are looked up, the store stays, and what is remembered stays faithful. -/
structure Installation.Learns (c : Context) (i j : Installation) : Prop where
  store : j.store = i.store
  faithful : i.typeCache.Faithful c → j.typeCache.Faithful c

open Installation (Learns)

instance (c : Context) : IsPreorder Installation (Learns c) where
  refl _ := ⟨rfl, id⟩
  trans _ _ _ h₁ h₂ := ⟨h₂.store.trans h₁.store, h₂.faithful ∘ h₁.faithful⟩

theorem learns_resolveRemote (reference : TypeRef) (component : Component) :
    MovesIn Learns (resolveRemote reference component) := by
  intro c i
  have h : rememberedType? reference.key component c i =
    (.ok (i.typeCache.get? c.typeTtl c.uptime reference.key component), i) := rfl
  rw [resolveRemote, bind_of_ok h]
  cases i.typeCache.get? c.typeTtl c.uptime reference.key component with
  | some d => exact refl_of (Learns c) i
  | none =>
      obtain ⟨fetches, hj⟩ := fetchType_ok reference component c i
      show Learns c i ((fetchType reference component >>= _) c i).2
      rw [bind_of_ok hj]
      cases hfetched : c.fetched reference component with
      | error why => exact ⟨rfl, id⟩
      | ok d => exact ⟨rfl, fun hi => hi.save hfetched c.uptime⟩

theorem learns_resolve (reference : TypeRef) (asked : Option Component) :
    MovesIn Learns (resolve reference asked) := by
  rw [resolve]
  split
  · exact learns_resolveRemote _ _
  · exact fun c i => refl_of (Learns c) i

/-! ## What is resolved -/

/-- Neither the reference nor the component is the document's to say. -/
theorem header_of_fetched {c : Context} {reference : TypeRef} {component : Component}
    {d : TypeDefinition} (h : c.fetched reference component = .ok d) :
    d.reference = reference ∧ d.component = component := by
  obtain ⟨-, -, -, hreference, hcomponent, -⟩ := Context.defines_of_fetched h
  exact ⟨hreference, hcomponent⟩

theorem reference_of_anyResolution {c : Context} {s : Store} {reference : TypeRef}
    {asked : Option Component} {d : TypeDefinition}
    (h : c.anyResolution s {} reference asked = .ok d) : d.reference = reference := by
  rw [Context.anyResolution, TypeCache.Faithful.of_empty.remoteResolution_eq] at h
  split at h
  · exact (header_of_fetched h).1
  · rw [Store.resolution] at h
    split at h
    · next hheld =>
        cases h
        exact Table.key_of_get? hheld
    · cases h

/-- What resolves as a type of a component is that, and has the reference it was asked
for with. -/
theorem header_of_resolution {c : Context} {s : Store} {reference : TypeRef}
    {component : Component} {d : TypeDefinition}
    (h : c.resolution s {} reference component = .ok d) :
    d.reference = reference ∧ d.component = component := by
  rw [Context.resolution] at h
  split at h
  · next d' hany =>
      rw [TypeDefinition.asComponent] at h
      split at h
      · next hcomponent =>
          cases h
          exact ⟨reference_of_anyResolution hany, hcomponent⟩
      · cases h
  · cases h

/-! ## Calls -/

/-- What can be asked of what resolves types, or told. -/
inductive ResolverCall where
  | resolveType (reference : TypeRef) (component : Component)
  | relatedTypes (reference : TypeRef) (relation : Relation)
  | invalidate (url : String)
  | clear

/-- What a call is answered with. -/
inductive ResolverReply where
  | resolution (r : Resolution)
  | related (references : Option (SortedSet TypeRef))
  | done

namespace ResolverCall

def answer : ResolverCall → Operation ResolverReply
  | resolveType reference component => do
      return .resolution (← CaseAccess.resolveType reference component)
  | relatedTypes reference relation => do
      return .related (← CaseAccess.relatedTypes reference relation)
  | invalidate url => do invalidateType url; return .done
  | clear => do clearTypes; return .done

/-- The reference and the component that a call looks up. -/
def lookedUp? : ResolverCall → Option (TypeRef × Component)
  | resolveType reference component => some (reference, componentOf reference (some component))
  | relatedTypes reference _ => some (reference, componentOf reference none)
  | invalidate _ => none
  | clear => none

/-- What a call is answered with when nothing is remembered. -/
def freshReply (c : Context) (s : Store) : ResolverCall → ResolverReply
  | resolveType reference component => .resolution (c.resolution s {} reference component)
  | relatedTypes reference relation =>
      .related ((c.anyResolution s {} reference none).toOption.map (·.related relation))
  | invalidate _ => .done
  | clear => .done

theorem learns_answer (call : ResolverCall) : MovesIn Learns call.answer := by
  cases call with
  | resolveType reference component =>
      refine movesIn_bind (movesIn_bind (learns_resolve _ _) fun resolution => ?_) fun _ =>
        movesIn_pure _
      split
      · exact movesIn_pure _
      · exact movesIn_pure _
  | relatedTypes reference relation =>
      refine movesIn_bind (movesIn_bind (learns_resolve _ _) fun resolution => ?_) fun _ =>
        movesIn_pure _
      split
      · exact movesIn_pure _
      · exact movesIn_pure _
  | invalidate url => exact fun c i => ⟨rfl, fun hi => hi.invalidate url⟩
  | clear => exact fun c i => ⟨rfl, fun _ => .of_empty⟩

/-- From a faithful cache, a call is answered as from an empty one. -/
theorem answer_eq {c : Context} {i : Installation} (hi : i.typeCache.Faithful c)
    (call : ResolverCall) : (call.answer c i).1 = .ok (call.freshReply c i.store) := by
  cases call with
  | resolveType reference component =>
      obtain ⟨j, hj⟩ := resolveType_ok reference component c i
      rw [answer, bind_of_ok hj, freshReply, hi.resolution_eq]
      rfl
  | relatedTypes reference relation =>
      obtain ⟨j, hj⟩ := resolve_ok reference none c i
      rw [answer, freshReply, CaseAccess.relatedTypes, bind_apply, bind_of_ok hj,
        hi.anyResolution_eq]
      cases c.anyResolution i.store {} reference none with
      | ok d => rfl
      | error why => rfl
  | invalidate url => rfl
  | clear => rfl

/-- Looking a reference up where its catalog does not give a definition leaves nothing
but a request to the catalog. -/
theorem answer_of_failure {c : Context} {i : Installation} (hi : i.typeCache.Faithful c)
    {call : ResolverCall} {reference : TypeRef} {component : Component} {why : Unresolved}
    {service : ServiceConfig} (hcall : call.lookedUp? = some (reference, component))
    (hremote : reference.isRemote = true) (hservice : c.services.find? reference.key = some service)
    (hwhy : c.fetched reference component = .error why) :
    (call.answer c i).2 = { i with fetches := i.fetches ++ [⟨service.apiRoot, reference.key⟩] } := by
  have hresolve : resolveRemote reference component c i =
      (.ok (.error why), { i with fetches := i.fetches ++ [⟨service.apiRoot, reference.key⟩] }) := by
    have hremembered : rememberedType? reference.key component c i = (.ok none, i) := by
      rw [rememberedType?]
      cases hget : i.typeCache.get? c.typeTtl c.uptime reference.key component with
      | none => rfl
      | some d =>
          have hfetched := hi.get? hget
          rw [hwhy] at hfetched
          cases hfetched
    have hfetch : fetchType reference component c i =
        (.ok (c.fetched reference component),
          { i with fetches := i.fetches ++ [⟨service.apiRoot, reference.key⟩] }) := by
      rw [fetchType, bind_context, Context.fetched, hservice]
      rfl
    rw [resolveRemote, bind_of_ok hremembered]
    show (fetchType reference component >>= _) c i = _
    rw [bind_of_ok hfetch, hwhy]
    rfl
  cases call with
  | resolveType reference' component' =>
      cases hcall
      rw [answer, CaseAccess.resolveType, resolve, if_pos hremote, bind_apply, bind_of_ok hresolve]
      rfl
  | relatedTypes reference' relation =>
      cases hcall
      rw [answer, CaseAccess.relatedTypes, resolve, if_pos hremote, bind_apply,
        bind_of_ok hresolve]
      rfl
  | invalidate url => cases hcall
  | clear => cases hcall

/-- The installation after calls, each in its own context. -/
def after : List (Context × ResolverCall) → Installation → Installation
  | [], i => i
  | (c, call) :: rest, i => after rest (call.answer c i).2

theorem learns_after {c : Context} {calls : List (Context × ResolverCall)}
    (hcalls : ∀ p ∈ calls, p.1.SameCatalogs c) (i : Installation) : Learns c i (after calls i) := by
  induction calls generalizing i with
  | nil => exact refl_of (Learns c) i
  | cons p rest ih =>
      obtain ⟨c', call⟩ := p
      have hsame : c'.SameCatalogs c := hcalls (c', call) (by simp)
      have hback : c.SameCatalogs c' := ⟨hsame.services.symm, hsame.answer.symm, hsame.bases.symm⟩
      have hstep := learns_answer call c' i
      have hrest := ih (fun p hp => hcalls p (List.mem_cons_of_mem _ hp)) (call.answer c' i).2
      exact ⟨hrest.store.trans hstep.store, fun hi =>
        hrest.faithful ((hstep.faithful (hi.congr hback)).congr hsame)⟩

end ResolverCall

open ResolverCall (after)

/-- Whatever was asked and forgotten before, at any times and with any lifetimes, as long
as the catalogs answer the same: a call is answered as by a resolver that remembers
nothing; what resolves as a type of a component is one of that component, with the
reference it was asked for with; and a lookup that fails changes nothing but that its
catalog was asked once more. -/
theorem resolving_has_no_history (c : Context) {i : Installation} (hfresh : i.typeCache = {})
    {calls : List (Context × ResolverCall)} (hcalls : ∀ p ∈ calls, p.1.SameCatalogs c) :
    (∀ call : ResolverCall, ∃ reply, (call.answer c (after calls i)).1 = .ok reply ∧
      (call.answer c i).1 = .ok reply) ∧
    (∀ reference component, ∃ resolution,
      (resolveType reference component c (after calls i)).1 = .ok resolution ∧
        ∀ d, resolution = .ok d → d.reference = reference ∧ d.component = component) ∧
    ∀ (call : ResolverCall) reference component service why,
      call.lookedUp? = some (reference, component) → reference.isRemote = true →
      c.services.find? reference.key = some service →
      c.fetched reference component = .error why →
      (call.answer c (after calls i)).2 = { after calls i with
        fetches := (after calls i).fetches ++ [⟨service.apiRoot, reference.key⟩] } := by
  have hi : i.typeCache.Faithful c := by
    rw [hfresh]
    exact .of_empty
  have hlearns := ResolverCall.learns_after hcalls i
  have hj := hlearns.faithful hi
  refine ⟨fun call => ⟨call.freshReply c i.store, ?_, call.answer_eq hi⟩,
    fun reference component => ?_, fun call reference component service why hcall hremote
      hservice hwhy => ResolverCall.answer_of_failure hj hcall hremote hservice hwhy⟩
  · rw [call.answer_eq hj, hlearns.store]
  · obtain ⟨k, hk⟩ := resolveType_ok reference component c (after calls i)
    refine ⟨_, by rw [hk], fun d hd => ?_⟩
    rw [hj.resolution_eq] at hd
    exact header_of_resolution hd

/-! ## A type of no collection -/

/-- A context in which a catalog knows one type, at an address that tells no component,
and fails on every other address. -/
def Context.withCatalog : Context :=
  { Context.alone with
    services := ⟨[{ apiRoot := "http://far.example/" }]⟩
    answer := fun _ url =>
      if url = "http://far.example/types/1" then .found { url := url }
      else .failed "connection refused" }

def farType : TypeRef := ⟨"http://far.example/types/1"⟩

def brokenType : TypeRef := ⟨"http://far.example/types/2"⟩

/-- The type is resolved as one of documents, as one of cases and as one of neither,
forgotten and resolved again, with a lookup that fails in between. -/
def farTypeHistory : List (Context × ResolverCall) := [
  (Context.withCatalog, .resolveType farType .drc),
  (Context.withCatalog, .resolveType brokenType .drc),
  (Context.withCatalog, .relatedTypes farType .status),
  (Context.withCatalog, .invalidate farType.key),
  ({ Context.withCatalog with typeTtl := 0, uptime := 1000 }, .resolveType farType .brc)]

theorem farType_as_case_type : ({} : Installation).typeCache = {} ∧
    (∀ p ∈ farTypeHistory, p.1.SameCatalogs Context.withCatalog) ∧
    (∃ reply, ((ResolverCall.resolveType farType .zrc).answer Context.withCatalog
        (after farTypeHistory {})).1 = .ok reply ∧
      ((ResolverCall.resolveType farType .zrc).answer Context.withCatalog {}).1 = .ok reply) ∧
    ((ResolverCall.resolveType brokenType .zrc).answer Context.withCatalog
        (after farTypeHistory {})).2 = { after farTypeHistory {} with
      fetches := (after farTypeHistory {}).fetches ++
        [⟨"http://far.example/", "http://far.example/types/2"⟩] } := by
  have hfresh : ({} : Installation).typeCache = {} := rfl
  have hcalls : ∀ p ∈ farTypeHistory, p.1.SameCatalogs Context.withCatalog := by
    intro p hp
    simp only [farTypeHistory, List.mem_cons, List.not_mem_nil, or_false] at hp
    rcases hp with rfl | rfl | rfl | rfl | rfl <;> exact ⟨rfl, rfl, rfl⟩
  have hcomponent : componentOf brokenType (some .zrc) = .zrc := by
    have hurl : Component.ofTypeUrl? brokenType.key = none := by decide +kernel
    rw [componentOf, hurl]
    rfl
  have hservice : Context.withCatalog.services.find? brokenType.key =
      some { apiRoot := "http://far.example/" } := by decide
  have hwhy : Context.withCatalog.fetched brokenType .zrc =
      .error (.fetchFailed "connection refused") := by
    rw [Context.fetched, hservice]
    rfl
  obtain ⟨hreply, -, hfailure⟩ := resolving_has_no_history Context.withCatalog hfresh hcalls
  refine ⟨hfresh, hcalls, hreply _, hfailure _ brokenType .zrc _ _ ?_ (by decide) hservice hwhy⟩
  rw [ResolverCall.lookedUp?, hcomponent]

end CaseAccess
