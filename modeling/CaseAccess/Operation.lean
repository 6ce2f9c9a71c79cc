import CaseAccess.ApiError
import CaseAccess.Catalog.Resolution
import CaseAccess.Config.Server
import CaseAccess.Notification
import CaseAccess.Permission.GrantCache
import CaseAccess.Store.Cases
import CaseAccess.Store.Grants

/-!
# Operations

An operation reads its context, changes the installation, and ends with a value or
with an error. What it changed before an error stays changed, except in a
transaction, which takes the store back to where it was; what the caches forgot
inside a transaction stays forgotten.
-/

namespace CaseAccess

/-- What an operation reads: how the installation is set up, what other catalogs
answer, and the time. -/
structure Context where
  settings : Settings
  bases : LocalBases
  services : ServiceMap
  /-- For how many seconds a fetched type is remembered. -/
  typeTtl : Nat
  /-- What a catalog says when a service is asked for an address. -/
  answer : ServiceConfig → String → CatalogAnswer
  now : Instant
  /-- Nanoseconds on a clock that does not go back. -/
  uptime : Nat := 0

/-- A request to a catalog: the root of the service, and the address. -/
structure Fetch where
  apiRoot : String
  url : String
  deriving DecidableEq, Repr

/-- What operations change. -/
structure Installation where
  store : Store := {}
  grantCache : GrantCache := {}
  typeCache : TypeCache := {}
  /-- The requests to other catalogs, in order. -/
  fetches : List Fetch := []
  /-- The notifications that were published, in order. -/
  outbox : List Notification := []
  deriving DecidableEq, Repr, Inhabited

def Operation (α : Type) := Context → Installation → Except ApiError α × Installation

namespace Operation

variable {α β : Type}

instance : Monad Operation where
  pure a := fun _ s => (.ok a, s)
  bind m f := fun c s =>
    match m c s with
    | (.ok a, s) => f a c s
    | (.error e, s) => (.error e, s)

instance : Inhabited (Operation α) := ⟨fun _ s => (.error default, s)⟩

/-- Ends with an error. -/
def fail (e : ApiError) : Operation α := fun _ s => (.error e, s)

/-- The value of a result. -/
def ofExcept : Except ApiError α → Operation α
  | .ok a => pure a
  | .error e => fail e

def context : Operation Context := fun c s => (.ok c, s)

/-- How an operation ends, with what it changed. -/
def attempt (m : Operation α) : Operation (Except ApiError α) := fun c s =>
  match m c s with
  | (r, s) => (.ok r, s)

/-- What a function reads from the store. -/
def reading (f : Store → α) : Operation α := fun _ s => (.ok (f s.store), s)

/-- What a function reads from the store; a fault of the store is no fault of the
caller. -/
def readingOr (f : Store → Except StoreFault α) : Operation α := fun _ s =>
  match f s.store with
  | .ok a => (.ok a, s)
  | .error _ => (.error .serverFault, s)

/-- Changes the store. -/
def changing (f : Store → Store) : Operation Unit := fun _ s =>
  (.ok (), { s with store := f s.store })

/-- Changes the store, by a function that also gives a value. -/
def changingWith (f : Store → α × Store) : Operation α := fun _ s =>
  match f s.store with
  | (a, store) => (.ok a, { s with store := store })

/-- Changes the store; a fault of the store is no fault of the caller. -/
def changingOr (f : Store → Except StoreFault Store) : Operation Unit := fun _ s =>
  match f s.store with
  | .ok store => (.ok (), { s with store := store })
  | .error _ => (.error .serverFault, s)

/-- Changes the store, by a function that also gives a value or fails. -/
def changingWithOr (f : Store → Except StoreFault (α × Store)) : Operation α := fun _ s =>
  match f s.store with
  | .ok (a, store) => (.ok a, { s with store := store })
  | .error _ => (.error .serverFault, s)

/-- An operation that leaves the store as it was if it ends with an error. -/
def transaction (m : Operation α) : Operation α := fun c s =>
  match m c s with
  | (.ok a, t) => (.ok a, t)
  | (.error e, t) => (.error e, { t with store := s.store })

def cachedGrants : Operation GrantCache := fun _ s => (.ok s.grantCache, s)

def changingCache (f : GrantCache → GrantCache) : Operation Unit := fun _ s =>
  (.ok (), { s with grantCache := f s.grantCache })

/-- Hands out notifications. -/
def publish (notifications : List Notification) : Operation Unit := fun _ s =>
  (.ok (), { s with outbox := s.outbox ++ notifications })

end Operation

end CaseAccess
