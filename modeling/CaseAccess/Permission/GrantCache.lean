import CaseAccess.Application

/-!
# The grant cache

Decisions read the applications of a client and the grants of an application often,
so both are remembered once they have been read. What is remembered has no age: it
is dropped where it may no longer be true. A change of one application drops its
grants and the applications of every client, since client identifiers can move from
one application to another. A cache that is disabled remembers nothing.
-/

namespace CaseAccess

/-- The grants of an application for a component. -/
structure GrantSet where
  grants : List Grant := []
  catalogGrants : List CatalogGrant := []
  deriving DecidableEq, Repr, Inhabited

structure GrantCache where
  enabled : Bool := true
  /-- Applications, by client identifier. -/
  clients : List (String × List Application) := []
  /-- Grants, by application and component. -/
  sets : List ((String × Component) × GrantSet) := []
  deriving DecidableEq, Repr, Inhabited

namespace GrantCache

def applications? (c : GrantCache) (clientId : String) : Option (List Application) :=
  c.clients.lookup clientId

def grantSet? (c : GrantCache) (application : String) (component : Component) :
    Option GrantSet :=
  (c.sets.find? (·.1 = (application, component))).map (·.2)

def saveApplications (c : GrantCache) (clientId : String) (applications : List Application) :
    GrantCache :=
  if c.enabled then { c with clients := (clientId, applications) :: c.clients } else c

def saveGrantSet (c : GrantCache) (application : String) (component : Component)
    (set : GrantSet) : GrantCache :=
  if c.enabled then { c with sets := ((application, component), set) :: c.sets } else c

/-- Drops what a change of an application may have made untrue. -/
def invalidate (c : GrantCache) (application : String) : GrantCache :=
  { c with clients := [], sets := c.sets.filter (·.1.1 ≠ application) }

def clear (c : GrantCache) : GrantCache :=
  { c with clients := [], sets := [] }

end GrantCache

end CaseAccess
