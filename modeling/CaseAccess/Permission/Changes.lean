import CaseAccess.Notification

/-!
# Permission changes

One operation may touch the permissions of several applications, and those of one
application more than once. The changes are collected as a table with one action
per application, the strongest that was recorded for it, and are announced in the
order of the applications.
-/

namespace CaseAccess

/-- The action that was recorded for each application. -/
structure PermissionChanges where
  actions : SortedMap String Action := {}
  deriving DecidableEq, Repr, Inhabited

namespace PermissionChanges

/-- The stronger of two actions. -/
def strongest (a b : Action) : Action :=
  if a.rank < b.rank then b else a

/-- Records what happened to an application. -/
def record (changes : PermissionChanges) (application : String) (action : Action) :
    PermissionChanges :=
  let recorded := match changes.actions.get? application with
    | some before => strongest before action
    | none => action
  ⟨changes.actions.insert application recorded⟩

/-- The changes of a list of records. -/
def ofList (records : List (String × Action)) : PermissionChanges :=
  records.foldl (fun changes r => changes.record r.1 r.2) {}

def isEmpty (changes : PermissionChanges) : Bool := changes.actions.isEmpty

/-- The applications that changed, in order. -/
def applications (changes : PermissionChanges) : List String := changes.actions.keys

/-- One notification per application. -/
def notifications (changes : PermissionChanges) (base : String) (now : Instant) :
    List Notification :=
  changes.actions.toList.map fun p => Notification.ofApplication base now p.1 p.2

theorem strongest_cases (a b : Action) : strongest a b = a ∨ strongest a b = b := by
  rw [strongest]
  split
  · exact .inr rfl
  · exact .inl rfl

theorem mem_of_mem_record {changes : PermissionChanges} {application : String} {action : Action}
    {p : String × Action} (h : p ∈ (changes.record application action).actions.toList) :
    p = (application, action) ∨ p ∈ changes.actions.toList := by
  rcases SortedMap.mem_of_mem_insert h with rfl | h
  · split
    · next before hbefore =>
        rcases strongest_cases before action with heq | heq
        · rw [heq]
          exact .inr (SortedMap.mem_of_get? hbefore)
        · exact .inl (by rw [heq])
    · exact .inl rfl
  · exact .inr h

theorem mem_applications_record {changes : PermissionChanges} {application uuid : String}
    {action : Action} :
    uuid ∈ (changes.record application action).applications ↔
      uuid = application ∨ uuid ∈ changes.applications :=
  SortedMap.mem_keys_insert

/-- What is collected for an application was recorded for it. -/
theorem mem_of_mem_ofList {records : List (String × Action)} {p : String × Action}
    (h : p ∈ (ofList records).actions.toList) : p ∈ records := by
  have hfold : ∀ changes : PermissionChanges,
      p ∈ (records.foldl (fun changes r => changes.record r.1 r.2) changes).actions.toList →
        p ∈ changes.actions.toList ∨ p ∈ records := by
    clear h
    induction records with
    | nil => exact fun _ => .inl
    | cons r rest ih =>
        intro changes hp
        rcases ih _ hp with hp | hp
        · rcases mem_of_mem_record hp with rfl | hp
          · exact .inr List.mem_cons_self
          · exact .inl hp
        · exact .inr (List.mem_cons_of_mem _ hp)
  rcases hfold {} h with h | h
  · cases h
  · exact h

/-- Every application that something was recorded for is among the changes. -/
theorem mem_applications_ofList {records : List (String × Action)} {uuid : String} :
    uuid ∈ (ofList records).applications ↔ uuid ∈ records.map (·.1) := by
  have hfold : ∀ changes : PermissionChanges,
      uuid ∈ (records.foldl (fun changes r => changes.record r.1 r.2) changes).applications ↔
        uuid ∈ changes.applications ∨ uuid ∈ records.map (·.1) := by
    induction records with
    | nil => simp
    | cons r rest ih =>
        intro changes
        rw [List.foldl_cons, ih, mem_applications_record, List.map_cons, List.mem_cons]
        rw [or_assoc, or_left_comm]
  have hempty : ¬ uuid ∈ ({} : PermissionChanges).applications := fun h => by cases h
  exact (hfold {}).trans (or_iff_right hempty)

end PermissionChanges

end CaseAccess
