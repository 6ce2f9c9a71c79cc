import CaseAccess.Permission.Changes
import CaseAccess.Proofs.ByteOrder
import Mathlib.Data.List.Induction
import Mathlib.Data.List.Nodup
import Mathlib.Tactic.SplitIfs

/-!
# What is told of many changes

One command may name an application many times, and in the order in which it came across it.
None of this is seen by those who are told: an application is told of once, with the strongest
action that was recorded for it, and the applications come in the order of their bytes.

`strongest?` says what that action is without going through the records one by one, and so
without their order or their number. That the table holds it after every record is
`get?_ofList`, by induction on the records; the step is that one record more changes the entry
of its own application, and the strongest action of it in the same way.
-/

namespace CaseAccess.PermissionChanges

/-- The strongest action that is recorded for an application, if there is one: that it is gone
counts for more than that it is new, and that for more than that it changed. -/
def strongest? (records : List (String × Action)) (uuid : String) : Option Action :=
  if (uuid, .destroy) ∈ records then some .destroy
  else if (uuid, .create) ∈ records then some .create
  else if (uuid, .update) ∈ records then some .update
  else none

variable {records others : List (String × Action)} {uuid : String}

/-- It matters what is recorded, and not where or how often. -/
theorem strongest?_congr (h : ∀ r, r ∈ others ↔ r ∈ records) (uuid : String) :
    strongest? others uuid = strongest? records uuid := by
  simp only [strongest?, h]

/-- A record counts for its own application, beside what was recorded for it before. -/
theorem strongest?_concat (records : List (String × Action)) (r : String × Action)
    (uuid : String) :
    strongest? (records ++ [r]) uuid =
      if uuid = r.1 then some ((strongest? records r.1).elim r.2 (strongest · r.2))
      else strongest? records uuid := by
  obtain ⟨application, action⟩ := r
  simp only [strongest?, List.mem_append, List.mem_singleton, Prod.mk.injEq]
  by_cases happlication : uuid = application
  · subst happlication
    cases action
    all_goals
      simp only [true_and, reduceCtorEq, or_false, or_true, if_true]
      split_ifs
      all_goals rfl
  · simp [happlication]

theorem get?_record (changes : PermissionChanges) (application : String) (action : Action)
    (uuid : String) :
    (changes.record application action).actions.get? uuid =
      if uuid = application then
        some ((changes.actions.get? application).elim action (strongest · action))
      else changes.actions.get? uuid := by
  rw [record, SortedMap.get?_insert]
  cases changes.actions.get? application
  · rfl
  · rfl

/-- What is collected for an application is the strongest action that is recorded for it. -/
theorem get?_ofList (records : List (String × Action)) (uuid : String) :
    (ofList records).actions.get? uuid = strongest? records uuid := by
  induction records using List.reverseRecOn generalizing uuid with
  | nil => rfl
  | append_singleton records r ih =>
      have hstep : ofList (records ++ [r]) = (ofList records).record r.1 r.2 := by
        rw [ofList, List.foldl_append]
        rfl
      rw [hstep, get?_record, strongest?_concat, ih, ih]

/-- The same records in another order, or some of them again, are the same changes. -/
theorem ofList_congr (h : ∀ r, r ∈ others ↔ r ∈ records) : ofList others = ofList records := by
  have hactions : (ofList others).actions = (ofList records).actions :=
    SortedMap.ext_get? fun uuid => by rw [get?_ofList, get?_ofList, strongest?_congr h]
  exact congrArg PermissionChanges.mk hactions

theorem nodup_resourceUrl (changes : PermissionChanges) (base : String) (now : Instant) :
    ((changes.notifications base now).map (·.resourceUrl)).Nodup := by
  have hurls : (changes.notifications base now).map (·.resourceUrl) =
      changes.applications.map (applicationUrl base) := by
    rw [notifications, applications, SortedMap.keys, List.map_map, List.map_map]
    rfl
  rw [hurls]
  exact changes.actions.nodup_keys.map (applicationUrl_injective base)

/-- Of any records each application is told of once, under an address of its own, with the
strongest action that is recorded for it, and in the order of the bytes of the uuids. So the
same is told of records in another order, or of records some of which are repeated. -/
theorem changes_are_told_once (records : List (String × Action)) (base : String)
    (now : Instant) :
    (∃ told : List (String × Action),
      (ofList records).notifications base now =
        told.map (fun t => .ofApplication base now t.1 t.2) ∧
      told.Pairwise (fun a b => Utf8.encode a.1 < Utf8.encode b.1) ∧
      (∀ uuid, uuid ∈ told.map (·.1) ↔ uuid ∈ records.map (·.1)) ∧
      ∀ uuid action, (uuid, action) ∈ told ↔ strongest? records uuid = some action) ∧
    (((ofList records).notifications base now).map (·.resourceUrl)).Nodup ∧
    ∀ others : List (String × Action), (∀ r, r ∈ others ↔ r ∈ records) →
      (ofList others).notifications base now = (ofList records).notifications base now := by
  refine ⟨⟨(ofList records).actions.toList, rfl, ?_, fun _ => mem_applications_ofList, ?_⟩,
    nodup_resourceUrl _ base now, fun others h => by rw [ofList_congr h]⟩
  · exact (ofList records).actions.sorted.imp Utf8.encode_lt_encode
  · intro uuid action
    rw [← get?_ofList, SortedMap.get?_eq_some_iff]

/-- The archive is opened and the desk is closed, and both are changed besides. -/
def mixedRecords : List (String × Action) :=
  [("desk", .update), ("archive", .create), ("desk", .destroy), ("archive", .update)]

/-- The same in another order, and the end of the desk told twice. -/
def shuffledRecords : List (String × Action) :=
  [("desk", .destroy), ("archive", .update), ("desk", .destroy), ("desk", .update),
    ("archive", .create)]

theorem shuffled_records_are_told_alike :
    (∀ r, r ∈ shuffledRecords ↔ r ∈ mixedRecords) ∧
      (ofList shuffledRecords).notifications "http://ac" .epoch =
        (ofList mixedRecords).notifications "http://ac" .epoch ∧
      ((ofList mixedRecords).notifications "http://ac" .epoch).map
          (fun n => (n.resourceUrl, n.action)) =
        [("http://ac/autorisaties/api/v1/applicaties/archive", .create),
          ("http://ac/autorisaties/api/v1/applicaties/desk", .destroy)] := by
  have hback : ∀ r ∈ shuffledRecords, r ∈ mixedRecords := by decide
  have hforth : ∀ r ∈ mixedRecords, r ∈ shuffledRecords := by decide
  have hsame : ∀ r, r ∈ shuffledRecords ↔ r ∈ mixedRecords := fun r => ⟨hback r, hforth r⟩
  obtain ⟨-, -, halike⟩ := changes_are_told_once mixedRecords "http://ac" .epoch
  exact ⟨hsame, halike shuffledRecords hsame, by decide +kernel⟩

end CaseAccess.PermissionChanges
