import CaseAccess.Case.Writing
import Mathlib.Tactic.Tauto

/-!
# What lets a write through on a closed case

A scope that a write takes may have a scope configured for it that lets the write through
on a closed case, and where none is configured there is the scope that forces every write.
Taken one by one the scopes of a write would each contribute theirs: `bypassOf`.

The guard looks at them together, and turns to the scope that forces every write only if
none of them has one configured. So a scope without one contributes nothing beside a scope
that has one. `mem_bypassScopes` says what the guard takes, and what follows from it is
said in `bypass_scopes_of_union`: more scopes never let more through than they do apart,
they let less through just where scopes with and without a bypass come together, and
whoever is let through holds what one of them contributes.
-/

namespace CaseAccess

namespace GuardConfig

/-- What a scope that a write takes contributes by itself. -/
def bypassOf (config : GuardConfig) (scope : String) : String :=
  (config.closedCaseBypass.get? scope).getD config.forceWriteScope

/-- A bypass is configured for one of the scopes. -/
def Lists (config : GuardConfig) (required : ScopeSet) : Prop :=
  ∃ scope ∈ required, ∃ bypass, config.closedCaseBypass.get? scope = some bypass

/-- The scope that forces every write is configured for one of the scopes. -/
def ListsForce (config : GuardConfig) (required : ScopeSet) : Prop :=
  ∃ scope ∈ required, config.closedCaseBypass.get? scope = some config.forceWriteScope

variable {config : GuardConfig} {a b required : ScopeSet} {scope bypass : String}

theorem bypassOf_of_some (h : config.closedCaseBypass.get? scope = some bypass) :
    config.bypassOf scope = bypass := by
  rw [bypassOf, h, Option.getD_some]

theorem bypassOf_of_none (h : config.closedCaseBypass.get? scope = none) :
    config.bypassOf scope = config.forceWriteScope := by
  rw [bypassOf, h, Option.getD_none]

/-- Where no bypass is configured, each scope contributes the one that forces every write. -/
theorem bypassOf_of_not_lists (h : ¬ config.Lists required) (hr : scope ∈ required) :
    config.bypassOf scope = config.forceWriteScope := by
  refine bypassOf_of_none (Option.eq_none_iff_forall_ne_some.2 fun bypass hbypass => ?_)
  exact h ⟨scope, hr, bypass, hbypass⟩

theorem lists_union : config.Lists (a ∪ b) ↔ config.Lists a ∨ config.Lists b := by
  simp only [Lists, SortedSet.mem_union, or_and_right, exists_or]

theorem listsForce_union :
    config.ListsForce (a ∪ b) ↔ config.ListsForce a ∨ config.ListsForce b := by
  simp only [ListsForce, SortedSet.mem_union, or_and_right, exists_or]

/-- A scope is configured for one of those required, or it is the one that forces every
write and none is configured. -/
theorem mem_bypassScopes :
    scope ∈ config.bypassScopes required ↔
      (∃ r ∈ required, config.closedCaseBypass.get? r = some scope) ∨
        ¬ config.Lists required ∧ scope = config.forceWriteScope := by
  have hconfigured : ∀ bypass, bypass ∈ required.toList.filterMap config.closedCaseBypass.get? ↔
      ∃ r ∈ required, config.closedCaseBypass.get? r = some bypass := fun _ => List.mem_filterMap
  rw [bypassScopes, SortedSet.mem_toList, SortedSet.mem_ofList]
  split
  · next hnone =>
      have hunlisted : ∀ bypass,
          ¬ ∃ r ∈ required, config.closedCaseBypass.get? r = some bypass := by
        intro bypass hbypass
        rw [← hconfigured, hnone] at hbypass
        cases hbypass
      have hlists : ¬ config.Lists required := by
        rintro ⟨r, hr, bypass, hbypass⟩
        exact hunlisted bypass ⟨r, hr, hbypass⟩
      simp [hunlisted, hlists]
  · next hsome =>
      obtain ⟨bypass, hbypass⟩ := List.exists_mem_of_ne_nil _ hsome
      obtain ⟨r, hr, hbypass⟩ := (hconfigured bypass).1 hbypass
      have hlists : config.Lists required := ⟨r, hr, bypass, hbypass⟩
      simp [hconfigured, hlists]

theorem forceWriteScope_mem_bypassScopes :
    config.forceWriteScope ∈ config.bypassScopes required ↔
      config.ListsForce required ∨ ¬ config.Lists required := by
  rw [mem_bypassScopes, and_iff_left rfl]
  rfl

/-! ## Scopes together and apart -/

theorem mem_or_mem_of_mem_union (h : scope ∈ config.bypassScopes (a ∪ b)) :
    scope ∈ config.bypassScopes a ∨ scope ∈ config.bypassScopes b := by
  rcases mem_bypassScopes.1 h with ⟨r, hr, hbypass⟩ | ⟨hnone, rfl⟩
  · refine (SortedSet.mem_union.1 hr).imp ?_ ?_
    · exact fun hr => mem_bypassScopes.2 (.inl ⟨r, hr, hbypass⟩)
    · exact fun hr => mem_bypassScopes.2 (.inl ⟨r, hr, hbypass⟩)
  · rw [lists_union, not_or] at hnone
    exact .inl (mem_bypassScopes.2 (.inr ⟨hnone.1, rfl⟩))

/-- Of what scopes let through apart only the scope that forces every write can be lost. -/
theorem mem_union_of_mem_or_mem
    (hforce : config.forceWriteScope ∈ config.bypassScopes a ∨
        config.forceWriteScope ∈ config.bypassScopes b →
      config.forceWriteScope ∈ config.bypassScopes (a ∪ b))
    (h : scope ∈ config.bypassScopes a ∨ scope ∈ config.bypassScopes b) :
    scope ∈ config.bypassScopes (a ∪ b) := by
  by_cases hscope : scope = config.forceWriteScope
  · subst hscope
    exact hforce h
  · have hlisted : ∀ {required}, scope ∈ config.bypassScopes required →
        ∃ r ∈ required, config.closedCaseBypass.get? r = some scope := fun hmem =>
      (mem_bypassScopes.1 hmem).resolve_right fun hnone => hscope hnone.2
    refine mem_bypassScopes.2 (.inl ?_)
    rcases h with h | h
    · obtain ⟨r, hr, hbypass⟩ := hlisted h
      exact ⟨r, SortedSet.mem_union.2 (.inl hr), hbypass⟩
    · obtain ⟨r, hr, hbypass⟩ := hlisted h
      exact ⟨r, SortedSet.mem_union.2 (.inr hr), hbypass⟩

theorem bypassScopes_union_iff :
    (∀ scope, scope ∈ config.bypassScopes (a ∪ b) ↔
        scope ∈ config.bypassScopes a ∨ scope ∈ config.bypassScopes b) ↔
      (config.Lists a ↔ config.Lists b) ∨ config.ListsForce (a ∪ b) := by
  have hforce : (config.forceWriteScope ∈ config.bypassScopes a ∨
        config.forceWriteScope ∈ config.bypassScopes b →
      config.forceWriteScope ∈ config.bypassScopes (a ∪ b)) ↔
      (config.Lists a ↔ config.Lists b) ∨ config.ListsForce (a ∪ b) := by
    simp only [forceWriteScope_mem_bypassScopes, lists_union, listsForce_union]
    tauto
  rw [← hforce]
  exact ⟨fun h => (h _).2, fun h scope => ⟨mem_or_mem_of_mem_union, mem_union_of_mem_or_mem h⟩⟩

/-- What is contributed is what the guard takes, unless some scopes have a bypass and others
have none. -/
theorem bypassScopes_eq_bypassOf_iff (hasked : ∃ scope, scope ∈ required) :
    (∀ scope, scope ∈ config.bypassScopes required ↔
        ∃ r ∈ required, scope = config.bypassOf r) ↔
      (config.Lists required →
        config.ListsForce required ∨
          ∀ r ∈ required, ∃ bypass, config.closedCaseBypass.get? r = some bypass) := by
  constructor
  · intro h hlists
    refine or_iff_not_imp_left.2 fun hforce r hr => ?_
    cases hlisted : config.closedCaseBypass.get? r with
    | some bypass => exact ⟨bypass, rfl⟩
    | none =>
        have hmem := (h config.forceWriteScope).2 ⟨r, hr, (bypassOf_of_none hlisted).symm⟩
        rw [forceWriteScope_mem_bypassScopes] at hmem
        exact absurd hlists (hmem.resolve_left hforce)
  · intro h scope
    rw [mem_bypassScopes]
    constructor
    · rintro (⟨r, hr, hbypass⟩ | ⟨hnone, rfl⟩)
      · exact ⟨r, hr, (bypassOf_of_some hbypass).symm⟩
      · obtain ⟨r, hr⟩ := hasked
        exact ⟨r, hr, (bypassOf_of_not_lists hnone hr).symm⟩
    · rintro ⟨r, hr, rfl⟩
      cases hlisted : config.closedCaseBypass.get? r with
      | some bypass => exact .inl ⟨r, hr, by rw [bypassOf_of_some hlisted, hlisted]⟩
      | none =>
          rw [bypassOf_of_none hlisted]
          by_cases hlists : config.Lists required
          · refine .inl ((h hlists).resolve_right fun hall => ?_)
            obtain ⟨bypass, hbypass⟩ := hall r hr
            rw [hlisted] at hbypass
            cases hbypass
          · exact .inr ⟨hlists, rfl⟩

end GuardConfig

/-! ## Writes -/

section Writes

variable {has : String → Bool} {config : GuardConfig} {required : ScopeSet} {z : CaseRecord}

theorem holdsAny_id (scopes : List String) :
    holdsAny (m := Id) has scopes = scopes.any has := by
  induction scopes with
  | nil => rfl
  | cons scope rest ih =>
      rw [List.any_cons, ← ih, holdsAny]
      cases has scope with
      | true => rfl
      | false => rfl

/-- Whoever has a scope that bypasses a closed case writes to it. -/
theorem checkWrite_closed (hclosed : z.isClosed = true) :
    z.checkWrite (m := Id) has config required = none ↔
      ∃ scope ∈ config.bypassScopes required, has scope = true := by
  rw [← List.any_eq_true, ← holdsAny_id, CaseRecord.checkWrite, hclosed]
  cases holdsAny (m := Id) has (config.bypassScopes required) with
  | true => exact iff_of_true rfl rfl
  | false => exact iff_of_false (fun h => by cases h) Bool.false_ne_true

/-- What lets a write through is contributed by a scope that it takes; and where a bypass is
configured for one of them, it is one that is configured. -/
theorem checkWrite_closed_iff (hasked : ∃ scope, scope ∈ required) (hclosed : z.isClosed = true) :
    z.checkWrite (m := Id) has config required = none ↔
      (∃ r ∈ required, has (config.bypassOf r) = true) ∧
        (config.Lists required → ∃ r ∈ required, ∃ bypass,
          config.closedCaseBypass.get? r = some bypass ∧ has bypass = true) := by
  rw [checkWrite_closed hclosed]
  constructor
  · rintro ⟨scope, hscope, hhas⟩
    rcases GuardConfig.mem_bypassScopes.1 hscope with ⟨r, hr, hbypass⟩ | ⟨hnone, rfl⟩
    · refine ⟨⟨r, hr, ?_⟩, fun _ => ⟨r, hr, scope, hbypass, hhas⟩⟩
      rwa [GuardConfig.bypassOf_of_some hbypass]
    · obtain ⟨r, hr⟩ := hasked
      refine ⟨⟨r, hr, ?_⟩, fun hlists => absurd hlists hnone⟩
      rwa [GuardConfig.bypassOf_of_not_lists hnone hr]
  · rintro ⟨⟨r, hr, hhas⟩, hlisted⟩
    by_cases hlists : config.Lists required
    · obtain ⟨r, hr, bypass, hbypass, hhas⟩ := hlisted hlists
      exact ⟨bypass, GuardConfig.mem_bypassScopes.2 (.inl ⟨r, hr, hbypass⟩), hhas⟩
    · rw [GuardConfig.bypassOf_of_not_lists hlists hr] at hhas
      exact ⟨_, GuardConfig.mem_bypassScopes.2 (.inr ⟨hlists, rfl⟩), hhas⟩

end Writes

/-- The guard takes the scopes of a write together. More of them never let more through; what
they let through apart is kept just if they agree on whether a bypass is configured, or if
the scope that forces every write is configured itself. Taken one by one they would
contribute what the guard takes just if a bypass is configured for all of them or for none,
with the same exception. A write to a closed case goes through if the caller has what one of
its scopes contributes, and of scopes with a bypass has one that is configured. -/
theorem bypass_scopes_of_union (config : GuardConfig) {a : ScopeSet}
    (hasked : ∃ scope, scope ∈ a) (b : ScopeSet) :
    (∀ scope ∈ config.bypassScopes (a ∪ b),
      scope ∈ config.bypassScopes a ∨ scope ∈ config.bypassScopes b) ∧
    ((∀ scope, scope ∈ config.bypassScopes (a ∪ b) ↔
        scope ∈ config.bypassScopes a ∨ scope ∈ config.bypassScopes b) ↔
      (config.Lists a ↔ config.Lists b) ∨ config.ListsForce (a ∪ b)) ∧
    ((∀ scope, scope ∈ config.bypassScopes a ↔ ∃ r ∈ a, scope = config.bypassOf r) ↔
      (config.Lists a → config.ListsForce a ∨
        ∀ r ∈ a, ∃ bypass, config.closedCaseBypass.get? r = some bypass)) ∧
    ∀ (has : String → Bool) (z : CaseRecord), z.isClosed = true →
      (z.checkWrite (m := Id) has config a = none ↔
        (∃ r ∈ a, has (config.bypassOf r) = true) ∧
          (config.Lists a → ∃ r ∈ a, ∃ bypass,
            config.closedCaseBypass.get? r = some bypass ∧ has bypass = true)) :=
  ⟨fun _ => GuardConfig.mem_or_mem_of_mem_union, GuardConfig.bypassScopes_union_iff,
    GuardConfig.bypassScopes_eq_bypassOf_iff hasked, fun _ _ => checkWrite_closed_iff hasked⟩

/-- A guard with a bypass for changing cases. -/
def bypassedUpdates : GuardConfig where
  closedCaseBypass := SortedMap.ofList [("zaken.bijwerken", "zaken.heropenen")]

/-- What adding a new document takes, beside changing the case. -/
def newDocument : ScopeSet := ScopeSet.single "documenten.aanmaken"

/-- A case that was closed. -/
def closedFile : CaseRecord where
  id := "file-1"
  caseType := ⟨"file"⟩
  confidentiality := .openbaar
  lifecycle := .closed
  endDate := Date.of? 1970 1 1

/-- To add a document to the file and change it at once takes the bypass that is configured
for changing it. -/
theorem closedFile_takes_configured_bypass :
    closedFile.checkWrite (m := Id) (fun scope => decide (scope = "zaken.heropenen"))
        bypassedUpdates (newDocument ∪ updateScopes) = none ∧
      closedFile.checkWrite (m := Id) (fun scope => decide (scope = "zaken.geforceerd-bijwerken"))
        bypassedUpdates (newDocument ∪ updateScopes) ≠ none := by
  obtain ⟨-, -, -, hwrite⟩ := bypass_scopes_of_union bypassedUpdates
    (a := newDocument ∪ updateScopes) ⟨"zaken.bijwerken", by decide⟩ {}
  refine ⟨(hwrite _ closedFile rfl).2 ⟨?_, fun _ => ?_⟩, fun hforced => ?_⟩
  · exact ⟨"zaken.bijwerken", by decide, by decide⟩
  · exact ⟨"zaken.bijwerken", by decide, "zaken.heropenen", by decide, by decide⟩
  · have hlists : bypassedUpdates.Lists (newDocument ∪ updateScopes) :=
      ⟨"zaken.bijwerken", by decide, "zaken.heropenen", by decide⟩
    obtain ⟨r, hr, bypass, hbypass, hhas⟩ := ((hwrite _ closedFile rfl).1 hforced).2 hlists
    have hentry : (r, bypass) ∈ [("zaken.bijwerken", "zaken.heropenen")] :=
      SortedMap.mem_of_get? hbypass
    cases List.mem_singleton.1 hentry
    exact absurd hhas (by decide)

/-- The scope that forces every write lets a new document through, and beside a change of the
case it does not. -/
theorem forced_write_is_lost_in_union :
    (∃ scope, scope ∈ newDocument) ∧ (∃ scope, scope ∈ updateScopes) ∧
      ¬ ∀ scope, scope ∈ bypassedUpdates.bypassScopes (newDocument ∪ updateScopes) ↔
        scope ∈ bypassedUpdates.bypassScopes newDocument ∨
          scope ∈ bypassedUpdates.bypassScopes updateScopes := by
  refine ⟨⟨"documenten.aanmaken", by decide⟩, ⟨"zaken.bijwerken", by decide⟩, fun h => ?_⟩
  have hmem : "zaken.geforceerd-bijwerken" ∈ bypassedUpdates.bypassScopes newDocument := by decide
  have hlost : ¬ "zaken.geforceerd-bijwerken" ∈
      bypassedUpdates.bypassScopes (newDocument ∪ updateScopes) := by decide
  exact hlost ((h _).2 (.inl hmem))

end CaseAccess
