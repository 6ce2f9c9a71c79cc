import CaseAccess.Administration.Grants
import CaseAccess.Case.Writing
import CaseAccess.Proofs.Lookup
import CaseAccess.Site

/-!
# Runs of an installation

What may happen to an installation from outside is a command: one of the operations on
cases, or one of the administration, with its input. A step runs one command in some
context, so the settings, the time and what other catalogs answer may change from step
to step, and the step counts whether the command succeeds or fails. `Reaches` is what
some steps lead to, from wherever they begin.

An installation begins with a start over a store, at first an empty one. What is looked
up between the commands changes what is remembered, and another start forgets it again;
`Reachable` counts these too.
-/

namespace CaseAccess

/-- An operation on cases with its input. -/
inductive CaseCommand where
  | create (applications : List Application) (freshId : String) (input : NewCase)
  | update (applications : List Application) (id : String) (change : CaseUpdate)
  | recordStatus (applications : List Application) (id statusType : String) (setAt : Instant)
  | setResult (applications : List Application) (id resultType : String)
  | attach (applications : List Application) (id : String) (attachment : Attachment)

/-- An operation of the administration with its input. -/
inductive AdministrationCommand where
  | create (uuid : String) (body : ApplicationBody)
  | replace (uuid : String) (body : ApplicationBody)
  | patch (uuid : String) (change : ApplicationPatch)
  | delete (uuid : String)
  | addGrant (g : Grant)
  | revokeGrant (id : Nat)
  | addCatalogGrant (g : CatalogGrant)
  | revokeCatalogGrant (id : Nat)
  | registerTypes (definitions : List TypeDefinition)

/-- Without what it gives back. -/
def Operation.forget {α : Type} (m : Operation α) : Operation Unit := do
  let _ ← m

/-- What a command does. -/
def CaseCommand.run : CaseCommand → Operation Unit
  | .create applications freshId input => (createCase applications freshId input).forget
  | .update applications id change => (updateCase applications id change).forget
  | .recordStatus applications id statusType setAt =>
      (CaseAccess.recordStatus applications id statusType setAt).forget
  | .setResult applications id resultType =>
      (CaseAccess.setResult applications id resultType).forget
  | .attach applications id attachment => authorizeAttachment applications id attachment

open Administration in
/-- What a command does. -/
def AdministrationCommand.run : AdministrationCommand → Operation Unit
  | .create uuid body => (createApplication uuid body).forget
  | .replace uuid body => (replaceApplication uuid body).forget
  | .patch uuid change => (patchApplication uuid change).forget
  | .delete uuid => deleteApplication uuid
  | .addGrant g => (Administration.addGrant g).forget
  | .revokeGrant id => (Administration.revokeGrant id).forget
  | .addCatalogGrant g => (Administration.addCatalogGrant g).forget
  | .revokeCatalogGrant id => (Administration.revokeCatalogGrant id).forget
  | .registerTypes definitions => Administration.registerTypes definitions

/-- One command is run. -/
inductive Step : Installation → Installation → Prop where
  | onCases (command : CaseCommand) (c : Context) (i : Installation) : Step i (command.run c i).2
  | administration (command : AdministrationCommand) (c : Context) (i : Installation) :
      Step i (command.run c i).2

/-- Some commands are run, one after another. -/
abbrev Reaches : Installation → Installation → Prop := Relation.ReflTransGen Step

/-- The installation after commands on cases, all of them run in one context. -/
def CaseCommand.runAll (commands : List CaseCommand) (c : Context) (i : Installation) :
    Installation :=
  commands.foldl (fun i command => (command.run c i).2) i

theorem reaches_runAll (commands : List CaseCommand) (c : Context) (i : Installation) :
    Reaches i (CaseCommand.runAll commands c i) := by
  induction commands generalizing i with
  | nil => exact .refl
  | cons command rest ih => exact .head (.onCases command c i) (ih _)

/-! ## From the start -/

/-- Installations that can be found running. -/
inductive Reachable : Installation → Prop where
  | start (config : ServerConfig) : Reachable (.start config {})
  | restart (config : ServerConfig) {i : Installation} (h : Reachable i) :
      Reachable (.start config i.store)
  | step {i j : Installation} (h : Reachable i) (hstep : Step i j) : Reachable j
  /-- Something is only looked up: a decision, a type, the applications of a client. -/
  | lookup {i : Installation} (h : Reachable i) {α : Type} {m : Operation α}
      (hm : m.MovesIn Installation.Steady) (c : Context) : Reachable (m c i).2

theorem Reachable.reaches {i j : Installation} (h : Reachable i) (hrun : Reaches i j) :
    Reachable j := by
  induction hrun with
  | refl => exact h
  | tail _ hstep ih => exact ih.step hstep

/-- The secrets of a configuration are all that a start stores. -/
theorem seed_eq (s : Store) (secrets : SortedMap String String) :
    ∃ kept, s.seed secrets = { s with secrets := kept } := by
  rw [Store.seed]
  generalize secrets.toList = l
  induction l generalizing s with
  | nil => exact ⟨s.secrets, rfl⟩
  | cons p rest ih => exact ih (s.saveSecret p.1 p.2)

theorem moves_forget {R : Installation → Installation → Prop} {α : Type} {m : Operation α}
    (h : Operation.Moves R m) : Operation.Moves R m.forget := by
  intro c i
  have hm := h c i
  rw [Operation.forget, Operation.bind_apply]
  rcases hj : m c i with ⟨e | a, j⟩
  · rw [hj] at hm
    exact hm
  · rw [hj] at hm
    exact hm

end CaseAccess
