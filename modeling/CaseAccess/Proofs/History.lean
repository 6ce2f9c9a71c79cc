import CaseAccess.Proofs.StoreIntegrity

/-!
# Histories in which commands meet a condition

Some things are true of an installation only as long as the administration was used in a
certain way. `ReachableBy p` is `Reachable` with a condition on every command of the
administration that was run, and on where it was run; commands on cases, lookups and new
starts are free.

What is to be shown of such an installation is mostly about applications and their
grants. Of these only a command of the administration writes, and what it writes is
listed, so an induction over a history comes down to one case: `store_induction`.
-/

namespace CaseAccess

/-- Installations that can be found running where every command of the administration so
far met a condition. -/
inductive ReachableBy (p : AdministrationCommand → Context → Installation → Prop) :
    Installation → Prop where
  | start (config : ServerConfig) : ReachableBy p (.start config {})
  | restart (config : ServerConfig) {i : Installation} (h : ReachableBy p i) :
      ReachableBy p (.start config i.store)
  | onCases {i : Installation} (h : ReachableBy p i) (command : CaseCommand) (c : Context) :
      ReachableBy p (command.run c i).2
  | administration {i : Installation} (h : ReachableBy p i) {command : AdministrationCommand}
      {c : Context} (met : p command c i) : ReachableBy p (command.run c i).2
  | lookup {i : Installation} (h : ReachableBy p i) {α : Type} {m : Operation α}
      (hm : m.MovesIn Installation.Steady) (c : Context) : ReachableBy p (m c i).2

namespace ReachableBy

variable {p : AdministrationCommand → Context → Installation → Prop} {i : Installation}

theorem reachable (h : ReachableBy p i) : Reachable i := by
  induction h with
  | start config => exact .start config
  | restart config _ ih => exact .restart config ih
  | onCases _ command c ih => exact ih.step (.onCases command c _)
  | administration _ _ ih => exact ih.step (.administration _ _ _)
  | lookup _ hm c ih => exact ih.lookup hm c

/-- What is asked of applications, grants and types holds if it holds of none and every
command that met the condition and ended well keeps it. -/
theorem store_induction {P : Store → Prop} (none : P {})
    (same : ∀ {s t : Store}, s.SameGrants t → t.types = s.types → P s → P t)
    (written : ∀ {command c j t named}, ReachableBy p j → p command c j →
      command.Writes c j.store t named → P j.store → P t)
    (h : ReachableBy p i) : P i.store := by
  have hstart : ∀ (config : ServerConfig) (s : Store), P s →
      P (Installation.start config s).store := by
    intro config s hs
    obtain ⟨kept, hkept⟩ := seed_eq s config.authn.secrets
    rw [Installation.start, hkept]
    exact same (s := s) (t := { s with secrets := kept }) ⟨rfl, rfl, rfl, rfl⟩ rfl hs
  induction h with
  | start config => exact hstart config _ none
  | restart config _ ih => exact hstart config _ ih
  | @onCases i h command c ih =>
      have htypes := congrArg Store.types (caseCommand_sameButCases command c i)
      exact same (caseCommand_keepsApplications command c i) htypes ih
  | @administration i h command c met ih =>
      rcases hrun : command.run c i with ⟨e | _, j⟩
      · obtain ⟨g, rfl⟩ := (administration_atomic command).of_error hrun
        exact ih
      · obtain ⟨t, named, hwrites, rfl, -⟩ := AdministrationCommand.writes_of hrun
        exact written h met hwrites ih
  | @lookup i h _ m hm c ih =>
      have htypes := congrArg Store.types (hm.looksUp c i).store
      exact same (hm.looksUp c i).keepsApplications htypes ih

end ReachableBy

/-- Every installation that can be found running has a history without a condition. -/
theorem Reachable.reachableBy {i : Installation} (h : Reachable i) :
    ReachableBy (fun _ _ _ => True) i := by
  induction h with
  | start config => exact .start config
  | restart config _ ih => exact .restart config ih
  | step _ hstep ih =>
      cases hstep with
      | onCases command c => exact .onCases ih command c
      | administration command c => exact .administration ih trivial
  | lookup _ hm c ih => exact .lookup ih hm c

/-! ## Types -/

/-- Of a type that is stored nothing is left to another installation. -/
def Store.HoldsTypes (s : Store) : Prop :=
  ∀ d ∈ s.types.rows, d.reference.isRemote = false

theorem Store.Registers.holdsTypes {s t : Store} {definitions : List TypeDefinition}
    (h : s.Registers definitions t) (hs : s.HoldsTypes) : t.HoldsTypes := by
  induction h with
  | nil s => exact hs
  | cons held first _ ih =>
      obtain ⟨types, hadd, rfl⟩ := Store.createType_ok first
      refine ih ?_
      rw [Store.HoldsTypes, (Table.add?_eq_some.1 hadd).2]
      exact List.forall_mem_append.2 ⟨hs, List.forall_mem_singleton.2 held⟩

/-- Only a registration writes types. -/
theorem AdministrationCommand.Writes.types {command : AdministrationCommand} {c : Context}
    {s t : Store} {named : List (String × Action)} (h : command.Writes c s t named) :
    t.types = s.types ∨ ∃ definitions, s.Registers definitions t := by
  have hupdates : ∀ {uuid : String} {input : ApplicationInput} {t : Store},
      s.Updates uuid input t → t.types = s.types := by
    intro uuid input t h
    obtain ⟨clients, -, ht⟩ := Store.updateApplication_ok h.stored
    obtain ⟨kept, keptOnCatalogs, hregrant⟩ := Store.regrant_eq s uuid input.grants
    rw [ht, hregrant]
  cases h with
  | @create uuid body input t read free stored =>
      obtain ⟨kept, hkept⟩ := Store.addGrants_eq t uuid (input.grants.getD [])
      obtain ⟨applications, clients, -, -, rfl⟩ := Store.createApplication_ok stored
      rw [hkept]
      exact .inl rfl
  | replace read stored => exact .inl (hupdates stored)
  | patch found read stored => exact .inl (hupdates stored)
  | delete found => exact .inl rfl
  | addGrant found => exact .inl rfl
  | revokeGrant found => exact .inl rfl
  | addCatalogGrant found stored =>
      obtain ⟨rfl, rfl⟩ := Store.createCatalogGrant_ok stored
      exact .inl rfl
  | revokeCatalogGrant found => exact .inl rfl
  | registerTypes stored => exact .inr ⟨_, stored⟩

theorem AdministrationCommand.Writes.holdsTypes {command : AdministrationCommand} {c : Context}
    {s t : Store} {named : List (String × Action)} (h : command.Writes c s t named)
    (hs : s.HoldsTypes) : t.HoldsTypes := by
  rcases h.types with hsame | ⟨definitions, hregisters⟩
  · rw [Store.HoldsTypes, hsame]
    exact hs
  · exact hregisters.holdsTypes hs

theorem Reachable.holdsTypes {i : Installation} (h : Reachable i) : i.store.HoldsTypes := by
  refine h.reachableBy.store_induction (fun d hd => nomatch hd) ?_ ?_
  · intro s t _ htypes hs
    rw [Store.HoldsTypes, htypes]
    exact hs
  · intro command c j t named _ _ hwrites hj
    exact hwrites.holdsTypes hj

end CaseAccess
