import CaseAccess.Proofs.CaseAuthority
import CaseAccess.Proofs.CaseLinks
import CaseAccess.Proofs.CatalogExpansion
import CaseAccess.Proofs.History

/-!
# What is kept of a case fits its type

A status row holds the reference of its type and whether that type was final; a result
row holds the reference of its type. Both were checked against the type of the case when
they were written, and nobody checks them again. They can be relied on because nothing
that they were checked against is ever changed: a case keeps its type, and a type that
is held here is stored once and neither rewritten nor deleted.

`Store.Fits` is what such a check leaves behind, for cases, statuses and results alike,
and it holds on in every store that extends the one it was made in. So a command needs an
argument only for the row that it adds. Of a type that another installation holds nothing
is said, because that one may answer differently each time.
-/

namespace CaseAccess

open Operation
open Installation (LooksUp Steady)

/-! ## Rows and the types that they name -/

/-- A status is of a type that goes with the case type, and as final as the first entry
of that reference. -/
def TypeDefinition.Records (d : TypeDefinition) (r : StatusRecord) : Prop :=
  ∃ type, d.statusType? r.statusType = some type ∧ r.isFinal = type.isFinal

/-- A result is of a type that goes with the case type. -/
def TypeDefinition.Yields (d : TypeDefinition) (r : ResultRecord) : Prop :=
  (d.resultType? r.resultType).isSome = true

namespace Store

variable {s t : Store} {id : String} {p : TypeDefinition → Prop}

/-- There is a case of that id and, if its type is held here, the type is one of cases
of which `p` holds. -/
def Fits (s : Store) (id : String) (p : TypeDefinition → Prop) : Prop :=
  ∃ z, s.case? id = some z ∧ (z.caseType.isRemote = false →
    ∃ d, s.type? z.caseType = some d ∧ d.component = .zrc ∧ p d)

/-- Cases keep their types, and types that are stored stay as they are. -/
structure Extends (s t : Store) : Prop where
  cases : ∀ id z, s.case? id = some z → ∃ z', t.case? id = some z' ∧ z'.caseType = z.caseType
  types : ∀ reference d, s.type? reference = some d → t.type? reference = some d

theorem Fits.extends (h : s.Fits id p) (hext : s.Extends t) : t.Fits id p := by
  obtain ⟨z, hfound, htype⟩ := h
  obtain ⟨z', hfound', hsame⟩ := hext.cases id z hfound
  refine ⟨z', hfound', fun hlocal => ?_⟩
  rw [hsame] at hlocal ⊢
  obtain ⟨d, hd, hrest⟩ := htype hlocal
  exact ⟨d, hext.types _ d hd, hrest⟩

/-- Everything that is kept of cases fits the types of the cases. -/
structure Typed (s : Store) : Prop where
  cases : ∀ z ∈ s.cases.rows, s.Fits z.id fun _ => True
  statuses : ∀ r ∈ s.statuses.rows, s.Fits r.caseId (·.Records r)
  results : ∀ r ∈ s.results.rows, s.Fits r.caseId (·.Yields r)

theorem Typed.of_empty (hcases : s.cases.rows = []) (hstatuses : s.statuses.rows = [])
    (hresults : s.results.rows = []) : s.Typed where
  cases z hz := by simp [hcases] at hz
  statuses r hr := by simp [hstatuses] at hr
  results r hr := by simp [hresults] at hr

/-- In a store that extends another one only new rows have to be looked at. -/
theorem Typed.extends (h : s.Typed) (hext : s.Extends t)
    (hcases : ∀ z ∈ t.cases.rows, z.id ∈ s.cases.rows.map (·.id) ∨ t.Fits z.id fun _ => True)
    (hstatuses : ∀ r ∈ t.statuses.rows, r ∈ s.statuses.rows ∨ t.Fits r.caseId (·.Records r))
    (hresults : ∀ r ∈ t.results.rows, r ∈ s.results.rows ∨ t.Fits r.caseId (·.Yields r)) :
    t.Typed := by
  refine ⟨fun z hz => ?_, fun r hr => ?_, fun r hr => ?_⟩
  · rcases hcases z hz with hold | hnew
    · obtain ⟨before, hbefore, hid⟩ := List.mem_map.1 hold
      rw [← hid]
      exact (h.cases before hbefore).extends hext
    · exact hnew
  · rcases hstatuses r hr with hold | hnew
    · exact (h.statuses r hold).extends hext
    · exact hnew
  · rcases hresults r hr with hold | hnew
    · exact (h.results r hold).extends hext
    · exact hnew

/-- Nothing that is kept of cases differs. -/
theorem Typed.of_sameCases (h : s.Typed) (hsame : s.SameCases t) (hext : s.Extends t) :
    t.Typed := by
  refine h.extends hext ?_ ?_ ?_
  · rw [hsame.cases]
    exact fun z hz => .inl (List.mem_map_of_mem hz)
  · rw [hsame.statuses]
    exact fun r hr => .inl hr
  · rw [hsame.results]
    exact fun r hr => .inl hr

/-! ## Types that are stored stay -/

theorem type?_of_types (h : t.types = s.types) (reference : TypeRef) :
    t.type? reference = s.type? reference := by
  rw [type?, type?, h]

theorem Registers.type? {definitions : List TypeDefinition} (h : s.Registers definitions t)
    {reference : TypeRef} {d : TypeDefinition} (hd : s.type? reference = some d) :
    t.type? reference = some d := by
  induction h with
  | nil s => exact hd
  | @cons s t u new rest _ first _ ih =>
      obtain ⟨types, hadd, rfl⟩ := createType_ok first
      refine ih ?_
      have hget : ({ s with types := types } : Store).type? reference =
          if new.reference = reference then some new else s.type? reference :=
        Table.get?_add? hadd reference
      rw [hget, if_neg, hd]
      rintro rfl
      have hfree : s.type? new.reference = none := Table.get?_of_add? hadd
      rw [hfree] at hd
      cases hd

end Store

theorem AdministrationCommand.Writes.type? {command : AdministrationCommand} {c : Context}
    {s t : Store} {named : List (String × Action)} (h : command.Writes c s t named)
    {reference : TypeRef} {d : TypeDefinition} (hd : s.type? reference = some d) :
    t.type? reference = some d := by
  rcases h.types with hsame | ⟨definitions, hregisters⟩
  · rw [Store.type?_of_types hsame]
    exact hd
  · exact hregisters.type? hd

theorem administration_extends (command : AdministrationCommand) (c : Context)
    (i : Installation) : i.store.Extends (command.run c i).2.store := by
  have hkeeps := administration_keepsCases command c i
  refine ⟨fun id z hz => ⟨z, ?_, rfl⟩, fun reference d hd => ?_⟩
  · rw [Store.case?, hkeeps.cases]
    exact hz
  · rcases hrun : command.run c i with ⟨e | _, j⟩
    · obtain ⟨g, rfl⟩ := (administration_atomic command).of_error hrun
      exact hd
    · obtain ⟨t, named, hwrites, rfl, -⟩ := AdministrationCommand.writes_of hrun
      exact hwrites.type? hd

theorem caseCommand_extends (command : CaseCommand) (c : Context) (i : Installation) :
    i.store.Extends (command.run c i).2.store := by
  have hevolves : i.store.Evolves (command.run c i).2.store := caseCommand_evolves command c i
  have htypes := congrArg Store.types (caseCommand_sameButCases command c i)
  refine ⟨fun id z hz => ?_, fun reference d hd => ?_⟩
  · obtain ⟨z', hz', hkeeps⟩ := hevolves.kept id z hz
    exact ⟨z', hz', hkeeps.caseType⟩
  · rw [Store.type?_of_types htypes]
    exact hd

/-! ## Rows that are added -/

section Added

variable {applications : List Application} {c : Context} {i j : Installation}

/-- What was checked against the type to which the type of a case resolved. -/
theorem fits_of_resolution {s : Store} {types : TypeCache} {z : CaseRecord}
    {d : TypeDefinition} {p : TypeDefinition → Prop} (hfound : s.case? z.id = some z)
    (h : c.resolution s types z.caseType .zrc = .ok d) (hp : p d) : s.Fits z.id p := by
  refine ⟨z, hfound, fun hlocal => ?_⟩
  obtain ⟨hd, hcomponent⟩ := (resolution_eq_ok_of_local hlocal).1 h
  exact ⟨d, hd, hcomponent, hp⟩

/-- A case that is created has a type that resolves. -/
theorem createCase_fits (hi : i.grantCache.Agrees i.store) {freshId : String} {input : NewCase}
    {z : CaseRecord} (h : createCase applications freshId input c i = (.ok z, j)) :
    ∃ new, j.store.Fits new.id (fun _ => True) ∧
      j.store.cases.rows = i.store.cases.rows ++ [new] ∧
      j.store.statuses = i.store.statuses ∧ j.store.results = i.store.results := by
  obtain ⟨hwrites, -⟩ := createCase_writes hi h
  generalize j.store = t at hwrites
  generalize [c.notice z .create] = news at hwrites
  cases hwrites with
  | create new d cases _ hresolved _ hadd =>
      have hfound : ({ i.store with cases := cases } : Store).case? new.id = some new := by
        have hget := Table.get?_add? hadd new.id
        rw [if_pos rfl] at hget
        exact hget
      exact ⟨new, fits_of_resolution hfound hresolved trivial, (Table.add?_eq_some.1 hadd).2,
        rfl, rfl⟩

/-- A status that is recorded has been found in the type of its case. -/
theorem recordStatus_fits (hi : i.grantCache.Agrees i.store) {id statusType : String}
    {setAt : Instant} {r : StatusRecord}
    (h : recordStatus applications id statusType setAt c i = (.ok r, j)) :
    ∃ kept, i.store.Fits kept.caseId (·.Records kept) ∧
      j.store.statuses.rows = i.store.statuses.rows ++ [kept] ∧
      j.store.results = i.store.results ∧
      j.store.cases.rows.map (·.id) = i.store.cases.rows.map (·.id) := by
  obtain ⟨plan, houtcome, -⟩ := recordStatus_outcome hi h
  obtain ⟨hplan, s, hcreate, hwritten⟩ := statusOutcome_eq_ok.1 houtcome
  obtain ⟨z, required, reference, d, t, hadmission, ht, hverdict⟩ := statusPlan_eq_ok.1 hplan
  obtain ⟨type, htype, -, -, -, hplanned⟩ := plan_eq_ok.1 (verdict_eq_ok.1 hverdict)
  obtain ⟨hframe, hstatuses, hids⟩ := written_frame hcreate
  rw [hwritten] at hframe hstatuses hids
  have hcase := (transition_readFrom ht).case
  have hread : t.caseType = d := by
    obtain ⟨statuses, -, ht⟩ := except_of_bind_ok ht
    cases ht
    rfl
  have hstatus : plan.status = t.status type.isFinal := (plan_follows hplanned).status
  have hrecords : d.Records (i.store.keptStatus plan.status) := by
    refine ⟨type, ?_, ?_⟩
    · rw [← hread, Store.keptStatus, hstatus]
      exact htype
    · rw [Store.keptStatus, hstatus]
      rfl
  have hid : (i.store.keptStatus plan.status).caseId = z.id := by
    rw [Store.keptStatus, hstatus]
    exact congrArg CaseRecord.id hcase
  have hfound : i.store.case? z.id = some z :=
    Table.get?_eq_some.2 ⟨Table.mem_of_get? hadmission.found, rfl⟩
  refine ⟨i.store.keptStatus plan.status, ?_, ?_, ?_, hids⟩
  · rw [hid]
    exact fits_of_resolution hfound hadmission.resolved hrecords
  · rw [hstatuses]
    rfl
  · rw [hframe]

/-- A result that is set has been found in the type of its case. -/
theorem setResult_fits {id resultType : String} {result : ResultRecord}
    (h : setResult applications id resultType c i = (.ok result, j)) :
    i.store.Fits result.caseId (·.Yields result) ∧ j.store = i.store.saveResult result := by
  obtain ⟨_, -, -, hwritten⟩ := setResult_ok h
  obtain ⟨z, i₁, h₁, hopen, h⟩ := MovesIn.of_bind_ok (openCase_steady applications id _) h
  obtain ⟨reference, i₂, h₂, -, h⟩ := MovesIn.of_bind_ok (readReference_steady _ _) h
  obtain ⟨d, i₃, h₃, htype, h⟩ := MovesIn.of_bind_ok (resolveCaseType_steady _) h
  have h₂ : Steady c i i₂ := trans_of (Steady c) h₁ h₂
  have hresolved := resolution_of_resolveCaseType h₂ htype
  obtain ⟨hknown, h⟩ := of_refusal_ok h
  obtain ⟨_, i₄, hchange, h⟩ := of_bind_ok h
  obtain ⟨_, i₅, hannounce, h⟩ := of_bind_ok h
  cases h
  have hfound : i.store.case? z.id = some z :=
    Table.get?_eq_some.2 ⟨Table.mem_of_get? (openCase_ok hopen), rfl⟩
  refine ⟨fits_of_resolution hfound hresolved ?_, hwritten⟩
  rw [TypeDefinition.Yields, Option.isSome_iff_ne_none]
  rw [Option.isNone_iff_eq_none] at hknown
  exact hknown

end Added

/-! ## Commands -/

theorem Store.mem_saveResult {s : Store} {result r : ResultRecord}
    (h : r ∈ (s.saveResult result).results.rows) : r = result ∨ r ∈ s.results.rows := by
  have h : r ∈ (s.results.put result).rows := h
  rw [Table.put] at h
  cases hadd : s.results.add? result with
  | none =>
      rw [hadd, Option.getD_none] at h
      rcases Table.mem_replace h with hr | ⟨hr, -⟩
      · exact .inl hr
      · exact .inr hr
  | some results =>
      rw [hadd, Option.getD_some, (Table.add?_eq_some.1 hadd).2] at h
      rcases List.mem_append.1 h with hr | hr
      · exact .inr hr
      · exact .inl (List.mem_singleton.1 hr)

theorem caseCommand_typed {command : CaseCommand} {c : Context} {i : Installation}
    (hi : i.grantCache.Agrees i.store) (h : i.store.Typed) :
    (command.run c i).2.store.Typed := by
  have hext := caseCommand_extends command c i
  rcases hrun : command.run c i with ⟨e | _, j⟩
  · rw [(caseCommand_quiet command c i e j hrun).store]
    exact h
  · rw [hrun] at hext
    cases command with
    | create applications freshId input =>
        obtain ⟨z, k, hop, hforget⟩ := of_bind_ok hrun
        cases hforget
        obtain ⟨new, hfits, hrows, hstatuses, hresults⟩ := createCase_fits hi hop
        refine h.extends hext ?_ ?_ ?_
        · rw [hrows]
          intro y hy
          rcases List.mem_append.1 hy with hy | hy
          · exact .inl (List.mem_map_of_mem hy)
          · rw [List.mem_singleton] at hy
            subst hy
            exact .inr hfits
        · rw [hstatuses]
          exact fun r hr => .inl hr
        · rw [hresults]
          exact fun r hr => .inl hr
    | update applications id change =>
        obtain ⟨z, k, hop, hforget⟩ := of_bind_ok hrun
        cases hforget
        obtain ⟨before, -, -, hj⟩ := updateCase_ok hop
        rw [hj] at hext ⊢
        refine h.extends hext (fun y hy => .inl ?_) (fun r hr => .inl hr) fun r hr => .inl hr
        rw [← Store.ids_updateCase z]
        exact List.mem_map_of_mem hy
    | recordStatus applications id statusType setAt =>
        obtain ⟨r, k, hop, hforget⟩ := of_bind_ok hrun
        cases hforget
        obtain ⟨kept, hfits, hstatuses, hresults, hids⟩ := recordStatus_fits hi hop
        refine h.extends hext (fun y hy => .inl ?_) ?_ ?_
        · rw [← hids]
          exact List.mem_map_of_mem hy
        · rw [hstatuses]
          intro r hr
          rcases List.mem_append.1 hr with hr | hr
          · exact .inl hr
          · rw [List.mem_singleton] at hr
            subst hr
            exact .inr (hfits.extends hext)
        · rw [hresults]
          exact fun r hr => .inl hr
    | setResult applications id resultType =>
        obtain ⟨result, k, hop, hforget⟩ := of_bind_ok hrun
        cases hforget
        obtain ⟨hfits, hj⟩ := setResult_fits hop
        rw [hj] at hext ⊢
        refine h.extends hext (fun y hy => .inl (List.mem_map_of_mem hy)) (fun r hr => .inl hr) ?_
        intro r hr
        rcases Store.mem_saveResult hr with rfl | hr
        · exact .inr (hfits.extends hext)
        · exact .inl hr
    | attach applications id a =>
        have hop : authorizeAttachment applications id a c i = (.ok (), j) := hrun
        have hsteady := authorizeAttachment_steady applications id a c i
        rw [hop] at hsteady
        rw [hsteady.store]
        exact h

theorem step_typed {i j : Installation} (hstep : Step i j) (hi : i.grantCache.Agrees i.store)
    (h : i.store.Typed) : j.store.Typed := by
  cases hstep with
  | onCases command c => exact caseCommand_typed hi h
  | administration command c =>
      exact h.of_sameCases (administration_keepsCases command c i)
        (administration_extends command c i)

theorem Reachable.typed {i : Installation} (h : Reachable i) : i.store.Typed := by
  have hsame : ∀ {s : Store} {kept : Table ClientSecret.clientId}, s.Typed →
      ({ s with secrets := kept } : Store).Typed := fun hs =>
    hs.of_sameCases ⟨rfl, rfl, rfl⟩ ⟨fun _ z hz => ⟨z, hz, rfl⟩, fun _ _ hd => hd⟩
  induction h with
  | start config =>
      obtain ⟨kept, hkept⟩ := seed_eq {} config.authn.secrets
      rw [Installation.start, hkept]
      exact hsame (.of_empty rfl rfl rfl)
  | restart config hprev ih =>
      next i =>
      obtain ⟨kept, hkept⟩ := seed_eq i.store config.authn.secrets
      rw [Installation.start, hkept]
      exact hsame ih
  | step hprev hstep ih => exact step_typed hstep hprev.coherent.agrees ih
  | lookup hprev hm c ih =>
      rw [(hm c _).store]
      exact ih

/-- In every installation that can be found running, each case whose type is held here
has a type of cases that is stored, each of its statuses is of a type that goes with that
type and as final as the first of that reference, and its result, if it has one, is of a
type that goes with it too. -/
theorem case_rows_fit_their_type {i : Installation} (h : Reachable i) {z : CaseRecord}
    (hz : z ∈ i.store.cases.rows) (hlocal : z.caseType.isRemote = false) :
    ∃ d, i.store.type? z.caseType = some d ∧ d.component = .zrc ∧
      (∀ r ∈ i.store.statuses.rows, r.caseId = z.id →
        ∃ type, d.statusType? r.statusType = some type ∧ r.isFinal = type.isFinal) ∧
      ∀ r, i.store.result? z.id = some r →
        ∃ type ∈ d.relations.resultTypes, type.reference = r.resultType := by
  have htyped := h.typed
  have hfound : i.store.case? z.id = some z := Table.get?_eq_some.2 ⟨hz, rfl⟩
  -- Whatever fits the case fits the one type that is stored under its reference.
  have hread : ∀ {id : String} {p : TypeDefinition → Prop}, i.store.Fits id p → id = z.id →
      ∃ d, i.store.type? z.caseType = some d ∧ d.component = .zrc ∧ p d := by
    rintro _ p ⟨y, hy, htype⟩ rfl
    rw [hfound] at hy
    cases hy
    exact htype hlocal
  obtain ⟨d, hd, hcomponent, -⟩ := hread (htyped.cases z hz) rfl
  refine ⟨d, hd, hcomponent, fun r hr hcase => ?_, fun r hr => ?_⟩
  · obtain ⟨d', hd', -, hrecords⟩ := hread (htyped.statuses r hr) hcase
    rw [hd] at hd'
    cases hd'
    exact hrecords
  · obtain ⟨hrow, hcase⟩ := Table.get?_eq_some.1 hr
    obtain ⟨d', hd', -, hyields⟩ := hread (htyped.results r hrow) hcase
    rw [hd] at hd'
    cases hd'
    obtain ⟨type, htype⟩ := Option.isSome_iff_exists.1 hyields
    exact ⟨type, List.mem_of_find?_eq_some htype, by simpa using List.find?_some htype⟩

/-- The upper dossier of the archive has a status and a result, and both fit its type. -/
theorem closedRoom_fits_its_types :
    ∃ z ∈ closedRoom.store.cases.rows, z.id = "dossier-1" ∧ z.caseType.isRemote = false ∧
      ∃ d, closedRoom.store.type? z.caseType = some d ∧ d.component = .zrc ∧
        (∃ r ∈ closedRoom.store.statuses.rows, r.caseId = z.id ∧
          ∃ type, d.statusType? r.statusType = some type ∧ r.isFinal = type.isFinal) ∧
        ∃ r, closedRoom.store.result? z.id = some r ∧
          ∃ type ∈ d.relations.resultTypes, type.reference = r.resultType := by
  have hreach : Reachable closedRoom := reachable_dossierRoom.step (.onCases closeDossier _ _)
  have hrows : (closedRoom.store.case? "dossier-1").any (fun z => !z.caseType.isRemote &&
      closedRoom.store.statuses.rows.any (·.caseId = z.id) &&
        (closedRoom.store.result? z.id).isSome) = true := by decide +kernel
  obtain ⟨z, hfound, hall⟩ := (Option.any_eq_true _ _).1 hrows
  rw [Bool.and_eq_true, Bool.and_eq_true, Bool.not_eq_true', List.any_eq_true] at hall
  obtain ⟨⟨hlocal, r, hr, hcase⟩, hresult⟩ := hall
  obtain ⟨result, hresult⟩ := Option.isSome_iff_exists.1 hresult
  obtain ⟨hz, hid⟩ := Table.get?_eq_some.1 hfound
  have hcase : r.caseId = z.id := of_decide_eq_true hcase
  obtain ⟨d, hd, hcomponent, hstatuses, hresults⟩ := case_rows_fit_their_type hreach hz hlocal
  exact ⟨z, hz, hid, hlocal, d, hd, hcomponent, ⟨r, hr, hcase, hstatuses r hr hcase⟩, result,
    hresult, hresults result hresult⟩

end CaseAccess
