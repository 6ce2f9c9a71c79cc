import CaseAccess.Proofs.ArchivePlan
import Mathlib.Logic.Relation

/-!
# Archive dates

The archive date of a case is calculated when a final status is recorded: on the case, or on
its main case if the date counts from there; and only while the case has none. From then on
the date is kept until the case is reopened, which clears it. So it is the date that its
sources gave when it was calculated last, and it is right for as long as they give that date,
or whenever they give it again.

The statement is about one case, and every command is about one case too, but not always the
same. A run is therefore followed for one id: a command may calculate the date of the case with
that id, or it may leave it; a date that is there is lost only where the case is opened.
-/

namespace CaseAccess

open Operation

/-! ## Commands -/

/-- A change of a case that leaves its archive date to be calculated. -/
def CaseCommand.leavesArchiveDate : CaseCommand → Bool
  | .update _ _ u => u.archiveActionDate.isNone
  | _ => true

section Commands

variable {c : Context} {i j : Installation} {command : CaseCommand} {id : String}

theorem planned_of_transition {z : CaseRecord} {required : ScopeSet} {reference : TypeRef}
    {setAt : Instant} {d : TypeDefinition} {tr : StatusTransition} {isFinal : Bool}
    {plan : TransitionPlan} {r : StatusRecord} {s : Store} (hi : i.store.Chronicled)
    (hfound : i.store.case? z.id = some z)
    (hresolved : c.resolution i.store i.typeCache z.caseType .zrc = .ok d)
    (htr : transition c i z required d reference setAt = .ok tr)
    (hplan : (if isFinal then tr.closing else .ok tr.opening) = .ok plan)
    (hcreate : i.store.createStatus plan.status = .ok (r, s)) :
    Planned c i z d tr isFinal plan (plan.written s) := by
  have hread := transition_readFrom htr
  obtain ⟨statuses, -, htr⟩ := except_of_bind_ok htr
  cases htr
  exact ⟨hfound, hresolved, hread, rfl, rfl, hplan, ⟨r, s, hcreate, rfl⟩,
    hi.apex z (Table.mem_of_get? hfound)⟩

namespace CaseCommand.Writes

variable {t : Store} {news : List Notification}

theorem turns (h : command.Writes c i t news) (hi : i.store.Chronicled)
    (htyped : i.store.CasesTyped) (hleaves : command.leavesArchiveDate = true) {z' : CaseRecord}
    (hz' : t.case? id = some z') : i.store.Turns t id z' := by
  cases h with
  | create z d cases _ _ hnew hadd =>
      have hget : ({ i.store with cases := cases } : Store).case? id =
          if z.id = id then some z else i.store.case? id := Table.get?_add? hadd id
      rw [hget] at hz'
      split at hz'
      · cases hz'
        exact .opened hnew.1 hnew.2
      · exact .of_same hz'
  | @update applications updated u z hfound _ _ =>
      rw [Store.case?_updateCase] at hz'
      split at hz'
      · next hid =>
        have hthis : i.store.case? id = some z := by
          have hupdated : z.id = updated := Table.key_of_get? hfound
          have hid : id = z.id := hid
          rw [hid, hupdated]
          exact hfound
        rw [hthis] at hz'
        cases hz'
        have hdate : (u.apply z).archiveActionDate = z.archiveActionDate := by
          show u.archiveActionDate.or z.archiveActionDate = _
          rw [Option.isNone_iff_eq_none.1 hleaves, Option.none_or]
        exact .goesOn z hthis rfl hdate
      · exact .of_same hz'
  | recordStatus z required reference d tr isFinal plan r s hfound _ _ hresolved htr hplan
      hcreate =>
      have hid : z.id = _ := Table.key_of_get? hfound
      subst hid
      exact (planned_of_transition hi hfound hresolved htr hplan hcreate).turns htyped hz'
  | setResult z result _ _ _ => exact .of_same hz'
  | attach z _ _ => exact .of_same hz'

/-- A status that is recorded was planned. -/
theorem exists_planned (h : command.Writes c i t news) (hi : i.store.Chronicled)
    {r : StatusRecord} (hrecorded : t.statuses.rows = i.store.statuses.rows ++ [r]) :
    ∃ z d tr plan, Planned c i z d tr r.isFinal plan t ∧ r.caseId = z.id := by
  have hone : i.store.statuses.rows ≠ i.store.statuses.rows ++ [r] := by simp
  cases h with
  | create z d cases _ _ _ _ => exact absurd hrecorded hone
  | update z _ _ _ => exact absurd hrecorded hone
  | recordStatus z required reference d tr isFinal plan r' s hfound _ _ hresolved htr hplan
      hcreate =>
      have hid : z.id = _ := Table.key_of_get? hfound
      subst hid
      have hplanned := planned_of_transition hi hfound hresolved htr hplan hcreate
      obtain ⟨r', hrecorded', hfinal, hof⟩ := hplanned.recorded
      rw [hrecorded] at hrecorded'
      obtain rfl : r = r' := List.singleton_inj.1 (List.append_cancel_left hrecorded')
      subst hfinal
      exact ⟨z, d, tr, plan, hplanned, hof⟩
  | setResult z result _ _ _ => exact absurd hrecorded hone
  | attach z _ _ => exact absurd hrecorded hone

/-- A case that is created has a type that resolves, and the others keep theirs. -/
theorem typed (h : command.Writes c i t news) (hext : i.store.Extends t)
    (hi : i.store.CasesTyped) : t.CasesTyped := by
  have hkept : ∀ z : CaseRecord, z.id ∈ i.store.cases.rows.map (·.id) →
      t.Fits z.id fun _ => True := by
    intro z hz
    obtain ⟨before, hbefore, hid⟩ := List.mem_map.1 hz
    rw [← hid]
    exact (hi before hbefore).extends hext
  cases h with
  | create z d cases _ hresolved _ hadd =>
      intro y hy
      rw [(Table.add?_eq_some.1 hadd).2] at hy
      rcases List.mem_append.1 hy with hy | hy
      · exact hkept y (List.mem_map_of_mem hy)
      · rw [List.mem_singleton] at hy
        subst hy
        have hfound := Table.get?_add? hadd y.id
        rw [if_pos rfl] at hfound
        exact fits_of_resolution hfound hresolved trivial
  | @update applications id u z _ _ _ =>
      intro y hy
      refine hkept y ?_
      rw [← Store.ids_updateCase (u.apply z)]
      exact List.mem_map_of_mem hy
  | recordStatus z required reference d tr isFinal plan r s _ _ _ _ _ _ hcreate =>
      intro y hy
      refine hkept y ?_
      rw [← (written_frame hcreate).2.2]
      exact List.mem_map_of_mem hy
  | setResult z result _ _ _ => exact fun y hy => hkept y (List.mem_map_of_mem hy)
  | attach z _ _ => exact hi

end CaseCommand.Writes

/-! ## Steps -/

/-- What is relied on of an installation, whatever is done to it. -/
structure Installation.Sound (i : Installation) : Prop where
  coherent : i.Coherent
  chronicled : i.store.Chronicled
  typed : i.store.CasesTyped

theorem Installation.Sound.of_start (h : Reachable i ∨ i.Coherent ∧ i.store.WithoutCases) :
    i.Sound := by
  rcases h with hreach | ⟨hcoherent, hstart⟩
  · exact ⟨hreach.coherent, hreach.chronicled, hreach.typed.cases⟩
  · refine ⟨hcoherent, hstart.chronicled, fun z hz => ?_⟩
    rw [hstart.cases] at hz
    cases hz

/-- One command on cases is run that leaves archive dates to be calculated. -/
def ArchivingStep (i j : Installation) : Prop :=
  ∃ (command : CaseCommand) (c : Context), j = (command.run c i).2 ∧
    command.leavesArchiveDate = true

/-- The archive date of a case is calculated: a final status is recorded while the case has no
date, on the case or, if its result counts from there, on its main case. -/
structure Calculates (id : String) (i j : Installation) : Prop where
  step : ArchivingStep i j
  undated : ∀ z ∈ i.store.case? id, z.archiveActionDate = none
  recorded : ∃ z r, j.store.case? id = some z ∧ z.isClosed = true ∧
    j.store.statuses.rows = i.store.statuses.rows ++ [r] ∧ r.isFinal = true ∧
    (r.caseId = id ∨ z.mainCase = some r.caseId ∧
      ∃ result, j.store.resultType? z = some result ∧ result.derivation.method = .hoofdzaak)

/-- Such a command is run, the case with that id is closed after it, and its date is not
calculated. -/
structure StaysClosed (id : String) (i j : Installation) : Prop where
  step : ArchivingStep i j
  isClosed : (j.store.case? id).any (·.isClosed) = true
  notCalculated : ¬ Calculates id i j

theorem ArchivingStep.sound (h : ArchivingStep i j) (hi : i.Sound) : j.Sound := by
  obtain ⟨command, c, rfl, -⟩ := h
  refine ⟨caseCommand_keepsCoherence command c i hi.coherent,
    (caseCommand_continues command c i).chronicled hi.chronicled, ?_⟩
  cases hrun : (command.run c i).1 with
  | error e =>
      rw [(caseCommand_quiet command c i e _ (Prod.ext hrun rfl)).store]
      exact hi.typed
  | ok _ =>
      obtain ⟨news, hwrites, -⟩ :=
        CaseCommand.writes_of hi.coherent.agrees (Prod.ext hrun rfl)
      exact hwrites.typed (caseCommand_extends command c i) hi.typed

theorem ArchivingStep.turns (h : ArchivingStep i j) (hi : i.Sound) {z : CaseRecord}
    (hz : j.store.case? id = some z) : i.store.Turns j.store id z := by
  obtain ⟨command, c, rfl, hleaves⟩ := h
  cases hrun : (command.run c i).1 with
  | error e =>
      rw [(caseCommand_quiet command c i e _ (Prod.ext hrun rfl)).store] at hz
      exact .of_same hz
  | ok _ =>
      obtain ⟨news, hwrites, -⟩ :=
        CaseCommand.writes_of hi.coherent.agrees (Prod.ext hrun rfl)
      exact hwrites.turns hi.chronicled hi.typed hleaves hz

theorem isClosed_iff_endDate_ne_none {z : CaseRecord} : z.isClosed = true ↔ z.endDate ≠ none := by
  rw [CaseRecord.isClosed, Option.isSome_iff_ne_none]

theorem calculates_of_undated (hstep : ArchivingStep i j) {y : CaseRecord}
    (hy : i.store.case? id = some y) (hundated : y.archiveActionDate = none)
    {z : CaseRecord} {r : StatusRecord} (hz : j.store.case? id = some z)
    (hclosed : z.endDate ≠ none)
    (hrecorded : j.store.statuses.rows = i.store.statuses.rows ++ [r]) (hfinal : r.isFinal = true)
    (hwhose : r.caseId = id ∨ z.mainCase = some r.caseId ∧
      ∃ result, j.store.resultType? z = some result ∧ result.derivation.method = .hoofdzaak) :
    Calculates id i j := by
  refine ⟨hstep, fun x hx => ?_,
    z, r, hz, isClosed_iff_endDate_ne_none.2 hclosed, hrecorded, hfinal, hwhose⟩
  rw [Option.mem_def, hy, Option.some.injEq] at hx
  rw [← hx, hundated]

/-- A case that stays closed keeps its date, unless that is calculated. -/
theorem StaysClosed.date_eq (h : StaysClosed id i j) (hi : i.Sound) {z : CaseRecord}
    (hz : j.store.case? id = some z) (hlocal : z.caseType.isRemote = false) :
    ∃ y, i.store.case? id = some y ∧ z.archiveActionDate = y.archiveActionDate := by
  have hclosed := h.isClosed
  rw [hz, Option.any_some, isClosed_iff_endDate_ne_none] at hclosed
  cases h.step.turns hi hz with
  | goesOn y hfound _ hdate => exact ⟨y, hfound, hdate⟩
  | dated y r hfound _ _ hundated hrecorded hfinal hbelow hcounts =>
      exact absurd (calculates_of_undated h.step hfound hundated hz hclosed hrecorded hfinal
        (.inr ⟨hbelow, hcounts hlocal⟩)) h.notCalculated
  | opened hend _ => exact absurd hend hclosed
  | closed y r hfound _ hkeeps hrecorded hfinal hof =>
      cases hdate : y.archiveActionDate with
      | none =>
          exact absurd (calculates_of_undated h.step hfound hdate hz hclosed hrecorded hfinal
            (.inl hof)) h.notCalculated
      | some date => exact ⟨y, hfound, hkeeps (by rw [hdate]; rfl)⟩

/-- Where a date is calculated, it is the one that the sources of the case give. -/
theorem Calculates.datedBySources (h : Calculates id i j) (hi : i.Sound) {z : CaseRecord}
    (hz : j.store.case? id = some z) (hlocal : z.caseType.isRemote = false) :
    j.store.DatedBySources z := by
  obtain ⟨y, r, hy, -, hrecorded, hfinal, hwhose⟩ := h.recorded
  rw [hz, Option.some.injEq] at hy
  subst hy
  have hundated := h.undated
  obtain ⟨command, c, rfl, -⟩ := h.step
  cases hrun : (command.run c i).1 with
  | error e =>
      rw [(caseCommand_quiet command c i e _ (Prod.ext hrun rfl)).store] at hrecorded
      simp at hrecorded
  | ok _ =>
      obtain ⟨news, hwrites, -⟩ :=
        CaseCommand.writes_of hi.coherent.agrees (Prod.ext hrun rfl)
      obtain ⟨x, d, tr, plan, hplanned, hof⟩ := hwrites.exists_planned hi.chronicled hrecorded
      rw [hfinal] at hplanned
      rcases hwhose with hown | ⟨hbelow, result, hresult, hmethod⟩
      · have hid : id = x.id := hown.symm.trans hof
        rw [hplanned.case?_eq, if_pos hid, Option.some.injEq] at hz
        subst hid hz
        have hfollows := plan_follows hplanned.planned
        rw [hfollows.caseType, hplanned.read.case] at hlocal
        exact hplanned.datedBySources_self hlocal (hundated x hplanned.found)
      · rw [hof] at hbelow
        exact hplanned.datedBySources_below hi.typed hlocal hz hundated hbelow hresult hmethod

end Commands

/-! ## Runs -/

/-- Such commands are run from `i` to `j`, and in `k` the archive date of a case was calculated
for the last time: since then the case has been closed. -/
def CalculatedLast (id : String) (i k j : Installation) : Prop :=
  ∃ m, Relation.ReflTransGen ArchivingStep i m ∧ Calculates id m k ∧
    Relation.ReflTransGen (StaysClosed id) k j

section Runs

variable {i j k : Installation} {id : String} {z : CaseRecord}

theorem archivingSteps_sound (hi : i.Sound) (hrun : Relation.ReflTransGen ArchivingStep i j) :
    j.Sound := by
  induction hrun with
  | refl => exact hi
  | tail _ hstep ih => exact hstep.sound ih

theorem archivingSteps_of_staysClosed (hrun : Relation.ReflTransGen (StaysClosed id) i j) :
    Relation.ReflTransGen ArchivingStep i j :=
  Relation.ReflTransGen.mono (fun _ _ hstep => hstep.step) _ _ hrun

theorem archivingSteps_evolve (hrun : Relation.ReflTransGen ArchivingStep i j) :
    i.Evolves j := by
  refine reaches_evolves (Relation.ReflTransGen.mono (fun k _ hstep => ?_) _ _ hrun)
  obtain ⟨command, c, rfl, -⟩ := hstep
  exact .onCases command c k

theorem archivingSteps_caseType (hrun : Relation.ReflTransGen ArchivingStep i j) {y : CaseRecord}
    (hy : i.store.case? id = some y) (hz : j.store.case? id = some z) :
    z.caseType = y.caseType := by
  obtain ⟨z', hz', hkeeps⟩ := (archivingSteps_evolve hrun).kept id y hy
  rw [hz, Option.some.injEq] at hz'
  rw [hz', hkeeps.caseType]

/-- Since a date was calculated last it is the same. -/
theorem staysClosed_date_eq (hk : k.Sound) (hrun : Relation.ReflTransGen (StaysClosed id) k j)
    {y : CaseRecord} (hy : k.store.case? id = some y) (hz : j.store.case? id = some z)
    (hlocal : z.caseType.isRemote = false) : z.archiveActionDate = y.archiveActionDate := by
  induction hrun generalizing z with
  | refl =>
      rw [hy, Option.some.injEq] at hz
      rw [hz]
  | @tail m n hrun hstep ih =>
      have hm := archivingSteps_sound hk (archivingSteps_of_staysClosed hrun)
      obtain ⟨x, hx, hsame⟩ := hstep.date_eq hm hz hlocal
      have htype := archivingSteps_caseType (.single hstep.step) hx hz
      exact hsame.trans (ih hx (htype ▸ hlocal))

/-- Whatever is closed was calculated, and has been closed since it was calculated last; whatever
is open is without a date. -/
theorem exists_calculatedLast (hi : i.Sound)
    (hopen : ∀ y ∈ i.store.case? id, y.endDate = none ∧ y.archiveActionDate = none)
    (hrun : Relation.ReflTransGen ArchivingStep i j) (hz : j.store.case? id = some z) :
    (z.endDate = none → z.archiveActionDate = none) ∧
      (z.endDate ≠ none → ∃ k, CalculatedLast id i k j) := by
  induction hrun generalizing z with
  | refl => exact ⟨fun _ => (hopen z hz).2, fun hclosed => absurd (hopen z hz).1 hclosed⟩
  | @tail m n hrun hstep ih =>
      have hm := archivingSteps_sound hi hrun
      -- A case that was closed before has stayed closed by this step, unless it is calculated.
      have hstays : ∀ y, m.store.case? id = some y → y.endDate ≠ none → z.endDate ≠ none →
          ∃ k, CalculatedLast id i k n := by
        intro y hy hbefore hafter
        by_cases hcalculates : Calculates id m n
        · exact ⟨n, m, hrun, hcalculates, .refl⟩
        · obtain ⟨k, l, hstart, hcalculated, hsince⟩ := (ih hy).2 hbefore
          refine ⟨k, l, hstart, hcalculated, hsince.tail ⟨hstep, ?_, hcalculates⟩⟩
          rw [hz, Option.any_some, isClosed_iff_endDate_ne_none]
          exact hafter
      cases hstep.turns hm hz with
      | goesOn y hfound hend hdate =>
          refine ⟨fun hnone => ?_, fun hclosed => hstays y hfound (hend ▸ hclosed) hclosed⟩
          rw [hdate]
          exact (ih hfound).1 (hend ▸ hnone)
      | dated y r hfound hend hclosed _ _ _ _ _ =>
          have hbefore := isClosed_iff_endDate_ne_none.1 hclosed
          exact ⟨fun hnone => absurd (hend ▸ hnone) hbefore, hstays y hfound hbefore⟩
      | opened hend hundated => exact ⟨fun _ => hundated, fun hclosed => absurd hend hclosed⟩
      | closed y r hfound hend _ hrecorded hfinal hof =>
          refine ⟨fun hnone => absurd hnone hend, fun _ => ?_⟩
          by_cases hbefore : y.endDate = none
          · have hundated := (ih hfound).1 hbefore
            exact ⟨n, m, hrun, calculates_of_undated hstep hfound hundated hz hend hrecorded hfinal
              (.inl hof), .refl⟩
          · exact hstays y hfound hbefore hend

end Runs

/-- Commands are run that leave archive dates to be calculated, from where a case is not there
yet or is open without an archive date. If it is closed in the end, and its type is held here,
then its date was calculated, and since the last time the case has been closed. The date was
right then and it is the same now, and so it is right where its sources give the date that they
gave then. -/
theorem archive_date_follows_sources {id : String} {i j : Installation}
    (h : Reachable i ∨ i.Coherent ∧ i.store.WithoutCases)
    (hopen : ∀ y ∈ i.store.case? id, y.endDate = none ∧ y.archiveActionDate = none)
    (hrun : Relation.ReflTransGen ArchivingStep i j) {z : CaseRecord}
    (hz : j.store.case? id = some z) (hlocal : z.caseType.isRemote = false)
    (hclosed : z.isClosed = true) :
    (∃ k, CalculatedLast id i k j) ∧
    ∀ k, CalculatedLast id i k j →
      ∃ y, k.store.case? id = some y ∧ k.store.DatedBySources y ∧
        z.archiveActionDate = y.archiveActionDate ∧
        ((∀ due, j.store.due? z = some due → k.store.due? y = some due) →
          j.store.DatedBySources z) := by
  have hi : i.Sound := .of_start h
  refine ⟨(exists_calculatedLast hi hopen hrun hz).2 (isClosed_iff_endDate_ne_none.1 hclosed),
    fun k hcalculated => ?_⟩
  obtain ⟨m, hbefore, hcalculates, hsince⟩ := hcalculated
  have hm := archivingSteps_sound hi hbefore
  have hk := hcalculates.step.sound hm
  obtain ⟨y, -, hy, -⟩ := hcalculates.recorded
  have htype := archivingSteps_caseType (archivingSteps_of_staysClosed hsince) hy hz
  have hright := hcalculates.datedBySources hm hy (htype ▸ hlocal)
  have hsame := staysClosed_date_eq hk hsince hy hz hlocal
  exact ⟨y, hy, hright, hsame, fun hdue => hright.again hsame hdue⟩

/-! ## A date that is right again -/

/-- Whether a case has a date before each of some commands and is closed after it, and they leave
archive dates to be calculated. -/
def CaseCommand.allStayClosed (id : String) : List CaseCommand → Context → Installation → Bool
  | [], _, _ => true
  | command :: rest, c, i =>
      command.leavesArchiveDate && (i.store.case? id).any (·.archiveActionDate.isSome) &&
        ((command.run c i).2.store.case? id).any (·.isClosed) &&
        allStayClosed id rest c (command.run c i).2

theorem staysClosed_runAll {id : String} {commands : List CaseCommand} {c : Context}
    {i : Installation} (h : CaseCommand.allStayClosed id commands c i = true) :
    Relation.ReflTransGen (StaysClosed id) i (CaseCommand.runAll commands c i) := by
  induction commands generalizing i with
  | nil => exact .refl
  | cons command rest ih =>
      simp only [CaseCommand.allStayClosed, Bool.and_eq_true] at h
      obtain ⟨⟨⟨hleaves, hdated⟩, hclosed⟩, hrest⟩ := h
      refine .head ⟨⟨command, c, rfl, hleaves⟩, hclosed, fun hcalculates => ?_⟩ (ih hrest)
      obtain ⟨z, hz, hdated⟩ := (Option.any_eq_true _ _).1 hdated
      rw [hcalculates.undated z hz] at hdated
      cases hdated

theorem archivingSteps_runAll {commands : List CaseCommand} {c : Context} {i : Installation}
    (h : commands.all (·.leavesArchiveDate) = true) :
    Relation.ReflTransGen ArchivingStep i (CaseCommand.runAll commands c i) := by
  induction commands generalizing i with
  | nil => exact .refl
  | cons command rest ih =>
      rw [List.all_cons, Bool.and_eq_true] at h
      exact .head ⟨command, c, rfl, h.1⟩ (ih h.2)

/-- An hour after `Instant.epoch`, on the same day. -/
def hourLater : Instant := (Instant.ofEpoch? 3600 0).getD Instant.epoch

/-- The dossier below gets another result, and then the one that it had; the dossier above is
closed again on the same day. -/
def swappedResults : List CaseCommand := [
  .setResult [clerk] "dossier-2" "kept",
  .setResult [clerk] "dossier-2" "inherited",
  .recordStatus [clerk] "dossier-1" "done" hourLater]

def refiledRoom : Installation := CaseCommand.runAll swappedResults Context.alone closedRoom

/-- The date of the dossier below is calculated when the one above is closed. -/
theorem closedRoom_calculates : Calculates "dossier-2" dossierRoom closedRoom where
  step := ⟨closeDossier, Context.alone, rfl, rfl⟩
  undated := by
    have hundated : (dossierRoom.store.case? "dossier-2").all (·.archiveActionDate.isNone) =
        true := by decide +kernel
    intro z hz
    rw [Option.mem_def.1 hz, Option.all_some] at hundated
    exact Option.isNone_iff_eq_none.1 hundated
  recorded := by
    have hrecorded : closedRoom.store.statuses.rows = dossierRoom.store.statuses.rows ++
        [⟨2, "dossier-1", ⟨"done"⟩, Instant.epoch, true⟩] := by decide +kernel
    have hbelow : (closedRoom.store.case? "dossier-2").any (fun z =>
        z.isClosed && z.mainCase = some "dossier-1" &&
          (closedRoom.store.resultType? z).any (·.derivation.method = .hoofdzaak)) = true := by
      decide +kernel
    obtain ⟨z, hz, hall⟩ := (Option.any_eq_true _ _).1 hbelow
    rw [Bool.and_eq_true, Bool.and_eq_true, decide_eq_true_eq] at hall
    obtain ⟨⟨hclosed, hmain⟩, hcounts⟩ := hall
    obtain ⟨result, hresult, hmethod⟩ := (Option.any_eq_true _ _).1 hcounts
    exact ⟨z, _, hz, hclosed, hrecorded, rfl,
      .inr ⟨hmain, result, hresult, of_decide_eq_true hmethod⟩⟩

/-- A dossier that counts from the end of the one above has the right date after its result was
another one for a while, and the one above was closed twice. -/
theorem refiled_dossier_follows_sources :
    CalculatedLast "dossier-2" archiveRoom closedRoom refiledRoom ∧
      ∃ z, refiledRoom.store.case? "dossier-2" = some z ∧
        z.archiveActionDate = Date.of? 1975 1 1 ∧ refiledRoom.store.DatedBySources z := by
  have hreach : Reachable archiveRoom := (Reachable.start {}).step (.administration _ _ _)
  have hstart : archiveRoom.store.case? "dossier-2" = none := rfl
  have hopen : ∀ y ∈ archiveRoom.store.case? "dossier-2",
      y.endDate = none ∧ y.archiveActionDate = none := by
    intro y hy
    rw [hstart] at hy
    cases hy
  have hbefore : Relation.ReflTransGen ArchivingStep archiveRoom dossierRoom :=
    archivingSteps_runAll (by decide)
  have hsince : Relation.ReflTransGen (StaysClosed "dossier-2") closedRoom refiledRoom :=
    staysClosed_runAll (by decide +kernel)
  have hcalculated : CalculatedLast "dossier-2" archiveRoom closedRoom refiledRoom :=
    ⟨dossierRoom, hbefore, closedRoom_calculates, hsince⟩
  have hrun : Relation.ReflTransGen ArchivingStep archiveRoom refiledRoom :=
    (hbefore.tail closedRoom_calculates.step).trans (archivingSteps_of_staysClosed hsince)
  have hsame : (closedRoom.store.case? "dossier-2").map closedRoom.store.due? =
      (refiledRoom.store.case? "dossier-2").map refiledRoom.store.due? := by decide +kernel
  have hkept : (refiledRoom.store.case? "dossier-2").any (fun z =>
      z.archiveActionDate = Date.of? 1975 1 1 && !z.caseType.isRemote && z.isClosed) = true := by
    decide +kernel
  obtain ⟨z, hz, hall⟩ := (Option.any_eq_true _ _).1 hkept
  rw [Bool.and_eq_true, Bool.and_eq_true, decide_eq_true_eq, Bool.not_eq_true'] at hall
  obtain ⟨⟨hdate, hlocal⟩, hclosed⟩ := hall
  obtain ⟨-, hfollows⟩ :=
    archive_date_follows_sources (.inl hreach) hopen hrun hz hlocal hclosed
  obtain ⟨y, hy, -, -, hright⟩ := hfollows closedRoom hcalculated
  refine ⟨hcalculated, z, hz, hdate, hright fun due hdue => ?_⟩
  rw [hy, hz, Option.map_some, Option.map_some, Option.some.injEq] at hsame
  rw [hsame, hdue]

/-! ## Dates that fall behind -/

instance (s : Store) (z : CaseRecord) : Decidable (s.DatedBySources z) :=
  inferInstanceAs (Decidable (∀ endDate ∈ z.endDate, ∀ result ∈ s.resultType? z,
    ∀ p ∈ result.archiveActionPeriod,
      (result.derivation.method = .afgehandeld →
        (p.addTo endDate).map some = .ok z.archiveActionDate) ∧
      (result.derivation.method = .hoofdzaak → ∀ mainEnd ∈ s.mainEnd z,
        (p.addTo mainEnd).map some = .ok z.archiveActionDate)))

/-- A dossier that is closed, and then closed on another day. -/
def closedOnAnotherDay : List CaseCommand := [
  .create [clerk] "dossier-1" ⟨none, "dossier", .openbaar, none, {}⟩,
  .setResult [clerk] "dossier-1" "kept",
  .recordStatus [clerk] "dossier-1" "done" Instant.epoch,
  .recordStatus [clerk] "dossier-1" "done" dayLater]

/-- A dossier that gets another result after it was closed. -/
def resultAfterClosing : List CaseCommand := [
  .create [clerk] "dossier-1" ⟨none, "dossier", .openbaar, none, {}⟩,
  .setResult [clerk] "dossier-1" "inherited",
  .recordStatus [clerk] "dossier-1" "done" Instant.epoch,
  .setResult [clerk] "dossier-1" "kept"]

/-- A dossier below one that is closed, and then closed on another day. -/
def mainClosedOnAnotherDay : List CaseCommand :=
  closedDossier ++ [closeDossier, .recordStatus [clerk] "dossier-1" "done" dayLater]

/-- Closing again, another result, and closing the main case again: each of them leaves
the archive date where it was. -/
theorem archive_date_falls_behind :
    archiveRoom.store.WithoutCases ∧
      ∀ run ∈ [closedOnAnotherDay, resultAfterClosing, mainClosedOnAnotherDay],
        run.all (·.leavesArchiveDate) = true ∧
          ∃ z ∈ (CaseCommand.runAll run Context.alone archiveRoom).store.cases.rows,
            z.caseType.isRemote = false ∧
              ¬ (CaseCommand.runAll run Context.alone archiveRoom).store.DatedBySources z :=
  ⟨⟨rfl, rfl⟩, by decide +kernel⟩

end CaseAccess
