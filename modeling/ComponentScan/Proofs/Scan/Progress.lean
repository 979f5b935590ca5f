import ComponentScan.Proofs.Scan.Records
import ComponentScan.Proofs.Scan.Steps

/-!
# Progress of a scan

A scan calls detectors one after the other, until one fails or the walk is over, and then applies
the aliases one after the other (`Scan.Progress.advance`). This is how the report comes about
(`Scan.Progress.exists_after_detect`). After each step, also one that fails, the exports are the
identities whose definitions are exported, each once (`Scan.Progress.mem_exports_after_iff`).
-/

namespace ComponentScan

open Syntax

/-! ## Exports of a report -/

/-- Whether the exports are the identities whose definitions are exported, each once. -/
structure ScanReport.IsInStep (r : ScanReport) : Prop where
  isConsistent : r.IsConsistent
  nodup : r.exports.Nodup

namespace ScanReport

theorem defined?_eq_some_iff {r : ScanReport} {id : Identity} {c : DefinedComponent} :
    r.defined? id = some c ↔ r.components.get? id = some (.defined c) := by
  rw [defined?, Option.bind_eq_some_iff]
  constructor
  · rintro ⟨record, hget, hrecord⟩
    cases record <;> cases hrecord
    exact hget
  · exact fun hget => ⟨_, hget, rfl⟩

theorem nodup_exports_markExported {r : ScanReport} (h : r.exports.Nodup) (id : Identity) :
    (r.markExported id).exports.Nodup := by
  unfold markExported
  split
  · exact h
  · next hid =>
    have hnew : ∀ id' ∈ r.exports, id' ≠ id := by
      rintro id' hid' rfl
      exact hid (List.contains_iff_mem.2 hid')
    simpa [List.nodup_append, h] using hnew

theorem exports_define (r : ScanReport) (id : Identity) (c : DefinedComponent) :
    (r.define id c).2.exports = r.exports := by
  unfold define
  split <;> rfl

theorem exports_reference (r : ScanReport) (id : Identity) (c : ReferencedComponent) :
    (r.reference id c).2.exports = r.exports := by
  unfold reference
  split <;> rfl

theorem exports_updateDefined (r : ScanReport) (id : Identity)
    (f : DefinedComponent → DefinedComponent) : (r.updateDefined id f).exports = r.exports := by
  unfold updateDefined
  split <;> rfl

theorem isInStep_fresh (path : String) (repo : RepoMetadata) : (fresh path repo).IsInStep :=
  ⟨isConsistent_fresh path repo, List.nodup_nil⟩

theorem IsInStep.take {r : ScanReport} (h : r.IsInStep) (e : Event) : (r.take e).IsInStep := by
  refine ⟨h.isConsistent.take e, ?_⟩
  cases e with
  | define id c =>
    have hdefine : (r.define id c).2.exports.Nodup := by
      rw [exports_define]
      exact h.nodup
    simp only [ScanReport.take, takeDefinition]
    split
    · exact nodup_exports_markExported hdefine id
    · exact hdefine
  | reference id c =>
    simp only [ScanReport.take, exports_reference]
    exact h.nodup
  | annotate => exact h.nodup
  | claim => exact h.nodup
  | «alias» => exact h.nodup

theorem IsInStep.applyAlias {r : ScanReport} (h : r.IsInStep) (a : Identity × String) :
    (r.applyAlias a).IsInStep := by
  refine ⟨h.isConsistent.applyAlias a, ?_⟩
  unfold ScanReport.applyAlias
  split
  · refine nodup_exports_markExported ?_ a.1
    rw [exports_updateDefined]
    exact h.nodup
  · exact h.nodup

end ScanReport

namespace Scan

/-! ## Steps of detectors -/

/-- Whether a step leaves the exports in step with the definitions, also if it fails. -/
abbrev KeepsInStep {α : Type} (m : Scan α) : Prop :=
  Keeps (·.report.IsInStep) m

theorem keepsInStep_log (indent : Nat) (message : String) : KeepsInStep (log indent message) :=
  fun _ h => h

theorem keepsInStep_recordDefinition (s : Session) (c : Candidate) (id : Identity)
    (references : List Identity) (indent : Nat) :
    KeepsInStep (recordDefinition s c id references indent) := by
  intro st h
  obtain ⟨log, hrun⟩ := (traces_recordDefinition s c id references indent st).exists_run
  rw [hrun]
  exact h.take (.define id (c.component s references))

variable {α : Type} {m : Scan α}

theorem Records.keepsInStep (h : Records m) : KeepsInStep m := by
  refine Keeps.of_builtFrom keepsInStep_log (fun h => ?_) h
  cases h with
  | reference id c => exact fun st hst => hst.take (.reference id c)
  | define s c id references indent => exact keepsInStep_recordDefinition s c id references indent
  | note id exported => exact fun _ hst => hst

theorem Annotates.keepsInStep (h : Annotates m) : KeepsInStep m := by
  refine Keeps.of_builtFrom keepsInStep_log (fun h => ?_) h
  cases h with
  | annotate a => exact fun st hst => hst.take (.annotate a)
  | claim offset => exact fun _ hst => hst
  | claimed => exact fun _ hst => hst

theorem keepsInStep_visit {d : Detector} (hd : d ∈ detectors) (config : Config) (s : Session)
    (v : Visit) (indent : Nat) : KeepsInStep (d.visit config s v indent) := by
  rcases mem_detectors_iff.1 hd with hd | rfl
  · exact (records_of_mem hd config s v indent).keepsInStep
  · exact (annotates_annotationTags s indent config v).keepsInStep

theorem keepsInStep_applyAlias (id : Identity) (exported : String) :
    KeepsInStep (ExportAlias.applyAlias id exported) := by
  intro st h
  obtain ⟨log, hrun⟩ := exists_run_applyAlias id exported st
  rw [hrun]
  exact h.applyAlias (id, exported)

/-! ## Progress -/

/-- The calls of detectors in a scan, in order. -/
def detectorCalls (config : Config) (s : Session) : List (Scan Unit) :=
  (visits s.root).flatMap fun v => detectors.map fun d => d.visit config s v (v.depth - 1)

/-- Where a scan is, and its state there. -/
inductive Progress
  | walking (calls : List (Scan Unit)) (st : ScanState)
  | failed (e : ScanError) (st : ScanState)
  | finishing (aliases : List (Identity × String)) (st : ScanState)

namespace Progress

def state : Progress → ScanState
  | walking _ st | failed _ st | finishing _ st => st

/-- Where a scan is when a detector has returned and some calls are left. -/
def ofReturn (calls : List (Scan Unit)) : Except ScanError Unit × ScanState → Progress
  | (.ok (), st) => walking calls st
  | (.error e, st) => failed e st

/-- Makes the next call of a detector, or applies the next alias. -/
def advance : Progress → Progress
  | walking (call :: calls) st => ofReturn calls (call.run st)
  | walking [] st => finishing st.aliases st
  | failed e st => failed e st
  | finishing ((id, exported) :: aliases) st =>
    finishing aliases ((ExportAlias.applyAlias id exported).run st).2
  | finishing [] st => finishing [] st

def start (config : Config) (s : Session) (repo : RepoMetadata) : Progress :=
  walking (detectorCalls config s) { report := .fresh s.path repo }

/-- Where a scan is after some steps. -/
def after (config : Config) (s : Session) (repo : RepoMetadata) (steps : Nat) : Progress :=
  advance^[steps] (start config s repo)

/-- What a scan that is over yields. -/
def outcome? : Progress → Option (Option ScanError × ScanReport)
  | failed e st => some (some e, { st.report with debugLog := st.log })
  | finishing [] st => some (none, { st.report with debugLog := st.log })
  | _ => none

/-! ## What a scan comes to -/

/-- Whether a scan at one place gets to another one. -/
def Reaches (p p' : Progress) : Prop :=
  ∃ steps, advance^[steps] p = p'

theorem Reaches.refl (p : Progress) : p.Reaches p :=
  ⟨0, rfl⟩

theorem Reaches.of_advance {p p' : Progress} (h : p.advance.Reaches p') : p.Reaches p' := by
  obtain ⟨steps, h⟩ := h
  exact ⟨steps + 1, h⟩

theorem Reaches.trans {p p' p'' : Progress} (h : p.Reaches p') (h' : p'.Reaches p'') :
    p.Reaches p'' := by
  obtain ⟨steps, rfl⟩ := h
  obtain ⟨steps', rfl⟩ := h'
  exact ⟨steps' + steps, Function.iterate_add_apply ..⟩

/-- One call after the other gets to where the calls together end. -/
theorem reaches_ofReturn (calls : List (Scan Unit)) (st : ScanState) :
    (walking calls st).Reaches (ofReturn [] ((calls.forM id).run st)) := by
  induction calls generalizing st with
  | nil => exact .refl _
  | cons call calls ih =>
    have hcons : (call :: calls).forM id = call >>= fun _ => calls.forM id := rfl
    refine .of_advance ?_
    rw [advance, hcons, run_bind]
    rcases call.run st with ⟨e | _, st'⟩
    · exact .refl _
    · exact ih st'

theorem reaches_finishing (aliases : List (Identity × String)) (st : ScanState) :
    ∃ st', (aliases.forM fun (id, exported) => ExportAlias.applyAlias id exported).run st =
      (.ok (), st') ∧ (finishing aliases st).Reaches (finishing [] st') := by
  induction aliases generalizing st with
  | nil => exact ⟨st, rfl, .refl _⟩
  | cons a aliases ih =>
    obtain ⟨log, hrun⟩ := exists_run_applyAlias a.1 a.2 st
    obtain ⟨st', hrest, hreaches⟩ := ih ((ExportAlias.applyAlias a.1 a.2).run st).2
    refine ⟨st', ?_, .of_advance hreaches⟩
    change (ExportAlias.applyAlias a.1 a.2 >>= fun _ => aliases.forM _ : Scan Unit).run st = _
    rw [run_bind]
    rw [hrun] at hrest ⊢
    exact hrest

variable (config : Config) (s : Session) (repo : RepoMetadata)

theorem runScan_eq_calls :
    runScan config s detectors true =
      (detectorCalls config s).forM id >>= fun _ => ExportAlias.applyAliases := by
  have hcallback : runDetectors config s detectors =
      .ofStep fun v indent => detectors.forM fun d => d.visit config s v indent := rfl
  have hvisits (vs : List Visit) :
      forVisits 0 (fun v indent => detectors.forM fun d => d.visit config s v indent) vs =
        (vs.flatMap fun v => detectors.map fun d => d.visit config s v (v.depth - 1)).forM id := by
    induction vs with
    | nil => rfl
    | cons v vs ih =>
      rw [forVisits_cons, ih, List.flatMap_cons, Nat.zero_add]
      simp only [List.forM_eq_forM, List.forM_append, List.forM_map, id]
  rw [runScan, hcallback, walk_ofStep, hvisits, bind_assoc]
  rfl

/-- A scan that goes on comes to an end, and yields what the detectors make of the file. -/
theorem exists_after_detect :
    ∃ steps, (after config s repo steps).outcome? = some (detect config s repo detectors true) := by
  have hcalls := reaches_ofReturn (detectorCalls config s) { report := .fresh s.path repo }
  rw [detect, runScan_eq_calls, run_bind]
  generalize ((detectorCalls config s).forM id).run _ = ended at hcalls ⊢
  rcases ended with ⟨e | _, st⟩
  · obtain ⟨steps, hsteps⟩ := hcalls
    exact ⟨steps, congrArg outcome? hsteps⟩
  · obtain ⟨st', hrun, haliases⟩ := reaches_finishing st.aliases st
    replace hrun : ExportAlias.applyAliases.run st = (.ok (), st') := hrun
    obtain ⟨steps, hsteps⟩ := hcalls.trans (.of_advance haliases)
    refine ⟨steps, (congrArg outcome? hsteps).trans ?_⟩
    dsimp only
    rw [hrun]
    rfl

/-! ## Exports in between -/

/-- The calls of detectors that are left. -/
def calls : Progress → List (Scan Unit)
  | walking calls _ => calls
  | failed _ _ | finishing _ _ => []

/-- Whether the exports are in step with the definitions, and the calls that are left keep them. -/
structure IsInStep (p : Progress) : Prop where
  report : p.state.report.IsInStep
  calls : ∀ call ∈ p.calls, KeepsInStep call

theorem isInStep_start : (start config s repo).IsInStep := by
  refine ⟨ScanReport.isInStep_fresh s.path repo, fun call hcall => ?_⟩
  obtain ⟨v, -, hcall⟩ := List.mem_flatMap.1 hcall
  obtain ⟨d, hd, rfl⟩ := List.mem_map.1 hcall
  exact keepsInStep_visit hd config s v _

theorem IsInStep.advance {p : Progress} (h : p.IsInStep) : p.advance.IsInStep := by
  match p with
  | walking (call :: calls) st =>
    obtain ⟨hcall, hcalls⟩ := List.forall_mem_cons.1 h.calls
    have hreport := hcall st h.report
    rw [Progress.advance]
    generalize call.run st = ended at hreport ⊢
    rcases ended with ⟨e | _, st'⟩
    · exact ⟨hreport, nofun⟩
    · exact ⟨hreport, hcalls⟩
  | walking [] st => exact ⟨h.report, nofun⟩
  | failed e st => exact h
  | finishing ((id, exported) :: aliases) st =>
    exact ⟨keepsInStep_applyAlias id exported st h.report, nofun⟩
  | finishing [] st => exact h

theorem isInStep_after (steps : Nat) : (after config s repo steps).IsInStep := by
  induction steps with
  | zero => exact isInStep_start config s repo
  | succ steps ih =>
    rw [after, Function.iterate_succ_apply']
    exact ih.advance

/-- Wherever a scan is, it has exported an identity if and only if the identity has a definition
with an exported name, and has exported none twice. In the end its report is that of the file. -/
theorem mem_exports_after_iff :
    (∀ steps, let report := (after config s repo steps).state.report
      (∀ id, id ∈ report.exports ↔ ∃ c name,
        report.components.get? id = some (.defined c) ∧ c.exportedAs = some name) ∧
      report.exports.Nodup) ∧
    ∃ steps, (after config s repo steps).outcome? =
      some (detect config s repo detectors true) := by
  refine ⟨fun steps => ?_, exists_after_detect config s repo⟩
  have h := (isInStep_after config s repo steps).report
  refine ⟨fun id => (h.isConsistent id).trans ?_, h.nodup⟩
  simp only [ScanReport.defined?_eq_some_iff, Option.isSome_iff_exists, exists_and_left]

end Progress

end Scan

end ComponentScan
