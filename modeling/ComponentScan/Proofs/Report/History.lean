import ComponentScan.Proofs.Report.Table
import Mathlib.Data.List.Induction

/-!
# Histories of a report

A definition wins over references, and within either kind the first writer wins. So the record that
calls leave for an identity is known from the definitions and the references that were called for it
(`ScanReport.recordOf?`), however the calls are interleaved; what later calls may change of a
definition is the name under which it is exported (`ScanReport.callAll_fresh`).
-/

namespace ComponentScan

/-! ## Records without their exported names -/

/-- A component with another exported name. -/
def DefinedComponent.changeExport (change : Option String → Option String) (c : DefinedComponent) :
    DefinedComponent :=
  { c with exportedAs := change c.exportedAs }

namespace ComponentRecord

/-- A record with another definition, if it is one. -/
def mapDefined (f : DefinedComponent → DefinedComponent) : ComponentRecord → ComponentRecord
  | defined c => defined (f c)
  | referenced c => referenced c

/-- A record with another exported name, if it is a definition. -/
def changeExport (change : Option String → Option String) : ComponentRecord → ComponentRecord :=
  mapDefined (·.changeExport change)

/-- A record without its exported name. -/
def unexported : ComponentRecord → ComponentRecord :=
  changeExport fun _ => none

@[simp] theorem unexported_changeExport (change : Option String → Option String)
    (record : ComponentRecord) : (record.changeExport change).unexported = record.unexported := by
  cases record <;> rfl

end ComponentRecord

namespace ComponentTable

/-- A table without exported names. -/
def unexported (t : ComponentTable) : ComponentTable :=
  ⟨t.entries.map fun e => (e.1, e.2.unexported)⟩

theorem get?_unexported (t : ComponentTable) (id : Identity) :
    t.unexported.get? id = (t.get? id).map ComponentRecord.unexported := by
  obtain ⟨entries⟩ := t
  induction entries with
  | nil => rfl
  | cons e rest ih =>
    simp only [get?, unexported, List.map_cons, lookup_cons_eq_ite] at ih ⊢
    rw [ih]
    split <;> rfl

theorem IsSorted.unexported {t : ComponentTable} (h : t.IsSorted) : t.unexported.IsSorted :=
  List.pairwise_map.2 h

end ComponentTable

/-! ## Calls -/

/-- What changes the components and the exports of a report. -/
inductive ReportCall
  | define (id : Identity) (c : DefinedComponent)
  | reference (id : Identity) (c : ReferencedComponent)
  | markExported (id : Identity)
  /-- Changes the name under which a definition is exported. -/
  | changeExport (id : Identity) (change : Option String → Option String)

namespace ReportCall

/-- The definition that a call gives for an identity. -/
@[simp] def definition? (id : Identity) : ReportCall → Option DefinedComponent
  | define id' c => if id = id' then some c else none
  | _ => none

/-- The reference that a call gives for an identity. -/
@[simp] def reference? (id : Identity) : ReportCall → Option ReferencedComponent
  | reference id' c => if id = id' then some c else none
  | _ => none

theorem eq_define_of_definition? {call : ReportCall} {id : Identity} {c : DefinedComponent}
    (h : call.definition? id = some c) : call = .define id c := by
  cases call with
  | define id' c' =>
    obtain ⟨rfl, ⟨⟩⟩ := Option.ite_none_right_eq_some.1 h
    rfl
  | reference | markExported | changeExport => cases h

theorem eq_reference_of_reference? {call : ReportCall} {id : Identity} {c : ReferencedComponent}
    (h : call.reference? id = some c) : call = .reference id c := by
  cases call with
  | reference id' c' =>
    obtain ⟨rfl, ⟨⟩⟩ := Option.ite_none_right_eq_some.1 h
    rfl
  | define | markExported | changeExport => cases h

/-- The identity that a call marks as exported. -/
def marked? : ReportCall → Option Identity
  | markExported id => some id
  | _ => none

end ReportCall

namespace ScanReport

variable (r : ScanReport)

/-- The report after a call. -/
def call : ReportCall → ScanReport
  | .define id c => (r.define id c).2
  | .reference id c => (r.reference id c).2
  | .markExported id => r.markExported id
  | .changeExport id change => r.updateDefined id (·.changeExport change)

/-- What a call returns. -/
def answer? : ReportCall → Option Bool
  | .define id c => some (r.define id c).1
  | .reference id c => some (r.reference id c).1
  | .markExported _ | .changeExport _ _ => none

/-- The report after calls, one after the other. -/
def callAll (calls : List ReportCall) : ScanReport :=
  calls.foldl call r

theorem callAll_append (calls calls' : List ReportCall) :
    r.callAll (calls ++ calls') = (r.callAll calls).callAll calls' :=
  List.foldl_append

/-! ## The record of an identity after a call -/

theorem get?_define (id id' : Identity) (c : DefinedComponent) :
    (r.define id c).2.components.get? id' =
      if id' = id then some (.defined ((r.defined? id).getD c)) else r.components.get? id' := by
  unfold define
  split
  · next c' hc' =>
    obtain ⟨record, hrecord, hdefined⟩ := Option.bind_eq_some_iff.1 hc'
    cases record with
    | referenced => cases hdefined
    | defined c'' =>
      cases hdefined
      split
      · next heq => rw [heq, hrecord, hc', Option.getD_some]
      · rfl
  · next hnone =>
    dsimp only
    rw [ComponentTable.get?_insert, hnone, Option.getD_none]

theorem get?_reference (id id' : Identity) (c : ReferencedComponent) :
    (r.reference id c).2.components.get? id' =
      (r.components.get? id').or (if id' = id then some (.referenced c) else none) := by
  unfold reference
  split
  · next record hrecord =>
    dsimp only
    split
    · next heq => rw [heq, hrecord, Option.some_or]
    · rw [Option.or_none]
  · next hnone =>
    dsimp only
    rw [ComponentTable.get?_insert]
    split
    · next heq => rw [heq, hnone, Option.none_or]
    · rw [Option.or_none]

theorem components_markExported (id : Identity) :
    (r.markExported id).components = r.components := by
  unfold markExported
  split <;> rfl

theorem get?_updateDefined (id id' : Identity) (f : DefinedComponent → DefinedComponent) :
    (r.updateDefined id f).components.get? id' =
      if id' = id then (r.components.get? id').map (ComponentRecord.mapDefined f)
      else r.components.get? id' := by
  unfold updateDefined defined?
  cases hrecord : r.components.get? id with
  | none =>
    dsimp only [Option.bind_none]
    split
    · next heq => rw [heq, hrecord, Option.map_none]
    · rfl
  | some record =>
    cases record with
    | defined c =>
      dsimp only [Option.bind_some, ComponentRecord.asDefined?]
      rw [ComponentTable.get?_insert]
      split
      · next heq =>
        rw [heq, hrecord]
        rfl
      · rfl
    | referenced c =>
      dsimp only [Option.bind_some, ComponentRecord.asDefined?]
      split
      · next heq =>
        rw [heq, hrecord]
        rfl
      · rfl

end ScanReport

/-! ## The life of a record -/

namespace ReportCall

/-- What a call makes of the record of an identity. -/
@[simp] def settle (id : Identity) : ReportCall → Option ComponentRecord → Option ComponentRecord
  | define id' c, record? =>
    if id = id' then some (.defined ((record?.bind ComponentRecord.asDefined?).getD c)) else record?
  | reference id' c, record? => record?.or (if id = id' then some (.referenced c) else none)
  | markExported _, record? => record?
  | changeExport id' change, record? =>
    if id = id' then record?.map (ComponentRecord.changeExport change) else record?

/-- A definition stays, up to its exported name. -/
theorem exists_settle_defined (call : ReportCall) (id : Identity) (c : DefinedComponent) :
    ∃ change, call.settle id (some (.defined c)) = some (.defined (c.changeExport change)) := by
  cases call with
  | define id' c' => exact ⟨fun exported => exported, ite_self _⟩
  | reference id' c' => exact ⟨fun exported => exported, rfl⟩
  | markExported id' => exact ⟨fun exported => exported, rfl⟩
  | changeExport id' change =>
    by_cases heq : id = id'
    · exact ⟨change, if_pos heq⟩
    · exact ⟨fun exported => exported, if_neg heq⟩

end ReportCall

namespace ScanReport

variable (r : ScanReport)

theorem get?_call (call : ReportCall) (id : Identity) :
    (r.call call).components.get? id = call.settle id (r.components.get? id) := by
  cases call with
  | define id' c =>
    refine (r.get?_define id' id c).trans ?_
    dsimp only [ReportCall.settle]
    split
    · next heq =>
      rw [heq]
      rfl
    · rfl
  | reference id' c => exact r.get?_reference id' id c
  | markExported id' => exact congrArg (·.get? id) (r.components_markExported id')
  | changeExport id' change => exact r.get?_updateDefined id' id _

/-! ## The record of a history -/

/-- The record that calls leave for an identity, up to its exported name: the first definition, or
else the first reference. -/
def recordOf? (calls : List ReportCall) (id : Identity) : Option ComponentRecord :=
  ((calls.filterMap (·.definition? id)).head?.map .defined).or
    ((calls.filterMap (·.reference? id)).head?.map .referenced)

theorem define_mem_of_recordOf? {calls : List ReportCall} {id : Identity} {c : DefinedComponent}
    (h : recordOf? calls id = some (.defined c)) : .define id c ∈ calls := by
  unfold recordOf? at h
  rcases Option.or_eq_some_iff.1 h with h | ⟨-, h⟩
  · obtain ⟨c', hc', heq⟩ := Option.map_eq_some_iff.1 h
    obtain ⟨call, hmem, hcall⟩ := List.mem_filterMap.1 (List.mem_of_head? hc')
    cases heq
    exact ReportCall.eq_define_of_definition? hcall ▸ hmem
  · obtain ⟨c', -, heq⟩ := Option.map_eq_some_iff.1 h
    cases heq

theorem reference_mem_of_recordOf? {calls : List ReportCall} {id : Identity}
    {c : ReferencedComponent} (h : recordOf? calls id = some (.referenced c)) :
    .reference id c ∈ calls := by
  unfold recordOf? at h
  rcases Option.or_eq_some_iff.1 h with h | ⟨-, h⟩
  · obtain ⟨c', -, heq⟩ := Option.map_eq_some_iff.1 h
    cases heq
  · obtain ⟨c', hc', heq⟩ := Option.map_eq_some_iff.1 h
    obtain ⟨call, hmem, hcall⟩ := List.mem_filterMap.1 (List.mem_of_head? hc')
    cases heq
    exact ReportCall.eq_reference_of_reference? hcall ▸ hmem

theorem exists_recordOf?_of_reference_mem {calls : List ReportCall} {id : Identity}
    {c : ReferencedComponent} (h : .reference id c ∈ calls) :
    ∃ record, recordOf? calls id = some record := by
  have hmem : c ∈ calls.filterMap (·.reference? id) :=
    List.mem_filterMap.2 ⟨_, h, if_pos rfl⟩
  have hhead : (calls.filterMap (·.reference? id)).head?.isSome = true :=
    List.isSome_head?.2 (List.ne_nil_of_mem hmem)
  refine Option.isSome_iff_exists.1 ?_
  rw [recordOf?, Option.isSome_or, Option.isSome_map, Option.isSome_map, hhead, Bool.or_true]

theorem exists_settle_recordOf? (calls : List ReportCall) (id : Identity)
    (change : Option String → Option String) (call : ReportCall) :
    ∃ change', call.settle id ((recordOf? calls id).map (ComponentRecord.changeExport change)) =
      (recordOf? (calls ++ [call]) id).map (ComponentRecord.changeExport change') := by
  simp only [recordOf?, List.filterMap_append, List.head?_append]
  generalize (calls.filterMap (·.definition? id)).head? = definition?
  generalize (calls.filterMap (·.reference? id)).head? = reference?
  cases call with
  | define id' c =>
    by_cases heq : id = id'
    · cases definition? with
      | some c' => exact ⟨change, by simp [heq]; rfl⟩
      | none => exact ⟨fun exported => exported, by cases reference? <;> simp [heq] <;> rfl⟩
    · exact ⟨change, by simp [heq]⟩
  | reference id' c =>
    refine ⟨change, ?_⟩
    by_cases heq : id = id'
    · cases definition? <;> cases reference? <;> simp [heq]
      rfl
    · simp [heq]
  | markExported id' => exact ⟨change, by simp⟩
  | changeExport id' change' =>
    by_cases heq : id = id'
    · refine ⟨fun exported => change' (change exported), ?_⟩
      cases definition? <;> cases reference? <;> simp [heq] <;> rfl
    · exact ⟨change, by simp [heq]⟩

theorem exists_get?_callAll (path : String) (repo : RepoMetadata) (calls : List ReportCall)
    (id : Identity) : ∃ change, ((fresh path repo).callAll calls).components.get? id =
      (recordOf? calls id).map (ComponentRecord.changeExport change) := by
  induction calls using List.reverseRecOn with
  | nil => exact ⟨fun exported => exported, rfl⟩
  | append_singleton calls call ih =>
    obtain ⟨change, ih⟩ := ih
    obtain ⟨change', hsettle⟩ := exists_settle_recordOf? calls id change call
    refine ⟨change', ?_⟩
    rw [callAll_append, ← hsettle, ← ih]
    exact get?_call _ call id

/-- A definition stays through all later calls, up to its exported name. -/
theorem exists_get?_callAll_of_defined {c : DefinedComponent} {id : Identity}
    (h : r.components.get? id = some (.defined c)) (calls : List ReportCall) :
    ∃ change, (r.callAll calls).components.get? id = some (.defined (c.changeExport change)) := by
  induction calls generalizing r c with
  | nil => exact ⟨fun exported => exported, h⟩
  | cons call calls ih =>
    obtain ⟨change, hcall⟩ := call.exists_settle_defined id c
    have hget := r.get?_call call id
    rw [h, hcall] at hget
    obtain ⟨change', hcalls⟩ := ih (r.call call) hget
    exact ⟨fun exported => change' (change exported), hcalls⟩

/-! ## Answers -/

/-- A definition or a reference that is called for says whether it changed the components. -/
theorem answer?_iff {call : ReportCall} {answer : Bool} (h : r.answer? call = some answer) :
    answer = true ↔ (r.call call).components ≠ r.components := by
  have hinsert {id : Identity} {record : ComponentRecord}
      (hne : r.components.get? id ≠ some record) :
      r.components.insert id record ≠ r.components := fun heq => by
    rw [← heq, ComponentTable.get?_insert, if_pos rfl] at hne
    exact hne rfl
  cases call with
  | define id c =>
    simp only [answer?, call, define, Option.some.injEq] at h ⊢
    cases hc : r.defined? id with
    | some c' => simp [← h, hc]
    | none =>
      have hne : r.components.get? id ≠ some (.defined c) := fun hrecord => by
        rw [defined?, hrecord] at hc
        cases hc
      simp [← h, hc, hinsert hne]
  | reference id c =>
    simp only [answer?, call, reference, Option.some.injEq] at h ⊢
    cases hrecord : r.components.get? id with
    | some record => simp [← h, hrecord]
    | none =>
      have hne : r.components.get? id ≠ some (.referenced c) := by simp [hrecord]
      simp [← h, hrecord, hinsert hne]
  | markExported id => cases h
  | changeExport id change => cases h

/-! ## Exports -/

/-- One more identity, which is kept if it is new. -/
theorem eraseDups_concat (ids : List Identity) (id : Identity) :
    (ids ++ [id]).eraseDups = if id ∈ ids then ids.eraseDups else ids.eraseDups ++ [id] := by
  rw [List.eraseDups_append, List.removeAll, List.filter_singleton]
  by_cases hmem : id ∈ ids <;> simp [hmem, List.eraseDups_cons]

theorem exports_markExported (id : Identity) :
    (r.markExported id).exports = if id ∈ r.exports then r.exports else r.exports ++ [id] := by
  unfold markExported
  simp only [List.contains_iff_mem]
  split <;> rfl

theorem exports_call (call : ReportCall) :
    (r.call call).exports = match call.marked? with
      | some id => (r.markExported id).exports
      | none => r.exports := by
  cases call with
  | define id c =>
    simp only [call, define]
    split <;> rfl
  | reference id c =>
    simp only [call, reference]
    split <;> rfl
  | markExported id => rfl
  | changeExport id change =>
    simp only [call, updateDefined]
    split <;> rfl

theorem exports_callAll (path : String) (repo : RepoMetadata) (calls : List ReportCall) :
    ((fresh path repo).callAll calls).exports =
      (calls.filterMap ReportCall.marked?).eraseDups := by
  induction calls using List.reverseRecOn with
  | nil => rfl
  | append_singleton calls call ih =>
    have hlast : ((fresh path repo).callAll (calls ++ [call])).exports =
        (((fresh path repo).callAll calls).call call).exports := by
      rw [callAll_append]
      rfl
    rw [hlast, exports_call, List.filterMap_append]
    cases hmarked : call.marked? with
    | none => simp [hmarked, ih]
    | some id =>
      dsimp only
      rw [exports_markExported, ih, List.filterMap_cons_some hmarked, List.filterMap_nil,
        eraseDups_concat]
      simp only [List.mem_eraseDups]

/-! ## All calls on a fresh report -/

theorem isSorted_callAll {r : ScanReport} (h : r.components.IsSorted) (calls : List ReportCall) :
    (r.callAll calls).components.IsSorted := by
  have hcall {r : ScanReport} (h : r.components.IsSorted) (call : ReportCall) :
      (r.call call).components.IsSorted := by
    cases call with
    | define id c =>
      simp only [call, define]
      split
      · exact h
      · exact h.insert id _
    | reference id c =>
      simp only [call, reference]
      split
      · exact h
      · exact h.insert id _
    | markExported id => exact (r.components_markExported id).symm ▸ h
    | changeExport id change =>
      simp only [call, updateDefined]
      split
      · exact h.insert id _
      · exact h
  induction calls generalizing r with
  | nil => exact h
  | cons call calls ih => exact ih (hcall h call)

/-- On a fresh report definitions win over references and first writers win within a kind, whatever
the order of the calls: only the exported name of a definition depends on it. Each call says whether
it changed the components, and the exports are the marked identities, each once. -/
theorem callAll_fresh (path : String) (repo : RepoMetadata) (calls : List ReportCall) :
    (∀ id, ∃ change, ((fresh path repo).callAll calls).components.get? id =
      (recordOf? calls id).map (ComponentRecord.changeExport change)) ∧
    (∀ before after, calls = before ++ after → ∀ id c,
      ((fresh path repo).callAll before).components.get? id = some (.defined c) →
      ∃ change, ((fresh path repo).callAll calls).components.get? id =
        some (.defined (c.changeExport change))) ∧
    (∀ before call after, calls = before ++ call :: after → ∀ answer,
      ((fresh path repo).callAll before).answer? call = some answer →
      (answer = true ↔ ((fresh path repo).callAll (before ++ [call])).components ≠
        ((fresh path repo).callAll before).components)) ∧
    ((fresh path repo).callAll calls).exports = (calls.filterMap ReportCall.marked?).eraseDups ∧
    ∀ calls' : List ReportCall,
      (∀ id, calls'.filterMap (·.definition? id) = calls.filterMap (·.definition? id) ∧
        calls'.filterMap (·.reference? id) = calls.filterMap (·.reference? id)) →
      ((fresh path repo).callAll calls').components.unexported =
        ((fresh path repo).callAll calls).components.unexported := by
  refine ⟨exists_get?_callAll path repo calls, ?_, ?_, exports_callAll path repo calls, ?_⟩
  · rintro before after rfl id c hc
    rw [callAll_append]
    exact exists_get?_callAll_of_defined _ hc after
  · rintro before call after - answer hanswer
    rw [callAll_append]
    exact answer?_iff _ hanswer
  · intro calls' hsame
    have hsorted (calls : List ReportCall) :
        ((fresh path repo).callAll calls).components.unexported.IsSorted :=
      (isSorted_callAll ComponentTable.isSorted_empty calls).unexported
    refine (hsorted calls').ext (hsorted calls) fun id => ?_
    have hrecord : recordOf? calls' id = recordOf? calls id := by
      rw [recordOf?, recordOf?, (hsame id).1, (hsame id).2]
    have hunexported (calls : List ReportCall) :
        ((fresh path repo).callAll calls).components.unexported.get? id =
          (recordOf? calls id).map ComponentRecord.unexported := by
      obtain ⟨change, hget⟩ := exists_get?_callAll path repo calls id
      rw [ComponentTable.get?_unexported, hget, Option.map_map]
      exact congrArg (Option.map · _) (funext (ComponentRecord.unexported_changeExport change))
    rw [hunexported, hunexported, hrecord]

/-- A component that is referred to, and exported, before it is defined. -/
def definedLate (c c' : DefinedComponent) : List ReportCall :=
  [.reference "a.tsx:A" ⟨"A", "?"⟩, .markExported "a.tsx:A",
    .changeExport "a.tsx:A" fun _ => some "A", .define "a.tsx:A" c, .define "a.tsx:A" c']

theorem callAll_fresh_definedLate :
    let c : DefinedComponent := ⟨"A", ⟨"a.tsx", 1, 1⟩, none, [], default⟩
    let c' : DefinedComponent := ⟨"A", ⟨"a.tsx", 2, 2⟩, some "A", ["a.tsx:B"], default⟩
    let report := (fresh "a.tsx" .placeholder).callAll (definedLate c c')
    (∃ change, report.components.get? "a.tsx:A" = some (.defined (c.changeExport change))) ∧
      ((fresh "a.tsx" .placeholder).callAll (definedLate c c').reverse).components.unexported ≠
        report.components.unexported ∧
      ((fresh "a.tsx" .placeholder).callAll
          [.define "a.tsx:A" c, .reference "a.tsx:A" ⟨"A", "?"⟩, .define "a.tsx:A" c']
        ).components.unexported = report.components.unexported := by
  intro c c' report
  obtain ⟨hrecord, -, -, -, horder⟩ := callAll_fresh "a.tsx" .placeholder (definedLate c c')
  refine ⟨?_, by decide, horder _ fun id => ?_⟩
  · obtain ⟨change, hget⟩ := hrecord "a.tsx:A"
    exact ⟨change, hget⟩
  · by_cases hid : id = "a.tsx:A" <;> simp [definedLate, hid]

end ScanReport

end ComponentScan
