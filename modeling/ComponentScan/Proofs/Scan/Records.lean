import ComponentScan.Proofs.Report.History
import ComponentScan.Proofs.Report.SequenceKeys
import ComponentScan.Proofs.Scan.Traces

/-!
# Records of events

The definition that a report has of an identity is the first one among the events, exported under
the first of its aliases if it was not exported where it stands (`defined?_reportOf`). The exports
of a report are the identities whose definitions are exported (`isConsistent_reportOf`). Up to
exported names all its records are those of the history of its events (`exists_get?_reportOf`), and
its annotations are those of the events in order (`annotations_reportOf`).
-/

namespace ComponentScan

namespace Event

/-- The definition that an event makes. -/
def definition? : Event → Option (Identity × DefinedComponent)
  | define id c => some (id, c)
  | _ => none

theorem eq_define_of_definition? {e : Event} {id : Identity} {c : DefinedComponent}
    (h : e.definition? = some (id, c)) : e = .define id c := by
  cases e <;> cases h
  rfl

/-- The call by which an event changes the components. -/
def call? : Event → Option ReportCall
  | define id c => some (.define id c)
  | reference id c => some (.reference id c)
  | _ => none

/-- The annotation that an event adds. -/
def annotation? : Event → Option Annotation
  | annotate a => some a
  | _ => none

end Event

/-- The call by which an alias changes the components. -/
def aliasCall (a : Identity × String) : ReportCall :=
  .changeExport a.1 fun exportedAs => some (exportedAs.getD a.2)

/-- A component that may be exported under a name, if it is not exported where it stands. -/
def DefinedComponent.exportedBy (c : DefinedComponent) (exported : Option String) :
    DefinedComponent :=
  { c with exportedAs := c.exportedAs.or exported }

theorem ComponentRecord.mapDefined_exportedBy_none :
    mapDefined (·.exportedBy none) = id := by
  funext record
  cases record with
  | defined c => simp [mapDefined, DefinedComponent.exportedBy]
  | referenced c => rfl

theorem ComponentRecord.mapDefined_exportedBy_comp (exported exported' : Option String) :
    mapDefined (·.exportedBy exported) ∘ mapDefined (·.exportedBy exported') =
      mapDefined (·.exportedBy (exported'.or exported)) := by
  funext record
  cases record with
  | defined c => simp [mapDefined, DefinedComponent.exportedBy, Option.or_assoc]
  | referenced c => rfl

/-- The first definition of an identity among events. -/
def firstDefinition? (events : List Event) (id : Identity) : Option DefinedComponent :=
  (events.filterMap Event.definition?).lookup id

theorem firstDefinition?_append (events events' : List Event) (id : Identity) :
    firstDefinition? (events ++ events') id =
      (firstDefinition? events id).or (firstDefinition? events' id) := by
  rw [firstDefinition?, List.filterMap_append, List.lookup_append]
  rfl

theorem firstDefinition?_eq_none {events : List Event} {id : Identity}
    (h : ∀ c, .define id c ∉ events) : firstDefinition? events id = none := by
  rw [firstDefinition?, List.lookup_eq_none_iff]
  rintro ⟨id', c⟩ hmem
  obtain ⟨e, he, hdefinition⟩ := List.mem_filterMap.1 hmem
  refine bne_iff_ne.2 fun heq => ?_
  dsimp only at heq
  exact h c (heq ▸ Event.eq_define_of_definition? hdefinition ▸ he)

theorem firstDefinition?_define (id id' : Identity) (c : DefinedComponent) :
    firstDefinition? [.define id' c] id = if id = id' then some c else none := by
  have hlookup : firstDefinition? [.define id' c] id = List.lookup id [(id', c)] := rfl
  rw [hlookup, List.lookup_cons]
  by_cases heq : id = id'
  · rw [beq_iff_eq.2 heq, if_pos heq]
  · rw [beq_eq_false_iff_ne.2 heq, if_neg heq]
    rfl

theorem define_mem_of_firstDefinition? {events : List Event} {id : Identity} {c : DefinedComponent}
    (h : firstDefinition? events id = some c) : .define id c ∈ events := by
  obtain ⟨before, after, hlist, -⟩ := List.lookup_eq_some_iff.1 h
  have hmem : (id, c) ∈ events.filterMap Event.definition? :=
    hlist ▸ List.mem_append_right _ List.mem_cons_self
  obtain ⟨e, he, hdefinition⟩ := List.mem_filterMap.1 hmem
  exact Event.eq_define_of_definition? hdefinition ▸ he

theorem isSome_firstDefinition?_of_mem {events : List Event} {id : Identity} {c : DefinedComponent}
    (h : .define id c ∈ events) : (firstDefinition? events id).isSome = true :=
  List.lookup_isSome_iff.2
    ⟨(id, c), List.mem_filterMap.2 ⟨_, h, rfl⟩, beq_self_eq_true id⟩

namespace ScanReport

variable (r : ScanReport)

/-! ## One event -/

theorem defined?_insert (id id' : Identity) (record : ComponentRecord) :
    { r with components := r.components.insert id record }.defined? id' =
      if id' = id then record.asDefined? else r.defined? id' := by
  unfold defined?
  rw [ComponentTable.get?_insert]
  split <;> rfl

theorem define_of_some {id : Identity} {c' : DefinedComponent} (h : r.defined? id = some c')
    (c : DefinedComponent) : r.define id c = (false, r) := by
  simp [define, h]

theorem define_of_none {id : Identity} (h : r.defined? id = none) (c : DefinedComponent) :
    r.define id c = (true, { r with components := r.components.insert id (.defined c) }) := by
  simp [define, h]

theorem defined?_define (id id' : Identity) (c : DefinedComponent) :
    (r.define id c).2.defined? id' =
      (r.defined? id').or (if id' = id then some c else none) := by
  cases h : r.defined? id with
  | some c' =>
    rw [define_of_some r h]
    dsimp only
    split
    · next heq => rw [heq, h, Option.some_or]
    · rw [Option.or_none]
  | none =>
    rw [define_of_none r h]
    dsimp only
    rw [defined?_insert]
    split
    · next heq =>
      rw [heq, h]
      rfl
    · rw [Option.or_none]

theorem defined?_markExported (id id' : Identity) :
    (r.markExported id).defined? id' = r.defined? id' := by
  unfold markExported
  split <;> rfl

theorem defined?_reference (id id' : Identity) (c : ReferencedComponent) :
    (r.reference id c).2.defined? id' = r.defined? id' := by
  unfold reference
  split
  · rfl
  · next h =>
    rw [defined?_insert]
    split
    · next heq =>
      rw [heq, defined?, h]
      rfl
    · rfl

theorem defined?_take (e : Event) (id : Identity) :
    (r.take e).defined? id = (r.defined? id).or (firstDefinition? [e] id) := by
  cases e with
  | define id' c =>
    rw [firstDefinition?_define, ← defined?_define]
    simp only [take, takeDefinition]
    split
    · exact defined?_markExported _ id' id
    · rfl
  | reference id' c =>
    simp only [take, defined?_reference]
    exact Option.or_none.symm
  | annotate => exact Option.or_none.symm
  | claim => exact Option.or_none.symm
  | «alias» => exact Option.or_none.symm

/-! ## Exports -/

/-- Whether the exports are the identities whose definitions are exported. -/
def IsConsistent : Prop :=
  ∀ id, id ∈ r.exports ↔ ∃ c, r.defined? id = some c ∧ c.exportedAs.isSome

theorem isConsistent_fresh (path : String) (repo : RepoMetadata) :
    (fresh path repo).IsConsistent := fun _ => ⟨nofun, nofun⟩

theorem mem_exports_markExported {id id' : Identity} :
    id' ∈ (r.markExported id).exports ↔ id' ∈ r.exports ∨ id' = id := by
  unfold markExported
  split
  · next h =>
    have hmem : id ∈ r.exports := List.contains_iff_mem.1 h
    exact ⟨.inl, fun h => h.elim (·) (· ▸ hmem)⟩
  · rw [List.mem_append, List.mem_singleton]

variable {r}

theorem IsConsistent.take (h : r.IsConsistent) (e : Event) : (r.take e).IsConsistent := by
  cases e with
  | define id c =>
    simp only [ScanReport.take, takeDefinition]
    cases hid : r.defined? id with
    | some c' =>
      rw [define_of_some r hid]
      exact h
    | none =>
      rw [define_of_none r hid]
      intro id'
      have hold := h id'
      cases hexported : c.exportedAs.isSome with
      | true =>
        simp only [Bool.and_self, if_true, mem_exports_markExported, defined?_markExported,
          defined?_insert]
        by_cases heq : id' = id
        · simp [heq, ComponentRecord.asDefined?, hexported]
        · simp [heq, hold]
      | false =>
        simp only [Bool.and_false, Bool.false_eq_true, if_false, defined?_insert]
        by_cases heq : id' = id
        · subst heq
          simp [ComponentRecord.asDefined?, hexported, hold, hid]
        · simp [heq, hold]
  | reference id c =>
    intro id'
    have hexports : (r.reference id c).2.exports = r.exports := by
      unfold ScanReport.reference
      split <;> rfl
    simp only [ScanReport.take, hexports, defined?_reference]
    exact h id'
  | annotate => exact h
  | claim => exact h
  | «alias» => exact h

theorem IsConsistent.takeAll (h : r.IsConsistent) (events : List Event) :
    (r.takeAll events).IsConsistent := by
  induction events generalizing r with
  | nil => exact h
  | cons e events ih => exact ih (h.take e)

theorem defined?_takeAll (r : ScanReport) (events : List Event) (id : Identity) :
    (r.takeAll events).defined? id = (r.defined? id).or (firstDefinition? events id) := by
  induction events generalizing r with
  | nil => exact Option.or_none.symm
  | cons e events ih =>
    change ((r.take e).takeAll events).defined? id = _
    rw [ih, defined?_take, Option.or_assoc, ← firstDefinition?_append]
    rfl

/-! ## Aliases -/

theorem defined?_updateDefined (r : ScanReport) (id id' : Identity)
    (f : DefinedComponent → DefinedComponent) :
    (r.updateDefined id f).defined? id' =
      if id' = id then (r.defined? id).map f else r.defined? id' := by
  unfold updateDefined
  cases h : r.defined? id with
  | some c =>
    dsimp only
    rw [defined?_insert]
    rfl
  | none =>
    dsimp only
    by_cases heq : id' = id
    · rw [if_pos heq, heq, h, Option.map_none]
    · rw [if_neg heq]

theorem defined?_applyAlias (r : ScanReport) (a : Identity × String) (id : Identity) :
    (r.applyAlias a).defined? id =
      if id = a.1 then (r.defined? a.1).map (ExportAlias.rename a.2) else r.defined? id := by
  unfold applyAlias
  split
  · rw [defined?_markExported, defined?_updateDefined]
  · next h =>
    rw [Option.not_isSome_iff_eq_none] at h
    split
    · next heq => rw [heq, h, Option.map_none]
    · rfl

theorem IsConsistent.applyAlias (h : r.IsConsistent) (a : Identity × String) :
    (r.applyAlias a).IsConsistent := by
  intro id
  rw [defined?_applyAlias]
  unfold ScanReport.applyAlias
  have hold := h id
  cases hid : r.defined? a.1 with
  | none =>
    rw [if_neg (by simp)]
    by_cases heq : id = a.1
    · subst heq
      simp [hold, hid]
    · rw [if_neg heq]
      exact hold
  | some c =>
    rw [Option.isSome_some, if_pos rfl, mem_exports_markExported]
    have hexports : (r.updateDefined a.1 (ExportAlias.rename a.2)).exports = r.exports := by
      simp [updateDefined, hid]
    rw [hexports]
    by_cases heq : id = a.1
    · simp [heq, ExportAlias.rename]
    · rw [if_neg heq]
      simp [heq, hold]

theorem components_applyAlias (r : ScanReport) (a : Identity × String) :
    (r.applyAlias a).components = (r.call (aliasCall a)).components := by
  have hrename : ExportAlias.rename a.2 =
      (·.changeExport fun exportedAs => some (exportedAs.getD a.2)) := rfl
  unfold applyAlias
  split
  · rw [components_markExported, hrename]
    rfl
  · next h =>
    rw [Option.not_isSome_iff_eq_none] at h
    simp only [call, aliasCall, updateDefined, h]

theorem get?_applyAlias (r : ScanReport) (a : Identity × String) (id : Identity) :
    (r.applyAlias a).components.get? id = (r.components.get? id).map
      (ComponentRecord.mapDefined (·.exportedBy (if id = a.1 then some a.2 else none))) := by
  rw [components_applyAlias, get?_call]
  dsimp only [aliasCall, ReportCall.settle]
  split
  · have hrename (c : DefinedComponent) :
        c.changeExport (fun exportedAs => some (exportedAs.getD a.2)) =
          c.exportedBy (some a.2) := by
      cases hexported : c.exportedAs <;>
        simp [DefinedComponent.changeExport, DefinedComponent.exportedBy, hexported]
    simp only [ComponentRecord.changeExport, hrename]
  · rw [ComponentRecord.mapDefined_exportedBy_none, Option.map_id]
    rfl

theorem get?_applyAliases (r : ScanReport) (aliases : List (Identity × String)) (id : Identity) :
    (aliases.foldl applyAlias r).components.get? id = (r.components.get? id).map
      (ComponentRecord.mapDefined (·.exportedBy (aliases.lookup id))) := by
  induction aliases generalizing r with
  | nil =>
    rw [List.lookup_nil, ComponentRecord.mapDefined_exportedBy_none, Option.map_id]
    rfl
  | cons a aliases ih =>
    rw [List.foldl_cons, ih, get?_applyAlias, Option.map_map,
      ComponentRecord.mapDefined_exportedBy_comp, List.lookup_cons]
    by_cases heq : id = a.1
    · rw [if_pos heq, beq_iff_eq.2 heq, Option.some_or]
    · rw [if_neg heq, beq_eq_false_iff_ne.2 heq, Option.none_or]

theorem defined?_applyAliases (r : ScanReport) (aliases : List (Identity × String))
    (id : Identity) :
    (aliases.foldl applyAlias r).defined? id =
      (r.defined? id).map (·.exportedBy (aliases.lookup id)) := by
  rw [defined?, get?_applyAliases, defined?]
  rcases r.components.get? id with _ | c | c <;> rfl

/-! ## Histories -/

theorem components_call_congr {r r' : ScanReport} (h : r.components = r'.components)
    (call : ReportCall) : (r.call call).components = (r'.call call).components := by
  obtain ⟨_, _, components, _, _, _⟩ := r
  obtain ⟨_, _, components', _, _, _⟩ := r'
  cases h
  cases call with
  | define id c =>
    simp only [call, define, defined?]
    split <;> rfl
  | reference id c =>
    simp only [call, reference]
    split <;> rfl
  | markExported id => simp only [call, components_markExported]
  | changeExport id change =>
    simp only [call, updateDefined, defined?]
    split <;> rfl

theorem components_callAll_congr {r r' : ScanReport} (h : r.components = r'.components)
    (calls : List ReportCall) : (r.callAll calls).components = (r'.callAll calls).components := by
  induction calls generalizing r r' with
  | nil => exact h
  | cons call calls ih => exact ih (components_call_congr h call)

theorem components_take (r : ScanReport) (e : Event) :
    (r.take e).components = (r.callAll (Event.call? e).toList).components := by
  cases e with
  | define id c =>
    simp only [take, takeDefinition]
    split
    · exact components_markExported _ id
    · rfl
  | reference id c => rfl
  | annotate a => rfl
  | claim => rfl
  | «alias» => rfl

theorem components_takeAll (r : ScanReport) (events : List Event) :
    (r.takeAll events).components = (r.callAll (events.filterMap Event.call?)).components := by
  induction events generalizing r with
  | nil => rfl
  | cons e events ih =>
    have hcalls : (e :: events).filterMap Event.call? =
        (Event.call? e).toList ++ events.filterMap Event.call? := by
      cases hcall : Event.call? e <;> simp [hcall]
    change ((r.take e).takeAll events).components = _
    rw [ih, hcalls, callAll_append]
    exact components_callAll_congr (components_take r e) _

theorem components_applyAliases (r : ScanReport) (aliases : List (Identity × String)) :
    (aliases.foldl applyAlias r).components = (r.callAll (aliases.map aliasCall)).components := by
  induction aliases generalizing r with
  | nil => rfl
  | cons a aliases ih =>
    rw [List.foldl_cons, ih, List.map_cons]
    exact components_callAll_congr (components_applyAlias r a) _

/-- Aliases leave no records. -/
theorem recordOf?_append_aliases (calls : List ReportCall) (aliases : List (Identity × String))
    (id : Identity) : recordOf? (calls ++ aliases.map aliasCall) id = recordOf? calls id := by
  have hdefinition : (aliases.map aliasCall).filterMap (·.definition? id) = [] := by
    simp [List.filterMap_map, aliasCall, Function.comp_def]
  have hreference : (aliases.map aliasCall).filterMap (·.reference? id) = [] := by
    simp [List.filterMap_map, aliasCall, Function.comp_def]
  rw [recordOf?, List.filterMap_append, List.filterMap_append, hdefinition, hreference,
    List.append_nil, List.append_nil]
  rfl

/-! ## Annotations -/

theorem annotations_markExported (r : ScanReport) (id : Identity) :
    (r.markExported id).annotations = r.annotations := by
  unfold markExported
  split <;> rfl

theorem annotations_define (r : ScanReport) (id : Identity) (c : DefinedComponent) :
    (r.define id c).2.annotations = r.annotations := by
  unfold define
  split <;> rfl

theorem annotations_reference (r : ScanReport) (id : Identity) (c : ReferencedComponent) :
    (r.reference id c).2.annotations = r.annotations := by
  unfold reference
  split <;> rfl

theorem annotations_updateDefined (r : ScanReport) (id : Identity)
    (f : DefinedComponent → DefinedComponent) :
    (r.updateDefined id f).annotations = r.annotations := by
  unfold updateDefined
  split <;> rfl

theorem annotations_take (r : ScanReport) (e : Event) :
    (r.take e).annotations = r.annotations ++ (Event.annotation? e).toList := by
  cases e with
  | define id c =>
    have hdefine := annotations_define r id c
    change (r.takeDefinition id c).annotations = r.annotations ++ []
    rw [List.append_nil, takeDefinition]
    dsimp only
    split
    · rw [annotations_markExported, hdefine]
    · exact hdefine
  | reference id c => exact (annotations_reference r id c).trans (List.append_nil _).symm
  | annotate a => rfl
  | claim => exact (List.append_nil _).symm
  | «alias» => exact (List.append_nil _).symm

theorem annotations_takeAll (r : ScanReport) (events : List Event) :
    (r.takeAll events).annotations = r.annotations ++ events.filterMap Event.annotation? := by
  induction events generalizing r with
  | nil => exact (List.append_nil _).symm
  | cons e events ih =>
    change ((r.take e).takeAll events).annotations = _
    rw [ih, annotations_take, List.append_assoc, List.filterMap_cons]
    cases Event.annotation? e <;> rfl

theorem annotations_applyAlias (r : ScanReport) (a : Identity × String) :
    (r.applyAlias a).annotations = r.annotations := by
  unfold applyAlias
  split
  · rw [annotations_markExported, annotations_updateDefined]
  · rfl

theorem annotations_applyAliases (r : ScanReport) (aliases : List (Identity × String)) :
    (aliases.foldl applyAlias r).annotations = r.annotations := by
  induction aliases generalizing r with
  | nil => rfl
  | cons a aliases ih => rw [List.foldl_cons, ih, annotations_applyAlias]

end ScanReport

/-! ## Reports of events -/

theorem defined?_reportOf (path : String) (repo : RepoMetadata) (events : List Event)
    (id : Identity) :
    (reportOf path repo events).defined? id =
      (firstDefinition? events id).map
        (·.exportedBy ((events.filterMap Event.alias?).lookup id)) := by
  have htaken := ScanReport.defined?_takeAll (.fresh path repo) events id
  have hfresh : (ScanReport.fresh path repo).defined? id = none := rfl
  rw [hfresh, Option.none_or] at htaken
  rw [← htaken, ← ScanReport.defined?_applyAliases]
  rfl

theorem isConsistent_reportOf (path : String) (repo : RepoMetadata) (events : List Event) :
    (reportOf path repo events).IsConsistent := by
  have happly (aliases : List (Identity × String)) {r : ScanReport} (h : r.IsConsistent) :
      (aliases.foldl ScanReport.applyAlias r).IsConsistent := by
    induction aliases generalizing r with
    | nil => exact h
    | cons a aliases ih => exact ih (h.applyAlias a)
  exact happly _ ((ScanReport.isConsistent_fresh path repo).takeAll events)

/-- Up to its exported name, a record of a report is that of the history of the events. -/
theorem exists_get?_reportOf (path : String) (repo : RepoMetadata) (events : List Event)
    (id : Identity) : ∃ change, (reportOf path repo events).components.get? id =
      (ScanReport.recordOf? (events.filterMap Event.call?) id).map
        (ComponentRecord.changeExport change) := by
  have hcomponents : (reportOf path repo events).components =
      ((ScanReport.fresh path repo).callAll (events.filterMap Event.call? ++
        (events.filterMap Event.alias?).map aliasCall)).components := by
    rw [ScanReport.callAll_append]
    exact (ScanReport.components_applyAliases _ _).trans
      (ScanReport.components_callAll_congr (ScanReport.components_takeAll _ events) _)
  obtain ⟨change, hget⟩ := ScanReport.exists_get?_callAll path repo (events.filterMap Event.call? ++
    (events.filterMap Event.alias?).map aliasCall) id
  exact ⟨change, by rw [hcomponents, hget, ScanReport.recordOf?_append_aliases]⟩

theorem exists_define_mem_of_get?_reportOf {path : String} {repo : RepoMetadata}
    {events : List Event} {id : Identity} {c : DefinedComponent}
    (h : (reportOf path repo events).components.get? id = some (.defined c)) :
    ∃ c' change, .define id c' ∈ events ∧ c = c'.changeExport change := by
  obtain ⟨change, hget⟩ := exists_get?_reportOf path repo events id
  obtain ⟨record, hrecord, heq⟩ := Option.map_eq_some_iff.1 (hget.symm.trans h)
  cases record with
  | defined c' =>
    cases heq
    obtain ⟨e, he, hcall⟩ :=
      List.mem_filterMap.1 (ScanReport.define_mem_of_recordOf? hrecord)
    cases e <;> cases hcall
    exact ⟨c', change, he, rfl⟩
  | referenced => cases heq

theorem reference_mem_of_get?_reportOf {path : String} {repo : RepoMetadata}
    {events : List Event} {id : Identity} {c : ReferencedComponent}
    (h : (reportOf path repo events).components.get? id = some (.referenced c)) :
    .reference id c ∈ events := by
  obtain ⟨change, hget⟩ := exists_get?_reportOf path repo events id
  obtain ⟨record, hrecord, heq⟩ := Option.map_eq_some_iff.1 (hget.symm.trans h)
  cases record with
  | referenced c' =>
    cases heq
    obtain ⟨e, he, hcall⟩ :=
      List.mem_filterMap.1 (ScanReport.reference_mem_of_recordOf? hrecord)
    cases e <;> cases hcall
    exact he
  | defined => cases heq

theorem exists_get?_reportOf_of_reference_mem {events : List Event} {id : Identity}
    {c : ReferencedComponent} (h : .reference id c ∈ events) (path : String) (repo : RepoMetadata) :
    ∃ record, (reportOf path repo events).components.get? id = some record := by
  obtain ⟨change, hget⟩ := exists_get?_reportOf path repo events id
  have hcall : .reference id c ∈ events.filterMap Event.call? :=
    List.mem_filterMap.2 ⟨_, h, rfl⟩
  obtain ⟨record, hrecord⟩ := ScanReport.exists_recordOf?_of_reference_mem hcall
  exact ⟨record.changeExport change, by rw [hget, hrecord, Option.map_some]⟩

theorem annotations_reportOf (path : String) (repo : RepoMetadata) (events : List Event) :
    (reportOf path repo events).annotations =
      assignSequenceKeys (events.filterMap Event.annotation?) := by
  unfold reportOf
  dsimp only
  rw [ScanReport.annotations_applyAliases, ScanReport.annotations_takeAll]
  rfl

theorem exists_annotate_mem_of_mem_annotations_reportOf {path : String} {repo : RepoMetadata}
    {events : List Event} {a : Annotation} (h : a ∈ (reportOf path repo events).annotations) :
    ∃ a' n, .annotate a' ∈ events ∧ a = a'.numbered n := by
  rw [annotations_reportOf, assignSequenceKeys, assignSequenceKeysFrom_eq_mapIdx,
    List.mem_mapIdx] at h
  obtain ⟨i, hi, rfl⟩ := h
  obtain ⟨e, he, hannotation⟩ := List.mem_filterMap.1 (List.getElem_mem hi)
  cases e <;> cases hannotation
  exact ⟨_, _, he, rfl⟩

end ComponentScan
