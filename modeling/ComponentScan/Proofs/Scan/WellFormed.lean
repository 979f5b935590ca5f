import ComponentScan.Proofs.Report.Json
import ComponentScan.Proofs.Report.SequenceKeys
import ComponentScan.Proofs.Scan.Traces
import ComponentScan.Proofs.Session.Parsed

/-!
# Reports of scans

Every location in an event of a scan is the location of a span of the file
(`Session.exists_span_of_mem_events`). So a scan yields a report whose components are sorted and
whose locations have their lines in order (`isWellFormed_scanSource`), and it files the report under
the path that it was given (`path_scanSource`).
-/

namespace ComponentScan

open Syntax Template

/-! ## Events of a scan -/

theorem exists_mem_of_mem_concatEvents {steps : List (Except ScanError (List Event))}
    {events : List Event} (h : concatEvents steps = .ok events) {e : Event} (he : e ∈ events) :
    ∃ first, .ok first ∈ steps ∧ e ∈ first := by
  induction steps generalizing events with
  | nil =>
    cases h
    cases he
  | cons x rest ih =>
    simp only [concatEvents, ok_bind_iff, ok_pure_iff] at h
    obtain ⟨first, rfl, others, hothers, rfl⟩ := h
    rcases List.mem_append.1 he with he | he
    · exact ⟨first, List.mem_cons_self, he⟩
    · obtain ⟨first', hmem, he⟩ := ih hothers he
      exact ⟨first', List.mem_cons_of_mem _ hmem, he⟩

theorem exists_visit_of_mem_walkEvents {config : Config} {s : Session} {claimed : List Nat}
    {vs : List Visit} {events : List Event} (h : walkEvents config s claimed vs = .ok events)
    {e : Event} (he : e ∈ events) :
    ∃ v ∈ vs, ∃ claimed first, visitEvents config s claimed v = .ok first ∧ e ∈ first := by
  induction vs generalizing claimed events with
  | nil =>
    cases h
    cases he
  | cons v rest ih =>
    obtain ⟨first, hfirst, others, hothers, rfl⟩ := walkEvents_cons_eq_ok_iff.1 h
    rcases List.mem_append.1 he with he | he
    · exact ⟨v, List.mem_cons_self, claimed, first, hfirst, he⟩
    · obtain ⟨v', hv', claimed', first', hfirst', he⟩ := ih hothers he
      exact ⟨v', List.mem_cons_of_mem _ hv', claimed', first', hfirst', he⟩

/-! ## Locations of events -/

/-- The locations that an event brings into a report. -/
def Event.locations : Event → List SourceLocation
  | .define _ c => c.locations
  | .annotate a => a.locations
  | _ => []

section

variable {P : Span → Prop} {config : Config} {s : Session} {e : Event} {l : SourceLocation}

theorem Event.IsRecordOf.exists_span {n : Node} (h : e.IsRecordOf s n)
    (hnodes : ∀ m ∈ n.nodes, P m.span) (hl : l ∈ e.locations) :
    ∃ span, P span ∧ l = s.location span := by
  cases h with
  | mention => cases hl
  | deferred => cases hl
  | define candidate id references hdeclaration =>
    simp only [locations, DefinedComponent.locations, Candidate.component, Session.describe,
      List.mem_cons, List.not_mem_nil, or_false, or_self] at hl
    exact ⟨_, hnodes _ hdeclaration, hl⟩

theorem ExportAlias.locations_of_mem_events {n : Node} (h : e ∈ ExportAlias.events s n) :
    e.locations = [] := by
  obtain ⟨id, exported, rfl⟩ := exists_of_mem_events h
  rfl

theorem Session.mem_docs_of_mem_docsAt {o : Nat} {doc : DocComment} (h : doc ∈ s.docsAt o) :
    (o, doc) ∈ s.docs := by
  obtain ⟨⟨token, doc'⟩, hd, heq⟩ := List.mem_filterMap.1 h
  obtain ⟨htoken, heq⟩ := Option.ite_none_right_eq_some.1 heq
  cases heq
  rw [beq_iff_eq] at htoken
  exact htoken ▸ hd

namespace AnnotationTags

theorem exists_span_of_annotation? {doc : DocComment} {parent : Identity} {tag : DocTag}
    {a : Annotation} (htag : P tag.span ∧ P ⟨tag.span.start, doc.span.stop⟩)
    (h : annotation? config s doc parent tag = some a) (hl : l ∈ a.locations) :
    ∃ span, P span ∧ l = s.location span := by
  unfold annotation? at h
  split at h
  · split at h
    · cases h
    · cases h
      simp only [ Annotation.locations, Option.map_some, Option.toList_some, List.mem_cons,
        List.not_mem_nil, or_false] at hl
      rcases hl with rfl | rfl
      · exact ⟨_, htag.2, rfl⟩
      · exact ⟨_, htag.1, rfl⟩
  · split at h
    · cases h
      simp only [ Annotation.locations, Option.map_none, Option.toList_none, List.mem_cons,
        List.not_mem_nil, or_false] at hl
      exact ⟨_, htag.1, hl⟩
    · cases h

end AnnotationTags

/-- An event of a scan is a record of a node, an alias, or one of the comments at a node. -/
theorem Session.exists_visit_of_mem_events {events : List Event} (h : s.events config = .ok events)
    (he : e ∈ events) :
    ∃ v ∈ visits s.root, e.IsRecordOf s v.node ∨ e ∈ ExportAlias.events s v.node ∨
      ∃ claimed own, AnnotationTags.events config s claimed v = .ok own ∧ e ∈ own := by
  obtain ⟨v, hv, claimed, first, hfirst, he⟩ := exists_visit_of_mem_walkEvents h he
  obtain ⟨own, hown, he⟩ := exists_mem_of_mem_concatEvents hfirst he
  refine ⟨v, hv, ?_⟩
  simp only [List.mem_cons, List.not_mem_nil, or_false] at hown
  rcases hown with hown | hown | hown | hown | hown
  · exact .inl (FunctionComponent.isRecordOf_events hown.symm e he)
  · exact .inl (ClassComponent.isRecordOf_events hown.symm e he)
  · exact .inl (LazyComponent.isRecordOf_events hown.symm e he)
  · exact .inr (.inl (Except.ok.inj hown ▸ he))
  · exact .inr (.inr ⟨claimed, own, hown.symm, he⟩)

/-- The locations in an event are those of nodes below the root and of tags. -/
theorem Session.exists_span_of_mem_events {events : List Event} (hnodes : s.root.Below P)
    (htags : ∀ d ∈ s.docs, ∀ tag ∈ d.2.tags, P tag.span ∧ P ⟨tag.span.start, d.2.span.stop⟩)
    (h : s.events config = .ok events) (he : e ∈ events) (hl : l ∈ e.locations) :
    ∃ span, P span ∧ l = s.location span := by
  obtain ⟨v, hv, hrecord | halias | ⟨claimed, own, hown, he⟩⟩ := exists_visit_of_mem_events h he
  · have hbelow := Node.nodes_subset_descendants (node_mem_descendants_of_mem_visits hv)
    exact hrecord.exists_span (fun m hm => hnodes m (hbelow hm)) hl
  · rw [ExportAlias.locations_of_mem_events halias] at hl
    cases hl
  · obtain ⟨_, rfl⟩ | ⟨a, rfl, doc, hdoc, _, tag, htag, ha⟩ :=
      AnnotationTags.exists_tag_of_mem_events hown he
    · cases hl
    · exact AnnotationTags.exists_span_of_annotation?
        (htags _ (mem_docs_of_mem_docsAt hdoc) tag htag) ha hl

theorem Session.exists_eq_location_of_mem_events {events : List Event}
    (h : s.events config = .ok events) (he : e ∈ events) (hl : l ∈ e.locations) :
    ∃ span, l = s.location span := by
  obtain ⟨span, -, heq⟩ := exists_span_of_mem_events (P := fun _ => True) (fun _ _ => trivial)
    (fun _ _ _ _ => ⟨trivial, trivial⟩) h he hl
  exact ⟨span, heq⟩

end

/-! ## Reports -/

namespace ScanReport

theorem isWellFormed_fresh (path : String) (repo : RepoMetadata) :
    (fresh path repo).IsWellFormed :=
  ⟨ComponentTable.isSorted_empty, nofun⟩

/-- A record with ordered lines may be put into a report. -/
theorem IsWellFormed.insert {r : ScanReport} (h : r.IsWellFormed) {id : Identity}
    {record : ComponentRecord} (hrecord : ∀ l ∈ record.locations, l.IsOrdered) :
    { r with components := r.components.insert id record }.IsWellFormed := by
  obtain ⟨hcomponents, hannotations⟩ := forall_mem_locations_iff.1 h.ordered
  refine ⟨h.sorted.insert id record, forall_mem_locations_iff.2 ⟨fun e he => ?_, hannotations⟩⟩
  rcases ComponentTable.mem_insertInto he with rfl | he
  · exact hrecord
  · exact hcomponents e he

theorem IsWellFormed.markExported {r : ScanReport} (h : r.IsWellFormed) (id : Identity) :
    (r.markExported id).IsWellFormed := by
  unfold ScanReport.markExported
  split
  · exact h
  · exact ⟨h.sorted, h.ordered⟩

theorem IsWellFormed.define {r : ScanReport} (h : r.IsWellFormed) (id : Identity)
    {c : DefinedComponent} (hc : ∀ l ∈ c.locations, l.IsOrdered) :
    (r.define id c).2.IsWellFormed := by
  unfold ScanReport.define
  split
  · exact h
  · exact h.insert hc

theorem IsWellFormed.take {r : ScanReport} (h : r.IsWellFormed) {e : Event}
    (he : ∀ l ∈ e.locations, l.IsOrdered) : (r.take e).IsWellFormed := by
  cases e with
  | define id c =>
    simp only [ScanReport.take, takeDefinition]
    split
    · exact (h.define id he).markExported id
    · exact h.define id he
  | reference id c =>
    simp only [ScanReport.take, reference]
    split
    · exact h
    · exact h.insert fun l hl => absurd hl List.not_mem_nil
  | annotate a =>
    obtain ⟨hcomponents, hannotations⟩ := forall_mem_locations_iff.1 h.ordered
    refine ⟨h.sorted, forall_mem_locations_iff.2 ⟨hcomponents, fun a' ha' => ?_⟩⟩
    rcases List.mem_append.1 ha' with ha' | ha'
    · exact hannotations a' ha'
    · exact List.mem_singleton.1 ha' ▸ he
  | claim => exact h
  | «alias» => exact h

theorem IsWellFormed.takeAll {r : ScanReport} (h : r.IsWellFormed) {events : List Event}
    (he : ∀ e ∈ events, ∀ l ∈ e.locations, l.IsOrdered) : (r.takeAll events).IsWellFormed := by
  induction events generalizing r with
  | nil => exact h
  | cons e events ih =>
    obtain ⟨hfirst, hothers⟩ := List.forall_mem_cons.1 he
    exact ih (h.take hfirst) hothers

theorem mem_of_defined? {r : ScanReport} {id : Identity} {c : DefinedComponent}
    (h : r.defined? id = some c) : (id, .defined c) ∈ r.components.entries := by
  obtain ⟨record, hrecord, hc⟩ := Option.bind_eq_some_iff.1 h
  cases record with
  | defined c' =>
    cases hc
    obtain ⟨before, after, hentries, -⟩ := List.lookup_eq_some_iff.1 hrecord
    rw [hentries]
    exact List.mem_append_right _ List.mem_cons_self
  | referenced c' => cases hc

theorem IsWellFormed.applyAlias {r : ScanReport} (h : r.IsWellFormed) (a : Identity × String) :
    (r.applyAlias a).IsWellFormed := by
  unfold ScanReport.applyAlias
  split
  · refine IsWellFormed.markExported ?_ a.1
    unfold updateDefined
    split
    · next c hc =>
      have hordered := (forall_mem_locations_iff.1 h.ordered).1 _ (mem_of_defined? hc)
      have hrenamed :
          ∀ l ∈ (ComponentRecord.defined (ExportAlias.rename a.2 c)).locations, l.IsOrdered := hordered
      exact h.insert hrenamed
    · exact h
  · exact h

theorem IsWellFormed.applyAliases {r : ScanReport} (h : r.IsWellFormed)
    (aliases : List (Identity × String)) : (aliases.foldl ScanReport.applyAlias r).IsWellFormed := by
  induction aliases generalizing r with
  | nil => exact h
  | cons a aliases ih => exact ih (h.applyAlias a)

end ScanReport

theorem locations_assignSequenceKeys (r : ScanReport) :
    { r with annotations := assignSequenceKeys r.annotations }.locations = r.locations := by
  have hsame := map_assignSequenceKeys (f := Annotation.locations) (fun _ _ => rfl) r.annotations
  simp only [ScanReport.locations, List.flatMap_def, hsame]

theorem isWellFormed_reportOf {path : String} {repo : RepoMetadata} {events : List Event}
    (h : ∀ e ∈ events, ∀ l ∈ e.locations, l.IsOrdered) :
    (reportOf path repo events).IsWellFormed := by
  have htaken := ((ScanReport.isWellFormed_fresh path repo).takeAll h).applyAliases
    (events.filterMap Event.alias?)
  refine ⟨htaken.sorted, ?_⟩
  unfold reportOf
  rw [locations_assignSequenceKeys]
  exact htaken.ordered

/-! ## Metadata and path of a report -/

theorem reportOf_withRepo (path : String) (repo repo' : RepoMetadata) (events : List Event) :
    (reportOf path repo events).withRepo repo' = reportOf path repo' events := by
  have hfresh : ScanReport.fresh path repo' = (ScanReport.fresh path repo).withRepo repo' := rfl
  unfold reportOf
  rw [hfresh, ScanReport.takeAll_withRepo, ScanReport.applyAliases_withRepo]
  rfl

namespace ScanReport

theorem path_markExported (r : ScanReport) (id : Identity) : (r.markExported id).path = r.path := by
  unfold markExported
  split <;> rfl

theorem path_define (r : ScanReport) (id : Identity) (c : DefinedComponent) :
    (r.define id c).2.path = r.path := by
  unfold define
  split <;> rfl

theorem path_updateDefined (r : ScanReport) (id : Identity)
    (f : DefinedComponent → DefinedComponent) : (r.updateDefined id f).path = r.path := by
  unfold updateDefined
  split <;> rfl

theorem path_take (r : ScanReport) (e : Event) : (r.take e).path = r.path := by
  cases e with
  | define id c =>
    simp only [take, takeDefinition]
    split
    · rw [path_markExported, path_define]
    · exact r.path_define id c
  | reference id c =>
    simp only [take, reference]
    split <;> rfl
  | annotate a => rfl
  | claim => rfl
  | «alias» => rfl

theorem path_applyAlias (r : ScanReport) (a : Identity × String) :
    (r.applyAlias a).path = r.path := by
  unfold applyAlias
  split
  · rw [path_markExported, path_updateDefined]
  · rfl

end ScanReport

theorem path_reportOf (path : String) (repo : RepoMetadata) (events : List Event) :
    (reportOf path repo events).path = path := by
  have htake (r : ScanReport) : (r.takeAll events).path = r.path := by
    induction events generalizing r with
    | nil => rfl
    | cons e events ih => exact (ih (r.take e)).trans (r.path_take e)
  have happly (aliases : List (Identity × String)) (r : ScanReport) :
      (aliases.foldl ScanReport.applyAlias r).path = r.path := by
    induction aliases generalizing r with
    | nil => rfl
    | cons a aliases ih => exact (ih (r.applyAlias a)).trans (r.path_applyAlias a)
  exact (happly _ _).trans (htake _)

/-! ## Scans -/

variable {config : Config} {path source : String} {repo : RepoMetadata} {r : ScanReport}

/-- What a successful scan went through. -/
theorem exists_events_of_scanSource (h : scanSource config path source repo = .ok r) :
    ∃ s events log, Session.ofSource path source = .ok s ∧ s.events config = .ok events ∧
      r = { reportOf path repo events with debugLog := log } := by
  obtain ⟨log, heq⟩ := scanSource_eq config path source
  rw [heq] at h
  simp only [ok_bind_iff, ok_pure_iff] at h
  obtain ⟨s, hs, events, hevents, rfl⟩ := h
  exact ⟨s, events, log, hs, hevents, Session.path_ofSource hs ▸ rfl⟩

theorem isWellFormed_scanSource (h : scanSource config path source repo = .ok r) :
    r.IsWellFormed := by
  obtain ⟨s, events, log, -, hevents, rfl⟩ := exists_events_of_scanSource h
  have hordered : ∀ e ∈ events, ∀ l ∈ e.locations, l.IsOrdered := fun e he l hl => by
    obtain ⟨span, rfl⟩ := Session.exists_eq_location_of_mem_events hevents he hl
    exact SourceLocation.isOrdered_ofLines _ _ _
  have hreport := @isWellFormed_reportOf path repo events hordered
  exact ⟨hreport.sorted, hreport.ordered⟩

theorem path_scanSource (h : scanSource config path source repo = .ok r) : r.path = path := by
  obtain ⟨s, events, log, -, -, rfl⟩ := exists_events_of_scanSource h
  exact path_reportOf path repo events

/-- The metadata of a repository go into the report and nowhere else. -/
theorem scanSource_withRepo (config : Config) (path source : String) (repo repo' : RepoMetadata) :
    (scanSource config path source repo).map (·.withRepo repo') =
      scanSource config path source repo' := by
  obtain ⟨log, heq⟩ := scanSource_eq config path source
  rw [heq, heq]
  cases Session.ofSource path source with
  | error e => rfl
  | ok s =>
    cases hevents : s.events config with
    | error e => simp [bind, Except.bind, hevents, Except.map]
    | ok events =>
      simp only [bind, Except.bind, hevents, ← reportOf_withRepo s.path repo repo']
      rfl

end ComponentScan
