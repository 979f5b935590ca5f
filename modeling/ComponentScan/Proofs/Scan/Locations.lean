import ComponentScan.Proofs.LineIndex
import ComponentScan.Proofs.Location.Grammar
import ComponentScan.Proofs.Patch.LineSafety
import ComponentScan.Proofs.Scan.Records
import ComponentScan.Proofs.Scan.WellFormed
import ComponentScan.Proofs.Scope.Places
import ComponentScan.Proofs.Session.Insertion

/-!
# Locations that can be patched

The lines of a span are the pieces of the text that hold its first and its last byte
(`LineIndex.exists_linesOf`), the pieces being those that a back-patch counts. So if all nodes of a
file are inside its text, all locations in its report have lines that the text has, and no back-patch
of the unchanged text fails for its line (`scanSource_locations`).

Only the nodes have to be inside the text: the tags of a comment are in the text that was sliced for
it, and symbols are at nodes (`Scope.span_of_mem_resolveProgram`).
-/

namespace ComponentScan

open Syntax Text

/-! ## Spans inside a text -/

/-- Whether a span starts at a byte of a text and ends in the text. -/
structure Span.IsInside (text : List Char) (span : Span) : Prop where
  start_lt : span.start < byteLength text
  stop_le : span.stop ≤ byteLength text

instance (text : List Char) (span : Span) : Decidable (span.IsInside text) :=
  decidable_of_iff (span.start < byteLength text ∧ span.stop ≤ byteLength text)
    ⟨fun h => ⟨h.1, h.2⟩, fun h => ⟨h.start_lt, h.stop_le⟩⟩

namespace Session

variable {path : String} {text : List Char} {p : Program}

/-- Tags are inside the text, and so are the pieces from tags to the ends of their comments. -/
theorem isInside_of_mem_docs {d : Nat × DocComment} (hd : d ∈ (ofProgram path text p).docs)
    {tag : DocTag} (htag : tag ∈ d.2.tags) :
    tag.span.IsInside text ∧ Span.IsInside text ⟨tag.span.start, d.2.span.stop⟩ := by
  obtain ⟨e, -, heq⟩ := List.mem_filterMap.1 hd
  obtain ⟨span, hspan, rfl⟩ := Option.map_eq_some_iff.1 heq
  obtain ⟨hstart, hend⟩ := DocComment.inside_of_mem_tags_parse htag
  have hstop := DocComment.stop_le_of_spanOf? hspan
  exact ⟨⟨hstart, hend⟩, hstart, hstop⟩

end Session

/-! ## Locations in a file -/

/-- Whether a location is in the file at a path: its lines are lines of the text that a back-patch
counts. -/
structure SourceLocation.IsIn (path : String) (text : List Char) (l : SourceLocation) : Prop where
  path_eq : l.path = path
  start_pos : 1 ≤ l.startLine
  ordered : l.startLine ≤ l.endLine
  stop_le : l.endLine ≤ Patch.lineCount text

theorem Session.isIn_location {s : Session} (hlines : s.lines = .ofText s.source) {span : Span}
    (h : span.IsInside s.source) : (s.location span).IsIn s.path s.source := by
  obtain ⟨hstart, hstop⟩ := h
  have hlast : (LineIndex.ofText s.source).lineOf (max (span.stop - 1) span.start) ≤
      Patch.lineCount s.source := LineIndex.lineOf_le_of_lt (by omega)
  have hmono := (LineIndex.ofText s.source).lineOf_mono (Nat.le_max_right (span.stop - 1) span.start)
  unfold location
  rw [hlines]
  refine ⟨rfl, LineIndex.lineOf_pos _ _, SourceLocation.isOrdered_ofLines _ _ _, ?_⟩
  exact Nat.max_le.2 ⟨hlast, hmono.trans hlast⟩

/-! ## Locations of reports -/

/-- What a report locates, an event has located. -/
theorem exists_event_of_mem_locations {path : String} {repo : RepoMetadata} {events : List Event}
    (hsorted : (reportOf path repo events).components.IsSorted) {l : SourceLocation}
    (h : l ∈ (reportOf path repo events).locations) : ∃ e ∈ events, l ∈ e.locations := by
  refine ScanReport.forall_mem_locations_iff (p := fun l => ∃ e ∈ events, l ∈ e.locations)
    |>.2 ⟨?_, fun a ha l hl => ?_⟩ l h
  · rintro ⟨id, c | c⟩ hc l hl
    · obtain ⟨c', change, he, rfl⟩ :=
        exists_define_mem_of_get?_reportOf (hsorted.mem_entries_iff.1 hc)
      exact ⟨_, he, hl⟩
    · cases hl
  · obtain ⟨a', n, he, rfl⟩ := exists_annotate_mem_of_mem_annotations_reportOf ha
    exact ⟨_, he, hl⟩

/-- Where the definition of a component is said to be that the file only refers to: at a symbol of
the file, in the module of a dynamic import, or nowhere. -/
inductive IsDefinitionLocation (root : Node) (located : SourceLocation → Prop) : String → Prop
  | symbol {l : SourceLocation} (h : located l) : IsDefinitionLocation root located l.text
  | module {n : Node} (h : n ∈ descendants root) (hkind : n.kind = .importExpression) :
    IsDefinitionLocation root located (LazyComponent.importedModule n)
  | unresolved : IsDefinitionLocation root located unresolvedLocation

theorem Template.isDefinitionLocation_mention {s : Session} {located : SourceLocation → Prop}
    (hlocated : ∀ e ∈ s.symbols, located (s.symbolLocation e.2)) (ident : Option Node)
    (name suffix : String) :
    IsDefinitionLocation s.root located (mention s ident name suffix).2.definitionLocation := by
  unfold mention
  split
  · next symbol hsymbol =>
    obtain ⟨n, -, hn⟩ := Option.bind_eq_some_iff.1 hsymbol
    obtain ⟨e, he, rfl⟩ := Session.mem_symbols_of_symbolAt? hn
    exact .symbol (hlocated e he)
  · exact .unresolved

/-- Every component that a scan refers to has such a place. -/
theorem Session.isDefinitionLocation_of_mem_events {config : Config} {s : Session}
    {located : SourceLocation → Prop} {events : List Event} {id : Identity}
    {c : ReferencedComponent} (hlocated : ∀ e ∈ s.symbols, located (s.symbolLocation e.2))
    (h : s.events config = .ok events) (he : .reference id c ∈ events) :
    IsDefinitionLocation s.root located c.definitionLocation := by
  obtain ⟨v, hv, hrecord | halias | ⟨claimed, own, hown, he⟩⟩ := exists_visit_of_mem_events h he
  · cases hrecord with
    | mention ident name suffix =>
      exact Template.isDefinitionLocation_mention hlocated ident name suffix
    | deferred name hid hkind =>
      exact .module (node_mem_descendants_of_mem_visits hv) hkind
  · obtain ⟨_, _, heq⟩ := ExportAlias.exists_of_mem_events halias
    cases heq
  · obtain ⟨_, heq⟩ | ⟨_, heq, -⟩ := AnnotationTags.exists_tag_of_mem_events hown he <;> cases heq

/-! ## Back-patches -/

section

variable {config : Config} {path source : String} {fs : FileSystem} {place : Place}
  {l : SourceLocation}

/-- A location in a text that is not too long can be written, unless it has no path. -/
theorem SourceLocation.IsIn.isWritable (h : l.IsIn path source.toList)
    (hlength : byteLength source.toList ≤ Program.maxBytes) (hpath : path ≠ "") :
    l.IsWritable := by
  have hlines : Patch.lineCount source.toList ≤ byteLength source.toList :=
    LineIndex.length_segments_le source.toList
  have hbound : Program.maxBytes < lineBound := by decide
  have hstop := h.stop_le
  exact ⟨h.path_eq ▸ hpath, h.start_pos, by omega⟩

/-- A back-patch at a location in the text of the file does not fail. -/
theorem exists_writeCrossReference_of_isIn (h : l.IsIn path source.toList)
    (hlength : byteLength source.toList ≤ Program.maxBytes) (hpath : path ≠ "")
    (hplace : fs.locate (config.resolvePath path) = .ok (place, .text source))
    (permalink : String) :
    ∃ outcome fs', writeCrossReference config ⟨l.text, permalink⟩ fs = .ok (outcome, fs') := by
  have hparse : SourceLocation.parse (CrossReferenceUpdate.mk l.text permalink).sourceLocation =
      .ok l :=
    (SourceLocation.parse_text_eq_ok_iff h.ordered l).2 ⟨h.isWritable hlength hpath, rfl⟩
  have hinside : ¬ Patch.lineCount source.toList < l.startLine :=
    Nat.not_lt.2 (h.ordered.trans h.stop_le)
  have hfound : Patch.patchText? config.crossReferenceTag.toList permalink.toList l.startLine
      source.toList ≠ none := mt (patchText?_eq_none_iff h.start_pos).1 hinside
  obtain ⟨⟨outcome, text⟩, hpatch⟩ := Option.ne_none_iff_exists'.1 hfound
  rw [← h.path_eq] at hplace
  rw [writeCrossReference_of_locate hparse hplace, hpatch]
  cases outcome <;> exact ⟨_, _, rfl⟩

/-- No back-patch fails for the line of a location in the text of the file. -/
theorem writeCrossReference_ne_lineOutOfRange (h : l.IsIn path source.toList)
    (hlength : byteLength source.toList ≤ Program.maxBytes)
    (hplace : fs.locate (config.resolvePath path) = .ok (place, .text source))
    (permalink file : String) (line count : Nat) :
    writeCrossReference config ⟨l.text, permalink⟩ fs ≠ .error (.lineOutOfRange file line count) := by
  intro herror
  by_cases hpath : path = ""
  · -- without a path, the location is not even read
    have hparse : SourceLocation.parse l.text = .error (.malformedLocation l.text) :=
      SourceLocation.parse_of_empty (SourceLocation.isCut_iff.2 l.splitLast_text)
        (.inl (by rw [h.path_eq, hpath]; rfl))
    simp [writeCrossReference, hparse, bind, Except.bind] at herror
  · obtain ⟨outcome, fs', hok⟩ :=
      exists_writeCrossReference_of_isIn h hlength hpath hplace permalink
    cases hok.symm.trans herror

end

/-! ## Scans -/

/-- Scanner and back-patch count the same lines: the lines of a span are the pieces with its first
and its last byte. So if the nodes of a file are inside its text, the locations in its report are in
the file, also those at which components are said to be defined, and back-patches at them find their
lines in the unchanged text. -/
theorem scanSource_locations :
    (∀ (text : List Char) (span : Span), span.start < span.stop → span.stop ≤ byteLength text →
      ∃ first last, (LineIndex.ofText text).linesOf span = (first, last) ∧
        1 ≤ first ∧ first ≤ last ∧
        (∀ n, LineIndex.HoldsByte text n span.start ↔ n = first) ∧
        ∀ n, LineIndex.HoldsByte text n (span.stop - 1) ↔ n = last) ∧
    ∀ (config : Config) (path source : String) (repo : RepoMetadata) (p : Program) (r : ScanReport),
      Program.parse (.ofPath path) source = some p →
      p.root.Below (Span.IsInside source.toList) →
      scanSource config path source repo = .ok r →
      (∀ l ∈ r.locations, l.IsIn r.path source.toList) ∧
      (∀ id c, (id, .referenced c) ∈ r.components.entries →
        IsDefinitionLocation p.root (·.IsIn r.path source.toList) c.definitionLocation) ∧
      ∀ (l : SourceLocation), l.IsIn r.path source.toList →
        ∀ (config : Config) (permalink : String) (fs : FileSystem) (place : Place),
          fs.locate (config.resolvePath r.path) = .ok (place, .text source) →
          (∀ file line count, writeCrossReference config ⟨l.text, permalink⟩ fs ≠
            .error (.lineOutOfRange file line count)) ∧
          (r.path ≠ "" → ∃ outcome fs',
            writeCrossReference config ⟨l.text, permalink⟩ fs = .ok (outcome, fs')) := by
  refine ⟨fun text span => LineIndex.exists_linesOf, fun config path source repo p r hparse hnodes
    hscan => ?_⟩
  have hread := Program.isReadFrom_of_parse hparse
  have hlength := hread.byteLength_le
  have hsorted := (isWellFormed_scanSource hscan).sorted
  obtain ⟨s, events, log, hs, hevents, rfl⟩ := exists_events_of_scanSource hscan
  obtain ⟨p', hparse', rfl⟩ := Session.ofSource_eq_ok_iff.1 hs
  cases hparse.symm.trans hparse'
  have hlocated {span : Span} (h : span.IsInside source.toList) :
      ((Session.ofProgram path source.toList p).location span).IsIn
        (reportOf path repo events).path source.toList := by
    rw [path_reportOf]
    exact Session.isIn_location (s := .ofProgram path source.toList p) rfl h
  refine ⟨fun l hl => ?_, fun id c hc => ?_, fun l hl config permalink fs place hplace => ?_⟩
  · obtain ⟨e, he, hl⟩ := exists_event_of_mem_locations hsorted hl
    obtain ⟨span, hspan, rfl⟩ := Session.exists_span_of_mem_events hnodes
      (fun _ hd _ => Session.isInside_of_mem_docs hd) hevents he hl
    exact hlocated hspan
  · refine Session.isDefinitionLocation_of_mem_events (fun e he => hlocated ?_) hevents
      (reference_mem_of_get?_reportOf (hsorted.mem_entries_iff.1 hc))
    exact Scope.span_of_mem_resolveProgram hread.kind_root hnodes he
  · exact ⟨writeCrossReference_ne_lineOutOfRange hl hlength hplace permalink,
      fun hpath => exists_writeCrossReference_of_isIn hl hlength hpath hplace permalink⟩

/-- A file with carriage returns in front of some feeds and none at its end; it refers to a component
that it imports, to one that it defers and to one that it does not have. -/
def placed : String :=
  "import Row from './row';\r\nconst Late = lazy(() => import('./late'));\n\n/** Shows it.\r\n" ++
    " * @canvas https://a.io/1\r\n * @todo sort\r\n */\nexport function List() \x7b\n" ++
    "  return <ul><Row/><Cell/></ul>;\n\x7d"

def placedReport : ScanReport :=
  ((scanSource {} "a.tsx" placed .placeholder).toOption).getD default

/-- The span ends with a feed, and the back-patch is at the link. -/
theorem scanSource_locations_placed :
    (LineIndex.HoldsByte placed.toList 1 25 ∧ ¬ LineIndex.HoldsByte placed.toList 2 25) ∧
    ∃ p, Program.parse (.ofPath "a.tsx") placed = some p ∧
      p.root.Below (Span.IsInside placed.toList) ∧
      scanSource {} "a.tsx" placed .placeholder = .ok placedReport ∧
      placedReport.locations.map (fun l => (l.startLine, l.endLine)) =
        [(8, 10), (8, 10), (5, 7), (5, 5), (6, 6)] ∧
      (∀ l ∈ placedReport.locations, l.IsIn placedReport.path placed.toList) ∧
      placedReport.components.entries.map (·.1) =
        ["a.tsx:Cell", "a.tsx:Late", "a.tsx:List", "a.tsx:Row"] ∧
      (∀ id c, (id, .referenced c) ∈ placedReport.components.entries →
        IsDefinitionLocation p.root (·.IsIn placedReport.path placed.toList)
          c.definitionLocation) ∧
      ∃ outcome fs', writeCrossReference {} ⟨"a.tsx#L5", "https://a.io/2"⟩
        (.single "a.tsx" placed) = .ok (outcome, fs') := by
  have htext : placed.toList = _ :=
    toList_append_of (toList_append_of String.toList_ofList String.toList_ofList)
      String.toList_ofList
  obtain ⟨hstop, hlines, hnodes, hscan, hall, hids, hlink, hpath⟩ :
      26 ≤ byteLength placed.toList ∧
      (LineIndex.ofText placed.toList).linesOf ⟨20, 26⟩ = (1, 1) ∧
      ((Program.parse (.ofPath "a.tsx") placed).any fun p =>
        p.root.Below (Span.IsInside placed.toList)) = true ∧
      (scanSource {} "a.tsx" placed .placeholder).toOption.isSome = true ∧
      placedReport.locations.map (fun l => (l.startLine, l.endLine)) =
        [(8, 10), (8, 10), (5, 7), (5, 5), (6, 6)] ∧
      placedReport.components.entries.map (·.1) =
        ["a.tsx:Cell", "a.tsx:Late", "a.tsx:List", "a.tsx:Row"] ∧
      ⟨"a.tsx", 5, 5⟩ ∈ placedReport.locations ∧
      placedReport.path = "a.tsx" := by
    rw [placedReport, scanSource_eq_bind, Session.ofSource, Program.parse, htext]
    decide +kernel
  have hplace : (FileSystem.single "a.tsx" placed).locate
      (({} : Config).resolvePath placedReport.path) =
        .ok (["workspace", "a.tsx"], .text placed) := by
    rw [hpath]
    rfl
  obtain ⟨first, last, hspan, -, -, -, hlast⟩ :=
    scanSource_locations.1 placed.toList ⟨20, 26⟩ (by decide) hstop
  cases hlines.symm.trans hspan
  obtain ⟨p, hparse, hnodes⟩ := (Option.any_eq_true _ _).1 hnodes
  replace hnodes := of_decide_eq_true hnodes
  replace hscan : scanSource {} "a.tsx" placed .placeholder = .ok placedReport := eq_ok_getD hscan
  obtain ⟨hin, hdefinitions, hwrite⟩ :=
    scanSource_locations.2 {} "a.tsx" placed .placeholder p placedReport hparse hnodes hscan
  have hlocation : SourceLocation.text ⟨"a.tsx", 5, 5⟩ = "a.tsx#L5" := by decide +kernel
  obtain ⟨-, hwritten⟩ := hwrite _ (hin _ hlink) {} "https://a.io/2" _ _ hplace
  rw [hlocation] at hwritten
  exact ⟨⟨(hlast 1).2 rfl, fun h => absurd ((hlast 2).1 h) (by decide)⟩, p, hparse, hnodes, hscan,
    hall, hin, hids, hdefinitions, hwritten (by rw [hpath]; decide)⟩

end ComponentScan
