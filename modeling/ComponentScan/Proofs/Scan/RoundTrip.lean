import ComponentScan.Proofs.Scan.Locations
import ComponentScan.Proofs.Scan.TagSite
import Mathlib.Data.List.Perm.Subperm

/-!
# Reports read back

A report of a scan is read back from its JSON form as it is (`decodeText_encode_scanSource`). It is
well-formed, so all that could be lost are numbers that are too large to be read. There are none, as
no text is scanned that has more bytes than such numbers can count: a line has a byte of its own,
where the text is not feeds alone (`LineIndex.lineOf_le_byteLength`), and so has an annotation, since
no two tags start at one place (`Session.length_annotations_le`).
-/

namespace ComponentScan

open Syntax Text Json

/-! ## Numbers in a report -/

namespace Session

variable {path : String} {text : List Char} {p : Program} {config : Config} {s : Session}

/-- A file has an event only if its tree has a node below the root. -/
theorem children_ne_nil_of_mem_events {events : List Event} {e : Event}
    (h : s.events config = .ok events) (he : e ∈ events) : s.root.children ≠ [] := by
  obtain ⟨v, hv, -⟩ := exists_visit_of_mem_events h he
  obtain ⟨c, hc, -⟩ := Node.mem_descendants_iff.1 (node_mem_descendants_of_mem_visits hv)
  exact List.ne_nil_of_mem hc

theorem isWritable_location (hlines : s.lines = .ofText s.source) (hpath : s.path ≠ "")
    (htext : ∃ c ∈ s.source, c ≠ '\n') (hlength : byteLength s.source ≤ Program.maxBytes)
    (span : Span) : (s.location span).IsWritable := by
  have hbound : Program.maxBytes < SourceLocation.lineBound := by decide
  have hline (x : Nat) : (LineIndex.ofText s.source).lineOf x < SourceLocation.lineBound := by
    have hle := LineIndex.lineOf_le_byteLength htext x
    omega
  unfold location
  rw [hlines]
  exact ⟨hpath, LineIndex.lineOf_pos _ _, Nat.max_lt.2 ⟨hline _, hline _⟩⟩

/-- A file has no more annotations than bytes: each has a tag, and no two tags start at one byte. -/
theorem length_annotations_le (h : p.comments.Pairwise fun e e' => e.2.stop ≤ e'.2.start)
    (config : Config) :
    ((ofProgram path text p).annotations config).length ≤ byteLength text := by
  have hstarts : (ofProgram path text p).placedTags.map (·.tag.span.start) ⊆
      List.range (byteLength text) := by
    intro o ho
    obtain ⟨x, hx, rfl⟩ := List.mem_map.1 ho
    obtain ⟨_, hdoc, htag, -⟩ := exists_of_mem_placedTags hx
    exact List.mem_range.2 (isInside_of_mem_docs hdoc htag).1.start_lt
  calc ((ofProgram path text p).annotations config).length
    _ ≤ ((ofProgram path text p).annotationTags config).length := by
      rw [annotations_eq_filterMap]
      exact List.length_filterMap_le _ _
    _ ≤ ((ofProgram path text p).placedTags.map (·.tag.span.start)).length := by
      rw [List.length_map]
      exact List.length_filter_le _ _
    _ ≤ (List.range (byteLength text)).length :=
      (List.subperm_of_subset (nodup_placedTags h) hstarts).length_le
    _ = byteLength text := List.length_range

end Session

/-! ## Reports of scans -/

section

variable {config : Config} {path source : String} {repo : RepoMetadata} {r : ScanReport}

/-- All numbers in the report of a scan can be read. -/
theorem isWritable_scanSource (hpath : path ≠ "")
    (h : scanSource config path source repo = .ok r) : r.IsWritable := by
  have hsorted := (isWellFormed_scanSource h).sorted
  obtain ⟨s, events, log, hs, hevents, rfl⟩ := exists_events_of_scanSource h
  obtain ⟨p, hparse, rfl⟩ := Session.ofSource_eq_ok_iff.1 hs
  have hread := Program.isReadFrom_of_parse hparse
  have hlength := hread.byteLength_le
  refine ⟨fun l hl => ?_, fun a ha key hkey => ?_⟩
  · obtain ⟨e, he, hl⟩ := exists_event_of_mem_locations hsorted hl
    have htext := hread.exists_ne_feed (Session.children_ne_nil_of_mem_events hevents he)
    obtain ⟨span, rfl⟩ := Session.exists_eq_location_of_mem_events hevents he hl
    exact Session.isWritable_location rfl hpath htext hlength span
  · replace ha : a ∈ (reportOf path repo events).annotations := ha
    rw [numbered_annotations_reportOf hevents] at ha
    have hfewer : ((Session.ofProgram path source.toList p).annotations config).length ≤
        byteLength source.toList :=
      Session.length_annotations_le hread.ordered config
    have hbound : Program.maxBytes < Value.wordBound := by decide
    have hkey := lt_length_of_mem_sequenceKey ha hkey
    omega

/-- The report of a scan is read back from its JSON form. -/
theorem decodeText_encode_scanSource (hpath : path ≠ "")
    (h : scanSource config path source repo = .ok r) :
    decodeText (ScanReport.decode Value.maxDepth) r.encode.text = .ok r := by
  rw [decodeText_text]
  exact (ScanReport.decode_reread_encode Value.maxDepth (by decide) (isWellFormed_scanSource h) r).2
    ⟨isWritable_scanSource hpath h, rfl⟩

end

/-- A file with every kind of record, and with and without everything that a record may lack. -/
def varied : String :=
  "/** Shows it.\n * @canvas https://a.io/1\n * @canvas soon\n" ++
    " * @todo sort\n * @todo sort */\n" ++
    "export function List() \x7b return <Row/>; \x7d\n" ++
    "class Page extends Component \x7b head = <List/>; \x7d\n"

def variedReport : ScanReport :=
  ((scanSource {} "a.tsx" varied .placeholder).toOption).getD default

theorem decodeText_encode_scanSource_varied :
    scanSource {} "a.tsx" varied .placeholder = .ok variedReport ∧
      variedReport.components.entries.map (fun e =>
        (e.1, e.2.asDefined?.map fun c => (c.exportedAs, c.description.typeSignature))) =
        [("a.tsx:List", some (some "List", some "()")),
          ("a.tsx:Page", some (none, some "class Page extends Component")),
          ("a.tsx:Page.head()", some (none, none)), ("a.tsx:Row", none)] ∧
      variedReport.annotations.map (fun a =>
        (a.text, a.sequenceKey, a.crossReference.map (·.permalink))) =
        [("Shows it.", none, some (some "https://a.io/1")), ("Shows it.", none, some none),
          ("sort", none, none), ("sort", some 1, none)] ∧
      decodeText (ScanReport.decode Value.maxDepth) variedReport.encode.text =
        .ok variedReport := by
  have htext : varied.toList = _ :=
    toList_append_of (toList_append_of (toList_append_of String.toList_ofList String.toList_ofList)
      String.toList_ofList) String.toList_ofList
  obtain ⟨hscan, hcomponents, hannotations⟩ :
      (scanSource {} "a.tsx" varied .placeholder).toOption.isSome = true ∧
      variedReport.components.entries.map (fun e =>
        (e.1, e.2.asDefined?.map fun c => (c.exportedAs, c.description.typeSignature))) =
        [("a.tsx:List", some (some "List", some "()")),
          ("a.tsx:Page", some (none, some "class Page extends Component")),
          ("a.tsx:Page.head()", some (none, none)), ("a.tsx:Row", none)] ∧
      variedReport.annotations.map (fun a =>
        (a.text, a.sequenceKey, a.crossReference.map (·.permalink))) =
        [("Shows it.", none, some (some "https://a.io/1")), ("Shows it.", none, some none),
          ("sort", none, none), ("sort", some 1, none)] := by
    rw [variedReport, scanSource_eq_bind, Session.ofSource, htext]
    decide +kernel
  replace hscan : scanSource {} "a.tsx" varied .placeholder = .ok variedReport := eq_ok_getD hscan
  exact ⟨hscan, hcomponents, hannotations, decodeText_encode_scanSource (by decide) hscan⟩

end ComponentScan
