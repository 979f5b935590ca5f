import ComponentScan.Proofs.FilePath
import ComponentScan.Proofs.Patch.Idempotence
import ComponentScan.Proofs.Scan.Locations
import ComponentScan.Proofs.Scan.RoundTrip

/-!
# Report paths lead back to their files

The path of a report is the path that was scanned, with forward slashes and without one `./` at its
start. Under the root it names the same file as that path with forward slashes, and a back-patch at a
location of the report goes to the text that was scanned (`scanFile_leadsBack`). A backslash in the
name of a file is not kept, so such a file is not found again (`scanFile_backslash`).
-/

namespace ComponentScan

open FilePath Syntax Text

/-- Whether a back-patch at a location, under the root of some options, goes to a file at a place with
a text. -/
structure SourceLocation.LeadsTo (config : Config) (fs : FileSystem) (place : Place)
    (source : String) (l : SourceLocation) : Prop where
  parse : SourceLocation.parse l.text = .ok l
  locate : fs.locate (config.resolvePath l.path) = .ok (place, .text source)

variable {config : Config} {relative source : String} {fs : FileSystem} {place : Place}
  {r : ScanReport}

theorem scanFile_of_locate
    (h : fs.locate (config.resolvePath relative) = .ok (place, .text source)) :
    scanFile config relative fs =
      scanSource config (forReport relative) source (repoMetadata config fs) := by
  unfold scanFile scanFileWith readSource
  dsimp only
  rw [FileSystem.readText_eq_ok_iff.2 ⟨place, h⟩]
  rfl

/-- A scan of a file reads it at a place, and scans it under its report path. -/
theorem exists_of_scanFile (h : scanFile config relative fs = .ok r) :
    ∃ place source, fs.locate (config.resolvePath relative) = .ok (place, .text source) ∧
      scanSource config (forReport relative) source (repoMetadata config fs) = .ok r := by
  unfold scanFile scanFileWith at h
  obtain ⟨source, hsource, hscan⟩ := ok_bind_iff.1 h
  unfold readSource at hsource
  obtain ⟨place, hplace⟩ := FileSystem.readText_eq_ok_iff.1 (ok_mapError_iff.1 hsource)
  exact ⟨place, source, hplace, hscan⟩

/-- What a scan locates, and where it says that a component is defined that it refers to, leads to the
file if the report path of the file does. -/
theorem leadsTo_of_scanSource (hpath : forReport relative ≠ "")
    (hplace : fs.locate (config.resolvePath (forReport relative)) = .ok (place, .text source))
    {repo : RepoMetadata} (hscan : scanSource config (forReport relative) source repo = .ok r) :
    (∀ l ∈ r.locations, l.LeadsTo config fs place source) ∧
      ∃ p, Program.parse (.ofPath (forReport relative)) source = some p ∧
        ∀ id c, (id, .referenced c) ∈ r.components.entries →
          IsDefinitionLocation p.root (·.LeadsTo config fs place source) c.definitionLocation := by
  have hsorted := (isWellFormed_scanSource hscan).sorted
  obtain ⟨s, events, log, hs, hevents, rfl⟩ := exists_events_of_scanSource hscan
  obtain ⟨p, hparse, rfl⟩ := Session.ofSource_eq_ok_iff.1 hs
  have hread := Program.isReadFrom_of_parse hparse
  have hlocated {e : Event} (he : e ∈ events) (span : Span) :
      SourceLocation.LeadsTo config fs place source
        ((Session.ofProgram (forReport relative) source.toList p).location span) := by
    have htext := hread.exists_ne_feed (Session.children_ne_nil_of_mem_events hevents he)
    refine ⟨(SourceLocation.parse_text_eq_ok_iff ?_ _).2 ⟨?_, rfl⟩, hplace⟩
    · exact SourceLocation.isOrdered_ofLines _ _ _
    · exact Session.isWritable_location rfl hpath htext hread.byteLength_le span
  refine ⟨fun l hl => ?_, p, hparse, fun id c hc => ?_⟩
  · obtain ⟨e, he, hl⟩ := exists_event_of_mem_locations hsorted hl
    obtain ⟨span, rfl⟩ := Session.exists_eq_location_of_mem_events hevents he hl
    exact hlocated he span
  · have he := reference_mem_of_get?_reportOf (hsorted.mem_entries_iff.1 hc)
    exact Session.isDefinitionLocation_of_mem_events (fun _ _ => hlocated he _) hevents he

/-- A report path starts with `./` only if the path that was scanned starts with two such parts. -/
theorem not_dot_prefix_forReport (h : ¬ "././".toList <+: (slashed relative).toList) :
    ¬ "./".toList <+: (forReport relative).toList := by
  obtain ⟨hdot, hreport⟩ | hdot := forReport_cases relative
  · rwa [hreport]
  · intro hagain
    apply h
    rw [hdot, String.toList_append]
    exact List.prefix_append_right_inj "./".toList |>.2 hagain

/-- The path of a report has one leading `./` less than the path that was scanned, and forward
slashes. Unless what follows `./` is absolute, both name the same file, and if there was no backslash,
everything that the report locates leads to the text that was scanned. -/
theorem scanFile_leadsBack (h : scanFile config relative fs = .ok r) :
    (¬ "././".toList <+: (slashed relative).toList → ¬ "./".toList <+: r.path.toList) ∧
    (¬ ".//".toList <+: (slashed relative).toList →
      IsSame (config.resolvePath r.path) (config.resolvePath (slashed relative)) ∧
      ('\\' ∉ relative.toList → ∃ place source,
        fs.locate (config.resolvePath relative) = .ok (place, .text source) ∧
        fs.locate (config.resolvePath r.path) = .ok (place, .text source) ∧
        (∀ l ∈ r.locations, l.LeadsTo config fs place source) ∧
        ∃ p, Program.parse (.ofPath r.path) source = some p ∧
          ∀ id c, (id, .referenced c) ∈ r.components.entries →
            IsDefinitionLocation p.root (·.LeadsTo config fs place source)
              c.definitionLocation)) := by
  obtain ⟨place, source, hplace, hscan⟩ := exists_of_scanFile h
  rw [path_scanSource hscan]
  refine ⟨not_dot_prefix_forReport, fun hrelative => ⟨isSame_join_forReport _ hrelative, ?_⟩⟩
  intro hslash
  have hfile : Entry.text source ≠ .directory := nofun
  have hreport : fs.locate (config.resolvePath (forReport relative)) = .ok (place, .text source) := by
    apply FileSystem.locate_join_forReport hfile hrelative
    rwa [slashed_of_notMem hslash]
  have hpath : forReport relative ≠ "" := by
    intro hempty
    rw [hempty] at hreport
    exact FileSystem.locate_join_empty_ne hfile hreport
  exact ⟨place, source, hplace, hreport, leadsTo_of_scanSource hpath hreport hscan⟩

def reported : String :=
  "/** Rows.\n * @canvas https://a.io/1\n */\n" ++
    "export function List() \x7b return <Row/>; \x7d\n"

/-- A closing `./` of the root and one in front of the path, and two places to patch. -/
theorem scanFile_leadsBack_reported :
    let config := Config.withRoot "../workspace/./"
    let fs := FileSystem.single "a.tsx" reported
    ∃ r, scanFile config "./a.tsx" fs = .ok r ∧ ¬ "./".toList <+: r.path.toList ∧
      IsSame (config.resolvePath r.path) (config.resolvePath "./a.tsx") ∧
      r.locations.length = 4 ∧
      ∃ place, ∀ l ∈ r.locations, l.LeadsTo config fs place reported := by
  intro config fs
  let r := ((scanFile config "./a.tsx" fs).toOption).getD default
  have htext : reported.toList = _ := toList_append_of String.toList_ofList String.toList_ofList
  have hplace : fs.locate (config.resolvePath "./a.tsx") =
      .ok (["workspace", "a.tsx"], .text reported) := by decide +kernel
  obtain ⟨hsome, hlength⟩ : (scanFile config "./a.tsx" fs).toOption.isSome = true ∧
      r.locations.length = 4 := by
    dsimp only [r]
    rw [scanFile_of_locate hplace, scanSource_eq_bind, Session.ofSource, htext]
    decide +kernel
  have hscan : scanFile config "./a.tsx" fs = .ok r := eq_ok_getD hsome
  have hforward : '\\' ∉ "./a.tsx".toList := by decide
  obtain ⟨hdot, hsame⟩ := scanFile_leadsBack hscan
  rw [slashed_of_notMem hforward] at hdot hsame
  obtain ⟨hsame, hlocated⟩ := hsame (by decide)
  obtain ⟨place, source, hread, -, hleads, -⟩ := hlocated hforward
  cases hplace.symm.trans hread
  exact ⟨r, hscan, hdot (by decide), hsame, hlength, _, hleads⟩

/-- The backslash in the name of a file becomes a slash, so none of its locations can be patched. -/
theorem scanFile_backslash :
    let fs := FileSystem.single "a\\b.tsx" reported
    let update (l : SourceLocation) : CrossReferenceUpdate := ⟨l.text, "https://a.io/2"⟩
    ∃ r, scanFile {} "a\\b.tsx" fs = .ok r ∧ r.path = "a/b.tsx" ∧
      ¬ IsSame (({} : Config).resolvePath r.path) (({} : Config).resolvePath "a\\b.tsx") ∧
      r.locations.length = 4 ∧
      ∀ l ∈ r.locations,
        writeCrossReference {} (update l) fs = .error (.access "./a/b.tsx" .notFound) := by
  intro fs update
  let r := ((scanFile {} "a\\b.tsx" fs).toOption).getD default
  have htext : reported.toList = _ := toList_append_of String.toList_ofList String.toList_ofList
  have hplace : fs.locate (({} : Config).resolvePath "a\\b.tsx") =
      .ok (["workspace", "a\\b.tsx"], .text reported) := rfl
  obtain ⟨hscan, hpath, hparts, hlength, hpatch⟩ :
      (scanFile {} "a\\b.tsx" fs).toOption.isSome = true ∧ r.path = "a/b.tsx" ∧
      parts (({} : Config).resolvePath r.path) ≠ parts (({} : Config).resolvePath "a\\b.tsx") ∧
      r.locations.length = 4 ∧
      ∀ l ∈ r.locations,
        writeCrossReference {} (update l) fs = .error (.access "./a/b.tsx" .notFound) := by
    dsimp only [r]
    rw [scanFile_of_locate hplace, scanSource_eq_bind, Session.ofSource, htext]
    decide +kernel
  exact ⟨r, eq_ok_getD hscan, hpath, fun hsame => hparts hsame.parts_eq, hlength, hpatch⟩

end ComponentScan
