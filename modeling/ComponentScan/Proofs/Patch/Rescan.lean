import ComponentScan.Proofs.Location
import ComponentScan.Proofs.Patch.LineSafety
import ComponentScan.Proofs.Patch.Site
import ComponentScan.Proofs.Scan.Insertion
import ComponentScan.Proofs.Syntax.Decidable
import Mathlib.Data.List.Infix

/-!
# Rescans

A permalink that was written back for an annotation is found again by the next scan, with what
stands behind the argument of the tag without a blank, and all else in the report that the tree
decides stays (`scanSource_writeCrossReference`). The parser is relied on for comments
(`Program.CommentsRead`, `TagSite.IsIgnored`).
-/

namespace ComponentScan

open Syntax Text Patch DocComment

namespace Syntax.Program

theorem ignores_iff {dialect : Dialect} {u t v : List Char} : Ignores dialect u t v ↔
    parseText dialect (u ++ t ++ v) = (parseText dialect (u ++ v)).map
      (move (shiftFrom (byteLength u) (byteLength t))) := by
  rw [Ignores, parse, parse, String.toList_ofList, String.toList_ofList]

instance (dialect : Dialect) (u t v : List Char) : Decidable (Ignores dialect u t v) :=
  decidable_of_iff _ ignores_iff.symm

instance (root : Node) (span : Span) : Decidable (InTagName root span) :=
  inferInstanceAs (Decidable (∃ n ∈ root.nodes, _))

theorem commentsRead_iff (text : List Char) (p : Program) : p.CommentsRead text ↔
    (∀ e ∈ p.comments, (slice? text e.2.start e.2.stop).bind (·.head?) = some '/') ∧
    p.comments.Pairwise (fun e e' => e.2.stop ≤ e'.2.start) ∧
    (∀ n ∈ p.root.nodes, ∀ e ∈ p.comments,
      (n.start ≤ e.2.start ∨ e.2.stop ≤ n.start) ∧ (n.stop ≤ e.2.start ∨ e.2.stop ≤ n.stop)) ∧
    (∀ e ∈ p.comments, (slice? text e.2.start e.2.stop).any DocComment.isWhole →
      ¬ "*/".toList <:+: DocComment.inner text e.2) ∧
    ∀ e ∈ p.comments, InTagName p.root e.2 → ∀ n ∈ p.root.nodes, n.start = e.1 →
      AnnotationTags.targetOf? n = none :=
  ⟨fun h => ⟨h.delimited, h.ordered, h.outside, h.closed, h.tagName⟩,
    fun ⟨h₁, h₂, h₃, h₄, h₅⟩ => ⟨⟨h₁, h₂, h₃⟩, h₄, h₅⟩⟩

instance (text : List Char) (p : Program) : Decidable (p.CommentsRead text) :=
  decidable_of_iff _ (commentsRead_iff text p).symm

end Syntax.Program

/-! ## Places of tags -/

/-- The place of the tag behind an annotation of a file. -/
def tagSite? (config : Config) (path source : String) (i : Nat) : Option TagSite := do
  let s ← (Session.ofSource path source).toOption
  let x ← (s.annotationTags config)[i]?
  return x.site s.source

namespace TagSite

/-- Whether the comment ends where it did with a permalink written at the place: what the tag has
for an argument ends before the comment does, and nothing in front of its end closes it. -/
structure KeepsComment (site : TagSite) (link : List Char) : Prop where
  inside : site.argument ≠ [] → site.rest ≠ []
  closed : ¬ "*/".toList <:+: ' ' :: link ++ site.rest

/-- Whether a text in the place of the argument only moves the program, if the comment stays closed
with it. -/
def IsIgnored (dialect : Dialect) (site : TagSite) (t : List Char) : Prop :=
  ¬ "*/".toList <:+: t ++ site.rest →
    Program.Ignores dialect site.upTo t (site.rest ++ site.below)

/-- What follows the argument of the tag without a blank. -/
def glued (site : TagSite) : List Char :=
  site.rest.takeWhile (!isBlank ·)

end TagSite

instance (dialect : Dialect) (site : TagSite) (t : List Char) :
    Decidable (site.IsIgnored dialect t) :=
  inferInstanceAs (Decidable (_ → _))

theorem TagSite.keepsComment_iff {site : TagSite} {link : List Char} : site.KeepsComment link ↔
    (site.argument ≠ [] → site.rest ≠ []) ∧ ¬ "*/".toList <:+: ' ' :: link ++ site.rest :=
  ⟨fun h => ⟨h.inside, h.closed⟩, fun ⟨hinside, hclosed⟩ => ⟨hinside, hclosed⟩⟩

instance (site : TagSite) (link : List Char) : Decidable (site.KeepsComment link) :=
  decidable_of_iff _ TagSite.keepsComment_iff.symm

/-! ## Reports -/

/-- The report of a scan is the report of the events of its file. -/
theorem exists_of_scanSource {config : Config} {path source : String} {repo : RepoMetadata}
    {report : ScanReport} (h : scanSource config path source repo = .ok report) :
    ∃ p events, Program.parse (.ofPath path) source = some p ∧
      (Session.ofProgram path source.toList p).events config = .ok events ∧
      report = { reportOf path repo events with debugLog := report.debugLog } := by
  obtain ⟨log, hscan⟩ := scanSource_eq config path source
  rw [hscan] at h
  simp only [ok_bind_iff, ok_pure_iff] at h
  obtain ⟨s, hs, events, hevents, rfl⟩ := h
  obtain ⟨p, hp, rfl⟩ := Session.ofSource_eq_ok_iff.1 hs
  exact ⟨p, events, hp, hevents, rfl⟩

theorem exists_scanSource_eq_ok {config : Config} {path : String} {text : List Char} {p : Program}
    {events : List Event} (hp : Program.parse (.ofPath path) (String.ofList text) = some p)
    (hevents : (Session.ofProgram path text p).events config = .ok events) (repo : RepoMetadata) :
    ∃ log, scanSource config path (String.ofList text) repo =
      .ok { reportOf path repo events with debugLog := log } := by
  obtain ⟨log, hscan⟩ := scanSource_eq config path (String.ofList text)
  refine ⟨log, ?_⟩
  rw [hscan, Session.ofSource_eq_ok_iff.2 ⟨p, hp, rfl⟩, String.toList_ofList]
  simp only [ok_bind_iff, ok_pure_iff]
  exact ⟨_, rfl, events, hevents, rfl⟩

/-- The tag behind an annotation with a cross-reference. -/
theorem PlacedTag.of_annotation? {config : Config} {s : Session} {x : PlacedTag} {a : Annotation}
    {c : CrossReference} (h : x.annotation? config s = some a) (hc : a.crossReference = some c) :
    config.isCrossReferenceTag x.tag.name ∧ x.doc.description ≠ "" ∧
      a.sourceLocation = s.location ⟨x.tag.span.start, x.doc.span.stop⟩ ∧
      c.sourceLocation = s.location x.tag.span := by
  unfold PlacedTag.annotation? AnnotationTags.annotation? at h
  split at h
  · next hcross =>
    split at h
    · cases h
    · next hempty =>
      cases h
      cases hc
      exact ⟨hcross, fun heq => hempty (by rw [heq]; rfl), rfl, rfl⟩
  · split at h
    · cases h
      cases hc
    · cases h

/-! ## Locations -/

/-- The location of a span is read back, unless the path is empty or there are too many lines. -/
theorem parse_location {s : Session} {span : Span} (hlines : s.lines = .ofText s.source)
    (hpath : s.path ≠ "") (hbound : lineCount s.source + 1 < SourceLocation.lineBound) :
    SourceLocation.parse (s.location span).text = .ok (s.location span) ∧
      (s.location span).path = s.path ∧
      (s.location span).startLine = (LineIndex.ofText s.source).lineOf span.start := by
  have hlocation : s.location span = .ofLines s.path ((LineIndex.ofText s.source).lineOf span.start)
      ((LineIndex.ofText s.source).lineOf (max (span.stop - 1) span.start)) := by
    unfold Session.location
    rw [hlines]
    rfl
  rw [hlocation]
  refine ⟨(SourceLocation.parse_text_eq_ok_iff (SourceLocation.isOrdered_ofLines _ _ _) _).2
    ⟨⟨hpath, LineIndex.lineOf_pos _ _, ?_⟩, rfl⟩, rfl, rfl⟩
  have hfirst := LineIndex.lineOf_le s.source span.start
  have hlast := LineIndex.lineOf_le s.source (max (span.stop - 1) span.start)
  unfold lineCount at hbound
  dsimp only [SourceLocation.ofLines]
  omega

/-! ## Files -/

section

variable {config : Config} {path source : String} {repo : RepoMetadata} {report : ScanReport}
  {i : Nat} {a : Annotation} {c : CrossReference} {site : TagSite} {p : Program}

/-- The tag behind an annotation with a cross-reference, and its place. -/
theorem exists_tag_of_annotation (hp : Program.parse (.ofPath path) source = some p)
    {events : List Event}
    (hevents : (Session.ofProgram path source.toList p).events config = .ok events)
    (hreport : report.annotations = (reportOf path repo events).annotations)
    (ha : report.annotations[i]? = some a) (hc : a.crossReference = some c)
    (hsite : tagSite? config path source i = some site) :
    ∃ x, ((Session.ofProgram path source.toList p).annotationTags config)[i]? = some x ∧
      site = x.site source.toList ∧ config.isCrossReferenceTag x.tag.name ∧
      x.doc.description ≠ "" ∧
      a.sourceLocation = (Session.ofProgram path source.toList p).location
        ⟨x.tag.span.start, x.doc.span.stop⟩ ∧
      c.sourceLocation = (Session.ofProgram path source.toList p).location x.tag.span := by
  have hsession := Session.ofSource_eq_ok_iff.2 ⟨p, hp, rfl⟩
  unfold tagSite? at hsite
  simp only [hsession, Except.toOption, Option.bind_eq_bind, Option.bind_some] at hsite
  obtain ⟨x, hx, hsite⟩ := Option.bind_eq_some_iff.1 hsite
  have hunkeyed := unkeyed_annotations_reportOf hevents path repo
  have hannotation : x.annotation? config (Session.ofProgram path source.toList p) =
      some a.unkeyed := by
    have hmap := (Session.ofProgram path source.toList p).annotations_eq_map config
    rw [← hunkeyed, ← hreport] at hmap
    have hget := congrArg (·[i]?) hmap
    simp only [List.getElem?_map, ha, hx, Option.map_some, Option.some.injEq] at hget
    exact hget.symm
  obtain ⟨hcross, hdescription, hlocation, hlocation'⟩ := PlacedTag.of_annotation? hannotation hc
  exact ⟨x, hx, (Option.some.inj hsite).symm, hcross, hdescription, hlocation, hlocation'⟩

end

namespace PlacedTag.StandsAt

variable {path source : String} {p : Program} {x : PlacedTag} {site : TagSite} {e : Nat × Span}
  {front behind : List (List Char)} {margin rest ending : List Char}
  (h : x.StandsAt source.toList p site e front margin rest ending behind)
include h

/-- The comment of a tag does not close in front of its end. -/
theorem closed (hread : p.CommentsRead source.toList) :
    ¬ "*/".toList <:+: site.argument ++ site.rest := by
  have hsite := h.commentSite.isTagSite
  have hinner : DocComment.inner source.toList e.2 =
      front.flatten ++ (margin ++ '@' :: x.tag.name.toList ++ rest ++ ending) ++
        behind.flatten := by
    rw [← flatten_segments (DocComment.inner source.toList e.2), h.text_eq, hsite.segments_inner]
    simp
  have hwhole := h.commentSite.isWhole
  rw [← h.text_eq] at hwhole
  refine fun hclose => hread.closed e h.commentSite.mem hwhole (hclose.trans ?_)
  rw [site.argument_append_rest, h.content_eq, hinner]
  exact ⟨front.flatten ++ margin ++ '@' :: x.tag.name.toList, [], by simp⟩

/-- The comment of a tag stands in the name of no JSX element. -/
theorem not_inTagName (hread : p.CommentsRead source.toList) : ¬ Program.InTagName p.root e.2 := by
  obtain ⟨n, hn, hstart, htarget⟩ := h.declaration
  exact fun htag => htarget (hread.tagName e h.commentSite.mem htag n hn hstart)

/-- The program without the argument of the tag, of which the program is a move. -/
theorem exists_bare (hp : Program.parse (.ofPath path) source = some p)
    (hread : p.CommentsRead source.toList)
    (hignored : site.IsIgnored (.ofPath path) site.argument) :
    ∃ p₀ e₀ behindArgument,
      p = p₀.move (shiftFrom (byteLength site.upTo) (byteLength site.argument)) ∧
      Program.parse (.ofPath path) (String.ofList (site.upTo ++ (site.rest ++ site.below))) =
        some p₀ ∧
      e.2 = e₀.2.move (shiftFrom (byteLength site.upTo) (byteLength site.argument)) ∧
      e₀.2.start = e.2.start ∧ ¬ Program.InTagName p₀.root e₀.2 ∧
      site.rest = behindArgument ++ (ending ++ behind.flatten) ∧
      IsInsertable site.argument behindArgument ∧
      CommentSite site.upTo (site.rest ++ site.below) p₀ e₀ front margin x.tag.name.toList
        behindArgument ending behind := by
  obtain ⟨behindArgument, hrest, hsiterest, hinsertable, hboundary⟩ := h.exists_rest
  have htext : source.toList = site.upTo ++ site.argument ++ (site.rest ++ site.below) := by
    rw [h.text_eq, ← site.argument_append_rest]
    simp
  have hparse := hignored (h.closed hread)
  rw [Program.Ignores, ← htext, String.ofList_toList, hp] at hparse
  obtain ⟨p₀, hp₀, hmove⟩ := Option.map_eq_some_iff.1 hparse.symm
  have hsite := h.commentSite
  rw [← site.argument_append_rest, List.append_assoc, ← hmove, hrest] at hsite
  obtain ⟨e₀, -, he, hbare⟩ := hsite.erase hboundary
  have hspan := congrArg Prod.snd he
  refine ⟨p₀, e₀, behindArgument, hmove.symm, hp₀, hspan, ?_, fun htag => ?_, hsiterest,
    hinsertable, hbare⟩
  · rw [hspan, hbare.isTagSite.span_move]
  · refine h.not_inTagName hread ?_
    rw [hspan, ← hmove]
    exact htag.move _ _

/-- The scan with a permalink written at the place, if the comment ends where it did. -/
theorem exists_scanSource {config : Config} {events : List Event} {i : Nat} {link : String}
    (hp : Program.parse (.ofPath path) source = some p) (hread : p.CommentsRead source.toList)
    (hevents : (Session.ofProgram path source.toList p).events config = .ok events)
    (hx : ((Session.ofProgram path source.toList p).annotationTags config)[i]? = some x)
    (hcross : config.isCrossReferenceTag x.tag.name)
    (hnames : ∀ n ∈ config.componentBaseClasses ++ config.lazyLoadCallees,
      ¬ '@' :: x.tag.name.toList <:+: n.toList)
    (hlink : parsePermalink link = some link)
    (hignored : ∀ t ∈ [site.argument, ' ' :: link.toList], site.IsIgnored (.ofPath path) t)
    (hclosed : ¬ "*/".toList <:+: ' ' :: link.toList ++ site.rest) (repo : RepoMetadata) :
    ∃ report', scanSource config path (String.ofList (site.put (' ' :: link.toList))) repo =
        .ok report' ∧
      report'.keys = (reportOf path repo events).keys ∧
      report'.exports = (reportOf path repo events).exports ∧
      report'.annotations =
        assignSequenceKeys (((Session.ofProgram path source.toList p).annotations config).modify i
          (·.withPermalink (link ++ String.ofList site.glued))) := by
  obtain ⟨p₀, e₀, behindArgument, hmove, hp₀, hspan, hstart, hname, hrest, hargument, hbare⟩ :=
    h.exists_bare hp hread (hignored _ List.mem_cons_self)
  have hput := isInsertable_written (isArgument_of_parsePermalink hlink) behindArgument
  have hsession : Session.ofProgram path source.toList p =
      CommentSite.sessionWith path site.upTo site.argument (site.rest ++ site.below) p₀ := by
    rw [CommentSite.sessionWith, ← hmove, List.append_assoc, ← List.append_assoc _ _ site.below,
      site.argument_append_rest, ← h.text_eq]
  rw [hsession] at hevents hx ⊢
  obtain ⟨events', hevents', hkeys, hexports⟩ :=
    hbare.exists_events hnames hname hargument hput hevents repo
  have hannotations := hbare.annotations_eq hlink hargument hx hcross
    (by rw [h.doc_eq, ← hspan]; rfl) (by rw [hstart, h.start_eq])
  have hp' := hignored _ (List.mem_cons_of_mem _ List.mem_cons_self) hclosed
  rw [Program.Ignores, hp₀, Option.map_some] at hp'
  obtain ⟨log, hscan⟩ := exists_scanSource_eq_ok hp' hevents' repo
  refine ⟨_, hscan, hkeys, hexports, ?_⟩
  have hglued : String.ofList (link.toList ++ behindArgument.takeWhile (!isBlank ·)) =
      link ++ String.ofList site.glued := by
    rw [String.ofList_append, String.ofList_toList, TagSite.glued, hrest,
      takeWhile_append_of_head? fun d hd => by simp [isBlank_of_isLineEnd (h.isLineEnd_head? d hd)]]
  dsimp only
  rw [numbered_annotations_reportOf hevents', hannotations, hglued]

end PlacedTag.StandsAt

/-- A back-patch that finds its tag leaves the patched text in the file. -/
theorem exists_writeCrossReference {config : Config} {update : CrossReferenceUpdate}
    {fs : FileSystem} {location : SourceLocation} {content : String} {place : Place}
    {outcome : PatchOutcome} {text : List Char}
    (hl : SourceLocation.parse update.sourceLocation = .ok location)
    (hfile : fs.locate (config.resolvePath location.path) = .ok (place, .text content))
    (hpatch : patchText? config.crossReferenceTag.toList update.permalink.toList location.startLine
      content.toList = some (outcome, text))
    (hfound : outcome ≠ .tagNotFound) (hunchanged : outcome = .unchanged → content.toList = text) :
    ∃ fs', writeCrossReference config update fs = .ok (outcome, fs') ∧
      fs'.locate (config.resolvePath location.path) = .ok (place, .text (String.ofList text)) := by
  rw [writeCrossReference_of_locate hl hfile, hpatch]
  cases outcome with
  | patched =>
    have hentry : Entry.text content ≠ .directory := nofun
    exact ⟨_, rfl, FileSystem.locate_put_self hentry hfile⟩
  | unchanged =>
    refine ⟨fs, rfl, ?_⟩
    rw [hfile, ← hunchanged rfl, String.ofList_toList]
  | tagNotFound => exact absurd rfl hfound

/-- A permalink can be written back for an annotation if a word ends with the name of its tag. If
the comment ends where it did, the next scan finds the permalink with what stands behind the
argument of the tag without a blank, and all else as it was. -/
theorem scanSource_writeCrossReference {config : Config} {path source : String}
    {repo : RepoMetadata} {report : ScanReport} {i : Nat} {a : Annotation} {c : CrossReference}
    {site : TagSite} {update : CrossReferenceUpdate} {fs : FileSystem} {place : Place}
    (hscan : scanSource config path source repo = .ok report)
    (ha : report.annotations[i]? = some a) (hc : a.crossReference = some c)
    (hsite : tagSite? config path source i = some site)
    (hupdate : update.sourceLocation = a.sourceLocation.text ∨
      update.sourceLocation = c.sourceLocation.text)
    (hlink : parsePermalink update.permalink = some update.permalink)
    (hpath : path ≠ "") (hlines : lineCount source.toList + 1 < SourceLocation.lineBound)
    (hfile : fs.locate (config.resolvePath path) = .ok (place, .text source))
    (hnames : ∀ name ∈ config.componentBaseClasses ++ config.lazyLoadCallees,
      ¬ '@' :: config.crossReferenceTag.toList <:+: name.toList)
    (hboundary :
      isWordBoundary ('@' :: config.crossReferenceTag.toList).getLast? site.content.head?)
    (hread : ∀ p, Program.parse (.ofPath path) source = some p → p.CommentsRead source.toList)
    (hignored : ∀ t ∈ [site.argument, ' ' :: update.permalink.toList],
      site.IsIgnored (.ofPath path) t) :
    ∃ outcome fs' content', writeCrossReference config update fs = .ok (outcome, fs') ∧
      outcome ≠ .tagNotFound ∧
      content' = String.ofList (site.patched update.permalink.toList) ∧
      fs'.locate (config.resolvePath path) = .ok (place, .text content') ∧
      (site.KeepsComment update.permalink.toList →
        ∃ report', scanSource config path content' repo = .ok report' ∧
          report'.keys = report.keys ∧ report'.exports = report.exports ∧
          report'.annotations = assignSequenceKeys (report.annotations.modify i
            (·.withPermalink (update.permalink ++ String.ofList site.glued)))) := by
  obtain ⟨p, events, hp, hevents, hreport⟩ := exists_of_scanSource hscan
  have hapart := hread p hp
  obtain ⟨x, hx, rfl, hcross, hdescription, hlocation, hlocation'⟩ :=
    exists_tag_of_annotation hp hevents (by rw [hreport]) ha hc hsite
  have htag : config.crossReferenceTag = x.tag.name := beq_iff_eq.1 hcross
  rw [htag] at hnames hboundary
  obtain ⟨e, front, margin, rest, ending, behind, hstands⟩ :=
    Session.exists_standsAt (p := p) hapart.toCommentsApart
      (List.mem_of_mem_filter (List.mem_of_getElem? hx))
  -- the file
  obtain ⟨outcome, hfound, hunchanged, hpatch⟩ := hstands.patchText?_eq
    (hstands.front_ne_nil hdescription) hboundary update.permalink.toList
  obtain ⟨location, hl, hlpath, hlstart⟩ : ∃ location,
      SourceLocation.parse update.sourceLocation = .ok location ∧ location.path = path ∧
        location.startLine = (LineIndex.ofText source.toList).lineOf x.tag.span.start := by
    rcases hupdate with hupdate | hupdate
    · rw [hupdate, hlocation]
      exact ⟨_, parse_location rfl hpath hlines⟩
    · rw [hupdate, hlocation']
      exact ⟨_, parse_location rfl hpath hlines⟩
  rw [← hlpath] at hfile
  rw [← htag, ← hlstart] at hpatch
  obtain ⟨fs', hwrite, hfile'⟩ := exists_writeCrossReference hl hfile hpatch hfound hunchanged
  rw [hlpath] at hfile'
  refine ⟨outcome, fs', _, hwrite, hfound, rfl, hfile', fun hkeeps => ?_⟩
  -- the scan
  rw [hstands.patched_eq hkeeps.inside]
  obtain ⟨report', hscan', hkeys, hexports, hannotations⟩ := hstands.exists_scanSource hp hapart
    hevents hx hcross hnames hlink hignored hkeeps.closed repo
  refine ⟨report', hscan', ?_, ?_, ?_⟩
  · rw [hreport]
    exact hkeys
  · rw [hreport]
    exact hexports
  · have hunkeyed := unkeyed_annotations_reportOf hevents path repo
    have hmodify := map_unkeyed_modify
      (g := (·.withPermalink (update.permalink ++ String.ofList (x.site source.toList).glued)))
      (fun _ => rfl) report.annotations i
    rw [hannotations, ← assignSequenceKeys_map_unkeyed (report.annotations.modify i _), hmodify,
      hreport, hunkeyed]

/-! ## What stands behind tags -/

/-- A file whose cross-reference has something behind its tag. -/
def fileWith (behindTag : String) : String :=
  "/** Renders the list.\n * @canvas" ++ behindTag ++
    "\nexport function List() \x7b return <Item/>; \x7d\n"

def reportWith (behindTag : String) : ScanReport :=
  ((scanSource {} "a.tsx" (fileWith behindTag) .placeholder).toOption).getD default

/-- A colon behind the tag is read back as a part of the permalink. The end of a comment directly
behind an argument is lost with it, and with it the file. -/
theorem scanSource_writeCrossReference_colon :
    let update : CrossReferenceUpdate := ⟨"a.tsx#L2", "https://c.example/2"⟩
    let path := ({} : Config).resolvePath "a.tsx"
    (scanSource {} "a.tsx" (fileWith ": see\n */") .placeholder = .ok (reportWith ": see\n */") ∧
      ∃ outcome fs' report',
        writeCrossReference {} update (.single "a.tsx" (fileWith ": see\n */")) =
          .ok (outcome, fs') ∧ outcome ≠ .tagNotFound ∧
        fs'.locate path = .ok (["workspace", "a.tsx"],
          .text (fileWith " https://c.example/2: see\n */")) ∧
        scanSource {} "a.tsx" (fileWith " https://c.example/2: see\n */") .placeholder =
          .ok report' ∧
        report'.keys = (reportWith ": see\n */").keys ∧
        report'.exports = (reportWith ": see\n */").exports ∧
        report'.annotations = assignSequenceKeys ((reportWith ": see\n */").annotations.modify 0
          (·.withPermalink "https://c.example/2:"))) ∧
    scanSource {} "a.tsx" (fileWith " old*/") .placeholder = .ok (reportWith " old*/") ∧
      ∃ outcome fs',
        writeCrossReference {} update (.single "a.tsx" (fileWith " old*/")) = .ok (outcome, fs') ∧
        outcome ≠ .tagNotFound ∧
        fs'.locate path =
          .ok (["workspace", "a.tsx"], .text (fileWith " https://c.example/2")) ∧
        scanSource {} "a.tsx" (fileWith " https://c.example/2") .placeholder =
          .error (.unparsable "a.tsx") := by
  intro update path
  let c : CrossReference := ⟨"Renders the list.", ⟨"a.tsx", 2, 2⟩, "a.tsx:List", none⟩
  let a (last : Nat) : Annotation :=
    ⟨⟨"a.tsx", 2, last⟩, "Renders the list.", "a.tsx:List", none, some c⟩
  let site (content : String) : TagSite := ⟨"/** Renders the list.\n * @canvas".toList,
    content.toList, "*/\nexport function List() \x7b return <Item/>; \x7d\n".toList⟩
  have hupdate (last : Nat) : update.sourceLocation = (a last).sourceLocation.text ∨
      update.sourceLocation = c.sourceLocation.text := .inr (by decide +kernel)
  have htext (behindTag : String) : (fileWith behindTag).toList = _ ++ behindTag.toList ++ _ :=
    toList_append_of (toList_append_of String.toList_ofList rfl) String.toList_ofList
  have hfile (source : String) :
      (FileSystem.single "a.tsx" source).locate (({} : Config).resolvePath "a.tsx") =
        .ok (["workspace", "a.tsx"], .text source) := rfl
  have hlink : parsePermalink update.permalink = some update.permalink := by decide +kernel
  have hnames : ∀ name ∈ ({} : Config).componentBaseClasses ++ ({} : Config).lazyLoadCallees,
      ¬ '@' :: ({} : Config).crossReferenceTag.toList <:+: name.toList := by decide +kernel
  -- For each file, one computation for all that is read off the program.
  constructor
  · obtain ⟨hscan, ha, hsite, hlines, hboundary, hread, hignored, hkeeps, hput, hglued⟩ :
        (scanSource {} "a.tsx" (fileWith ": see\n */") .placeholder).toOption.isSome = true ∧
        (reportWith ": see\n */").annotations[0]? = some (a 3) ∧
        tagSite? {} "a.tsx" (fileWith ": see\n */") 0 = some (site ": see\n ") ∧
        lineCount (fileWith ": see\n */").toList + 1 < SourceLocation.lineBound ∧
        isWordBoundary ('@' :: ({} : Config).crossReferenceTag.toList).getLast?
          (site ": see\n ").content.head? ∧
        (Program.parse (.ofPath "a.tsx") (fileWith ": see\n */")).all
          (fun p => decide (p.CommentsRead (fileWith ": see\n */").toList)) = true ∧
        (∀ t ∈ [(site ": see\n ").argument, ' ' :: update.permalink.toList],
          (site ": see\n ").IsIgnored (.ofPath "a.tsx") t) ∧
        (site ": see\n ").KeepsComment update.permalink.toList ∧
        (site ": see\n ").patched update.permalink.toList =
          (fileWith " https://c.example/2: see\n */").toList ∧
        update.permalink ++ String.ofList (site ": see\n ").glued = "https://c.example/2:" := by
      rw [reportWith, tagSite?, scanSource_eq_bind, Session.ofSource, Program.parse, htext, htext]
      decide +kernel
    have hscan := eq_ok_getD hscan
    obtain ⟨outcome, fs', content', hwrite, hfound, hcontent, hfile', hrescan⟩ :=
      scanSource_writeCrossReference hscan ha rfl hsite (hupdate 3) hlink (by decide) hlines
        (hfile _) hnames hboundary (fun p hp => by simpa [hp] using hread) hignored
    obtain ⟨report', hscan', hkeys, hexports, hannotations⟩ := hrescan hkeeps
    rw [hput, String.ofList_toList] at hcontent
    rw [hcontent] at hfile' hscan'
    rw [hglued] at hannotations
    exact ⟨hscan, outcome, fs', report', hwrite, hfound, hfile', hscan', hkeys, hexports,
      hannotations⟩
  · obtain ⟨hscan, ha, hsite, hlines, hboundary, hread, hignored, hput, herror⟩ :
        (scanSource {} "a.tsx" (fileWith " old*/") .placeholder).toOption.isSome = true ∧
        (reportWith " old*/").annotations[0]? = some (a 2) ∧
        tagSite? {} "a.tsx" (fileWith " old*/") 0 = some (site " old") ∧
        lineCount (fileWith " old*/").toList + 1 < SourceLocation.lineBound ∧
        isWordBoundary ('@' :: ({} : Config).crossReferenceTag.toList).getLast?
          (site " old").content.head? ∧
        (Program.parse (.ofPath "a.tsx") (fileWith " old*/")).all
          (fun p => decide (p.CommentsRead (fileWith " old*/").toList)) = true ∧
        (∀ t ∈ [(site " old").argument, ' ' :: update.permalink.toList],
          (site " old").IsIgnored (.ofPath "a.tsx") t) ∧
        (site " old").patched update.permalink.toList =
          (fileWith " https://c.example/2").toList ∧
        scanSource {} "a.tsx" (fileWith " https://c.example/2") .placeholder =
          .error (.unparsable "a.tsx") := by
      simp only [reportWith, tagSite?, scanSource_eq_bind, Session.ofSource, Program.parse, htext]
      decide +kernel
    have hscan := eq_ok_getD hscan
    obtain ⟨outcome, fs', content', hwrite, hfound, hcontent, hfile', -⟩ :=
      scanSource_writeCrossReference hscan ha rfl hsite (hupdate 2) hlink (by decide) hlines
        (hfile _) hnames hboundary (fun p hp => by simpa [hp] using hread) hignored
    rw [hput, String.ofList_toList] at hcontent
    rw [hcontent] at hfile'
    exact ⟨hscan, outcome, fs', hwrite, hfound, hfile', herror⟩

end ComponentScan
