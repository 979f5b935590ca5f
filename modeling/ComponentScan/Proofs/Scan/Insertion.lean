import ComponentScan.Proofs.Permalink
import ComponentScan.Proofs.Scan.Alike
import ComponentScan.Proofs.Scan.TagSite

/-!
# Scans of a text with another one put in

At the place of a tag one text or another may be put in, and detectors do the same
(`CommentSite.exists_events`). The annotations are the same as well, but for the permalink that is
read back from what is put in (`CommentSite.annotations_eq`).
-/

namespace ComponentScan

open Syntax Text DocComment

namespace Session.IsMoved

/-- Comments that are moved say the same but for the texts of their tags. -/
theorem sameDoc_of_moved {f : Nat → Nat} {a : Nat} {d d' : DocComment} (h : d.Moved f a d') :
    SameDoc d d' :=
  ⟨h.description, h.tags.imp fun _ _ ht => ht.name⟩

end Session.IsMoved

/-- A permalink may be written behind the name of a tag. -/
theorem isInsertable_written {link : List Char} (h : Patch.IsArgument link) (rest : List Char) :
    IsInsertable (' ' :: link) rest where
  noFeed := by
    rw [List.mem_cons, not_or]
    exact ⟨by decide, fun hfeed => absurd (h.notBlank _ hfeed) (by decide)⟩
  boundary := by
    rintro _ ⟨⟩
    decide
  last := fun c hc => by
    rw [List.getLast?_cons, List.getLast?_eq_some_getLast h.nonempty] at hc
    cases hc
    exact h.notBlank _ (List.getLast_mem h.nonempty)

namespace CommentSite

variable {u v t t' : List Char} {p : Program} {e : Nat × Span} {front behind : List (List Char)}
  {margin name rest ending : List Char} {config : Config}
  (h : CommentSite u v p e front margin name rest ending behind)

/-- The session of the text with `t` put in. -/
def sessionWith (path : String) (u t v : List Char) (p : Program) : Session :=
  .ofProgram path (u ++ t ++ v) (p.move (shiftFrom (byteLength u) (byteLength t)))

section

variable (hnames : ∀ n ∈ config.componentBaseClasses ++ config.lazyLoadCallees,
    ¬ '@' :: name <:+: n.toList)
  (htag : ¬ Program.InTagName p.root e.2)
include h hnames htag

/-- Detectors do the same whatever is put in. -/
theorem agree_events (path : String) (ht : IsInsertable t rest) :
    Agree (List.Forall₂ (Event.Moved (shiftFrom (byteLength u) (byteLength t))))
      ((Session.ofProgram path (u ++ v) p).events config)
      ((sessionWith path u t v p).events config) := by
  have hmoved := h.isMoved path ht
  refine hmoved.agree_events (h.keepsNames path hnames htag t) fun o => ?_
  exact (hmoved.moved_docsAt (h.moved_docs path ht) o).imp fun _ _ =>
    Session.IsMoved.sameDoc_of_moved

/-- What detectors do with one text put in they do with another one. -/
theorem exists_events {path : String} (ht : IsInsertable t rest) (ht' : IsInsertable t' rest)
    {events : List Event} (hevents : (sessionWith path u t v p).events config = .ok events)
    (repo : RepoMetadata) :
    ∃ events', (sessionWith path u t' v p).events config = .ok events' ∧
      (reportOf path repo events').keys = (reportOf path repo events).keys ∧
      (reportOf path repo events').exports = (reportOf path repo events).exports := by
  have hagree := h.agree_events hnames htag path ht
  have hagree' := h.agree_events hnames htag path ht'
  rw [hevents] at hagree
  obtain ⟨bare, hbare, hmoved⟩ := hagree.exists_of_ok_right
  rw [hbare] at hagree'
  obtain ⟨events', hput, hmoved'⟩ := hagree'.exists_of_ok
  have halike := ScanReport.alike_reportOf hmoved path repo
  have halike' := ScanReport.alike_reportOf hmoved' path repo
  exact ⟨events', hput, halike'.keys_eq.trans halike.keys_eq.symm,
    halike'.exports.trans halike.exports.symm⟩

end

/-! ## The annotation of the tag -/

variable {i : Nat} {x : PlacedTag} {path : String}
include h

/-- The tag in the text in which nothing is put in. -/
theorem exists_moved (ht : IsInsertable t rest)
    (hx : ((sessionWith path u t v p).annotationTags config)[i]? = some x) :
    ∃ x₀, ((Session.ofProgram path (u ++ v) p).annotationTags config)[i]? = some x₀ ∧
      x₀.Moved (shiftFrom (byteLength u) (byteLength t))
        (e.2.start + 3 + byteLength front.flatten + byteLength margin) x := by
  have hrel := rel_getElem?
    ((h.isMoved path ht).moved_annotationTags (h.moved_docs path ht) config) i
  unfold sessionWith at hx
  rw [hx] at hrel
  generalize ((Session.ofProgram path (u ++ v) p).annotationTags config)[i]? = x₀ at hrel
  cases hrel with
  | some hmoved => exact ⟨_, rfl, hmoved⟩

/-- The permalink that is read back where it is written at the place. -/
theorem parsePermalink_text {link : String} (hlink : parsePermalink link = some link)
    (hx : x ∈ (sessionWith path u (' ' :: link.toList) v p).placedTags)
    (hspan : x.doc.span = e.2.move (shiftFrom (byteLength u) (byteLength (' ' :: link.toList))))
    (hstart : x.tag.span.start = e.2.start + 3 + byteLength front.flatten + byteLength margin) :
    parsePermalink x.tag.text =
      some (String.ofList (link.toList ++ rest.takeWhile (!isBlank ·))) := by
  have harg := isArgument_of_parsePermalink hlink
  obtain ⟨o, hdoc, htag, -⟩ := Session.exists_of_mem_placedTags hx
  obtain ⟨c, -, heq⟩ := List.mem_filterMap.1 hdoc
  obtain ⟨span, -, heq⟩ := Option.map_eq_some_iff.1 heq
  have hparse : x.doc = parse (u ++ (' ' :: link.toList ++ v))
      (e.2.move (shiftFrom (byteLength u) (byteLength (' ' :: link.toList)))) := by
    have hdoc : parse (u ++ ' ' :: link.toList ++ v) span = x.doc := (Prod.mk.inj heq).2
    rw [← hspan, ← hdoc, List.append_assoc]
    rfl
  rw [hparse] at htag
  have hsite := h.isTagSite.insert (isInsertable_written harg rest)
  have hfront : (e.2.move (shiftFrom (byteLength u) (byteLength (' ' :: link.toList)))).start =
      e.2.start := by rw [h.isTagSite.span_move]
  have hne : trim (' ' :: link.toList ++ rest) ≠ [] := by
    rw [trim_written harg]
    simp [harg.nonempty]
  obtain ⟨more, hmore, hfeed⟩ := hsite.text_parse hne htag (by rw [hfront, hstart])
  refine parsePermalink_of_written hlink (fun c hc => ?_) hmore
  rw [hfeed c hc]
  decide

/-- The annotations with a permalink written at the place of a cross-reference: they are the same
but for its permalink. -/
theorem annotations_eq {link : String} (hlink : parsePermalink link = some link)
    (ht : IsInsertable t rest)
    (hx : ((sessionWith path u t v p).annotationTags config)[i]? = some x)
    (hcross : config.isCrossReferenceTag x.tag.name)
    (hspan : x.doc.span = e.2.move (shiftFrom (byteLength u) (byteLength t)))
    (hstart : x.tag.span.start = e.2.start + 3 + byteLength front.flatten + byteLength margin) :
    (sessionWith path u (' ' :: link.toList) v p).annotations config =
      ((sessionWith path u t v p).annotations config).modify i
        (·.withPermalink (String.ofList (link.toList ++ rest.takeWhile (!isBlank ·)))) := by
  have ht' := isInsertable_written (isArgument_of_parsePermalink hlink) rest
  have hplace := h.isTagSite.byteLength_eq
  have hmark : 0 < byteLength ('@' :: name) := by
    rw [byteLength_cons]
    exact Nat.add_pos_left (Char.utf8Size_pos '@') _
  obtain ⟨x₀, hx₀, hmoved⟩ := h.exists_moved ht hx
  have hinjective := (shiftFrom_strictMono (byteLength u) (byteLength t)).injective
  have hspan₀ : x₀.doc.span = e.2 := by
    have heq := hmoved.span.symm.trans hspan
    simp only [Span.move, Span.mk.injEq, hinjective.eq_iff] at heq
    exact congrArg₂ Span.mk heq.1 heq.2
  have hstart₀ : x₀.tag.span.start =
      e.2.start + 3 + byteLength front.flatten + byteLength margin := by
    refine hinjective ?_
    rw [shiftFrom_of_lt (x := e.2.start + 3 + byteLength front.flatten + byteLength margin)
      (by omega), ← hstart, hmoved.tag.span]
    rfl
  refine Session.annotations_modify (h.isMoved path ht) (h.isMoved path ht') (h.moved_docs path ht)
    (h.moved_docs path ht') (Session.nodup_placedTags h.apart.ordered) hx₀ hstart₀
    (hmoved.tag.name ▸ hcross) fun x' hx' => ?_
  obtain ⟨x₁, hx₁, hmoved'⟩ := h.exists_moved ht' hx'
  obtain rfl := Option.some.inj (hx₀.symm.trans hx₁)
  refine h.parsePermalink_text hlink (List.mem_of_mem_filter (List.mem_of_getElem? hx')) ?_ ?_
  · rw [hmoved'.span, hspan₀]
  · rw [hmoved'.tag.span, Span.move, hstart₀, shiftFrom_of_lt (by omega)]

end CommentSite

end ComponentScan
