import ComponentScan.Proofs.Patch.Idempotence
import ComponentScan.Proofs.Scan.PlacedTags

/-!
# Where tags stand

The place of a tag cuts a text behind the name of the tag and at the end of the comment
(`PlacedTag.site`). Each tag of a file has one (`PlacedTag.exists_commentSite`).
-/

namespace ComponentScan

open Syntax Text

/-- Where a tag stands: the text up to the end of its name, what its comment holds from there on,
and the text from the end of the comment on. -/
structure TagSite where
  upTo : List Char
  content : List Char
  below : List Char
  deriving Repr, DecidableEq

namespace TagSite

/-- What follows the argument of the tag in its comment. -/
def rest (site : TagSite) : List Char :=
  Patch.afterArgument site.content

/-- The argument of the tag, with the gap in front of it. -/
def argument (site : TagSite) : List Char :=
  site.content.take (site.content.length - site.rest.length)

/-- The text with another one in the place of the argument. -/
def put (site : TagSite) (t : List Char) : List Char :=
  site.upTo ++ t ++ (site.rest ++ site.below)

/-- The text that a back-patch at the place leaves. What it takes for the argument ends at white
space, whether the comment does or not. -/
def patched (site : TagSite) (link : List Char) : List Char :=
  site.upTo ++ (' ' :: link ++ Patch.afterArgument (site.content ++ site.below))

theorem argument_append_rest (site : TagSite) : site.argument ++ site.rest = site.content := by
  obtain ⟨m, hm⟩ := Patch.exists_eq_append_afterArgument site.content
  replace hm : site.content = m ++ site.rest := hm
  have hargument : site.argument = m := by
    rw [argument, hm, List.length_append, Nat.add_sub_cancel, List.take_left]
  rw [hargument, ← hm]

end TagSite

namespace PlacedTag

/-- The place of a tag in its text. -/
def site (text : List Char) (x : PlacedTag) : TagSite :=
  let nameEnd := x.tag.span.start + byteLength ('@' :: x.tag.name.toList)
  let commentEnd := x.doc.span.stop - 2
  ⟨(slice? text 0 nameEnd).getD [], (slice? text nameEnd commentEnd).getD [],
    (slice? text commentEnd (byteLength text)).getD []⟩

/-- The place of a tag is where its text is cut. -/
theorem site_eq {x : PlacedTag} {u content below : List Char}
    (hu : x.tag.span.start + byteLength ('@' :: x.tag.name.toList) = byteLength u)
    (hcontent : x.doc.span.stop - 2 = byteLength (u ++ content)) :
    x.site (u ++ content ++ below) = ⟨u, content, below⟩ := by
  have hupTo : slice? (u ++ content ++ below) 0 (byteLength u) = some u :=
    slice?_eq_some_iff.2 ⟨[], content ++ below, by simp, rfl, by simp⟩
  have hinside : slice? (u ++ content ++ below) (byteLength u) (byteLength (u ++ content)) =
      some content := slice?_eq_some_iff.2 ⟨u, below, rfl, rfl, rfl⟩
  have hbelow : slice? (u ++ content ++ below) (byteLength (u ++ content))
      (byteLength (u ++ content ++ below)) = some below :=
    slice?_eq_some_iff.2 ⟨u ++ content, [], by simp, rfl, rfl⟩
  unfold site
  dsimp only
  rw [hu, hcontent, hupTo, hinside, hbelow]
  rfl

end PlacedTag

namespace AnnotationTags

/-- Comments are taken where a declaration starts. -/
theorem exists_visit_of_mem_taken {s : Session} {claimed : List Nat} {vs : List Visit}
    {e : Nat × Identity} (h : e ∈ taken s claimed vs) :
    ∃ v ∈ vs, v.node.start = e.1 ∧ targetOf? v.node ≠ none := by
  induction vs generalizing claimed with
  | nil => cases h
  | cons v vs ih =>
    have hrest {claimed : List Nat} (h : e ∈ taken s claimed vs) :
        ∃ v' ∈ v :: vs, v'.node.start = e.1 ∧ targetOf? v'.node ≠ none := by
      obtain ⟨v', hv', hfound⟩ := ih h
      exact ⟨v', List.mem_cons_of_mem v hv', hfound⟩
    unfold taken at h
    cases htakes : takes? s claimed v with
    | none =>
      rw [htakes] at h
      exact hrest h
    | some parent =>
      rw [htakes] at h
      rcases List.mem_append.1 h with h | h
      · obtain ⟨id, -, rfl⟩ := List.mem_map.1 h
        refine ⟨v, List.mem_cons_self, rfl, fun hnone => ?_⟩
        unfold takes? at htakes
        rw [hnone, Option.map_none, ite_self] at htakes
        cases htakes
      · exact hrest h

end AnnotationTags

namespace Session

variable {path : String} {text : List Char} {p : Program}

theorem exists_of_mem_placedTags {s : Session} {x : PlacedTag} (h : x ∈ s.placedTags) :
    ∃ o, (o, x.doc) ∈ s.docs ∧ x.tag ∈ x.doc.tags ∧
      ∃ n ∈ s.root.nodes, n.start = o ∧ AnnotationTags.targetOf? n ≠ none := by
  obtain ⟨e, he, h⟩ := List.mem_flatMap.1 h
  obtain ⟨doc, hdoc, h⟩ := List.mem_flatMap.1 h
  obtain ⟨tag, htag, rfl⟩ := List.mem_map.1 h
  obtain ⟨v, hv, hstart, htarget⟩ := AnnotationTags.exists_visit_of_mem_taken he
  exact ⟨e.1, mem_docs_of_mem_docsAt hdoc, htag, v.node, (isIn_of_mem_visits hv).node, hstart,
    htarget⟩

/-- A tag stands in its comment, which is a comment of the program and leads a declaration. -/
theorem exists_comment_of_mem_placedTags (h : p.CommentsApart text) {x : PlacedTag}
    (hx : x ∈ (ofProgram path text p).placedTags) :
    ∃ e ∈ p.comments, x.doc = DocComment.parse text e.2 ∧ x.tag ∈ x.doc.tags ∧
      (slice? text e.2.start e.2.stop).any DocComment.isWhole ∧
      ∃ n ∈ p.root.nodes, n.start = e.1 ∧ AnnotationTags.targetOf? n ≠ none := by
  obtain ⟨o, hdoc, htag, hdeclaration⟩ := exists_of_mem_placedTags hx
  obtain ⟨e, he, heq, hwhole⟩ := exists_of_mem_docs h hdoc
  obtain ⟨rfl, hparse⟩ := Prod.mk.inj heq
  exact ⟨e, he, hparse, htag, hwhole, hdeclaration⟩

end Session

/-- Whether the tag stands at a place of a text: in the comment `e`, in a line behind the lines
`front` of it. -/
structure PlacedTag.StandsAt (text : List Char) (p : Program) (x : PlacedTag) (site : TagSite)
    (e : Nat × Span) (front : List (List Char)) (margin rest ending : List Char)
    (behind : List (List Char)) : Prop where
  text_eq : text = site.upTo ++ (site.content ++ site.below)
  content_eq : site.content = rest ++ (ending ++ behind.flatten)
  closes : "*/".toList <+: site.below
  commentSite : CommentSite site.upTo (site.content ++ site.below) p e front margin
    x.tag.name.toList rest ending behind
  doc_eq : x.doc = DocComment.parse text e.2
  mem : x.tag ∈ x.doc.tags
  start_eq : x.tag.span.start = e.2.start + 3 + byteLength front.flatten + byteLength margin
  front_ne_nil : x.doc.description ≠ "" → front ≠ []
  declaration : ∃ n ∈ p.root.nodes, n.start = e.1 ∧ AnnotationTags.targetOf? n ≠ none

namespace Session

variable {path : String} {text : List Char} {p : Program}

/-- Every tag stands at its place. -/
theorem exists_standsAt (h : p.CommentsApart text) {x : PlacedTag}
    (hx : x ∈ (ofProgram path text p).placedTags) :
    ∃ e front margin rest ending behind,
      x.StandsAt text p (x.site text) e front margin rest ending behind := by
  obtain ⟨e, he, hdoc, htag, hwhole, hdeclaration⟩ := exists_comment_of_mem_placedTags h hx
  have htag' := htag
  rw [hdoc] at htag'
  obtain ⟨front, seg, behind, margin, rest, ending, hsegments, hline, hstart, hfront⟩ :=
    DocComment.exists_isTagLine_of_mem_tags htag'
  rw [← hdoc] at hfront
  have hlength := DocComment.length_of_isWhole hwhole
  have hinner : DocComment.inner text e.2 = front.flatten ++ seg ++ behind.flatten := by
    rw [← flatten_segments (DocComment.inner text e.2), hsegments]
    simp
  obtain ⟨a, b, htext, ha, hab, hcloses⟩ :=
    DocComment.exists_eq_append_inner hwhole (by simp [hinner, hline.seg_eq])
  rw [hinner, hline.seg_eq] at htext hab
  generalize hu : a ++ (front.flatten ++ margin ++ '@' :: x.tag.name.toList) = u
  generalize hcontent : rest ++ (ending ++ behind.flatten) = content
  have htext : text = u ++ content ++ b := by
    rw [htext, ← hu, ← hcontent]
    simp
  have hbytes : byteLength (u ++ content) = e.2.stop - 2 := by
    rw [← hab, ← hu, ← hcontent]
    simp only [byteLength_append]
    omega
  have hplace : x.tag.span.start + byteLength ('@' :: x.tag.name.toList) = byteLength u := by
    rw [hstart, ← hu]
    simp only [byteLength_append]
    omega
  have hsite : x.site text = ⟨u, content, b⟩ := by
    rw [htext]
    refine PlacedTag.site_eq hplace ?_
    rw [hbytes, hdoc]
    rfl
  refine ⟨e, front, margin, rest, ending, behind, ?_⟩
  rw [hsite]
  refine ⟨by rw [htext, List.append_assoc], hcontent.symm, hcloses, ?_, hdoc, htag, hstart, hfront,
    hdeclaration⟩
  have htext' : u ++ (content ++ b) = text := by rw [htext, List.append_assoc]
  refine ⟨he, htext' ▸ h, htext' ▸ hwhole, ?_⟩
  rw [byteLength_append] at hbytes
  refine ⟨?_, ?_, by dsimp only; omega, ?_, ?_⟩
  · exact slice?_eq_some_iff.2 ⟨a, [], by simp [← hu], ha, by simp [← hu]⟩
  · refine slice?_eq_some_iff.2 ⟨[], b, by simp [← hcontent], rfl, ?_⟩
    dsimp only
    rw [List.nil_append, List.append_assoc, hcontent]
    omega
  · have hline' := hline
    rw [hline.seg_eq] at hline'
    exact hline'
  · rw [← hline.seg_eq, ← hinner, hsegments]

end Session

end ComponentScan
