import ComponentScan.Proofs.Scan.Annotations
import ComponentScan.Proofs.Session.Insertion
import Mathlib.Data.List.Nodup
import Mathlib.Data.List.Pairwise

/-!
# The tags behind annotations

Each annotation of a file comes from a tag of its own (`Session.annotations_eq_map`), and no two of
them start at one place (`Session.nodup_placedTags`). So where the text of one tag changes and
nothing else, the annotations are the same but for the permalink of the one from that tag
(`Session.annotations_modify`).
-/

namespace ComponentScan

open Syntax Text

/-- An annotation whose cross-reference has another permalink. -/
def Annotation.withPermalink (a : Annotation) (link : String) : Annotation :=
  { a with crossReference := a.crossReference.map fun c => { c with permalink := some link } }

/-- A tag with its comment and the declaration that the comment is on. -/
structure PlacedTag where
  parent : Identity
  doc : DocComment
  tag : DocTag

namespace PlacedTag

def annotation? (config : Config) (s : Session) (x : PlacedTag) : Option Annotation :=
  AnnotationTags.annotation? config s x.doc x.parent x.tag

theorem isSome_annotation? (config : Config) (s : Session) (x : PlacedTag) :
    (x.annotation? config s).isSome =
      if config.isCrossReferenceTag x.tag.name then !x.doc.description.isEmpty
      else config.isPendingWorkTag x.tag.name := by
  unfold annotation? AnnotationTags.annotation?
  split
  · cases x.doc.description.isEmpty <;> rfl
  · cases config.isPendingWorkTag x.tag.name <;> rfl

/-- The annotation of a cross-reference has the permalink in the text of its tag. -/
theorem map_withPermalink_self {config : Config} {x : PlacedTag} {link : String}
    (hcross : config.isCrossReferenceTag x.tag.name)
    (hlink : parsePermalink x.tag.text = some link) (s : Session) :
    (x.annotation? config s).map (·.withPermalink link) = x.annotation? config s := by
  unfold annotation? AnnotationTags.annotation?
  rw [if_pos hcross, hlink]
  split <;> rfl

/-- The tag `x'` is `x` moved; the texts of tags at `a` may differ. -/
structure Moved (f : Nat → Nat) (a : Nat) (x x' : PlacedTag) : Prop where
  parent : x'.parent = x.parent
  span : x'.doc.span = x.doc.span.move f
  description : x'.doc.description = x.doc.description
  tag : x.tag.Moved f a x'.tag

end PlacedTag

namespace Session

/-- The tags of the taken comments of a file. -/
def placedTags (s : Session) : List PlacedTag :=
  (AnnotationTags.taken s [] (visits s.root)).flatMap fun e =>
    (s.docsAt e.1).flatMap fun doc => doc.tags.map fun tag => ⟨e.2, doc, tag⟩

/-- The tags that make the annotations of a file. -/
def annotationTags (config : Config) (s : Session) : List PlacedTag :=
  s.placedTags.filter fun x => (x.annotation? config s).isSome

theorem annotations_eq_filterMap (config : Config) (s : Session) :
    s.annotations config = (s.annotationTags config).filterMap (·.annotation? config s) := by
  have hall : s.annotations config = s.placedTags.filterMap (·.annotation? config s) := by
    simp only [annotations, placedTags, AnnotationTags.docAnnotations, List.filterMap_flatMap,
      List.filterMap_map]
    rfl
  rw [hall, annotationTags, List.filterMap_filter]
  refine List.filterMap_congr fun x _ => ?_
  cases x.annotation? config s <;> rfl

/-- The annotations of a file, each from its tag. -/
theorem annotations_eq_map (config : Config) (s : Session) :
    (s.annotations config).map some = (s.annotationTags config).map (·.annotation? config s) := by
  have hsome : ∀ x ∈ s.annotationTags config, (x.annotation? config s).isSome = true :=
    fun x hx => (List.mem_filter.1 hx).2
  rw [annotations_eq_filterMap]
  generalize s.annotationTags config = xs at hsome
  induction xs with
  | nil => rfl
  | cons x xs ih =>
    obtain ⟨hx, hxs⟩ := List.forall_mem_cons.1 hsome
    obtain ⟨a, ha⟩ := Option.isSome_iff_exists.1 hx
    rw [List.filterMap_cons_some ha, List.map_cons, List.map_cons, ih hxs, ha]

end Session

/-! ## Moved sessions -/

namespace Session.IsMoved

variable {config : Config} {f : Nat → Nat} {a : Nat} {s s' : Session} (h : s.IsMoved f s')
  (hdocs : List.Forall₂ (fun d d' => d'.1 = f d.1 ∧ d.2.Moved f a d'.2) s.docs s'.docs)
include h hdocs

/-- The comments at a token are those at its image. -/
theorem moved_docsAt (o : Nat) :
    List.Forall₂ (DocComment.Moved f a) (s.docsAt o) (s'.docsAt (f o)) := by
  refine List.rel_filterMap (fun d d' hd => ?_) hdocs
  obtain ⟨htoken, hdoc⟩ := hd
  have hbeq : (d'.1 == f o) = (d.1 == o) := by
    rw [htoken, Bool.eq_iff_iff, beq_iff_eq, beq_iff_eq, h.injective.eq_iff]
  dsimp only
  rw [hbeq]
  split
  · exact .some hdoc
  · exact .none

theorem moved_placedTags :
    List.Forall₂ (PlacedTag.Moved f a) s.placedTags s'.placedTags := by
  have hempty (o : Nat) : (s'.docsAt (f o)).isEmpty = (s.docsAt o).isEmpty := by
    rw [Bool.eq_iff_iff, List.isEmpty_iff_length_eq_zero, List.isEmpty_iff_length_eq_zero,
      (h.moved_docsAt hdocs o).length_eq]
  have htaken := AnnotationTags.taken_move h hempty [] (visits s.root)
  rw [← visits_move, ← h.root, List.map_nil] at htaken
  unfold placedTags
  rw [htaken, List.flatMap_map]
  refine List.rel_flatMap (List.forall₂_same.2 fun _ _ => rfl) ?_
  rintro e _ rfl
  refine List.rel_flatMap (h.moved_docsAt hdocs e.1) fun d d' hd => ?_
  exact List.rel_map (fun t t' ht => ⟨rfl, hd.span, hd.description, ht⟩) hd.tags

omit hdocs in
/-- A tag whose text stays makes the same annotation. -/
theorem annotation?_of_text {x x' : PlacedTag} (hx : x.Moved f a x')
    (htext : x'.tag.text = x.tag.text) : x'.annotation? config s' = x.annotation? config s := by
  have hlocation : s'.location x'.tag.span = s.location x.tag.span := by
    rw [hx.tag.span, h.location]
  have haround : s'.location ⟨x'.tag.span.start, x'.doc.span.stop⟩ =
      s.location ⟨x.tag.span.start, x.doc.span.stop⟩ := by
    rw [hx.tag.span, hx.span, ← h.location ⟨x.tag.span.start, x.doc.span.stop⟩]
    rfl
  unfold PlacedTag.annotation? AnnotationTags.annotation?
  rw [hx.parent, hx.tag.name, hx.description, htext, hlocation, haround]

omit hdocs in
/-- A cross-reference stays but for its permalink. -/
theorem map_withPermalink_annotation? {x x' : PlacedTag} (hx : x.Moved f a x')
    (hcross : config.isCrossReferenceTag x.tag.name) (link : String) :
    (x'.annotation? config s').map (·.withPermalink link) =
      (x.annotation? config s).map (·.withPermalink link) := by
  have hlocation : s'.location x'.tag.span = s.location x.tag.span := by
    rw [hx.tag.span, h.location]
  have haround : s'.location ⟨x'.tag.span.start, x'.doc.span.stop⟩ =
      s.location ⟨x.tag.span.start, x.doc.span.stop⟩ := by
    rw [hx.tag.span, hx.span, ← h.location ⟨x.tag.span.start, x.doc.span.stop⟩]
    rfl
  unfold PlacedTag.annotation? AnnotationTags.annotation?
  rw [hx.parent, hx.tag.name, hx.description, hlocation, haround, if_pos hcross, if_pos hcross]
  split <;> rfl

theorem moved_annotationTags (config : Config) :
    List.Forall₂ (PlacedTag.Moved f a) (s.annotationTags config) (s'.annotationTags config) := by
  refine List.rel_filter (fun x x' hx => ?_) (h.moved_placedTags hdocs)
  dsimp only
  rw [PlacedTag.isSome_annotation?, PlacedTag.isSome_annotation?, hx.tag.name, hx.description]

end Session.IsMoved

theorem rel_getElem? {α β : Type} {R : α → β → Prop} {l : List α} {l' : List β}
    (h : List.Forall₂ R l l') (i : Nat) : Option.Rel R l[i]? l'[i]? := by
  induction h generalizing i with
  | nil => exact .none
  | cons hfirst _ ih =>
    cases i with
    | zero => exact .some hfirst
    | succ i => simpa using ih i

/-- Where two sessions are moves of one, and a cross-reference at `a` has another permalink in the
second one, the annotations are the same but for this permalink. -/
theorem Session.annotations_modify {config : Config} {f f' : Nat → Nat} {a i : Nat} {link : String}
    {s₀ s s' : Session} (h : s₀.IsMoved f s) (h' : s₀.IsMoved f' s')
    (hdocs : List.Forall₂ (fun d d' => d'.1 = f d.1 ∧ d.2.Moved f a d'.2) s₀.docs s.docs)
    (hdocs' : List.Forall₂ (fun d d' => d'.1 = f' d.1 ∧ d.2.Moved f' a d'.2) s₀.docs s'.docs)
    (hnodup : (s₀.placedTags.map (·.tag.span.start)).Nodup) {x : PlacedTag}
    (hx : (s₀.annotationTags config)[i]? = some x) (hstart : x.tag.span.start = a)
    (hcross : config.isCrossReferenceTag x.tag.name)
    (hlink : ∀ x', (s'.annotationTags config)[i]? = some x' →
      parsePermalink x'.tag.text = some link) :
    s'.annotations config = (s.annotations config).modify i (·.withPermalink link) := by
  have hnodup : ((s₀.annotationTags config).map (·.tag.span.start)).Nodup :=
    hnodup.sublist (List.filter_sublist.map _)
  have hget (s : Session) (j : Nat) : ((s.annotations config)[j]?).map some =
      ((s.annotationTags config)[j]?).map (·.annotation? config s) := by
    rw [← List.getElem?_map, s.annotations_eq_map, List.getElem?_map]
  have hsome : Function.Injective (some : Annotation → Option Annotation) :=
    fun _ _ heq => Option.some.inj heq
  refine List.ext_getElem? fun j => Option.map_injective hsome ?_
  have hrel := rel_getElem? (h.moved_annotationTags hdocs config) j
  have hrel' := rel_getElem? (h'.moved_annotationTags hdocs' config) j
  have hsource := hget s j
  have hmap : ((s.annotations config).modify i (·.withPermalink link))[j]?.map some =
      if i = j then ((s.annotations config)[j]?.map some).map (Option.map (·.withPermalink link))
      else (s.annotations config)[j]?.map some := by
    rw [List.getElem?_modify]
    split <;> cases (s.annotations config)[j]? <;> rfl
  rw [hget s', hmap, hsource]
  cases hy : (s₀.annotationTags config)[j]? with
  | none =>
    rw [hy] at hrel hrel'
    generalize (s.annotationTags config)[j]? = z at hrel
    generalize (s'.annotationTags config)[j]? = z' at hrel'
    cases hrel
    cases hrel'
    split <;> rfl
  | some y =>
    rw [hy] at hrel hrel'
    generalize hz : (s.annotationTags config)[j]? = z at hrel
    generalize hz' : (s'.annotationTags config)[j]? = z' at hrel'
    obtain @⟨_, z, hyz⟩ := hrel
    obtain @⟨_, z', hyz'⟩ := hrel'
    rw [Option.map_some, Option.map_some]
    split
    · next hij =>
      subst hij
      obtain rfl : x = y := Option.some.inj (hx.symm.trans hy)
      have hcross' : config.isCrossReferenceTag z'.tag.name := hyz'.tag.name ▸ hcross
      rw [Option.map_some, h.map_withPermalink_annotation? hyz hcross,
        ← h'.map_withPermalink_annotation? hyz' hcross,
        PlacedTag.map_withPermalink_self hcross' (hlink z' hz')]
    · next hij =>
      have hne : y.tag.span.start ≠ a := fun heq => hij <| by
        have hlt := (List.getElem?_eq_some_iff.1 hx).1
        refine (List.getElem?_inj (by rwa [List.length_map]) hnodup).1 ?_
        rw [List.getElem?_map, List.getElem?_map, hx, hy, Option.map_some, Option.map_some, hstart,
          heq]
      rw [h.annotation?_of_text hyz (hyz.tag.text hne),
        h'.annotation?_of_text hyz' (hyz'.tag.text hne)]

/-! ## Where tags stand -/

namespace Session

variable {path : String} {text : List Char} {p : Program}

/-- The documentation comments of a file are those of its comments that are whole. -/
theorem docs_ofProgram (h : p.CommentsApart text) (path : String) :
    (ofProgram path text p).docs = p.comments.filterMap fun e =>
      if (slice? text e.2.start e.2.stop).any DocComment.isWhole then
        some (e.1, DocComment.parse text e.2) else none := by
  refine List.filterMap_congr fun e he => ?_
  dsimp only
  rw [DocComment.spanOf?_of_delimited (h.delimited e he)]
  split <;> rfl

theorem exists_of_mem_docs (h : p.CommentsApart text) {d : Nat × DocComment}
    (hd : d ∈ (ofProgram path text p).docs) :
    ∃ e ∈ p.comments, d = (e.1, DocComment.parse text e.2) ∧
      (slice? text e.2.start e.2.stop).any DocComment.isWhole := by
  rw [docs_ofProgram h] at hd
  obtain ⟨e, he, heq⟩ := List.mem_filterMap.1 hd
  obtain ⟨hwhole, heq⟩ := Option.ite_none_right_eq_some.1 heq
  exact ⟨e, he, (Option.some.inj heq).symm, hwhole⟩

section

variable (h : p.comments.Pairwise fun e e' => e.2.stop ≤ e'.2.start)
include h

/-- The tags of a comment start before those of a later one. -/
theorem pairwise_docs : (ofProgram path text p).docs.Pairwise fun d d' =>
    ∀ tag ∈ d.2.tags, ∀ tag' ∈ d'.2.tags, tag.span.start < tag'.span.start := by
  refine List.pairwise_filterMap.2 (h.imp fun hle d hd d' hd' tag htag tag' htag' => ?_)
  obtain ⟨span, hspan, rfl⟩ := Option.map_eq_some_iff.1 hd
  obtain ⟨span', hspan', rfl⟩ := Option.map_eq_some_iff.1 hd'
  have hbounds := DocComment.bounds_of_mem_tags_of_spanOf? hspan htag
  have hbounds' := DocComment.bounds_of_mem_tags_of_spanOf? hspan' htag'
  omega

theorem pairwise_docsAt (o : Nat) : ((ofProgram path text p).docsAt o).Pairwise fun doc doc' =>
    ∀ tag ∈ doc.tags, ∀ tag' ∈ doc'.tags, tag.span.start < tag'.span.start := by
  refine List.pairwise_filterMap.2 ((pairwise_docs h).imp fun hlt doc hdoc doc' hdoc' => ?_)
  cases (Option.ite_none_right_eq_some.1 hdoc).2
  cases (Option.ite_none_right_eq_some.1 hdoc').2
  exact hlt

/-- No tag starts in two comments. -/
theorem eq_of_start_eq {d d' : Nat × DocComment} (hd : d ∈ (ofProgram path text p).docs)
    (hd' : d' ∈ (ofProgram path text p).docs) {tag tag' : DocTag} (htag : tag ∈ d.2.tags)
    (htag' : tag' ∈ d'.2.tags) (hstart : tag.span.start = tag'.span.start) : d = d' := by
  let Apart (d d' : Nat × DocComment) : Prop :=
    ∀ tag ∈ d.2.tags, ∀ tag' ∈ d'.2.tags, tag.span.start ≠ tag'.span.start
  have : Std.Symm Apart := ⟨fun _ _ happart _ ht _ ht' => (happart _ ht' _ ht).symm⟩
  have happart : (ofProgram path text p).docs.Pairwise Apart :=
    (pairwise_docs h).imp fun hlt tag ht tag' ht' => (hlt tag ht tag' ht').ne
  by_contra hne
  exact happart.forall hd hd' hne tag htag tag' htag' hstart

/-- No two tags of a file start at one place. -/
theorem nodup_placedTags :
    ((ofProgram path text p).placedTags.map (·.tag.span.start)).Nodup := by
  simp only [placedTags, List.map_flatMap, List.map_map, Function.comp_def]
  refine List.nodup_flatMap.2 ⟨fun e he => List.nodup_flatMap.2 ⟨fun doc hdoc => ?_, ?_⟩, ?_⟩
  · obtain ⟨c, -, heq⟩ := List.mem_filterMap.1 (mem_docs_of_mem_docsAt hdoc)
    obtain ⟨span, -, hparse⟩ := Option.map_eq_some_iff.1 heq
    obtain rfl : DocComment.parse text span = doc := congrArg Prod.snd hparse
    exact List.pairwise_map.2 ((DocComment.pairwise_tags_parse text span).imp Nat.ne_of_lt)
  · refine (pairwise_docsAt h e.1).imp fun {doc doc'} hlt x hx hx' => ?_
    obtain ⟨tag, htag, rfl⟩ := List.mem_map.1 hx
    obtain ⟨tag', htag', heq⟩ := List.mem_map.1 hx'
    exact (hlt tag htag tag' htag').ne heq.symm
  · have htaken : (AnnotationTags.taken (ofProgram path text p) [] (visits p.root)).Pairwise
        fun e e' => e.1 ≠ e'.1 := List.pairwise_map.1 (AnnotationTags.nodup_taken [] _).2
    refine htaken.imp fun {e e'} hne x hx hx' => ?_
    obtain ⟨doc, hdoc, hx⟩ := List.mem_flatMap.1 hx
    obtain ⟨doc', hdoc', hx'⟩ := List.mem_flatMap.1 hx'
    obtain ⟨tag, htag, rfl⟩ := List.mem_map.1 hx
    obtain ⟨tag', htag', heq⟩ := List.mem_map.1 hx'
    have hsame := eq_of_start_eq h (mem_docs_of_mem_docsAt hdoc) (mem_docs_of_mem_docsAt hdoc')
      htag htag' heq.symm
    exact hne (Prod.mk.inj hsame).1

end

end Session

end ComponentScan
