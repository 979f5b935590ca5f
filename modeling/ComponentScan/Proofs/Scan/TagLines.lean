import ComponentScan.Proofs.DocComment.Delimiters
import ComponentScan.Proofs.Scan.TagSite

/-!
# The lines of tags

Between two tags of one comment stands a feed (`DocComment.feedBetween_of_mem_tags`), and so it does
between a comment's start and its tags if the comment has a description
(`DocComment.feedBetween_of_description`), as that of a cross-reference has. So no two
cross-references of a file start on one line (`Session.pairwise_lineOf`).
-/

namespace ComponentScan

open Syntax Text

namespace LineIndex

/-- A feed between two offsets puts them on different lines. -/
theorem lineOf_lt {u v : List Char} {x y : Nat} (hx : x ≤ byteLength u) (hy : byteLength u < y) :
    (ofText (u ++ '\n' :: v)).lineOf x < (ofText (u ++ '\n' :: v)).lineOf y := by
  have hfeed : '\n'.utf8Size = 1 := rfl
  have hmono {l : List Nat} : l.countP (· ≤ x) ≤ l.countP (· ≤ y) :=
    List.countP_mono_left fun z _ hz => by
      rw [decide_eq_true_eq] at hz ⊢
      omega
  have hfirst : ¬ byteLength u + 1 ≤ x := by omega
  have hsecond : byteLength u + 1 ≤ y := by omega
  rw [lineOf_append, lineOf_append]
  simp only [startsAfter, if_true, List.countP_cons, hfirst, hsecond, hfeed,
    decide_true, decide_false]
  have hbefore := @hmono (startsAfter 0 u)
  have hbehind := @hmono (startsAfter (byteLength u + 1) v)
  simp only [Bool.false_eq_true, if_false]
  omega

end LineIndex

namespace DocComment

variable {source : List Char} {span span' : Span} {tag tag' : DocTag}

/-- The margin of a tag line is what stands in front of the mark. -/
theorem IsTagLine.margin_eq {seg margin name rest ending : List Char}
    (h : IsTagLine seg margin name rest ending) : seg.takeWhile (· != '@') = margin := by
  have hmargin : ∀ c ∈ margin, (c != '@') = true := fun c hc =>
    bne_iff_ne.2 fun heq => h.isMargin.notMem (heq ▸ hc)
  rw [h.seg_eq, List.append_assoc, List.append_assoc, List.takeWhile_append_of_pos hmargin]
  simp

theorem start_le_of_spanOf? (h : spanOf? source span = some span') :
    span.start ≤ span'.start + 2 := by
  simp only [spanOf?, Option.bind_eq_bind, Option.bind_eq_some_iff] at h
  obtain ⟨_, -, h⟩ := h
  split at h
  · cases h
    omega
  · obtain ⟨-, heq⟩ := Option.ite_none_right_eq_some.1 h
    cases heq
    dsimp only
    omega

/-- Whether a feed stands between two offsets. -/
def FeedBetween (source : List Char) (x y : Nat) : Prop :=
  ∃ u v, source = u ++ '\n' :: v ∧ x ≤ byteLength u ∧ byteLength u < y

theorem FeedBetween.lineOf_lt {x y : Nat} (h : FeedBetween source x y) :
    (LineIndex.ofText source).lineOf x < (LineIndex.ofText source).lineOf y := by
  obtain ⟨u, v, rfl, hx, hy⟩ := h
  exact LineIndex.lineOf_lt hx hy

/-- A line of a comment that is not its first one stands behind a feed. -/
theorem feedBetween_of_segments {front behind : List (List Char)} {seg : List Char} {x y : Nat}
    (hspan : spanOf? source span = some span')
    (hsegments : segments (inner source span') = front ++ seg :: behind) (hfront : front ≠ [])
    (hx : x < span'.start + 3 + byteLength front.flatten)
    (hy : span'.start + 3 + byteLength front.flatten ≤ y) : FeedBetween source x y := by
  obtain ⟨before, after, hsource, hbefore, -⟩ := exists_delimiters hspan
  have hinner : inner source span' = front.flatten ++ seg ++ behind.flatten := by
    rw [← flatten_segments (inner source span'), hsegments]
    simp
  obtain ⟨lines, last, rfl⟩ := (List.eq_nil_or_concat front).resolve_left hfront
  simp only [List.concat_eq_append, List.flatten_append, List.flatten_singleton,
    byteLength_append] at hsegments hinner hx hy
  have hlast : (segments (inner source span'))[lines.length]? = some last := by
    rw [hsegments]
    simp
  obtain ⟨l, -, rfl⟩ : IsFedLine last := isFedLine_of_lt hlast (by rw [hsegments]; simp)
  have hfeed : '\n'.utf8Size = 1 := rfl
  have hopening : byteLength "/**".toList = 3 := rfl
  simp only [byteLength_append, byteLength_cons, byteLength_nil, hfeed] at hx hy
  refine ⟨before ++ "/**".toList ++ lines.flatten ++ l, seg ++ behind.flatten ++ "*/".toList ++ after,
    by rw [hsource, hinner]; simp, ?_, ?_⟩ <;>
    · simp only [byteLength_append, hbefore, hopening]
      omega

/-- Tags of one comment that do not start together are on different lines. -/
theorem feedBetween_of_mem_tags (hspan : spanOf? source span = some span')
    (htag : tag ∈ (parse source span').tags) (htag' : tag' ∈ (parse source span').tags)
    (hlt : tag.span.start < tag'.span.start) :
    FeedBetween source tag.span.start tag'.span.start := by
  obtain ⟨front, seg, behind, margin, rest, ending, hsegments, hline, hstart, -⟩ :=
    exists_isTagLine_of_mem_tags htag
  obtain ⟨front', seg', behind', margin', rest', ending', hsegments', hline', hstart', -⟩ :=
    exists_isTagLine_of_mem_tags htag'
  have hseg := congrArg byteLength hline.seg_eq
  have hseg' := congrArg byteLength hline'.seg_eq
  have hmark := Char.utf8Size_pos '@'
  simp only [byteLength_append, byteLength_cons] at hseg hseg'
  have hlines := hsegments.symm.trans hsegments'
  -- Tags of one line start together, so the first tag is on a line in front of the second one.
  have hsame (hfront : front = front') (hlines : seg :: behind = seg' :: behind') : False := by
    obtain ⟨rfl, -⟩ := List.cons.inj hlines
    have hmargins : margin = margin' := hline.margin_eq.symm.trans hline'.margin_eq
    rw [hstart, hstart', hfront, hmargins] at hlt
    exact Nat.lt_irrefl _ hlt
  obtain ⟨mid, hfront⟩ : ∃ mid, front' = front ++ seg :: mid := by
    rcases List.append_eq_append_iff.1 hlines with ⟨mid, hfront, hmid⟩ | ⟨mid, hfront, hmid⟩
    · cases mid with
      | nil => exact (hsame (by simpa using hfront.symm) hmid).elim
      | cons first mid =>
        obtain ⟨rfl, -⟩ := List.cons.inj hmid
        exact ⟨mid, hfront⟩
    · cases mid with
      | nil => exact (hsame (by simpa using hfront) hmid.symm).elim
      | cons first mid =>
        obtain ⟨rfl, -⟩ := List.cons.inj hmid
        simp only [hfront, List.flatten_append, List.flatten_cons, byteLength_append] at hstart
        omega
  refine feedBetween_of_segments hspan hsegments' (by simp [hfront]) ?_ (by omega)
  simp only [hfront, List.flatten_append, List.flatten_cons, byteLength_append]
  omega

/-- A tag of a comment with a description is not on the first line of the comment. -/
theorem feedBetween_of_description (hspan : spanOf? source span = some span')
    (htag : tag ∈ (parse source span').tags) (hdescription : (parse source span').description ≠ "")
    {x : Nat} (hx : x < span.start) : FeedBetween source x tag.span.start := by
  obtain ⟨front, seg, behind, margin, rest, ending, hsegments, hline, hstart, hfront⟩ :=
    exists_isTagLine_of_mem_tags htag
  have hle := start_le_of_spanOf? hspan
  exact feedBetween_of_segments hspan hsegments (hfront hdescription) (by omega) (by omega)

end DocComment

namespace Session

variable {path : String} {text : List Char} {p : Program} {x x' : PlacedTag}

/-- Of two tags of a file, the later one is on a later line if its comment has a description. -/
theorem lineOf_lt_of_mem_placedTags (h : p.comments.Pairwise fun e e' => e.2.stop ≤ e'.2.start)
    (hx : x ∈ (ofProgram path text p).placedTags) (hx' : x' ∈ (ofProgram path text p).placedTags)
    (hdescription : x'.doc.description ≠ "") (hlt : x.tag.span.start < x'.tag.span.start) :
    (LineIndex.ofText text).lineOf x.tag.span.start <
      (LineIndex.ofText text).lineOf x'.tag.span.start := by
  refine DocComment.FeedBetween.lineOf_lt ?_
  obtain ⟨_, hdoc, htag, -⟩ := exists_of_mem_placedTags hx
  obtain ⟨_, hdoc', htag', -⟩ := exists_of_mem_placedTags hx'
  obtain ⟨e, he, heq⟩ := List.mem_filterMap.1 hdoc
  obtain ⟨span, hspan, heq⟩ := Option.map_eq_some_iff.1 heq
  obtain ⟨e', he', heq'⟩ := List.mem_filterMap.1 hdoc'
  obtain ⟨span', hspan', heq'⟩ := Option.map_eq_some_iff.1 heq'
  obtain ⟨-, hparse⟩ := Prod.mk.inj heq
  obtain ⟨-, hparse'⟩ := Prod.mk.inj heq'
  rw [← hparse] at htag
  rw [← hparse'] at htag' hdescription
  by_cases hsame : e = e'
  · subst hsame
    obtain rfl := Option.some.inj (hspan.symm.trans hspan')
    exact DocComment.feedBetween_of_mem_tags hspan htag htag' hlt
  · let Apart (e e' : Nat × Span) : Prop := e.2.stop ≤ e'.2.start ∨ e'.2.stop ≤ e.2.start
    have : Std.Symm Apart := ⟨fun _ _ happart => happart.symm⟩
    have happart : p.comments.Pairwise Apart := h.imp fun hle => .inl hle
    have hbounds := DocComment.bounds_of_mem_tags_of_spanOf? hspan htag
    have hbounds' := DocComment.bounds_of_mem_tags_of_spanOf? hspan' htag'
    rcases happart.forall he he' hsame with hle | hle
    · exact DocComment.feedBetween_of_description hspan' htag' hdescription (by omega)
    · omega

/-- No two cross-references of a file start on one line. -/
theorem pairwise_lineOf (path : String) (text : List Char)
    (h : p.comments.Pairwise fun e e' => e.2.stop ≤ e'.2.start) (config : Config) :
    ((ofProgram path text p).annotationTags config).Pairwise fun x x' =>
      x.doc.description ≠ "" → x'.doc.description ≠ "" →
        (LineIndex.ofText text).lineOf x.tag.span.start ≠
          (LineIndex.ofText text).lineOf x'.tag.span.start := by
  have hnodup : ((ofProgram path text p).annotationTags config).Pairwise fun x x' =>
      x.tag.span.start ≠ x'.tag.span.start :=
    List.pairwise_map.1 ((nodup_placedTags h).sublist (List.filter_sublist.map _))
  refine hnodup.imp_of_mem fun {x x'} hx hx' hne hdescription hdescription' => ?_
  have hx := List.mem_of_mem_filter hx
  have hx' := List.mem_of_mem_filter hx'
  rcases Nat.lt_or_gt_of_ne hne with hlt | hlt
  · exact (lineOf_lt_of_mem_placedTags h hx hx' hdescription' hlt).ne
  · exact (lineOf_lt_of_mem_placedTags h hx' hx hdescription hlt).ne'

end Session

end ComponentScan
