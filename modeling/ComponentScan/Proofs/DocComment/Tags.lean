import ComponentScan.Proofs.DocComment.Lines
import ComponentScan.Proofs.Text.Insertion

/-!
# The tags of a comment

The tags of a comment start one after the other between the ends of its text (`pairwise_tags_parse`,
`bounds_of_mem_tags_parse`), and each of them stands on a tag line of its own
(`exists_isTagLine_of_mem_tags`). The first line of a comment with a description opens no tag.

So tags are in the text that the comment is from (`inside_of_mem_tags_parse`), and in the comment as it
was given, even if its delimiters had to be found first (`bounds_of_mem_tags_of_spanOf?`).
-/

namespace ComponentScan.DocComment

open Text

namespace Draft

/-- Whether the tags of a draft start one after the other between two offsets and end there. -/
structure IsWithin (lo hi : Nat) (d : Draft) : Prop where
  sorted : d.tags.Pairwise fun later earlier => earlier.span.start < later.span.start
  le_start : ∀ t ∈ d.tags, lo ≤ t.span.start
  start_lt : ∀ t ∈ d.tags, t.span.start < hi
  stop_le : ∀ t ∈ d.tags, t.span.stop ≤ hi

theorem IsWithin.empty (o : Nat) : IsWithin o o {} :=
  ⟨.nil, nofun, nofun, nofun⟩

variable {lo o : Nat} {d : Draft}

theorem IsWithin.takeLine (h : d.IsWithin lo o) (hlo : lo ≤ o) (seg : List Char) :
    (d.takeLine o seg).IsWithin lo (o + byteLength seg) := by
  have hmono : d.IsWithin lo (o + byteLength seg) :=
    ⟨h.sorted, h.le_start, fun t ht => Nat.lt_add_right _ (h.start_lt t ht),
      fun t ht => Nat.le_add_right_of_le (h.stop_le t ht)⟩
  rcases takeLine_cases d o seg with ⟨margin, name, rest, ending, hline⟩ | heq |
    ⟨tag, earlier, line, stop, htags, -, hstop, heq⟩ | ⟨line, -, heq⟩
  · have hbytes := congrArg byteLength hline.seg_eq
    have htrim := byteLength_trimEnd_le ('@' :: name ++ rest)
    have hmark := Char.utf8Size_pos '@'
    simp only [byteLength_append, byteLength_cons] at hbytes htrim
    rw [hline.takeLine]
    refine ⟨List.pairwise_cons.2 ⟨fun t ht => ?_, h.sorted⟩, ?_, ?_, ?_⟩
    · have := h.start_lt t ht
      dsimp only
      omega
    all_goals
      refine List.forall_mem_cons.2 ⟨?_, ?_⟩
    · dsimp only
      omega
    · exact h.le_start
    · dsimp only
      omega
    · exact hmono.start_lt
    · dsimp only
      omega
    · exact hmono.stop_le
  · rwa [heq]
  · have hsorted := h.sorted
    have hle := h.le_start
    have hlt := hmono.start_lt
    have hends := hmono.stop_le
    rw [htags] at hsorted hle hlt hends
    rw [heq]
    rw [List.pairwise_cons] at hsorted
    rw [List.forall_mem_cons] at hle hlt hends
    exact ⟨List.pairwise_cons.2 hsorted, List.forall_mem_cons.2 hle, List.forall_mem_cons.2 hlt,
      List.forall_mem_cons.2 ⟨hstop, hends.2⟩⟩
  · rw [heq]
    exact ⟨hmono.sorted, hmono.le_start, hmono.start_lt, hmono.stop_le⟩

theorem IsWithin.takeLines (h : d.IsWithin lo o) (hlo : lo ≤ o) (segs : List (List Char)) :
    (d.takeLines o segs).IsWithin lo (o + byteLength segs.flatten) := by
  induction segs generalizing d o with
  | nil => exact h
  | cons seg segs ih =>
    have hrest := ih (h.takeLine hlo seg) (by omega)
    rwa [List.flatten_cons, byteLength_append, ← Nat.add_assoc]

/-- Once a tag is open, the description stays. -/
theorem description_takeLines (h : d.tags ≠ []) (o : Nat) (segs : List (List Char)) :
    (d.takeLines o segs).description = d.description := by
  induction segs generalizing d o with
  | nil => rfl
  | cons seg segs ih =>
    have hline : (d.takeLine o seg).tags ≠ [] ∧ (d.takeLine o seg).description = d.description := by
      rcases takeLine_cases d o seg with ⟨_, _, _, _, hline⟩ | heq | ⟨_, _, _, _, -, -, -, heq⟩ |
        ⟨_, hempty, -⟩
      · rw [hline.takeLine]
        exact ⟨List.cons_ne_nil _ _, rfl⟩
      · rw [heq]
        exact ⟨h, rfl⟩
      · rw [heq]
        exact ⟨List.cons_ne_nil _ _, rfl⟩
      · exact absurd hempty h
    exact (ih hline.1 _).trans hline.2

theorem takeLines_append (d : Draft) (o : Nat) (segs segs' : List (List Char)) :
    d.takeLines o (segs ++ segs') =
      (d.takeLines o segs).takeLines (o + byteLength segs.flatten) segs' := by
  induction segs generalizing d o with
  | nil => rfl
  | cons seg segs ih =>
    rw [List.cons_append, takeLines, takeLines, ih, List.flatten_cons, byteLength_append,
      Nat.add_assoc]

/-- A tag of a draft was open before, or a line has opened it. -/
theorem exists_isTagLine_of_mem_takeLines {segs : List (List Char)} {t : OpenTag}
    (ht : t ∈ (d.takeLines o segs).tags) :
    (∃ t₀ ∈ d.tags, t.name = t₀.name ∧ t.span.start = t₀.span.start) ∨
      ∃ front seg behind margin rest ending, segs = front ++ seg :: behind ∧
        IsTagLine seg margin t.name rest ending ∧
        t.span.start = o + byteLength front.flatten + byteLength margin := by
  induction segs generalizing d o with
  | nil => exact .inl ⟨t, ht, rfl, rfl⟩
  | cons seg segs ih =>
    rcases ih ht with ⟨t₀, ht₀, hname, hstart⟩ |
      ⟨front, seg', behind, margin, rest, ending, rfl, hline, hstart⟩
    · rcases takeLine_cases d o seg with ⟨margin, name, rest, ending, hline⟩ | heq |
        ⟨tag, earlier, line, stop, htags, -, -, heq⟩ | ⟨line, htags, heq⟩
      · rw [hline.takeLine] at ht₀
        rcases List.mem_cons.1 ht₀ with rfl | ht₀
        · refine .inr ⟨[], seg, segs, margin, rest, ending, rfl, ?_, ?_⟩
          · rw [hname]
            exact hline
          · rw [hstart]
            simp
        · exact .inl ⟨t₀, ht₀, hname, hstart⟩
      · rw [heq] at ht₀
        exact .inl ⟨t₀, ht₀, hname, hstart⟩
      · rw [heq] at ht₀
        rw [htags]
        rcases List.mem_cons.1 ht₀ with rfl | ht₀
        · exact .inl ⟨tag, List.mem_cons_self, hname, hstart⟩
        · exact .inl ⟨t₀, List.mem_cons_of_mem _ ht₀, hname, hstart⟩
      · rw [heq] at ht₀
        exact .inl ⟨t₀, ht₀, hname, hstart⟩
    · refine .inr ⟨seg :: front, seg', behind, margin, rest, ending, rfl, hline, ?_⟩
      rw [hstart, List.flatten_cons, byteLength_append]
      omega

end Draft

variable {source : List Char} {span : Span}

theorem isWithin_takeLines_inner (source : List Char) (span : Span) :
    (({} : Draft).takeLines (span.start + 3) (segments (inner source span))).IsWithin
      (span.start + 3) (span.start + 3 + byteLength (inner source span)) := by
  have h := (Draft.IsWithin.empty (span.start + 3)).takeLines (Nat.le_refl _)
    (segments (inner source span))
  rwa [flatten_segments] at h

/-- Tags start one after the other. -/
theorem pairwise_tags_parse (source : List Char) (span : Span) :
    (parse source span).tags.Pairwise fun t t' => t.span.start < t'.span.start := by
  unfold parse
  rw [List.pairwise_map, List.pairwise_reverse]
  exact (isWithin_takeLines_inner source span).sorted

theorem bounds_of_mem_tags_parse {tag : DocTag} (h : tag ∈ (parse source span).tags) :
    span.start + 3 ≤ tag.span.start ∧
      tag.span.start < span.start + 3 + byteLength (inner source span) ∧
      tag.span.stop ≤ span.start + 3 + byteLength (inner source span) := by
  obtain ⟨t, ht, rfl⟩ := List.mem_map.1 h
  have hwithin := isWithin_takeLines_inner source span
  rw [List.mem_reverse] at ht
  exact ⟨hwithin.le_start t ht, hwithin.start_lt t ht, hwithin.stop_le t ht⟩

/-- A tag of a comment stands on a tag line, which is not the first line if the comment has a
description. -/
theorem exists_isTagLine_of_mem_tags {tag : DocTag} (h : tag ∈ (parse source span).tags) :
    ∃ front seg behind margin rest ending,
      segments (inner source span) = front ++ seg :: behind ∧
      IsTagLine seg margin tag.name.toList rest ending ∧
      tag.span.start = span.start + 3 + byteLength front.flatten + byteLength margin ∧
      ((parse source span).description ≠ "" → front ≠ []) := by
  obtain ⟨t, ht, rfl⟩ := List.mem_map.1 h
  rw [List.mem_reverse] at ht
  rcases Draft.exists_isTagLine_of_mem_takeLines ht with ⟨_, hmem, -⟩ |
    ⟨front, seg, behind, margin, rest, ending, hsegs, hline, hstart⟩
  · cases hmem
  · refine ⟨front, seg, behind, margin, rest, ending, hsegs, by rwa [String.toList_ofList], hstart,
      fun hdescription hfront => hdescription ?_⟩
    subst hfront
    unfold parse
    rw [hsegs, List.nil_append, Draft.takeLines]
    dsimp only
    rw [Draft.description_takeLines, hline.takeLine]
    · rfl
    · rw [hline.takeLine]
      exact List.cons_ne_nil _ _

/-! ## Tags in their text -/

theorem byteLength_inner_le (text : List Char) (span : Span) :
    span.start + 3 + byteLength (inner text span) ≤ max (span.stop - 2) (span.start + 3) := by
  unfold inner
  dsimp only
  cases h : slice? text (span.start + 3) (max (span.stop - 2) (span.start + 3)) with
  | none => exact Nat.le_max_right _ _
  | some piece =>
    obtain ⟨front, behind, -, hfront, hstop⟩ := slice?_eq_some_iff.1 h
    rw [byteLength_append, hfront] at hstop
    exact hstop.le

/-- The text of a comment ends in the text that it is from, unless there is none. -/
theorem inner_eq_nil_or_stop_le (text : List Char) (span : Span) :
    inner text span = [] ∨ span.start + 3 + byteLength (inner text span) ≤ byteLength text := by
  unfold inner
  dsimp only
  cases h : slice? text (span.start + 3) (max (span.stop - 2) (span.start + 3)) with
  | none => exact .inl rfl
  | some piece =>
    obtain ⟨front, behind, htext, hfront, -⟩ := slice?_eq_some_iff.1 h
    refine .inr ?_
    rw [htext, Option.getD_some, byteLength_append, byteLength_append, hfront]
    exact Nat.le_add_right _ _

theorem inside_of_mem_tags_parse {tag : DocTag} (h : tag ∈ (parse source span).tags) :
    tag.span.start < byteLength source ∧ tag.span.stop ≤ byteLength source := by
  obtain ⟨hle, hlt, hstop⟩ := bounds_of_mem_tags_parse h
  rcases inner_eq_nil_or_stop_le source span with hnil | hinner
  · rw [hnil, byteLength_nil, Nat.add_zero] at hlt
    omega
  · omega

section

variable {span' : Span}

/-- A comment, completed by its delimiters or not, ends in the text. -/
theorem stop_le_of_spanOf? (h : spanOf? source span = some span') :
    span'.stop ≤ byteLength source := by
  simp only [spanOf?, Option.bind_eq_bind, Option.bind_eq_some_iff] at h
  obtain ⟨piece, hpiece, h⟩ := h
  split at h
  · cases h
    exact stop_le_of_slice? hpiece
  · obtain ⟨hends, heq⟩ := Option.ite_none_right_eq_some.1 h
    cases heq
    simp only [Bool.and_eq_true, beq_iff_eq] at hends
    exact stop_le_of_slice? hends.1.2

/-- Its tags start in the comment as it was given, without the delimiters that were not. -/
theorem bounds_of_mem_tags_of_spanOf? (h : spanOf? source span = some span') {tag : DocTag}
    (htag : tag ∈ (parse source span').tags) :
    span.start ≤ tag.span.start ∧ tag.span.start < span.stop := by
  have hbounds := bounds_of_mem_tags_parse htag
  have hinner := byteLength_inner_le source span'
  simp only [spanOf?, Option.bind_eq_bind, Option.bind_eq_some_iff] at h
  obtain ⟨piece, -, h⟩ := h
  split at h
  · cases h
    omega
  · obtain ⟨hends, heq⟩ := Option.ite_none_right_eq_some.1 h
    cases heq
    dsimp only at hbounds hinner
    omega

end

end ComponentScan.DocComment
