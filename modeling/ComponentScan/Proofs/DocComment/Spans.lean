import ComponentScan.Proofs.DocComment.Blocks

/-!
# Spans of tags

The span of a tag covers its block from the mark on, up to the last character of the last line with
something on it (`TagBlock.exists_flatten_feed_eq`). The tag can be read again from there alone
(`TagBlock.reread_body`).
-/

namespace ComponentScan.DocComment

open Text

/-- Reads the text of the tag `name` out of the lines of `piece`, the first of which starts with the
tag. -/
def reread (name piece : List Char) : List Char :=
  let contents := (splitWhere (· == '\n') piece).map content
  joinWith ['\n']
    (((contents.modifyHead (·.drop (name.length + 1))).map trim).filter (!·.isEmpty))

theorem reread_joinWith {name rest : List Char} {ls : List (List Char)}
    (hfeed : ∀ l ∈ ('@' :: name ++ rest) :: ls, '\n' ∉ l) :
    reread name (joinWith ['\n'] (('@' :: name ++ rest) :: ls)) =
      joinWith ['\n'] (((rest :: ls.map content).map trim).filter (!·.isEmpty)) := by
  have hsplit : splitWhere (· == '\n') (joinWith ['\n'] (('@' :: name ++ rest) :: ls)) =
      ('@' :: name ++ rest) :: ls :=
    splitWhere_joinWith rfl (List.cons_ne_nil _ _) fun l hl c hc =>
      beq_eq_false_iff_ne.2 fun (heq : c = '\n') => hfeed l hl (heq ▸ hc)
  have hcontent : content ('@' :: name ++ rest) = '@' :: name ++ rest :=
    congrArg Prod.snd (stripMargin_append ⟨[], [], nofun, nofun, .inl rfl⟩ (name ++ rest))
  have hdrop : ('@' :: name ++ rest).drop (name.length + 1) = rest := by simp
  rw [reread, hsplit, List.map_cons, hcontent, List.modifyHead_cons, hdrop]

namespace TagBlock

/-! ## The body of a block -/

theorem body_of_more_eq_nil {b : TagBlock} (h : b.more = []) :
    b.body = '@' :: b.name ++ trimEnd b.rest := by
  have hlast : ∀ c, ('@' :: b.name).getLast? = some c → isBlank c = false := fun c hc => by
    rw [List.getLast?_cons, List.getLast?_eq_some_getLast b.opensTag.name_ne_nil] at hc
    cases hc
    exact not_isBlank_of_isTagChar (b.opensTag.isTagChar _ (List.getLast_mem _))
  rw [body, h, b.opensTag.content_eq]
  exact trimEnd_append hlast b.rest

theorem newline_notMem_content {b : TagBlock} (h : ∀ l ∈ b.lines, '\n' ∉ l) :
    '\n' ∉ content b.line :=
  fun hmem => h b.line List.mem_cons_self ((stripMargin_suffix b.line).subset hmem)

/-- The lines of a body start with the tag and have the contents of the block. -/
theorem exists_body_eq_joinWith (b : TagBlock) (h : ∀ l ∈ b.lines, '\n' ∉ l) :
    ∃ rest ls, b.body = joinWith ['\n'] (('@' :: b.name ++ rest) :: ls) ∧ rest <+: b.rest ∧
      (∀ l ∈ ('@' :: b.name ++ rest) :: ls, '\n' ∉ l) ∧
      ((rest :: ls.map content).map trim).filter (!·.isEmpty) = b.pieces := by
  induction b using snoc_induction with
  | single b hmore =>
    have hrest : trimEnd b.rest <+: b.rest := by
      obtain ⟨e, -, he⟩ := exists_eq_trimEnd_append b.rest
      exact ⟨e, he.symm⟩
    refine ⟨trimEnd b.rest, [], body_of_more_eq_nil hmore, hrest, ?_, ?_⟩
    · rw [List.forall_mem_singleton]
      refine fun hmem => newline_notMem_content h ?_
      rw [b.opensTag.content_eq]
      exact ((List.prefix_append_right_inj _).2 hrest).subset hmem
    · rw [pieces, hmore]
      simp [trim_trimEnd]
  | snoc b l hl ih =>
    rw [lines_snoc, List.forall_mem_append] at h
    by_cases hblank : trim (content l) = []
    · rw [b.body_snoc_of_blank hl hblank, b.pieces_snoc_of_blank hl hblank]
      exact ih h.1
    · rw [b.body_snoc hl hblank, b.pieces_snoc hl hblank]
      refine ⟨b.rest, b.more ++ [trimEnd l], by rw [b.opensTag.content_eq]; rfl,
        List.prefix_rfl, ?_, ?_⟩
      · have hl : '\n' ∉ trimEnd l := fun hmem => by
          obtain ⟨e, -, he⟩ := exists_eq_trimEnd_append l
          refine h.2 l List.mem_cons_self ?_
          rw [he]
          exact List.mem_append_left e hmem
        change ∀ l' ∈ ('@' :: b.name ++ b.rest) :: (b.more ++ [trimEnd l]), '\n' ∉ l'
        rw [← b.opensTag.content_eq, List.forall_mem_cons, List.forall_mem_append]
        exact ⟨newline_notMem_content h.1, (List.forall_mem_cons.1 h.1).2,
          List.forall_mem_singleton.2 hl⟩
      · simp only [pieces, List.map_append, List.map_cons, List.map_nil, ← List.cons_append,
          List.filter_append, trim_content_trimEnd]
        simp [hblank]

/-- The body of a block says what the block says. -/
theorem reread_body (b : TagBlock) (h : ∀ l ∈ b.lines, '\n' ∉ l) :
    reread b.name b.body = b.text := by
  obtain ⟨rest, ls, hbody, -, hfeed, hpieces⟩ := b.exists_body_eq_joinWith h
  rw [hbody, reread_joinWith hfeed, hpieces, text]

/-- The body of a block starts with its tag. -/
theorem exists_body_eq (b : TagBlock) (h : ∀ l ∈ b.lines, '\n' ∉ l) :
    ∃ r, b.body = '@' :: b.name ++ r ∧ ∀ c, r.head? = some c → isTagChar c = false := by
  obtain ⟨rest, ls, hbody, hrest, -⟩ := b.exists_body_eq_joinWith h
  refine ⟨joinWith ['\n'] (rest :: ls), by rw [hbody, joinWith_append_cons], fun c hc => ?_⟩
  cases rest with
  | nil =>
    cases ls with
    | nil => cases hc
    | cons l ls =>
      cases hc
      decide
  | cons d rest =>
    obtain ⟨e, he⟩ := hrest
    refine b.opensTag.boundary c ?_
    rw [← he]
    cases ls <;> exact hc

/-- The lines of a block are a margin, its body and the rest. -/
theorem exists_flatten_feed_eq (b : TagBlock) :
    ∃ w tail, byteLength w = (stripMargin b.line).1 ∧ (feed b.lines).flatten = w ++ b.body ++ tail := by
  induction b using snoc_induction with
  | single b hmore =>
    obtain ⟨w, hw, hlines⟩ := b.exists_flatten_feed_lines
    obtain ⟨e, -, he⟩ := exists_eq_trimEnd_append (content b.line)
    refine ⟨w, e ++ ['\n'], hw, ?_⟩
    rw [hlines, hmore, body, hmore]
    simp only [List.rdropWhile_nil, joinWith, List.append_assoc]
    rw [← List.append_assoc (trimEnd _), ← he]
  | snoc b l hl ih =>
    by_cases hblank : trim (content l) = []
    · obtain ⟨w, tail, hw, hlines⟩ := ih
      refine ⟨w, tail ++ (l ++ ['\n']), hw, ?_⟩
      rw [lines_snoc, feed_append, List.flatten_append, hlines, b.body_snoc_of_blank hl hblank]
      simp
    · obtain ⟨w, hw, hlines⟩ := b.exists_flatten_feed_lines
      obtain ⟨e, -, he⟩ := exists_eq_trimEnd_append l
      refine ⟨w, e ++ ['\n'], hw, ?_⟩
      rw [lines_snoc, feed_append, List.flatten_append, hlines, b.body_snoc hl hblank,
        ← List.cons_append, joinWith_append (List.cons_ne_nil _ _) (List.cons_ne_nil _ _)]
      conv_lhs => rw [he]
      simp [joinWith]

/-! ## The tags of blocks -/

theorem body_ne_nil {b : TagBlock} (h : ∀ l ∈ b.lines, '\n' ∉ l) : b.body ≠ [] := by
  obtain ⟨r, hbody, -⟩ := b.exists_body_eq h
  rw [hbody]
  exact List.cons_ne_nil _ _

/-- The tag of a block stands in its lines. -/
theorem span_openTag (b : TagBlock) (o : Nat) :
    o ≤ (b.openTag o).span.start ∧
      (b.openTag o).span.stop ≤ o + byteLength (feed b.lines).flatten := by
  obtain ⟨w, tail, hw, hlines⟩ := b.exists_flatten_feed_eq
  rw [hlines, byteLength_append, byteLength_append, hw]
  dsimp only [openTag]
  omega

theorem le_start_of_mem_openTags {blocks : List TagBlock} {o : Nat} {t : OpenTag}
    (h : t ∈ openTags o blocks) : o ≤ t.span.start := by
  induction blocks generalizing o with
  | nil => cases h
  | cons b bs ih =>
    rcases List.mem_cons.1 h with rfl | h
    · exact (b.span_openTag o).1
    · exact (Nat.le_add_right _ _).trans (ih h)

/-- A tag ends in front of the next one. -/
theorem pairwise_openTags (blocks : List TagBlock) (o : Nat) :
    (openTags o blocks).Pairwise fun t t' => t.span.stop ≤ t'.span.start := by
  induction blocks generalizing o with
  | nil => exact .nil
  | cons b bs ih =>
    exact List.pairwise_cons.2
      ⟨fun t ht => (b.span_openTag o).2.trans (le_start_of_mem_openTags ht), ih _⟩

theorem exists_of_mem_openTags {blocks : List TagBlock} {o : Nat} {t : OpenTag}
    (h : t ∈ openTags o blocks) :
    ∃ front b behind, blocks = front ++ b :: behind ∧
      t = b.openTag (o + byteLength (feed (front.flatMap lines)).flatten) := by
  induction blocks generalizing o with
  | nil => cases h
  | cons b bs ih =>
    rcases List.mem_cons.1 h with rfl | h
    · exact ⟨[], b, bs, rfl, rfl⟩
    · obtain ⟨front, b', behind, rfl, ht⟩ := ih h
      refine ⟨b :: front, b', behind, rfl, ?_⟩
      rw [ht, List.flatMap_cons, feed_append, List.flatten_append, byteLength_append,
        Nat.add_assoc]

end TagBlock

/-! ## The spans -/

/-- A tag of a comment is that of a block, whose body stands in the comment where the tag does. -/
theorem exists_body_of_mem_tags {source : List Char} {span : Span} {tag : DocTag}
    (h : tag ∈ (parse source span).tags) :
    ∃ (b : TagBlock) (u v : List Char), inner source span = u ++ b.body ++ v ∧
      (∀ l ∈ b.lines, '\n' ∉ l) ∧ tag.name.toList = b.name ∧ tag.text.toList = b.text ∧
      tag.span.start = span.start + 3 + byteLength u ∧
      tag.span.stop = tag.span.start + byteLength b.body := by
  obtain ⟨head, blocks, hlines, hhead⟩ :=
    exists_tagBlocks (splitWhere (· == '\n') (inner source span))
  rw [parse_tagBlocks source span hlines hhead] at h
  obtain ⟨t, ht, rfl⟩ := List.mem_map.1 h
  obtain ⟨front, b, behind, rfl, rfl⟩ := TagBlock.exists_of_mem_openTags ht
  obtain ⟨w, tail, hw, hbody⟩ := b.exists_flatten_feed_eq
  have hfeed : ∀ l ∈ b.lines, '\n' ∉ l := fun l hl hmem => by
    have hsplit : l ∈ splitWhere (· == '\n') (inner source span) := by
      rw [hlines, List.flatMap_append, List.flatMap_cons]
      simp [hl]
    exact absurd (notMem_of_mem_splitWhere hsplit _ hmem) (by decide)
  have hlast : ∀ c, b.body.getLast? = some c → isBlank c = false := fun c hc =>
    isBlank_of_getLast?_trimEnd hc
  have hjoin : inner source span ++ ['\n'] =
      ((feed head).flatten ++ (feed (front.flatMap TagBlock.lines)).flatten ++ w ++ b.body) ++
        (tail ++ (feed (behind.flatMap TagBlock.lines)).flatten) := by
    have hall : joinWith ['\n'] (splitWhere (· == '\n') (inner source span)) ++ ['\n'] =
        (feed (splitWhere (· == '\n') (inner source span))).flatten :=
      joinWith_append_sep (splitWhere_ne_nil (· == '\n') (inner source span))
    rw [joinWith_splitWhere, hlines] at hall
    simp only [hall, List.flatMap_append, List.flatMap_cons, feed_append, List.flatten_append, hbody,
      List.append_assoc]
  have hinner : ∃ v, inner source span =
      (feed head).flatten ++ (feed (front.flatMap TagBlock.lines)).flatten ++ w ++ b.body ++ v := by
    rcases List.append_eq_append_iff.1 hjoin with ⟨a, hu, ha⟩ | ⟨v, hv, -⟩
    · -- the last feed is not in the body, which does not end with white space
      rcases List.append_eq_singleton_iff.1 ha.symm with ⟨rfl, -⟩ | ⟨rfl, -⟩
      · exact ⟨[], by rw [hu, List.append_nil, List.append_nil]⟩
      · have hend := congrArg List.getLast? hu
        rw [List.getLast?_append, List.getLast?_concat,
          Option.or_of_isSome (by simpa using TagBlock.body_ne_nil hfeed)] at hend
        exact absurd (hlast _ hend) (by decide)
    · exact ⟨v, hv⟩
  obtain ⟨v, hv⟩ := hinner
  refine ⟨b, _, v, hv, hfeed, by rw [String.toList_ofList]; rfl, by rw [String.toList_ofList]; rfl,
    ?_, rfl⟩
  dsimp only [TagBlock.openTag]
  simp only [byteLength_append, hw, Nat.add_assoc]

/-- The tags of a comment cover pieces of it, one behind the other and inside of its delimiters. A
piece starts with the mark and the whole name of the tag, it does not end with white space, and the
text of the tag can be read from it again. -/
theorem tag_spans {source : List Char} {span span' : Span} (h : spanOf? source span = some span') :
    (parse source span').tags.Pairwise (fun t t' => t.span.stop ≤ t'.span.start) ∧
    ∀ tag ∈ (parse source span').tags,
      span'.start + 3 ≤ tag.span.start ∧ tag.span.start < tag.span.stop ∧
      tag.span.stop + 2 ≤ span'.stop ∧
      ∃ rest,
        slice? source tag.span.start tag.span.stop = some ('@' :: tag.name.toList ++ rest) ∧
        (∀ c, rest.head? = some c → isTagChar c = false) ∧
        (∀ c, ('@' :: tag.name.toList ++ rest).getLast? = some c → isBlank c = false) ∧
        reread tag.name.toList ('@' :: tag.name.toList ++ rest) = tag.text.toList := by
  obtain ⟨front, behind, hsource, hstart, hstop⟩ := exists_delimiters h
  refine ⟨?_, fun tag htag => ?_⟩
  · obtain ⟨head, blocks, hlines, hhead⟩ :=
      exists_tagBlocks (splitWhere (· == '\n') (inner source span'))
    rw [parse_tagBlocks source span' hlines hhead, List.pairwise_map]
    exact TagBlock.pairwise_openTags _ _
  · obtain ⟨b, u, v, hinner, hfeed, hname, htext, htagStart, htagStop⟩ :=
      exists_body_of_mem_tags htag
    obtain ⟨r, hbody, hboundary⟩ := b.exists_body_eq hfeed
    have hlength := congrArg byteLength hinner
    have hpos : 0 < byteLength b.body := by
      rw [hbody]
      exact Nat.add_pos_left (Char.utf8Size_pos '@') _
    simp only [byteLength_append] at hlength
    refine ⟨by omega, by omega, by omega, r, ?_, hboundary, fun c hc => ?_, ?_⟩
    · rw [hname, ← hbody]
      refine slice?_eq_some_iff.2 ⟨front ++ "/**".toList ++ u, v ++ "*/".toList ++ behind, ?_, ?_, ?_⟩
      · rw [hsource, hinner]
        simp only [List.append_assoc]
      · rw [byteLength_append, byteLength_append, hstart, htagStart]
        rfl
      · rw [byteLength_append, byteLength_append, byteLength_append, hstart, htagStop, htagStart]
        rfl
    · rw [hname, ← hbody] at hc
      exact isBlank_of_getLast?_trimEnd hc
    · rw [hname, htext, ← hbody, b.reread_body hfeed]

theorem tag_spans_cardsComment :
    spanOf? cardsComment ⟨2, 69⟩ = some ⟨0, 71⟩ ∧
    (parse cardsComment ⟨0, 71⟩).tags.Pairwise (fun t t' => t.span.stop ≤ t'.span.start) ∧
    ∀ tag ∈ (parse cardsComment ⟨0, 71⟩).tags,
      3 ≤ tag.span.start ∧ tag.span.start < tag.span.stop ∧ tag.span.stop + 2 ≤ 71 ∧
      ∃ rest,
        slice? cardsComment tag.span.start tag.span.stop =
          some ('@' :: tag.name.toList ++ rest) ∧
        (∀ c, rest.head? = some c → isTagChar c = false) ∧
        (∀ c, ('@' :: tag.name.toList ++ rest).getLast? = some c → isBlank c = false) ∧
        reread tag.name.toList ('@' :: tag.name.toList ++ rest) = tag.text.toList :=
  have h : spanOf? cardsComment ⟨2, 69⟩ = some ⟨0, 71⟩ := by decide +kernel
  ⟨h, tag_spans h⟩

end ComponentScan.DocComment
