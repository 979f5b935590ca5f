import ComponentScan.Proofs.DocComment.Contents
import ComponentScan.Proofs.DocComment.Delimiters
import ComponentScan.Proofs.DocComment.Tags
import ComponentScan.Proofs.Text.Split

/-!
# Tag blocks

The lines of a comment are some that start no tag and then, for each tag, the line that starts it
with the lines up to the next one, its `TagBlock` (`exists_tagBlocks`). The tag that is read from a
block depends on nothing else (`Draft.takeLines_tagBlock`), so the description and the tags of a
comment are read off this partition of its lines (`parse_tagBlocks`).
-/

namespace ComponentScan.DocComment

open Text

/-- Lines with their feeds. -/
def feed (lines : List (List Char)) : List (List Char) :=
  lines.map (· ++ ['\n'])

@[simp] theorem feed_nil : feed [] = [] := rfl

@[simp] theorem feed_cons (l : List Char) (ls : List (List Char)) :
    feed (l :: ls) = (l ++ ['\n']) :: feed ls := rfl

@[simp] theorem feed_append (ls ls' : List (List Char)) : feed (ls ++ ls') = feed ls ++ feed ls' :=
  List.map_append

/-- A line that starts a tag, and the lines behind it up to the next one that does. -/
structure TagBlock where
  line : List Char
  name : List Char
  /-- What follows the name on the first line. -/
  rest : List Char
  more : List (List Char)
  opensTag : OpensTag (content line) name rest
  not_startsTag : ∀ l ∈ more, ¬ StartsTag l

namespace TagBlock

def lines (b : TagBlock) : List (List Char) :=
  b.line :: b.more

/-- What the lines of a block say: their trimmed contents, without the tag and without empty
lines. -/
def pieces (b : TagBlock) : List (List Char) :=
  ((b.rest :: b.more.map content).map trim).filter (!·.isEmpty)

def text (b : TagBlock) : List Char :=
  joinWith ['\n'] b.pieces

/-- A block from its mark to the end of its last line with a content. -/
def body (b : TagBlock) : List Char :=
  trimEnd (joinWith ['\n']
    (content b.line :: b.more.rdropWhile fun l => (trim (content l)).isEmpty))

/-- The tag of a block that stands at byte `o`. -/
def openTag (b : TagBlock) (o : Nat) : OpenTag :=
  let start := o + (stripMargin b.line).1
  ⟨b.name, b.text, ⟨start, start + byteLength b.body⟩⟩

/-- The tags of blocks that stand one behind the other from byte `o` on. -/
def openTags (o : Nat) : List TagBlock → List OpenTag
  | [] => []
  | b :: bs => b.openTag o :: openTags (o + byteLength (feed b.lines).flatten) bs

/-- A block with one more line. -/
def snoc (b : TagBlock) (l : List Char) (h : ¬ StartsTag l) : TagBlock where
  line := b.line
  name := b.name
  rest := b.rest
  more := b.more ++ [l]
  opensTag := b.opensTag
  not_startsTag := List.forall_mem_append.2 ⟨b.not_startsTag, List.forall_mem_singleton.2 h⟩

end TagBlock

/-! ## The partition of lines -/

theorem TagBlock.map_openTags {α : Type} (f : List Char → List Char → α) (o : Nat)
    (blocks : List TagBlock) :
    (openTags o blocks).map (fun t => f t.name t.text) = blocks.map fun b => f b.name b.text := by
  induction blocks generalizing o with
  | nil => rfl
  | cons b bs ih =>
    rw [openTags, List.map_cons, List.map_cons, ih]
    rfl

/-- Lines are partitioned into those in front of the first tag and the blocks of the tags. -/
theorem exists_tagBlocks (lines : List (List Char)) :
    ∃ (head : List (List Char)) (blocks : List TagBlock),
      lines = head ++ blocks.flatMap TagBlock.lines ∧ ∀ l ∈ head, ¬ StartsTag l := by
  induction lines with
  | nil => exact ⟨[], [], rfl, nofun⟩
  | cons l ls ih =>
    obtain ⟨head, blocks, hls, hhead⟩ := ih
    by_cases hl : StartsTag l
    · -- the lines up to the next tag are those of this one
      obtain ⟨name, rest, hopens⟩ := hl
      exact ⟨[], ⟨l, name, rest, head, hopens, hhead⟩ :: blocks, by rw [hls]; rfl, nofun⟩
    · exact ⟨l :: head, blocks, by rw [hls]; rfl, List.forall_mem_cons.2 ⟨hl, hhead⟩⟩

/-! ## Texts of lines -/

theorem addLine_joinWith {ps : List (List Char)} (h : ∀ p ∈ ps, p ≠ []) (p : List Char) :
    addLine (joinWith ['\n'] ps) p = joinWith ['\n'] (ps ++ [p]) := by
  cases ps with
  | nil => rfl
  | cons q qs =>
    have hne : (joinWith ['\n'] (q :: qs)).isEmpty = false := by
      obtain ⟨c, r, rfl⟩ := List.exists_cons_of_ne_nil (h q List.mem_cons_self)
      cases qs <;> rfl
    rw [addLine, hne, joinWith_append (List.cons_ne_nil _ _) (List.cons_ne_nil _ _)]
    simp [joinWith]

/-- An empty line in front adds nothing to a trimmed text. -/
theorem trim_joinWith_nil_cons (ps : List (List Char)) :
    trim (joinWith ['\n'] ([] :: ps)) = trim (joinWith ['\n'] ps) := by
  cases ps with
  | nil => rfl
  | cons p ps => exact trim_append_left isBlank_of_mem_feed _

theorem trim_foldl_addLine (ps : List (List Char)) :
    trim (ps.foldl addLine []) = trim (joinWith ['\n'] ps) := by
  suffices h : ∀ s, trim (ps.foldl addLine s) = trim (joinWith ['\n'] (s :: ps)) by
    rw [h, trim_joinWith_nil_cons]
  induction ps with
  | nil => exact fun _ => rfl
  | cons p ps ih =>
    intro s
    rw [List.foldl_cons, ih]
    cases s with
    | nil => exact (trim_joinWith_nil_cons _).symm
    | cons c r => cases ps <;> simp [addLine, joinWith]

theorem joinWith_append_cons (sep w p : List Char) (ps : List (List Char)) :
    joinWith sep ((w ++ p) :: ps) = w ++ joinWith sep (p :: ps) := by
  cases ps with
  | nil => rfl
  | cons q ps => simp [joinWith]

/-! ## Blocks by their last line -/

namespace TagBlock

/-- The lines of a block, with its margin in front. -/
theorem exists_flatten_feed_lines (b : TagBlock) :
    ∃ w, byteLength w = (stripMargin b.line).1 ∧
      (feed b.lines).flatten = w ++ joinWith ['\n'] (content b.line :: b.more) ++ ['\n'] := by
  obtain ⟨w, hw, hline⟩ := exists_eq_append_content b.line
  refine ⟨w, hw, ?_⟩
  rw [feed, lines, ← joinWith_append_sep (List.cons_ne_nil _ _), hline, joinWith_append_cons,
    ← hline]

/-- A block is its first line, or a block with one more line. -/
theorem snoc_induction {motive : TagBlock → Prop}
    (single : ∀ b : TagBlock, b.more = [] → motive b)
    (snoc : ∀ (b : TagBlock) l (h : ¬ StartsTag l), motive b → motive (b.snoc l h))
    (b : TagBlock) : motive b := by
  obtain ⟨line, name, rest, more, hopens, hmore⟩ := b
  induction more using List.reverseRecOn with
  | nil => exact single _ rfl
  | append_singleton more l ih =>
    obtain ⟨hmore, hl⟩ := List.forall_mem_append.1 hmore
    exact snoc ⟨line, name, rest, more, hopens, hmore⟩ l (hl l List.mem_cons_self) (ih hmore)

variable (b : TagBlock) {l : List Char} (h : ¬ StartsTag l)

theorem lines_snoc : (b.snoc l h).lines = b.lines ++ [l] := rfl

theorem pieces_snoc_of_blank (hl : trim (content l) = []) : (b.snoc l h).pieces = b.pieces := by
  simp only [pieces, snoc, List.map_append, List.map_cons, List.map_nil, List.filter_append, hl,
    ← List.cons_append]
  simp

theorem body_snoc_of_blank (hl : trim (content l) = []) : (b.snoc l h).body = b.body := by
  simp [body, snoc, hl]

theorem openTag_snoc_of_blank (hl : trim (content l) = []) (o : Nat) :
    (b.snoc l h).openTag o = b.openTag o := by
  rw [openTag, openTag, text, text, b.pieces_snoc_of_blank h hl, b.body_snoc_of_blank h hl]
  rfl

theorem pieces_snoc (hl : trim (content l) ≠ []) :
    (b.snoc l h).pieces = b.pieces ++ [trim (content l)] := by
  simp only [pieces, snoc, List.map_append, List.map_cons, List.map_nil, ← List.cons_append,
    List.filter_append]
  simp [hl]

theorem text_snoc (hl : trim (content l) ≠ []) :
    (b.snoc l h).text = addLine b.text (trim (content l)) := by
  have hne : ∀ p ∈ b.pieces, p ≠ [] := fun p hp => by simpa using (List.mem_filter.1 hp).2
  rw [text, text, b.pieces_snoc h hl, addLine_joinWith hne]

theorem body_snoc (hl : trim (content l) ≠ []) :
    (b.snoc l h).body = joinWith ['\n'] (content b.line :: (b.more ++ [trimEnd l])) := by
  have hend : trimEnd l ≠ [] := fun hnil =>
    hl (by rw [← trim_content_trimEnd, hnil]; rfl)
  have hmore : ((b.snoc l h).more.rdropWhile fun l => (trim (content l)).isEmpty) =
      b.more ++ [l] :=
    List.rdropWhile_concat_neg _ _ _ (by simpa using hl)
  rw [body, hmore, ← List.cons_append, ← List.cons_append,
    joinWith_append (List.cons_ne_nil _ _) (List.cons_ne_nil _ _),
    joinWith_append (List.cons_ne_nil _ _) (List.cons_ne_nil _ _),
    trimEnd_append_of_ne_nil (s := joinWith ['\n'] [l]) hend]
  rfl

theorem openTag_snoc (hl : trim (content l) ≠ []) (o : Nat) :
    (b.snoc l h).openTag o = ⟨b.name, addLine b.text (trim (content l)),
      ⟨(b.openTag o).span.start, o + byteLength (feed b.lines).flatten + byteLength (trimEnd l)⟩⟩ := by
  obtain ⟨w, hw, hlines⟩ := b.exists_flatten_feed_lines
  have hstop : o + (stripMargin b.line).1 + byteLength (b.snoc l h).body =
      o + byteLength (feed b.lines).flatten + byteLength (trimEnd l) := by
    rw [b.body_snoc h hl, hlines, ← hw, ← List.cons_append,
      joinWith_append (List.cons_ne_nil _ _) (List.cons_ne_nil _ _)]
    simp only [joinWith, byteLength_append, Nat.add_assoc]
  rw [← hstop, openTag, b.text_snoc h hl]
  rfl

end TagBlock

/-! ## Blocks of a draft -/

namespace Draft

variable {d : Draft}

/-- Lines in front of the first tag go to the description. -/
theorem takeLines_head (hd : d.tags = []) {head : List (List Char)}
    (h : ∀ l ∈ head, ¬ StartsTag l) (o : Nat) :
    d.takeLines o (feed head) = { d with
      description := (head.map (trim ∘ content)).foldl addLine d.description } := by
  induction head generalizing d o with
  | nil => rfl
  | cons l ls ih =>
    obtain ⟨hl, hls⟩ := List.forall_mem_cons.1 h
    rw [feed_cons, takeLines, takeLine_of_not_startsTag hl, hd]
    dsimp only
    rw [ih rfl hls]
    simp only [List.map_cons, List.foldl_cons, Function.comp_apply]

/-- The lines of a block add its tag. -/
theorem takeLines_tagBlock (d : Draft) (o : Nat) (b : TagBlock) :
    d.takeLines o (feed b.lines) = { d with tags := b.openTag o :: d.tags } := by
  induction b using TagBlock.snoc_induction with
  | single b hmore =>
    have htext : b.text = trim b.rest := by
      rw [TagBlock.text, TagBlock.pieces, hmore]
      cases h : trim b.rest <;> simp [h, joinWith]
    have hbody : b.body = trimEnd (content b.line) := by
      rw [TagBlock.body, hmore]
      rfl
    rw [TagBlock.lines, hmore, feed_cons, takeLines, takeLine_of_opensTag b.opensTag,
      TagBlock.openTag, htext, hbody]
    rfl
  | snoc b l hl ih =>
    rw [TagBlock.lines_snoc, feed_append, takeLines_append, ih, feed_cons, feed_nil, takeLines,
      takeLines, takeLine_of_not_startsTag hl]
    dsimp only
    by_cases hblank : trim (content l) = []
    · rw [if_pos hblank, b.openTag_snoc_of_blank hl hblank]
    · rw [if_neg hblank, b.openTag_snoc hl hblank]
      rfl

/-- The lines of blocks add their tags. -/
theorem takeLines_tagBlocks (d : Draft) (o : Nat) (blocks : List TagBlock) :
    d.takeLines o (feed (blocks.flatMap TagBlock.lines)) = { d with
      tags := (TagBlock.openTags o blocks).reverse ++ d.tags } := by
  induction blocks generalizing d o with
  | nil => rfl
  | cons b bs ih =>
    rw [List.flatMap_cons, feed_append, takeLines_append, takeLines_tagBlock, ih]
    simp [TagBlock.openTags]

end Draft

/-! ## The comment -/

theorem splitWhere_of_notMem {l : List Char} (h : '\n' ∉ l) : splitWhere (· == '\n') l = [l] :=
  splitWhere_eq_singleton fun _ hc => beq_eq_false_iff_ne.2 fun heq => h (heq ▸ hc)

/-- Drafts that give the same comment. -/
def Draft.SameComment (d d' : Draft) : Prop :=
  d.tags = d'.tags ∧ trim d.description = trim d'.description

/-- It makes no difference whether the last line has a feed. -/
theorem Draft.sameComment_takeLines (s : List Char) (d : Draft) (o : Nat) :
    (d.takeLines o (segments s)).SameComment (d.takeLines o (feed (splitWhere (· == '\n') s))) := by
  induction s using segments_induction generalizing d o with
  | nil =>
    have hnone : ¬ StartsTag [] := fun ⟨name, rest, h⟩ => nomatch h.content_eq
    change d.SameComment (d.takeLine o ([] ++ ['\n']))
    rw [takeLine_of_not_startsTag hnone]
    cases htags : d.tags with
    | nil =>
      refine ⟨htags, ?_⟩
      change trim d.description = trim (addLine d.description [])
      rw [addLine]
      split
      · next h => rw [List.isEmpty_iff.1 h]
      · rw [trim_append_of_isBlank isBlank_of_mem_feed]
    | cons tag earlier =>
      exact ⟨rfl, rfl⟩
  | last s hs =>
    rw [segments_of_isOpenLine hs, splitWhere_of_notMem hs.2]
    simp only [feed_cons, feed_nil, takeLines, takeLine, dropLineEnd_feed]
    exact ⟨rfl, rfl⟩
  | line l rest hl ih =>
    rw [segments_line_append hl, splitWhere_append rfl, splitWhere_of_notMem hl]
    exact ih _ _

/-- The description of a comment and its tags, by the partition of its lines. -/
theorem parse_tagBlocks (source : List Char) (span : Span) {head : List (List Char)}
    {blocks : List TagBlock}
    (hlines : splitWhere (· == '\n') (inner source span) =
      head ++ blocks.flatMap TagBlock.lines)
    (hhead : ∀ l ∈ head, ¬ StartsTag l) :
    parse source span = {
      span
      description := String.ofList (trim (joinWith ['\n'] (head.map (trim ∘ content))))
      tags := (TagBlock.openTags (span.start + 3 + byteLength (feed head).flatten) blocks).map
        fun t => ⟨String.ofList t.name, String.ofList t.text, t.span⟩ } := by
  obtain ⟨htags, hdescription⟩ :=
    Draft.sameComment_takeLines (inner source span) {} (span.start + 3)
  rw [hlines, feed_append, Draft.takeLines_append, Draft.takeLines_head rfl hhead,
    Draft.takeLines_tagBlocks] at htags hdescription
  unfold parse
  dsimp only at htags hdescription ⊢
  rw [htags, hdescription, trim_foldl_addLine, List.append_nil, List.reverse_reverse]

/-- The lines of a comment are partitioned: those in front of its first tag are its description,
and each tag is the line that starts it with the lines up to the next one. So no line with something
on it is lost, and none is read twice. -/
theorem parse_partition {source : List Char} {span span' : Span}
    (h : spanOf? source span = some span') :
    ∃ (front behind : List Char) (head : List (List Char)) (blocks : List TagBlock),
      source = front ++ "/**".toList ++ inner source span' ++ "*/".toList ++ behind ∧
      byteLength front = span'.start ∧
      splitWhere (· == '\n') (inner source span') = head ++ blocks.flatMap TagBlock.lines ∧
      (∀ l ∈ head, ¬ StartsTag l) ∧
      (parse source span').description.toList =
        trim (joinWith ['\n'] (head.map (trim ∘ content))) ∧
      (parse source span').tags.map (fun t => (t.name.toList, t.text.toList)) =
        blocks.map fun b => (b.name, b.text) := by
  obtain ⟨front, behind, hsource, hstart, -⟩ := exists_delimiters h
  obtain ⟨head, blocks, hlines, hhead⟩ := exists_tagBlocks (splitWhere (· == '\n')
    (inner source span'))
  have hparse := parse_tagBlocks source span' hlines hhead
  refine ⟨front, behind, head, blocks, hsource, hstart, hlines, hhead, ?_, ?_⟩
  · rw [hparse, String.toList_ofList]
  · rw [hparse, List.map_map]
    simp only [Function.comp_def, String.toList_ofList, TagBlock.map_openTags]

/-- A comment that is found by its text, with a carriage return and an indented line. -/
def cardsComment : List Char :=
  ("/**\n * Cards.\r\n *\n * in rows\n * @TODO load\n *\n" ++
    " *    lazily\n * @see x */").toList

theorem parse_partition_cardsComment :
    spanOf? cardsComment ⟨2, 69⟩ = some ⟨0, 71⟩ ∧
    ∃ (front behind : List Char) (head : List (List Char)) (blocks : List TagBlock),
      cardsComment =
        front ++ "/**".toList ++ inner cardsComment ⟨0, 71⟩ ++ "*/".toList ++ behind ∧
      byteLength front = 0 ∧
      splitWhere (· == '\n') (inner cardsComment ⟨0, 71⟩) =
        head ++ blocks.flatMap TagBlock.lines ∧
      (∀ l ∈ head, ¬ StartsTag l) ∧
      (parse cardsComment ⟨0, 71⟩).description.toList =
        trim (joinWith ['\n'] (head.map (trim ∘ content))) ∧
      (parse cardsComment ⟨0, 71⟩).tags.map (fun t => (t.name.toList, t.text.toList)) =
        blocks.map fun b => (b.name, b.text) :=
  have h : spanOf? cardsComment ⟨2, 69⟩ = some ⟨0, 71⟩ := by decide +kernel
  ⟨h, parse_partition h⟩

end ComponentScan.DocComment
