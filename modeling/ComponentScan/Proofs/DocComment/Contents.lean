import ComponentScan.Proofs.DocComment.Lines

/-!
# Contents of lines

The content of a line is what stands behind its margin. A line starts a tag if its content does
(`OpensTag`, `StartsTag`). What a line does to a draft is said by its content alone: the line opens
its tag (`takeLine_of_opensTag`), or its trimmed content is added to what is being read
(`takeLine_of_not_startsTag`). Line ends and white space in front of them make no difference
(`trim_content_append`).
-/

namespace ComponentScan.DocComment

open Text

/-- What stands on a line behind its margin. -/
def content (line : List Char) : List Char :=
  (stripMargin line).2

/-- Whether the content of a line is the mark of a tag, the tag's whole name, and `rest`. -/
structure OpensTag (content name rest : List Char) : Prop where
  content_eq : content = '@' :: name ++ rest
  name_ne_nil : name ≠ []
  isTagChar : ∀ c ∈ name, isTagChar c
  boundary : ∀ c, rest.head? = some c → DocComment.isTagChar c = false

def StartsTag (line : List Char) : Prop :=
  ∃ name rest, OpensTag (content line) name rest

/-! ## Contents -/

theorem exists_eq_append_content (line : List Char) :
    ∃ w, byteLength w = (stripMargin line).1 ∧ line = w ++ content line := by
  obtain ⟨w, hw⟩ := stripMargin_suffix line
  have hlength := congrArg byteLength hw
  rw [byteLength_append, ← byteLength_stripMargin line] at hlength
  exact ⟨w, Nat.add_right_cancel hlength, hw.symm⟩

/-- A line that starts with an asterisk. -/
theorem trim_content_star {line r : List Char} (h : trimStart line = '*' :: r) :
    trim (content line) = trim r := by
  have hkeep (s : List Char) :
      trim (if (trimStart s).head? == some '@' then trimStart s else s) = trim s := by
    split
    · exact trim_trimStart s
    · rfl
  unfold content stripMargin
  rw [h]
  dsimp only
  split
  · next heq =>
    obtain ⟨-, rfl⟩ := List.cons.inj heq
    rw [hkeep]
    have hspace : ∀ c ∈ [' '], isBlank c := List.forall_mem_singleton.2 rfl
    exact (trim_append_left hspace _).symm
  · next heq =>
    obtain ⟨-, rfl⟩ := List.cons.inj heq
    exact hkeep _
  · next hne => exact absurd rfl (hne r)

/-- Any other line. -/
theorem trim_content_of_ne_star {line : List Char} (h : ∀ r, trimStart line ≠ '*' :: r) :
    trim (content line) = trim line := by
  unfold content stripMargin
  dsimp only
  split
  · next s heq => exact absurd heq (h _)
  · next s _ heq => exact absurd heq (h _)
  · split <;> simp only [trim_trimStart]

/-- White space at the end of a line is not part of its trimmed content. -/
theorem trim_content_append {b : List Char} (hb : ∀ c ∈ b, isBlank c) (line : List Char) :
    trim (content (line ++ b)) = trim (content line) := by
  have hnil {s : List Char} (h : trimStart s = []) : trim (content s) = [] := by
    rw [trim_content_of_ne_star (by simp [h]), trim, h]
    rfl
  cases hline : trimStart line with
  | nil =>
    have hall := trimStart_eq_nil_iff.1 hline
    rw [hnil hline, hnil (trimStart_eq_nil_iff.2 (List.forall_mem_append.2 ⟨hall, hb⟩))]
  | cons c r =>
    obtain ⟨a, ha, heq⟩ := exists_eq_append_trimStart line
    have hstart : trimStart (line ++ b) = c :: (r ++ b) := by
      have hc : isBlank c = false := isBlank_of_head?_trimStart (s := line) (by rw [hline]; rfl)
      rw [heq, hline, List.append_assoc, trimStart_append ha, List.cons_append, trimStart_cons hc]
    by_cases hc : c = '*'
    · subst hc
      rw [trim_content_star hline, trim_content_star hstart, trim_append_of_isBlank hb]
    · have hne {s t : List Char} (h : trimStart s = c :: t) : ∀ r, trimStart s ≠ '*' :: r :=
        fun _ h' => hc (List.cons.inj (h.symm.trans h')).1
      rw [trim_content_of_ne_star (hne hline), trim_content_of_ne_star (hne hstart),
        trim_append_of_isBlank hb]

theorem trim_content_trimEnd (line : List Char) :
    trim (content (trimEnd line)) = trim (content line) := by
  obtain ⟨b, hb, hline⟩ := exists_eq_trimEnd_append line
  conv_rhs => rw [hline, trim_content_append hb]

/-- A line with something in its content ends where its content ends. -/
theorem exists_trimEnd_eq {line : List Char} (h : trim (content line) ≠ []) :
    ∃ w, byteLength w = (stripMargin line).1 ∧ line = w ++ content line ∧
      trimEnd line = w ++ trimEnd (content line) := by
  obtain ⟨w, hw, hline⟩ := exists_eq_append_content line
  have hne : trimEnd (content line) ≠ [] := fun hnil =>
    h (trim_eq_nil_iff.2 (trimEnd_eq_nil_iff.1 hnil))
  refine ⟨w, hw, hline, ?_⟩
  conv_lhs => rw [hline, trimEnd_append_of_ne_nil hne]

/-! ## Line ends -/

theorem dropLineEnd_feed (line : List Char) : dropLineEnd (line ++ ['\n']) = dropLineEnd line := by
  simp [dropLineEnd]

theorem trimEnd_dropLineEnd (line : List Char) : trimEnd (dropLineEnd line) = trimEnd line := by
  obtain ⟨e, he, hline, -⟩ := exists_eq_dropLineEnd_append line
  conv_rhs => rw [hline, trimEnd_append_of_isBlank fun c hc => isBlank_of_isLineEnd (he c hc)]

theorem trim_content_dropLineEnd (line : List Char) :
    trim (content (dropLineEnd line)) = trim (content line) := by
  rw [← trim_content_trimEnd, trimEnd_dropLineEnd, trim_content_trimEnd]

/-! ## Tags -/

namespace OpensTag

variable {line name rest : List Char} (h : OpensTag (content line) name rest)
include h

theorem exists_isMargin :
    ∃ w, IsMargin w ∧ line = w ++ '@' :: name ++ rest ∧ (stripMargin line).1 = byteLength w := by
  have hcontent := h.content_eq
  rw [List.cons_append] at hcontent
  obtain ⟨w, hw, hline⟩ := DocComment.exists_isMargin hcontent
  refine ⟨w, hw, by simpa using hline, ?_⟩
  rw [hline, stripMargin_append hw]

/-- The line with its feed is a tag line. -/
theorem exists_isTagLine :
    ∃ margin rest' ending, IsTagLine (line ++ ['\n']) margin name rest' ending ∧
      (stripMargin line).1 = byteLength margin ∧ rest ++ ['\n'] = rest' ++ ending := by
  obtain ⟨w, hw, hline, hbytes⟩ := h.exists_isMargin
  obtain ⟨e, he, hrest, hlast⟩ := exists_eq_dropLineEnd_append rest
  have hending : ∀ c ∈ e ++ ['\n'], IsLineEnd c :=
    List.forall_mem_append.2 ⟨he, by simp [IsLineEnd]⟩
  have heq : rest ++ ['\n'] = dropLineEnd rest ++ (e ++ ['\n']) := by
    rw [← List.append_assoc, ← hrest]
  refine ⟨w, dropLineEnd rest, e ++ ['\n'], ⟨?_, hw, h.name_ne_nil, h.isTagChar, fun c hc => ?_,
    hending, hlast⟩, hbytes, heq⟩
  · rw [hline, List.append_assoc _ rest, heq, List.append_assoc _ (dropLineEnd rest)]
  · refine h.boundary c ?_
    rw [hrest, List.head?_append, hc, Option.some_or]

end OpensTag

theorem opensTag_of_splitTag? {content name rest : List Char}
    (h : splitTag? content = some (name, rest)) : OpensTag content name rest := by
  obtain ⟨heq, hne, hname, hboundary⟩ := eq_of_splitTag? h
  exact ⟨heq, hne, hname, hboundary⟩

/-- A line without its line end opens no tag that the line does not open. -/
theorem splitTag?_dropLineEnd {line : List Char} (h : ¬ StartsTag line) :
    splitTag? (content (dropLineEnd line)) = none := by
  rw [Option.eq_none_iff_forall_ne_some]
  rintro ⟨name, rest⟩ hsplit
  have hopens := opensTag_of_splitTag? hsplit
  obtain ⟨w, hw, hdrop, -⟩ := hopens.exists_isMargin
  obtain ⟨e, he, hline, -⟩ := exists_eq_dropLineEnd_append line
  refine h ⟨name, rest ++ e, ?_, hopens.name_ne_nil, hopens.isTagChar, fun c hc => ?_⟩
  · rw [hline, hdrop, content, List.append_assoc, List.append_assoc, List.cons_append,
      stripMargin_append hw]
  · rw [List.head?_append] at hc
    cases hrest : rest.head? with
    | some d =>
      rw [hrest] at hc
      cases hc
      exact hopens.boundary _ hrest
    | none =>
      rw [hrest, Option.none_or] at hc
      exact Bool.eq_false_iff.2 fun htag =>
        not_isLineEnd_of_isTagChar htag (he c (List.mem_of_mem_head? hc))

/-! ## Lines of a draft -/

namespace Draft

variable {line name rest : List Char}

/-- A line that starts a tag opens it. -/
theorem takeLine_of_opensTag (h : OpensTag (content line) name rest) (d : Draft) (o : Nat) :
    d.takeLine o (line ++ ['\n']) = { d with
      tags := ⟨name, trim rest, ⟨o + (stripMargin line).1,
        o + (stripMargin line).1 + byteLength (trimEnd (content line))⟩⟩ :: d.tags } := by
  obtain ⟨margin, rest', ending, hline, hbytes, heq⟩ := h.exists_isTagLine
  have hblank : ∀ c ∈ ending, isBlank c := fun c hc => isBlank_of_isLineEnd (hline.isLineEnd c hc)
  have hrest : trim rest' = trim rest := by
    rw [← trim_append_of_isBlank hblank, ← heq, trim_append_of_isBlank isBlank_of_mem_feed]
  have hstop : trimEnd ('@' :: name ++ rest') = trimEnd (content line) := by
    rw [h.content_eq, ← trimEnd_append_of_isBlank hblank, List.append_assoc, ← heq,
      ← List.append_assoc, trimEnd_append_of_isBlank isBlank_of_mem_feed]
  rw [hline.takeLine, hrest, hstop, hbytes]

/-- Any other line is added to the last tag, unless there is nothing on it, or to the
description. -/
theorem takeLine_of_not_startsTag (h : ¬ StartsTag line) (d : Draft) (o : Nat) :
    d.takeLine o (line ++ ['\n']) =
      match d.tags with
      | tag :: earlier =>
        if trim (content line) = [] then d
        else { d with
          tags := { tag with
            text := addLine tag.text (trim (content line))
            span := ⟨tag.span.start, o + byteLength (trimEnd line)⟩ } :: earlier }
      | [] => { d with description := addLine d.description (trim (content line)) } := by
  have hsplit := splitTag?_dropLineEnd h
  have htrim := trim_content_dropLineEnd line
  unfold content at hsplit htrim
  unfold Draft.takeLine
  rw [dropLineEnd_feed]
  simp only [hsplit, htrim, List.isEmpty_iff]
  cases d.tags with
  | nil => rfl
  | cons tag earlier =>
    dsimp only
    by_cases hblank : trim (stripMargin line).2 = []
    · rw [if_pos hblank, content, if_pos hblank]
    · have hcut : trim (content (dropLineEnd line)) ≠ [] := by
        rwa [trim_content_dropLineEnd]
      obtain ⟨w, hw, -, hend⟩ := exists_trimEnd_eq hcut
      rw [if_neg hblank, content, if_neg hblank, ← trimEnd_dropLineEnd line, hend,
        byteLength_append, hw, Nat.add_assoc, content]

end Draft

end ComponentScan.DocComment
