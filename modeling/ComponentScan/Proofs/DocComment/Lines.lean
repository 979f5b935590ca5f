import ComponentScan.DocComment
import ComponentScan.Proofs.Text.Blank
import ComponentScan.Proofs.Text.Segments
import Mathlib.Data.List.DropRight

/-!
# Tag lines

A line opens a tag if it is a margin, the tag, a text and a line end (`IsTagLine`). Such a line is
read as that tag (`IsTagLine.takeLine`), and no other line opens one (`takeLine_cases`).
-/

namespace ComponentScan.DocComment

open Text

/-! ## Margins -/

/-- What may stand on a line in front of a tag: white space, with an asterisk in it or without. -/
def IsMargin (w : List Char) : Prop :=
  ∃ a b, (∀ c ∈ a, isBlank c) ∧ (∀ c ∈ b, isBlank c) ∧ (w = a ∨ w = a ++ '*' :: b)

theorem IsMargin.notMem {w : List Char} (h : IsMargin w) : '@' ∉ w := by
  obtain ⟨a, b, ha, hb, h⟩ := h
  have hblank {s : List Char} (hs : ∀ c ∈ s, isBlank c) : '@' ∉ s :=
    fun hm => absurd (hs _ hm) (by decide)
  rcases h with rfl | rfl
  · exact hblank ha
  · simp [hblank ha, hblank hb]

/-- The margin in front of a tag is dropped. -/
theorem stripMargin_append {w : List Char} (h : IsMargin w) (r : List Char) :
    stripMargin (w ++ '@' :: r) = (byteLength w, '@' :: r) := by
  obtain ⟨a, b, ha, hb, h⟩ := h
  have hmark : trimStart ('@' :: r) = '@' :: r := trimStart_cons (by decide) r
  rcases h with rfl | rfl
  · simp [stripMargin, trimStart_append ha, hmark]
  · have hstar (s : List Char) : trimStart ('*' :: s) = '*' :: s := trimStart_cons (by decide) s
    have htrim : trimStart (a ++ '*' :: b ++ '@' :: r) = '*' :: (b ++ '@' :: r) := by
      rw [List.append_assoc, trimStart_append ha, List.cons_append, hstar]
    have hrest : trimStart (b ++ '@' :: r) = '@' :: r := by rw [trimStart_append hb, hmark]
    have hspace {s : List Char} (hs : b ++ '@' :: r = ' ' :: s) : trimStart s = '@' :: r := by
      rw [hs] at hrest
      exact hrest
    simp only [stripMargin, htrim]
    split
    · next s heq =>
      obtain ⟨-, heq⟩ := List.cons.inj heq
      simp only [hspace heq, List.head?_cons, beq_self_eq_true, if_true, Prod.mk.injEq, and_true,
        byteLength_append]
      omega
    · next s _ heq =>
      obtain ⟨-, rfl⟩ := List.cons.inj heq
      simp only [hrest, List.head?_cons, beq_self_eq_true, if_true, Prod.mk.injEq, and_true,
        byteLength_append]
      omega
    · next hne => exact absurd rfl (hne _)

/-- What is left of a line starts with a mark only behind a margin. -/
theorem exists_isMargin {line r : List Char} (h : (stripMargin line).2 = '@' :: r) :
    ∃ w, IsMargin w ∧ line = w ++ '@' :: r := by
  have hmark {s : List Char} (hs : (if (trimStart s).head? == some '@' then trimStart s else s) =
      '@' :: r) : trimStart s = '@' :: r := by
    split at hs
    · exact hs
    · subst hs
      exact trimStart_cons (by decide) r
  obtain ⟨a, ha, hline⟩ := exists_eq_append_trimStart line
  unfold stripMargin at h
  generalize htrim : trimStart line = trimmed at h hline
  have key : ∃ b, (∀ c ∈ b, isBlank c) ∧ (trimmed = '@' :: r ∨ trimmed = '*' :: b ++ '@' :: r) := by
    dsimp only at h
    split at h
    · next s =>
      obtain ⟨b, hb, hs⟩ := exists_eq_append_trimStart s
      rw [hmark h] at hs
      refine ⟨' ' :: b, List.forall_mem_cons.2 ⟨by decide, hb⟩, .inr ?_⟩
      rw [hs]
      rfl
    · next s _ =>
      obtain ⟨b, hb, hs⟩ := exists_eq_append_trimStart s
      rw [hmark h] at hs
      refine ⟨b, hb, .inr ?_⟩
      rw [hs]
      rfl
    · have hself : trimStart trimmed = trimmed := by
        rw [← htrim]
        exact List.dropWhile_idempotent _ _
      rw [hself] at h
      exact ⟨[], by simp, .inl (by simpa using h)⟩
  obtain ⟨b, hb, rfl | rfl⟩ := key
  · exact ⟨a, ⟨a, [], ha, by simp, .inl rfl⟩, hline⟩
  · exact ⟨a ++ '*' :: b, ⟨a, b, ha, hb, .inr rfl⟩, by simpa using hline⟩

theorem stripMargin_suffix (line : List Char) : (stripMargin line).2 <:+ line := by
  have hsuffix {s : List Char} : trimStart s <:+ s := List.dropWhile_suffix _
  unfold stripMargin
  dsimp only
  split
  · next s hs =>
    have : s <:+ line := (List.suffix_cons _ _).trans
      ((List.suffix_cons _ _).trans (hs ▸ hsuffix))
    split
    · exact hsuffix.trans this
    · exact this
  · next s _ hs =>
    have : s <:+ line := (List.suffix_cons _ _).trans (hs ▸ hsuffix)
    split
    · exact hsuffix.trans this
    · exact this
  · split
    · exact hsuffix.trans hsuffix
    · exact hsuffix

/-- Dropping the margin leaves the rest of the line, behind the bytes that are counted. -/
theorem byteLength_stripMargin (line : List Char) :
    (stripMargin line).1 + byteLength (stripMargin line).2 = byteLength line := by
  have hfirst : (stripMargin line).1 = byteLength line - byteLength (stripMargin line).2 := rfl
  obtain ⟨p, hp⟩ := stripMargin_suffix line
  have hlength := congrArg byteLength hp
  rw [byteLength_append] at hlength
  omega

/-! ## Line ends -/

/-- A character of a line end. -/
def IsLineEnd (c : Char) : Prop :=
  c = '\n' ∨ c = '\r'

theorem isBlank_of_isLineEnd {c : Char} (h : IsLineEnd c) : isBlank c := by
  rcases h with rfl | rfl <;> decide

theorem isBlank_of_mem_feed : ∀ c ∈ ['\n'], isBlank c :=
  List.forall_mem_singleton.2 rfl

theorem dropLineEnd_append {s e : List Char} (he : ∀ c ∈ e, IsLineEnd c)
    (hs : ∀ c, s.getLast? = some c → ¬ IsLineEnd c) : dropLineEnd (s ++ e) = s := by
  have hdrop : ∀ c ∈ e.reverse, (c == '\n' || c == '\r') = true := fun c hc => by
    simpa [IsLineEnd] using he c (List.mem_reverse.1 hc)
  have hkeep : s.reverse.dropWhile (fun c => c == '\n' || c == '\r') = s.reverse := by
    rcases s.eq_nil_or_concat with rfl | ⟨t, c, rfl⟩
    · rfl
    · have hc := hs c (by simp)
      simp only [IsLineEnd, not_or] at hc
      simp [hc.1, hc.2]
  rw [dropLineEnd, List.reverse_append, List.dropWhile_append_of_pos hdrop, hkeep,
    List.reverse_reverse]

theorem exists_eq_dropLineEnd_append (seg : List Char) :
    ∃ e, (∀ c ∈ e, IsLineEnd c) ∧ seg = dropLineEnd seg ++ e ∧
      ∀ c, (dropLineEnd seg).getLast? = some c → ¬ IsLineEnd c := by
  refine ⟨(seg.reverse.takeWhile fun c => c == '\n' || c == '\r').reverse, fun c hc => ?_, ?_,
    fun c hc => ?_⟩
  · simpa [IsLineEnd] using List.mem_takeWhile_imp (List.mem_reverse.1 hc)
  · rw [dropLineEnd, ← List.reverse_append, List.takeWhile_append_dropWhile, List.reverse_reverse]
  · rw [dropLineEnd, List.getLast?_reverse] at hc
    have := List.head?_dropWhile_not (fun c => c == '\n' || c == '\r') seg.reverse
    rw [hc] at this
    simpa [IsLineEnd] using this

theorem byteLength_dropLineEnd_le (seg : List Char) :
    byteLength (dropLineEnd seg) ≤ byteLength seg := by
  obtain ⟨e, -, hseg, -⟩ := exists_eq_dropLineEnd_append seg
  have hlength := congrArg byteLength hseg
  rw [byteLength_append] at hlength
  omega

theorem byteLength_trimEnd_le (s : List Char) : byteLength (trimEnd s) ≤ byteLength s := by
  obtain ⟨b, -, hs⟩ := exists_eq_trimEnd_append s
  have hlength := congrArg byteLength hs
  rw [byteLength_append] at hlength
  omega

/-! ## Tag lines -/

/-- Whether `seg` is a line that opens the tag `name`: its margin is `margin`, `rest` follows the
name, and `ending` is its line end. -/
structure IsTagLine (seg margin name rest ending : List Char) : Prop where
  seg_eq : seg = margin ++ '@' :: name ++ rest ++ ending
  isMargin : IsMargin margin
  name_ne_nil : name ≠ []
  isTagChar : ∀ c ∈ name, isTagChar c
  boundary : ∀ c, rest.head? = some c → DocComment.isTagChar c = false
  isLineEnd : ∀ c ∈ ending, IsLineEnd c
  last : ∀ c, rest.getLast? = some c → ¬ IsLineEnd c

theorem not_isBlank_of_isTagChar {c : Char} (h : isTagChar c) : isBlank c = false := by
  simp only [isTagChar, Bool.or_eq_true, beq_iff_eq] at h
  apply not_isBlank_of_ascii
  rcases h with ((h | h) | h) | h <;> simp [h]

theorem not_isLineEnd_of_isTagChar {c : Char} (h : isTagChar c) : ¬ IsLineEnd c := by
  rintro (rfl | rfl) <;> exact absurd h (by decide)

theorem splitTag?_append {name rest : List Char} (hne : name ≠ [])
    (hname : ∀ c ∈ name, isTagChar c) (hrest : ∀ c, rest.head? = some c → isTagChar c = false) :
    splitTag? ('@' :: name ++ rest) = some (name, rest) := by
  rw [splitTag?, List.cons_append, dropStart?_cons, Option.bind_eq_bind, Option.bind_some,
    span_append hname hrest]
  exact if_neg (by simpa using hne)

theorem eq_of_splitTag? {content name rest : List Char}
    (h : splitTag? content = some (name, rest)) :
    content = '@' :: name ++ rest ∧ name ≠ [] ∧ (∀ c ∈ name, isTagChar c) ∧
      ∀ c, rest.head? = some c → isTagChar c = false := by
  unfold splitTag? at h
  obtain ⟨body, hbody, htag⟩ := Option.bind_eq_some_iff.1 h
  obtain rfl := dropStart?_eq_some_iff.1 hbody
  cases hspan : body.span isTagChar with
  | mk name' rest' =>
    rw [hspan] at htag
    obtain ⟨hne, heq⟩ := Option.ite_none_left_eq_some.1 htag
    cases heq
    obtain ⟨rfl, hname, hrest⟩ := span_eq_iff.1 hspan
    exact ⟨rfl, by simpa using hne, hname, hrest⟩

namespace IsTagLine

variable {seg margin name rest ending : List Char} (h : IsTagLine seg margin name rest ending)
include h

theorem dropLineEnd_eq : dropLineEnd seg = margin ++ '@' :: name ++ rest := by
  rw [h.seg_eq]
  refine dropLineEnd_append h.isLineEnd fun c hc => ?_
  rw [List.getLast?_append] at hc
  cases hrest : rest.getLast? with
  | some d =>
    rw [hrest] at hc
    cases hc
    exact h.last _ hrest
  | none =>
    rw [hrest, Option.none_or, List.getLast?_append, List.getLast?_cons,
      List.getLast?_eq_some_getLast h.name_ne_nil] at hc
    cases hc
    exact not_isLineEnd_of_isTagChar (h.isTagChar _ (List.getLast_mem h.name_ne_nil))

/-- A tag line opens its tag, with the text behind the name. -/
theorem takeLine (d : Draft) (o : Nat) :
    d.takeLine o seg = { d with
      tags := ⟨name, trim rest, ⟨o + byteLength margin,
        o + byteLength margin + byteLength (trimEnd ('@' :: name ++ rest))⟩⟩ :: d.tags } := by
  have hstrip := stripMargin_append h.isMargin (name ++ rest)
  have hsplit := splitTag?_append h.name_ne_nil h.isTagChar h.boundary
  rw [List.cons_append] at hsplit
  simp only [Draft.takeLine, h.dropLineEnd_eq, List.append_assoc, List.cons_append, hstrip, hsplit]

/-- What follows the name may be exchanged. -/
theorem exchange {rest' : List Char}
    (hboundary : ∀ c, rest'.head? = some c → DocComment.isTagChar c = false)
    (hlast : ∀ c, rest'.getLast? = some c → ¬ IsLineEnd c) :
    IsTagLine (margin ++ '@' :: name ++ rest' ++ ending) margin name rest' ending :=
  ⟨rfl, h.isMargin, h.name_ne_nil, h.isTagChar, hboundary, h.isLineEnd, hlast⟩

end IsTagLine

/-- The lines that open tags. -/
theorem exists_isTagLine {seg name rest : List Char}
    (h : splitTag? (stripMargin (dropLineEnd seg)).2 = some (name, rest)) :
    ∃ margin ending, IsTagLine seg margin name rest ending := by
  obtain ⟨hcontent, hne, hname, hboundary⟩ := eq_of_splitTag? h
  rw [List.cons_append] at hcontent
  obtain ⟨margin, hmargin, hline⟩ := exists_isMargin hcontent
  obtain ⟨ending, hending, hseg, hlast⟩ := exists_eq_dropLineEnd_append seg
  refine ⟨margin, ending, by rw [hseg, hline]; simp, hmargin, hne, hname, hboundary, hending,
    fun c hc => hlast c ?_⟩
  rw [hline, ← List.cons_append, ← List.append_assoc, List.getLast?_append, hc, Option.some_or]

/-- What a line does to a draft: it opens a tag, or goes on with the last one, or with the
description. -/
theorem takeLine_cases (d : Draft) (o : Nat) (seg : List Char) :
    (∃ margin name rest ending, IsTagLine seg margin name rest ending) ∨
      d.takeLine o seg = d ∨
      (∃ tag earlier line stop, d.tags = tag :: earlier ∧ o ≤ stop ∧ stop ≤ o + byteLength seg ∧
        d.takeLine o seg = { d with
          tags := { tag with text := addLine tag.text line, span := ⟨tag.span.start, stop⟩ } ::
            earlier }) ∨
      ∃ line, d.tags = [] ∧
        d.takeLine o seg = { d with description := addLine d.description line } := by
  cases hsplit : splitTag? (stripMargin (dropLineEnd seg)).2 with
  | some found =>
    obtain ⟨margin, ending, h⟩ := exists_isTagLine hsplit
    exact .inl ⟨margin, found.1, found.2, ending, h⟩
  | none =>
    refine .inr ?_
    have hbytes := byteLength_stripMargin (dropLineEnd seg)
    have hdrop := byteLength_dropLineEnd_le seg
    have htrim := byteLength_trimEnd_le (stripMargin (dropLineEnd seg)).2
    unfold Draft.takeLine
    simp only [hsplit]
    cases htags : d.tags with
    | nil => exact .inr (.inr ⟨_, rfl, rfl⟩)
    | cons tag earlier =>
      dsimp only
      split
      · exact .inl rfl
      · exact .inr (.inl ⟨tag, earlier, _, _, rfl, by omega, by omega, rfl⟩)

end ComponentScan.DocComment
