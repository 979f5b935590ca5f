import ComponentScan.Proofs.Patch.Idempotence
import ComponentScan.Proofs.Scan.TagSite

/-!
# Patching at the place of a tag

A back-patch of the line of a tag finds the tag at its place, since only a margin stands in front of
it on its line (`findTag?_margin`). So it puts the permalink there in place of the argument, and all
else stays (`PlacedTag.StandsAt.patchText?_eq`).
-/

namespace ComponentScan

open Text DocComment

namespace Patch

/-! ## Arguments -/

/-- An argument does not reach over the end of its line, nor over the end of its comment if it does
not stand directly in front of that. -/
theorem afterArgument_append {l z : List Char}
    (hz : ∀ c, z.head? = some c → IsLineEnd c ∨ c = '*')
    (hl : afterArgument l = [] → l = [] ∨ ∀ c, z.head? = some c → IsLineEnd c) :
    afterArgument (l ++ z) = afterArgument l ++ z := by
  let p (c : Char) : Bool := c == ' ' || c == '\t'
  have hzgap (c : Char) (hc : z.head? = some c) : p c = false := by
    rcases hz c hc with (rfl | rfl) | rfl <;> decide
  have hzend (c : Char) (hc : z.head? = some c) : (isBlank c || c == '*') = true := by
    rcases hz c hc with (rfl | rfl) | rfl <;> decide
  have hgap : ∀ c ∈ l.takeWhile p, p c := fun c hc => List.mem_takeWhile_imp hc
  have hrest (c : Char) (hc : (l.dropWhile p).head? = some c) : p c = false := by
    have hnot := List.head?_dropWhile_not p l
    rw [hc] at hnot
    simpa using hnot
  have hparts := List.takeWhile_append_dropWhile (p := p) (l := l)
  generalize l.takeWhile p = gap at hparts hgap
  generalize l.dropWhile p = rest at hparts hrest
  subst hparts
  cases rest with
  | nil =>
    have hspan : (gap ++ z).span p = (gap, z) := span_append hgap hzgap
    have hspan' : gap.span p = (gap, []) := by simpa using span_append hgap (s := []) nofun
    unfold afterArgument
    rw [List.append_nil, hspan, hspan']
    cases gap with
    | nil => rfl
    | cons g gs =>
      cases z with
      | nil => simp
      | cons c r => exact if_pos (hzend c rfl)
  | cons c r =>
    have hspan (r : List Char) : (gap ++ c :: r).span p = (gap, c :: r) :=
      span_append hgap fun d hd => hrest d (hd ▸ rfl)
    unfold afterArgument at hl ⊢
    rw [List.append_assoc, List.cons_append]
    rw [hspan] at hl
    rw [hspan, hspan]
    cases gap with
    | nil => rfl
    | cons g gs =>
      dsimp only at hl ⊢
      split at hl
      · next hc => simp [hc]
      · next hc =>
        rw [if_neg hc, if_neg hc, List.dropWhile_append]
        split
        · next hall =>
          rw [List.isEmpty_iff] at hall
          have hend := (hl hall).resolve_left (List.cons_ne_nil _ _)
          rw [hall, List.nil_append]
          cases z with
          | nil => rfl
          | cons d z =>
            exact List.dropWhile_cons_of_neg (by simp [isBlank_of_isLineEnd (hend d rfl)])
        · rfl

theorem afterArgument_append_of_isLineEnd {z : List Char}
    (hz : ∀ c, z.head? = some c → IsLineEnd c) (l : List Char) :
    afterArgument (l ++ z) = afterArgument l ++ z :=
  afterArgument_append (fun c hc => .inl (hz c hc)) fun _ => .inr hz

/-! ## The line of a tag -/

/-- Behind a margin the first tag is the first one that may be there. -/
theorem findTag?_margin {tag margin l : List Char} (hmargin : '@' ∉ margin)
    (hboundary : isWordBoundary ('@' :: tag).getLast? l.head?) :
    findTag? tag (margin ++ '@' :: tag ++ l) = some (margin, afterArgument l) := by
  refine findTag?_eq_some_iff.2 ⟨'@' :: tag ++ l, List.append_assoc _ _ _,
    afterTag?_eq_some_iff.2 ⟨l, rfl, hboundary, rfl⟩, fun p q hpq hq => ?_⟩
  obtain ⟨c, q, rfl⟩ := List.exists_cons_of_ne_nil hq
  have hc : c ≠ '@' := fun he => hmargin (by simp [hpq, he])
  rw [Option.eq_none_iff_forall_ne_some]
  intro after hafter
  obtain ⟨rest, hrest, -, -⟩ := afterTag?_eq_some_iff.1 hafter
  exact hc (List.cons.inj hrest).1

/-- What stands behind a place up to the end of its line, the line end, and what follows. -/
theorem exists_line {x : List Char} (hne : x ≠ []) (hx : '\n' ∉ x)
    (hlast : ∀ c, x.getLast? = some c → ¬ IsLineEnd c) (r : List Char) :
    ∃ l e z, r = l ++ (e ++ z) ∧ '\n' ∉ l ∧ (∀ c, (e ++ z).head? = some c → IsLineEnd c) ∧
      EndsLine (x ++ l) e ∧ segments (x ++ r) = (x ++ l ++ e) :: segments z := by
  have hend {l : List Char} {c : Char} (hc : IsLineEnd c) (hl : l.getLast? ≠ some c) :
      (x ++ l).getLast? ≠ some c := by
    rw [List.getLast?_append]
    cases hlast' : l.getLast? with
    | some d =>
      rw [hlast'] at hl
      simpa using hl
    | none =>
      rw [Option.none_or]
      exact fun heq => hlast c heq hc
  by_cases hfeed : '\n' ∈ r
  · obtain ⟨l, z, rfl, hl⟩ := List.eq_append_cons_of_mem hfeed
    have hsegments := segments_line_append (l := x ++ l) (by simp [hx, hl]) z
    rw [List.append_assoc] at hsegments
    rw [hsegments]
    by_cases hreturn : l.getLast? = some '\r'
    · obtain ⟨l, rfl⟩ := List.getLast?_eq_some_iff.1 hreturn
      refine ⟨l, ['\r', '\n'], z, by simp, fun hm => hl (List.mem_append_left _ hm), ?_, .inl rfl,
        by simp⟩
      rintro _ ⟨⟩
      exact .inr rfl
    · refine ⟨l, ['\n'], z, rfl, hl, ?_, .inr (.inl ⟨rfl, hend (.inr rfl) hreturn⟩), by simp⟩
      rintro _ ⟨⟩
      exact .inl rfl
  · have hsegments := segments_of_isOpenLine (s := x ++ r) ⟨by simp [hne], by simp [hx, hfeed]⟩
    rw [hsegments]
    by_cases hreturn : r.getLast? = some '\r'
    · obtain ⟨l, rfl⟩ := List.getLast?_eq_some_iff.1 hreturn
      refine ⟨l, ['\r'], [], by simp, fun hm => hfeed (List.mem_append_left _ hm), ?_,
        .inr (.inr (.inl rfl)), by simp [segments]⟩
      rintro _ ⟨⟩
      exact .inr rfl
    · have hfeed' : r.getLast? ≠ some '\n' := fun heq => hfeed (List.mem_of_getLast? heq)
      exact ⟨r, [], [], by simp, hfeed, by simp,
        .inr (.inr (.inr ⟨rfl, hend (.inl rfl) hfeed', hend (.inr rfl) hreturn⟩)),
        by simp [segments]⟩

/-- A back-patch of a line on which a margin stands in front of the tag. -/
theorem patchText?_margin {tag arg above margin r : List Char}
    (habove : above.getLast?.all (· == '\n')) (hmargin : '@' ∉ margin)
    (hline : '\n' ∉ margin ++ '@' :: tag)
    (hlast : ∀ c, ('@' :: tag).getLast? = some c → ¬ IsLineEnd c)
    (hboundary : isWordBoundary ('@' :: tag).getLast? r.head?) :
    ∃ outcome, outcome ≠ .tagNotFound ∧
      (outcome = .unchanged → above ++ (margin ++ '@' :: tag ++ r) =
        above ++ (margin ++ '@' :: tag ++ (' ' :: arg ++ afterArgument r))) ∧
      patchText? tag arg ((segments above).length + 1) (above ++ (margin ++ '@' :: tag ++ r)) =
        some (outcome, above ++ (margin ++ '@' :: tag ++ (' ' :: arg ++ afterArgument r))) := by
  obtain ⟨l, e, z, rfl, hl, hz, hends, hsegments⟩ :=
    exists_line (x := margin ++ '@' :: tag) (by simp) hline
      (fun c hc => hlast c (by rwa [List.getLast?_append, List.getLast?_cons, Option.some_or,
        ← List.getLast?_cons] at hc)) r
  have hlines := segments_append habove (margin ++ '@' :: tag ++ (l ++ (e ++ z)))
  rw [hsegments] at hlines
  have hget : (segments (above ++ (margin ++ '@' :: tag ++ (l ++ (e ++ z)))))[
      (segments above).length + 1 - 1]? = some (margin ++ '@' :: tag ++ l ++ e) := by
    rw [hlines]
    simp
  have hboundary' : isWordBoundary ('@' :: tag).getLast? l.head? := by
    cases l with
    | cons c l => exact hboundary
    | nil =>
      rw [List.nil_append] at hboundary
      cases hhead : (e ++ z).head? with
      | none => rwa [hhead] at hboundary
      | some c =>
        rw [hhead] at hboundary
        rcases hz c hhead with rfl | rfl <;> exact hboundary
  have htag : findTag? tag (splitEnding (margin ++ '@' :: tag ++ l ++ e)).1 =
      some (margin, afterArgument l) := by
    rw [splitEnding_append hends]
    exact findTag?_margin hmargin hboundary'
  rw [afterArgument_append_of_isLineEnd hz, patchText?_of_findTag? hget htag,
    splitEnding_append hends]
  split
  · next heq =>
    have htext := congrArg (fun line => above ++ (line ++ (e ++ z))) heq
    simp only [withArgument, List.append_assoc, List.cons_append] at htext ⊢
    exact ⟨.unchanged, by simp, fun _ => htext.symm, by rw [htext]⟩
  · refine ⟨.patched, by simp, by simp, ?_⟩
    unfold replaceLine
    rw [hlines]
    simp [withArgument]

end Patch

/-! ## The place of a tag -/

open Patch

namespace PlacedTag.StandsAt

variable {text : List Char} {p : Syntax.Program} {x : PlacedTag} {site : TagSite} {e : Nat × Span}
  {front behind : List (List Char)} {margin rest ending : List Char}
  (h : x.StandsAt text p site e front margin rest ending behind)
include h

/-- A line end follows what stands behind the tag on its line, if anything does. -/
theorem isLineEnd_head? (c : Char) (hc : (ending ++ behind.flatten).head? = some c) :
    IsLineEnd c := by
  have hline := h.commentSite.isTagSite.isTagLine
  have hlines := h.commentSite.isTagSite.lines
  cases hending : ending with
  | cons d ending =>
    rw [hending] at hc
    cases hc
    exact hline.isLineEnd c (hending ▸ List.mem_cons_self)
  | nil =>
    cases hbehind : behind with
    | nil =>
      rw [hending, hbehind] at hc
      cases hc
    | cons line behind =>
      rw [hbehind] at hlines
      have hfed : IsFedLine (margin ++ '@' :: x.tag.name.toList ++ rest ++ ending) :=
        isFedLine_of_lt (i := front.length) (by rw [hlines]; simp) (by rw [hlines]; simp)
      obtain ⟨e, he, -⟩ := hline.exists_of_isFedLine hfed
      simp [hending] at he

/-- What stands in front of a tag that does not stand on the first line of its comment. -/
theorem exists_above (hfront : front ≠ []) :
    ∃ above, site.upTo = above ++ (margin ++ '@' :: x.tag.name.toList) ∧
      above.getLast?.all (· == '\n') ∧ x.tag.span.start = byteLength above + byteLength margin ∧
      '\n' ∉ margin ++ '@' :: x.tag.name.toList := by
  have hline := h.commentSite.isTagSite.isTagLine
  have hlines := h.commentSite.isTagSite.lines
  obtain ⟨a, b, hupTo, ha, hbytes⟩ := slice?_eq_some_iff.1 h.commentSite.isTagSite.before_eq
  have hlength := congrArg byteLength hupTo
  rw [byteLength_append] at hlength
  obtain rfl : b = [] := eq_nil_of_byteLength_eq_zero (by omega)
  refine ⟨a ++ front.flatten, by simpa using hupTo, ?_, ?_, ?_⟩
  · obtain ⟨front, line, rfl⟩ := (List.eq_nil_or_concat front).resolve_left hfront
    rw [List.concat_eq_append] at hlines ⊢
    have hfed : IsFedLine line :=
      isFedLine_of_lt (i := front.length) (by rw [hlines]; simp) (by rw [hlines]; simp)
    obtain ⟨l, -, rfl⟩ := hfed
    simp
  · rw [h.start_eq, byteLength_append]
    omega
  · have hmem : margin ++ '@' :: x.tag.name.toList ++ rest ++ ending ∈ segments (front.flatten ++
        (margin ++ '@' :: x.tag.name.toList ++ rest ++ ending) ++ behind.flatten) := by
      rw [hlines]
      simp
    intro hfeed
    rcases isFedLine_or_isOpenLine hmem with hfed | hopen
    · obtain ⟨_, _, hnot⟩ := hline.exists_of_isFedLine hfed
      exact hnot (List.mem_append_left _ (List.mem_append_left _ hfeed))
    · exact hopen.2 (List.mem_append_left _ (List.mem_append_left _ hfeed))

/-- A back-patch of the line of a tag puts the permalink at the place of the tag. -/
theorem patchText?_eq (hfront : front ≠ [])
    (hboundary : isWordBoundary ('@' :: x.tag.name.toList).getLast? site.content.head?)
    (link : List Char) :
    ∃ outcome, outcome ≠ .tagNotFound ∧ (outcome = .unchanged → text = site.patched link) ∧
      patchText? x.tag.name.toList link ((LineIndex.ofText text).lineOf x.tag.span.start) text =
        some (outcome, site.patched link) := by
  have hline := h.commentSite.isTagSite.isTagLine
  obtain ⟨above, hupTo, habove, hstart, hfeed⟩ := h.exists_above hfront
  obtain ⟨after, hbelow⟩ := h.closes
  have hboundary : isWordBoundary ('@' :: x.tag.name.toList).getLast?
      (site.content ++ site.below).head? := by
    cases hcontent : site.content with
    | cons c content =>
      rw [hcontent] at hboundary
      exact hboundary
    | nil =>
      rw [hcontent] at hboundary
      rw [List.nil_append, ← hbelow]
      exact hboundary
  have hlast (c : Char) (hc : ('@' :: x.tag.name.toList).getLast? = some c) : ¬ IsLineEnd c := by
    rw [List.getLast?_cons, List.getLast?_eq_some_getLast hline.name_ne_nil] at hc
    cases hc
    exact not_isLineEnd_of_isTagChar (hline.isTagChar _ (List.getLast_mem hline.name_ne_nil))
  have hnumber : (LineIndex.ofText text).lineOf x.tag.span.start = (segments above).length + 1 := by
    rw [h.text_eq, hupTo]
    refine LineIndex.lineOf_of_line habove hfeed (by omega) ?_ _
    rw [byteLength_append, byteLength_append]
    omega
  have htext : text = above ++ (margin ++ '@' :: x.tag.name.toList ++
      (site.content ++ site.below)) := by
    rw [h.text_eq, hupTo, List.append_assoc]
  have hpatched : site.patched link = above ++ (margin ++ '@' :: x.tag.name.toList ++
      (' ' :: link ++ afterArgument (site.content ++ site.below))) := by
    rw [TagSite.patched, hupTo, List.append_assoc]
  rw [hnumber, hpatched, htext]
  exact patchText?_margin habove hline.isMargin.notMem hfeed hlast hboundary

/-- The argument ends in the comment, if something follows it there. -/
theorem patched_eq (hinside : site.argument ≠ [] → site.rest ≠ []) (link : List Char) :
    site.patched link = site.put (' ' :: link) := by
  obtain ⟨after, hbelow⟩ := h.closes
  have hargument : afterArgument (site.content ++ site.below) = site.rest ++ site.below := by
    refine afterArgument_append (fun c hc => .inr ?_) fun hempty => .inl ?_
    · rw [← hbelow] at hc
      cases hc
      rfl
    · have hargument : site.argument = [] := by_contra fun hne => hinside hne hempty
      rw [← site.argument_append_rest, hargument]
      exact hempty
  rw [TagSite.patched, hargument, TagSite.put, List.append_assoc]

/-- What stands behind the argument on the line of the tag. The argument may be put in front of it
again. -/
theorem exists_rest : ∃ behindArgument, rest = site.argument ++ behindArgument ∧
    site.rest = behindArgument ++ (ending ++ behind.flatten) ∧
    IsInsertable site.argument behindArgument ∧
    ∀ c, behindArgument.head? = some c → isTagChar c = false := by
  have hline := h.commentSite.isTagSite.isTagLine
  have hrest : site.rest = afterArgument rest ++ (ending ++ behind.flatten) := by
    rw [TagSite.rest, h.content_eq]
    exact afterArgument_append_of_isLineEnd h.isLineEnd_head? rest
  have hargument : site.argument ++ afterArgument rest = rest := by
    have hcontent := site.argument_append_rest
    rw [h.content_eq, hrest, ← List.append_assoc] at hcontent
    exact List.append_cancel_right hcontent
  refine ⟨afterArgument rest, hargument.symm, hrest, ?_⟩
  rcases afterArgument_cases rest with hnone | ⟨gap, c, word, hgap, hc, -, hword, heq, hafter⟩
  · rw [hnone] at hargument ⊢
    have hempty : site.argument = [] := List.append_left_eq_self.1 hargument
    rw [hempty]
    exact ⟨⟨nofun, hline.boundary, nofun⟩, hline.boundary⟩
  · have hblank : ∀ d ∈ c :: word, isBlank d = false := List.forall_mem_cons.2 ⟨hc, hword⟩
    have hgapword : site.argument = gap ++ c :: word :=
      List.append_cancel_right (hargument.trans heq)
    rw [hgapword]
    refine ⟨⟨fun hfeed => ?_, fun d hd => ?_, fun d hd => ?_⟩, fun d hd => ?_⟩
    · rcases List.mem_append.1 hfeed with hfeed | hfeed
      · rcases hgap.2 _ hfeed with heq | heq <;> exact absurd heq (by decide)
      · exact absurd (hblank _ hfeed) (by decide)
    · obtain ⟨g, gs, rfl⟩ := List.exists_cons_of_ne_nil hgap.1
      cases hd
      rcases hgap.2 _ List.mem_cons_self with rfl | rfl <;> decide
    · rw [List.getLast?_append, List.getLast?_cons, Option.some_or] at hd
      exact hblank d (List.mem_of_getLast? (by rwa [List.getLast?_cons]))
    · rw [hd, Option.all_some] at hafter
      rw [Bool.eq_false_iff]
      intro htag
      rw [not_isBlank_of_isTagChar htag] at hafter
      cases hafter

end PlacedTag.StandsAt

end ComponentScan
