import ComponentScan.Patch
import ComponentScan.Permalink
import ComponentScan.Proofs.Text.Runs

/-!
# Patching one line

What `findTag?` finds is the first place where the tag stands on a word boundary
(`findTag?_eq_some_iff`), and the argument it takes along ends at white space or at the end of the
line (`afterArgument_cases`). A patched line has its first tag where the line had it
(`findTag?_patched`), so a second patch only differs from the first in how much it takes for the
argument of the tag: everything up to the first white space behind the permalink.
-/

namespace ComponentScan

namespace Text

theorem dropWhile_not_isBlank_append {w : List Char} (hw : ∀ c ∈ w, isBlank c = false)
    (r : List Char) : (w ++ r).dropWhile (!isBlank ·) = r.dropWhile (!isBlank ·) := by
  rw [List.dropWhile_append_of_pos fun c hc => by simp [hw c hc]]

theorem dropWhile_not_isBlank_eq_self_iff {r : List Char} :
    r.dropWhile (!isBlank ·) = r ↔ r.head?.all isBlank := by
  cases r with
  | nil => simp
  | cons c r => rw [List.dropWhile_eq_self_iff]; simp

/-- White space or nothing follows what is left of a text behind its first word. -/
theorem isBlank_head?_dropWhile (r : List Char) :
    (r.dropWhile (!isBlank ·)).head?.all isBlank := by
  cases h : (r.dropWhile (!isBlank ·)).head? with
  | none => rfl
  | some c =>
    have := List.head?_dropWhile_not (!isBlank ·) r
    simpa [h] using this

end Text

namespace Patch

open Text

/-! ## The argument of a tag -/

/-- Characters that may stand between a tag and its argument. -/
def IsGap (s : List Char) : Prop :=
  s ≠ [] ∧ ∀ c ∈ s, c = ' ' ∨ c = '\t'

theorem span_gap {gap : List Char} (h : IsGap gap) {c : Char} (hc : isBlank c = false)
    (r : List Char) :
    (gap ++ c :: r).span (fun c => c == ' ' || c == '\t') = (gap, c :: r) := by
  have hsep : (c == ' ' || c == '\t') = false := by
    rw [Bool.or_eq_false_iff]
    constructor <;> refine beq_eq_false_iff_ne.2 fun e => ?_ <;> subst e <;> exact absurd hc (by decide)
  have hgap : ∀ x ∈ gap, (x == ' ' || x == '\t') = true := fun x hx => by
    rcases h.2 x hx with rfl | rfl <;> decide
  exact span_append hgap fun x hx => Option.some.inj hx ▸ hsep

/-- A word that is no asterisk behind a gap is taken whole. -/
theorem afterArgument_gap {gap : List Char} (h : IsGap gap) {c : Char} (hc : isBlank c = false)
    (hstar : c ≠ '*') (r : List Char) :
    afterArgument (gap ++ c :: r) = r.dropWhile (!isBlank ·) := by
  unfold afterArgument
  rw [span_gap h hc]
  obtain ⟨g, gs, rfl⟩ := List.exists_cons_of_ne_nil h.1
  simp [hc, hstar]

/-- Either nothing is taken for an argument, or a gap and a word that white space or nothing
follows. -/
theorem afterArgument_cases (s : List Char) :
    afterArgument s = s ∨
      ∃ gap c word, IsGap gap ∧ isBlank c = false ∧ c ≠ '*' ∧ (∀ x ∈ word, isBlank x = false) ∧
        s = gap ++ c :: word ++ afterArgument s ∧ (afterArgument s).head?.all isBlank := by
  have hs := List.takeWhile_append_dropWhile (p := fun c => c == ' ' || c == '\t') (l := s)
  have hgap : ∀ x ∈ s.takeWhile (fun c => c == ' ' || c == '\t'), x = ' ' ∨ x = '\t' :=
    fun x hx => by simpa using List.mem_takeWhile_imp hx
  unfold afterArgument
  rw [List.span_eq_takeWhile_dropWhile]
  generalize s.takeWhile (fun c => c == ' ' || c == '\t') = gap at hs hgap ⊢
  generalize s.dropWhile (fun c => c == ' ' || c == '\t') = rest at hs ⊢
  subst hs
  match gap, rest with
  | [], _ => exact .inl rfl
  | _ :: _, [] => exact .inl rfl
  | g :: gs, c :: r =>
    dsimp only
    split
    · exact .inl rfl
    · next hc =>
      simp only [Bool.or_eq_true, beq_iff_eq, not_or, Bool.not_eq_true] at hc
      refine .inr ⟨g :: gs, c, r.takeWhile (!isBlank ·), ⟨List.cons_ne_nil g gs, hgap⟩, hc.1, hc.2,
        fun x hx => by simpa using List.mem_takeWhile_imp hx, ?_, isBlank_head?_dropWhile r⟩
      simp [List.takeWhile_append_dropWhile]

/-! ## The first tag -/

theorem afterTag?_eq_some_iff {tag s after : List Char} :
    afterTag? tag s = some after ↔
      ∃ rest, s = '@' :: tag ++ rest ∧ isWordBoundary ('@' :: tag).getLast? rest.head? ∧
        afterArgument rest = after := by
  unfold afterTag?
  rw [Option.bind_eq_bind, Option.bind_eq_some_iff]
  constructor
  · rintro ⟨rest, hrest, h⟩
    split at h
    · next hb => exact ⟨rest, dropStart?_eq_some_iff.1 hrest, hb, Option.some.inj h⟩
    · cases h
  · rintro ⟨rest, hs, hb, rfl⟩
    exact ⟨rest, dropStart?_eq_some_iff.2 hs, if_pos hb⟩

/-- The first tag is the first place where the text goes on with the tag. -/
theorem findTag?_eq_some_iff {tag line before after : List Char} :
    findTag? tag line = some (before, after) ↔
      ∃ s, line = before ++ s ∧ afterTag? tag s = some after ∧
        ∀ p q, before = p ++ q → q ≠ [] → afterTag? tag (q ++ s) = none := by
  induction line generalizing before with
  | nil =>
    refine ⟨nofun, ?_⟩
    rintro ⟨s, hs, h, -⟩
    obtain ⟨rest, rfl, -⟩ := afterTag?_eq_some_iff.1 h
    simp at hs
  | cons c r ih =>
    rw [findTag?]
    constructor
    · intro h
      split at h
      · next after' h' =>
        obtain ⟨rfl, rfl⟩ := Prod.mk.inj (Option.some.inj h)
        refine ⟨c :: r, rfl, h', fun p q hpq hq => ?_⟩
        exact absurd (List.append_eq_nil_iff.1 hpq.symm).2 hq
      · next h' =>
        obtain ⟨⟨b, a⟩, hr, hba⟩ := Option.map_eq_some_iff.1 h
        obtain ⟨rfl, rfl⟩ := Prod.mk.inj hba
        obtain ⟨s, rfl, hs, hfirst⟩ := ih.1 hr
        refine ⟨s, rfl, hs, fun p q hpq hq => ?_⟩
        cases p with
        | nil =>
          obtain rfl : c :: b = q := hpq
          exact h'
        | cons d p => exact hfirst p q (List.cons.inj hpq).2 hq
    · rintro ⟨s, hline, hs, hfirst⟩
      cases before with
      | nil =>
        obtain rfl : c :: r = s := hline
        rw [hs]
      | cons d b =>
        obtain ⟨rfl, rfl⟩ := List.cons.inj hline
        have hnone : afterTag? tag (c :: (b ++ s)) = none :=
          hfirst [] (c :: b) rfl (List.cons_ne_nil c b)
        have hr : findTag? tag (b ++ s) = some (b, after) :=
          ih.2 ⟨s, rfl, hs, fun p q hpq hq => hfirst (c :: p) q (congrArg (c :: ·) hpq) hq⟩
        simp [hnone, hr]

/-- Whether a place in front of the tag starts with the tag does not depend on what follows the
tag, as no tag starts inside another. -/
theorem afterTag?_append_none {tag q r r' : List Char} (htag : '@' ∉ tag) (hq : q ≠ [])
    (h : afterTag? tag (q ++ '@' :: r) = none) : afterTag? tag (q ++ '@' :: r') = none := by
  rw [Option.eq_none_iff_forall_ne_some] at h ⊢
  rintro after h'
  obtain ⟨rest, hs, hb, -⟩ := afterTag?_eq_some_iff.1 h'
  rcases List.append_eq_append_iff.1 hs with ⟨t, ht, hr⟩ | ⟨t, ht, hr⟩
  · -- the tag would reach over the mark behind `q`
    cases t with
    | nil =>
      rw [List.append_nil] at ht
      rw [List.nil_append] at hr
      refine h _ (afterTag?_eq_some_iff.2 ⟨'@' :: r, by rw [← ht], ?_, rfl⟩)
      rw [← hr] at hb
      exact hb
    | cons d t =>
      obtain ⟨rfl, -⟩ := List.cons.inj hr
      obtain ⟨c, q, rfl⟩ := List.exists_cons_of_ne_nil hq
      obtain ⟨-, rfl⟩ := List.cons.inj ht
      exact absurd (List.mem_append_right q List.mem_cons_self) htag
  · refine h _ (afterTag?_eq_some_iff.2 ⟨t ++ '@' :: r, by rw [ht, List.append_assoc], ?_, rfl⟩)
    rw [hr] at hb
    cases t <;> exact hb

/-! ## Patched lines -/

/-- What may be written behind a tag: one word that no asterisk starts. -/
structure IsArgument (s : List Char) : Prop where
  nonempty : s ≠ []
  notBlank : ∀ c ∈ s, isBlank c = false
  noAsterisk : s.head? ≠ some '*'

/-- A tag that is a word of its own wherever it stands in front of white space. -/
structure IsTagName (tag : List Char) : Prop where
  noMark : '@' ∉ tag
  endsWord : ('@' :: tag).getLast?.any isWordChar

theorem afterArgument_space {arg : List Char} (h : IsArgument arg) (r : List Char) :
    afterArgument (' ' :: arg ++ r) = r.dropWhile (!isBlank ·) := by
  obtain ⟨c, w, rfl⟩ := List.exists_cons_of_ne_nil h.nonempty
  have hgap : IsGap [' '] := ⟨List.cons_ne_nil _ _, by simp⟩
  have hw : ∀ x ∈ w, isBlank x = false := fun x hx => h.notBlank x (List.mem_cons_of_mem c hx)
  have := afterArgument_gap hgap (h.notBlank c List.mem_cons_self) (by simpa using h.noAsterisk)
    (w ++ r)
  rw [dropWhile_not_isBlank_append hw] at this
  exact this

/-- The line with `arg` as the argument of the tag between `before` and `after`. -/
def withArgument (tag arg before after : List Char) : List Char :=
  before ++ '@' :: tag ++ ' ' :: arg ++ after

theorem patchLine_eq_some_iff {tag arg line line' : List Char} :
    patchLine line tag arg = some line' ↔
      ∃ before after, findTag? tag line = some (before, after) ∧
        withArgument tag arg before after = line' := by
  simp [patchLine, withArgument, Option.map_eq_some_iff]

/-- The first tag of a patched line is the one that was patched. -/
theorem findTag?_withArgument {tag arg line before after : List Char} (htag : IsTagName tag)
    (harg : IsArgument arg) (h : findTag? tag line = some (before, after)) :
    findTag? tag (withArgument tag arg before after) =
      some (before, after.dropWhile (!isBlank ·)) := by
  obtain ⟨s, -, hs, hfirst⟩ := findTag?_eq_some_iff.1 h
  obtain ⟨rest, rfl, -, -⟩ := afterTag?_eq_some_iff.1 hs
  refine findTag?_eq_some_iff.2 ⟨'@' :: tag ++ (' ' :: arg ++ after), by simp [withArgument], ?_, ?_⟩
  · refine afterTag?_eq_some_iff.2 ⟨_, rfl, ?_, afterArgument_space harg after⟩
    have hspace : isWordChar ' ' = false := by decide
    simp [isWordBoundary, htag.endsWord, hspace]
  · intro p q hpq hq
    exact afterTag?_append_none htag.noMark hq (hfirst p q hpq hq)

theorem withArgument_inj {tag arg before after after' : List Char} :
    withArgument tag arg before after = withArgument tag arg before after' ↔ after = after' := by
  simp [withArgument]

end Patch

/-! ## Permalinks as arguments -/

open Text

theorem isArgument_of_isWebAddress {word : List Char} (h : isWebAddress word) :
    Patch.IsArgument word := by
  have key : ∀ start : List Char, start.all (!isBlank ·) → start.head? = some 'h' →
      ∀ rest, dropStart? start word = some rest → rest.all (!isBlank ·) → Patch.IsArgument word := by
    intro start hblank hhead rest hrest hall
    rw [dropStart?_eq_some_iff] at hrest
    obtain ⟨t, rfl⟩ := List.head?_eq_some_iff.1 hhead
    subst hrest
    refine ⟨by simp, fun c hc => ?_, by simp⟩
    rcases List.mem_append.1 hc with hc | hc
    · simpa using List.all_eq_true.1 hblank c hc
    · simpa using List.all_eq_true.1 hall c hc
  simp only [isWebAddress, List.any_cons, List.any_nil, Bool.or_false, Bool.or_eq_true,
    Option.any_eq_true, Bool.and_eq_true] at h
  rcases h with ⟨rest, hrest, -, hall⟩ | ⟨rest, hrest, -, hall⟩
  · exact key _ (by decide +kernel) (by decide +kernel) rest hrest hall
  · exact key _ (by decide +kernel) (by decide +kernel) rest hrest hall

theorem isWebAddress_of_parsePermalink {s t : String} (h : parsePermalink s = some t) :
    isWebAddress t.toList := by
  unfold parsePermalink at h
  obtain ⟨word, -, h⟩ := Option.bind_eq_some_iff.1 h
  split at h
  · next hw =>
    obtain rfl := Option.some.inj h
    rwa [String.toList_ofList]
  · cases h

theorem isArgument_of_parsePermalink {s t : String} (h : parsePermalink s = some t) :
    Patch.IsArgument t.toList :=
  isArgument_of_isWebAddress (isWebAddress_of_parsePermalink h)

end ComponentScan
