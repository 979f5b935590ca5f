import ComponentScan.Proofs.Patch.LineSafety
import ComponentScan.Syntax.Trivia

/-!
# Patches and the end of a comment

Only the first character of an argument is kept from being an asterisk, so what a patch replaces
holds the end of its comment exactly if that stands inside the word behind the tag. Otherwise the
comment ends where it did, unless what is written ends it: the permalink may hold a terminator, and
it may make one with the character behind it (`patchLine_terminator`).
-/

namespace ComponentScan

namespace Patch

open Text Syntax

/-! ## Terminators -/

/-- The mark that ends a block comment. -/
def terminator : List Char := ['*', '/']

/-- Whether a comment that is open in front of `body` ends with the terminator between `body` and
`behind`, as the scanner reads it. -/
def EndsBehind (body behind : List Char) : Prop :=
  ∃ multiline, skipBlockComment false (body ++ terminator ++ behind) 0 =
    some (⟨behind, byteLength body + 2⟩, multiline)

theorem terminator_infix_append_iff {s t : List Char} :
    terminator <:+: s ++ t ↔
      terminator <:+: s ∨ terminator <:+: t ∨ s.getLast? = some '*' ∧ t.head? = some '/' := by
  rw [List.infix_append_iff]
  constructor
  · rintro (h | h | ⟨p, q, hpq, hp, hq⟩)
    · exact .inl h
    · exact .inr (.inl h)
    · -- The terminator is cut in front of, between, or behind its two characters.
      match p with
      | [] =>
        obtain rfl : terminator = q := hpq
        exact .inr (.inl hq.isInfix)
      | [c] =>
        obtain ⟨rfl, rfl⟩ := List.cons.inj hpq
        obtain ⟨s, rfl⟩ := hp
        obtain ⟨t, rfl⟩ := hq
        exact .inr (.inr ⟨List.getLast?_concat, rfl⟩)
      | c :: d :: p =>
        obtain ⟨rfl, hrest⟩ := List.cons.inj hpq
        obtain ⟨rfl, hnil⟩ := List.cons.inj hrest
        obtain ⟨rfl, rfl⟩ := List.append_eq_nil_iff.1 hnil.symm
        exact .inl hp.isInfix
  · rintro (h | h | ⟨hs, ht⟩)
    · exact .inl h
    · exact .inr (.inl h)
    · obtain ⟨s, rfl⟩ := List.getLast?_eq_some_iff.1 hs
      obtain ⟨t, rfl⟩ := List.head?_eq_some_iff.1 ht
      exact .inr (.inr ⟨['*'], ['/'], rfl, List.suffix_append _ _, t, rfl⟩)

theorem terminator_infix_append_iff_of_notMem {s t : List Char} (h : '*' ∉ s) :
    terminator <:+: s ++ t ↔ terminator <:+: t := by
  have hs : ¬ terminator <:+: s := fun hin => h (hin.subset List.mem_cons_self)
  have hlast : s.getLast? ≠ some '*' := fun hlast => h (List.mem_of_getLast? hlast)
  simp [terminator_infix_append_iff, hs, hlast]

theorem skipBlockComment_append (body behind : List Char) (multiline : Bool) (pos : Nat) :
    (∃ multiline', skipBlockComment multiline (body ++ terminator ++ behind) pos =
      some (⟨behind, pos + byteLength body + 2⟩, multiline')) ↔ ¬ terminator <:+: body := by
  induction body generalizing multiline pos with
  | nil => simp [terminator, skipBlockComment]
  | cons c body ih =>
    rw [List.infix_cons_iff]
    by_cases hfirst : terminator <+: c :: body
    · -- The scanner stops before `behind`.
      obtain ⟨body, hbody⟩ := hfirst
      obtain ⟨rfl, rfl⟩ := List.cons.inj hbody
      have hsize : '*'.utf8Size ≠ 0 := by decide
      simp [skipBlockComment, terminator, hsize]
    · have hgo : skipBlockComment multiline (c :: body ++ terminator ++ behind) pos =
          skipBlockComment (multiline || isLineBreak c) (body ++ terminator ++ behind)
            (pos + c.utf8Size) := by
        refine skipBlockComment.eq_3 _ _ _ _ fun r hc hr => hfirst ?_
        subst hc
        cases body with
        | nil => cases hr
        | cons d body =>
          obtain ⟨rfl, -⟩ := List.cons.inj hr
          exact ⟨body, rfl⟩
      simp only [hgo, hfirst, false_or, ← ih (multiline || isLineBreak c) (pos + c.utf8Size),
        byteLength_cons, Nat.add_assoc]

theorem endsBehind_iff {body behind : List Char} :
    EndsBehind body behind ↔ ¬ terminator <:+: body := by
  have h := skipBlockComment_append body behind false 0
  rwa [Nat.zero_add] at h

/-! ## What a patch replaces -/

variable {tag arg before found after : List Char}

/-- The end of a comment does not stand half inside of what a patch replaces. -/
theorem IsFirstMatch.not_cut (h : IsFirstMatch tag before found after) (htag : '*' ∉ tag) :
    ¬ (found.getLast? = some '*' ∧ after.head? = some '/') := by
  rintro ⟨hlast, hhead⟩
  obtain ⟨after, rfl⟩ := List.head?_eq_some_iff.1 hhead
  have hmatch := h.isMatch
  cases hmatch with
  | bare => exact absurd (List.mem_of_getLast? hlast) (by simp [htag])
  | @argument gap word _ c hgap hblank hstar hword hboundary =>
    have hlonger : Matches tag ('@' :: tag ++ (gap ++ c :: (word ++ ['/']))) after := by
      refine .argument hgap hblank hstar (fun x hx => ?_) hboundary
      rcases List.mem_append.1 hx with hx | hx
      · exact hword x hx
      · obtain rfl := List.mem_singleton.1 hx
        decide
    have hle := h.longest _ after (by simp) hlonger
    simp only [List.length_append, List.length_cons, List.length_nil] at hle
    omega

/-- What is replaced ends a comment exactly if its argument does. -/
theorem IsFirstMatch.terminator_infix_iff (h : IsFirstMatch tag before found after)
    (htag : '*' ∉ tag) :
    terminator <:+: found ↔ ∃ gap c word, IsGap gap ∧ isBlank c = false ∧ c ≠ '*' ∧
      (∀ x ∈ word, isBlank x = false) ∧ found = '@' :: tag ++ (gap ++ c :: word) ∧
        terminator <:+: word := by
  have hmark : '*' ∉ '@' :: tag := by simp [htag]
  have hargument {gap word : List Char} {c : Char} (hgap : IsGap gap) (hstar : c ≠ '*') :
      terminator <:+: '@' :: tag ++ (gap ++ c :: word) ↔ terminator <:+: word := by
    have hfront : '*' ∉ '@' :: tag ++ (gap ++ [c]) := fun hin => by
      rcases List.mem_append.1 hin with hin | hin
      · exact hmark hin
      · rcases List.mem_append.1 hin with hin | hin
        · rcases hgap.2 _ hin with hin | hin <;> cases hin
        · exact hstar (List.mem_singleton.1 hin).symm
    simpa using terminator_infix_append_iff_of_notMem (t := word) hfront
  constructor
  · intro hin
    have hmatch := h.isMatch
    cases hmatch with
    | bare => exact absurd (hin.subset List.mem_cons_self) hmark
    | argument hgap hblank hstar hword hboundary =>
      exact ⟨_, _, _, hgap, hblank, hstar, hword, rfl, (hargument hgap hstar).1 hin⟩
  · rintro ⟨gap, c, word, hgap, -, hstar, -, rfl, hin⟩
    exact (hargument hgap hstar).2 hin

/-- A terminator behind what a match starts in, and not inside of the match, stands behind it. -/
theorem IsFirstMatch.exists_kept (h : IsFirstMatch tag before found after) (htag : '*' ∉ tag)
    {inside body behind : List Char} (hfound : ¬ terminator <:+: found)
    (hcomment : inside ++ found ++ after = body ++ terminator ++ behind)
    (hinside : inside.length ≤ body.length) :
    ∃ kept, body = inside ++ found ++ kept ∧ after = kept ++ terminator ++ behind := by
  rw [List.append_assoc, List.append_assoc] at hcomment
  obtain ⟨m, rfl⟩ := List.prefix_of_prefix_length_le ⟨_, hcomment⟩ (List.prefix_append body _) hinside
  rw [List.append_assoc, List.append_cancel_left_eq] at hcomment
  rcases List.append_eq_append_iff.1 hcomment with ⟨kept, rfl, rfl⟩ | ⟨cut, rfl, hcut⟩
  · exact ⟨kept, by simp, by simp⟩
  · -- What the match takes of the terminator is nothing: the scanner would stop at it otherwise.
    match cut with
    | [] => exact ⟨[], by simp, by simpa using hcut.symm⟩
    | [c] =>
      obtain ⟨rfl, rfl⟩ := List.cons.inj hcut
      exact absurd ⟨List.getLast?_concat, rfl⟩ (h.not_cut htag)
    | c :: d :: cut =>
      obtain ⟨rfl, hrest⟩ := List.cons.inj hcut
      obtain ⟨rfl, -⟩ := List.cons.inj hrest
      exact absurd ⟨m, cut, by simp [terminator]⟩ hfound

/-- A terminator of a patched text is one of the old text or in what is written. -/
theorem terminator_infix_withArgument_iff {arg : List Char} (htag : '*' ∉ tag) :
    terminator <:+: withArgument tag arg before after ↔
      terminator <:+: before ∨ terminator <:+: arg ∨ terminator <:+: after ∨
        arg.getLast? = some '*' ∧ after.head? = some '/' := by
  have hmark : '*' ∉ '@' :: tag ++ [' '] := by simp [htag]
  have heq : withArgument tag arg before after =
      before ++ ('@' :: tag ++ [' '] ++ (arg ++ after)) := by simp [withArgument]
  rw [heq, terminator_infix_append_iff, terminator_infix_append_iff_of_notMem hmark,
    terminator_infix_append_iff]
  simp

/-- A comment of a line, open in front of the tag and ended behind it, keeps its end exactly if
neither what is replaced ends it nor what is written. -/
theorem IsFirstMatch.keepsEnd_iff (h : IsFirstMatch tag before found after) (htag : '*' ∉ tag)
    {arg outside body behind : List Char}
    (hline : before ++ found ++ after = outside ++ body ++ terminator ++ behind)
    (hopen : outside.length ≤ before.length) (htagged : before.length ≤ (outside ++ body).length)
    (hends : EndsBehind body behind) :
    (∃ body' kept, withArgument tag arg before after = outside ++ body' ++ terminator ++ behind ∧
      after = kept ++ terminator ++ behind ∧ EndsBehind body' behind) ↔
      ¬ terminator <:+: found ∧ ¬ terminator <:+: arg ∧
        ¬ (arg.getLast? = some '*' ∧ after.head? = some '/') := by
  obtain ⟨inside, rfl⟩ : outside <+: before :=
    List.prefix_of_prefix_length_le ⟨body ++ (terminator ++ behind), rfl⟩
      ⟨found ++ after, by simpa using hline⟩ hopen
  have hcomment : inside ++ found ++ after = body ++ terminator ++ behind := by simpa using hline
  have hinside : inside.length ≤ body.length := by simpa using htagged
  have hnew (kept : List Char) : withArgument tag arg (outside ++ inside)
      (kept ++ terminator ++ behind) =
        outside ++ withArgument tag arg inside kept ++ terminator ++ behind := by
    simp [withArgument]
  simp only [endsBehind_iff] at hends ⊢
  have hhead (kept : List Char) :
      (kept ++ terminator ++ behind).head? = some '/' ↔ kept.head? = some '/' := by
    cases kept <;> simp [terminator]
  constructor
  · rintro ⟨body', kept, hbody', rfl, hends'⟩
    obtain rfl : body = inside ++ found ++ kept := by
      refine List.append_cancel_right (?_ : body ++ (terminator ++ behind) =
        inside ++ found ++ kept ++ (terminator ++ behind))
      simpa only [List.append_assoc] using hcomment.symm
    obtain rfl : body' = withArgument tag arg inside kept := by
      rw [hnew kept] at hbody'
      simpa using hbody'.symm
    rw [terminator_infix_withArgument_iff htag] at hends'
    rw [hhead kept]
    exact ⟨fun hin => hends (hin.trans (List.infix_append _ _ _)),
      fun hin => hends' (.inr (.inl hin)), fun hcut => hends' (.inr (.inr (.inr hcut)))⟩
  · rintro ⟨hfound, harg, hcut⟩
    obtain ⟨kept, rfl, rfl⟩ := h.exists_kept htag hfound hcomment hinside
    rw [hhead kept] at hcut
    refine ⟨_, kept, hnew kept, rfl, ?_⟩
    rw [terminator_infix_withArgument_iff htag]
    rintro (hin | hin | hin | hin)
    · exact hends (hin.trans ((List.prefix_append _ _).trans (List.prefix_append _ _)).isInfix)
    · exact harg hin
    · exact hends (hin.trans (List.suffix_append _ _).isInfix)
    · exact hcut hin

end Patch

open Patch Text

/-- What a patch replaces ends a comment exactly if a terminator stands in the word behind the tag;
a comment of the line keeps its end exactly if none stands there and what is written ends no
comment. -/
theorem patchLine_terminator {line line' arg : List Char}
    (h : patchLine line "canvas".toList arg = some line') :
    ∃ before found after, line = before ++ found ++ after ∧
      IsFirstMatch "canvas".toList before found after ∧
      line' = before ++ '@' :: "canvas".toList ++ ' ' :: arg ++ after ∧
      (terminator <:+: found ↔ ∃ gap c word, IsGap gap ∧ isBlank c = false ∧ c ≠ '*' ∧
        (∀ x ∈ word, isBlank x = false) ∧
        found = '@' :: "canvas".toList ++ (gap ++ c :: word) ∧ terminator <:+: word) ∧
      ∀ outside body behind, line = outside ++ body ++ terminator ++ behind →
        outside.length ≤ before.length → before.length ≤ (outside ++ body).length →
        EndsBehind body behind →
        ((∃ body' kept, line' = outside ++ body' ++ terminator ++ behind ∧
          after = kept ++ terminator ++ behind ∧ EndsBehind body' behind) ↔
          ¬ terminator <:+: found ∧ ¬ terminator <:+: arg ∧
            ¬ (arg.getLast? = some '*' ∧ after.head? = some '/')) := by
  obtain ⟨before, after, hfind, rfl⟩ := patchLine_eq_some_iff.1 h
  obtain ⟨found, rfl, hfirst⟩ := exists_isFirstMatch_of_findTag? hfind
  have htag : '*' ∉ "canvas".toList := by decide +kernel
  exact ⟨before, found, after, rfl, hfirst, rfl, hfirst.terminator_infix_iff htag,
    fun _ _ _ hline hopen htagged hends => hfirst.keepsEnd_iff htag hline hopen htagged hends⟩

/-- The old argument of the tag is written against the end of the comment, and goes with it. -/
theorem patchLine_terminator_adjacent :
    let line := " * @canvas old*/".toList
    let line' := " * @canvas https://c.example/2".toList
    let arg := "https://c.example/2".toList
    parsePermalink "https://c.example/2" = some "https://c.example/2" ∧
    patchLine line "canvas".toList arg = some line' ∧
    ∃ before found after, line = before ++ found ++ after ∧
      IsFirstMatch "canvas".toList before found after ∧
      line' = before ++ '@' :: "canvas".toList ++ ' ' :: arg ++ after ∧
      (terminator <:+: found ↔ ∃ gap c word, IsGap gap ∧ isBlank c = false ∧ c ≠ '*' ∧
        (∀ x ∈ word, isBlank x = false) ∧
        found = '@' :: "canvas".toList ++ (gap ++ c :: word) ∧ terminator <:+: word) ∧
      ∀ outside body behind, line = outside ++ body ++ terminator ++ behind →
        outside.length ≤ before.length → before.length ≤ (outside ++ body).length →
        EndsBehind body behind →
        ((∃ body' kept, line' = outside ++ body' ++ terminator ++ behind ∧
          after = kept ++ terminator ++ behind ∧ EndsBehind body' behind) ↔
          ¬ terminator <:+: found ∧ ¬ terminator <:+: arg ∧
            ¬ (arg.getLast? = some '*' ∧ after.head? = some '/')) := by
  intro line line' arg
  have h : patchLine line "canvas".toList arg = some line' := by decide +kernel
  exact ⟨by decide +kernel, h, patchLine_terminator h⟩

end ComponentScan
