import ComponentScan.Proofs.DocComment.Insertion
import ComponentScan.Proofs.Scan.Move
import ComponentScan.Proofs.Session.Parsed

/-!
# Sessions of a text with another one put in

A text inside a comment is no part of the program (`Program.Ignores`). So the session of a text in
which something is put in behind the name of a tag is the session of the text without it, moved
(`CommentSite.isMoved`), and the documentation comments are the same but for the text of that tag
(`CommentSite.moved_docs`).
-/

namespace ComponentScan

open Syntax Text

namespace Syntax.Program

/-- The program with its offsets moved. -/
def move (f : Nat → Nat) (p : Program) : Program :=
  ⟨p.root.move f, p.comments.map fun e => (f e.1, e.2.move f)⟩

/-- Whether the text `t` between `u` and `v` only moves the program. -/
def Ignores (dialect : Dialect) (u t v : List Char) : Prop :=
  parse dialect (String.ofList (u ++ t ++ v)) =
    (parse dialect (String.ofList (u ++ v))).map
      (move (shiftFrom (byteLength u) (byteLength t)))

/-- Whether a span lies inside the name of a JSX element. -/
def InTagName (root : Node) (span : Span) : Prop :=
  ∃ n ∈ root.nodes, n.kind = .jsxOpeningElement ∧ ∃ name ∈ n.children.head?,
    name.start ≤ span.start ∧ span.stop ≤ name.stop

/-- Whether the comments of a program are given with their delimiters, in order, and outside of what
the tree covers: none of its nodes begins or ends inside a comment. -/
structure CommentsApart (text : List Char) (p : Program) : Prop where
  delimited : ∀ e ∈ p.comments, (slice? text e.2.start e.2.stop).bind (·.head?) = some '/'
  ordered : p.comments.Pairwise fun e e' => e.2.stop ≤ e'.2.start
  outside : ∀ n ∈ p.root.nodes, ∀ e ∈ p.comments,
    (n.start ≤ e.2.start ∨ e.2.stop ≤ n.start) ∧ (n.stop ≤ e.2.start ∨ e.2.stop ≤ n.stop)

/-- What a parser is relied on for: comments apart from the tree, of which those for documentation
end where they may end first, and those inside the name of a JSX element lead no declaration. -/
structure CommentsRead (text : List Char) (p : Program) : Prop extends CommentsApart text p where
  closed : ∀ e ∈ p.comments, (slice? text e.2.start e.2.stop).any DocComment.isWhole →
    ¬ "*/".toList <:+: DocComment.inner text e.2
  tagName : ∀ e ∈ p.comments, InTagName p.root e.2 → ∀ n ∈ p.root.nodes, n.start = e.1 →
    AnnotationTags.targetOf? n = none

/-! ### Programs without what was put in -/

variable {u t v : List Char} {p : Program}

theorem InTagName.move {span : Span} (h : InTagName p.root span) (c k : Nat) :
    InTagName (p.root.move (shiftFrom c k)) (span.move (shiftFrom c k)) := by
  obtain ⟨n, hn, hkind, name, hname, hstart, hstop⟩ := h
  have hmono := (shiftFrom_strictMono c k).monotone
  refine ⟨n.move (shiftFrom c k), ?_, by rwa [Node.kind_move], name.move (shiftFrom c k), ?_,
    by rw [Node.start_move]; exact hmono hstart, by rw [Node.stop_move]; exact hmono hstop⟩
  · rw [Node.nodes_move]
    exact List.mem_map_of_mem hn
  · rw [Node.children_move, List.head?_map, hname]
    rfl

theorem CommentsApart.of_move
    (h : (p.move (shiftFrom (byteLength u) (byteLength t))).CommentsApart (u ++ t ++ v)) :
    p.CommentsApart (u ++ v) where
  delimited := fun e he => by
    have hdelimited := h.delimited _ (List.mem_map_of_mem he)
    dsimp only [Span.move] at hdelimited
    by_cases hstop : e.2.stop < byteLength u
    · rwa [slice?_insertion_of_lt t hstop] at hdelimited
    by_cases hstart : byteLength u ≤ e.2.start
    · rwa [slice?_insertion_of_le t hstart] at hdelimited
    obtain ⟨c, hc, hhead⟩ := Option.bind_eq_some_iff.1 hdelimited
    obtain ⟨x, y, rfl, -, hx, -, hbare, -⟩ :=
      exists_slice?_around (Nat.not_le.1 hstart) (Nat.not_lt.1 hstop) hc
    cases x with
    | nil =>
      rw [byteLength_nil] at hx
      omega
    | cons d x =>
      rw [hbare]
      exact hhead
  ordered := by
    have hordered := List.pairwise_map.1 h.ordered
    exact hordered.imp fun hle => (shiftFrom_strictMono _ _).le_iff_le.1 hle
  outside := fun n hn e he => by
    have hn' : n.move (shiftFrom (byteLength u) (byteLength t)) ∈
        (p.root.move (shiftFrom (byteLength u) (byteLength t))).nodes := by
      rw [Node.nodes_move]
      exact List.mem_map_of_mem hn
    have houtside := h.outside _ hn' _ (List.mem_map_of_mem he)
    simpa [Span.move, (shiftFrom_strictMono (byteLength u) (byteLength t)).le_iff_le] using houtside

end Syntax.Program

/-! ## Comments with their delimiters -/

namespace DocComment

/-- A comment that is given with its delimiters is a documentation comment if its text is one. -/
theorem spanOf?_of_delimited {s : List Char} {span : Span}
    (h : (slice? s span.start span.stop).bind (·.head?) = some '/') :
    spanOf? s span = if ((slice? s span.start span.stop).any isWhole) then some span else none := by
  unfold spanOf?
  obtain ⟨text, htext, hhead⟩ := Option.bind_eq_some_iff.1 h
  obtain ⟨r, rfl⟩ := List.head?_eq_some_iff.1 hhead
  have hcontent : isContent ('/' :: r) = false := rfl
  simp only [htext, Option.bind_eq_bind, Option.bind_some, Option.any_some, hcontent,
    Bool.and_false]
  split <;> rfl

theorem length_of_isWhole {s : List Char} {span : Span}
    (h : (slice? s span.start span.stop).any isWhole) : span.start + 5 ≤ span.stop := by
  obtain ⟨text, htext, hwhole⟩ := (Option.any_eq_true _ _).1 h
  obtain ⟨a, b, -, ha, hb⟩ := slice?_eq_some_iff.1 htext
  simp only [isWhole, Bool.and_eq_true, decide_eq_true_eq] at hwhole
  rw [byteLength_append] at hb
  omega

/-- What stands between the delimiters of a documentation comment. -/
theorem exists_eq_append_inner {s : List Char} {span : Span}
    (hwhole : (slice? s span.start span.stop).any isWhole) (hne : inner s span ≠ []) :
    ∃ a b, s = a ++ inner s span ++ b ∧ byteLength a = span.start + 3 ∧
      byteLength (a ++ inner s span) = span.stop - 2 ∧ "*/".toList <+: b := by
  have hlength := length_of_isWhole hwhole
  have hslice : slice? s (span.start + 3) (span.stop - 2) = some (inner s span) := by
    unfold inner at hne ⊢
    dsimp only at hne ⊢
    rw [Nat.max_eq_left (by omega)] at hne ⊢
    cases hslice : slice? s (span.start + 3) (span.stop - 2) with
    | none => exact absurd (by rw [hslice]; rfl) hne
    | some c => rfl
  obtain ⟨a, b, hs, ha, hab⟩ := slice?_eq_some_iff.1 hslice
  refine ⟨a, b, hs, ha, hab, ?_⟩
  -- the comment is cut in front of its closing delimiter as well
  obtain ⟨c, hc, hwhole⟩ := (Option.any_eq_true _ _).1 hwhole
  obtain ⟨a', b', hs', ha', hac⟩ := slice?_eq_some_iff.1 hc
  simp only [isWhole, Bool.and_eq_true, List.isSuffixOf_iff_suffix] at hwhole
  obtain ⟨c', rfl⟩ := hwhole.1.1.2
  have htwo : byteLength "*/".toList = 2 := by decide
  have hcut : a' ++ c' ++ ("*/".toList ++ b') = a ++ inner s span ++ b := by
    rw [← hs, hs']
    simp
  have hbytes : byteLength (a' ++ c') = byteLength (a ++ inner s span) := by
    rw [hab, ← hac]
    simp only [byteLength_append, htwo]
    omega
  exact ⟨b', (append_inj_of_byteLength hcut hbytes).2⟩

theorem prefix_append_iff {s x : List Char} (h : byteLength s ≤ byteLength x) (z : List Char) :
    s <+: x ++ z ↔ s <+: x := by
  refine ⟨fun hs => ?_, fun hs => hs.trans (List.prefix_append x z)⟩
  rcases List.prefix_or_prefix_of_prefix hs (List.prefix_append x z) with hs | ⟨r, hr⟩
  · exact hs
  · have hbytes := congrArg byteLength hr
    rw [byteLength_append] at hbytes
    rw [eq_nil_of_byteLength_eq_zero (by omega : byteLength r = 0), List.append_nil] at hr
    exact hr ▸ List.prefix_refl _

theorem suffix_append_iff {s y : List Char} (h : byteLength s ≤ byteLength y) (z : List Char) :
    s <:+ z ++ y ↔ s <:+ y := by
  refine ⟨fun hs => ?_, fun hs => hs.trans (List.suffix_append z y)⟩
  rcases List.suffix_or_suffix_of_suffix hs (List.suffix_append z y) with hs | ⟨r, hr⟩
  · exact hs
  · have hbytes := congrArg byteLength hr
    rw [byteLength_append] at hbytes
    rw [eq_nil_of_byteLength_eq_zero (by omega : byteLength r = 0), List.nil_append] at hr
    exact hr ▸ List.suffix_refl _

/-- Whether a text is a documentation comment does not depend on what stands inside. -/
theorem isWhole_append (x t y : List Char) (hx : 3 < byteLength x) (hy : 2 ≤ byteLength y) :
    isWhole (x ++ t ++ y) = isWhole (x ++ y) := by
  have hclose : byteLength "*/".toList ≤ byteLength y := hy
  have key (s : List Char) : isWhole (x ++ s ++ y) = true ↔
      "/**".toList <+: x ∧ "*/".toList <:+ y ∧ ¬ "/**/".toList <+: x := by
    have hopen := prefix_append_iff (s := "/**".toList) hx.le (s ++ y)
    have hshort := prefix_append_iff (s := "/**/".toList) hx (s ++ y)
    have hlength : byteLength (x ++ s ++ y) ≥ 5 := by
      simp only [byteLength_append]
      omega
    rw [← List.append_assoc] at hopen hshort
    simp only [isWhole, Bool.and_eq_true, Bool.not_eq_true', decide_eq_true_eq,
      List.isPrefixOf_iff_prefix, List.isSuffixOf_iff_suffix, ← Bool.not_eq_true, hopen, hshort,
      suffix_append_iff hclose, hlength, and_true, and_assoc]
  have hbare := key []
  rw [List.append_nil] at hbare
  rw [Bool.eq_iff_iff, key, hbare]

end DocComment

/-! ## Sessions of programs -/

namespace Session


end Session

namespace PrintedNames

/-- A printed expression with a mark in it is none of the names, if the names do not hold it. -/
theorem matchesText_insert {names : PrintedNames} {mark : List Char}
    (hnames : ∀ name ∈ names.names, ¬ mark <:+: name.toList) {x : List Char}
    (hx : mark <:+: compact x) (t y : List Char) :
    names.matchesText (String.ofList (compact (x ++ t ++ y))) =
      names.matchesText (String.ofList (compact (x ++ y))) := by
  have hnone (w : List Char) : names.names.contains (String.ofList (compact x ++ w)) = false := by
    rw [Bool.eq_false_iff, ne_eq, List.contains_iff_mem]
    intro hmem
    refine hnames _ hmem ?_
    rw [String.toList_ofList]
    exact hx.trans (List.prefix_append _ w).isInfix
  unfold matchesText
  simp only [String.toList_ofList, compact, List.filter_append, List.append_assoc]
  have htake (w : List Char) : (compact x ++ w).takeWhile (· ≠ '<') =
      if ((compact x).takeWhile (· ≠ '<')).length = (compact x).length then
        compact x ++ w.takeWhile (· ≠ '<') else (compact x).takeWhile (· ≠ '<') :=
    List.takeWhile_append
  rw [← compact, htake, htake]
  split
  · rw [hnone, hnone]
  · rfl

end PrintedNames

/-! ## The place of a tag -/

/-- The place of a tag in the program `p` that the text `u ++ v` is read as: the comment `e` is a
documentation comment with the tag, and `u` ends with the name of the tag. -/
structure CommentSite (u v : List Char) (p : Program) (e : Nat × Span) (front : List (List Char))
    (margin name rest ending : List Char) (behind : List (List Char)) : Prop where
  mem : e ∈ p.comments
  apart : p.CommentsApart (u ++ v)
  isWhole : (slice? (u ++ v) e.2.start e.2.stop).any DocComment.isWhole
  isTagSite : DocComment.IsTagSite u v e.2 front margin name rest ending behind

namespace CommentSite

open DocComment

variable {u v t : List Char} {p : Program} {e : Nat × Span} {front behind : List (List Char)}
  {margin name rest ending : List Char}
  (h : CommentSite u v p e front margin name rest ending behind)
include h

omit h in
/-- The place without a text that stands at it. -/
theorem erase (h : CommentSite u (t ++ v) (p.move (shiftFrom (byteLength u) (byteLength t))) e front
    margin name (t ++ rest) ending behind)
    (hboundary : ∀ c, rest.head? = some c → isTagChar c = false) :
    ∃ e₀ ∈ p.comments, e = (shiftFrom (byteLength u) (byteLength t) e₀.1,
        e₀.2.move (shiftFrom (byteLength u) (byteLength t))) ∧
      CommentSite u v p e₀ front margin name rest ending behind := by
  obtain ⟨e₀, he₀, rfl⟩ := List.mem_map.1 h.mem
  have hsite := h.isTagSite.erase hboundary
  have hstart := hsite.start_lt
  have hstop := hsite.stop
  have hapart := h.apart
  have hwhole := h.isWhole
  rw [← List.append_assoc] at hapart hwhole
  refine ⟨e₀, he₀, rfl, he₀, hapart.of_move, ?_, hsite⟩
  obtain ⟨c, hc, hwhole⟩ := (Option.any_eq_true _ _).1 hwhole
  dsimp only [Span.move] at hc
  obtain ⟨x, y, rfl, -, hx, hy, hbare, -⟩ := exists_slice?_around (by omega) (by omega) hc
  rw [hbare, Option.any_some, ← isWhole_append x t y (by omega) (by omega)]
  exact hwhole

/-- The other comments are in front of the place or behind it. -/
theorem cases_of_mem {x : Nat × Span} (hx : x ∈ p.comments) :
    x.2.stop ≤ e.2.start ∨ x = e ∨ e.2.stop ≤ x.2.start := by
  obtain ⟨before, after, hcomments⟩ := List.append_of_mem h.mem
  have hordered := h.apart.ordered
  rw [hcomments, List.pairwise_append, List.pairwise_cons] at hordered
  rw [hcomments, List.mem_append, List.mem_cons] at hx
  rcases hx with hx | rfl | hx
  · exact .inl (hordered.2.2 x hx e List.mem_cons_self)
  · exact .inr (.inl rfl)
  · exact .inr (.inr (hordered.2.1.1 x hx))

/-- What stands in front of the place from a place before the comment on ends with the tag. -/
theorem suffix_of_slice? {i : Nat} (hi : i ≤ e.2.start) {x : List Char}
    (hx : slice? u i (byteLength u) = some x) : '@' :: name <:+ x := by
  obtain ⟨a, b, hu, ha, hstop⟩ := slice?_eq_some_iff.1 hx
  obtain ⟨a', b', hu', ha', hstop'⟩ := slice?_eq_some_iff.1 h.isTagSite.before_eq
  have hb := congrArg byteLength hu
  have hb' := congrArg byteLength hu'
  rw [byteLength_append] at hb hb'
  obtain rfl : b = [] := eq_nil_of_byteLength_eq_zero (by omega)
  obtain rfl : b' = [] := eq_nil_of_byteLength_eq_zero (by omega)
  rw [List.append_nil] at hu hu'
  have hparts := hu.symm.trans hu'
  rcases List.append_eq_append_iff.1 hparts with ⟨s, -, rfl⟩ | ⟨s, rfl, hs⟩
  · exact ⟨s ++ (front.flatten ++ margin), by simp⟩
  · rw [byteLength_append] at ha
    rw [eq_nil_of_byteLength_eq_zero (by omega : byteLength s = 0), List.nil_append] at hs
    exact ⟨front.flatten ++ margin, hs⟩

/-- What stands on the two sides of the place in a slice around the comment. -/
theorem exists_around {span : Span} (hstart : span.start ≤ e.2.start) (hstop : e.2.stop ≤ span.stop)
    {text : List Char} (htext : slice? (u ++ v) span.start span.stop = some text) :
    ∃ x y, text = x ++ y ∧ byteLength x = byteLength u - span.start ∧
      byteLength y = span.stop - byteLength u ∧ '@' :: name <:+ x ∧ ∀ t, slice? (u ++ t ++ v)
        (shiftFrom (byteLength u) (byteLength t) span.start)
        (shiftFrom (byteLength u) (byteLength t) span.stop) = some (x ++ t ++ y) := by
  have hlt := h.isTagSite.start_lt
  have hle := h.isTagSite.stop
  have hbare : slice? (u ++ [] ++ v) (shiftFrom (byteLength u) (byteLength []) span.start)
      (shiftFrom (byteLength u) (byteLength []) span.stop) = some text := by simpa using htext
  obtain ⟨x, y, rfl, hx, hxlength, hylength, -, hput⟩ :=
    exists_slice?_around (by omega) (by omega) hbare
  exact ⟨x, y, by simp, by omega, by omega, h.suffix_of_slice? hstart hx, hput⟩

/-- A slice around the comment is none wherever something is put in, if it is none. -/
theorem slice?_around_eq_none {span : Span} (hstart : span.start ≤ e.2.start)
    (hstop : e.2.stop ≤ span.stop) (hnone : slice? (u ++ v) span.start span.stop = none)
    (t : List Char) : slice? (u ++ t ++ v) (shiftFrom (byteLength u) (byteLength t) span.start)
      (shiftFrom (byteLength u) (byteLength t) span.stop) = none := by
  have hlt := h.isTagSite.start_lt
  have hle := h.isTagSite.stop
  rw [Option.eq_none_iff_forall_ne_some]
  intro c hc
  obtain ⟨x, y, -, -, -, -, hbare, -⟩ := exists_slice?_around (by omega) (by omega) hc
  cases hnone.symm.trans hbare

/-- The documentation comments stay, moved, but for the text of the tag. -/
theorem moved_docs (path : String) (ht : IsInsertable t rest) :
    List.Forall₂ (fun d d' => d'.1 = shiftFrom (byteLength u) (byteLength t) d.1 ∧
        d.2.Moved (shiftFrom (byteLength u) (byteLength t))
          (e.2.start + 3 + byteLength front.flatten + byteLength margin) d'.2)
      (Session.ofProgram path (u ++ v) p).docs
      (Session.ofProgram path (u ++ t ++ v)
        (p.move (shiftFrom (byteLength u) (byteLength t)))).docs := by
  have hlt := h.isTagSite.start_lt
  have hle := h.isTagSite.stop
  set f := shiftFrom (byteLength u) (byteLength t) with hf
  set a := e.2.start + 3 + byteLength front.flatten + byteLength margin with ha
  have key (x : Nat × Span) (hx : x ∈ p.comments) : Option.Rel
      (fun d d' => d'.1 = f d.1 ∧ DocComment.Moved f a d.2 d'.2)
      ((spanOf? (u ++ v) x.2).map fun span => (x.1, parse (u ++ v) span))
      ((spanOf? (u ++ t ++ v) (x.2.move f)).map fun span =>
        (f x.1, parse (u ++ t ++ v) span)) := by
    have hdelimited := h.apart.delimited x hx
    have hother (hslice : slice? (u ++ t ++ v) (x.2.move f).start (x.2.move f).stop =
          slice? (u ++ v) x.2.start x.2.stop)
        (hmoved : (slice? (u ++ v) x.2.start x.2.stop).any DocComment.isWhole = true →
          (parse (u ++ v) x.2).Moved f a (parse (u ++ t ++ v) (x.2.move f))) :
        Option.Rel (fun d d' => d'.1 = f d.1 ∧ DocComment.Moved f a d.2 d'.2)
          ((spanOf? (u ++ v) x.2).map fun span => (x.1, parse (u ++ v) span))
          ((spanOf? (u ++ t ++ v) (x.2.move f)).map fun span =>
            (f x.1, parse (u ++ t ++ v) span)) := by
      rw [spanOf?_of_delimited hdelimited, spanOf?_of_delimited (hslice ▸ hdelimited), hslice]
      by_cases hwhole : (slice? (u ++ v) x.2.start x.2.stop).any DocComment.isWhole = true
      · rw [if_pos hwhole, if_pos hwhole]
        exact .some ⟨rfl, hmoved hwhole⟩
      · rw [if_neg hwhole, if_neg hwhole]
        exact .none
    rcases h.cases_of_mem hx with hfront | rfl | hbehind
    · refine hother (slice?_insertion_of_lt t (by omega)) fun hwhole => ?_
      have hlength := length_of_isWhole hwhole
      exact moved_parse_of_lt t (by omega) (by omega) a
    · obtain ⟨text, htext, hwhole⟩ := (Option.any_eq_true _ _).1 h.isWhole
      obtain ⟨y, z, rfl, hy, hz, -, hput⟩ := h.exists_around (Nat.le_refl _) (Nat.le_refl _) htext
      rw [htext, Option.bind_some] at hdelimited
      have hput := hput t
      have hdelimited' : (slice? (u ++ t ++ v) (x.2.move f).start (x.2.move f).stop).bind
          (·.head?) = some '/' := by
        rw [Span.move, hput, Option.bind_some]
        cases y with
        | nil =>
          rw [byteLength_nil] at hy
          omega
        | cons c y => exact hdelimited
      have hwhole' := (isWhole_append y t z (by omega) (by omega)).trans hwhole
      rw [spanOf?_of_delimited (h.apart.delimited x hx), spanOf?_of_delimited hdelimited', htext,
        Span.move, hput, Option.any_some, Option.any_some, hwhole, hwhole', if_pos rfl, if_pos rfl]
      exact .some ⟨rfl, h.isTagSite.moved_parse ht⟩
    · exact hother (slice?_insertion_of_le t (by omega)) fun _ => moved_parse_of_le t (by omega) a
  have hrel : (List.Forall₂ fun x x' => x ∈ p.comments ∧ x' = (f x.1, x.2.move f)) p.comments
      (p.comments.map fun x => (f x.1, x.2.move f)) := by
    rw [List.forall₂_map_right_iff]
    exact List.forall₂_same.2 fun x hx => ⟨hx, rfl⟩
  refine List.rel_filterMap (fun x x' hx => ?_) hrel
  obtain ⟨hx, rfl⟩ := hx
  exact key x hx

/-- The session is moved. -/
theorem isMoved (path : String) (ht : IsInsertable t rest) :
    (Session.ofProgram path (u ++ v) p).IsMoved (shiftFrom (byteLength u) (byteLength t))
      (Session.ofProgram path (u ++ t ++ v)
        (p.move (shiftFrom (byteLength u) (byteLength t)))) where
  injective := (shiftFrom_strictMono _ _).injective
  path := rfl
  root := rfl
  symbols := Scope.resolveProgram_move _ _
  location := fun span => by
    have hlines :=
      LineIndex.linesOf_insertion ht.noFeed h.isTagSite.getLast?_ne v span.start span.stop
    unfold Session.location
    dsimp only [Session.ofProgram, Span.move]
    rw [hlines]

/-! ### Names -/

/-- The text of a node stays, or something is put into it behind a tag. -/
theorem textAt_cases (path : String) (t : List Char) {n : Node} (hn : n ∈ p.root.nodes) :
    (Session.ofProgram path (u ++ t ++ v)
        (p.move (shiftFrom (byteLength u) (byteLength t)))).textAt
          (n.span.move (shiftFrom (byteLength u) (byteLength t))) =
      (Session.ofProgram path (u ++ v) p).textAt n.span ∨
    (n.start ≤ e.2.start ∧ e.2.stop ≤ n.stop) ∧
      ∃ x y, '@' :: name <:+ x ∧ (Session.ofProgram path (u ++ v) p).textAt n.span = x ++ y ∧
        (Session.ofProgram path (u ++ t ++ v)
          (p.move (shiftFrom (byteLength u) (byteLength t)))).textAt
            (n.span.move (shiftFrom (byteLength u) (byteLength t))) = x ++ t ++ y := by
  have hlt := h.isTagSite.start_lt
  have hle := h.isTagSite.stop
  obtain ⟨hstart, hstop⟩ := h.apart.outside n hn e h.mem
  unfold Session.textAt
  dsimp only [Session.ofProgram, Span.move]
  by_cases hfront : n.stop ≤ e.2.start
  · rw [slice?_insertion_of_lt t (by rw [Node.stop] at hfront; omega)]
    exact .inl rfl
  by_cases hbehind : e.2.stop ≤ n.start
  · rw [slice?_insertion_of_le t (by rw [Node.start] at hbehind; omega)]
    exact .inl rfl
  have hstart := hstart.resolve_right hbehind
  have hstop := hstop.resolve_left hfront
  cases htext : slice? (u ++ v) n.span.start n.span.stop with
  | none => exact .inl (by rw [h.slice?_around_eq_none hstart hstop htext])
  | some text =>
    obtain ⟨x, y, rfl, -, -, hmark, hput⟩ := h.exists_around hstart hstop htext
    rw [hput]
    exact .inr ⟨⟨hstart, hstop⟩, x, y, hmark, rfl, rfl⟩

/-- The names that detectors read stay, if those that the options give do not hold the tag. -/
theorem keepsNames (path : String) {config : Config}
    (hnames : ∀ n ∈ config.componentBaseClasses ++ config.lazyLoadCallees,
      ¬ '@' :: name <:+: n.toList)
    (htag : ¬ Program.InTagName p.root e.2) (t : List Char) :
    (Session.ofProgram path (u ++ v) p).KeepsNames config (shiftFrom (byteLength u) (byteLength t))
      (Session.ofProgram path (u ++ t ++ v)
        (p.move (shiftFrom (byteLength u) (byteLength t)))) := by
  have htagname : compact ('@' :: name) = '@' :: name := by
    refine compact_eq_self fun c hc => ?_
    rcases List.mem_cons.1 hc with rfl | hc
    · decide
    · exact not_isBlank_of_isTagChar (h.isTagSite.isTagLine.isTagChar c hc)
  have hprinted {names : List String} (hnames : ∀ n ∈ names, ¬ '@' :: name <:+: n.toList) {n : Node}
      (hn : n ∈ p.root.nodes) :
      (⟨names⟩ : PrintedNames).matchesText ((Session.ofProgram path (u ++ t ++ v)
          (p.move (shiftFrom (byteLength u) (byteLength t)))).printCompact
            (n.move (shiftFrom (byteLength u) (byteLength t)))) =
        (⟨names⟩ : PrintedNames).matchesText
          ((Session.ofProgram path (u ++ v) p).printCompact n) := by
    unfold Session.printCompact
    rw [Node.span_move]
    rcases h.textAt_cases path t hn with heq | ⟨-, x, y, hmark, htext, htext'⟩
    · rw [heq]
    · rw [htext, htext']
      obtain ⟨w, rfl⟩ := hmark
      refine PrintedNames.matchesText_insert hnames ⟨compact w, [], ?_⟩ t y
      rw [compact_append, htagname, List.append_nil]
  rw [List.forall_mem_append] at hnames
  refine ⟨fun n hn b hb => hprinted hnames.1 (Node.mem_nodes_of_child hn (Node.mem_of_child? hb)),
    fun n hn => ?_, fun n hn hkind name hname => ?_⟩
  · unfold LazyComponent.isWrapper
    rw [Node.kind_move, Node.children_move]
    cases n.kind with
    | callExpression =>
      cases hchildren : n.children with
      | nil => rfl
      | cons callee others =>
        have hcallee : callee ∈ n.children := hchildren ▸ List.mem_cons_self
        exact hprinted hnames.2 (Node.mem_nodes_of_child hn hcallee)
    | _ => rfl
  · have hname' := Node.mem_nodes_of_child hn (List.mem_of_mem_head? hname)
    rcases h.textAt_cases path t hname' with heq | ⟨⟨hstart, hstop⟩, -⟩
    · exact heq
    · exact absurd ⟨n, hn, hkind, name, hname, hstart, hstop⟩ htag

end CommentSite

end ComponentScan
