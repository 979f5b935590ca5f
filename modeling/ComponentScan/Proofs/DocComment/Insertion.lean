import ComponentScan.Proofs.DocComment.Tags
import ComponentScan.Proofs.LineIndex
import ComponentScan.Proofs.Syntax.Move
import Mathlib.Data.List.Forall2

/-!
# Comments in a text with another one put in

Where a text is put in behind the name of a tag (`IsTagSite`), the comment around the place says the
same except for the text of that tag (`IsTagSite.moved_parse`), which starts with what follows the
name then (`IsTagSite.text_parse`). The comments in front of the place and behind it say what they
said (`moved_parse_of_lt`, `moved_parse_of_le`).
-/

namespace ComponentScan

open Text

/-! ## Moved comments -/

/-- The tag `t'` is `t` with its offsets moved; its text may differ if `t` starts at `a`. -/
structure DocTag.Moved (f : Nat → Nat) (a : Nat) (t t' : DocTag) : Prop where
  name : t'.name = t.name
  span : t'.span = t.span.move f
  text : t.span.start ≠ a → t'.text = t.text

/-- The comment `d'` is `d` with its offsets moved; the text of the tag at `a` may differ. -/
structure DocComment.Moved (f : Nat → Nat) (a : Nat) (d d' : DocComment) : Prop where
  span : d'.span = d.span.move f
  description : d'.description = d.description
  tags : List.Forall₂ (DocTag.Moved f a) d.tags d'.tags

namespace DocComment

/-- What `DocTag.Moved` says, of a tag being read. -/
structure OpenTag.Moved (f : Nat → Nat) (a : Nat) (t t' : OpenTag) : Prop where
  name : t'.name = t.name
  span : t'.span = t.span.move f
  text : t.span.start ≠ a → t'.text = t.text

structure Draft.Moved (f : Nat → Nat) (a : Nat) (d d' : Draft) : Prop where
  description : d'.description = d.description
  tags : List.Forall₂ (OpenTag.Moved f a) d.tags d'.tags

variable {a c k o : Nat}

theorem Draft.Moved.takeLine {d d' : Draft} (h : d.Moved (shiftFrom c k) a d') (hc : c ≤ o)
    (seg : List Char) :
    (d.takeLine o seg).Moved (shiftFrom c k) a (d'.takeLine (o + k) seg) := by
  have hshift (x : Nat) : shiftFrom c k (o + x) = o + k + x := by
    rw [shiftFrom_of_le (Nat.le_add_right_of_le hc), Nat.add_right_comm]
  obtain ⟨description, tags⟩ := d
  obtain ⟨description', tags'⟩ := d'
  obtain ⟨hdescription, htags⟩ := h
  dsimp only at hdescription htags
  subst hdescription
  unfold Draft.takeLine
  dsimp only
  cases splitTag? (stripMargin (dropLineEnd seg)).2 with
  | some found =>
    refine ⟨rfl, .cons ⟨rfl, ?_, fun _ => rfl⟩ htags⟩
    simp only [Span.move, hshift, Nat.add_assoc]
  | none =>
    cases htags with
    | nil => exact ⟨rfl, .nil⟩
    | @cons tag tag' earlier earlier' htag hearlier =>
      dsimp only
      split
      · exact ⟨rfl, .cons htag hearlier⟩
      · refine ⟨rfl, .cons ⟨htag.name, ?_, fun hne => ?_⟩ hearlier⟩
        · simp only [Span.move, hshift, Nat.add_assoc, htag.span]
        · rw [htag.text hne]

theorem Draft.Moved.takeLines {d d' : Draft} (h : d.Moved (shiftFrom c k) a d') (hc : c ≤ o)
    (segs : List (List Char)) :
    (d.takeLines o segs).Moved (shiftFrom c k) a (d'.takeLines (o + k) segs) := by
  induction segs generalizing d d' o with
  | nil => exact h
  | cons seg segs ih =>
    have hrest := ih (o := o + byteLength seg) (h.takeLine hc seg) (Nat.le_add_right_of_le hc)
    rwa [Nat.add_right_comm o] at hrest

/-- Nothing moves in front of the place. -/
theorem Draft.Moved.of_isWithin {lo hi : Nat} {d : Draft} (h : d.IsWithin lo hi) (hhi : hi < c)
    (k a : Nat) : d.Moved (shiftFrom c k) a d := by
  refine ⟨rfl, List.forall₂_same.2 fun t ht => ⟨rfl, ?_, fun _ => rfl⟩⟩
  have hstart := h.start_lt t ht
  have hstop := h.stop_le t ht
  rw [Span.move, shiftFrom_of_lt (by omega), shiftFrom_of_lt (by omega)]

theorem moved_parse {s s' : List Char} {f : Nat → Nat} {span span' : Span}
    (hspan : span' = span.move f)
    (h : (({} : Draft).takeLines (span.start + 3) (segments (inner s span))).Moved f a
      (({} : Draft).takeLines (span'.start + 3) (segments (inner s' span')))) :
    (parse s span).Moved f a (parse s' span') := by
  refine ⟨hspan, congrArg (fun text => String.ofList (trim text)) h.description, ?_⟩
  unfold parse
  rw [List.forall₂_map_left_iff, List.forall₂_map_right_iff, List.forall₂_reverse_iff]
  refine h.tags.imp fun t t' ht => ⟨congrArg String.ofList ht.name, ht.span, fun hne => ?_⟩
  exact congrArg String.ofList (ht.text hne)

section

variable {u v : List Char} {span : Span} (t : List Char)

/-- A comment in front of the place. -/
theorem moved_parse_of_lt (hstart : span.start + 3 < byteLength u)
    (hstop : span.stop < byteLength u) (a : Nat) :
    (parse (u ++ v) span).Moved (shiftFrom (byteLength u) (byteLength t)) a
      (parse (u ++ t ++ v) (span.move (shiftFrom (byteLength u) (byteLength t)))) := by
  have hspan : span.move (shiftFrom (byteLength u) (byteLength t)) = span := by
    rw [Span.move, shiftFrom_of_lt (by omega), shiftFrom_of_lt hstop]
  have hinner : inner (u ++ t ++ v) span = inner (u ++ v) span := by
    have hslice := slice?_insertion_of_lt (u := u) (v := v) (i := span.start + 3)
      (j := max (span.stop - 2) (span.start + 3)) t (by omega)
    rw [shiftFrom_of_lt hstart, shiftFrom_of_lt (by omega)] at hslice
    unfold inner
    dsimp only
    rw [hslice]
  refine moved_parse rfl ?_
  rw [hspan, hinner]
  have hbytes := byteLength_inner_le (u ++ v) span
  exact .of_isWithin (isWithin_takeLines_inner _ _) (by omega) _ _

/-- A comment behind the place. -/
theorem moved_parse_of_le (h : byteLength u ≤ span.start) (a : Nat) :
    (parse (u ++ v) span).Moved (shiftFrom (byteLength u) (byteLength t)) a
      (parse (u ++ t ++ v) (span.move (shiftFrom (byteLength u) (byteLength t)))) := by
  refine moved_parse rfl ?_
  have hinner : inner (u ++ t ++ v) (span.move (shiftFrom (byteLength u) (byteLength t))) =
      inner (u ++ v) span := by
    have hslice := slice?_insertion_of_le (u := u) (v := v) (i := span.start + 3)
      (j := max (span.stop - 2) (span.start + 3)) t (by omega)
    rw [shiftFrom_of_le (by omega), shiftFrom_of_le (by omega)] at hslice
    unfold inner
    dsimp only [Span.move]
    rw [← hslice, shiftFrom_of_le h]
    congr 2
    · omega
    · unfold shiftFrom
      split <;> omega
  rw [hinner]
  have hempty : ({} : Draft).Moved (shiftFrom (byteLength u) (byteLength t)) a {} := ⟨rfl, .nil⟩
  have hlines := hempty.takeLines (o := span.start + 3) (by omega) (segments (inner (u ++ v) span))
  rw [Span.move, shiftFrom_of_le h, Nat.add_right_comm]
  exact hlines

end

/-! ## The comment around the place -/

/-- What may be put in behind the name of a tag in front of the rest of its line. -/
structure IsInsertable (t rest : List Char) : Prop where
  noFeed : '\n' ∉ t
  boundary : ∀ c, (t ++ rest).head? = some c → isTagChar c = false
  last : ∀ c, t.getLast? = some c → isBlank c = false

theorem not_isLineEnd_of_not_isBlank {c : Char} (h : isBlank c = false) : ¬ IsLineEnd c := by
  rintro (rfl | rfl) <;> exact absurd h (by decide)

section

variable {seg seg' margin name rest rest' ending t : List Char} {front behind : List (List Char)}

theorem IsTagLine.insert (h : IsTagLine seg margin name rest ending) (ht : IsInsertable t rest) :
    IsTagLine (margin ++ '@' :: name ++ (t ++ rest) ++ ending) margin name (t ++ rest) ending := by
  refine h.exchange ht.boundary fun c hc => ?_
  rw [List.getLast?_append] at hc
  cases hrest : rest.getLast? with
  | some d =>
    rw [hrest] at hc
    cases hc
    exact h.last _ hrest
  | none =>
    rw [hrest, Option.none_or] at hc
    exact not_isLineEnd_of_not_isBlank (ht.last c hc)

/-- A tag line with a feed has it in its line end. -/
theorem IsTagLine.exists_of_isFedLine (h : IsTagLine seg margin name rest ending)
    (hfed : IsFedLine seg) :
    ∃ e, ending = e ++ ['\n'] ∧ '\n' ∉ margin ++ '@' :: name ++ rest ++ e := by
  obtain ⟨l, hl, hseg⟩ := hfed
  rcases ending.eq_nil_or_concat with hempty | ⟨e, c, hending⟩
  · obtain ⟨-, -, -, hlast⟩ := exists_eq_dropLineEnd_append seg
    have heq := h.seg_eq
    rw [hempty, List.append_nil, ← h.dropLineEnd_eq] at heq
    rw [← heq, hseg] at hlast
    exact absurd (.inl rfl) (hlast '\n' (by simp))
  · rw [List.concat_eq_append] at hending
    have heq := h.seg_eq
    rw [hending, hseg, ← List.append_assoc] at heq
    obtain ⟨rfl, hc⟩ := List.append_inj' heq rfl
    cases hc
    exact ⟨e, hending, hl⟩

/-- The lines around a tag line stay when the text behind its name is exchanged. -/
theorem IsTagLine.segments_exchange (h : IsTagLine seg margin name rest ending)
    (h' : IsTagLine seg' margin name rest' ending) (hfeed : '\n' ∉ rest → '\n' ∉ rest')
    (hlines : segments (front.flatten ++ seg ++ behind.flatten) = front ++ seg :: behind) :
    segments (front.flatten ++ seg' ++ behind.flatten) = front ++ seg' :: behind := by
  have hget : (segments (front.flatten ++ seg ++ behind.flatten))[front.length]? = some seg := by
    rw [hlines]
    simp
  have hfed (hfedLine : IsFedLine seg) : IsFedLine seg' := by
    obtain ⟨e, hending, he⟩ := h.exists_of_isFedLine hfedLine
    refine ⟨margin ++ '@' :: name ++ rest' ++ e, ?_,
      by rw [h'.seg_eq, hending, ← List.append_assoc]⟩
    simp only [List.mem_append, not_or] at he ⊢
    exact ⟨⟨he.1.1, hfeed he.1.2⟩, he.2⟩
  have hopen (hopenLine : IsOpenLine seg) : IsOpenLine seg' := by
    have hnot := hopenLine.2
    rw [h.seg_eq] at hnot
    refine ⟨by rw [h'.seg_eq]; simp, ?_⟩
    rw [h'.seg_eq]
    simp only [List.mem_append, not_or] at hnot ⊢
    exact ⟨⟨hnot.1.1, hfeed hnot.1.2⟩, hnot.2⟩
  have hset := segments_set hget hfed hopen
  rw [hlines] at hset
  simpa using hset

end

/-- Where a tag stands in the comment at `span` of the text `u ++ v`: `u` ends with the name of the
tag, which opens the line behind the lines `front`; `rest` and a line end follow on that line, and
the lines `behind` on the others. -/
structure IsTagSite (u v : List Char) (span : Span) (front : List (List Char))
    (margin name rest ending : List Char) (behind : List (List Char)) : Prop where
  before_eq : slice? u (span.start + 3) (byteLength u) =
    some (front.flatten ++ margin ++ '@' :: name)
  behind_eq : slice? v 0 (span.stop - 2 - byteLength u) = some (rest ++ ending ++ behind.flatten)
  stop : byteLength u + 2 ≤ span.stop
  isTagLine : IsTagLine (margin ++ '@' :: name ++ rest ++ ending) margin name rest ending
  lines : segments (front.flatten ++ (margin ++ '@' :: name ++ rest ++ ending) ++ behind.flatten) =
    front ++ (margin ++ '@' :: name ++ rest ++ ending) :: behind

namespace IsTagSite

variable {u v t : List Char} {span : Span} {front behind : List (List Char)}
  {margin name rest ending : List Char}
  (h : IsTagSite u v span front margin name rest ending behind)
include h

/-- The place behind the name of the tag. -/
theorem byteLength_eq : byteLength u =
    span.start + 3 + byteLength front.flatten + byteLength margin + byteLength ('@' :: name) := by
  obtain ⟨a, b, -, ha, hstop⟩ := slice?_eq_some_iff.1 h.before_eq
  simp only [byteLength_append] at hstop
  omega

/-- The text up to the place ends with the name. -/
theorem suffix : '@' :: name <:+ u := by
  obtain ⟨a, b, hu, -, hstop⟩ := slice?_eq_some_iff.1 h.before_eq
  have hbytes := congrArg byteLength hu
  rw [byteLength_append] at hbytes
  rw [eq_nil_of_byteLength_eq_zero (by omega : byteLength b = 0), List.append_nil,
    ← List.append_assoc] at hu
  exact ⟨_, hu.symm⟩

/-- No line starts at the place. -/
theorem getLast?_ne : u.getLast? ≠ some '\n' := by
  obtain ⟨a, rfl⟩ := h.suffix
  have hname := h.isTagLine.name_ne_nil
  rw [List.getLast?_append, List.getLast?_cons, List.getLast?_eq_some_getLast hname]
  exact fun heq => not_isLineEnd_of_isTagChar (h.isTagLine.isTagChar _ (List.getLast_mem hname))
    (.inl (Option.some.inj heq))

theorem start_lt : span.start + 3 < byteLength u := by
  have hbytes := h.byteLength_eq
  have hmark := Char.utf8Size_pos '@'
  rw [byteLength_cons] at hbytes
  omega

theorem span_move (t : List Char) : span.move (shiftFrom (byteLength u) (byteLength t)) =
    ⟨span.start, span.stop + byteLength t⟩ := by
  have hstart := h.start_lt
  have hstop := h.stop
  rw [Span.move, shiftFrom_of_lt (by omega), shiftFrom_of_le (by omega)]

theorem segments_inner : segments (inner (u ++ v) span) =
    front ++ (margin ++ '@' :: name ++ rest ++ ending) :: behind := by
  have hstart := h.start_lt
  have hstop := h.stop
  obtain ⟨j, hj⟩ := Nat.exists_eq_add_of_le (show byteLength u ≤ span.stop - 2 by omega)
  have hinner : inner (u ++ v) span =
      front.flatten ++ (margin ++ '@' :: name ++ rest ++ ending) ++ behind.flatten := by
    have hrest := h.behind_eq
    rw [hj, Nat.add_sub_cancel_left] at hrest
    unfold inner
    dsimp only
    rw [Nat.max_eq_left (by omega), hj, slice?_append u v hstart.le, h.before_eq, hrest]
    simp
  rw [hinner, h.lines]

/-- The site with a text put in. -/
theorem insert (ht : IsInsertable t rest) :
    IsTagSite u (t ++ v) (span.move (shiftFrom (byteLength u) (byteLength t))) front margin name
      (t ++ rest) ending behind := by
  have hstart := h.start_lt
  have hstop := h.stop
  have hline := h.isTagLine.insert ht
  rw [h.span_move]
  refine ⟨h.before_eq, ?_, ?_, hline, h.isTagLine.segments_exchange hline ?_ h.lines⟩
  · have hwhole : slice? t 0 (byteLength t) = some t :=
      slice?_eq_some_iff.2 ⟨[], [], by simp, rfl, rfl⟩
    have hbehind :=
      slice?_append t v (Nat.zero_le (byteLength t)) (j := span.stop - 2 - byteLength u)
    rw [hwhole, Option.bind_some, h.behind_eq, Option.map_some] at hbehind
    have hstop : span.stop + byteLength t - 2 - byteLength u =
        byteLength t + (span.stop - 2 - byteLength u) := by omega
    dsimp only
    rw [hstop, hbehind]
    simp
  · dsimp only
    omega
  · intro hrest
    simp [ht.noFeed, hrest]

omit h in
/-- The site without a text that stands at the place. -/
theorem erase {u v : List Char} {span : Span}
    (h : IsTagSite u (t ++ v) (span.move (shiftFrom (byteLength u) (byteLength t))) front margin
      name (t ++ rest) ending behind)
    (hboundary : ∀ c, rest.head? = some c → isTagChar c = false) :
    IsTagSite u v span front margin name rest ending behind := by
  have hstart := h.start_lt
  have hstop := h.stop
  have hbehind := h.behind_eq
  dsimp only [Span.move] at hstart hstop hbehind
  have hfront : span.start < byteLength u := shiftFrom_lt_iff.1
    (by omega : shiftFrom (byteLength u) (byteLength t) span.start < byteLength u)
  have hspan := shiftFrom_of_lt (k := byteLength t) hfront
  have hle : byteLength u ≤ span.stop := Nat.not_lt.1 fun hlt => by
    have := shiftFrom_lt_iff (k := byteLength t).2 hlt
    omega
  rw [shiftFrom_of_le hle] at hstop hbehind
  obtain ⟨a, b, hv, ha, hbytes⟩ := slice?_eq_some_iff.1 hbehind
  obtain rfl := eq_nil_of_byteLength_eq_zero ha
  simp only [List.nil_append, List.append_assoc, List.append_cancel_left_eq] at hv hbytes
  simp only [byteLength_append] at hbytes
  have hrest : slice? v 0 (span.stop - 2 - byteLength u) =
      some (rest ++ ending ++ behind.flatten) := by
    refine slice?_eq_some_iff.2 ⟨[], b, by simp [hv], rfl, ?_⟩
    simp only [List.nil_append, byteLength_append]
    omega
  have hline := h.isTagLine.exchange hboundary fun c hc => h.isTagLine.last c <| by
    rw [List.getLast?_append, hc, Option.some_or]
  refine ⟨?_, hrest, by omega, hline, h.isTagLine.segments_exchange hline (fun hnot hmem => ?_)
    h.lines⟩
  · have hbefore := h.before_eq
    dsimp only [Span.move] at hbefore
    rwa [hspan] at hbefore
  · exact hnot (List.mem_append_right t hmem)

/-- What is read up to the tag and with it. -/
theorem takeLines_inner :
    ({} : Draft).takeLines (span.start + 3) (segments (inner (u ++ v) span)) =
      (let o := span.start + 3 + byteLength front.flatten
       let a := o + byteLength margin
       let d := ({} : Draft).takeLines (span.start + 3) front
       ({ d with tags :=
          ⟨name, trim rest, ⟨a, a + byteLength (trimEnd ('@' :: name ++ rest))⟩⟩ :: d.tags } :
          Draft).takeLines (byteLength u + byteLength (rest ++ ending)) behind) := by
  have hbytes := h.byteLength_eq
  rw [h.segments_inner, Draft.takeLines_append, Draft.takeLines, h.isTagLine.takeLine]
  dsimp only
  congr 1
  rw [hbytes]
  simp only [byteLength_append]
  omega

/-- The comment around the place says the same, except for the text of the tag. -/
theorem moved_parse (ht : IsInsertable t rest) :
    (parse (u ++ v) span).Moved (shiftFrom (byteLength u) (byteLength t))
      (span.start + 3 + byteLength front.flatten + byteLength margin)
      (parse (u ++ t ++ v) (span.move (shiftFrom (byteLength u) (byteLength t)))) := by
  have hbytes := h.byteLength_eq
  have hmark : 0 < byteLength ('@' :: name) := by
    rw [byteLength_cons]
    exact Nat.add_pos_left (Char.utf8Size_pos '@') _
  refine DocComment.moved_parse rfl ?_
  rw [List.append_assoc, h.takeLines_inner, (h.insert ht).takeLines_inner]
  have hoffset : byteLength u + byteLength (t ++ rest ++ ending) =
      byteLength u + byteLength (rest ++ ending) + byteLength t := by
    simp only [byteLength_append]
    omega
  rw [hoffset, h.span_move]
  dsimp only
  have hwithin := (Draft.IsWithin.empty (span.start + 3)).takeLines (Nat.le_refl _) front
  generalize ({} : Draft).takeLines (span.start + 3) front = d at hwithin
  refine Draft.Moved.takeLines ?_ (Nat.le_add_right _ _) behind
  refine ⟨rfl, .cons ⟨rfl, ?_, fun hne => absurd rfl hne⟩
    (Draft.Moved.of_isWithin hwithin ?_ _ _).tags⟩
  · -- the tag ends at the place, or behind it
    have hname (c : Char) (hc : ('@' :: name).getLast? = some c) : isBlank c = false := by
      rw [List.getLast?_cons, List.getLast?_eq_some_getLast h.isTagLine.name_ne_nil] at hc
      cases hc
      exact not_isBlank_of_isTagChar
        (h.isTagLine.isTagChar _ (List.getLast_mem h.isTagLine.name_ne_nil))
    have htext (c : Char) (hc : ('@' :: name ++ t).getLast? = some c) : isBlank c = false := by
      rw [List.getLast?_append] at hc
      cases hlast : t.getLast? with
      | some x =>
        rw [hlast] at hc
        cases hc
        exact ht.last _ hlast
      | none =>
        rw [hlast, Option.none_or] at hc
        exact hname c hc
    have hbare := congrArg byteLength (trimEnd_append hname rest)
    have hput := congrArg byteLength (trimEnd_append htext rest)
    rw [List.append_assoc] at hput
    simp only [byteLength_append _ (trimEnd rest)] at hbare hput
    dsimp only [Span.move]
    rw [hbare, hput, byteLength_append, shiftFrom_of_lt (by omega), shiftFrom_of_le (by omega)]
    simp only [Span.mk.injEq, true_and]
    omega
  · omega

end IsTagSite

/-! ## The text of the tag -/

/-- Whether the tag at `a` has a text that starts with `text` and goes on with other lines. -/
def Draft.OpensWith (a : Nat) (text : List Char) (d : Draft) : Prop :=
  ∀ t ∈ d.tags, t.span.start = a →
    ∃ more, t.text = text ++ more ∧ ∀ c, more.head? = some c → c = '\n'

theorem Draft.OpensWith.takeLine {text : List Char} {d : Draft} (h : d.OpensWith a text)
    (htext : text ≠ []) (ha : a < o) (seg : List Char) : (d.takeLine o seg).OpensWith a text := by
  rcases takeLine_cases d o seg with ⟨margin, name, rest, ending, hline⟩ | heq |
    ⟨tag, earlier, line, stop, htags, -, -, heq⟩ | ⟨line, -, heq⟩
  · rw [hline.takeLine]
    refine List.forall_mem_cons.2 ⟨fun hstart => ?_, h⟩
    dsimp only at hstart
    omega
  · rwa [heq]
  · rw [OpensWith, htags, List.forall_mem_cons] at h
    rw [heq]
    refine List.forall_mem_cons.2 ⟨fun hstart => ?_, h.2⟩
    obtain ⟨more, hmore, hfeed⟩ := h.1 hstart
    have hadd : addLine tag.text line = tag.text ++ '\n' :: line :=
      if_neg (by simp [hmore, htext])
    refine ⟨more ++ '\n' :: line, by dsimp only; rw [hadd, hmore, List.append_assoc],
      fun c hc => ?_⟩
    rw [List.head?_append] at hc
    cases hhead : more.head? with
    | some x =>
      rw [hhead] at hc
      cases hc
      exact hfeed _ hhead
    | none =>
      rw [hhead] at hc
      cases hc
      rfl
  · rw [heq]
    exact h

theorem Draft.OpensWith.takeLines {text : List Char} {d : Draft} (h : d.OpensWith a text)
    (htext : text ≠ []) (ha : a < o) (segs : List (List Char)) :
    (d.takeLines o segs).OpensWith a text := by
  induction segs generalizing d o with
  | nil => exact h
  | cons seg segs ih => exact ih (h.takeLine htext ha seg) (Nat.lt_add_right _ ha)

/-- The text of the tag starts with what follows its name. -/
theorem IsTagSite.text_parse {u v : List Char} {span : Span} {front behind : List (List Char)}
    {margin name rest ending : List Char}
    (h : IsTagSite u v span front margin name rest ending behind) (hrest : trim rest ≠ [])
    {tag : DocTag} (htag : tag ∈ (parse (u ++ v) span).tags)
    (hstart : tag.span.start = span.start + 3 + byteLength front.flatten + byteLength margin) :
    ∃ more, tag.text.toList = trim rest ++ more ∧ ∀ c, more.head? = some c → c = '\n' := by
  obtain ⟨t, ht, rfl⟩ := List.mem_map.1 htag
  have hbytes := h.byteLength_eq
  have hmark : 0 < byteLength ('@' :: name) := by
    rw [byteLength_cons]
    exact Nat.add_pos_left (Char.utf8Size_pos '@') _
  have hwithin := (Draft.IsWithin.empty (span.start + 3)).takeLines (Nat.le_refl _) front
  rw [List.mem_reverse, h.takeLines_inner] at ht
  generalize ({} : Draft).takeLines (span.start + 3) front = d at hwithin ht
  have hopen : ({ d with tags := ⟨name, trim rest, ⟨span.start + 3 + byteLength front.flatten +
      byteLength margin, span.start + 3 + byteLength front.flatten + byteLength margin +
      byteLength (trimEnd ('@' :: name ++ rest))⟩⟩ :: d.tags } : Draft).OpensWith
      (span.start + 3 + byteLength front.flatten + byteLength margin) (trim rest) := by
    refine List.forall_mem_cons.2 ⟨fun _ => ⟨[], by simp, nofun⟩, fun t ht hstart => ?_⟩
    have := hwithin.start_lt t ht
    omega
  rw [String.toList_ofList]
  exact hopen.takeLines hrest (by omega) behind t ht hstart

end DocComment

end ComponentScan
