import ComponentScan.Proofs.DocComment.Delimiters
import ComponentScan.Proofs.DocComment.Lines
import ComponentScan.Syntax.Program

/-!
# Cuts by offset

A text that is cut at offsets can be missed: the offsets may be reversed, past the end or inside of
a character, a step back may lead in front of the text, and a step ahead past its end, where an
offset need not have a number of 32 bits any more. Here comments are recognized and read with each
such step in view, `none` being the failure (`recognize?`, `parse?`). Recognition does not fail for
any span (`recognize?_eq`), and it answers with a comment that stands in the text
(`exists_slice?_of_spanOf?`), on which reading does not fail either (`recognition_safe`). A text that
is scanned has no more than `Program.maxBytes` bytes, so no step that is taken in it leaves the
numbers of 32 bits (`ahead?_le_maxBytes`).
-/

namespace ComponentScan.DocComment

open Text

/-- An offset `k` bytes in front of another one. -/
def back? (offset k : Nat) : Option Nat :=
  if k ≤ offset then some (offset - k) else none

/-- An offset of the text `k` bytes behind another one. Offsets are not bounded here: that the sum
has a number of 32 bits follows from the length of the text (`ahead?_le_maxBytes`). -/
def ahead? (source : List Char) (offset k : Nat) : Option Nat :=
  if offset + k ≤ byteLength source then some (offset + k) else none

/-- A step ahead does not wrap in a text that is not too long to be scanned. -/
theorem ahead?_le_maxBytes {source : List Char} {offset k stop : Nat}
    (hlength : byteLength source ≤ Syntax.Program.maxBytes) (h : ahead? source offset k = some stop) :
    offset + k = stop ∧ stop ≤ Syntax.Program.maxBytes := by
  obtain ⟨hle, hstop⟩ := Option.ite_none_right_eq_some.1 h
  cases hstop
  exact ⟨rfl, hle.trans hlength⟩

/-! ## Recognition -/

/-- `spanOf?` with every step to an offset in view. -/
def recognize? (source : List Char) (span : Span) : Option (Option Span) :=
  match slice? source span.start span.stop with
  | none => some none
  | some text =>
    if isWhole text then some (some span)
    else
      let opened :=
        if 2 ≤ span.start then
          (back? span.start 2).map fun start => slice? source start span.start == some "/*".toList
        else some false
      opened.bind fun opened =>
        let closed := slice? source span.stop (span.stop + 2) == some "*/".toList
        if opened && closed && isContent text then
          (back? span.start 2).bind fun start =>
            (ahead? source span.stop 2).map fun stop => some ⟨start, stop⟩
        else some none

/-- No span makes recognition fail. -/
theorem recognize?_eq (source : List Char) (span : Span) :
    recognize? source span = some (spanOf? source span) := by
  unfold recognize? spanOf?
  cases htext : slice? source span.start span.stop with
  | none => rfl
  | some text =>
    simp only [Option.bind_eq_bind, Option.bind_some]
    split
    · rfl
    · by_cases hstart : 2 ≤ span.start
      · have hback : back? span.start 2 = some (span.start - 2) := if_pos hstart
        rw [if_pos hstart, hback, Option.map_some, Option.bind_some, decide_eq_true hstart,
          Bool.true_and]
        split
        · next hends =>
          simp only [Bool.and_eq_true, beq_iff_eq] at hends
          -- the closing delimiter is in the text, so its end is
          have hahead : ahead? source span.stop 2 = some (span.stop + 2) :=
            if_pos (stop_le_of_slice? hends.1.2)
          rw [Option.bind_some, hahead]
          rfl
        · rfl
      · rw [if_neg hstart, decide_eq_false hstart]
        rfl

/-- A text between delimiters makes a whole comment with them. -/
theorem isWhole_of_isContent {text : List Char} (h : isContent text) :
    isWhole ("/*".toList ++ text ++ "*/".toList) := by
  simp only [isContent, Bool.and_eq_true, List.isPrefixOf_iff_prefix, Bool.not_eq_true'] at h
  obtain ⟨⟨rest, rfl⟩, hclosed⟩ := h
  have hlength : 5 ≤ byteLength ("/*".toList ++ (['*'] ++ rest) ++ "*/".toList) := by
    simp only [byteLength_append]
    change 5 ≤ 2 + (1 + byteLength rest) + 2
    omega
  have hshort : "/**/".toList.isPrefixOf ("/*".toList ++ (['*'] ++ rest) ++ "*/".toList) = false := by
    cases rest with
    | nil => rfl
    | cons c rest => simpa [List.isPrefixOf] using hclosed
  simp only [isWhole, Bool.and_eq_true, List.isPrefixOf_iff_prefix, List.isSuffixOf_iff_suffix,
    decide_eq_true_eq, Bool.not_eq_true']
  exact ⟨⟨⟨⟨rest ++ "*/".toList, by simp⟩, List.suffix_append _ _⟩, hlength⟩, hshort⟩

variable {source : List Char} {span span' : Span}

/-- A whole comment stands where one is recognized. -/
theorem exists_slice?_of_spanOf? (h : spanOf? source span = some span') :
    ∃ text, slice? source span'.start span'.stop = some text ∧ isWhole text := by
  simp only [spanOf?, Option.bind_eq_bind, Option.bind_eq_some_iff] at h
  obtain ⟨text, htext, h⟩ := h
  split at h
  · next hwhole =>
    cases h
    exact ⟨text, htext, hwhole⟩
  · obtain ⟨hends, heq⟩ := Option.ite_none_right_eq_some.1 h
    cases heq
    simp only [Bool.and_eq_true, beq_iff_eq] at hends
    obtain ⟨⟨⟨-, hopened⟩, hclosed⟩, hcontent⟩ := hends
    exact ⟨_, slice?_trans (slice?_trans hopened htext) hclosed, isWhole_of_isContent hcontent⟩

/-- What was recognized is recognized as it is. -/
theorem spanOf?_of_spanOf? (h : spanOf? source span = some span') :
    spanOf? source span' = some span' := by
  obtain ⟨text, htext, hwhole⟩ := exists_slice?_of_spanOf? h
  rw [spanOf?, htext, Option.bind_eq_bind, Option.bind_some, if_pos hwhole, Option.pure_def]

/-! ## Reading -/

/-- `splitTag?` with the name and the rest of the line cut at the end of the name. -/
def cutTag? (content : List Char) : Option (Option (List Char × List Char)) :=
  match dropStart? ['@'] content with
  | none => some none
  | some body =>
    let stop := byteLength (body.takeWhile isTagChar)
    if stop = 0 then some none
    else
      (slice? body 0 stop).bind fun name =>
        (slice? body stop (byteLength body)).map fun rest => some (name, rest)

theorem cutTag?_eq (content : List Char) : cutTag? content = some (splitTag? content) := by
  unfold cutTag? splitTag?
  cases hbody : dropStart? ['@'] content with
  | none => rfl
  | some body =>
    rw [Option.bind_eq_bind, Option.bind_some, List.span_eq_takeWhile_dropWhile]
    dsimp only
    have happend := List.takeWhile_append_dropWhile (p := isTagChar) (l := body)
    generalize body.takeWhile isTagChar = name at happend ⊢
    generalize body.dropWhile isTagChar = rest at happend ⊢
    subst happend
    cases name with
    | nil => rfl
    | cons c name =>
      have hpos : byteLength (c :: name) ≠ 0 := fun h =>
        List.cons_ne_nil _ _ (eq_nil_of_byteLength_eq_zero h)
      have hname : slice? (c :: name ++ rest) 0 (byteLength (c :: name)) = some (c :: name) :=
        slice?_eq_some_iff.2 ⟨[], rest, rfl, rfl, rfl⟩
      have hrest : slice? (c :: name ++ rest) (byteLength (c :: name))
          (byteLength (c :: name ++ rest)) = some rest :=
        slice?_eq_some_iff.2 ⟨c :: name, [], by simp, rfl, rfl⟩
      rw [if_neg hpos, hname, hrest]
      rfl

/-- What a line makes of a draft. Its content starts at byte `start`. -/
def Draft.takeContent (draft : Draft) (start : Nat) (content : List Char) :
    Option (List Char × List Char) → Draft
  | some (name, rest) =>
    let stop := start + byteLength (trimEnd content)
    { draft with tags := ⟨name, trim rest, ⟨start, stop⟩⟩ :: draft.tags }
  | none =>
    let line := trim content
    match draft.tags with
    | tag :: earlier =>
      if line.isEmpty then draft
      else
        let stop := start + byteLength (trimEnd content)
        let tag := { tag with text := addLine tag.text line, span := ⟨tag.span.start, stop⟩ }
        { draft with tags := tag :: earlier }
    | [] => { draft with description := addLine draft.description line }

/-- `takeLine` with the bytes of the margin counted and the tag cut out. -/
def Draft.takeLine? (draft : Draft) (offset : Nat) (segment : List Char) : Option Draft :=
  let line := dropLineEnd segment
  let content := (stripMargin line).2
  (back? (byteLength line) (byteLength content)).bind fun margin =>
    (cutTag? content).map (draft.takeContent (offset + margin) content)

theorem Draft.takeLine?_eq (draft : Draft) (offset : Nat) (segment : List Char) :
    draft.takeLine? offset segment = some (draft.takeLine offset segment) := by
  have hmargin := byteLength_stripMargin (dropLineEnd segment)
  have hback : back? (byteLength (dropLineEnd segment))
      (byteLength (stripMargin (dropLineEnd segment)).2) =
        some (stripMargin (dropLineEnd segment)).1 := by
    rw [back?, if_pos (by omega)]
    rfl
  unfold takeLine? takeLine
  dsimp only
  rw [hback, Option.bind_some, cutTag?_eq, Option.map_some]
  cases splitTag? (stripMargin (dropLineEnd segment)).2 <;> rfl

/-- `takeLines` as far as no line fails. -/
def Draft.takeLines? (draft : Draft) (offset : Nat) : List (List Char) → Option Draft
  | [] => some draft
  | segment :: rest =>
    (draft.takeLine? offset segment).bind fun draft =>
      draft.takeLines? (offset + byteLength segment) rest

theorem Draft.takeLines?_eq (segs : List (List Char)) (draft : Draft) (offset : Nat) :
    draft.takeLines? offset segs = some (draft.takeLines offset segs) := by
  induction segs generalizing draft offset with
  | nil => rfl
  | cons segment rest ih =>
    rw [takeLines?, takeLine?_eq, Option.bind_some, ih]
    rfl

/-- `parse` with every cut in view. -/
def parse? (source : List Char) (span : Span) : Option DocComment :=
  let start := span.start + 3
  (slice? source start (max (span.stop - 2) start)).bind fun inner =>
    (({} : Draft).takeLines? start (segments inner)).map fun draft =>
      { span
        description := String.ofList (trim draft.description)
        tags := draft.tags.reverse.map fun t =>
          ⟨String.ofList t.name, String.ofList t.text, t.span⟩ }

/-- Reading fails only where the text between the delimiters cannot be cut out. -/
theorem parse?_eq (source : List Char) (span : Span) :
    parse? source span =
      (slice? source (span.start + 3) (max (span.stop - 2) (span.start + 3))).map fun _ =>
        parse source span := by
  unfold parse? parse inner
  dsimp only
  cases slice? source (span.start + 3) (max (span.stop - 2) (span.start + 3)) with
  | none => rfl
  | some inner =>
    rw [Option.bind_some, Draft.takeLines?_eq]
    rfl

/-- Whatever the span, recognition does not fail. What it answers with is a span of the text, of
five bytes or more from `/**` to `*/`; it is its own answer, and it is read without a failure. -/
theorem recognition_safe (source : List Char) (span : Span) :
    recognize? source span = some (spanOf? source span) ∧
    ∀ span', spanOf? source span = some span' →
      span'.start + 5 ≤ span'.stop ∧ span'.stop ≤ byteLength source ∧
      (∃ text, slice? source span'.start span'.stop = some text ∧
        "/**".toList <+: text ∧ "*/".toList <:+ text) ∧
      spanOf? source span' = some span' ∧
      parse? source span' = some (parse source span') := by
  refine ⟨recognize?_eq source span, fun span' h => ?_⟩
  obtain ⟨front, behind, hsource, hstart, hstop⟩ := exists_delimiters h
  obtain ⟨text, htext, hwhole⟩ := exists_slice?_of_spanOf? h
  have hinner := slice?_inner hsource hstart (by omega)
  simp only [isWhole, Bool.and_eq_true, List.isPrefixOf_iff_prefix,
    List.isSuffixOf_iff_suffix] at hwhole
  refine ⟨by omega, stop_le_of_slice? htext, ⟨text, htext, hwhole.1.1.1, hwhole.1.1.2⟩,
    spanOf?_of_spanOf? h, ?_⟩
  rw [parse?_eq, hinner, Option.map_some]

/-- The shortest comment, between characters of two bytes, from the star that it consists of. -/
theorem recognition_safe_star :
    spanOf? "é/***/é".toList ⟨4, 5⟩ = some ⟨2, 7⟩ ∧
    recognize? "é/***/é".toList ⟨4, 5⟩ = some (spanOf? "é/***/é".toList ⟨4, 5⟩) ∧
    2 + 5 ≤ 7 ∧ 7 ≤ byteLength "é/***/é".toList ∧
    (∃ text, slice? "é/***/é".toList 2 7 = some text ∧
      "/**".toList <+: text ∧ "*/".toList <:+ text) ∧
    spanOf? "é/***/é".toList ⟨2, 7⟩ = some ⟨2, 7⟩ ∧
    parse? "é/***/é".toList ⟨2, 7⟩ = some (parse "é/***/é".toList ⟨2, 7⟩) :=
  have h : spanOf? "é/***/é".toList ⟨4, 5⟩ = some ⟨2, 7⟩ := by decide +kernel
  have hsafe := recognition_safe "é/***/é".toList ⟨4, 5⟩
  ⟨h, hsafe.1, hsafe.2 ⟨2, 7⟩ h⟩

end ComponentScan.DocComment
