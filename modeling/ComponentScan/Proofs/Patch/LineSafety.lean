import ComponentScan.Proofs.Location
import ComponentScan.Proofs.Patch.Idempotence

/-!
# A patch changes one line

What a back-patch replaces is the first place on its line that the tag pattern matches
(`IsFirstMatch`), as much of it as the pattern can take. Everything before and behind that place,
the end of the line and all other lines stay as they are, and no other outcome changes a file
(`writeCrossReference_lineSafe`).
-/

namespace ComponentScan

namespace Patch

open Text

/-! ## The tag pattern -/

/-- Whether the tag pattern matches a text in front of another one: the tag on a word boundary, or
the tag with its argument, a word that no asterisk starts. -/
inductive Matches (tag : List Char) : List Char → List Char → Prop
  | bare {after : List Char} (h : isWordBoundary ('@' :: tag).getLast? after.head?) :
    Matches tag ('@' :: tag) after
  | argument {gap word after : List Char} {c : Char} (hgap : IsGap gap) (hblank : isBlank c = false)
    (hstar : c ≠ '*') (hword : ∀ x ∈ word, isBlank x = false)
    (h : isWordBoundary ('@' :: tag).getLast? gap.head?) :
    Matches tag ('@' :: tag ++ (gap ++ c :: word)) after

/-- Whether a match is the one that a line is patched at: none starts before it, and none that
starts there is longer. -/
structure IsFirstMatch (tag before found after : List Char) : Prop where
  isMatch : Matches tag found after
  leftmost : ∀ before' found' after', before ++ found ++ after = before' ++ found' ++ after' →
    Matches tag found' after' → before.length ≤ before'.length
  longest : ∀ found' after', found ++ after = found' ++ after' →
    Matches tag found' after' → found'.length ≤ found.length

theorem matches_of_afterTag? {tag s after : List Char} (h : afterTag? tag s = some after) :
    ∃ found, s = found ++ after ∧ Matches tag found after := by
  obtain ⟨rest, rfl, hboundary, rfl⟩ := afterTag?_eq_some_iff.1 h
  rcases afterArgument_cases rest with heq | ⟨gap, c, word, hgap, hblank, hstar, hword, heq, -⟩
  · rw [heq]
    exact ⟨_, rfl, .bare hboundary⟩
  · refine ⟨'@' :: tag ++ (gap ++ c :: word), by rw [List.append_assoc, ← heq], ?_⟩
    refine .argument hgap hblank hstar hword ?_
    obtain ⟨g, gs, rfl⟩ := List.exists_cons_of_ne_nil hgap.1
    rw [heq] at hboundary
    exact hboundary

theorem length_afterArgument_le (s : List Char) : (afterArgument s).length ≤ s.length := by
  obtain ⟨m, hm⟩ := exists_eq_append_afterArgument s
  have hlength := congrArg List.length hm
  rw [List.length_append] at hlength
  omega

/-- A match is found, with at least as much of the text. -/
theorem exists_afterTag?_of_matches {tag found after : List Char} (h : Matches tag found after) :
    ∃ after', afterTag? tag (found ++ after) = some after' ∧ after'.length ≤ after.length := by
  cases h with
  | bare hboundary =>
    exact ⟨_, afterTag?_eq_some_iff.2 ⟨after, rfl, hboundary, rfl⟩, length_afterArgument_le after⟩
  | @argument gap word _ c hgap hblank hstar hword hboundary =>
    refine ⟨after.dropWhile (!isBlank ·), afterTag?_eq_some_iff.2
      ⟨gap ++ c :: (word ++ after), by simp, ?_, ?_⟩, List.length_dropWhile_le _ _⟩
    · obtain ⟨g, gs, rfl⟩ := List.exists_cons_of_ne_nil hgap.1
      exact hboundary
    · rw [afterArgument_gap hgap hblank hstar, dropWhile_not_isBlank_append hword]

/-- A tag is found where the pattern matches first. -/
theorem exists_isFirstMatch_of_findTag? {tag line before after : List Char}
    (h : findTag? tag line = some (before, after)) :
    ∃ found, line = before ++ found ++ after ∧ IsFirstMatch tag before found after := by
  obtain ⟨s, rfl, hs, hfirst⟩ := findTag?_eq_some_iff.1 h
  obtain ⟨found, rfl, hmatch⟩ := matches_of_afterTag? hs
  refine ⟨found, (List.append_assoc ..).symm, hmatch, fun before' found' after' heq hmatch' => ?_,
    fun found' after' heq hmatch' => ?_⟩
  · by_contra hlt
    obtain ⟨after'', hafter, -⟩ := exists_afterTag?_of_matches hmatch'
    rw [List.append_assoc, List.append_assoc] at heq
    rcases List.append_eq_append_iff.1 heq with ⟨q, rfl, -⟩ | ⟨q, rfl, hq⟩
    · rw [List.length_append] at hlt
      omega
    · have hne : q ≠ [] := by
        rintro rfl
        simp at hlt
      have hnone := hfirst before' q rfl hne
      rw [← hq, hafter] at hnone
      cases hnone
  · obtain ⟨after'', hafter, hle⟩ := exists_afterTag?_of_matches hmatch'
    rw [← heq, hs] at hafter
    cases hafter
    have hlength := congrArg List.length heq
    rw [List.length_append, List.length_append] at hlength
    omega

/-! ## The line of a text -/

/-- Whether `line` with its end is the line `n` of a text, counted from 1: the lines above it have
their feeds, and it lacks one only at the end of the text. -/
structure IsLine (text : List Char) (n : Nat) (above line ending below : List Char) : Prop where
  text_eq : text = above ++ line ++ ending ++ below
  above_eq : ∃ lines : List (List Char), (∀ l ∈ lines, IsFedLine l) ∧ lines.length + 1 = n ∧
    above = lines.flatten
  notMem : '\n' ∉ line
  endsLine : EndsLine line ending
  below_eq : '\n' ∉ ending → below = []

theorem isLine_of_getElem?_segments {text seg : List Char} {n : Nat}
    (h : (segments text)[n]? = some seg) :
    IsLine text (n + 1) ((segments text).take n).flatten (splitEnding seg).1 (splitEnding seg).2
      ((segments text).drop (n + 1)).flatten := by
  obtain ⟨hlt, hget⟩ := List.getElem?_eq_some_iff.1 h
  obtain ⟨hsplit, hends⟩ := endsLine_splitEnding seg
  have hkind := isFedLine_or_isOpenLine (List.mem_of_getElem? h)
  rw [← hsplit] at hkind
  have hline := hends.notMem hkind
  refine ⟨?_, ⟨(segments text).take n, fun l hl => ?_, ?_, rfl⟩, hline, hends, fun hfeed => ?_⟩
  · have hparts :
        segments text = (segments text).take n ++ seg :: (segments text).drop (n + 1) := by
      rw [← hget, List.getElem_cons_drop, List.take_append_drop]
    have htext := congrArg List.flatten hparts
    rw [flatten_segments] at htext
    rw [List.append_assoc (List.flatten _), hsplit]
    simpa using htext
  · obtain ⟨i, hi⟩ := List.mem_iff_getElem?.1 hl
    rw [List.getElem?_take] at hi
    split at hi
    · exact isFedLine_of_lt hi (by omega)
    · cases hi
  · rw [List.length_take]
    omega
  · -- A line without a feed is the last one.
    have hlast : ¬ n + 1 < (segments text).length := fun hlt => by
      have hfed := isFedLine_of_lt h hlt
      rw [← hsplit] at hfed
      exact hfeed ((hends.isFedLine_iff hline).1 hfed)
    rw [List.drop_eq_nil_of_le (by omega), List.flatten_nil]

/-- A patched text has one line that differs, and on it what the tag pattern matched first. -/
theorem exists_isLine_of_patchText?_patched {tag arg text text' : List Char} {n : Nat} (hn : 0 < n)
    (h : patchText? tag arg n text = some (.patched, text')) :
    ∃ above before found after ending below,
      IsLine text n above (before ++ found ++ after) ending below ∧
        IsFirstMatch tag before found after ∧
        text' = above ++ (before ++ '@' :: tag ++ ' ' :: arg ++ after) ++ ending ++ below := by
  obtain ⟨seg, before, after, hseg, hfind, rfl⟩ := exists_of_patchText?_patched h
  obtain ⟨found, hline, hfirst⟩ := exists_isFirstMatch_of_findTag? hfind
  obtain ⟨m, rfl⟩ : ∃ m, n = m + 1 := ⟨n - 1, by omega⟩
  have hisLine := isLine_of_getElem?_segments hseg
  rw [hline] at hisLine
  exact ⟨_, before, found, after, _, _, hisLine, hfirst, rfl⟩

end Patch

/-! ## Files -/

open Patch

variable {config : Config} {update : CrossReferenceUpdate} {fs : FileSystem}

/-- Whether a back-patch fails with an error before it writes: the location is not one, the file
cannot be read, or it has no such line. -/
inductive FailsUnwritten (config : Config) (update : CrossReferenceUpdate) (fs : FileSystem) :
    ScanError → Prop
  | location {e : ScanError} (h : SourceLocation.parse update.sourceLocation = .error e) :
    FailsUnwritten config update fs e
  | read {e : ScanError} {location : SourceLocation}
    (hl : SourceLocation.parse update.sourceLocation = .ok location)
    (h : readPatchable (config.resolvePath location.path) fs = .error e) :
    FailsUnwritten config update fs e
  | outOfRange {location : SourceLocation} {content : String}
    (hl : SourceLocation.parse update.sourceLocation = .ok location)
    (hc : readPatchable (config.resolvePath location.path) fs = .ok content)
    (h : lineCount content.toList < location.startLine) :
    FailsUnwritten config update fs (.lineOutOfRange (config.resolvePath location.path)
      location.startLine (lineCount content.toList))

/-- What a back-patch comes to after its file has been read: the write cannot fail. -/
theorem writeCrossReference_of_locate {location : SourceLocation} {content : String} {place : Place}
    (hl : SourceLocation.parse update.sourceLocation = .ok location)
    (hplace : fs.locate (config.resolvePath location.path) = .ok (place, .text content)) :
    writeCrossReference config update fs =
      match patchText? config.crossReferenceTag.toList update.permalink.toList location.startLine
          content.toList with
      | none => .error (.lineOutOfRange (config.resolvePath location.path) location.startLine
          (lineCount content.toList))
      | some (.patched, text) => .ok (.patched, fs.put place (.text (String.ofList text)))
      | some (outcome, _) => .ok (outcome, fs) := by
  rw [writeCrossReference_of_read hl (readPatchable_eq_ok_iff.2 ⟨place, hplace⟩)]
  have hfile : Entry.text content ≠ .directory := nofun
  have hwrite (text : List Char) : fs.write (config.resolvePath location.path)
      (.text (String.ofList text)) = .ok (fs.put place (.text (String.ofList text))) :=
    FileSystem.write_of_locate hfile hplace
  rcases patchText? config.crossReferenceTag.toList update.permalink.toList location.startLine
    content.toList with _ | ⟨_ | _ | _, text⟩
  · rfl
  · dsimp only
    rw [hwrite]
  · rfl
  · rfl

theorem patchText?_eq_none_iff {tag arg text : List Char} {n : Nat} (hn : 0 < n) :
    patchText? tag arg n text = none ↔ lineCount text < n := by
  cases hseg : (Text.segments text)[n - 1]? with
  | none =>
    have hlength := List.getElem?_eq_none_iff.1 hseg
    simp only [patchText?, patchSegment?, hseg, lineCount, Option.bind_eq_bind, Option.bind_none,
      true_iff]
    omega
  | some seg =>
    have hlength := (List.getElem?_eq_some_iff.1 hseg).1
    have hsome : patchText? tag arg n text ≠ none := by
      cases hfind : findTag? tag (splitEnding seg).1 with
      | none => simp [patchText?_of_findTag?_none hseg hfind]
      | some found =>
        rw [patchText?_of_findTag? hseg hfind]
        split <;> exact Option.some_ne_none _
    rw [iff_false_left hsome, lineCount]
    omega

/-- A back-patch changes its file exactly in the first match of the tag pattern on one line; without
a patch, and before an error, nothing is written. -/
theorem writeCrossReference_lineSafe (config : Config) (update : CrossReferenceUpdate)
    (fs : FileSystem) :
    (∀ fs', writeCrossReference config update fs = .ok (.patched, fs') →
      ∃ location place content above before found after ending below,
        SourceLocation.parse update.sourceLocation = .ok location ∧
        fs.locate (config.resolvePath location.path) = .ok (place, .text content) ∧
        IsLine content.toList location.startLine above (before ++ found ++ after) ending below ∧
        IsFirstMatch config.crossReferenceTag.toList before found after ∧
        fs' = fs.put place (.text (String.ofList (above ++ (before ++
          '@' :: config.crossReferenceTag.toList ++ ' ' :: update.permalink.toList ++ after) ++
          ending ++ below)))) ∧
    (∀ outcome fs', writeCrossReference config update fs = .ok (outcome, fs') →
      outcome ≠ .patched → fs' = fs) ∧
    ∀ e, writeCrossReference config update fs = .error e → FailsUnwritten config update fs e := by
  cases hl : SourceLocation.parse update.sourceLocation with
  | error e =>
    have hfail : writeCrossReference config update fs = .error e := by
      simp [writeCrossReference, hl, bind, Except.bind]
    rw [hfail]
    refine ⟨nofun, nofun, ?_⟩
    rintro _ ⟨⟩
    exact .location hl
  | ok location =>
  cases hc : readPatchable (config.resolvePath location.path) fs with
  | error e =>
    have hfail : writeCrossReference config update fs = .error e := by
      simp [writeCrossReference, hl, hc, bind, Except.bind]
    rw [hfail]
    refine ⟨nofun, nofun, ?_⟩
    rintro _ ⟨⟩
    exact .read hl hc
  | ok content =>
    obtain ⟨place, hplace⟩ := readPatchable_eq_ok_iff.1 hc
    have hpos := SourceLocation.startLine_pos_of_parse hl
    rw [writeCrossReference_of_locate hl hplace]
    split
    · next hnone =>
      refine ⟨nofun, nofun, ?_⟩
      rintro _ ⟨⟩
      exact .outOfRange hl hc ((patchText?_eq_none_iff hpos).1 hnone)
    · next text hpatch =>
      refine ⟨?_, ?_, nofun⟩
      · rintro _ ⟨⟩
        obtain ⟨above, before, found, after, ending, below, hline, hfirst, rfl⟩ :=
          exists_isLine_of_patchText?_patched hpos hpatch
        exact ⟨location, place, content, above, before, found, after, ending, below, rfl, hplace,
          hline, hfirst, rfl⟩
      · rintro _ _ ⟨⟩ hne
        exact absurd rfl hne
    · next hne _ =>
      refine ⟨?_, ?_, nofun⟩
      · rintro _ ⟨⟩
        exact (hne rfl).elim
      · rintro _ _ ⟨⟩ -
        rfl

/-- The second line of a text with mixed line ends carries the tag, and the permalink has the form
of a replacement pattern. -/
theorem writeCrossReference_lineSafe_mixed :
    let update : CrossReferenceUpdate := ⟨"a.tsx#L2", "$1"⟩
    let fs := FileSystem.single "a.tsx" "α\r\n * é @canvas\told @canvas */\r\nβ"
    let fs' := FileSystem.single "a.tsx" "α\r\n * é @canvas $1 @canvas */\r\nβ"
    writeCrossReference {} update fs = .ok (.patched, fs') ∧
      ∃ location place content above before found after ending below,
        SourceLocation.parse update.sourceLocation = .ok location ∧
        fs.locate (({} : Config).resolvePath location.path) = .ok (place, .text content) ∧
        IsLine content.toList location.startLine above (before ++ found ++ after) ending below ∧
        IsFirstMatch "canvas".toList before found after ∧
        fs' = fs.put place (.text (String.ofList (above ++ (before ++
          '@' :: "canvas".toList ++ ' ' :: update.permalink.toList ++ after) ++
          ending ++ below))) := by
  intro update fs fs'
  have h : writeCrossReference {} update fs = .ok (.patched, fs') := by decide +kernel
  exact ⟨h, (writeCrossReference_lineSafe {} update fs).1 fs' h⟩

end ComponentScan
