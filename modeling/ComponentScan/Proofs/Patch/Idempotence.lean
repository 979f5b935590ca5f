import ComponentScan.Proofs.FileSystem.Write
import ComponentScan.Proofs.Patch.Line
import ComponentScan.Proofs.Text.Segments
import ComponentScan.Workspace

/-!
# Patching twice

A line and its end can be told apart again after the line has been patched (`EndsLine`), and the
lines of a patched text are those of the text but for the one that was patched. So a second patch
of a file meets the line that the first one wrote, and leaves it alone exactly if white space or
nothing stood behind the tag and its argument (`writeCrossReference_again`).
-/

namespace ComponentScan

namespace Text

theorem getD_dropEnd?_singleton (c : Char) (s : List Char) :
    (dropEnd? [c] s).getD s = if s.getLast? = some c then s.dropLast else s := by
  unfold dropEnd?
  by_cases h : s.getLast? = some c
  · obtain ⟨t, rfl⟩ := List.getLast?_eq_some_iff.1 h
    simp
  · rw [if_neg h, if_neg]
    · rfl
    · rintro hs
      obtain ⟨t, rfl⟩ := List.isSuffixOf_iff_suffix.1 hs
      simp at h

end Text

namespace Patch

open Text

/-! ## Line ends -/

/-- Whether `ending` is the whole line end behind `line`. -/
def EndsLine (line ending : List Char) : Prop :=
  ending = ['\r', '\n'] ∨ ending = ['\n'] ∧ line.getLast? ≠ some '\r' ∨ ending = ['\r'] ∨
    ending = [] ∧ line.getLast? ≠ some '\n' ∧ line.getLast? ≠ some '\r'

theorem splitEnding_append {line ending : List Char} (h : EndsLine line ending) :
    splitEnding (line ++ ending) = (line, ending) := by
  unfold splitEnding
  simp only [getD_dropEnd?_singleton]
  rcases h with rfl | ⟨rfl, h⟩ | rfl | ⟨rfl, h, h'⟩
  · simp
  · simp [h]
  · simp
  · simp [h, h']

theorem endsLine_splitEnding (seg : List Char) :
    (splitEnding seg).1 ++ (splitEnding seg).2 = seg ∧
      EndsLine (splitEnding seg).1 (splitEnding seg).2 := by
  suffices h : ∃ line ending, seg = line ++ ending ∧ EndsLine line ending by
    obtain ⟨line, ending, rfl, h⟩ := h
    rw [splitEnding_append h]
    exact ⟨rfl, h⟩
  by_cases hfeed : seg.getLast? = some '\n'
  · obtain ⟨t, rfl⟩ := List.getLast?_eq_some_iff.1 hfeed
    by_cases hreturn : t.getLast? = some '\r'
    · obtain ⟨l, rfl⟩ := List.getLast?_eq_some_iff.1 hreturn
      exact ⟨l, ['\r', '\n'], by simp, .inl rfl⟩
    · exact ⟨t, ['\n'], rfl, .inr (.inl ⟨rfl, hreturn⟩)⟩
  · by_cases hreturn : seg.getLast? = some '\r'
    · obtain ⟨l, rfl⟩ := List.getLast?_eq_some_iff.1 hreturn
      exact ⟨l, ['\r'], rfl, .inr (.inr (.inl rfl))⟩
    · exact ⟨seg, [], by simp, .inr (.inr (.inr ⟨rfl, hfeed, hreturn⟩))⟩

/-- A line may be exchanged in front of its end for one that no other line end closes. -/
theorem EndsLine.exchange {line line' ending : List Char} (h : EndsLine line ending)
    (hlast : line'.getLast? = line.getLast? ∨ ∃ c, line'.getLast? = some c ∧ isBlank c = false) :
    EndsLine line' ending := by
  have key : ∀ c, isBlank c = true → line.getLast? ≠ some c → line'.getLast? ≠ some c := by
    rintro c hc hne heq
    rcases hlast with hlast | ⟨d, hd, hblank⟩
    · exact hne (hlast ▸ heq)
    · cases hd.symm.trans heq
      rw [hc] at hblank
      cases hblank
  rcases h with rfl | ⟨rfl, h⟩ | rfl | ⟨rfl, h, h'⟩
  · exact .inl rfl
  · exact .inr (.inl ⟨rfl, key _ (by decide) h⟩)
  · exact .inr (.inr (.inl rfl))
  · exact .inr (.inr (.inr ⟨rfl, key _ (by decide) h, key _ (by decide) h'⟩))

theorem EndsLine.notMem {line ending : List Char} (h : EndsLine line ending)
    (hseg : IsFedLine (line ++ ending) ∨ IsOpenLine (line ++ ending)) : '\n' ∉ line := by
  rcases hseg with ⟨l, hl, heq⟩ | hopen
  · rcases h with rfl | ⟨rfl, -⟩ | rfl | ⟨rfl, h, -⟩
    · obtain rfl : line ++ ['\r'] = l := List.append_inj_left' (by simpa using heq) rfl
      exact fun hm => hl (List.mem_append_left _ hm)
    · exact (List.append_inj_left' heq rfl) ▸ hl
    · have := congrArg List.getLast? heq
      simp at this
    · rw [List.append_nil] at heq
      simp [heq] at h
  · exact fun hm => hopen.2 (List.mem_append_left _ hm)

/-- The end of a line alone tells whether there is a feed. -/
theorem EndsLine.isFedLine_iff {line ending : List Char} (h : EndsLine line ending)
    (hline : '\n' ∉ line) : IsFedLine (line ++ ending) ↔ '\n' ∈ ending := by
  constructor
  · rintro ⟨l, -, heq⟩
    have : '\n' ∈ line ++ ending := heq ▸ List.mem_append_right l List.mem_cons_self
    exact (List.mem_append.1 this).resolve_left hline
  · intro hm
    rcases h with rfl | ⟨rfl, -⟩ | rfl | ⟨rfl, -⟩
    · exact ⟨line ++ ['\r'], by simp [hline], by simp⟩
    · exact ⟨line, hline, rfl⟩
    · exact absurd hm (by decide)
    · cases hm

/-! ## What a patch leaves on its line -/

theorem exists_eq_append_afterArgument (s : List Char) : ∃ m, s = m ++ afterArgument s := by
  rcases afterArgument_cases s with h | ⟨gap, c, word, -, -, -, -, h, -⟩
  · exact ⟨[], h.symm⟩
  · exact ⟨_, h⟩

theorem exists_eq_append_of_findTag? {tag line before after : List Char}
    (h : findTag? tag line = some (before, after)) :
    ∃ m, line = before ++ '@' :: tag ++ m ++ after := by
  obtain ⟨s, rfl, hs, -⟩ := findTag?_eq_some_iff.1 h
  obtain ⟨rest, rfl, -, rfl⟩ := afterTag?_eq_some_iff.1 hs
  obtain ⟨m, hm⟩ := exists_eq_append_afterArgument rest
  exact ⟨m, by rw [List.append_assoc, List.append_assoc, ← hm]⟩

theorem notMem_withArgument {tag arg line before after : List Char} (harg : IsArgument arg)
    (h : findTag? tag line = some (before, after)) (hline : '\n' ∉ line) :
    '\n' ∉ withArgument tag arg before after := by
  obtain ⟨m, rfl⟩ := exists_eq_append_of_findTag? h
  have hfeed : '\n' ∉ arg := fun hm => absurd (harg.notBlank _ hm) (by decide)
  simp only [withArgument, List.mem_append, List.mem_cons, not_or] at hline ⊢
  exact ⟨⟨hline.1.1, by decide, hfeed⟩, hline.2⟩

theorem getLast?_withArgument {tag arg line before after : List Char} (harg : IsArgument arg)
    (h : findTag? tag line = some (before, after)) :
    (withArgument tag arg before after).getLast? = line.getLast? ∨
      ∃ c, (withArgument tag arg before after).getLast? = some c ∧ isBlank c = false := by
  obtain ⟨m, rfl⟩ := exists_eq_append_of_findTag? h
  simp only [withArgument, List.getLast?_append]
  cases hafter : after.getLast? with
  | some c => exact .inl rfl
  | none =>
    refine .inr ⟨arg.getLast harg.nonempty, ?_, harg.notBlank _ (List.getLast_mem harg.nonempty)⟩
    rw [List.getLast?_cons, List.getLast?_eq_some_getLast harg.nonempty]
    rfl

/-! ## One line of a text -/

/-- What stands behind the first tag and its argument on a line of a text, counted from 1. -/
def behindTag? (tag : List Char) (line : Nat) (text : List Char) : Option (List Char) := do
  let seg ← (segments text)[line - 1]?
  let (_, after) ← findTag? tag (splitEnding seg).1
  return after

/-- The text with another line in the place of one, whose end stays. -/
def replaceLine (text line' : List Char) (n : Nat) (ending : List Char) : List Char :=
  ((segments text).take (n - 1)).flatten ++ line' ++ ending ++
    ((segments text).drop (n - 1 + 1)).flatten

theorem patchText?_of_findTag? {tag arg text seg before after : List Char} {n : Nat}
    (hseg : (segments text)[n - 1]? = some seg)
    (htag : findTag? tag (splitEnding seg).1 = some (before, after)) :
    patchText? tag arg n text =
      if withArgument tag arg before after = (splitEnding seg).1 then some (.unchanged, text)
      else some (.patched,
        replaceLine text (withArgument tag arg before after) n (splitEnding seg).2) := by
  have hline : patchLine (splitEnding seg).1 tag arg = some (withArgument tag arg before after) :=
    patchLine_eq_some_iff.2 ⟨before, after, htag, rfl⟩
  simp only [patchText?, patchSegment?, hseg, Option.bind_eq_bind, Option.bind_some, hline,
    flatten_segments, replaceLine]
  split <;> rfl

theorem patchText?_of_findTag?_none {tag arg text seg : List Char} {n : Nat}
    (hseg : (segments text)[n - 1]? = some seg) (htag : findTag? tag (splitEnding seg).1 = none) :
    patchText? tag arg n text = some (.tagNotFound, text) := by
  have hline : patchLine (splitEnding seg).1 tag arg = none := by simp [patchLine, htag]
  simp [patchText?, patchSegment?, hseg, hline]

theorem exists_of_patchText?_patched {tag arg text text' : List Char} {n : Nat}
    (h : patchText? tag arg n text = some (.patched, text')) :
    ∃ seg before after, (segments text)[n - 1]? = some seg ∧
      findTag? tag (splitEnding seg).1 = some (before, after) ∧
      text' = replaceLine text (withArgument tag arg before after) n (splitEnding seg).2 := by
  cases hseg : (segments text)[n - 1]? with
  | none => simp [patchText?, patchSegment?, hseg] at h
  | some seg =>
    cases htag : findTag? tag (splitEnding seg).1 with
    | none => simp [patchText?_of_findTag?_none hseg htag] at h
    | some found =>
      obtain ⟨before, after⟩ := found
      rw [patchText?_of_findTag? hseg htag] at h
      split at h
      · cases h
      · cases h
        exact ⟨seg, before, after, rfl, htag, rfl⟩

/-- The lines of a patched text: the patched one ends as it did before. -/
theorem segments_replaceLine {tag arg text seg before after : List Char} {n : Nat}
    (harg : IsArgument arg) (hseg : (segments text)[n - 1]? = some seg)
    (htag : findTag? tag (splitEnding seg).1 = some (before, after)) :
    segments (replaceLine text (withArgument tag arg before after) n (splitEnding seg).2) =
      (segments text).set (n - 1) (withArgument tag arg before after ++ (splitEnding seg).2) := by
  obtain ⟨hsplit, hends⟩ := endsLine_splitEnding seg
  have hkind := isFedLine_or_isOpenLine (List.mem_of_getElem? hseg)
  rw [← hsplit] at hkind
  have hline := hends.notMem hkind
  have hline' := notMem_withArgument harg htag hline
  have hends' := hends.exchange (getLast?_withArgument harg htag)
  rw [replaceLine, List.append_assoc (List.flatten _)]
  refine segments_set hseg (fun hfed => ?_) fun hopen => ⟨by simp [withArgument], fun hm => ?_⟩
  · rw [← hsplit, hends.isFedLine_iff hline] at hfed
    exact (hends'.isFedLine_iff hline').2 hfed
  · rcases List.mem_append.1 hm with hm | hm
    · exact hline' hm
    · exact hopen.2 (hsplit ▸ List.mem_append_right _ hm)

/-- A second patch with the same argument meets the line that the first one wrote: nothing is left
to do, or the rest of the word behind the argument goes. -/
theorem patchText?_replaceLine {tag arg text seg before after : List Char} {n : Nat}
    (hname : IsTagName tag) (harg : IsArgument arg) (hseg : (segments text)[n - 1]? = some seg)
    (htag : findTag? tag (splitEnding seg).1 = some (before, after)) {text' : List Char}
    (htext : text' = replaceLine text (withArgument tag arg before after) n (splitEnding seg).2) :
    patchText? tag arg n text' =
      if after.head?.all isBlank then some (.unchanged, text')
      else some (.patched, replaceLine text'
        (withArgument tag arg before (after.dropWhile (!isBlank ·))) n (splitEnding seg).2) := by
  have hends := (endsLine_splitEnding seg).2.exchange (getLast?_withArgument harg htag)
  have hlt : n - 1 < (segments text).length := (List.getElem?_eq_some_iff.1 hseg).1
  have hseg' : (segments text')[n - 1]? =
      some (withArgument tag arg before after ++ (splitEnding seg).2) := by
    rw [htext, segments_replaceLine harg hseg htag, List.getElem?_set_self hlt]
  have hsplit := splitEnding_append hends
  have htag' : findTag? tag (splitEnding (withArgument tag arg before after ++
      (splitEnding seg).2)).1 = some (before, after.dropWhile (!isBlank ·)) := by
    rw [hsplit]
    exact findTag?_withArgument hname harg htag
  rw [patchText?_of_findTag? hseg' htag', hsplit]
  simp only [withArgument_inj, dropWhile_not_isBlank_eq_self_iff]

end Patch

/-! ## Files -/

open Patch Text

theorem isTagName_canvas : IsTagName "canvas".toList :=
  ⟨by decide +kernel, by decide +kernel⟩

theorem readPatchable_eq_ok_iff {path content : String} {fs : FileSystem} :
    readPatchable path fs = .ok content ↔ ∃ q, fs.locate path = .ok (q, .text content) := by
  unfold readPatchable
  split <;> simp_all

/-- A file is read back as it was written. -/
theorem readPatchable_write {path content content' : String} {fs fs' : FileSystem}
    (h : readPatchable path fs = .ok content) (hw : fs.write path (.text content') = .ok fs') :
    readPatchable path fs' = .ok content' := by
  obtain ⟨q, hq⟩ := readPatchable_eq_ok_iff.1 h
  have hfile : Entry.text content ≠ .directory := nofun
  rw [FileSystem.write_of_locate hfile hq] at hw
  cases hw
  exact readPatchable_eq_ok_iff.2 ⟨q, FileSystem.locate_put_self hfile hq⟩

section

variable {config : Config} {update : CrossReferenceUpdate} {fs fs' : FileSystem}
  {location : SourceLocation} {content : String} {outcome : PatchOutcome}

theorem writeCrossReference_of_read (hl : SourceLocation.parse update.sourceLocation = .ok location)
    (hc : readPatchable (config.resolvePath location.path) fs = .ok content) :
    writeCrossReference config update fs =
      match patchText? config.crossReferenceTag.toList update.permalink.toList location.startLine
          content.toList with
      | none => .error (.lineOutOfRange (config.resolvePath location.path) location.startLine
          (lineCount content.toList))
      | some (.patched, text) =>
        match fs.write (config.resolvePath location.path) (.text (String.ofList text)) with
        | .ok fs' => .ok (.patched, fs')
        | .error problem => .error (.access (config.resolvePath location.path) problem)
      | some (outcome, _) => .ok (outcome, fs) := by
  unfold writeCrossReference
  rw [hl]
  simp only [bind, Except.bind, hc]
  rfl

theorem exists_of_writeCrossReference
    (h : writeCrossReference config update fs = .ok (outcome, fs')) :
    ∃ location content, SourceLocation.parse update.sourceLocation = .ok location ∧
      readPatchable (config.resolvePath location.path) fs = .ok content := by
  unfold writeCrossReference at h
  cases hl : SourceLocation.parse update.sourceLocation with
  | error e => simp [hl, bind, Except.bind] at h
  | ok location =>
    cases hc : readPatchable (config.resolvePath location.path) fs with
    | error e => simp [hl, hc, bind, Except.bind] at h
    | ok content => exact ⟨location, content, rfl, hc⟩

/-- What stands behind the tag and its argument on the line that an update is about. -/
def behindTag? (config : Config) (update : CrossReferenceUpdate) (fs : FileSystem) :
    Option (List Char) := do
  let location ← (SourceLocation.parse update.sourceLocation).toOption
  let content ← (readPatchable (config.resolvePath location.path) fs).toOption
  Patch.behindTag? config.crossReferenceTag.toList location.startLine content.toList

/-- A back-patch that changed a file leaves it alone when it is applied again, exactly if white
space or nothing stood behind the tag and its argument. -/
theorem writeCrossReference_again (htag : config.crossReferenceTag = "canvas")
    (hlink : parsePermalink update.permalink = some update.permalink)
    (h : writeCrossReference config update fs = .ok (.patched, fs')) :
    writeCrossReference config update fs' = .ok (.unchanged, fs') ↔
      ∃ after, behindTag? config update fs = some after ∧ after.head?.all isBlank := by
  obtain ⟨location, content, hl, hc⟩ := exists_of_writeCrossReference h
  have harg := isArgument_of_parsePermalink hlink
  rw [writeCrossReference_of_read hl hc] at h
  split at h
  · cases h
  · next text hpatch =>
    split at h
    · next fs₁ hw =>
      cases h
      obtain ⟨seg, before, after, hseg, hfind, rfl⟩ := exists_of_patchText?_patched hpatch
      have hbehind : behindTag? config update fs = some after := by
        simp [behindTag?, hl, hc, Except.toOption, Patch.behindTag?, hseg, hfind]
      have hc' := readPatchable_write hc hw
      have hname : IsTagName config.crossReferenceTag.toList := htag ▸ isTagName_canvas
      rw [writeCrossReference_of_read hl hc', String.toList_ofList,
        patchText?_replaceLine hname harg hseg hfind rfl]
      simp only [hbehind, Option.some.injEq, exists_eq_left']
      by_cases hblank : after.head?.all isBlank = true
      · simp [hblank]
      · rw [if_neg hblank]
        refine iff_of_false ?_ hblank
        dsimp only
        split <;> simp
    · cases h
  · next hne _ =>
    cases h
    exact (hne rfl).elim

end

/-- A file system with one file in the current directory. -/
def FileSystem.single (name content : String) : FileSystem :=
  FileSystem.empty.put ["workspace", name] (.text content)

/-- A colon behind the tag ends up behind the permalink, and the second patch takes it for a part of
the permalink. -/
theorem writeCrossReference_again_canvas :
    let update : CrossReferenceUpdate := ⟨"a.tsx#L1", "https://c.example/2"⟩
    let closed := FileSystem.single "a.tsx" "/** @canvas https://c.example/2 */\n"
    let colon := FileSystem.single "a.tsx" "/** @canvas https://c.example/2: see */\n"
    writeCrossReference {} update closed = .ok (.unchanged, closed) ∧
      writeCrossReference {} update colon ≠ .ok (.unchanged, colon) := by
  intro update closed colon
  constructor
  · have h : writeCrossReference {} update (FileSystem.single "a.tsx" "/** @canvas */\n") =
        .ok (.patched, closed) := by decide +kernel
    exact (writeCrossReference_again rfl (by decide +kernel) h).2
      ⟨" */".toList, by decide +kernel, by decide⟩
  · have h : writeCrossReference {} update (FileSystem.single "a.tsx" "/** @canvas: see */\n") =
        .ok (.patched, colon) := by decide +kernel
    intro hagain
    obtain ⟨after, hafter, hblank⟩ := (writeCrossReference_again rfl (by decide +kernel) h).1 hagain
    have hcolon : behindTag? {} update (FileSystem.single "a.tsx" "/** @canvas: see */\n") =
        some ": see */".toList := by decide +kernel
    cases hcolon.symm.trans hafter
    exact absurd hblank (by decide)

end ComponentScan
