import ComponentScan.Proofs.Patch.Rescan
import ComponentScan.Proofs.Scan.TagLines

/-!
# Patches in any order

A patch looks at one line of a text and changes that line alone (`patchText?_eq_map`,
`segments_modify`), so patches of different lines do not see each other. Updates of one file whose
locations start on different lines therefore come to the same in any order
(`applyUpdates_perm`).
-/

namespace ComponentScan

theorem FileSystem.put_put (fs : FileSystem) (place : Place) (e e' : Entry) :
    (fs.put place e).put place e' = fs.put place e' := by
  simp [put, List.filter_filter]

namespace Patch

open Text

/-! ## One line -/

/-- A line with its end, patched. -/
def patchedSegment (tag arg seg : List Char) : List Char :=
  match patchLine (splitEnding seg).1 tag arg with
  | none => seg
  | some patched => patched ++ (splitEnding seg).2

/-- What a patch of a line with its end comes to. -/
def segmentOutcome (tag arg seg : List Char) : PatchOutcome :=
  match patchLine (splitEnding seg).1 tag arg with
  | none => .tagNotFound
  | some patched => if patched = (splitEnding seg).1 then .unchanged else .patched

theorem patchedSegment_eq_self {tag arg seg : List Char}
    (h : segmentOutcome tag arg seg ≠ .patched) : patchedSegment tag arg seg = seg := by
  unfold segmentOutcome at h
  unfold patchedSegment
  split at h
  · rfl
  · split at h
    · next heq =>
      rw [heq]
      exact (endsLine_splitEnding seg).1
    · exact absurd rfl h

/-- A patched line has the end that it had. -/
theorem splitEnding_patchedSegment {tag arg : List Char} (harg : IsArgument arg) (seg : List Char) :
    (splitEnding (patchedSegment tag arg seg)).2 = (splitEnding seg).2 := by
  unfold patchedSegment
  split
  · rfl
  · next patched h =>
    obtain ⟨before, after, hfind, rfl⟩ := patchLine_eq_some_iff.1 h
    have hends := (endsLine_splitEnding seg).2.exchange (getLast?_withArgument harg hfind)
    rw [splitEnding_append hends]

/-! ## The lines of a text -/

theorem map_ending_modify {tag arg : List Char} (harg : IsArgument arg) (i : Nat)
    (lines : List (List Char)) :
    (lines.modify i (patchedSegment tag arg)).map (fun seg => (splitEnding seg).2) =
      lines.map fun seg => (splitEnding seg).2 := by
  refine List.ext_getElem? fun n => ?_
  rw [List.getElem?_map, List.getElem?_map, List.getElem?_modify, Option.map_eq_map, Option.map_map]
  refine Option.map_congr fun seg _ => ?_
  rw [Function.comp_apply]
  split
  · exact splitEnding_patchedSegment harg seg
  · rfl

theorem modify_eq_self {tag arg seg : List Char} {lines : List (List Char)} {i : Nat}
    (hseg : lines[i]? = some seg) (h : segmentOutcome tag arg seg ≠ .patched) :
    lines.modify i (patchedSegment tag arg) = lines := by
  obtain ⟨hlt, rfl⟩ := List.getElem?_eq_some_iff.1 hseg
  rw [List.modify_eq_set, hseg, Option.getD_some, patchedSegment_eq_self h, List.set_getElem_self]

/-- A patch comes to what it comes to on its line, and modifies that line. -/
theorem patchText?_eq_map (tag arg : List Char) (n : Nat) (text : List Char) :
    patchText? tag arg n text = (segments text)[n - 1]?.map fun seg =>
      (segmentOutcome tag arg seg,
        ((segments text).modify (n - 1) (patchedSegment tag arg)).flatten) := by
  cases hseg : (segments text)[n - 1]? with
  | none => simp [patchText?, patchSegment?, hseg]
  | some seg =>
    rw [Option.map_some]
    cases hfind : findTag? tag (splitEnding seg).1 with
    | none =>
      have houtcome : segmentOutcome tag arg seg = .tagNotFound := by
        simp [segmentOutcome, patchLine, hfind]
      rw [patchText?_of_findTag?_none hseg hfind, houtcome, modify_eq_self hseg (by simp [houtcome]),
        flatten_segments]
    | some found =>
      obtain ⟨before, after⟩ := found
      have hline : patchLine (splitEnding seg).1 tag arg = some (withArgument tag arg before after) :=
        patchLine_eq_some_iff.2 ⟨before, after, hfind, rfl⟩
      rw [patchText?_of_findTag? hseg hfind]
      split
      · next heq =>
        have houtcome : segmentOutcome tag arg seg = .unchanged := by
          simp [segmentOutcome, hline, heq]
        rw [houtcome, modify_eq_self hseg (by simp [houtcome]), flatten_segments]
      · next hne =>
        have houtcome : segmentOutcome tag arg seg = .patched := by
          simp [segmentOutcome, hline, hne]
        obtain ⟨hlt, hget⟩ := List.getElem?_eq_some_iff.1 hseg
        rw [houtcome, List.modify_eq_take_cons_drop hlt, hget]
        simp [replaceLine, patchedSegment, hline]

/-- The lines of a text that is put together from the lines of another, one of them patched. -/
theorem segments_modify {tag arg : List Char} (harg : IsArgument arg) (i : Nat) (text : List Char) :
    segments ((segments text).modify i (patchedSegment tag arg)).flatten =
      (segments text).modify i (patchedSegment tag arg) := by
  cases hseg : (segments text)[i]? with
  | none => rw [List.modify_eq_self (List.getElem?_eq_none_iff.1 hseg), flatten_segments]
  | some seg =>
    by_cases houtcome : segmentOutcome tag arg seg = .patched
    · have hpatch := patchText?_eq_map tag arg (i + 1) text
      rw [Nat.add_sub_cancel, hseg, Option.map_some, houtcome] at hpatch
      obtain ⟨seg', before, after, hseg', hfind, htext⟩ := exists_of_patchText?_patched hpatch
      rw [Nat.add_sub_cancel, hseg] at hseg'
      obtain rfl := Option.some.inj hseg'
      rw [htext, segments_replaceLine harg hseg hfind, List.modify_eq_set, hseg, Option.getD_some,
        patchedSegment, patchLine_eq_some_iff.2 ⟨before, after, hfind, rfl⟩, Nat.add_sub_cancel]
    · rw [modify_eq_self hseg houtcome, flatten_segments]

end Patch

/-! ## Files -/

open Patch Text

/-- What a back-patch comes to, and the files that it leaves: those it was given if it fails. -/
def attemptUpdate (config : Config) (fs : FileSystem) (update : CrossReferenceUpdate) :
    Except ScanError PatchOutcome × FileSystem :=
  match writeCrossReference config update fs with
  | .ok (outcome, fs) => (.ok outcome, fs)
  | .error e => (.error e, fs)

/-- Back-patches one after the other: what each of them comes to, and the files that they leave. -/
def applyUpdates (config : Config) :
    List CrossReferenceUpdate → FileSystem → List (Except ScanError PatchOutcome) × FileSystem
  | [], fs => ([], fs)
  | update :: rest, fs =>
    let (outcome, fs) := attemptUpdate config fs update
    let (outcomes, fs) := applyUpdates config rest fs
    (outcome :: outcomes, fs)

/-- Whether two updates start on different lines. -/
def CrossReferenceUpdate.IsApart (u u' : CrossReferenceUpdate) : Prop :=
  ∀ l l', SourceLocation.parse u.sourceLocation = .ok l →
    SourceLocation.parse u'.sourceLocation = .ok l' → l.startLine ≠ l'.startLine

/-- Whether updates are about different lines of one file and write permalinks that are read back. -/
structure IsBatch (config : Config) (fs : FileSystem) (place : Place) (content : String)
    (updates : List CrossReferenceUpdate) : Prop where
  file : ∀ u ∈ updates, ∀ l, SourceLocation.parse u.sourceLocation = .ok l →
    fs.locate (config.resolvePath l.path) = .ok (place, .text content)
  link : ∀ u ∈ updates, parsePermalink u.permalink = some u.permalink
  apart : updates.Pairwise CrossReferenceUpdate.IsApart

section

variable {config : Config} {fs : FileSystem} {place : Place} {content : String}
  {u v : CrossReferenceUpdate} {l : SourceLocation}

theorem attemptUpdate_of_error {e : ScanError} (h : SourceLocation.parse u.sourceLocation = .error e)
    (fs : FileSystem) : attemptUpdate config fs u = (.error e, fs) := by
  simp [attemptUpdate, writeCrossReference, h, bind, Except.bind]

theorem exists_location_of_patched (h : (attemptUpdate config fs u).1 = .ok .patched) :
    ∃ l, SourceLocation.parse u.sourceLocation = .ok l := by
  cases hl : SourceLocation.parse u.sourceLocation with
  | error e =>
    rw [attemptUpdate_of_error hl] at h
    cases h
  | ok l => exact ⟨l, rfl⟩

/-- The content of a file after an update at a location of it. -/
def patchedContent (config : Config) (u : CrossReferenceUpdate) (l : SourceLocation)
    (content : String) : String :=
  String.ofList ((segments content.toList).modify (l.startLine - 1)
    (patchedSegment config.crossReferenceTag.toList u.permalink.toList)).flatten

/-- The line of an update decides what it comes to. -/
theorem attemptUpdate_of_locate (hl : SourceLocation.parse u.sourceLocation = .ok l)
    (hplace : fs.locate (config.resolvePath l.path) = .ok (place, .text content)) :
    attemptUpdate config fs u =
      match (segments content.toList)[l.startLine - 1]? with
      | none => (.error (.lineOutOfRange (config.resolvePath l.path) l.startLine
          (segments content.toList).length), fs)
      | some seg =>
        let outcome := segmentOutcome config.crossReferenceTag.toList u.permalink.toList seg
        (.ok outcome, if outcome = .patched then
          fs.put place (.text (patchedContent config u l content)) else fs) := by
  unfold attemptUpdate
  rw [writeCrossReference_of_locate hl hplace, patchText?_eq_map]
  cases (segments content.toList)[l.startLine - 1]? with
  | none => rfl
  | some seg =>
    rw [Option.map_some]
    dsimp only
    cases segmentOutcome config.crossReferenceTag.toList u.permalink.toList seg <;> rfl

theorem attemptUpdate_fst_of_locate {outcome : PatchOutcome}
    (hl : SourceLocation.parse u.sourceLocation = .ok l)
    (hplace : fs.locate (config.resolvePath l.path) = .ok (place, .text content))
    (h : (segments content.toList)[l.startLine - 1]?.map (segmentOutcome
      config.crossReferenceTag.toList u.permalink.toList) = some outcome) :
    (attemptUpdate config fs u).1 = .ok outcome := by
  obtain ⟨seg, hseg, rfl⟩ := Option.map_eq_some_iff.1 h
  rw [attemptUpdate_of_locate hl hplace, hseg]

/-- Files change only where an update is a patch. -/
theorem attemptUpdate_of_ne (h : (attemptUpdate config fs u).1 ≠ .ok .patched) :
    (attemptUpdate config fs u).2 = fs := by
  unfold attemptUpdate at h ⊢
  cases hwrite : writeCrossReference config u fs with
  | error e => rfl
  | ok result =>
    obtain ⟨outcome, fs'⟩ := result
    rw [hwrite] at h
    refine (writeCrossReference_lineSafe config u fs).2.1 outcome fs' hwrite fun heq => h ?_
    rw [heq]

theorem attemptUpdate_of_patched (hl : SourceLocation.parse u.sourceLocation = .ok l)
    (hplace : fs.locate (config.resolvePath l.path) = .ok (place, .text content))
    (h : (attemptUpdate config fs u).1 = .ok .patched) :
    (attemptUpdate config fs u).2 = fs.put place (.text (patchedContent config u l content)) := by
  rw [attemptUpdate_of_locate hl hplace] at h ⊢
  cases hseg : (segments content.toList)[l.startLine - 1]? with
  | none =>
    rw [hseg] at h
    cases h
  | some seg =>
    rw [hseg] at h
    exact if_pos (Except.ok.inj h)

/-- An update comes to the same in two texts that agree on its line and in the number of lines. -/
theorem attemptUpdate_fst_congr {fs' : FileSystem} {place' : Place} {content' : String}
    (hl : SourceLocation.parse u.sourceLocation = .ok l)
    (hplace : fs.locate (config.resolvePath l.path) = .ok (place, .text content))
    (hplace' : fs'.locate (config.resolvePath l.path) = .ok (place', .text content'))
    (hline : (segments content'.toList)[l.startLine - 1]? =
      (segments content.toList)[l.startLine - 1]?)
    (hlength : (segments content'.toList).length = (segments content.toList).length) :
    (attemptUpdate config fs' u).1 = (attemptUpdate config fs u).1 := by
  rw [attemptUpdate_of_locate hl hplace, attemptUpdate_of_locate hl hplace', hline, hlength]
  cases (segments content.toList)[l.startLine - 1]? <;> rfl

theorem segments_patchedContent (config : Config)
    (hlink : parsePermalink u.permalink = some u.permalink)
    (l : SourceLocation) (content : String) :
    segments (patchedContent config u l content).toList =
      (segments content.toList).modify (l.startLine - 1)
        (patchedSegment config.crossReferenceTag.toList u.permalink.toList) := by
  rw [patchedContent, String.toList_ofList]
  exact segments_modify (isArgument_of_parsePermalink hlink) _ _

end

namespace IsBatch

variable {config : Config} {fs : FileSystem} {place : Place} {content : String}
  {u v : CrossReferenceUpdate} {updates : List CrossReferenceUpdate}

theorem index_ne (h : IsBatch config fs place content [u, v]) {l l' : SourceLocation}
    (hl : SourceLocation.parse u.sourceLocation = .ok l)
    (hl' : SourceLocation.parse v.sourceLocation = .ok l') : l.startLine - 1 ≠ l'.startLine - 1 := by
  have hne := List.rel_of_pairwise_cons h.apart List.mem_cons_self l l' hl hl'
  have hpos := SourceLocation.startLine_pos_of_parse hl
  have hpos' := SourceLocation.startLine_pos_of_parse hl'
  omega

/-- An update comes to the same after an update of another line. -/
theorem attemptUpdate_fst (h : IsBatch config fs place content [u, v]) :
    (attemptUpdate config (attemptUpdate config fs u).2 v).1 = (attemptUpdate config fs v).1 := by
  cases hl' : SourceLocation.parse v.sourceLocation with
  | error e => rw [attemptUpdate_of_error hl', attemptUpdate_of_error hl']
  | ok l' =>
  by_cases hpatched : (attemptUpdate config fs u).1 = .ok .patched
  · obtain ⟨l, hl⟩ := exists_location_of_patched hpatched
    have hplace := h.file u List.mem_cons_self l hl
    have hplace' := h.file v (List.mem_cons_of_mem u List.mem_cons_self) l' hl'
    have hentry : Entry.text content ≠ .directory := nofun
    have hsegments := segments_patchedContent config (h.link u List.mem_cons_self) l content
    rw [attemptUpdate_of_patched hl hplace hpatched]
    refine attemptUpdate_fst_congr hl' hplace' (FileSystem.locate_put_self hentry hplace') ?_ ?_
    · rw [hsegments, List.getElem?_modify_ne _ _ (h.index_ne hl hl')]
    · rw [hsegments, List.length_modify]
  · rw [attemptUpdate_of_ne hpatched]

theorem of_perm {updates' : List CrossReferenceUpdate} (h : IsBatch config fs place content updates)
    (hperm : updates'.Perm updates) : IsBatch config fs place content updates' where
  file u hu := h.file u (hperm.mem_iff.1 hu)
  link u hu := h.link u (hperm.mem_iff.1 hu)
  apart := (hperm.pairwise_iff fun happart l l' hl hl' => (happart l' l hl' hl).symm).2 h.apart

/-- Two patches of a file, one after the other. -/
theorem attemptUpdate_snd_of_patched (h : IsBatch config fs place content [u, v])
    {l l' : SourceLocation} (hl : SourceLocation.parse u.sourceLocation = .ok l)
    (hl' : SourceLocation.parse v.sourceLocation = .ok l')
    (hpatched : (attemptUpdate config fs u).1 = .ok .patched)
    (hpatched' : (attemptUpdate config fs v).1 = .ok .patched) :
    (attemptUpdate config (attemptUpdate config fs u).2 v).2 =
      fs.put place (.text (patchedContent config v l' (patchedContent config u l content))) := by
  have hentry : Entry.text content ≠ .directory := nofun
  have hplace' := h.file v (List.mem_cons_of_mem u List.mem_cons_self) l' hl'
  have hv := h.attemptUpdate_fst.trans hpatched'
  rw [attemptUpdate_of_patched hl (h.file u List.mem_cons_self l hl) hpatched] at hv ⊢
  rw [attemptUpdate_of_patched hl' (FileSystem.locate_put_self hentry hplace') hv,
    FileSystem.put_put]

theorem patchedContent_comm (h : IsBatch config fs place content [u, v]) {l l' : SourceLocation}
    (hl : SourceLocation.parse u.sourceLocation = .ok l)
    (hl' : SourceLocation.parse v.sourceLocation = .ok l') :
    patchedContent config v l' (patchedContent config u l content) =
      patchedContent config u l (patchedContent config v l' content) := by
  have hu := segments_patchedContent config (h.link u List.mem_cons_self) l content
  have hv := segments_patchedContent config
    (h.link v (List.mem_cons_of_mem u List.mem_cons_self)) l' content
  rw [patchedContent, patchedContent.eq_1 config u l (patchedContent config v l' content), hu, hv,
    List.modify_modify_ne _ _ _ (h.index_ne hl hl')]

/-- Two updates of different lines leave the same files in either order. -/
theorem attemptUpdate_snd (h : IsBatch config fs place content [u, v]) :
    (attemptUpdate config (attemptUpdate config fs u).2 v).2 =
      (attemptUpdate config (attemptUpdate config fs v).2 u).2 := by
  have h' := h.of_perm (.swap u v [])
  by_cases hpatched : (attemptUpdate config fs u).1 = .ok .patched
  · by_cases hpatched' : (attemptUpdate config fs v).1 = .ok .patched
    · obtain ⟨l, hl⟩ := exists_location_of_patched hpatched
      obtain ⟨l', hl'⟩ := exists_location_of_patched hpatched'
      rw [h.attemptUpdate_snd_of_patched hl hl' hpatched hpatched',
        h'.attemptUpdate_snd_of_patched hl' hl hpatched' hpatched, h.patchedContent_comm hl hl']
    · rw [attemptUpdate_of_ne hpatched',
        attemptUpdate_of_ne fun heq => hpatched' (h.attemptUpdate_fst.symm.trans heq)]
  · rw [attemptUpdate_of_ne hpatched,
      attemptUpdate_of_ne fun heq => hpatched (h'.attemptUpdate_fst.symm.trans heq)]

/-! ### One after the other -/

/-- Two updates of a batch. -/
theorem pair (h : IsBatch config fs place content (u :: updates)) (hv : v ∈ updates) :
    IsBatch config fs place content [u, v] where
  file := List.forall_mem_cons.2 ⟨h.file u List.mem_cons_self,
    List.forall_mem_singleton.2 (h.file v (List.mem_cons_of_mem u hv))⟩
  link := List.forall_mem_cons.2 ⟨h.link u List.mem_cons_self,
    List.forall_mem_singleton.2 (h.link v (List.mem_cons_of_mem u hv))⟩
  apart := List.pairwise_pair.2 (List.rel_of_pairwise_cons h.apart hv)

end IsBatch

/-- Whether files differ in one text at most, which keeps all its line ends, and its lines but for
some that are counted from 1. -/
structure KeepsLines (fs fs' : FileSystem) (place : Place) (content content' : String)
    (touched : Nat → Prop) : Prop where
  files : fs' = fs ∧ content' = content ∨ fs' = fs.put place (.text content')
  ends : (segments content'.toList).map (fun seg => (splitEnding seg).2) =
    (segments content.toList).map fun seg => (splitEnding seg).2
  others : ∀ n, ¬ touched (n + 1) →
    (segments content'.toList)[n]? = (segments content.toList)[n]?

namespace KeepsLines

variable {fs fs' fs'' : FileSystem} {place : Place} {content content' content'' : String}
  {touched touched' : Nat → Prop}

theorem refl (fs : FileSystem) (place : Place) (content : String) (touched : Nat → Prop) :
    KeepsLines fs fs place content content touched :=
  ⟨.inl ⟨rfl, rfl⟩, rfl, fun _ _ => rfl⟩

theorem trans (h : KeepsLines fs fs' place content content' touched)
    (h' : KeepsLines fs' fs'' place content' content'' touched') :
    KeepsLines fs fs'' place content content'' fun n => touched n ∨ touched' n where
  files := by
    rcases h'.files with ⟨rfl, rfl⟩ | rfl
    · exact h.files
    · rcases h.files with ⟨rfl, rfl⟩ | rfl
      · exact .inr rfl
      · exact .inr (FileSystem.put_put ..)
  ends := h'.ends.trans h.ends
  others n hn := (h'.others n fun htouched => hn (.inr htouched)).trans
    (h.others n fun htouched => hn (.inl htouched))

theorem locate_eq (h : KeepsLines fs fs' place content content' touched) {path : String}
    (hplace : fs.locate path = .ok (place, .text content)) :
    fs'.locate path = .ok (place, .text content') := by
  rcases h.files with ⟨rfl, rfl⟩ | rfl
  · exact hplace
  · have hentry : Entry.text content ≠ .directory := nofun
    exact FileSystem.locate_put_self hentry hplace

end KeepsLines

namespace IsBatch

variable {config : Config} {fs : FileSystem} {place : Place} {content : String}
  {u v : CrossReferenceUpdate} {updates updates' : List CrossReferenceUpdate}

/-- After one update the others are a batch for what it leaves. -/
theorem exists_tail (h : IsBatch config fs place content (u :: updates)) :
    ∃ content', KeepsLines fs (attemptUpdate config fs u).2 place content content'
        (fun n => ∃ l, SourceLocation.parse u.sourceLocation = .ok l ∧ l.startLine = n) ∧
      IsBatch config (attemptUpdate config fs u).2 place content' updates := by
  suffices hkeeps : ∃ content', KeepsLines fs (attemptUpdate config fs u).2 place content content'
      fun n => ∃ l, SourceLocation.parse u.sourceLocation = .ok l ∧ l.startLine = n by
    obtain ⟨content', hkeeps⟩ := hkeeps
    exact ⟨content', hkeeps,
      fun v hv l hl => hkeeps.locate_eq (h.file v (List.mem_cons_of_mem u hv) l hl),
      fun v hv => h.link v (List.mem_cons_of_mem u hv), h.apart.of_cons⟩
  by_cases hpatched : (attemptUpdate config fs u).1 = .ok .patched
  · obtain ⟨l, hl⟩ := exists_location_of_patched hpatched
    have hlink := h.link u List.mem_cons_self
    rw [attemptUpdate_of_patched hl (h.file u List.mem_cons_self l hl) hpatched]
    refine ⟨_, .inr rfl, ?_, fun n hn => ?_⟩
    · rw [segments_patchedContent _ hlink, map_ending_modify (isArgument_of_parsePermalink hlink)]
    · have hpos := SourceLocation.startLine_pos_of_parse hl
      have hne : l.startLine - 1 ≠ n := fun heq => hn ⟨l, hl, by omega⟩
      rw [segments_patchedContent _ hlink, List.getElem?_modify_ne _ _ hne]
  · rw [attemptUpdate_of_ne hpatched]
    exact ⟨content, .refl ..⟩

/-- Each update of a batch comes to what it comes to alone. -/
theorem applyUpdates_fst (h : IsBatch config fs place content updates) :
    (applyUpdates config updates fs).1 = updates.map fun u => (attemptUpdate config fs u).1 := by
  induction updates generalizing fs content with
  | nil => rfl
  | cons u updates ih =>
    obtain ⟨content', -, htail⟩ := h.exists_tail
    rw [applyUpdates, List.map_cons, ← List.map_congr_left fun v hv => (h.pair hv).attemptUpdate_fst,
      ← ih htail]

theorem applyUpdates_snd_perm (hperm : updates.Perm updates')
    (h : IsBatch config fs place content updates) :
    (applyUpdates config updates fs).2 = (applyUpdates config updates' fs).2 := by
  induction hperm generalizing fs content with
  | nil => rfl
  | cons u _ ih =>
    obtain ⟨content', -, htail⟩ := h.exists_tail
    exact ih htail
  | swap u v updates =>
    have hswap := (h.pair List.mem_cons_self).attemptUpdate_snd
    simp only [applyUpdates, hswap]
  | trans hperm _ ih ih' => exact (ih h).trans (ih' (h.of_perm hperm.symm))

/-- What the updates of a batch leave differs only in their lines. -/
theorem exists_keepsLines (h : IsBatch config fs place content updates) :
    ∃ content', KeepsLines fs (applyUpdates config updates fs).2 place content content' fun n =>
      ∃ u ∈ updates, ∃ l, SourceLocation.parse u.sourceLocation = .ok l ∧ l.startLine = n := by
  induction updates generalizing fs content with
  | nil => exact ⟨content, .refl ..⟩
  | cons u updates ih =>
    obtain ⟨content', hkeeps, htail⟩ := h.exists_tail
    obtain ⟨content'', hkeeps'⟩ := ih htail
    refine ⟨content'', ?_⟩
    simp only [List.mem_cons, exists_eq_or_imp]
    exact hkeeps.trans hkeeps'

end IsBatch

/-! ## Updates for one scan -/

/-- Whether an update is for the cross-reference of an annotation, at either of its locations. -/
def CrossReferenceUpdate.IsFor (u : CrossReferenceUpdate) (a : Annotation) : Prop :=
  ∃ c, a.crossReference = some c ∧
    (u.sourceLocation = a.sourceLocation.text ∨ u.sourceLocation = c.sourceLocation.text)

section

variable {config : Config} {path source : String} {repo : RepoMetadata} {report : ScanReport}

/-- Where the cross-reference of an annotation starts. -/
structure Annotation.StartsAt (a : Annotation) (path : String) (c : CrossReference) (n : Nat) :
    Prop where
  annotation : a.sourceLocation.IsOrdered ∧ a.sourceLocation.path = path ∧
    a.sourceLocation.startLine = n
  crossReference : c.sourceLocation.IsOrdered ∧ c.sourceLocation.path = path ∧
    c.sourceLocation.startLine = n

/-- The cross-references of a scan are in its file and start on different lines. -/
theorem pairwise_startLine_scanSource (h : scanSource config path source repo = .ok report) :
    (∀ a ∈ report.annotations, ∀ c, a.crossReference = some c →
      a.StartsAt path c a.sourceLocation.startLine) ∧
    report.annotations.Pairwise fun a a' => a.crossReference ≠ none → a'.crossReference ≠ none →
      a.sourceLocation.startLine ≠ a'.sourceLocation.startLine := by
  obtain ⟨p, events, hp, hevents, hreport⟩ := exists_of_scanSource h
  have hannotations : report.annotations.map (some ∘ Annotation.unkeyed) =
      ((Session.ofProgram path source.toList p).annotationTags config).map
        (·.annotation? config (Session.ofProgram path source.toList p)) := by
    rw [← Session.annotations_eq_map, ← unkeyed_annotations_reportOf hevents path repo, List.map_map,
      hreport]
  have hstart {x : PlacedTag} {a : Annotation} {c : CrossReference}
      (hx : x.annotation? config (Session.ofProgram path source.toList p) = some a)
      (hc : a.crossReference = some c) : x.doc.description ≠ "" ∧
      a.StartsAt path c ((LineIndex.ofText source.toList).lineOf x.tag.span.start) := by
    obtain ⟨-, hdescription, ha, hc⟩ := PlacedTag.of_annotation? hx hc
    refine ⟨hdescription, ?_, ?_⟩
    · rw [ha]
      exact ⟨SourceLocation.isOrdered_ofLines _ _ _, rfl, rfl⟩
    · rw [hc]
      exact ⟨SourceLocation.isOrdered_ofLines _ _ _, rfl, rfl⟩
  constructor
  · intro a ha c hc
    have hmem : some a.unkeyed ∈ report.annotations.map (some ∘ Annotation.unkeyed) :=
      List.mem_map_of_mem ha
    rw [hannotations] at hmem
    obtain ⟨x, -, hx⟩ := List.mem_map.1 hmem
    obtain ⟨-, hline⟩ := hstart hx hc
    have hn := hline.annotation.2.2
    exact hn ▸ ⟨hline.annotation, hline.crossReference⟩
  · have happart := Session.pairwise_lineOf path source.toList
      (Syntax.Program.isReadFrom_of_parse hp).ordered config
    have hlines : (report.annotations.map (some ∘ Annotation.unkeyed)).Pairwise fun x x' =>
        ∀ a ∈ x, ∀ a' ∈ x', a.crossReference ≠ none → a'.crossReference ≠ none →
          a.sourceLocation.startLine ≠ a'.sourceLocation.startLine := by
      rw [hannotations, List.pairwise_map]
      refine happart.imp fun {x x'} hne a ha a' ha' hc hc' => ?_
      obtain ⟨c, hc⟩ := Option.ne_none_iff_exists'.1 hc
      obtain ⟨c', hc'⟩ := Option.ne_none_iff_exists'.1 hc'
      obtain ⟨hdescription, hline⟩ := hstart ha hc
      obtain ⟨hdescription', hline'⟩ := hstart ha' hc'
      rw [hline.annotation.2.2, hline'.annotation.2.2]
      exact hne hdescription hdescription'
    exact (List.pairwise_map.1 hlines).imp fun {a a'} hne => hne a.unkeyed rfl a'.unkeyed rfl

end

namespace CrossReferenceUpdate.IsFor

variable {u u' : CrossReferenceUpdate} {a : Annotation} {path : String} {n : Nat}
  {updates : List CrossReferenceUpdate} {annotations : List Annotation}

/-- An update is about the line where the cross-reference starts. -/
theorem location_eq (h : u.IsFor a)
    (hstart : ∀ c, a.crossReference = some c → a.StartsAt path c n) {l : SourceLocation}
    (hl : SourceLocation.parse u.sourceLocation = .ok l) : l.path = path ∧ l.startLine = n := by
  obtain ⟨c, hc, htext⟩ := h
  obtain ⟨⟨hordered, hlocation⟩, hordered', hlocation'⟩ := hstart c hc
  rcases htext with htext | htext
  · rw [htext] at hl
    obtain ⟨-, rfl⟩ := (SourceLocation.parse_text_eq_ok_iff hordered l).1 hl
    exact hlocation
  · rw [htext] at hl
    obtain ⟨-, rfl⟩ := (SourceLocation.parse_text_eq_ok_iff hordered' l).1 hl
    exact hlocation'

theorem exists_mem (h : List.SublistForall₂ IsFor updates annotations) :
    ∀ u ∈ updates, ∃ a ∈ annotations, u.IsFor a := by
  induction h with
  | nil => exact nofun
  | cons hfirst _ ih =>
    refine List.forall_mem_cons.2 ⟨⟨_, List.mem_cons_self, hfirst⟩, fun u hu => ?_⟩
    obtain ⟨a, ha, hfor⟩ := ih u hu
    exact ⟨a, List.mem_cons_of_mem _ ha, hfor⟩
  | cons_right _ ih =>
    intro u hu
    obtain ⟨a, ha, hfor⟩ := ih u hu
    exact ⟨a, List.mem_cons_of_mem _ ha, hfor⟩

theorem crossReference_ne_none (h : u.IsFor a) : a.crossReference ≠ none := by
  obtain ⟨c, hc, -⟩ := h
  simp [hc]

/-- Updates for different cross-references on different lines are about different lines. -/
theorem pairwise_isApart (h : List.SublistForall₂ IsFor updates annotations)
    (hstart : ∀ a ∈ annotations, ∀ c, a.crossReference = some c →
      a.StartsAt path c a.sourceLocation.startLine)
    (hlines : annotations.Pairwise fun a a' => a.crossReference ≠ none → a'.crossReference ≠ none →
      a.sourceLocation.startLine ≠ a'.sourceLocation.startLine) :
    updates.Pairwise IsApart := by
  induction h with
  | nil => exact .nil
  | @cons u a updates annotations hfirst hrest ih =>
    obtain ⟨hstartFirst, hstart⟩ := List.forall_mem_cons.1 hstart
    obtain ⟨hlinesFirst, hlines⟩ := List.pairwise_cons.1 hlines
    refine List.pairwise_cons.2 ⟨fun u' hu' l l' hl hl' => ?_, ih hstart hlines⟩
    obtain ⟨a', ha', hfor⟩ := exists_mem hrest u' hu'
    rw [(hfirst.location_eq hstartFirst hl).2, (hfor.location_eq (hstart a' ha') hl').2]
    exact hlinesFirst a' ha' hfirst.crossReference_ne_none hfor.crossReference_ne_none
  | cons_right _ ih => exact ih (List.forall_mem_cons.1 hstart).2 (List.pairwise_cons.1 hlines).2

end CrossReferenceUpdate.IsFor

/-- Updates of one text that start on different lines come to the same and leave the same files in
any order, and only their lines change. Updates for different cross-references of one scan are such
updates. -/
theorem applyUpdates_perm (config : Config) (fs : FileSystem) (place : Place) (content : String) :
    (∀ updates, IsBatch config fs place content updates → ∃ fs' content',
      (∀ order : List CrossReferenceUpdate, order.Perm updates → applyUpdates config order fs =
        (order.map fun u => (attemptUpdate config fs u).1, fs')) ∧
      lineCount content'.toList = lineCount content.toList ∧
      KeepsLines fs fs' place content content' fun n =>
        ∃ u ∈ updates, ∃ l, SourceLocation.parse u.sourceLocation = .ok l ∧ l.startLine = n) ∧
    ∀ path repo report updates, scanSource config path content repo = .ok report →
      fs.locate (config.resolvePath path) = .ok (place, .text content) →
      List.SublistForall₂ CrossReferenceUpdate.IsFor updates report.annotations →
      (∀ u ∈ updates, parsePermalink u.permalink = some u.permalink) →
      IsBatch config fs place content updates := by
  constructor
  · intro updates h
    obtain ⟨content', hkeeps⟩ := h.exists_keepsLines
    refine ⟨_, content', fun order hperm => ?_, ?_, hkeeps⟩
    · exact Prod.ext (h.of_perm hperm).applyUpdates_fst
        ((h.of_perm hperm).applyUpdates_snd_perm hperm)
    · simpa [lineCount] using congrArg List.length hkeeps.ends
  · intro path repo report updates hscan hfile hupdates hlink
    obtain ⟨hstart, hlines⟩ := pairwise_startLine_scanSource hscan
    refine ⟨fun u hu l hl => ?_, hlink,
      CrossReferenceUpdate.IsFor.pairwise_isApart hupdates hstart hlines⟩
    obtain ⟨a, ha, hfor⟩ := CrossReferenceUpdate.IsFor.exists_mem hupdates u hu
    rw [(hfor.location_eq (hstart a ha) hl).1]
    exact hfile

/-- A file with two cross-references, the second one with a permalink and other line ends. -/
def twoLinks : String :=
  "/** Lists.\n * @canvas\n */\nexport function List() \x7b return <Item/>; \x7d\n" ++
    "/** A row.\r\n * @canvas https://c.example/1 */\r\nexport const Row = () => <List/>;"

def twoLinksReport : ScanReport :=
  ((scanSource {} "a.tsx" twoLinks .placeholder).toOption).getD default

theorem applyUpdates_perm_twoLinks :
    let fs := FileSystem.single "a.tsx" twoLinks
    let place := ["workspace", "a.tsx"]
    let updates : List CrossReferenceUpdate :=
      [⟨"a.tsx#L2", "https://c.example/2"⟩, ⟨"a.tsx#L6", "https://c.example/3"⟩]
    scanSource {} "a.tsx" twoLinks .placeholder = .ok twoLinksReport ∧
      fs.locate (({} : Config).resolvePath "a.tsx") = .ok (place, .text twoLinks) ∧
      List.SublistForall₂ CrossReferenceUpdate.IsFor updates twoLinksReport.annotations ∧
      (∀ u ∈ updates, parsePermalink u.permalink = some u.permalink) ∧
      IsBatch {} fs place twoLinks updates ∧
      updates.map (fun u => (attemptUpdate {} fs u).1) = [.ok .patched, .ok .patched] ∧
      ∃ fs' content',
        (∀ order : List CrossReferenceUpdate, order.Perm updates → applyUpdates {} order fs =
          (order.map fun u => (attemptUpdate {} fs u).1, fs')) ∧
        lineCount content'.toList = lineCount twoLinks.toList ∧
        KeepsLines fs fs' place twoLinks content' fun n =>
          ∃ u ∈ updates, ∃ l, SourceLocation.parse u.sourceLocation = .ok l ∧ l.startLine = n := by
  intro fs place updates
  let c : CrossReference := ⟨"Lists.", ⟨"a.tsx", 2, 2⟩, "a.tsx:List", none⟩
  let c' : CrossReference :=
    ⟨"A row.", ⟨"a.tsx", 6, 6⟩, "a.tsx:Row", some "https://c.example/1"⟩
  have htext : twoLinks.toList = _ := toList_append_of String.toList_ofList String.toList_ofList
  have hfile : fs.locate (({} : Config).resolvePath "a.tsx") = .ok (place, .text twoLinks) := rfl
  obtain ⟨hsome, hannotations, hplaces⟩ :
      (scanSource {} "a.tsx" twoLinks .placeholder).toOption.isSome = true ∧
      twoLinksReport.annotations =
        [⟨⟨"a.tsx", 2, 3⟩, "Lists.", "a.tsx:List", none, some c⟩,
          ⟨⟨"a.tsx", 6, 6⟩, "A row.", "a.tsx:Row", none, some c'⟩] ∧
      ∀ x ∈ updates.zip [2, 6], SourceLocation.parse x.1.sourceLocation = .ok ⟨"a.tsx", x.2, x.2⟩ ∧
        (segments twoLinks.toList)[x.2 - 1]?.map (segmentOutcome
          ({} : Config).crossReferenceTag.toList x.1.permalink.toList) = some .patched := by
    rw [twoLinksReport, scanSource_eq_bind, Session.ofSource, htext]
    decide +kernel
  have hscan : scanSource {} "a.tsx" twoLinks .placeholder = .ok twoLinksReport := eq_ok_getD hsome
  have hfor : List.SublistForall₂ CrossReferenceUpdate.IsFor updates twoLinksReport.annotations := by
    rw [hannotations]
    exact .cons ⟨c, rfl, .inr (by decide +kernel)⟩ (.cons ⟨c', rfl, .inr (by decide +kernel)⟩ .nil)
  have hlink : ∀ u ∈ updates, parsePermalink u.permalink = some u.permalink := by decide +kernel
  have hbatch : IsBatch {} fs place twoLinks updates :=
    (applyUpdates_perm {} fs place twoLinks).2 _ _ _ updates hscan hfile hfor hlink
  have houtcomes : updates.map (fun u => (attemptUpdate {} fs u).1) =
      [.ok .patched, .ok .patched] := by
    have hfirst := hplaces _ List.mem_cons_self
    have hsecond := hplaces _ (List.mem_cons_of_mem _ List.mem_cons_self)
    rw [List.map_cons, List.map_cons, List.map_nil,
      attemptUpdate_fst_of_locate hfirst.1 hfile hfirst.2,
      attemptUpdate_fst_of_locate hsecond.1 hfile hsecond.2]
  exact ⟨hscan, hfile, hfor, hlink, hbatch, houtcomes,
    (applyUpdates_perm {} fs place twoLinks).1 updates hbatch⟩

end ComponentScan
