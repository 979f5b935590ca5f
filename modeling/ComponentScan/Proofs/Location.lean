import ComponentScan.Location
import ComponentScan.Proofs.Except
import ComponentScan.Proofs.Text.Decimal
import ComponentScan.Proofs.Text.Split

/-!
# Written locations

`SourceLocation.parse` reads back every location that `SourceLocation.text` writes, if its lines are
in order and below the bound and its path is not empty; of the others with lines in order it refuses
all (`parse_text_eq_ok_iff`). What it reads from any text is such a location (`isWritable_of_parse`,
`isOrdered_of_parse`), so reading and writing agree both ways (`parse_text`).
-/

namespace ComponentScan

namespace SourceLocation

open Text Decimal

/-- Whether the lines are in order. -/
def IsOrdered (l : SourceLocation) : Prop :=
  l.startLine ≤ l.endLine

/-- Whether the location can be written so that it is read back. -/
structure IsWritable (l : SourceLocation) : Prop where
  path : l.path ≠ ""
  start : 0 < l.startLine
  stop : l.endLine < lineBound

theorem isOrdered_ofLines (path : String) (first last : Nat) : (ofLines path first last).IsOrdered :=
  Nat.le_max_right _ _

/-- What was read is the range of two lines that can be written, in the file at a path. -/
theorem exists_ofLines_of_parse {location : String} {l : SourceLocation}
    (h : parse location = .ok l) :
    ∃ path first last, path ≠ "" ∧ (0 < first ∧ first < lineBound) ∧ (0 < last ∧ last < lineBound) ∧
      l = ofLines path first last := by
  have hline {s : List Char} {n : Nat} (hn : parseLine? s = some n) : 0 < n ∧ n < lineBound :=
    of_decide_eq_true (Option.filter_eq_some_iff.1 hn).2
  unfold parse at h
  split at h
  · cases h
  · next path lines _ =>
    split at h
    · cases h
    next hempty =>
    have hpath : String.ofList path ≠ "" := fun heq => hempty (by simp_all)
    extract_lets lineAt at h
    have hlineAt {s : List Char} {n : Nat} (hn : lineAt s = .ok n) : 0 < n ∧ n < lineBound := by
      simp only [lineAt] at hn
      split at hn
      · next n' hn' => exact hline (Except.ok.inj hn ▸ hn')
      · cases hn
    split at h
    · simp only [ok_bind_iff, ok_pure_iff] at h
      obtain ⟨first, hfirst, last, hlast, rfl⟩ := h
      exact ⟨_, first, last, hpath, hlineAt hfirst, hlineAt hlast, rfl⟩
    · simp only [ok_bind_iff, ok_pure_iff] at h
      obtain ⟨n, hn, rfl⟩ := h
      exact ⟨_, n, n, hpath, hlineAt hn, hlineAt hn, rfl⟩

/-- A location that was read can be written. -/
theorem isWritable_of_parse {location : String} {l : SourceLocation}
    (h : parse location = .ok l) : l.IsWritable := by
  obtain ⟨path, first, last, hpath, hfirst, hlast, rfl⟩ := exists_ofLines_of_parse h
  exact ⟨hpath, hfirst.1, Nat.max_lt.2 ⟨hlast.2, hfirst.2⟩⟩

theorem isOrdered_of_parse {location : String} {l : SourceLocation}
    (h : parse location = .ok l) : l.IsOrdered := by
  obtain ⟨path, first, last, -, -, -, rfl⟩ := exists_ofLines_of_parse h
  exact isOrdered_ofLines path first last

/-- Lines of a location that was read count from 1. -/
theorem startLine_pos_of_parse {location : String} {l : SourceLocation}
    (h : parse location = .ok l) : 0 < l.startLine :=
  (isWritable_of_parse h).start

theorem parseLine?_digits (n : Nat) :
    parseLine? (digits n) = if 0 < n ∧ n < lineBound then some n else none := by
  have hplus : ∀ r, digits n ≠ '+' :: r := fun r heq => by
    have : IsDigit '+' := isDigit_of_mem_digits (heq ▸ List.mem_cons_self)
    exact absurd this (by decide)
  unfold parseLine?
  dsimp only
  split
  · next r heq => exact absurd heq (hplus r)
  · simp only [value?_digits, Option.filter_some, decide_eq_true_eq]

theorem notMem_digits {c : Char} (hc : ¬ IsDigit c) (n : Nat) : c ∉ digits n :=
  fun h => hc (isDigit_of_mem_digits h)

theorem hash_notMem_lineText (l : SourceLocation) : '#' ∉ l.lineText := by
  have hdigits := notMem_digits (c := '#') (by decide)
  unfold lineText
  split
  · exact hdigits _
  · simp [hdigits]

theorem lineText_ne_nil (l : SourceLocation) : l.lineText ≠ [] := by
  unfold lineText
  split
  · exact digits_ne_nil _
  · simp

/-- A written location is split into its path and its lines. -/
theorem splitLast_text (l : SourceLocation) :
    splitLast marker l.text.toList = some (l.path.toList, l.lineText) := by
  rw [text, String.toList_ofList, marker]
  exact splitLast_append (by decide)
    (fun h => hash_notMem_lineText l (h.subset List.mem_cons_self)) _

theorem splitFirst_lineText (l : SourceLocation) :
    splitFirst '-' l.lineText = if l.startLine = l.endLine then none
      else some (digits l.startLine, digits l.endLine) := by
  have hdigits := notMem_digits (c := '-') (by decide)
  unfold lineText isSingleLine
  by_cases h : l.startLine = l.endLine
  · simp [h, splitFirst_eq_none_iff.2 (hdigits _)]
  · simp [h, splitFirst_append (hdigits _)]

/-- Of the locations whose lines are in order, those are read back that can be written. -/
theorem parse_text_eq_ok_iff {l : SourceLocation} (h : l.IsOrdered) (l' : SourceLocation) :
    parse l.text = .ok l' ↔ l.IsWritable ∧ l' = l := by
  have hlines : l.lineText.isEmpty = false := by
    simpa using lineText_ne_nil l
  have hpath : l.path.toList.isEmpty = true ↔ l.path = "" := by
    rw [List.isEmpty_iff, String.toList_eq_nil_iff]
  unfold parse
  simp only [splitLast_text, hlines, Bool.or_false, hpath, splitFirst_lineText, String.ofList_toList]
  by_cases hempty : l.path = ""
  · rw [if_pos hempty]
    exact iff_of_false nofun fun h => h.1.path hempty
  rw [if_neg hempty]
  obtain ⟨path, first, last⟩ := l
  have hle : first ≤ last := h
  have hwritable : IsWritable ⟨path, first, last⟩ ↔ 0 < first ∧ last < lineBound :=
    ⟨fun hw => ⟨hw.start, hw.stop⟩, fun hw => ⟨hempty, hw.1, hw.2⟩⟩
  rw [hwritable]
  by_cases hsingle : first = last
  · subst hsingle
    by_cases hline : 0 < first ∧ first < lineBound <;>
      simp [lineText, isSingleLine, parseLine?_digits, hline, line, ofLines, bind, Except.bind,
        pure, Except.pure, eq_comm]
  · have hmax : max last first = last := Nat.max_eq_left hle
    have hrange : (0 < first ∧ first < lineBound) ∧ (0 < last ∧ last < lineBound) ↔
        0 < first ∧ last < lineBound := by omega
    rw [← hrange]
    simp only [hsingle, if_false, parseLine?_digits]
    by_cases hfirst : 0 < first ∧ first < lineBound
    · by_cases hlast : 0 < last ∧ last < lineBound
      · simp only [if_pos hfirst, if_pos hlast]
        simp [ofLines, hmax, hfirst, hlast, bind, Except.bind, pure, Except.pure, eq_comm]
      · rw [if_pos hfirst, if_neg hlast]
        exact iff_of_false nofun fun h => hlast h.1.2
    · rw [if_neg hfirst]
      exact iff_of_false nofun fun h => hfirst h.1.1

/-- A location in a file, with lines in order and below the bound, is read back from its written
form; and what was read from any text is read again from its own written form. -/
theorem parse_text :
    (∀ (path : String) (first last : Nat), path ≠ "" → 1 ≤ first → first ≤ last →
      last < 4294967296 → parse (text ⟨path, first, last⟩) = .ok ⟨path, first, last⟩) ∧
    ∀ (location : String) (l : SourceLocation), parse location = .ok l → parse l.text = .ok l := by
  constructor
  · intro path first last hpath hfirst hle hlast
    exact (parse_text_eq_ok_iff (l := ⟨path, first, last⟩) hle _).2 ⟨⟨hpath, hfirst, hlast⟩, rfl⟩
  · intro location l h
    exact (parse_text_eq_ok_iff (isOrdered_of_parse h) _).2 ⟨isWritable_of_parse h, rfl⟩

/-- A path that itself looks like a location, and lines that are written in another way than they
are printed. -/
theorem parse_text_marks :
    text ⟨"a#L3-4#", 7, 12⟩ = "a#L3-4##L7-12" ∧
      parse "a#L3-4##L7-12" = .ok ⟨"a#L3-4#", 7, 12⟩ ∧
      parse "b#L+09-7" = .ok ⟨"b", 9, 9⟩ ∧ parse (text ⟨"b", 9, 9⟩) = .ok ⟨"b", 9, 9⟩ := by
  have htext : text ⟨"a#L3-4#", 7, 12⟩ = "a#L3-4##L7-12" := by decide +kernel
  have hread : parse "b#L+09-7" = .ok ⟨"b", 9, 9⟩ := by rfl
  refine ⟨htext, ?_, hread, parse_text.2 _ _ hread⟩
  rw [← htext]
  exact parse_text.1 "a#L3-4#" 7 12 (by decide) (by decide) (by decide) (by decide)

end SourceLocation

end ComponentScan
