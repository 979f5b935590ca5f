import ComponentScan.Text.Split
import Mathlib.Data.List.DropRight
import Mathlib.Data.List.TakeDrop
import Mathlib.Data.List.TakeWhile

/-!
# Runs and marks

A run of characters of one kind ends in front of the first character of another kind
(`span_append`), and what is taken away at an end of a text is the mark that was looked for, nothing
else (`dropStart?_eq_some_iff`, `dropEnd?_eq_some_iff`).
-/

namespace ComponentScan.Text

theorem span_append {p : Char → Bool} {run : List Char} (hrun : ∀ c ∈ run, p c) {s : List Char}
    (hs : ∀ c, s.head? = some c → p c = false) : (run ++ s).span p = (run, s) := by
  rw [List.span_eq_takeWhile_dropWhile, List.takeWhile_append_of_pos hrun,
    List.dropWhile_append_of_pos hrun]
  cases s with
  | nil => simp
  | cons c r => simp [hs c rfl]

theorem span_eq_iff {p : Char → Bool} {s run rest : List Char} :
    s.span p = (run, rest) ↔
      s = run ++ rest ∧ (∀ c ∈ run, p c) ∧ ∀ c, rest.head? = some c → p c = false := by
  constructor
  · intro h
    rw [List.span_eq_takeWhile_dropWhile, Prod.mk.injEq] at h
    obtain ⟨rfl, rfl⟩ := h
    refine ⟨List.takeWhile_append_dropWhile.symm, fun _ hc => List.mem_takeWhile_imp hc,
      fun c hc => ?_⟩
    have hhead := List.head?_dropWhile_not p s
    rw [hc] at hhead
    simpa using hhead
  · rintro ⟨rfl, hrun, hrest⟩
    exact span_append hrun hrest

/-- A run at the end reaches no further than to a character of another kind. -/
theorem rdropWhile_append {p : Char → Bool} {s : List Char}
    (hs : ∀ c, s.getLast? = some c → p c = false) (rest : List Char) :
    (s ++ rest).rdropWhile p = s ++ rest.rdropWhile p := by
  have hkeep : s.reverse.dropWhile p = s.reverse := by
    rcases s.eq_nil_or_concat with rfl | ⟨r, c, rfl⟩
    · rfl
    · simp [hs c (by simp)]
  unfold List.rdropWhile
  rw [List.reverse_append, List.dropWhile_append]
  split
  · next hall =>
    rw [List.isEmpty_iff] at hall
    simp [hall, hkeep]
  · simp

theorem dropStart?_eq_some_iff {mark s r : List Char} : dropStart? mark s = some r ↔ s = mark ++ r := by
  unfold dropStart?
  split
  · next h =>
    obtain ⟨t, rfl⟩ := List.isPrefixOf_iff_prefix.1 h
    simp [eq_comm]
  · next h =>
    refine ⟨nofun, fun e => absurd (List.isPrefixOf_iff_prefix.2 ⟨r, e.symm⟩) h⟩

@[simp] theorem dropStart?_cons (c : Char) (r : List Char) : dropStart? [c] (c :: r) = some r :=
  dropStart?_eq_some_iff.2 rfl

theorem dropEnd?_eq_some_iff {mark s r : List Char} : dropEnd? mark s = some r ↔ s = r ++ mark := by
  unfold dropEnd?
  split
  · next h =>
    obtain ⟨t, rfl⟩ := List.isSuffixOf_iff_suffix.1 h
    simp [eq_comm]
  · next h =>
    refine ⟨nofun, fun e => absurd (List.isSuffixOf_iff_suffix.2 ⟨r, e.symm⟩) h⟩

theorem dropEnd?_eq_none_iff {mark s : List Char} : dropEnd? mark s = none ↔ ¬ mark <:+ s := by
  rw [← List.isSuffixOf_iff_suffix]
  unfold dropEnd?
  split <;> simp [*]

end ComponentScan.Text
