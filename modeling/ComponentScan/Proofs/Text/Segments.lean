import ComponentScan.Text.Split

/-!
# Lines of a text

A text is empty, or one line without a feed, or a line with its feed in front of another text
(`segments_induction`). So the lines of a text stay its lines when one of them is exchanged for a
line that ends the same way (`segments_set`), and the lines in front of a place are those of the
text in front of it if a line starts there (`segments_append`).
-/

namespace ComponentScan.Text

/-- A line with its feed. -/
def IsFedLine (s : List Char) : Prop :=
  ∃ l, '\n' ∉ l ∧ s = l ++ ['\n']

/-- A line that the end of the text closes. -/
def IsOpenLine (s : List Char) : Prop :=
  s ≠ [] ∧ '\n' ∉ s

/-! ## The first line -/

theorem segments_of_isOpenLine {s : List Char} (h : IsOpenLine s) : segments s = [s] := by
  obtain ⟨h0, h⟩ := h
  induction s with
  | nil => exact absurd rfl h0
  | cons c r ih =>
    have hc : c ≠ '\n' := fun e => h (e ▸ List.mem_cons_self)
    have hr : '\n' ∉ r := fun m => h (List.mem_cons_of_mem c m)
    rw [segments, if_neg hc]
    cases r with
    | nil => rfl
    | cons d t => rw [ih (List.cons_ne_nil d t) hr]; rfl

theorem segments_line_append {l : List Char} (h : '\n' ∉ l) (rest : List Char) :
    segments (l ++ '\n' :: rest) = (l ++ ['\n']) :: segments rest := by
  induction l with
  | nil => rfl
  | cons c r ih =>
    have hc : c ≠ '\n' := fun e => h (e ▸ List.mem_cons_self)
    have hr : '\n' ∉ r := fun m => h (List.mem_cons_of_mem c m)
    rw [List.cons_append, segments, if_neg hc, ih hr]
    rfl

/-- Texts by their first line. -/
theorem segments_induction {motive : List Char → Prop} (nil : motive [])
    (last : ∀ s, IsOpenLine s → motive s)
    (line : ∀ l rest, '\n' ∉ l → motive rest → motive (l ++ '\n' :: rest)) (s : List Char) :
    motive s := by
  by_cases h : '\n' ∈ s
  · obtain ⟨l, rest, hs, hl⟩ := List.eq_append_cons_of_mem h
    have : rest.length < s.length := by rw [hs]; simp; omega
    exact hs ▸ line l rest hl (segments_induction nil last line rest)
  · by_cases h0 : s = []
    · exact h0 ▸ nil
    · exact last s ⟨h0, h⟩
termination_by s.length

/-! ## All lines -/

theorem isFedLine_or_isOpenLine {s seg : List Char} (h : seg ∈ segments s) :
    IsFedLine seg ∨ IsOpenLine seg := by
  induction s using segments_induction with
  | nil => cases h
  | last s hs =>
    rw [segments_of_isOpenLine hs, List.mem_singleton] at h
    exact .inr (h ▸ hs)
  | line l rest hl ih =>
    rw [segments_line_append hl, List.mem_cons] at h
    rcases h with rfl | h
    · exact .inl ⟨l, hl, rfl⟩
    · exact ih h

/-- Only the last line of a text may lack its feed. -/
theorem isFedLine_of_lt {text seg : List Char} {i : Nat} (h : (segments text)[i]? = some seg)
    (hlt : i + 1 < (segments text).length) : IsFedLine seg := by
  induction text using segments_induction generalizing i with
  | nil => simp [segments] at h
  | last s hs =>
    rw [segments_of_isOpenLine hs] at hlt
    simp at hlt
  | line l rest hl ih =>
    rw [segments_line_append hl] at h hlt
    cases i with
    | zero => exact ⟨l, hl, by simpa using h.symm⟩
    | succ i => exact ih (i := i) (by simpa using h) (by simpa using hlt)

/-- If a line starts behind a text, the lines in front of that place are the lines of the text. -/
theorem segments_append {s : List Char} (h : s.getLast?.all (· == '\n')) (t : List Char) :
    segments (s ++ t) = segments s ++ segments t := by
  induction s using segments_induction with
  | nil => rfl
  | last s hs =>
    have hmem := List.getLast_mem hs.1
    rw [List.getLast?_eq_some_getLast hs.1, Option.all_some, beq_iff_eq] at h
    exact absurd (h ▸ hmem) hs.2
  | line l rest hl ih =>
    rw [List.append_assoc, List.cons_append, segments_line_append hl, segments_line_append hl,
      List.cons_append]
    cases rest with
    | nil => rfl
    | cons c r =>
      have h' : (c :: r).getLast?.all (· == '\n') := by
        simpa [List.getLast?_append, List.getLast?_cons] using h
      rw [ih h']

/-- A line may be exchanged for one that ends the same way. -/
theorem segments_set {text seg seg' : List Char} {i : Nat} (h : (segments text)[i]? = some seg)
    (hfed : IsFedLine seg → IsFedLine seg') (hopen : IsOpenLine seg → IsOpenLine seg') :
    segments (((segments text).take i).flatten ++ seg' ++ ((segments text).drop (i + 1)).flatten) =
      (segments text).set i seg' := by
  induction text using segments_induction generalizing i with
  | nil => simp [segments] at h
  | last s hs =>
    rw [segments_of_isOpenLine hs] at h ⊢
    obtain ⟨rfl, rfl⟩ : i = 0 ∧ s = seg := by
      cases i <;> simp_all
    simp [segments_of_isOpenLine (hopen hs)]
  | line l rest hl ih =>
    rw [segments_line_append hl] at h ⊢
    cases i with
    | zero =>
      obtain rfl : l ++ ['\n'] = seg := by simpa using h
      obtain ⟨l', hl', rfl⟩ := hfed ⟨l, hl, rfl⟩
      simp [segments_line_append hl']
    | succ i =>
      have := ih (i := i) (by simpa using h)
      simp [segments_line_append hl] at this ⊢
      exact this

end ComponentScan.Text
