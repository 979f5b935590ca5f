import ComponentScan.LineIndex
import ComponentScan.Proofs.Text.Insertion
import ComponentScan.Proofs.Text.Segments

/-!
# Lines of offsets

The lines of a text start behind its feeds, in order, so the line of an offset can be searched for
(`lineOf_eq_findIdx`), and an offset on a line has the number of that line (`lineOf_of_line`).

The line of a byte is the one of the pieces `Text.segments` that holds it (`holdsByte_iff`), so a span
runs from the piece with its first byte to the piece with its last one (`exists_linesOf`). Text
without a feed that is put in moves offsets along with their lines (`linesOf_insertion`).
-/

namespace ComponentScan.LineIndex

open Text

variable {o k n x y : Nat} {s t u v : List Char}

theorem startsAfter_append (o : Nat) (s t : List Char) :
    startsAfter o (s ++ t) = startsAfter o s ++ startsAfter (o + byteLength s) t := by
  induction s generalizing o with
  | nil => simp [startsAfter]
  | cons c r ih =>
    have hfeed : '\n'.utf8Size = 1 := rfl
    simp only [List.cons_append, startsAfter, byteLength_cons]
    split
    · next hc =>
      subst hc
      rw [ih, hfeed, List.cons_append, Nat.add_assoc]
    · rw [ih, Nat.add_assoc]

theorem startsAfter_add (o k : Nat) (s : List Char) :
    startsAfter (o + k) s = (startsAfter o s).map (· + k) := by
  induction s generalizing o with
  | nil => rfl
  | cons c r ih =>
    simp only [startsAfter]
    split
    · rw [List.map_cons, ← ih, Nat.add_right_comm]
    · rw [← ih, Nat.add_right_comm]

theorem startsAfter_eq_nil (h : '\n' ∉ s) (o : Nat) : startsAfter o s = [] := by
  induction s generalizing o with
  | nil => rfl
  | cons c r ih =>
    rw [List.mem_cons, not_or] at h
    rw [startsAfter, if_neg (Ne.symm h.1), ih h.2]

theorem bounds_of_mem_startsAfter (h : x ∈ startsAfter o s) : o < x ∧ x ≤ o + byteLength s := by
  induction s generalizing o with
  | nil => cases h
  | cons c r ih =>
    have hsize := c.utf8Size_pos
    rw [startsAfter] at h
    rw [byteLength_cons]
    split at h
    · rcases List.mem_cons.1 h with rfl | h
      · omega
      · have := ih h
        omega
    · have := ih h
      omega

theorem pairwise_startsAfter (o : Nat) (s : List Char) : (startsAfter o s).Pairwise (· < ·) := by
  induction s generalizing o with
  | nil => exact .nil
  | cons c r ih =>
    rw [startsAfter]
    split
    · exact .cons (fun y hy => (bounds_of_mem_startsAfter hy).1) (ih _)
    · exact ih _

theorem pairwise_starts (s : List Char) : (ofText s).starts.Pairwise (· < ·) :=
  .cons (fun _ hy => (bounds_of_mem_startsAfter hy).1) (pairwise_startsAfter 0 s)

/-- The starts up to an offset come first, so a search for the first start behind it counts them. -/
theorem lineOf_eq_findIdx (s : List Char) (x : Nat) :
    (ofText s).lineOf x = (ofText s).starts.findIdx (x < ·) := by
  have hstarts := pairwise_starts s
  unfold lineOf
  generalize (ofText s).starts = starts at hstarts
  induction starts with
  | nil => rfl
  | cons y starts ih =>
    obtain ⟨hy, hstarts⟩ := List.pairwise_cons.1 hstarts
    rw [List.countP_cons, List.findIdx_cons]
    by_cases hyx : x < y
    · have hbehind : starts.countP (· ≤ x) = 0 := List.countP_eq_zero.2 fun z hz => by
        have := hy z hz
        simp only [decide_eq_true_eq]
        omega
      simp [hbehind, hyx]
    · simp [ih hstarts, hyx, Nat.not_lt.1 hyx]

/-- A line starts at the end of a text only behind a feed. -/
theorem notMem_startsAfter (h : s.getLast? ≠ some '\n') (o : Nat) :
    o + byteLength s ∉ startsAfter o s := by
  rcases s.eq_nil_or_concat with rfl | ⟨r, c, rfl⟩
  · exact List.not_mem_nil
  · have hc : c ≠ '\n' := by simpa using h
    have hsize := c.utf8Size_pos
    rw [List.concat_eq_append, startsAfter_append,
      startsAfter_eq_nil (s := [c]) (by simpa using hc.symm),
      List.append_nil, byteLength_append]
    intro hmem
    have := bounds_of_mem_startsAfter hmem
    simp only [byteLength_cons, byteLength_nil] at this
    omega

theorem length_startsAfter (h : s.getLast?.all (· == '\n')) (o : Nat) :
    (startsAfter o s).length = (segments s).length := by
  induction s using segments_induction generalizing o with
  | nil => rfl
  | last s hs =>
    have hmem := List.getLast_mem hs.1
    rw [List.getLast?_eq_some_getLast hs.1, Option.all_some, beq_iff_eq] at h
    exact absurd (h ▸ hmem) hs.2
  | line l rest hl ih =>
    have hrest : rest.getLast?.all (· == '\n') := by
      cases rest with
      | nil => rfl
      | cons c r => simpa [List.getLast?_append, List.getLast?_cons] using h
    rw [segments_line_append hl, startsAfter_append, startsAfter_eq_nil hl, startsAfter, if_pos rfl]
    simp [ih hrest]

theorem length_startsAfter_le (o : Nat) (s : List Char) :
    (startsAfter o s).length ≤ (segments s).length := by
  induction s using segments_induction generalizing o with
  | nil => exact Nat.le_refl _
  | last s hs => simp [startsAfter_eq_nil hs.2]
  | line l rest hl ih =>
    rw [segments_line_append hl, startsAfter_append, startsAfter_eq_nil hl, startsAfter, if_pos rfl]
    simpa using ih _

theorem lineOf_le (s : List Char) (x : Nat) : (ofText s).lineOf x ≤ (segments s).length + 1 :=
  List.countP_le_length.trans (Nat.succ_le_succ (length_startsAfter_le 0 s))

theorem lineOf_pos (s : List Char) (x : Nat) : 0 < (ofText s).lineOf x := by
  simp [lineOf, ofText]

/-- The line of an offset, by the lines in front of a place and those behind it. -/
theorem lineOf_append (u v : List Char) (x : Nat) :
    (ofText (u ++ v)).lineOf x =
      1 + (startsAfter 0 u).countP (· ≤ x) + (startsAfter (byteLength u) v).countP (· ≤ x) := by
  simp only [lineOf, ofText, startsAfter_append, List.countP_cons, List.countP_append, Nat.zero_add,
    Nat.zero_le, decide_true, if_true]
  omega

/-- Lines that start at or before an offset. -/
theorem countP_startsAfter_eq_length (h : o + byteLength s ≤ x) :
    (startsAfter o s).countP (· ≤ x) = (startsAfter o s).length :=
  List.countP_eq_length.2 fun y hy => by
    have := bounds_of_mem_startsAfter hy
    exact decide_eq_true (by omega)

theorem countP_startsAfter_eq_zero (h : x ≤ o) : (startsAfter o s).countP (· ≤ x) = 0 :=
  List.countP_eq_zero.2 fun y hy => by
    have := bounds_of_mem_startsAfter hy
    simp only [decide_eq_true_eq]
    omega

/-- An offset on a line, its end included, has the number of the line. -/
theorem lineOf_of_line {l : List Char} (h : s.getLast?.all (· == '\n')) (hl : '\n' ∉ l)
    (hx : byteLength s ≤ x) (hx' : x ≤ byteLength (s ++ l)) (v : List Char) :
    (ofText (s ++ l ++ v)).lineOf x = (segments s).length + 1 := by
  rw [lineOf_append, countP_startsAfter_eq_zero hx', startsAfter_append, startsAfter_eq_nil hl,
    List.append_nil, countP_startsAfter_eq_length (by omega), length_startsAfter h]
  omega

theorem lineOf_mono (index : LineIndex) (h : x ≤ y) : index.lineOf x ≤ index.lineOf y :=
  List.countP_mono_left fun z _ hz => by
    rw [decide_eq_true_eq] at hz ⊢
    exact hz.trans h

/-! ## The line of a byte -/

/-- Whether the byte at an offset is in the piece `n` of the lines of a text, counted from 1. -/
def HoldsByte (s : List Char) (n x : Nat) : Prop :=
  ∃ above line below, segments s = above ++ line :: below ∧ above.length + 1 = n ∧
    byteLength above.flatten ≤ x ∧ x < byteLength above.flatten + byteLength line

/-- A byte of some pieces that stand one after the other is in one of them. -/
theorem exists_piece_of_lt {pieces : List (List Char)} (h : x < byteLength pieces.flatten) :
    ∃ above piece below, pieces = above ++ piece :: below ∧
      byteLength above.flatten ≤ x ∧ x < byteLength above.flatten + byteLength piece := by
  induction pieces generalizing x with
  | nil => exact absurd h (Nat.not_lt_zero x)
  | cons first rest ih =>
    rw [List.flatten_cons, byteLength_append] at h
    rcases Nat.lt_or_ge x (byteLength first) with hx | hx
    · exact ⟨[], first, rest, rfl, Nat.zero_le x, by simpa using hx⟩
    · obtain ⟨above, piece, below, rfl, hle, hlt⟩ := ih (x := x - byteLength first) (by omega)
      refine ⟨first :: above, piece, below, rfl, ?_, ?_⟩ <;>
        rw [List.flatten_cons, byteLength_append] <;> omega

theorem exists_holdsByte (h : x < byteLength s) : ∃ n, HoldsByte s n x := by
  rw [← flatten_segments s] at h
  obtain ⟨above, line, below, hlines, hbounds⟩ := exists_piece_of_lt h
  exact ⟨_, above, line, below, hlines, rfl, hbounds⟩

/-- Behind the first line, lines are counted as in the rest of the text. -/
theorem lineOf_line_append {l : List Char} (hl : '\n' ∉ l) (rest : List Char)
    (hx : byteLength (l ++ ['\n']) ≤ x) :
    (ofText (l ++ '\n' :: rest)).lineOf x =
      (ofText rest).lineOf (x - byteLength (l ++ ['\n'])) + 1 := by
  have hfirst : (startsAfter 0 (l ++ ['\n'])).countP (· ≤ x) = 1 := by
    rw [countP_startsAfter_eq_length (by omega), startsAfter_append, startsAfter_eq_nil hl]
    rfl
  have hrest : (startsAfter (byteLength (l ++ ['\n'])) rest).countP (· ≤ x) =
      (startsAfter 0 rest).countP (· ≤ x - byteLength (l ++ ['\n'])) := by
    rw [← Nat.zero_add (byteLength (l ++ ['\n'])), startsAfter_add, List.countP_map]
    refine List.countP_congr fun y _ => ?_
    simp only [Function.comp_apply, decide_eq_true_eq]
    omega
  have htext : l ++ '\n' :: rest = [] ++ (l ++ ['\n']) ++ rest := by simp
  have hwhole := lineOf_append [] rest (x - byteLength (l ++ ['\n']))
  rw [List.nil_append, byteLength_nil] at hwhole
  rw [htext, lineOf_append, List.nil_append, hfirst, hrest, hwhole]
  exact Nat.add_right_comm 1 1 _

/-- The starts up to a byte are those of its line and of the lines above it. -/
theorem HoldsByte.lineOf_eq (h : HoldsByte s n x) : (ofText s).lineOf x = n := by
  obtain ⟨above, line, below, hlines, rfl, hle, hlt⟩ := h
  induction s using segments_induction generalizing above x with
  | nil => simp [segments] at hlines
  | last s hs =>
    rw [segments_of_isOpenLine hs, List.singleton_eq_append_iff] at hlines
    obtain ⟨rfl, -⟩ | ⟨-, hcons⟩ := hlines
    · simp [lineOf, ofText, startsAfter_eq_nil hs.2]
    · cases hcons
  | line l rest hl ih =>
    rw [segments_line_append hl] at hlines
    cases above with
    | nil =>
      cases hlines
      have hfeed : '\n'.utf8Size = 1 := rfl
      have hx : x ≤ byteLength l := by
        simp only [List.flatten_nil, byteLength_append, byteLength_cons, byteLength_nil] at hlt
        omega
      exact lineOf_of_line (s := []) rfl hl (Nat.zero_le x) hx ('\n' :: rest)
    | cons first above =>
      rw [List.cons_append, List.cons.injEq] at hlines
      obtain ⟨rfl, hlines⟩ := hlines
      rw [List.flatten_cons, byteLength_append] at hle hlt
      rw [lineOf_line_append hl rest (by omega), List.length_cons]
      exact congrArg (· + 1) (ih above hlines (by omega) (by omega))

/-- The line of a byte is the piece that it is in. -/
theorem holdsByte_iff (h : x < byteLength s) : HoldsByte s n x ↔ (ofText s).lineOf x = n := by
  refine ⟨HoldsByte.lineOf_eq, ?_⟩
  rintro rfl
  obtain ⟨n, hn⟩ := exists_holdsByte h
  exact hn.lineOf_eq.symm ▸ hn

theorem HoldsByte.le (h : HoldsByte s n x) : n ≤ (segments s).length := by
  obtain ⟨above, line, below, hlines, rfl, -⟩ := h
  rw [hlines, List.length_append, List.length_cons]
  omega

/-- No byte of a text is behind its pieces. -/
theorem lineOf_le_of_lt (h : x < byteLength s) : (ofText s).lineOf x ≤ (segments s).length :=
  ((holdsByte_iff h).2 rfl).le

/-- The lines of a span that is not empty are the pieces with its first and its last byte. -/
theorem exists_linesOf {span : Span} (hstart : span.start < span.stop)
    (hstop : span.stop ≤ byteLength s) :
    ∃ first last, (ofText s).linesOf span = (first, last) ∧ 1 ≤ first ∧ first ≤ last ∧
      (∀ n, HoldsByte s n span.start ↔ n = first) ∧
      ∀ n, HoldsByte s n (span.stop - 1) ↔ n = last := by
  have hlines : (ofText s).linesOf span =
      ((ofText s).lineOf span.start, (ofText s).lineOf (span.stop - 1)) := by
    rw [linesOf, Nat.max_eq_left (by omega)]
  refine ⟨_, _, hlines, lineOf_pos s _, lineOf_mono _ (by omega), fun n => ?_, fun n => ?_⟩
  · rw [holdsByte_iff (by omega), eq_comm]
  · rw [holdsByte_iff (by omega), eq_comm]

theorem length_segments_le (s : List Char) : (segments s).length ≤ byteLength s := by
  induction s with
  | nil => exact Nat.le_refl _
  | cons c r ih =>
    have hsize := c.utf8Size_pos
    rw [segments, byteLength_cons]
    split
    · rw [List.length_cons]
      omega
    · cases hr : segments r with
      | nil =>
        rw [consHead, List.length_singleton]
        omega
      | cons seg segs =>
        rw [hr, List.length_cons] at ih
        rw [consHead, List.length_cons]
        omega

/-- A text with something else than feeds has no more lines than bytes. -/
theorem length_startsAfter_lt (h : ∃ c ∈ s, c ≠ '\n') (o : Nat) :
    (startsAfter o s).length < byteLength s := by
  induction s generalizing o with
  | nil => simp at h
  | cons c r ih =>
    have hsize := c.utf8Size_pos
    rw [startsAfter, byteLength_cons]
    split
    · next hc =>
      subst hc
      have hr := ih (by simpa using h) (o + 1)
      rw [List.length_cons]
      omega
    · have hr := (length_startsAfter_le (o + c.utf8Size) r).trans (length_segments_le r)
      omega

theorem lineOf_le_byteLength (h : ∃ c ∈ s, c ≠ '\n') (x : Nat) :
    (ofText s).lineOf x ≤ byteLength s :=
  List.countP_le_length.trans (length_startsAfter_lt h 0)

/-! ## Text that is put in -/

section

variable (ht : '\n' ∉ t)
include ht

theorem lineOf_insertion (u v : List Char) (x : Nat) :
    (ofText (u ++ t ++ v)).lineOf (shiftFrom (byteLength u) (byteLength t) x) =
      (ofText (u ++ v)).lineOf x := by
  have hbehind (y : Nat) : (startsAfter (byteLength (u ++ t)) v).countP (· ≤ y + byteLength t) =
      (startsAfter (byteLength u) v).countP (· ≤ y) := by
    rw [byteLength_append, startsAfter_add, List.countP_map]
    exact List.countP_congr fun z _ => by simp
  rw [lineOf_append, lineOf_append, startsAfter_append, startsAfter_eq_nil ht, List.append_nil]
  rcases Nat.lt_or_ge x (byteLength u) with hx | hx
  · rw [shiftFrom_of_lt hx, countP_startsAfter_eq_zero (o := byteLength u) hx.le,
      countP_startsAfter_eq_zero (o := byteLength (u ++ t)) (by rw [byteLength_append]; omega)]
  · rw [shiftFrom_of_le hx, hbehind, countP_startsAfter_eq_length (o := 0) (s := u) (by omega),
      countP_startsAfter_eq_length (o := 0) (s := u) (by omega)]

/-- What is put in stands on the line of its place. -/
theorem lineOf_insertion_of_mem (u v : List Char) (hy : byteLength u ≤ y)
    (hy' : y ≤ byteLength (u ++ t)) :
    (ofText (u ++ t ++ v)).lineOf y = (ofText (u ++ v)).lineOf (byteLength u) := by
  rw [lineOf_append, lineOf_append, startsAfter_append, startsAfter_eq_nil ht, List.append_nil,
    countP_startsAfter_eq_zero hy', countP_startsAfter_eq_zero (Nat.le_refl _),
    countP_startsAfter_eq_length (by omega), countP_startsAfter_eq_length (by omega)]

omit ht in
theorem lineOf_pred (hu : u.getLast? ≠ some '\n') (v : List Char) :
    (ofText (u ++ v)).lineOf (byteLength u - 1) = (ofText (u ++ v)).lineOf (byteLength u) := by
  have hcount : (startsAfter 0 u).countP (· ≤ byteLength u - 1) =
      (startsAfter 0 u).countP (· ≤ byteLength u) := by
    refine List.countP_congr fun z hz => ?_
    have hne : z ≠ byteLength u := fun he => by
      rw [he] at hz
      exact notMem_startsAfter hu 0 (by rwa [Nat.zero_add])
    have := bounds_of_mem_startsAfter hz
    simp only [decide_eq_true_eq]
    omega
  rw [lineOf_append, lineOf_append, hcount, countP_startsAfter_eq_zero (Nat.sub_le _ _),
    countP_startsAfter_eq_zero (Nat.le_refl _)]

/-- Spans keep their lines when text is put into a line. -/
theorem linesOf_insertion (hu : u.getLast? ≠ some '\n') (v : List Char) (a b : Nat) :
    (ofText (u ++ t ++ v)).linesOf ⟨shiftFrom (byteLength u) (byteLength t) a,
        shiftFrom (byteLength u) (byteLength t) b⟩ =
      (ofText (u ++ v)).linesOf ⟨a, b⟩ := by
  have hmono := (shiftFrom_strictMono (byteLength u) (byteLength t)).le_iff_le (a := b) (b := a)
  simp only [linesOf, lineOf_insertion ht]
  refine congrArg _ ?_
  rcases Nat.lt_or_ge a b with hab | hab
  · rw [Nat.max_eq_left (by omega), Nat.max_eq_left (by omega)]
    rcases Nat.lt_trichotomy b (byteLength u) with hb | rfl | hb
    · rw [shiftFrom_of_lt hb, ← lineOf_insertion ht u v (b - 1), shiftFrom_of_lt (by omega)]
    · -- the span ends where the text is put in
      rw [shiftFrom_of_le (Nat.le_refl _), lineOf_pred hu]
      rcases Nat.eq_zero_or_pos (byteLength t) with hk | hk
      · rw [hk, Nat.add_zero, ← lineOf_pred hu v, ← lineOf_insertion ht u v (byteLength u - 1),
          shiftFrom_of_lt (by omega)]
      · exact lineOf_insertion_of_mem ht u v (by omega) (by rw [byteLength_append]; omega)
    · rw [shiftFrom_of_le hb.le, ← lineOf_insertion ht u v (b - 1), shiftFrom_of_le (by omega)]
      exact congrArg _ (by omega)
  · rw [Nat.max_eq_right (by omega), Nat.max_eq_right (by omega), lineOf_insertion ht]

end

end ComponentScan.LineIndex
