import ComponentScan.Text.Blank
import ComponentScan.Text.IdentifierChar
import ComponentScan.Proofs.Text.Runs

/-!
# White space around words

What trimming takes away is white space (`exists_eq_append_trimStart`, `exists_eq_trimEnd_append`),
the first word of a text that starts with one ends at the first white space (`head?_words`), and a
text without white space is compact (`compact_eq_self`).
-/

namespace ComponentScan.Text

theorem not_isBlank_of_ascii {c : Char}
    (h : isAsciiLetter c ∨ isAsciiDigit c ∨ c = '_' ∨ c = '-' ∨ c = '.') : isBlank c = false := by
  rw [Bool.eq_false_iff]
  intro hblank
  simp only [isAsciiLetter, isAsciiDigit, isBlank, Bool.or_eq_true, Bool.and_eq_true,
    decide_eq_true_eq, beq_iff_eq, Char.le_def, Char.ext_iff, UInt32.le_iff_toNat_le,
    ← UInt32.toNat_inj, Char.reduceVal, UInt32.reduceToNat] at h hblank
  omega

/-! ## Trimmed texts -/

theorem trimStart_append {a : List Char} (ha : ∀ c ∈ a, isBlank c) (s : List Char) :
    trimStart (a ++ s) = trimStart s :=
  List.dropWhile_append_of_pos ha

theorem trimStart_cons {c : Char} (h : isBlank c = false) (s : List Char) :
    trimStart (c :: s) = c :: s :=
  List.dropWhile_cons_of_neg (by simp [h])

theorem exists_eq_append_trimStart (s : List Char) :
    ∃ a, (∀ c ∈ a, isBlank c) ∧ s = a ++ trimStart s :=
  ⟨s.takeWhile isBlank, fun _ hc => List.mem_takeWhile_imp hc,
    List.takeWhile_append_dropWhile.symm⟩

theorem exists_eq_trimEnd_append (s : List Char) :
    ∃ b, (∀ c ∈ b, isBlank c) ∧ s = trimEnd s ++ b := by
  refine ⟨(s.reverse.takeWhile isBlank).reverse, fun c hc => ?_, ?_⟩
  · exact List.mem_takeWhile_imp (List.mem_reverse.1 hc)
  · rw [trimEnd, ← List.reverse_append, List.takeWhile_append_dropWhile, List.reverse_reverse]

theorem trimEnd_append {s : List Char} (hs : ∀ c, s.getLast? = some c → isBlank c = false)
    (rest : List Char) : trimEnd (s ++ rest) = s ++ trimEnd rest :=
  rdropWhile_append hs rest

theorem trimStart_eq_nil_iff {s : List Char} : trimStart s = [] ↔ ∀ c ∈ s, isBlank c := by
  rw [trimStart, List.dropWhile_eq_nil_iff]

theorem trimEnd_eq_nil_iff {s : List Char} : trimEnd s = [] ↔ ∀ c ∈ s, isBlank c := by
  rw [trimEnd, List.reverse_eq_nil_iff, List.dropWhile_eq_nil_iff]
  simp only [List.mem_reverse]

theorem isBlank_of_head?_trimStart {s : List Char} {c : Char} (h : (trimStart s).head? = some c) :
    isBlank c = false := by
  have := List.head?_dropWhile_not isBlank s
  rw [← trimStart, h] at this
  simpa using this

theorem isBlank_of_getLast?_trimEnd {s : List Char} {c : Char}
    (h : (trimEnd s).getLast? = some c) : isBlank c = false := by
  rw [trimEnd, List.getLast?_reverse] at h
  exact isBlank_of_head?_trimStart h

theorem trimEnd_append_of_isBlank {b : List Char} (hb : ∀ c ∈ b, isBlank c) (s : List Char) :
    trimEnd (s ++ b) = trimEnd s := by
  rw [trimEnd, List.reverse_append,
    List.dropWhile_append_of_pos fun c hc => hb c (List.mem_reverse.1 hc), trimEnd]

/-- Only the last of two texts is trimmed if there is anything in it. -/
theorem trimEnd_append_of_ne_nil {s : List Char} (h : trimEnd s ≠ []) (r : List Char) :
    trimEnd (r ++ s) = r ++ trimEnd s := by
  obtain ⟨b, hb, hs⟩ := exists_eq_trimEnd_append s
  have hlast : ∀ c, (r ++ trimEnd s).getLast? = some c → isBlank c = false := fun c hc => by
    rw [List.getLast?_append, Option.or_of_isSome (by simpa using h)] at hc
    exact isBlank_of_getLast?_trimEnd hc
  have hkeep := trimEnd_append hlast b
  rwa [trimEnd_eq_nil_iff.2 hb, List.append_nil, List.append_assoc, ← hs] at hkeep

theorem trim_append_of_isBlank {b : List Char} (hb : ∀ c ∈ b, isBlank c) (s : List Char) :
    trim (s ++ b) = trim s := by
  rw [trim, trim, trimStart, List.dropWhile_append]
  split
  · next hall =>
    rw [List.isEmpty_iff] at hall
    rw [trimStart, hall, List.dropWhile_eq_nil_iff.2 hb]
  · exact trimEnd_append_of_isBlank hb _

theorem trim_append_left {a : List Char} (ha : ∀ c ∈ a, isBlank c) (s : List Char) :
    trim (a ++ s) = trim s := by
  rw [trim, trimStart_append ha, trim]

theorem trim_trimEnd (s : List Char) : trim (trimEnd s) = trim s := by
  obtain ⟨b, hb, hs⟩ := exists_eq_trimEnd_append s
  conv_rhs => rw [hs, trim_append_of_isBlank hb]

theorem trim_trimStart (s : List Char) : trim (trimStart s) = trim s := by
  obtain ⟨a, ha, hs⟩ := exists_eq_append_trimStart s
  conv_rhs => rw [hs, trim_append_left ha]

theorem trim_eq_self {s : List Char} (h : ∀ c ∈ s, isBlank c = false) : trim s = s := by
  have hstart : trimStart s = s := by
    cases s with
    | nil => rfl
    | cons c r => exact trimStart_cons (h c List.mem_cons_self) r
  have hend := trimEnd_append (fun c hc => h c (List.mem_of_getLast? hc)) []
  rw [List.append_nil] at hend
  rw [trim, hstart, hend]
  exact List.append_nil s

theorem trim_eq_nil_iff {s : List Char} : trim s = [] ↔ ∀ c ∈ s, isBlank c := by
  obtain ⟨a, ha, hs⟩ := exists_eq_append_trimStart s
  rw [trim, trimEnd_eq_nil_iff]
  constructor
  · intro h
    rw [hs]
    exact List.forall_mem_append.2 ⟨ha, h⟩
  · intro h c hc
    rw [trimStart_eq_nil_iff.2 h] at hc
    cases hc

/-! ## Words -/

theorem takeWhile_append_of_head? {p : Char → Bool} {s : List Char}
    (h : ∀ c, s.head? = some c → p c = false) (w : List Char) :
    (w ++ s).takeWhile p = w.takeWhile p := by
  have hs : s.takeWhile p = [] := by
    cases s with
    | nil => rfl
    | cons c r => exact List.takeWhile_cons_of_neg (by simp [h c rfl])
  rw [List.takeWhile_append, hs, List.append_nil]
  split
  · next hlength => rw [(List.takeWhile_prefix p).eq_of_length hlength]
  · rfl

theorem takeWhile_trimEnd (s : List Char) :
    (trimEnd s).takeWhile (!isBlank ·) = s.takeWhile (!isBlank ·) := by
  obtain ⟨b, hb, hs⟩ := exists_eq_trimEnd_append s
  conv_rhs => rw [hs]
  refine (takeWhile_append_of_head? (fun c hc => ?_) (trimEnd s)).symm
  simp [hb c (List.mem_of_mem_head? hc)]

/-- The first piece ends where the first separator stands. -/
theorem head?_splitWhere (p : Char → Bool) (s : List Char) :
    (splitWhere p s).head? = some (s.takeWhile (!p ·)) := by
  induction s with
  | nil => rfl
  | cons c r ih =>
    cases hc : p c with
    | true => simp [splitWhere, hc]
    | false =>
      cases hsplit : splitWhere p r with
      | nil => simp [hsplit] at ih
      | cons piece pieces =>
        rw [hsplit, List.head?_cons, Option.some.injEq] at ih
        simp [splitWhere, hc, hsplit, consHead, ih]

/-- The first word of a text that starts with one. -/
theorem head?_words {c : Char} (h : isBlank c = false) (s : List Char) :
    (words (c :: s)).head? = some ((c :: s).takeWhile (!isBlank ·)) := by
  have hhead := head?_splitWhere isBlank (c :: s)
  cases hsplit : splitWhere isBlank (c :: s) with
  | nil =>
    rw [hsplit] at hhead
    cases hhead
  | cons piece pieces =>
    rw [hsplit, List.head?_cons, Option.some.injEq] at hhead
    have hpiece : piece.isEmpty = false := by
      rw [hhead, List.takeWhile_cons_of_pos (by simp [h])]
      rfl
    rw [words, hsplit, List.filter_cons_of_pos (by simp [hpiece]), List.head?_cons, hhead]

/-! ## Texts without white space -/

theorem compact_append (s t : List Char) : compact (s ++ t) = compact s ++ compact t :=
  List.filter_append ..

theorem compact_eq_self {s : List Char} (h : ∀ c ∈ s, isBlank c = false) : compact s = s := by
  apply List.filter_eq_self.2
  intro c hc
  rw [h c hc]
  rfl

end ComponentScan.Text
