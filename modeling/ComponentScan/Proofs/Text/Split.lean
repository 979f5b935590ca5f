import ComponentScan.Text.Split

/-!
# Cuts

What it means that a text is cut around the last occurrence of a marker (`splitLast_eq_some_iff`) or
around the first occurrence of a character (`splitFirst_eq_some_iff`): the pieces with the mark
between them are the text, and the mark does not occur again on the side where the search began.

A text that is cut at every separator is its pieces with the separator between them
(`joinWith_splitWhere`), and pieces without separators are found again in the text that they are
joined to (`splitWhere_joinWith`).
-/

namespace ComponentScan.Text

variable {c : Char} {marker s before after : List Char}

/-! ## The last occurrence -/

theorem splitLast_eq_none_iff : splitLast (c :: marker) s = none ↔ ¬ c :: marker <:+: s := by
  induction s with
  | nil => simp [splitLast]
  | cons d r ih =>
    rw [List.infix_cons_iff, splitLast]
    cases hr : splitLast (c :: marker) r with
    | some cut =>
      have hmem : c :: marker <:+: r := Decidable.not_not.1 fun h => by simp [ih.2 h] at hr
      simp [hmem]
    | none =>
      have hmem : ¬ c :: marker <:+: r := ih.1 hr
      by_cases hprefix : c :: marker <+: d :: r <;>
        simp [hmem, hprefix, List.isPrefixOf_iff_prefix, -List.cons_prefix_cons]

/-- A marker cannot begin within itself if its first character comes once. -/
theorem infix_append_iff_of_notMem (h : c ∉ before) :
    c :: marker <:+: before ++ after ↔ c :: marker <:+: after := by
  induction before with
  | nil => rfl
  | cons d before ih =>
    obtain ⟨hd, hbefore⟩ := List.ne_and_not_mem_of_not_mem_cons h
    rw [List.cons_append, List.infix_cons_iff, ih hbefore]
    exact or_iff_right fun hprefix => hd (List.cons_prefix_cons.1 hprefix).1

/-- The marker that is written last is found if it does not begin again. -/
theorem splitLast_append (hmarker : c ∉ marker) (hafter : ¬ c :: marker <:+: after)
    (before : List Char) :
    splitLast (c :: marker) (before ++ c :: marker ++ after) = some (before, after) := by
  induction before with
  | nil =>
    have hrest : splitLast (c :: marker) (marker ++ after) = none :=
      splitLast_eq_none_iff.2 fun h => hafter ((infix_append_iff_of_notMem hmarker).1 h)
    have hprefix : (c :: marker).isPrefixOf (c :: (marker ++ after)) = true :=
      List.isPrefixOf_iff_prefix.2 ⟨after, by simp⟩
    simp [splitLast, hrest, hprefix]
  | cons d r ih =>
    rw [List.append_assoc, List.cons_append] at ih
    simp [splitLast, ih]

theorem eq_append_of_splitLast (h : splitLast (c :: marker) s = some (before, after)) :
    s = before ++ c :: marker ++ after ∧ ¬ c :: marker <:+: after := by
  induction s generalizing before with
  | nil => cases h
  | cons d r ih =>
    rw [splitLast] at h
    split at h
    · next hr =>
      cases h
      obtain ⟨rfl, hafter⟩ := ih hr
      exact ⟨rfl, hafter⟩
    · next hr =>
      split at h
      · next hprefix =>
        cases h
        obtain ⟨rest, hrest⟩ := List.isPrefixOf_iff_prefix.1 hprefix
        have hr' : ¬ c :: marker <:+: r := splitLast_eq_none_iff.1 hr
        obtain ⟨rfl, rfl⟩ := List.cons.inj hrest
        refine ⟨by simp, fun hlater => hr' (hlater.trans ?_)⟩
        simpa using (List.suffix_append marker rest).isInfix
      · cases h

/-- A text is cut where the marker is written last. -/
theorem splitLast_eq_some_iff (hmarker : c ∉ marker) :
    splitLast (c :: marker) s = some (before, after) ↔
      s = before ++ c :: marker ++ after ∧ ¬ c :: marker <:+: after :=
  ⟨eq_append_of_splitLast, fun ⟨h, hafter⟩ => h ▸ splitLast_append hmarker hafter before⟩

/-! ## The first occurrence -/

theorem splitFirst_eq_none_iff : splitFirst c s = none ↔ c ∉ s := by
  induction s with
  | nil => simp [splitFirst]
  | cons d r ih =>
    by_cases h : c = d
    · simp [splitFirst, h]
    · simp [splitFirst, h, ih, Ne.symm h]

theorem splitFirst_append (h : c ∉ before) (after : List Char) :
    splitFirst c (before ++ c :: after) = some (before, after) := by
  induction before with
  | nil => simp [splitFirst]
  | cons d r ih =>
    obtain ⟨hd, hr⟩ := List.ne_and_not_mem_of_not_mem_cons h
    simp [splitFirst, Ne.symm hd, ih hr]

theorem eq_append_of_splitFirst (h : splitFirst c s = some (before, after)) :
    s = before ++ c :: after ∧ c ∉ before := by
  induction s generalizing before with
  | nil => cases h
  | cons d r ih =>
    rw [splitFirst] at h
    split at h
    · next hd =>
      cases h
      exact ⟨hd ▸ rfl, List.not_mem_nil⟩
    · next hd =>
      obtain ⟨⟨b, a⟩, hr, heq⟩ := Option.map_eq_some_iff.1 h
      cases heq
      obtain ⟨rfl, hb⟩ := ih hr
      exact ⟨rfl, List.not_mem_cons_of_ne_of_not_mem (Ne.symm hd) hb⟩

/-- A text is cut where the character is written first. -/
theorem splitFirst_eq_some_iff :
    splitFirst c s = some (before, after) ↔ s = before ++ c :: after ∧ c ∉ before :=
  ⟨eq_append_of_splitFirst, fun ⟨h, hbefore⟩ => h ▸ splitFirst_append hbefore after⟩

/-! ## Pieces -/

theorem splitWhere_eq_singleton {p : Char → Bool} {s : List Char} (h : ∀ c ∈ s, p c = false) :
    splitWhere p s = [s] := by
  induction s with
  | nil => rfl
  | cons c r ih =>
    obtain ⟨hc, hr⟩ := List.forall_mem_cons.1 h
    rw [splitWhere, hc, ih hr]
    rfl

theorem splitWhere_ne_nil (p : Char → Bool) (s : List Char) : splitWhere p s ≠ [] := by
  cases s with
  | nil => nofun
  | cons c r =>
    rw [splitWhere]
    split
    · nofun
    · cases splitWhere p r <;> nofun

theorem splitWhere_append {p : Char → Bool} {c : Char} (hc : p c = true) (s t : List Char) :
    splitWhere p (s ++ c :: t) = splitWhere p s ++ splitWhere p t := by
  induction s with
  | nil =>
    rw [List.nil_append]
    simp [splitWhere, hc]
  | cons d r ih =>
    rw [List.cons_append, splitWhere, splitWhere, ih]
    split
    · rfl
    · obtain ⟨first, rest, hr⟩ := List.exists_cons_of_ne_nil (splitWhere_ne_nil p r)
      rw [hr]
      rfl

theorem notMem_of_mem_splitWhere {p : Char → Bool} {s piece : List Char}
    (h : piece ∈ splitWhere p s) : ∀ c ∈ piece, p c = false := by
  induction s generalizing piece with
  | nil =>
    rw [List.mem_singleton.1 h]
    nofun
  | cons d r ih =>
    rw [splitWhere] at h
    split at h
    · rcases List.mem_cons.1 h with rfl | h
      · nofun
      · exact ih h
    · next hd =>
      obtain ⟨first, rest, hr⟩ := List.exists_cons_of_ne_nil (splitWhere_ne_nil p r)
      rw [hr] at h ih
      rcases List.mem_cons.1 h with rfl | h
      · exact List.forall_mem_cons.2 ⟨by simpa using hd, ih List.mem_cons_self⟩
      · exact ih (List.mem_cons_of_mem _ h)

/-! ## Joined pieces -/

section

variable {sep : List Char} {ps qs : List (List Char)}

theorem joinWith_cons (p : List Char) (h : ps ≠ []) :
    joinWith sep (p :: ps) = p ++ sep ++ joinWith sep ps := by
  cases ps with
  | nil => exact absurd rfl h
  | cons q ps => rfl

theorem joinWith_append (hps : ps ≠ []) (hqs : qs ≠ []) :
    joinWith sep (ps ++ qs) = joinWith sep ps ++ sep ++ joinWith sep qs := by
  induction ps with
  | nil => exact absurd rfl hps
  | cons p ps ih =>
    cases ps with
    | nil => exact joinWith_cons p hqs
    | cons q ps =>
      rw [List.cons_append, joinWith_cons p (by simp), ih (List.cons_ne_nil _ _),
        joinWith_cons p (List.cons_ne_nil _ _)]
      simp only [List.append_assoc]

/-- Pieces that are joined are the pieces that each end with the separator, but for the last
separator. -/
theorem joinWith_append_sep (h : ps ≠ []) :
    joinWith sep ps ++ sep = (ps.map (· ++ sep)).flatten := by
  induction ps with
  | nil => exact absurd rfl h
  | cons p ps ih =>
    cases ps with
    | nil => simp [joinWith]
    | cons q ps =>
      rw [joinWith_cons p (List.cons_ne_nil _ _), List.append_assoc, ih (List.cons_ne_nil _ _)]
      simp

end

theorem splitWhere_joinWith {p : Char → Bool} {c : Char} (hc : p c = true)
    {pieces : List (List Char)} (h : pieces ≠ []) (hpieces : ∀ s ∈ pieces, ∀ d ∈ s, p d = false) :
    splitWhere p (joinWith [c] pieces) = pieces := by
  induction pieces with
  | nil => exact absurd rfl h
  | cons s pieces ih =>
    obtain ⟨hs, hpieces⟩ := List.forall_mem_cons.1 hpieces
    cases pieces with
    | nil => exact splitWhere_eq_singleton hs
    | cons t pieces =>
      rw [joinWith_cons s (List.cons_ne_nil _ _), List.append_assoc, List.singleton_append,
        splitWhere_append hc, splitWhere_eq_singleton hs, ih (List.cons_ne_nil _ _) hpieces]
      rfl

theorem joinWith_splitWhere (c : Char) (s : List Char) :
    joinWith [c] (splitWhere (· == c) s) = s := by
  induction s with
  | nil => rfl
  | cons d r ih =>
    rw [splitWhere]
    split
    · next hd =>
      rw [joinWith_cons _ (splitWhere_ne_nil _ _), ih, beq_iff_eq.1 hd]
      rfl
    · obtain ⟨first, rest, hr⟩ := List.exists_cons_of_ne_nil (splitWhere_ne_nil (· == c) r)
      rw [hr] at ih ⊢
      cases rest <;> simpa [consHead, joinWith] using ih

end ComponentScan.Text
