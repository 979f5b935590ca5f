import ComponentScan.Text.Bytes
import Mathlib.Order.Monotone.Basic

/-!
# Text put in

A text of `k` bytes that is put in at byte `c` moves what stands from there on (`shiftFrom c k`).
The slices on either side of the place stay the same (`slice?_insertion_of_lt`,
`slice?_insertion_of_le`), and a slice around it gains the text (`slice?_insertion_around`).
-/

namespace ComponentScan.Text

theorem eq_nil_of_byteLength_eq_zero {s : List Char} (h : byteLength s = 0) : s = [] := by
  cases s with
  | nil => rfl
  | cons c r =>
    rw [byteLength_cons] at h
    have hc := c.utf8Size_pos
    omega

theorem cutAt?_eq_some_iff {n : Nat} {s a b : List Char} :
    cutAt? n s = some (a, b) ↔ s = a ++ b ∧ byteLength a = n := by
  induction s generalizing n a with
  | nil =>
    cases n with
    | zero =>
      rw [cutAt?, Option.some.injEq, Prod.mk.injEq]
      constructor
      · rintro ⟨rfl, rfl⟩
        exact ⟨rfl, rfl⟩
      · rintro ⟨h, -⟩
        obtain ⟨rfl, rfl⟩ := List.append_eq_nil_iff.1 h.symm
        exact ⟨rfl, rfl⟩
    | succ n =>
      refine iff_of_false nofun fun ⟨h, hn⟩ => ?_
      rw [(List.append_eq_nil_iff.1 h.symm).1] at hn
      cases hn
  | cons c r ih =>
    have hc := c.utf8Size_pos
    cases n with
    | zero =>
      rw [cutAt?, Option.some.injEq, Prod.mk.injEq]
      constructor
      · rintro ⟨rfl, rfl⟩
        exact ⟨rfl, rfl⟩
      · rintro ⟨h, hn⟩
        cases a with
        | nil => exact ⟨rfl, h⟩
        | cons d a =>
          rw [byteLength_cons] at hn
          have hd := d.utf8Size_pos
          omega
    | succ n =>
      rw [cutAt?]
      constructor
      · intro h
        split at h
        · next hle =>
          obtain ⟨⟨a', b'⟩, hcut, heq⟩ := Option.map_eq_some_iff.1 h
          cases heq
          obtain ⟨rfl, hn⟩ := ih.1 hcut
          exact ⟨rfl, by rw [byteLength_cons]; omega⟩
        · cases h
      · rintro ⟨h, hn⟩
        cases a with
        | nil => cases hn
        | cons d a =>
          obtain ⟨rfl, rfl⟩ := List.cons.inj h
          rw [byteLength_cons] at hn
          rw [if_pos (by omega), ih.2 ⟨rfl, (by omega : byteLength a = n + 1 - c.utf8Size)⟩]
          rfl

/-- A text is cut at a byte in one way. -/
theorem append_inj_of_byteLength {a b a' b' : List Char} (h : a ++ b = a' ++ b')
    (hbytes : byteLength a = byteLength a') : a = a' ∧ b = b' := by
  have hcut : cutAt? (byteLength a) (a ++ b) = some (a, b) := cutAt?_eq_some_iff.2 ⟨rfl, rfl⟩
  have hcut' : cutAt? (byteLength a) (a ++ b) = some (a', b') :=
    cutAt?_eq_some_iff.2 ⟨h, hbytes.symm⟩
  exact Prod.mk.inj (Option.some.inj (hcut.symm.trans hcut'))

theorem cutAt?_append_left {n : Nat} {u : List Char} (h : n ≤ byteLength u) (v : List Char) :
    cutAt? n (u ++ v) = (cutAt? n u).map fun e => (e.1, e.2 ++ v) := by
  cases hu : cutAt? n u with
  | some e =>
    obtain ⟨a, b⟩ := e
    obtain ⟨rfl, rfl⟩ := cutAt?_eq_some_iff.1 hu
    exact cutAt?_eq_some_iff.2 ⟨List.append_assoc a b v, rfl⟩
  | none =>
    rw [Option.map_none, Option.eq_none_iff_forall_ne_some]
    rintro ⟨a, b⟩ hab
    obtain ⟨heq, rfl⟩ := cutAt?_eq_some_iff.1 hab
    rcases List.append_eq_append_iff.1 heq with ⟨t, rfl, rfl⟩ | ⟨t, rfl, -⟩
    · -- the cut is behind `u`, so it is the end of `u`
      rw [byteLength_append] at h
      obtain rfl : t = [] := eq_nil_of_byteLength_eq_zero (by omega)
      rw [List.append_nil] at hu
      cases hu.symm.trans (cutAt?_eq_some_iff.2 ⟨(List.append_nil u).symm, rfl⟩)
    · cases hu.symm.trans (cutAt?_eq_some_iff.2 ⟨rfl, rfl⟩)

theorem cutAt?_append_right (u : List Char) (n : Nat) (v : List Char) :
    cutAt? (byteLength u + n) (u ++ v) = (cutAt? n v).map fun e => (u ++ e.1, e.2) := by
  cases hv : cutAt? n v with
  | some e =>
    obtain ⟨a, b⟩ := e
    obtain ⟨rfl, rfl⟩ := cutAt?_eq_some_iff.1 hv
    exact cutAt?_eq_some_iff.2 ⟨(List.append_assoc u a b).symm, byteLength_append u a⟩
  | none =>
    rw [Option.map_none, Option.eq_none_iff_forall_ne_some]
    rintro ⟨a, b⟩ hab
    obtain ⟨heq, hn⟩ := cutAt?_eq_some_iff.1 hab
    rcases List.append_eq_append_iff.1 heq with ⟨t, rfl, rfl⟩ | ⟨t, rfl, rfl⟩
    · rw [byteLength_append] at hn
      cases hv.symm.trans (cutAt?_eq_some_iff.2 ⟨rfl, Nat.add_left_cancel hn⟩)
    · rw [byteLength_append] at hn
      obtain rfl : n = 0 := by omega
      rw [cutAt?] at hv
      cases hv

/-! ## Slices -/

theorem slice?_eq_some_iff {s t : List Char} {i j : Nat} :
    slice? s i j = some t ↔
      ∃ a b, s = a ++ t ++ b ∧ byteLength a = i ∧ byteLength (a ++ t) = j := by
  unfold slice?
  constructor
  · intro h
    split at h
    · simp only [Option.bind_eq_bind, Option.bind_eq_some_iff, Option.pure_def,
        Option.some.injEq] at h
      obtain ⟨⟨a, r⟩, ha, ⟨t', b⟩, ht, rfl⟩ := h
      obtain ⟨rfl, rfl⟩ := cutAt?_eq_some_iff.1 ha
      obtain ⟨rfl, hj⟩ := cutAt?_eq_some_iff.1 ht
      dsimp only at hj ⊢
      exact ⟨a, b, (List.append_assoc _ _ _).symm, rfl, by rw [byteLength_append]; omega⟩
    · cases h
  · rintro ⟨a, b, rfl, rfl, rfl⟩
    have hcut : cutAt? (byteLength a) (a ++ t ++ b) = some (a, t ++ b) :=
      cutAt?_eq_some_iff.2 ⟨List.append_assoc _ _ _, rfl⟩
    have hpiece : cutAt? (byteLength (a ++ t) - byteLength a) (t ++ b) = some (t, b) :=
      cutAt?_eq_some_iff.2 ⟨rfl, by rw [byteLength_append]; omega⟩
    rw [if_pos (by rw [byteLength_append]; omega), hcut]
    simp only [Option.bind_eq_bind, Option.bind_some, hpiece, Option.pure_def]

theorem stop_le_of_slice? {s t : List Char} {i j : Nat} (h : slice? s i j = some t) :
    j ≤ byteLength s := by
  obtain ⟨a, b, rfl, -, rfl⟩ := slice?_eq_some_iff.1 h
  rw [byteLength_append (a ++ t)]
  exact Nat.le_add_right _ _

theorem slice?_trans {s t t' : List Char} {i j k : Nat} (h : slice? s i j = some t)
    (h' : slice? s j k = some t') : slice? s i k = some (t ++ t') := by
  obtain ⟨a, b, rfl, rfl, hj⟩ := slice?_eq_some_iff.1 h
  obtain ⟨a', b', heq, hj', rfl⟩ := slice?_eq_some_iff.1 h'
  rw [List.append_assoc a'] at heq
  obtain ⟨rfl, rfl⟩ := append_inj_of_byteLength heq (hj.trans hj'.symm)
  exact slice?_eq_some_iff.2 ⟨a, b', by simp only [List.append_assoc], rfl,
    congrArg byteLength (List.append_assoc a t t').symm⟩

theorem slice?_append_left {u : List Char} {i j : Nat} (h : j ≤ byteLength u) (v : List Char) :
    slice? (u ++ v) i j = slice? u i j := by
  unfold slice?
  split
  · next hij =>
    rw [cutAt?_append_left (Nat.le_trans hij h)]
    cases hu : cutAt? i u with
    | none => rfl
    | some e =>
      obtain ⟨a, b⟩ := e
      obtain ⟨rfl, rfl⟩ := cutAt?_eq_some_iff.1 hu
      rw [byteLength_append] at h
      simp only [Option.map_some, Option.bind_eq_bind, Option.bind_some]
      rw [cutAt?_append_left (by omega)]
      cases cutAt? (j - byteLength a) b <;> rfl
  · rfl

theorem slice?_append_right (u v : List Char) (i j : Nat) :
    slice? (u ++ v) (byteLength u + i) (byteLength u + j) = slice? v i j := by
  unfold slice?
  simp only [Nat.add_le_add_iff_left, Nat.add_sub_add_left, cutAt?_append_right]
  split
  · cases cutAt? i v <;> rfl
  · rfl

/-- A slice around a place is what it takes from either side. -/
theorem slice?_append (u v : List Char) {i j : Nat} (hi : i ≤ byteLength u) :
    slice? (u ++ v) i (byteLength u + j) =
      (slice? u i (byteLength u)).bind fun a => (slice? v 0 j).map (a ++ ·) := by
  rw [Option.ext_iff]
  intro t
  simp only [Option.bind_eq_some_iff, Option.map_eq_some_iff, slice?_eq_some_iff]
  constructor
  · rintro ⟨a, b, h, rfl, hj⟩
    rw [List.append_assoc] at h
    rcases List.append_eq_append_iff.1 h with ⟨x, rfl, rfl⟩ | ⟨x, rfl, hx⟩
    · rw [byteLength_append] at hi
      rw [byteLength_append, byteLength_append] at hj
      obtain rfl : x = [] := eq_nil_of_byteLength_eq_zero (by omega)
      exact ⟨[], ⟨u, [], by simp, by simp, by simp⟩, t,
        ⟨[], b, by simp, rfl, by simp at hj ⊢; omega⟩, rfl⟩
    · rw [byteLength_append, byteLength_append] at hj
      rcases List.append_eq_append_iff.1 hx with ⟨y, rfl, rfl⟩ | ⟨y, rfl, rfl⟩
      · rw [byteLength_append] at hj
        obtain rfl : y = [] := eq_nil_of_byteLength_eq_zero (by omega)
        obtain rfl : j = 0 := by omega
        exact ⟨t, ⟨a, [], by simp, rfl, by simp⟩, [], ⟨[], v, by simp, rfl, rfl⟩, by simp⟩
      · rw [byteLength_append] at hj
        exact ⟨x, ⟨a, [], by simp, rfl, by simp⟩, y, ⟨[], b, by simp, rfl, by simp; omega⟩, rfl⟩
  · rintro ⟨x, ⟨a, b, hu, rfl, hx⟩, y, ⟨a', b', hv, ha', hy⟩, rfl⟩
    obtain rfl := eq_nil_of_byteLength_eq_zero ha'
    obtain rfl : b = [] :=
      eq_nil_of_byteLength_eq_zero (by rw [hu] at hx; simp at hx ⊢; omega)
    subst hv
    refine ⟨a, b', by rw [hu]; simp, rfl, ?_⟩
    rw [hu]
    simp at hy ⊢
    omega

/-! ## Offsets -/

/-- Where an offset comes to lie when `k` bytes are put in at `c`. -/
def shiftFrom (c k x : Nat) : Nat :=
  if x < c then x else x + k

section

variable {c k x : Nat}

theorem shiftFrom_of_lt (h : x < c) : shiftFrom c k x = x :=
  if_pos h

theorem shiftFrom_of_le (h : c ≤ x) : shiftFrom c k x = x + k :=
  if_neg (Nat.not_lt.2 h)

@[simp] theorem shiftFrom_zero (c x : Nat) : shiftFrom c 0 x = x := by
  simp [shiftFrom]

theorem shiftFrom_strictMono (c k : Nat) : StrictMono (shiftFrom c k) := by
  intro x y h
  unfold shiftFrom
  split <;> split <;> omega

theorem shiftFrom_lt_iff : shiftFrom c k x < c ↔ x < c := by
  unfold shiftFrom
  split <;> omega

end

/-! ## Slices of a text with another one put in -/

section

variable {u v : List Char} {i j : Nat} (t : List Char)

theorem slice?_eq_none_of_lt {s : List Char} (h : j < i) : slice? s i j = none :=
  if_neg (Nat.not_le.2 h)

/-- In front of the place nothing changes. -/
theorem slice?_insertion_of_lt (hj : j < byteLength u) :
    slice? (u ++ t ++ v) (shiftFrom (byteLength u) (byteLength t) i)
      (shiftFrom (byteLength u) (byteLength t) j) = slice? (u ++ v) i j := by
  rw [shiftFrom_of_lt hj]
  rcases Nat.lt_or_ge i (byteLength u) with hi | hi
  · rw [shiftFrom_of_lt hi, List.append_assoc, slice?_append_left (Nat.le_of_lt hj),
      slice?_append_left (Nat.le_of_lt hj)]
  · rw [shiftFrom_of_le hi, slice?_eq_none_of_lt (by omega), slice?_eq_none_of_lt (by omega)]

/-- Behind the place nothing changes. -/
theorem slice?_insertion_of_le (hi : byteLength u ≤ i) :
    slice? (u ++ t ++ v) (shiftFrom (byteLength u) (byteLength t) i)
      (shiftFrom (byteLength u) (byteLength t) j) = slice? (u ++ v) i j := by
  rw [shiftFrom_of_le hi]
  rcases Nat.lt_or_ge j (byteLength u) with hj | hj
  · rw [shiftFrom_of_lt hj, slice?_eq_none_of_lt (by omega), slice?_eq_none_of_lt (by omega)]
  · rw [shiftFrom_of_le hj]
    obtain ⟨i, rfl⟩ := Nat.exists_eq_add_of_le hi
    obtain ⟨j, rfl⟩ := Nat.exists_eq_add_of_le hj
    have hright := slice?_append_right (u ++ t) v i j
    rw [byteLength_append] at hright
    rw [slice?_append_right, Nat.add_right_comm, Nat.add_right_comm _ j, hright]

/-- A slice around the place gains the text. -/
theorem slice?_insertion_around (hi : i < byteLength u) (hj : byteLength u ≤ j) :
    slice? (u ++ t ++ v) (shiftFrom (byteLength u) (byteLength t) i)
        (shiftFrom (byteLength u) (byteLength t) j) =
      (slice? u i (byteLength u)).bind fun a =>
        (slice? v 0 (j - byteLength u)).map (a ++ t ++ ·) := by
  obtain ⟨j, rfl⟩ := Nat.exists_eq_add_of_le hj
  have hwhole : slice? t 0 (byteLength t) = some t :=
    slice?_eq_some_iff.2 ⟨[], [], by simp, rfl, rfl⟩
  have hbehind := slice?_append t v (Nat.zero_le (byteLength t)) (j := j)
  rw [hwhole, Option.bind_some] at hbehind
  rw [shiftFrom_of_lt hi, shiftFrom_of_le hj, List.append_assoc, Nat.add_assoc, Nat.add_comm j,
    slice?_append u (t ++ v) (Nat.le_of_lt hi), hbehind, Nat.add_sub_cancel_left]
  simp only [Option.map_map, Function.comp_def, List.append_assoc]

/-- What stands on the two sides of the place in a slice around it, and all that is left of the
slice where nothing or another text is put in. -/
theorem exists_slice?_around {t c : List Char} (hi : i < byteLength u) (hj : byteLength u ≤ j)
    (h : slice? (u ++ t ++ v) (shiftFrom (byteLength u) (byteLength t) i)
      (shiftFrom (byteLength u) (byteLength t) j) = some c) :
    ∃ x y, c = x ++ t ++ y ∧ slice? u i (byteLength u) = some x ∧ i + byteLength x = byteLength u ∧
      byteLength u + byteLength y = j ∧ slice? (u ++ v) i j = some (x ++ y) ∧
      ∀ t', slice? (u ++ t' ++ v) (shiftFrom (byteLength u) (byteLength t') i)
        (shiftFrom (byteLength u) (byteLength t') j) = some (x ++ t' ++ y) := by
  rw [slice?_insertion_around t hi hj] at h
  obtain ⟨x, hx, h⟩ := Option.bind_eq_some_iff.1 h
  obtain ⟨y, hy, rfl⟩ := Option.map_eq_some_iff.1 h
  have hput (t' : List Char) : slice? (u ++ t' ++ v) (shiftFrom (byteLength u) (byteLength t') i)
      (shiftFrom (byteLength u) (byteLength t') j) = some (x ++ t' ++ y) := by
    rw [slice?_insertion_around t' hi hj, hx, Option.bind_some, hy, Option.map_some]
  obtain ⟨a, -, -, ha, hax⟩ := slice?_eq_some_iff.1 hx
  obtain ⟨b, -, -, hb, hby⟩ := slice?_eq_some_iff.1 hy
  rw [byteLength_append] at hax hby
  exact ⟨x, y, rfl, hx, by omega, by omega, by simpa using hput [], hput⟩

end

end ComponentScan.Text
