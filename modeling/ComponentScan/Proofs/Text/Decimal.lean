import ComponentScan.Text.Decimal

/-!
# Numerals

`value?` reads back what `digits` writes (`value?_digits`), and a numeral is a run of ASCII digits
that begins with a zero only if it is the zero. Every run of ASCII digits is read, and nothing else
is (`value?_eq_some_iff`).
-/

namespace ComponentScan.Text.Decimal

/-- An ASCII digit. -/
def IsDigit (c : Char) : Prop :=
  '0' ≤ c ∧ c ≤ '9'

instance (c : Char) : Decidable (IsDigit c) :=
  inferInstanceAs (Decidable (_ ∧ _))

theorem isDigit_digit : ∀ n < 10, IsDigit (digit n) := by
  decide

theorem digitValue?_digit : ∀ n < 10, digitValue? (digit n) = some n := by
  decide

theorem digit_eq_zero_iff : ∀ n < 10, digit n = '0' ↔ n = 0 := by
  decide

theorem digits_ne_nil (n : Nat) : digits n ≠ [] := by
  unfold digits
  split <;> simp

theorem isDigit_of_mem_digits {n : Nat} {c : Char} (h : c ∈ digits n) : IsDigit c := by
  induction n using digits.induct with
  | case1 n hlt =>
    rw [digits, if_pos hlt, List.mem_singleton] at h
    exact h ▸ isDigit_digit n hlt
  | case2 n hge ih =>
    rw [digits, if_neg hge, List.mem_append, List.mem_singleton] at h
    rcases h with h | rfl
    · exact ih h
    · exact isDigit_digit _ (Nat.mod_lt _ (by decide))

/-- The numeral of a positive number does not begin with a zero. -/
theorem head?_digits {n : Nat} (h : 0 < n) : (digits n).head? ≠ some '0' := by
  induction n using digits.induct with
  | case1 n hlt =>
    rw [digits, if_pos hlt]
    simp only [List.head?_cons, ne_eq, Option.some.injEq, digit_eq_zero_iff n hlt]
    omega
  | case2 n hge ih =>
    obtain ⟨c, r, hc⟩ := List.exists_cons_of_ne_nil (digits_ne_nil (n / 10))
    have hhead := ih (by omega)
    rw [hc] at hhead
    rwa [digits, if_neg hge, hc]

theorem length_digits_le {n k : Nat} (hk : 0 < k) (h : n < Nat.pow 10 k) :
    (digits n).length ≤ k := by
  induction n using digits.induct generalizing k with
  | case1 n hlt =>
    rw [digits, if_pos hlt]
    exact hk
  | case2 n hge ih =>
    rw [digits, if_neg hge, List.length_append, List.length_singleton]
    cases k with
    | zero => cases hk
    | succ k =>
      have hdiv : n / 10 < Nat.pow 10 k := Nat.div_lt_of_lt_mul (Nat.mul_comm _ 10 ▸ h)
      have hpos : 0 < k := Nat.pos_of_ne_zero fun h0 => by
        subst h0
        exact hge h
      have := ih hpos hdiv
      omega

theorem valueFrom?_append {acc m : Nat} {s : List Char} (h : valueFrom? acc s = some m)
    (t : List Char) : valueFrom? acc (s ++ t) = valueFrom? m t := by
  induction s generalizing acc with
  | nil =>
    cases h
    rfl
  | cons c s ih =>
    obtain ⟨d, hd, h⟩ := Option.bind_eq_some_iff.1 h
    rw [List.cons_append, valueFrom?, hd, Option.bind_some, ih h]

theorem valueFrom?_digits (n : Nat) : valueFrom? 0 (digits n) = some n := by
  induction n using digits.induct with
  | case1 n hlt => simp [digits, hlt, valueFrom?, digitValue?_digit n hlt]
  | case2 n hge ih =>
    have hmod : n % 10 < 10 := Nat.mod_lt _ (by decide)
    rw [digits, if_neg hge, valueFrom?_append ih]
    simp only [valueFrom?, digitValue?_digit _ hmod, Option.bind_some, Option.some.injEq]
    omega

theorem value?_digits (n : Nat) : value? (digits n) = some n := by
  cases h : digits n with
  | nil => exact absurd h (digits_ne_nil n)
  | cons c r =>
    rw [value?, ← h, valueFrom?_digits]
    exact fun hnil => by cases hnil

/-! ## What is read as a numeral -/

theorem digitValue?_eq_some_iff {c : Char} {d : Nat} :
    digitValue? c = some d ↔ IsDigit c ∧ c.toNat - '0'.toNat = d := by
  by_cases h : IsDigit c
  · simp [digitValue?, h, show '0' ≤ c ∧ c ≤ '9' from h]
  · simp [digitValue?, h, show ¬ ('0' ≤ c ∧ c ≤ '9') from h]

theorem valueFrom?_eq_some_iff {acc n : Nat} {s : List Char} :
    valueFrom? acc s = some n ↔ (∀ c ∈ s, IsDigit c) ∧ Nat.ofDigitChars 10 s acc = n := by
  induction s generalizing acc with
  | nil => simp [valueFrom?, Nat.ofDigitChars]
  | cons c r ih =>
    simp only [valueFrom?, Option.bind_eq_some_iff, digitValue?_eq_some_iff, ih, List.forall_mem_cons]
    constructor
    · rintro ⟨d, ⟨hc, rfl⟩, hr, hn⟩
      exact ⟨⟨hc, hr⟩, hn⟩
    · rintro ⟨⟨hc, hr⟩, hn⟩
      exact ⟨_, ⟨hc, rfl⟩, hr, hn⟩

/-- Numerals are the non-empty runs of digits. -/
theorem value?_eq_some_iff {n : Nat} {s : List Char} :
    value? s = some n ↔ s ≠ [] ∧ (∀ c ∈ s, IsDigit c) ∧ Nat.ofDigitChars 10 s 0 = n := by
  cases s with
  | nil => simp [value?]
  | cons c r =>
    rw [value?, valueFrom?_eq_some_iff]
    · simp
    · exact nofun

end ComponentScan.Text.Decimal
