import ComponentScan.Json.Reader
import ComponentScan.Proofs.Text.Decimal
import ComponentScan.Proofs.Text.Runs

/-!
# Reading printed values

The reader gives back every value that the printer writes (`read_text`), but for what cannot be
told from the text: a leaf that stands for a problem is written as null, and a number that no double
can hold is refused.
-/

namespace ComponentScan.Json

open Text Decimal

mutual

/-- What is read of the printed form of a value. -/
def Value.reread : Value → Value
  | .bool b => .bool b
  | .natural n => if tooLarge (digits n) (digits n).length then .unreadable else .natural n
  | .string s => .string s
  | .array items => .array (Value.rereadItems items)
  | .object members => .object (Value.rereadMembers members)
  | .null | .otherNumber | .broken _ | .cutNumber | .unreadable => .null

/-- What is read of some printed items. -/
def Value.rereadItems : List Value → List Value
  | [] => []
  | v :: r => v.reread :: Value.rereadItems r

/-- What is read of some printed members. -/
def Value.rereadMembers : List (String × Value) → List (String × Value)
  | [] => []
  | (k, v) :: r => (k, v.reread) :: Value.rereadMembers r

end

theorem Value.rereadItems_eq_map (items : List Value) :
    Value.rereadItems items = items.map Value.reread := by
  induction items with
  | nil => rfl
  | cons v r ih => simp [Value.rereadItems, ih]

theorem Value.rereadMembers_eq_map (members : List (String × Value)) :
    Value.rereadMembers members = members.map fun (k, v) => (k, v.reread) := by
  induction members with
  | nil => rfl
  | cons m r ih => simp [Value.rereadMembers, ih]

/-! ## White space -/

theorem skipSpace_cons {c : Char} (h : isSpace c = false) (r : List Char) :
    skipSpace (c :: r) = c :: r := by
  simp [skipSpace, h]

/-! ## Strings -/

theorem hexValue?_hexDigit : ∀ n < 16, hexValue? (hexDigit n) = some n := by
  decide

theorem hexQuad?_hexDigit {n : Nat} (h : n < 256) :
    hexQuad? '0' '0' (hexDigit (n / 16)) (hexDigit (n % 16)) = some n := by
  have hzero : hexValue? '0' = some 0 := by decide
  have hhigh := hexValue?_hexDigit (n / 16) (by omega)
  have hlow := hexValue?_hexDigit (n % 16) (by omega)
  simp only [hexQuad?, hzero, hhigh, hlow, Option.bind_eq_bind, Option.bind_some, Option.pure_def,
    Option.some.injEq]
  omega

/-- Adds a character to what is read of a string. -/
def consChar (c : Char) (read : Option (List Char) × List Char) : Option (List Char) × List Char :=
  (read.1.map (c :: ·), read.2)

theorem readString_escape {c : Char} {s t : List Char} (h : readEscape s = .ok (.char c, t))
    (fuel : Nat) : readString (fuel + 1) ('\\' :: s) = (readString fuel t).map (consChar c) := by
  simp only [readString, h, bind, Except.bind]
  cases readString fuel t <;> rfl

theorem readString_plain {c : Char} (hquote : c ≠ '"') (hescape : c ≠ '\\')
    (hcontrol : ¬ c.val < 0x20) (fuel : Nat) (t : List Char) :
    readString (fuel + 1) (c :: t) = (readString fuel t).map (consChar c) := by
  rw [readString, if_neg hcontrol]
  · cases readString fuel t <;> rfl
  · exact hquote
  · exact hescape

theorem readEscape_hex {n : Nat} (h : n < 256) (t : List Char) :
    readEscape ('u' :: '0' :: '0' :: hexDigit (n / 16) :: hexDigit (n % 16) :: t) =
      .ok (.char (Char.ofNat n), t) := by
  have hlow : ¬ (0xDC00 ≤ n ∧ n < 0xE000) := by omega
  have hhigh : ¬ (0xD800 ≤ n ∧ n < 0xDC00) := by omega
  simp only [readEscape, hexQuad?_hexDigit h, if_neg hlow, if_neg hhigh]

/-- The reader takes the form of a character as one step. -/
theorem readString_escapeChar (fuel : Nat) (c : Char) (t : List Char) :
    readString (fuel + 1) (escapeChar c ++ t) = (readString fuel t).map (consChar c) := by
  unfold escapeChar
  split
  · next h =>
    subst h
    exact readString_escape rfl fuel
  split
  · next h =>
    subst h
    exact readString_escape rfl fuel
  split
  · next h =>
    subst h
    exact readString_escape rfl fuel
  split
  · next h =>
    subst h
    exact readString_escape rfl fuel
  split
  · next h =>
    subst h
    exact readString_escape rfl fuel
  split
  · next h =>
    obtain rfl : c = Char.ofNat 8 := Char.ext h
    exact readString_escape rfl fuel
  split
  · next h =>
    obtain rfl : c = Char.ofNat 12 := Char.ext h
    exact readString_escape rfl fuel
  split
  · next h =>
    have hc : c.toNat < 256 := Nat.lt_trans (UInt32.lt_iff_toNat_lt.1 h) (by decide)
    have hread := readEscape_hex hc t
    rw [Char.ofNat_toNat] at hread
    exact readString_escape hread fuel
  · next hquote hescape _ _ _ _ _ hcontrol =>
    exact readString_plain hquote hescape hcontrol fuel t

theorem readString_quoted {fuel : Nat} {s : List Char} (t : List Char)
    (h : (s.flatMap escapeChar).length < fuel) :
    readString fuel (s.flatMap escapeChar ++ '"' :: t) = .ok (some s, t) := by
  induction s generalizing fuel with
  | nil =>
    obtain ⟨fuel, rfl⟩ := Nat.exists_eq_succ_of_ne_zero (Nat.ne_of_gt h)
    rfl
  | cons c s ih =>
    rw [List.flatMap_cons] at h ⊢
    rw [List.length_append] at h
    have hpos : 0 < (escapeChar c).length := by
      unfold escapeChar
      repeat' split
      all_goals simp
    cases fuel with
    | zero => omega
    | succ fuel =>
      rw [List.append_assoc, readString_escapeChar, ih (by omega)]
      rfl

/-- The length of a text is enough for a string at its start. -/
theorem readString_length (s t : List Char) :
    readString ((s.flatMap escapeChar ++ '"' :: t).length + 1)
      (s.flatMap escapeChar ++ '"' :: t) = .ok (some s, t) := by
  apply readString_quoted
  rw [List.length_append]
  omega

/-! ## Values -/

/-- Whether a number ends here: what follows does not belong to it. -/
def IsDelimited (s : List Char) : Prop :=
  ∀ c ∈ s.head?, c = ',' ∨ c = ']' ∨ c = '\x7d'

theorem digitRun_digits {n : Nat} {s : List Char} (h : IsDelimited s) :
    digitRun (digits n ++ s) = (digits n, s) := by
  have hdigits : ∀ c ∈ digits n, ('0' ≤ c && c ≤ '9') = true := fun c hc => by
    simpa [IsDigit] using isDigit_of_mem_digits hc
  refine span_append hdigits fun c hc => ?_
  rcases h c hc with rfl | rfl | rfl <;> decide

theorem readFraction_natural {n : Nat} {s : List Char} (h : IsDelimited s) :
    readFraction false (digits n) s = ((Value.natural n).reread, some s) := by
  have key : readFraction false (digits n) s =
      if tooLarge (digits n) (digits n).length then (.unreadable, some s)
      else (.natural n, some s) := by
    cases s with
    | nil => simp [readFraction, value?_digits]
    | cons c r => rcases h c rfl with rfl | rfl | rfl <;> simp [readFraction, value?_digits]
  rw [key, Value.reread]
  split <;> rfl

theorem readNumber_digits {n : Nat} {s : List Char} (h : IsDelimited s) :
    readNumber false (digits n ++ s) = ((Value.natural n).reread, some s) := by
  unfold readNumber
  rw [digitRun_digits h]
  split
  · next heq => exact absurd (congrArg Prod.fst heq) (digits_ne_nil n)
  · next heq => exact absurd (congrArg Prod.fst heq) (digits_ne_nil n)
  · next heq =>
    have hd := congrArg Prod.fst heq
    rcases Nat.eq_zero_or_pos n with rfl | hpos
    · simp [digits] at hd
    · exact absurd (congrArg List.head? hd) (head?_digits hpos)
  · next heq =>
    cases heq
    exact readFraction_natural h

theorem readWord_append (v : Value) (word s : List Char) :
    readWord v word (word ++ s) = (v, some s) := by
  induction word with
  | nil => cases s <;> rfl
  | cons c word ih => simp [readWord, ih]

theorem isSpace_of_isDigit {c : Char} (h : IsDigit c) : isSpace c = false := by
  have hne : ∀ d, ¬ IsDigit d → c ≠ d := fun d hd he => hd (he ▸ h)
  simp [isSpace, hne ' ' (by decide), hne '\n' (by decide), hne '\t' (by decide),
    hne '\r' (by decide)]

theorem readValue_digit {c : Char} (h : IsDigit c) (fuel : Nat) (r : List Char) :
    readValue (fuel + 1) (c :: r) = readNumber false (c :: r) := by
  unfold readValue
  rw [skipSpace_cons (isSpace_of_isDigit h)]
  split
  · next heq => cases heq
  iterate 7
    · next heq =>
      cases heq
      exact absurd h (by decide)
  · next heq =>
    cases heq
    exact if_pos h

/-- A printed value begins with a character that opens a value. -/
theorem exists_print_eq_cons (v : Value) :
    ∃ c r, v.print = c :: r ∧ isSpace c = false ∧ c ≠ ']' := by
  match v with
  | .natural n =>
    obtain ⟨c, r, hd⟩ := List.exists_cons_of_ne_nil (digits_ne_nil n)
    have hc : IsDigit c := isDigit_of_mem_digits (hd ▸ List.mem_cons_self)
    refine ⟨c, r, by rw [Value.print, hd], isSpace_of_isDigit hc, fun he => ?_⟩
    exact absurd (he ▸ hc) (by decide)
  | .string _ => exact ⟨_, _, by rw [Value.print, quote], by decide, by decide⟩
  | .bool true | .bool false | .array _ | .object _ | .null | .otherNumber | .broken _ | .cutNumber
  | .unreadable => exact ⟨_, _, by rw [Value.print], by decide, by decide⟩

theorem exists_printItems_eq_cons (v : Value) (r : List Value) :
    ∃ c t, Value.printItems (v :: r) = c :: t ∧ isSpace c = false ∧ c ≠ ']' := by
  obtain ⟨c, t, hp, hspace, hclose⟩ := exists_print_eq_cons v
  cases r <;> exact ⟨c, _, by rw [Value.printItems, hp, List.cons_append], hspace, hclose⟩

theorem exists_printMembers_eq_cons (k : String) (v : Value) (r : List (String × Value)) :
    ∃ t, Value.printMembers ((k, v) :: r) = '"' :: t := by
  cases r <;>
    · rw [Value.printMembers, quote]
      exact ⟨_, rfl⟩

theorem isDelimited_nil : IsDelimited [] := nofun

theorem isDelimited_cons {c : Char} (h : c = ',' ∨ c = ']' ∨ c = '\x7d') (s : List Char) :
    IsDelimited (c :: s) := by
  rintro _ ⟨⟩
  exact h

theorem readItems_succ {c : Char} (hspace : isSpace c = false) (hclose : c ≠ ']') (fuel : Nat)
    (s : List Char) :
    readItems (fuel + 1) (c :: s) =
      match readValue fuel (c :: s) with
      | (v, none) => ([v], none)
      | (v, some r) =>
        match skipSpace r with
        | ']' :: r => ([v], some r)
        | ',' :: r => (v :: (readItems fuel r).1, (readItems fuel r).2)
        | [] => ([v, .broken .eof], none)
        | _ => ([v, .broken .notJson], none) := by
  rw [readItems, skipSpace_cons hspace]
  split
  · next heq => cases heq
  · next heq =>
    cases heq
    exact absurd rfl hclose
  · rfl

theorem readMembers_succ (fuel : Nat) (k : String) (s : List Char) :
    readMembers (fuel + 1) (quote k ++ ':' :: s) =
      match readValue fuel s with
      | (v, none) => ([(k, v)], none)
      | (v, some r) =>
        match skipSpace r with
        | '\x7d' :: r => ([(k, v)], some r)
        | ',' :: r => ((k, v) :: (readMembers fuel r).1, (readMembers fuel r).2)
        | [] => ([(k, v), ("", .broken .eof)], none)
        | _ => ([(k, v), ("", .broken .notJson)], none) := by
  rw [quote, List.cons_append, List.append_assoc, List.singleton_append, readMembers,
    skipSpace_cons (by decide)]
  have hspace : isSpace ':' = false := by decide
  split
  · next heq => cases heq
  · next heq =>
    cases heq
    rewrite [readString_length]
    dsimp only
    rewrite [String.ofList_toList, skipSpace_cons hspace]
    rfl
  · next hquote => exact absurd rfl (hquote _)

mutual

theorem readValue_print (v : Value) (fuel : Nat) {s : List Char} (hfuel : v.print.length ≤ fuel)
    (hs : IsDelimited s) : readValue fuel (v.print ++ s) = (v.reread, some s) := by
  match fuel, v with
  | 0, v =>
    obtain ⟨c, r, hp, -⟩ := exists_print_eq_cons v
    rw [hp] at hfuel
    cases hfuel
  | fuel + 1, .natural n =>
    obtain ⟨c, r, hd⟩ := List.exists_cons_of_ne_nil (digits_ne_nil n)
    have hc : IsDigit c := isDigit_of_mem_digits (hd ▸ List.mem_cons_self)
    rw [Value.print, hd, List.cons_append, readValue_digit hc, ← List.cons_append, ← hd,
      readNumber_digits hs]
  | fuel + 1, .bool true =>
    rw [Value.print, List.cons_append, readValue, skipSpace_cons (by decide)]
    exact readWord_append (.bool true) ['r', 'u', 'e'] s
  | fuel + 1, .bool false =>
    rw [Value.print, List.cons_append, readValue, skipSpace_cons (by decide)]
    exact readWord_append (.bool false) ['a', 'l', 's', 'e'] s
  | fuel + 1, .string t =>
    rw [Value.print, quote, List.cons_append, List.append_assoc, List.singleton_append, readValue,
      skipSpace_cons (by decide)]
    simp only [readString_length, String.ofList_toList, Value.reread]
  | fuel + 1, .array [] =>
    rw [Value.print, List.cons_append, readValue, skipSpace_cons (by decide)]
    rfl
  | fuel + 1, .array (v :: r) =>
    have hitems := readItems_print v r fuel s (by simpa [Value.print] using hfuel)
    obtain ⟨c, t, hp, hspace, hclose⟩ := exists_printItems_eq_cons v r
    rw [Value.print, List.cons_append, readValue, skipSpace_cons (by decide)]
    rw [hp, List.cons_append] at hitems ⊢
    simp only [skipSpace_cons hspace]
    split
    · next heq =>
      cases heq
      exact absurd rfl hclose
    · rw [hitems, Value.reread]
  | fuel + 1, .object [] =>
    rw [Value.print, List.cons_append, readValue, skipSpace_cons (by decide)]
    rfl
  | fuel + 1, .object ((k, v) :: r) =>
    have hmembers := readMembers_print k v r fuel s (by simpa [Value.print] using hfuel)
    obtain ⟨t, hp⟩ := exists_printMembers_eq_cons k v r
    rw [Value.print, List.cons_append, readValue, skipSpace_cons (by decide)]
    rw [hp, List.cons_append] at hmembers ⊢
    have hspace : isSpace '"' = false := by decide
    simp only [skipSpace_cons hspace]
    split
    · next heq => cases heq
    · rw [hmembers, Value.reread]
  | fuel + 1, .null | fuel + 1, .otherNumber | fuel + 1, .broken _ | fuel + 1, .cutNumber
  | fuel + 1, .unreadable =>
    rw [Value.print, List.cons_append, readValue, skipSpace_cons (by decide)]
    exact readWord_append .null ['u', 'l', 'l'] s

theorem readItems_print (v : Value) (r : List Value) (fuel : Nat) (s : List Char)
    (hfuel : (Value.printItems (v :: r)).length ≤ fuel) :
    readItems fuel (Value.printItems (v :: r) ++ s) = (Value.rereadItems (v :: r), some s) := by
  match fuel, r with
  | 0, r =>
    obtain ⟨c, t, hp, -⟩ := exists_printItems_eq_cons v r
    rw [hp] at hfuel
    cases hfuel
  | fuel + 1, [] =>
    rw [Value.printItems, List.length_append, List.length_singleton] at hfuel
    have hvalue := readValue_print v fuel (by omega)
      (isDelimited_cons (.inr (.inl rfl)) s)
    obtain ⟨c, t, hp, hspace, hclose⟩ := exists_print_eq_cons v
    rw [Value.printItems, List.append_assoc, List.singleton_append]
    rw [hp, List.cons_append] at hvalue ⊢
    rw [readItems_succ hspace hclose, hvalue]
    rfl
  | fuel + 1, w :: r =>
    rw [Value.printItems, List.length_append, List.length_cons] at hfuel
    have hvalue := readValue_print v fuel (by omega)
      (isDelimited_cons (.inl rfl) (Value.printItems (w :: r) ++ s))
    have hitems := readItems_print w r fuel s (by omega)
    obtain ⟨c, t, hp, hspace, hclose⟩ := exists_print_eq_cons v
    rw [Value.printItems, List.append_assoc, List.cons_append]
    rw [hp, List.cons_append] at hvalue ⊢
    rw [readItems_succ hspace hclose, hvalue]
    have hspace : isSpace ',' = false := by decide
    simp only [skipSpace_cons hspace, hitems, Value.rereadItems]

theorem readMembers_print (k : String) (v : Value) (r : List (String × Value)) (fuel : Nat)
    (s : List Char) (hfuel : (Value.printMembers ((k, v) :: r)).length ≤ fuel) :
    readMembers fuel (Value.printMembers ((k, v) :: r) ++ s) =
      (Value.rereadMembers ((k, v) :: r), some s) := by
  match fuel, r with
  | 0, r =>
    obtain ⟨t, hp⟩ := exists_printMembers_eq_cons k v r
    rw [hp] at hfuel
    cases hfuel
  | fuel + 1, [] =>
    have hlength := hfuel
    simp only [Value.printMembers, List.length_append, List.length_cons] at hlength
    have hvalue := readValue_print v fuel (by omega)
      (isDelimited_cons (.inr (.inr rfl)) s)
    rw [Value.printMembers, List.append_assoc, List.cons_append, List.append_assoc,
      List.cons_append, List.nil_append, readMembers_succ, hvalue]
    rfl
  | fuel + 1, (k', v') :: r =>
    have hlength := hfuel
    simp only [Value.printMembers, List.length_append, List.length_cons] at hlength
    have hvalue := readValue_print v fuel (by omega)
      (isDelimited_cons (.inl rfl) (Value.printMembers ((k', v') :: r) ++ s))
    have hmembers := readMembers_print k' v' r fuel s (by omega)
    rw [Value.printMembers, List.append_assoc, List.cons_append, List.append_assoc,
      List.cons_append, readMembers_succ, hvalue]
    have hspace : isSpace ',' = false := by decide
    simp only [skipSpace_cons hspace, hmembers, Value.rereadMembers]

end

/-- The reader gives back what the printer writes, and nothing is left of the text. -/
theorem read_text (v : Value) : read v.text = (v.reread, true) := by
  have hread := readValue_print v (2 * v.print.length + 2) (by omega) isDelimited_nil
  rw [List.append_nil] at hread
  rw [read, Value.text, String.toList_ofList]
  simp only [hread]
  rfl

end ComponentScan.Json
