import ComponentScan.Proofs.Location

/-!
# The grammar of locations

`Reads` says which texts are read as a location and what location it is, and which error each of the
other texts has; `SourceLocation.parse` reads texts by these rules (`parse_eq_iff_reads`). Not only
written locations are read: the numbers may have zeros in front, and a plus sign in front of these.
-/

namespace ComponentScan.SourceLocation

open Text Decimal

/-! ## The rules -/

/-- The two sides of the last marker of a text. -/
structure IsCut (s path lines : List Char) : Prop where
  eq : s = path ++ marker ++ lines
  last : ¬ marker <:+: lines

/-- ASCII digits of a value from 1 up to the bound. -/
structure IsNumeral (s : List Char) (n : Nat) : Prop where
  ne_nil : s ≠ []
  digits : ∀ c ∈ s, IsDigit c
  value : Nat.ofDigitChars 10 s 0 = n
  pos : 1 ≤ n
  le : n ≤ 4294967295

/-- A numeral, perhaps with a plus sign. -/
inductive IsLine : List Char → Nat → Prop
  | plain {s : List Char} {n : Nat} (h : IsNumeral s n) : IsLine s n
  | signed {s : List Char} {n : Nat} (h : IsNumeral s n) : IsLine ('+' :: s) n

/-- The parts of the lines of a location, of which each is to be a line. -/
inductive IsParts : List Char → List (List Char) → Prop
  | one {line : List Char} (h : '-' ∉ line) : IsParts line [line]
  | two {first last : List Char} (h : '-' ∉ first) : IsParts (first ++ '-' :: last) [first, last]

/-- What a text is read as. -/
inductive Reads (s : String) : Except ScanError SourceLocation → Prop
  | unmarked (h : ¬ marker <:+: s.toList) : Reads s (.error (.malformedLocation s))
  | empty {path lines : List Char} (h : IsCut s.toList path lines)
      (hempty : path = [] ∨ lines = []) : Reads s (.error (.malformedLocation s))
  | one {path line : List Char} {n : Nat} (h : IsCut s.toList path line) (hpath : path ≠ [])
      (hline : IsLine line n) : Reads s (.ok ⟨.ofList path, n, n⟩)
  | two {path first last : List Char} {a b : Nat} (h : IsCut s.toList path (first ++ '-' :: last))
      (hpath : path ≠ []) (hfirst : IsLine first a) (hlast : IsLine last b) :
      Reads s (.ok ⟨.ofList path, a, max a b⟩)
  /-- The first part that is no line is at fault. -/
  | invalid {path lines bad : List Char} {rest : List (List Char)} (good : List (List Char))
      (h : IsCut s.toList path lines) (hpath : path ≠ []) (hlines : lines ≠ [])
      (hparts : IsParts lines (good ++ bad :: rest)) (hgood : ∀ part ∈ good, ∃ n, IsLine part n)
      (hbad : ∀ n, ¬ IsLine bad n) : Reads s (.error (.invalidLine s (.ofList bad)))

/-! ## Lines -/

theorem isNumeral_iff {s : List Char} {n : Nat} :
    IsNumeral s n ↔ (value? s).filter (fun n => 0 < n ∧ n < lineBound) = some n := by
  rw [Option.filter_eq_some_iff, value?_eq_some_iff, decide_eq_true_eq, lineBound]
  constructor
  · intro h
    exact ⟨⟨h.ne_nil, h.digits, h.value⟩, h.pos, Nat.lt_succ_of_le h.le⟩
  · rintro ⟨⟨hne, hdigits, hvalue⟩, hpos, hlt⟩
    exact ⟨hne, hdigits, hvalue, hpos, Nat.le_of_lt_succ hlt⟩

theorem isLine_iff {s : List Char} {n : Nat} : IsLine s n ↔ parseLine? s = some n := by
  unfold parseLine?
  split
  · next r =>
    rw [← isNumeral_iff]
    constructor
    · rintro (h | h)
      · exact absurd (h.digits _ List.mem_cons_self) (by decide)
      · exact h
    · exact .signed
  · next hplus =>
    rw [← isNumeral_iff]
    constructor
    · rintro (h | h)
      · exact h
      · exact absurd rfl (hplus _)
    · exact .plain

theorem IsLine.ne_nil {s : List Char} {n : Nat} (h : IsLine s n) : s ≠ [] := by
  cases h with
  | plain h => exact h.ne_nil
  | signed => exact List.cons_ne_nil _ _

theorem IsLine.hyphen_notMem {s : List Char} {n : Nat} (h : IsLine s n) : '-' ∉ s := by
  have key {s : List Char} {n : Nat} (h : IsNumeral s n) : '-' ∉ s :=
    fun hm => absurd (h.digits _ hm) (by decide)
  cases h with
  | plain h => exact key h
  | signed h => simpa using key h

/-! ## Reading -/

variable {s : String} {path lines first last : List Char}

theorem isCut_iff {s : List Char} : IsCut s path lines ↔ splitLast marker s = some (path, lines) := by
  rw [marker, splitLast_eq_some_iff (by decide)]
  exact ⟨fun h => ⟨h.eq, h.last⟩, fun h => ⟨h.1, h.2⟩⟩

theorem parse_of_unmarked (h : ¬ marker <:+: s.toList) : parse s = .error (.malformedLocation s) := by
  rw [parse, marker, splitLast_eq_none_iff.2 h]

theorem parse_of_empty (h : IsCut s.toList path lines) (hempty : path = [] ∨ lines = []) :
    parse s = .error (.malformedLocation s) := by
  rw [parse, isCut_iff.1 h]
  rcases hempty with rfl | rfl <;> simp

/-- Where one line stands, it is read. -/
theorem parse_of_one (h : IsCut s.toList path lines) (hpath : path ≠ []) (hlines : lines ≠ [])
    (hhyphen : '-' ∉ lines) :
    parse s = match parseLine? lines with
      | none => .error (.invalidLine s (.ofList lines))
      | some n => .ok ⟨.ofList path, n, n⟩ := by
  rw [parse, isCut_iff.1 h]
  simp only [hpath, hlines, List.isEmpty_iff, Bool.or_eq_true, or_self, if_false,
    splitFirst_eq_none_iff.2 hhyphen]
  cases parseLine? lines with
  | none => rfl
  | some n => simp [line, ofLines, bind, Except.bind, pure, Except.pure]

/-- Where two lines stand, they are read from left to right. -/
theorem parse_of_two (h : IsCut s.toList path (first ++ '-' :: last)) (hpath : path ≠ [])
    (hhyphen : '-' ∉ first) :
    parse s = match parseLine? first, parseLine? last with
      | none, _ => .error (.invalidLine s (.ofList first))
      | some _, none => .error (.invalidLine s (.ofList last))
      | some a, some b => .ok ⟨.ofList path, a, max a b⟩ := by
  rw [parse, isCut_iff.1 h]
  simp only [hpath, List.isEmpty_iff, List.append_eq_nil_iff, reduceCtorEq, and_false, Bool.or_eq_true,
    or_self, if_false, splitFirst_append hhyphen]
  cases parseLine? first with
  | none => rfl
  | some a =>
    cases parseLine? last with
    | none => rfl
    | some b => simp [ofLines, Nat.max_comm, bind, Except.bind, pure, Except.pure]

/-- The forms of a text. -/
theorem exists_cut (s : List Char) :
    ¬ marker <:+: s ∨ ∃ path lines, IsCut s path lines ∧ (path = [] ∨ lines = [] ∨
      path ≠ [] ∧ lines ≠ [] ∧
        ('-' ∉ lines ∨ ∃ first last, lines = first ++ '-' :: last ∧ '-' ∉ first)) := by
  cases hcut : splitLast marker s with
  | none => exact .inl (splitLast_eq_none_iff.1 hcut)
  | some cut =>
    refine .inr ⟨cut.1, cut.2, isCut_iff.2 hcut, ?_⟩
    by_cases hpath : cut.1 = []
    · exact .inl hpath
    by_cases hlines : cut.2 = []
    · exact .inr (.inl hlines)
    refine .inr (.inr ⟨hpath, hlines, ?_⟩)
    cases hsplit : splitFirst '-' cut.2 with
    | none => exact .inl (splitFirst_eq_none_iff.1 hsplit)
    | some parts => exact .inr ⟨_, _, splitFirst_eq_some_iff.1 hsplit⟩

/-- A text has a reading. -/
theorem reads_parse (s : String) : Reads s (parse s) := by
  have hnone {part : List Char} (h : parseLine? part = none) (n : Nat) : ¬ IsLine part n :=
    fun hn => by simp [isLine_iff.1 hn] at h
  rcases exists_cut s.toList with hno | ⟨path, lines, hcut, hpath | hlines | ⟨hpath, hlines,
    hone | ⟨first, last, rfl, htwo⟩⟩⟩
  · rw [parse_of_unmarked hno]
    exact .unmarked hno
  · rw [parse_of_empty hcut (.inl hpath)]
    exact .empty hcut (.inl hpath)
  · rw [parse_of_empty hcut (.inr hlines)]
    exact .empty hcut (.inr hlines)
  · rw [parse_of_one hcut hpath hlines hone]
    split
    · next hbad => exact .invalid [] hcut hpath hlines (.one hone) nofun (hnone hbad)
    · next hn => exact .one hcut hpath (isLine_iff.2 hn)
  · rw [parse_of_two hcut hpath htwo]
    split
    · next hbad => exact .invalid [] hcut hpath hlines (.two htwo) nofun (hnone hbad)
    · next a ha hbad =>
      exact .invalid [first] hcut hpath hlines (.two htwo)
        (List.forall_mem_singleton.2 ⟨a, isLine_iff.2 ha⟩) (hnone hbad)
    · next ha hb => exact .two hcut hpath (isLine_iff.2 ha) (isLine_iff.2 hb)

/-- A text has no reading but one. -/
theorem parse_eq_of_reads {result : Except ScanError SourceLocation} (h : Reads s result) :
    parse s = result := by
  have hnone {part : List Char} (h : ∀ n, ¬ IsLine part n) : parseLine? part = none :=
    Option.eq_none_iff_forall_ne_some.2 fun n hn => h n (isLine_iff.2 hn)
  cases h with
  | unmarked h => exact parse_of_unmarked h
  | empty h hempty => exact parse_of_empty h hempty
  | one h hpath hline =>
    have hne : _ ≠ [] := hline.ne_nil
    rw [parse_of_one h hpath hne hline.hyphen_notMem, isLine_iff.1 hline]
  | two h hpath hfirst hlast =>
    rw [parse_of_two h hpath hfirst.hyphen_notMem, isLine_iff.1 hfirst, isLine_iff.1 hlast]
  | @invalid path lines bad rest good h hpath hlines hparts hgood hbad =>
    generalize hall : good ++ bad :: rest = parts at hparts
    cases hparts with
    | one hone =>
      obtain ⟨rfl, rfl, rfl⟩ : good = [] ∧ bad = lines ∧ rest = [] := by
        simpa [List.append_eq_cons_iff] using hall
      rw [parse_of_one h hpath hlines hone, hnone hbad]
    | @two first last htwo =>
      rw [parse_of_two h hpath htwo]
      rcases List.append_eq_cons_iff.1 hall with ⟨rfl, heq⟩ | ⟨good', rfl, heq⟩
      · cases heq
        rw [hnone hbad]
      · obtain ⟨rfl, rfl, rfl⟩ : good' = [] ∧ bad = last ∧ rest = [] := by
          simpa [List.append_eq_cons_iff, eq_comm] using heq
        obtain ⟨a, ha⟩ := hgood first List.mem_cons_self
        rw [isLine_iff.1 ha, hnone hbad]

/-- Texts are read by the rules of the grammar. -/
theorem parse_eq_iff_reads (s : String) (result : Except ScanError SourceLocation) :
    parse s = result ↔ Reads s result :=
  ⟨fun h => h ▸ reads_parse s, parse_eq_of_reads⟩

example : parse "a.tsx#L+05" = .ok ⟨"a.tsx", 5, 5⟩ := by rfl

example : parse "a.tsx#L1-2-3" = .error (.invalidLine "a.tsx#L1-2-3" "2-3") := by rfl

end ComponentScan.SourceLocation
