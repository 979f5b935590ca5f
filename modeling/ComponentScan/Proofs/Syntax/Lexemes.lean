import ComponentScan.Proofs.Text.Blank
import ComponentScan.Syntax.Lexer

/-!
# Texts of tokens

A reader takes the text in front of a cursor up to the one that it yields (`Cursor.Leads`). Of a word
this text has no white space in it, of a punctuator it is the sign, and of the other tokens it may be
anything (`TokenKind.Spells`).
-/

namespace ComponentScan.Syntax

open Text

/-! ## Cursors -/

/-- Whether a cursor becomes another when a text is taken. -/
structure Cursor.Leads (c : Cursor) (taken : List Char) (c' : Cursor) : Prop where
  rest : c.rest = taken ++ c'.rest
  pos : c'.pos = c.pos + byteLength taken

/-- Whether a cursor becomes another when some characters of a kind are taken. -/
def Cursor.Takes (p : Char → Prop) (c c' : Cursor) : Prop :=
  ∃ taken, c.Leads taken c' ∧ ∀ x ∈ taken, p x

/-- Whether a cursor becomes another when anything is taken. -/
abbrev Cursor.Reaches (c c' : Cursor) : Prop :=
  c.Takes (fun _ => True) c'

namespace Cursor

variable {c c' c'' : Cursor} {s t : List Char} {p : Char → Prop}

theorem Leads.refl (c : Cursor) : c.Leads [] c :=
  ⟨rfl, rfl⟩

theorem Leads.trans (h : c.Leads s c') (h' : c'.Leads t c'') : c.Leads (s ++ t) c'' where
  rest := by rw [h.rest, h'.rest, List.append_assoc]
  pos := by rw [h'.pos, h.pos, byteLength_append, Nat.add_assoc]

theorem leads_next {x : Char} {r : List Char} (h : c.rest = x :: r) : c.Leads [x] c.next := by
  unfold next
  rw [h]
  exact ⟨h, rfl⟩

theorem Takes.refl (c : Cursor) : c.Takes p c :=
  ⟨[], .refl c, nofun⟩

theorem Takes.trans (h : c.Takes p c') (h' : c'.Takes p c'') : c.Takes p c'' := by
  obtain ⟨s, hs, hps⟩ := h
  obtain ⟨t, ht, hpt⟩ := h'
  exact ⟨s ++ t, hs.trans ht, List.forall_mem_append.2 ⟨hps, hpt⟩⟩

theorem Takes.reaches (h : c.Takes p c') : c.Reaches c' := by
  obtain ⟨s, hs, -⟩ := h
  exact ⟨s, hs, fun _ _ => trivial⟩

theorem takes_next (h : ∀ x ∈ c.peek?, p x) : c.Takes p c.next := by
  obtain ⟨rest, pos⟩ := c
  cases rest with
  | nil => exact .refl _
  | cons x r => exact ⟨[x], leads_next rfl, List.forall_mem_singleton.2 (h x rfl)⟩

theorem reaches_next (c : Cursor) : c.Reaches c.next :=
  takes_next fun _ _ => trivial

theorem reaches_skip (n : Nat) (c : Cursor) : c.Reaches (c.skip n) := by
  induction n generalizing c with
  | zero => exact .refl c
  | succ n ih => exact c.reaches_next.trans (ih c.next)

/-- What stands in front of a cursor is taken by going past as many characters. -/
theorem leads_skip {r : List Char} (h : c.rest = s ++ r) : c.Leads s (c.skip s.length) := by
  induction s generalizing c with
  | nil => exact .refl c
  | cons x s ih =>
    have hnext : c.next.rest = s ++ r := by
      rw [next, h]
      rfl
    exact (leads_next h).trans (ih hnext)

theorem leads_skipWhile (p : Char → Bool) (c : Cursor) :
    c.Leads (c.rest.takeWhile p) (c.skipWhile p) := by
  obtain ⟨rest, pos⟩ := c
  unfold skipWhile
  dsimp only
  induction rest generalizing pos with
  | nil => exact .refl _
  | cons x r ih =>
    unfold skipWhileFrom
    cases hx : p x with
    | false =>
      rw [List.takeWhile_cons_of_neg (Bool.eq_false_iff.1 hx), if_neg Bool.false_ne_true]
      exact .refl _
    | true =>
      rw [List.takeWhile_cons_of_pos hx, if_pos rfl]
      have hfirst : Leads ⟨x :: r, pos⟩ [x] ⟨r, pos + x.utf8Size⟩ := ⟨rfl, rfl⟩
      exact hfirst.trans (ih _)

theorem takes_skipWhile {q : Char → Bool} (hq : ∀ x, q x = true → p x) (c : Cursor) :
    c.Takes p (c.skipWhile q) :=
  ⟨_, leads_skipWhile q c, fun x hx => hq x (List.mem_takeWhile_imp hx)⟩

theorem reaches_skipWhile (q : Char → Bool) (c : Cursor) : c.Reaches (c.skipWhile q) :=
  takes_skipWhile (fun _ _ => trivial) c

/-- A character of one byte is taken by going one byte on. -/
theorem takes_cons {x : Char} {r : List Char} {pos : Nat} (h : p x) (hsize : x.utf8Size = 1) :
    Takes p ⟨x :: r, pos⟩ ⟨r, pos + 1⟩ :=
  ⟨[x], ⟨rfl, by rw [byteLength_cons, byteLength_nil, hsize]⟩, List.forall_mem_singleton.2 h⟩

end Cursor

/-! ## Characters of words -/

/-- Whether a character is no white space. -/
abbrev IsInk (x : Char) : Prop :=
  isBlank x = false

/-- The code points of white space. -/
def blankPoints : List Nat :=
  [0x09, 0x0A, 0x0B, 0x0C, 0x0D, 0x20, 0x85, 0xA0, 0x1680, 0x2000, 0x2001, 0x2002, 0x2003, 0x2004,
    0x2005, 0x2006, 0x2007, 0x2008, 0x2009, 0x200A, 0x2028, 0x2029, 0x202F, 0x205F, 0x3000]

theorem toNat_mem_of_isBlank {x : Char} (h : isBlank x = true) : x.toNat ∈ blankPoints := by
  simp only [isBlank, Bool.or_eq_true, Bool.and_eq_true, decide_eq_true_eq, beq_iff_eq,
    UInt32.le_iff_toNat_le, ← UInt32.toNat_inj] at h
  simp only [blankPoints, List.mem_cons, List.not_mem_nil]
  simp at h
  omega

/-- What holds of all characters at these code points holds of no white space. -/
theorem isInk_of_blankPoints {p : Char → Bool} (h : ∀ n ∈ blankPoints, p (Char.ofNat n) = false)
    {x : Char} (hx : p x = true) : IsInk x := by
  rw [IsInk, Bool.eq_false_iff]
  intro hblank
  have hpoint := h x.toNat (toNat_mem_of_isBlank hblank)
  rw [Char.ofNat_toNat, hx] at hpoint
  cases hpoint

theorem isInk_of_isIdentifierStart {x : Char} (h : isIdentifierStart x = true) : IsInk x :=
  isInk_of_blankPoints (by decide +kernel) h

theorem isInk_of_isIdentifierPart {x : Char} (h : isIdentifierPart x = true) : IsInk x :=
  isInk_of_blankPoints (by decide +kernel) h

/-- A hexadecimal digit has one byte. -/
theorem of_hexDigit? {x : Char} {d : Nat} (h : hexDigit? x = some d) :
    IsInk x ∧ x.utf8Size = 1 := by
  have hrange : 0x30 ≤ x.val.toNat ∧ x.val.toNat ≤ 0x66 := by
    unfold hexDigit? at h
    simp only [Char.le_def, UInt32.le_iff_toNat_le] at h
    split at h
    · next hx => exact ⟨hx.1, hx.2.trans (by decide)⟩
    · split at h
      · next hx => exact ⟨le_trans (by decide) hx.1, hx.2⟩
      · split at h
        · next hx => exact ⟨le_trans (by decide) hx.1, hx.2.trans (by decide)⟩
        · cases h
  refine ⟨?_, Char.utf8Size_eq_one_iff.2 ?_⟩
  · rw [IsInk, Bool.eq_false_iff]
    intro hblank
    exact (by decide : ∀ n ∈ blankPoints, ¬ (0x30 ≤ n ∧ n ≤ 0x66)) _ (toNat_mem_of_isBlank hblank)
      hrange
  · rw [UInt32.le_iff_toNat_le]
    exact hrange.2.trans (by decide)

/-! ## Escapes -/

section

variable {c c' : Cursor} {n value : Nat}

theorem takes_hexDigits? {k : Nat} (h : hexDigits? k value c = some (n, c')) :
    c.Takes IsInk c' := by
  induction k generalizing value c with
  | zero =>
    cases h
    exact .refl _
  | succ k ih =>
    unfold hexDigits? at h
    obtain ⟨x, hx, h⟩ := Option.bind_eq_some_iff.1 h
    obtain ⟨d, hd, h⟩ := Option.bind_eq_some_iff.1 h
    refine Cursor.Takes.trans (Cursor.takes_next fun y hy => ?_) (ih h)
    cases hx.symm.trans hy
    exact (of_hexDigit? hd).1

theorem takes_bracedDigits? {some? : Bool} {r : List Char} {pos : Nat}
    (h : bracedDigits? some? value r pos = some (n, c')) : Cursor.Takes IsInk ⟨r, pos⟩ c' := by
  induction r generalizing some? value pos with
  | nil => cases h
  | cons x r ih =>
    unfold bracedDigits? at h
    split at h
    · next heq => cases heq
    · next heq =>
      cases heq
      split at h
      · cases h
        exact Cursor.takes_cons (by decide) rfl
      · cases h
    · next heq =>
      cases heq
      obtain ⟨d, hd, h⟩ := Option.bind_eq_some_iff.1 h
      dsimp only at h
      split at h
      · cases h
      · exact (Cursor.takes_cons (of_hexDigit? hd).1 (of_hexDigit? hd).2).trans (ih h)

theorem takes_unicodeEscape? (h : unicodeEscape? c = some (n, c')) : c.Takes IsInk c' := by
  obtain ⟨rest, pos⟩ := c
  unfold unicodeEscape? at h
  split at h
  · next hrest =>
    obtain rfl := hrest
    exact (Cursor.takes_cons (by decide) rfl).trans (takes_bracedDigits? h)
  · exact takes_hexDigits? h

theorem reaches_unicodeEscapePair? (h : unicodeEscapePair? c = some (n, c')) : c.Reaches c' := by
  unfold unicodeEscapePair? at h
  obtain ⟨⟨hi, after⟩, hfirst, h⟩ := Option.bind_eq_some_iff.1 h
  have hafter : c.Reaches after := (takes_unicodeEscape? hfirst).reaches
  dsimp only at h
  split at h
  · split at h
    · next lo after' hsecond =>
      split at h
      · obtain ⟨-, rfl⟩ := Prod.mk.inj (Option.some.inj h)
        exact hafter.trans ((Cursor.reaches_skip 2 after).trans (takes_hexDigits? hsecond).reaches)
      · obtain ⟨-, rfl⟩ := Prod.mk.inj (Option.some.inj h)
        exact hafter
    · obtain ⟨-, rfl⟩ := Prod.mk.inj (Option.some.inj h)
      exact hafter
  · obtain ⟨-, rfl⟩ := Prod.mk.inj (Option.some.inj h)
    exact hafter

end

/-! ## Lexemes -/

/-- Whether a text can be that of a token. -/
def TokenKind.Spells (taken : List Char) : TokenKind → Prop
  | .word _ => ∀ x ∈ taken, IsInk x
  | .symbol sign => taken = sign.toList
  | _ => True

/-- Whether something was read at a cursor: it ends where its text does. -/
def Lexeme.IsRead (c : Cursor) (l : Lexeme) : Prop :=
  ∃ taken, c.Leads taken l.after ∧ l.kind.Spells taken

/-- Whether something was read from a cursor on that is neither a word nor a punctuator. -/
structure Lexeme.IsLiteral (c : Cursor) (l : Lexeme) : Prop where
  reaches : c.Reaches l.after
  spells : ∀ taken, l.kind.Spells taken

section

variable {c c' : Cursor} {l : Lexeme}

theorem Lexeme.IsLiteral.isRead (h : l.IsLiteral c) : l.IsRead c := by
  obtain ⟨taken, htaken, -⟩ := h.reaches
  exact ⟨taken, htaken, h.spells taken⟩

theorem Lexeme.IsLiteral.of_reaches (h : l.IsLiteral c') (hc : c.Reaches c') : l.IsLiteral c :=
  ⟨hc.trans h.reaches, h.spells⟩

theorem Lexeme.isLiteral_none (c : Cursor) : (Lexeme.none c).IsLiteral c :=
  ⟨c.reaches_next, fun _ => trivial⟩

theorem Lexeme.isRead_none (c : Cursor) : (Lexeme.none c).IsRead c :=
  (isLiteral_none c).isRead

/-- What is read if anything is, and nothing otherwise. -/
theorem Lexeme.isLiteral_getD {o : Option Lexeme} (h : ∀ l ∈ o, l.IsLiteral c) :
    (o.getD (.none c)).IsLiteral c := by
  cases o with
  | none => exact isLiteral_none c
  | some l => exact h l rfl

/-! ## Words -/

/-- A word has no white space in it, also where it is escaped. -/
theorem of_wordFrom {acc : List Char} {escaped : Bool} {fuel : Nat}
    (h : wordFrom acc escaped fuel c = some l) :
    c.Takes IsInk l.after ∧ ∃ name, l.kind = .word name := by
  have hink {acc : List Char} {x : Char} (hx : (if acc.isEmpty = true then isIdentifierStart x
      else isIdentifierPart x) = true) : IsInk x := by
    split at hx
    · exact isInk_of_isIdentifierStart hx
    · exact isInk_of_isIdentifierPart hx
  induction fuel generalizing acc escaped c with
  | zero => cases h
  | succ fuel ih =>
    obtain ⟨rest, pos⟩ := c
    unfold wordFrom at h
    split at h
    · next r hrest =>
      obtain rfl := hrest
      obtain ⟨⟨n, after⟩, hescape, h⟩ := Option.bind_eq_some_iff.1 h
      dsimp only at h
      by_cases hx : (if acc.isEmpty = true then isIdentifierStart (charOf n)
          else isIdentifierPart (charOf n)) = true
      · rw [if_pos hx] at h
        obtain ⟨hafter, hkind⟩ := ih h
        have hink : ∀ y ∈ ['\\', 'u'], IsInk y :=
          List.forall_mem_cons.2 ⟨by decide, List.forall_mem_singleton.2 (by decide)⟩
        have hmark : Cursor.Takes IsInk ⟨'\\' :: 'u' :: r, pos⟩
            (Cursor.skip 2 ⟨'\\' :: 'u' :: r, pos⟩) :=
          ⟨['\\', 'u'], Cursor.leads_skip rfl, hink⟩
        exact ⟨(hmark.trans (takes_unicodeEscape? hescape)).trans hafter, hkind⟩
      · rw [if_neg hx] at h
        cases h
    · next x r _ hrest =>
      obtain rfl := hrest
      by_cases hx : (if acc.isEmpty = true then isIdentifierStart x else isIdentifierPart x) = true
      · rw [if_pos hx] at h
        obtain ⟨hafter, hkind⟩ := ih h
        have hfirst : Cursor.Takes IsInk ⟨x :: r, pos⟩ (Cursor.next ⟨x :: r, pos⟩) :=
          Cursor.takes_next fun y hy => Option.some.inj hy ▸ hink hx
        exact ⟨hfirst.trans hafter, hkind⟩
      · rw [if_neg hx] at h
        split at h
        · cases h
        · cases h
          exact ⟨.refl _, _, rfl⟩
    · split at h
      · cases h
      · cases h
        exact ⟨.refl _, _, rfl⟩

theorem isRead_lexWord (fuel : Nat) (c : Cursor) : (lexWord fuel c).IsRead c := by
  unfold lexWord
  cases hword : wordFrom [] false fuel c with
  | none => exact Lexeme.isRead_none c
  | some l =>
    obtain ⟨⟨taken, htaken, hink⟩, name, hkind⟩ := of_wordFrom hword
    refine ⟨taken, htaken, ?_⟩
    rw [Option.getD_some, hkind]
    exact hink

theorem isLiteral_lexPrivateName (fuel : Nat) (c : Cursor) : (lexPrivateName fuel c).IsLiteral c := by
  unfold lexPrivateName
  split
  · next name escaped after hword =>
    obtain ⟨taken, htaken, -⟩ := isRead_lexWord fuel c.next
    rw [hword] at htaken
    exact ⟨c.reaches_next.trans ⟨taken, htaken, fun _ _ => trivial⟩, fun _ => trivial⟩
  · exact Lexeme.isLiteral_none c

/-! ## Numbers -/

theorem utf8Size_eq_one_of_le {x y : Char} (hy : y.val.toNat ≤ 127) (h : x ≤ y) :
    x.utf8Size = 1 := by
  rw [Char.le_def, UInt32.le_iff_toNat_le] at h
  rw [Char.utf8Size_eq_one_iff, UInt32.le_iff_toNat_le]
  exact h.trans hy

theorem utf8Size_of_isAsciiDigit {x : Char} (h : isAsciiDigit x = true) : x.utf8Size = 1 := by
  unfold isAsciiDigit at h
  rw [Bool.and_eq_true, decide_eq_true_eq, decide_eq_true_eq] at h
  exact utf8Size_eq_one_of_le (by decide) h.2

section

variable {isDigit : Char → Bool} (hdigit : ∀ x, isDigit x = true → x.utf8Size = 1)
include hdigit

theorem reaches_skipDigits {afterDigit : Bool} {r : List Char} {pos : Nat}
    (h : skipDigits isDigit afterDigit r pos = some c') : Cursor.Reaches ⟨r, pos⟩ c' := by
  induction r generalizing afterDigit pos with
  | nil =>
    cases h
    exact .refl _
  | cons x r ih =>
    unfold skipDigits at h
    split at h
    · next heq => cases heq
    · next heq =>
      cases heq
      split at h
      · exact (Cursor.takes_cons trivial rfl).trans (ih h)
      · cases h
    · next heq =>
      cases heq
      split at h
      · next hx => exact (Cursor.takes_cons trivial (hdigit _ hx)).trans (ih h)
      · cases h
        exact .refl _

theorem reaches_skipDigits1 (h : skipDigits1 isDigit c = some c') : c.Reaches c' := by
  unfold skipDigits1 at h
  split at h
  · exact reaches_skipDigits hdigit h
  · cases h

end

theorem isLiteral_endNumber {kind : TokenKind} (h : endNumber kind c = some l)
    (hkind : ∀ taken, kind.Spells taken) : l.IsLiteral c := by
  unfold endNumber at h
  split at h
  · split at h
    · cases h
    · cases h
      exact ⟨.refl c, hkind⟩
  · cases h
    exact ⟨.refl c, hkind⟩

theorem isLiteral_lexRadix {isDigit : Char → Bool}
    (hdigit : ∀ x, isDigit x = true → x.utf8Size = 1) (h : lexRadix isDigit c = some l) :
    l.IsLiteral c := by
  unfold lexRadix at h
  obtain ⟨after, hdigits, h⟩ := Option.bind_eq_some_iff.1 h
  have hafter : c.Reaches after :=
    (Cursor.reaches_skip 2 c).trans (reaches_skipDigits1 hdigit hdigits)
  split at h
  · exact (isLiteral_endNumber h fun _ => trivial).of_reaches (hafter.trans after.reaches_next)
  · exact (isLiteral_endNumber h fun _ => trivial).of_reaches hafter

theorem isLiteral_lexExponent (h : lexExponent c = some l) : l.IsLiteral c := by
  have hexponent {digits : Cursor} (hsign : c.Reaches digits)
      (h : (skipDigits1 isAsciiDigit digits).bind (endNumber .number) = some l) :
      l.IsLiteral c := by
    obtain ⟨after, hdigits, h⟩ := Option.bind_eq_some_iff.1 h
    exact (isLiteral_endNumber h fun _ => trivial).of_reaches
      (hsign.trans (reaches_skipDigits1 (fun _ => utf8Size_of_isAsciiDigit) hdigits))
  unfold lexExponent at h
  dsimp only at h
  split at h
  case h_3 => exact isLiteral_endNumber h fun _ => trivial
  all_goals
    split at h
    · exact hexponent (Cursor.reaches_skip 2 c) h
    · exact hexponent (Cursor.reaches_skip 2 c) h
    · exact hexponent c.reaches_next h

theorem isLiteral_lexFraction (h : lexFraction c = some l) : l.IsLiteral c := by
  unfold lexFraction at h
  split at h
  · split at h
    · obtain ⟨after, hdigits, h⟩ := Option.bind_eq_some_iff.1 h
      exact (isLiteral_lexExponent h).of_reaches (c.reaches_next.trans
        (reaches_skipDigits (fun _ => utf8Size_of_isAsciiDigit) hdigits))
    · split at h
      · cases h
      · exact (isLiteral_lexExponent h).of_reaches c.reaches_next
  · exact (isLiteral_lexExponent h).of_reaches c.reaches_next
  · exact isLiteral_lexExponent h

theorem isLiteral_number? (h : number? c = some l) : l.IsLiteral c := by
  have hoctal (x : Char) (hx : (decide ('0' ≤ x) && decide (x ≤ '7')) = true) : x.utf8Size = 1 := by
    rw [Bool.and_eq_true, decide_eq_true_eq, decide_eq_true_eq] at hx
    exact utf8Size_eq_one_of_le (by decide) hx.2
  have hbinary (x : Char) (hx : (x == '0' || x == '1') = true) : x.utf8Size = 1 := by
    rw [Bool.or_eq_true, beq_iff_eq, beq_iff_eq] at hx
    rcases hx with rfl | rfl <;> rfl
  have hhex (x : Char) (hx : (hexDigit? x).isSome = true) : x.utf8Size = 1 := by
    obtain ⟨d, hd⟩ := Option.isSome_iff_exists.1 hx
    exact (of_hexDigit? hd).2
  unfold number? at h
  split at h
  · split at h
    · exact isLiteral_lexRadix hhex h
    split at h
    · exact isLiteral_lexRadix hoctal h
    split at h
    · exact isLiteral_lexRadix hbinary h
    split at h
    · cases h
    split at h
    · exact (isLiteral_endNumber h fun _ => trivial).of_reaches (Cursor.reaches_skip 2 c)
    split at h
    · dsimp only at h
      split at h
      · exact (isLiteral_endNumber h fun _ => trivial).of_reaches
          (Cursor.reaches_skipWhile isAsciiDigit c)
      · exact (isLiteral_lexFraction h).of_reaches (Cursor.reaches_skipWhile isAsciiDigit c)
    · exact (isLiteral_lexFraction h).of_reaches c.reaches_next
  · exact isLiteral_lexFraction h
  · obtain ⟨after, hdigits, h⟩ := Option.bind_eq_some_iff.1 h
    have hafter : c.Reaches after :=
      reaches_skipDigits1 (fun _ => utf8Size_of_isAsciiDigit) hdigits
    split at h
    · exact (isLiteral_endNumber h fun _ => trivial).of_reaches (hafter.trans after.reaches_next)
    · exact (isLiteral_lexFraction h).of_reaches hafter

theorem isLiteral_lexNumber (c : Cursor) : (lexNumber c).IsLiteral c :=
  Lexeme.isLiteral_getD fun _ h => isLiteral_number? h

/-! ## Strings and templates -/

theorem reaches_octalDigits (n value : Nat) (c : Cursor) :
    c.Reaches (octalDigits n value c).2 := by
  induction n generalizing value c with
  | zero => exact .refl c
  | succ n ih =>
    unfold octalDigits
    split
    · exact c.reaches_next.trans (ih _ _)
    · exact .refl c

theorem reaches_stringEscape? {chars : List Char} (h : stringEscape? c = some (chars, c')) :
    c.Reaches c' := by
  unfold stringEscape? at h
  split at h
  · cases h
  · cases h
    exact Cursor.reaches_skip 2 c
  · obtain ⟨⟨n, after⟩, hescape, heq⟩ := Option.map_eq_some_iff.1 h
    cases heq
    exact c.reaches_next.trans (reaches_unicodeEscapePair? hescape)
  · obtain ⟨⟨n, after⟩, hescape, heq⟩ := Option.map_eq_some_iff.1 h
    cases heq
    exact c.reaches_next.trans (takes_hexDigits? hescape).reaches
  · split at h
    · cases h
      exact c.reaches_next
    · split at h
      · cases h
        exact c.reaches_next.trans (reaches_octalDigits _ _ _)
      · cases h
        exact c.reaches_next

theorem isLiteral_stringFrom {quote : Char} {acc : List Char} {fuel : Nat}
    (h : stringFrom quote acc fuel c = some l) : l.IsLiteral c := by
  induction fuel generalizing acc c with
  | zero => cases h
  | succ fuel ih =>
    unfold stringFrom at h
    split at h
    · cases h
    · obtain ⟨⟨chars, after⟩, hescape, h⟩ := Option.bind_eq_some_iff.1 h
      exact (ih h).of_reaches (c.reaches_next.trans (reaches_stringEscape? hescape))
    · split at h
      · cases h
        exact ⟨c.reaches_next, fun _ => trivial⟩
      · split at h
        · cases h
        · exact (ih h).of_reaches c.reaches_next

theorem isLiteral_lexString (fuel : Nat) (quote : Char) (c : Cursor) :
    (lexString fuel quote c).IsLiteral c :=
  Lexeme.isLiteral_getD fun _ h => (isLiteral_stringFrom h).of_reaches c.reaches_next

theorem isLiteral_lexJsxString (quote : Char) (c : Cursor) : (lexJsxString quote c).IsLiteral c := by
  unfold lexJsxString
  dsimp only
  split
  · exact Lexeme.isLiteral_none c
  · exact ⟨c.reaches_next.trans ((Cursor.reaches_skipWhile _ _).trans (Cursor.reaches_next _)),
      fun _ => trivial⟩

theorem isLiteral_templateFrom {cooked : Bool} {fuel : Nat}
    (h : templateFrom cooked fuel c = some l) : l.IsLiteral c := by
  induction fuel generalizing cooked c with
  | zero => cases h
  | succ fuel ih =>
    unfold templateFrom at h
    split at h
    · cases h
    · cases h
      exact ⟨c.reaches_next, fun _ => trivial⟩
    · cases h
      exact ⟨Cursor.reaches_skip 2 c, fun _ => trivial⟩
    · exact (ih h).of_reaches (Cursor.reaches_skip 2 c)
    · exact (ih h).of_reaches c.reaches_next

theorem isLiteral_lexTemplate (fuel : Nat) (c : Cursor) : (lexTemplate fuel c).IsLiteral c :=
  Lexeme.isLiteral_getD fun _ h => (isLiteral_templateFrom h).of_reaches c.reaches_next

/-! ## Regular expressions and text between tags -/

theorem reaches_skipRegexBody {inClass : Bool} {r : List Char} {pos : Nat}
    (h : skipRegexBody inClass r pos = some c') : Cursor.Reaches ⟨r, pos⟩ c' := by
  have hcons {x : Char} {r : List Char} {pos : Nat} :
      Cursor.Reaches ⟨x :: r, pos⟩ ⟨r, pos + x.utf8Size⟩ :=
    Cursor.reaches_next ⟨x :: r, pos⟩
  have hsign {x y : Char} {r : List Char} {pos : Nat} (hy : y.utf8Size = 1) (h : (x == y) = true) :
      Cursor.Reaches ⟨x :: r, pos⟩ ⟨r, pos + 1⟩ := by
    rw [beq_iff_eq] at h
    exact Cursor.takes_cons trivial (h ▸ hy)
  fun_induction skipRegexBody inClass r pos with
  | case1 | case2 | case4 => cases h
  | case3 _ _ _ _ _ ih =>
    exact (Cursor.takes_cons (p := fun _ => True) trivial rfl).trans (hcons.trans (ih h))
  | case5 _ _ _ _ _ _ hopen ih => exact (hsign rfl hopen).trans (ih h)
  | case6 _ _ _ _ _ _ _ hclose ih => exact (hsign rfl hclose).trans (ih h)
  | case7 _ _ _ _ _ _ _ _ hend =>
    cases h
    exact hsign rfl (Bool.and_eq_true_iff.1 hend).1
  | case8 _ _ _ _ _ _ _ _ _ ih => exact hcons.trans (ih h)

theorem isLiteral_lexRegex (c : Cursor) : (lexRegex c).IsLiteral c := by
  unfold lexRegex
  split
  · exact Lexeme.isLiteral_none c
  · next body hbody =>
    split
    · exact ⟨(c.reaches_next.trans (reaches_skipRegexBody hbody)).trans
        (Cursor.reaches_skipWhile isIdentifierPart body), fun _ => trivial⟩
    · exact Lexeme.isLiteral_none c

/-! ## Punctuators -/

/-- A sign of one character is read if the text goes on with it. -/
theorem isRead_sign {x : Char} {r : List Char} (hrest : c.rest = x :: r) {sign : String}
    (hsign : sign.toList = [x]) : Lexeme.IsRead c { kind := .symbol sign, after := c.next } :=
  ⟨[x], Cursor.leads_next hrest, hsign.symm⟩

theorem isRead_lexSign (signs : List (List Char)) (c : Cursor) : (lexSign signs c).IsRead c := by
  unfold lexSign
  split
  · next sign hfind =>
    have hstart : c.startsWith sign = true := List.find?_some hfind
    obtain ⟨r, hr⟩ := List.isPrefixOf_iff_prefix.1 hstart
    exact ⟨sign, Cursor.leads_skip hr.symm, String.toList_ofList.symm⟩
  · exact Lexeme.isRead_none c

theorem isRead_lexPunctuator (c : Cursor) : (lexPunctuator c).IsRead c := by
  unfold lexPunctuator
  split
  · next hrest => exact isRead_sign hrest rfl
  · next hrest =>
    split
    · exact isRead_sign hrest rfl
    · exact ⟨['?', '.'], Cursor.leads_skip hrest, rfl⟩
  · next hrest => exact ⟨['?', '.'], Cursor.leads_skip hrest, rfl⟩
  · exact isRead_lexSign punctuators c

theorem isRead_lexJsxChild (c : Cursor) : (lexJsxChild c).IsRead c := by
  unfold lexJsxChild
  split
  · exact ⟨[], .refl c, trivial⟩
  · next hrest => exact isRead_sign hrest rfl
  · next hrest => exact isRead_sign hrest rfl
  · dsimp only
    split
    · exact Lexeme.isRead_none c
    · exact ⟨_, Cursor.leads_skipWhile _ c, trivial⟩

/-- Whatever is read at a place ends where its text does. -/
theorem isRead_lex (fuel : Nat) (c : Cursor) : (lex fuel c).IsRead c := by
  unfold lex
  split
  · exact ⟨[], .refl c, trivial⟩
  · exact (isLiteral_lexString fuel _ c).isRead
  · exact (isLiteral_lexString fuel _ c).isRead
  · exact (isLiteral_lexTemplate fuel c).isRead
  · exact (isLiteral_lexPrivateName fuel c).isRead
  · exact isRead_lexWord fuel c
  · split
    · exact (isLiteral_lexNumber c).isRead
    · exact isRead_lexPunctuator c
  · split
    · exact (isLiteral_lexNumber c).isRead
    · split
      · exact isRead_lexWord fuel c
      · exact isRead_lexPunctuator c

/-! ## Names in tags -/

/-- A name in a tag is the text of its word with what follows up to the end of the name. -/
theorem leads_lexJsxName {wordEnd : Cursor} {taken : List Char} (h : c.Leads taken wordEnd)
    (hink : ∀ x ∈ taken, IsInk x) : ∃ name : List Char,
      (lexJsxName c wordEnd).kind = .word (String.ofList name) ∧
      c.Leads name (lexJsxName c wordEnd).after ∧ ∀ x ∈ name, IsInk x := by
  have hafter : wordEnd.Takes IsInk (lexJsxName c wordEnd).after := by
    unfold lexJsxName
    dsimp only
    split
    · refine Cursor.takes_skipWhile (fun x hx => ?_) wordEnd
      rcases Bool.or_eq_true_iff.1 hx with hpart | hhyphen
      · exact isInk_of_isIdentifierPart hpart
      · rw [beq_iff_eq] at hhyphen
        rw [hhyphen]
        decide
    · exact .refl wordEnd
  obtain ⟨more, hmore, hinkMore⟩ := hafter
  have hname := h.trans hmore
  refine ⟨taken ++ more, ?_, hname, List.forall_mem_append.2 ⟨hink, hinkMore⟩⟩
  have hlength : c.rest.length - (lexJsxName c wordEnd).after.rest.length =
      (taken ++ more).length := by
    rw [hname.rest, List.length_append]
    omega
  have htake : c.rest.take (taken ++ more).length = taken ++ more := by
    rw [hname.rest]
    exact List.take_left
  rw [← hlength] at htake
  exact congrArg (fun name => TokenKind.word (String.ofList name)) htake

end

/-! ## White space and comments -/

section

variable {c c' : Cursor}

theorem reaches_skipBlockComment {multiline m : Bool} {r : List Char} {pos : Nat}
    (h : skipBlockComment multiline r pos = some (c', m)) : Cursor.Reaches ⟨r, pos⟩ c' := by
  fun_induction skipBlockComment multiline r pos with
  | case1 => cases h
  | case2 =>
    cases h
    exact ⟨['*', '/'], ⟨rfl, rfl⟩, fun _ _ => trivial⟩
  | case3 _ x r pos _ ih => exact Cursor.Takes.trans (Cursor.reaches_next ⟨x :: r, pos⟩) (ih h)

theorem reaches_skipTrivia {fuel : Nat} {t t' : Trivia} (h : skipTrivia fuel t c = some (t', c')) :
    c.Reaches c' := by
  induction fuel generalizing t c with
  | zero =>
    cases h
    exact .refl _
  | succ fuel ih =>
    obtain ⟨rest, pos⟩ := c
    unfold skipTrivia at h
    split at h
    · exact (Cursor.reaches_skipWhile _ _).trans (ih h)
    · next r hrest =>
      obtain rfl := hrest
      obtain ⟨⟨stop, multiline⟩, hcomment, h⟩ := Option.bind_eq_some_iff.1 h
      have hopen : Cursor.Reaches ⟨'/' :: '*' :: r, pos⟩ ⟨r, pos + 2⟩ :=
        ⟨['/', '*'], ⟨rfl, rfl⟩, fun _ _ => trivial⟩
      exact (hopen.trans (reaches_skipBlockComment hcomment)).trans (ih h)
    · split at h
      · exact (Cursor.reaches_next _).trans (ih h)
      · split at h
        · exact (Cursor.reaches_next _).trans (ih h)
        · cases h
          exact .refl _
    · cases h
      exact .refl _

end

end ComponentScan.Syntax
