import ComponentScan.Proofs.Syntax.Lexemes
import ComponentScan.Proofs.Text.Insertion
import ComponentScan.Syntax.Program

/-!
# States in a text

A parser goes through its text from left to right: the current token stands where the state says, the
last one that was taken ends before it, and what follows is what is left of the text (`State.IsIn`).
All that changes a state keeps to this, since whatever is read ends where its text does.
-/

namespace ComponentScan.Syntax

open Text

variable {text : List Char}

/-! ## Slices between cursors -/

namespace Cursor

variable {c c' : Cursor} {taken : List Char}

/-- Whether a cursor is somewhere in a text. -/
def IsIn (text : List Char) (c : Cursor) : Prop :=
  Reaches ⟨text, 0⟩ c

theorem IsIn.slice?_eq (h : c.IsIn text) (htaken : c.Leads taken c') :
    slice? text c.pos c'.pos = some taken := by
  obtain ⟨before, hbefore, -⟩ := h
  refine slice?_eq_some_iff.2 ⟨before, c'.rest, ?_, ?_, ?_⟩
  · rw [List.append_assoc, ← htaken.rest]
    exact hbefore.rest
  · rw [hbefore.pos, Nat.zero_add]
  · rw [byteLength_append, htaken.pos, hbefore.pos, Nat.zero_add]

/-- A text has one cursor at a byte. -/
theorem IsIn.eq_of_pos_eq (h : c.IsIn text) (h' : c'.IsIn text) (hpos : c.pos = c'.pos) : c = c' := by
  obtain ⟨before, hbefore, -⟩ := h
  obtain ⟨before', hbefore', -⟩ := h'
  obtain ⟨rest, pos⟩ := c
  obtain ⟨rest', pos'⟩ := c'
  obtain rfl : pos = pos' := hpos
  have hbytes : byteLength before = byteLength before' :=
    Nat.add_left_cancel (hbefore.pos.symm.trans hbefore'.pos)
  have happend : before ++ rest = before' ++ rest' := hbefore.rest.symm.trans hbefore'.rest
  rw [(append_inj_of_byteLength happend hbytes).2]

end Cursor

/-! ## States -/

/-- Whether what a state says of the current token and of the one before it is so in a text. -/
structure State.IsIn (text : List Char) (s : State) : Prop where
  place : ∃ last : Cursor, last.IsIn text ∧ last.pos = s.prevStop ∧ last.Reaches s.here
  token : ∃ taken, s.here.Leads taken s.after ∧ s.token.kind.Spells taken
  start_eq : s.token.start = s.here.pos
  stop_eq : s.token.stop = s.after.pos

theorem State.prevStop_advance (size : Nat) (lexer : Cursor → Lexeme) (s : State) :
    (s.advance size lexer).prevStop = s.token.stop := by
  unfold State.advance
  dsimp only
  split <;> rfl

namespace State.IsIn

variable {s : State} {place : Cursor} {lexeme : Lexeme} {lexer : Cursor → Lexeme}

theorem isIn_here (h : s.IsIn text) : s.here.IsIn text := by
  obtain ⟨last, hlast, -, hhere⟩ := h.place
  exact hlast.trans hhere

theorem isIn_after (h : s.IsIn text) : s.after.IsIn text := by
  obtain ⟨taken, htaken, -⟩ := h.token
  exact h.isIn_here.trans ⟨taken, htaken, fun _ _ => trivial⟩

/-- A token that is read behind the last one becomes the current token. -/
theorem load {last : Cursor} (hlast : last.IsIn text) (hpos : last.pos = s.prevStop)
    (hplace : last.Reaches place) (hread : lexeme.IsRead place) (newline : Bool) :
    (s.load place newline lexeme).IsIn text :=
  ⟨⟨last, hlast, hpos, hplace⟩, hread, rfl, rfl⟩

/-- The current token can be read anew. -/
theorem reread (h : s.IsIn text) (hread : lexeme.IsRead s.here) (newline : Bool) :
    (s.load s.here newline lexeme).IsIn text := by
  obtain ⟨last, hlast, hpos, hhere⟩ := h.place
  exact load hlast hpos hhere hread newline

theorem advanceTight (h : s.IsIn text) (hread : lexeme.IsRead s.after) (newline : Bool) :
    (State.load { s with prevStop := s.token.stop } s.after newline lexeme).IsIn text :=
  load h.isIn_after h.stop_eq.symm (.refl s.after) hread newline

theorem advance (h : s.IsIn text) (hlexer : ∀ c, (lexer c).IsRead c) (size : Nat) :
    (s.advance size lexer).IsIn text := by
  unfold State.advance
  dsimp only
  split
  · exact h.advanceTight (Lexeme.isRead_none s.after) false
  · next trivia place hskip =>
    have hload : (State.load { s with prevStop := s.token.stop } place trivia.newline
        (lexer place)).IsIn text :=
      load h.isIn_after h.stop_eq.symm (reaches_skipTrivia hskip) (hlexer place) trivia.newline
    exact ⟨hload.place, hload.token, hload.start_eq, hload.stop_eq⟩

/-- What stands between the token before a sign and the token after it. -/
theorem exists_gap {sign : String} (h : s.IsIn text) (hsign : s.token.kind = .symbol sign)
    (hlexer : ∀ c, (lexer c).IsRead c) (size : Nat) : ∃ before behind,
      slice? text s.prevStop (s.advance size lexer).here.pos =
        some (before ++ (sign.toList ++ behind)) := by
  obtain ⟨last, hlast, hpos, before, hbefore, -⟩ := h.place
  obtain ⟨taken, htaken, hspells⟩ := h.token
  rw [hsign] at hspells
  obtain rfl : taken = sign.toList := hspells
  obtain ⟨last', hlast', hpos', behind, hbehind, -⟩ := (h.advance hlexer size).place
  rw [State.prevStop_advance, h.stop_eq] at hpos'
  obtain rfl := hlast'.eq_of_pos_eq h.isIn_after hpos'
  exact ⟨before, behind, hpos ▸ hlast.slice?_eq (hbefore.trans (htaken.trans hbehind))⟩

end State.IsIn

/-- The state in front of the first token. -/
theorem State.isIn_first {c : Cursor} (hc : c.IsIn text) (size : Nat) :
    (State.first size c).IsIn text := by
  have hstart : Cursor.IsIn text ⟨text, 0⟩ := .refl _
  unfold State.first
  dsimp only
  split
  · exact State.IsIn.load hstart rfl hc (Lexeme.isRead_none c) true
  · next trivia place hskip =>
    let start : State :=
      { token := { kind := .eof, start := 0, stop := 0, newlineBefore := false, escaped := false }
        here := c
        after := c }
    have hload : (start.load place trivia.newline (lex size place)).IsIn text :=
      State.IsIn.load hstart rfl (hc.trans (reaches_skipTrivia hskip)) (isRead_lex size place) _
    exact ⟨hload.place, hload.token, hload.start_eq, hload.stop_eq⟩

end ComponentScan.Syntax
