import ComponentScan.Proofs.Syntax.Grammar.Programs
import ComponentScan.Proofs.Syntax.Program
import ComponentScan.Session

/-!
# Parsed files

All that results on scans use of the parser: what is known of a program that is read from a text
(`Program.IsReadFrom`). The grammar itself plays no part in them, and a parser that accepts other
texts, or reads them as other trees, would do as well if it guarantees the same.

Of the symbols that are resolved in a program no more is used than that they stand at its nodes
(`Scope.span_of_mem_resolveProgram`), that they move with it (`Scope.resolveProgram_move`), and that
the place of the root does not matter to them (`Scope.resolveProgram_congr`).
-/

namespace ComponentScan

open Syntax Text

/-- The characters of a text that is written in two pieces. A result on a fixed source is computed
from them: to take the characters of a long text from its bytes costs more than to parse it. -/
theorem toList_append_of {s t : String} {l m : List Char} (hs : s.toList = l) (ht : t.toList = m) :
    (s ++ t).toList = l ++ m := by
  rw [String.toList_append, hs, ht]

namespace Syntax.Program

/-- What is known of a program that is read from a text. -/
structure IsReadFrom (text : List Char) (p : Program) : Prop where
  kind_root : p.root.kind = .program
  /-- All offsets in the text are numbers of 32 bits. -/
  byteLength_le : byteLength text ≤ maxBytes
  /-- The comments stand apart, in the order of the text. -/
  ordered : p.comments.Pairwise fun e e' => e.2.stop ≤ e'.2.start
  exists_ne_feed : p.root.children ≠ [] → ∃ x ∈ text, x ≠ '\n'
  fitsIn : ∀ n ∈ p.root.nodes, n.FitsIn text

theorem isReadFrom_of_parse {dialect : Dialect} {text : String} {p : Program}
    (h : parse dialect text = some p) : p.IsReadFrom text.toList where
  kind_root := kind_root_of_parse h
  byteLength_le := byteLength_le_of_parse h
  ordered := ordered_of_parse h
  exists_ne_feed := exists_ne_feed_of_parse h
  fitsIn := fitsIn_of_parse h

end Syntax.Program

namespace Session

variable {path source : String} {s : Session}

theorem ofSource_eq_ok_iff :
    ofSource path source = .ok s ↔
      ∃ p, Program.parse (.ofPath path) source = some p ∧ s = ofProgram path source.toList p := by
  unfold ofSource ofText Program.parse
  cases Program.parseText (.ofPath path) source.toList with
  | none => exact iff_of_false nofun nofun
  | some p =>
    simp only [Except.ok.injEq, Option.some.injEq, exists_eq_left']
    exact eq_comm

theorem ofSource_eq_error_of_parse (h : Program.parse (.ofPath path) source = none) :
    ofSource path source = .error (.unparsable path) := by
  unfold ofSource ofText
  rw [← Program.parse, h]

theorem path_ofSource (h : ofSource path source = .ok s) : s.path = path := by
  obtain ⟨p, -, rfl⟩ := ofSource_eq_ok_iff.1 h
  rfl

/-- A session is that of a program, in its own text. -/
theorem exists_isReadFrom (h : ofSource path source = .ok s) :
    ∃ p : Program, p.IsReadFrom s.source ∧ s.root = p.root := by
  obtain ⟨p, hp, rfl⟩ := ofSource_eq_ok_iff.1 h
  exact ⟨p, Program.isReadFrom_of_parse hp, rfl⟩

theorem kind_root (h : ofSource path source = .ok s) : s.root.kind = .program := by
  obtain ⟨p, hp, hroot⟩ := exists_isReadFrom h
  exact hroot ▸ hp.kind_root

theorem fitsIn (h : ofSource path source = .ok s) : ∀ n ∈ s.root.nodes, n.FitsIn s.source := by
  obtain ⟨p, hp, hroot⟩ := exists_isReadFrom h
  exact hroot ▸ hp.fitsIn

theorem fits (h : ofSource path source = .ok s) : ∀ n ∈ s.root.nodes, n.Fits :=
  fun n hn => (fitsIn h n hn).toFits

end Session

end ComponentScan
