import ComponentScan.Identity
import ComponentScan.Proofs.Except
import ComponentScan.Proofs.Scope.Move
import Mathlib.Logic.Function.Basic

/-!
# Moved sessions

A session is another one moved if their trees differ by where they stand only (`Session.IsMoved`).
Offsets that were different must stay so, since identifiers are found by where they start. Then a
node and its image name the same symbol and have the same identity.
-/

namespace ComponentScan

open Syntax Scope

/-- The session `s'` is `s` with its offsets moved; the lines of all spans stay. -/
structure Session.IsMoved (f : Nat → Nat) (s s' : Session) : Prop where
  injective : Function.Injective f
  path : s'.path = s.path
  root : s'.root = s.root.move f
  symbols : s'.symbols = s.symbols.map (moveEntry f)
  location : ∀ span, s'.location (span.move f) = s.location span

/-- Identifiers are found by where they start, so they are found in moved symbols. -/
theorem Session.symbolAt?_move_of_symbols {f : Nat → Nat} {s s' : Session}
    (hf : Function.Injective f) (h : s'.symbols = s.symbols.map (moveEntry f)) (n : Node) :
    s'.symbolAt? (n.move f) = (s.symbolAt? n).map (Symbol.move f) := by
  have hstart (x : Nat) : (f x == f n.start) = (x == n.start) := by
    rw [Bool.eq_iff_iff, beq_iff_eq, beq_iff_eq, hf.eq_iff]
  unfold symbolAt?
  rw [Node.kind_move]
  split
  · simp [h, List.find?_map, Function.comp_def, moveEntry, hstart]
  · simp [h, List.find?_map, Function.comp_def, moveEntry, hstart]
  · rfl

theorem Session.mem_symbols_of_symbolAt? {s : Session} {n : Node} {symbol : Symbol}
    (h : s.symbolAt? n = some symbol) : ∃ e ∈ s.symbols, e.2 = symbol := by
  unfold symbolAt? at h
  split at h
  · obtain ⟨e, he, rfl⟩ := Option.map_eq_some_iff.1 h
    exact ⟨e, List.mem_of_find?_eq_some he, rfl⟩
  · obtain ⟨e, he, rfl⟩ := Option.map_eq_some_iff.1 h
    exact ⟨e, List.mem_of_find?_eq_some he, rfl⟩
  · cases h

theorem nameBearer?_move (f : Nat → Nat) (n : Node) :
    nameBearer? (n.move f) = (nameBearer? n).map (Node.move f) := by
  unfold nameBearer?
  rw [Node.kind_move]
  split
  all_goals simp [Option.filter_map, Function.comp_def]

namespace Session.IsMoved

variable {f : Nat → Nat} {s s' : Session} (h : s.IsMoved f s')
include h

theorem symbolAt?_move (n : Node) :
    s'.symbolAt? (n.move f) = (s.symbolAt? n).map (Symbol.move f) :=
  symbolAt?_move_of_symbols h.injective h.symbols n

theorem identityOf_move (symbol : Symbol) : s'.identityOf (symbol.move f) = s.identityOf symbol := by
  rw [identityOf, identityOf, h.path]
  rfl

theorem agree_identifyWithin (steps : Nat) (n : Node) :
    Agree Eq (s.identifyWithin steps n) (s'.identifyWithin steps (n.move f)) := by
  induction steps generalizing n with
  | zero =>
    unfold identifyWithin
    rw [h.symbolAt?_move]
    cases s.symbolAt? n with
    | some symbol => exact .ok (h.identityOf_move symbol).symm
    | none => exact .error _ _
  | succ steps ih =>
    unfold identifyWithin
    rw [h.symbolAt?_move, nameBearer?_move]
    cases s.symbolAt? n with
    | some symbol => exact .ok (h.identityOf_move symbol).symm
    | none =>
      cases nameBearer? n with
      | some child => exact ih child
      | none => exact .error _ _

/-- A node and its image have the same identity, or neither has one. -/
theorem agree_identify (n : Node) : Agree Eq (s.identify n) (s'.identify (n.move f)) :=
  h.agree_identifyWithin 2 n

end Session.IsMoved

end ComponentScan
