import ComponentScan.Syntax.Node

/-!
# Walks

A walk visits the strict descendants of a node in the order of the text and hands each to a callback
with its depth and its ancestors. A callback that yields a value keeps the walk out of the
descendants of its node; the first value is the result of the walk, which goes on with the rest of
the tree. A callback that fails ends the walk.

`walk` goes through the flat list of all nodes with their depths; `traverse` follows the tree.
-/

namespace ComponentScan

open Syntax

/-- What a callback sees of the tree. -/
structure Visit where
  node : Node
  /-- 1 for the children of the root. -/
  depth : Nat
  /-- The strict ancestors, the root of the walk first. -/
  ancestors : List Node
  deriving Inhabited

namespace Visit

def parent? (v : Visit) : Option Node :=
  v.ancestors.getLast?

/-- The ancestor above the parent. -/
def grandparent? (v : Visit) : Option Node :=
  v.ancestors.dropLast.getLast?

end Visit

/-- A computation on a state that may fail; what it did to the state before stays done. -/
abbrev Action (σ ε : Type) := ExceptT ε (StateM σ)

/-- A callback: it is told the visit and the indentation of what it logs. -/
abbrev Callback (σ ε ρ : Type) := Visit → Nat → Action σ ε (Option ρ)

/-! ## Along the list of nodes -/

mutual

/-- A node and its descendants in the order of the text, with their depths. -/
def flatten (depth : Nat) : Node → List (Node × Nat)
  | ⟨kind, span, children⟩ => (⟨kind, span, children⟩, depth) :: flattenAll (depth + 1) children

/-- Some nodes and their descendants in the order of the text, with their depths. -/
def flattenAll (depth : Nat) : List Node → List (Node × Nat)
  | [] => []
  | n :: rest => flatten depth n ++ flattenAll depth rest

end

/-- How far a walk has got. -/
structure WalkState (ρ : Type) where
  /-- The ancestors of the next node and perhaps deeper ones. -/
  path : List Node := []
  /-- The depth of the last node whose callback yielded a value, while its descendants come. -/
  prunedAt : Option Nat := none
  result : Option ρ := none

/-- Whether a node at a depth is kept out of the walk. -/
def WalkState.skips {ρ : Type} (w : WalkState ρ) (depth : Nat) : Bool :=
  w.prunedAt.any (· < depth)

/-- Takes the nodes of a list one after the other. -/
def walkList {σ ε ρ : Type} (indent : Nat) (onVisit : Callback σ ε ρ) (w : WalkState ρ) :
    List (Node × Nat) → Action σ ε (Option ρ)
  | [] => return w.result
  | (n, depth) :: rest => do
    let path := w.path.take depth
    if w.skips depth then walkList indent onVisit { w with path } rest
    else if depth = 0 then walkList indent onVisit { w with path := path ++ [n], prunedAt := none } rest
    else
      let value ← onVisit ⟨n, depth, path⟩ (indent + (depth - 1))
      walkList indent onVisit
        { path := path ++ [n], prunedAt := value.map fun _ => depth
          result := w.result.or value }
        rest

/-- Visits the strict descendants of a node. -/
def walk {σ ε ρ : Type} (root : Node) (indent : Nat) (onVisit : Callback σ ε ρ) :
    Action σ ε (Option ρ) :=
  walkList indent onVisit {} (flatten 0 root)

/-! ## Along the tree -/

mutual

/-- Visits a node below the given ancestors, and its descendants unless the callback yields a
value. -/
def traverseNode {σ ε ρ : Type} (indent : Nat) (onVisit : Callback σ ε ρ) (ancestors : List Node) :
    Node → Action σ ε (Option ρ)
  | ⟨kind, span, children⟩ => do
    let n : Node := ⟨kind, span, children⟩
    match ← onVisit ⟨n, ancestors.length, ancestors⟩ (indent + (ancestors.length - 1)) with
    | some value => return some value
    | none => traverseNodes indent onVisit (ancestors ++ [n]) children

/-- Visits some nodes below the given ancestors, and yields the first value. -/
def traverseNodes {σ ε ρ : Type} (indent : Nat) (onVisit : Callback σ ε ρ)
    (ancestors : List Node) : List Node → Action σ ε (Option ρ)
  | [] => return none
  | n :: rest => do
    let first ← traverseNode indent onVisit ancestors n
    let others ← traverseNodes indent onVisit ancestors rest
    return first.or others

end

/-- Visits the strict descendants of a node, following the tree. -/
def traverse {σ ε ρ : Type} (root : Node) (indent : Nat) (onVisit : Callback σ ε ρ) :
    Action σ ε (Option ρ) :=
  traverseNodes indent onVisit [root] root.children

/-! ## Descendants -/

/-- The strict descendants of a node in the order of the text. -/
def descendants (root : Node) : List Node :=
  (flattenAll 1 root.children).map (·.1)

end ComponentScan
