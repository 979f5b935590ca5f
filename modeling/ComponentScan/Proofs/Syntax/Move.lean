import ComponentScan.Proofs.Syntax.Nodes

/-!
# Moving a tree

`Node.move f` puts a tree elsewhere: each of its offsets `x` becomes `f x`, and nothing else changes.
What is read off a tree by its kinds and children moves along, so every accessor, the list of all
nodes and the visits of a walk commute with it.
-/

namespace ComponentScan

/-- The span between the images of its ends. -/
def Span.move (f : Nat → Nat) (span : Span) : Span :=
  ⟨f span.start, f span.stop⟩

namespace Syntax.Node

mutual

/-- The tree with its offsets moved. -/
def move (f : Nat → Nat) : Node → Node
  | ⟨kind, span, children⟩ => ⟨kind, span.move f, moveAll f children⟩

/-- Trees with their offsets moved. -/
def moveAll (f : Nat → Nat) : List Node → List Node
  | [] => []
  | n :: rest => move f n :: moveAll f rest

end

variable (f : Nat → Nat) (n : Node)

@[simp] theorem moveAll_eq_map (ns : List Node) : moveAll f ns = ns.map (move f) := by
  induction ns with
  | nil => rfl
  | cons n ns ih => rw [moveAll, ih, List.map_cons]

@[simp] theorem move_mk (kind : Kind) (span : Span) (children : List Node) :
    move f ⟨kind, span, children⟩ = ⟨kind, span.move f, children.map (move f)⟩ := by
  rw [move, moveAll_eq_map]

@[simp] theorem kind_move : (n.move f).kind = n.kind := by
  cases n
  rw [move_mk]

@[simp] theorem span_move : (n.move f).span = n.span.move f := by
  cases n
  rw [move_mk]

@[simp] theorem children_move : (n.move f).children = n.children.map (move f) := by
  cases n
  rw [move_mk]

@[simp] theorem start_move : (n.move f).start = f n.start := by
  rw [start, span_move]
  rfl

@[simp] theorem stop_move : (n.move f).stop = f n.stop := by
  rw [stop, span_move]
  rfl

/-! ## Accessors -/

@[simp] theorem child?_move (p : Kind → Bool) : (n.move f).child? p = (n.child? p).map (move f) := by
  have hkind : (fun c : Node => p c.kind) ∘ move f = fun c => p c.kind :=
    funext fun c => congrArg p (kind_move f c)
  rw [child?, child?, children_move, List.find?_map, hkind]

@[simp] theorem id?_move : (n.move f).id? = n.id?.map (move f) :=
  child?_move f n _

@[simp] theorem text?_move : (n.move f).text? = n.text? := by
  simp [text?]

@[simp] theorem functionBody?_move : (n.move f).functionBody? = n.functionBody?.map (move f) :=
  child?_move f n _

@[simp] theorem superClass?_move : (n.move f).superClass? = n.superClass?.map (move f) :=
  child?_move f n _

@[simp] theorem classMembers_move : (n.move f).classMembers = n.classMembers.map (move f) := by
  unfold classMembers
  rw [child?_move]
  cases n.child? Kind.isClassBody <;> simp

@[simp] theorem binding?_move : (n.move f).binding? = n.binding?.map (move f) := by
  simp [binding?]

@[simp] theorem initializer?_move : (n.move f).initializer? = n.initializer?.map (move f) := by
  simp only [initializer?, children_move, ← List.map_drop, List.find?_map, Function.comp_def,
    kind_move]

@[simp] theorem memberKey?_move : (n.move f).memberKey? = n.memberKey?.map (move f) :=
  child?_move f n _

@[simp] theorem memberValue?_move : (n.move f).memberValue? = n.memberValue?.map (move f) := by
  simp only [memberValue?, children_move, List.filter_map, ← List.map_drop, List.find?_map,
    Function.comp_def, kind_move]

end Syntax.Node

open Syntax

/-! ## All nodes -/

mutual

theorem flatten_move (f : Nat → Nat) (depth : Nat) : ∀ n : Node,
    flatten depth (n.move f) = (flatten depth n).map fun e => (e.1.move f, e.2)
  | ⟨kind, span, children⟩ => by
    have hchildren := flattenAll_move f (depth + 1) children
    simp only [Node.move_mk, flatten, List.map_cons, hchildren]

theorem flattenAll_move (f : Nat → Nat) (depth : Nat) : ∀ ns : List Node,
    flattenAll depth (ns.map (Node.move f)) = (flattenAll depth ns).map fun e => (e.1.move f, e.2)
  | [] => rfl
  | n :: rest => by
    have hfirst := flatten_move f depth n
    have hothers := flattenAll_move f depth rest
    simp only [List.map_cons, flattenAll, List.map_append, hfirst, hothers]

end

@[simp] theorem descendants_move (f : Nat → Nat) (n : Node) :
    descendants (n.move f) = (descendants n).map (Node.move f) := by
  simp [descendants, flattenAll_move]

@[simp] theorem Node.nodes_move (f : Nat → Nat) (n : Node) :
    (n.move f).nodes = n.nodes.map (Node.move f) := by
  simp [Node.nodes]

/-! ## Visits -/

/-- The visit of the moved tree. -/
def Visit.move (f : Nat → Nat) (v : Visit) : Visit :=
  ⟨v.node.move f, v.depth, v.ancestors.map (Node.move f)⟩

section

variable (f : Nat → Nat) (v : Visit)

@[simp] theorem Visit.node_move : (v.move f).node = v.node.move f := rfl

@[simp] theorem Visit.ancestors_move : (v.move f).ancestors = v.ancestors.map (Node.move f) := rfl

@[simp] theorem Visit.parent?_move : (v.move f).parent? = v.parent?.map (Node.move f) := by
  simp [parent?]

end

mutual

theorem visitsOf_move (f : Nat → Nat) (ancestors : List Node) : ∀ n : Node,
    visitsOf (ancestors.map (Node.move f)) (n.move f) = (visitsOf ancestors n).map (Visit.move f)
  | ⟨kind, span, children⟩ => by
    have hbelow := visitsBelow_move f (ancestors ++ [⟨kind, span, children⟩]) children
    rw [List.map_append, List.map_singleton, Node.move_mk] at hbelow
    simp only [Node.move_mk, visitsOf, List.map_cons, hbelow, Visit.move, List.length_map]

theorem visitsBelow_move (f : Nat → Nat) (ancestors : List Node) : ∀ ns : List Node,
    visitsBelow (ancestors.map (Node.move f)) (ns.map (Node.move f)) =
      (visitsBelow ancestors ns).map (Visit.move f)
  | [] => rfl
  | n :: rest => by
    have hfirst := visitsOf_move f ancestors n
    have hothers := visitsBelow_move f ancestors rest
    simp only [List.map_cons, visitsBelow, List.map_append, hfirst, hothers]

end

/-- The visits of a moved tree are the moved visits. -/
@[simp] theorem visits_move (f : Nat → Nat) (root : Node) :
    visits (root.move f) = (visits root).map (Visit.move f) := by
  have hbelow := visitsBelow_move f [root] root.children
  rw [List.map_singleton] at hbelow
  simpa only [visits, Node.children_move] using hbelow

end ComponentScan
