import ComponentScan.Proofs.Walk

/-!
# Calls of a walk

A visitor that enters every node of a tree, goes through its children and leaves it again makes the
flat list that a walk goes through (`Flattener.takeAll_hooks`). What a walk does with a callback is
a list of calls with their answers. The tree tells which calls follow which answers (`NodeCalls`,
`ForestCalls`), and the callback tells the answers, its state going from call to call (`Replays`).
Together they fix the walk (`walk_calls`).
-/

namespace ComponentScan

open Syntax

/-! ## Flat lists -/

/-- What a visitor tells of its way through a tree. -/
inductive Hook
  | enter (n : Node)
  | leave (n : Node)

mutual

/-- What a visitor tells of a node: between entering and leaving it the visitor goes through the
children. -/
def hooks : Node → List Hook
  | ⟨kind, span, children⟩ =>
    .enter ⟨kind, span, children⟩ :: (hooksAll children ++ [.leave ⟨kind, span, children⟩])

/-- What a visitor tells of some nodes. -/
def hooksAll : List Node → List Hook
  | [] => []
  | n :: rest => hooks n ++ hooksAll rest

end

/-- The nodes that have been entered, each with the number of nodes that were open then. -/
structure Flattener where
  nodes : List (Node × Nat) := []
  /-- The number of nodes that are open now. -/
  depth : Nat := 0

namespace Flattener

def take (f : Flattener) : Hook → Flattener
  | .enter n => ⟨f.nodes ++ [(n, f.depth)], f.depth + 1⟩
  | .leave _ => { f with depth := f.depth - 1 }

def takeAll (f : Flattener) (hs : List Hook) : Flattener :=
  hs.foldl take f

theorem takeAll_append (f : Flattener) (hs hs' : List Hook) :
    f.takeAll (hs ++ hs') = (f.takeAll hs).takeAll hs' :=
  List.foldl_append

mutual

theorem takeAll_hooks (f : Flattener) (n : Node) :
    f.takeAll (hooks n) = { f with nodes := f.nodes ++ flatten f.depth n } := by
  obtain ⟨kind, span, children⟩ := n
  rw [hooks, flatten]
  change (f.take (.enter _)).takeAll (hooksAll children ++ [.leave _]) = _
  rw [takeAll_append, takeAll_hooksAll]
  simp [takeAll, take]

theorem takeAll_hooksAll (f : Flattener) (ns : List Node) :
    f.takeAll (hooksAll ns) = { f with nodes := f.nodes ++ flattenAll f.depth ns } := by
  match ns with
  | [] => simp [hooksAll, flattenAll, takeAll]
  | n :: rest =>
    rw [hooksAll, takeAll_append, takeAll_hooks, takeAll_hooksAll, flattenAll]
    simp

end

end Flattener

/-! ## Calls -/

/-- A call of a callback: what it is told, and its answer. -/
structure Call (ε ρ : Type) where
  visit : Visit
  indent : Nat
  answer : Except ε (Option ρ)

/-- The call at a node with the given ancestors, for a walk that starts at an indentation. -/
def Call.at {ε ρ : Type} (indent : Nat) (ancestors : List Node) (n : Node)
    (answer : Except ε (Option ρ)) : Call ε ρ :=
  ⟨⟨n, ancestors.length, ancestors⟩, indent + (ancestors.length - 1), answer⟩

/-- What the answers to some calls come to: the failure, or else the first value. -/
def outcome {ε ρ : Type} : List (Call ε ρ) → Except ε (Option ρ)
  | [] => .ok none
  | c :: rest => do
    let first ← c.answer
    let others ← outcome rest
    return first.or others

mutual

/-- The calls at a node below the given ancestors and at its descendants. -/
inductive NodeCalls {ε ρ : Type} (indent : Nat) : List Node → Node → List (Call ε ρ) → Prop
  /-- Without a value the walk goes on to the children. -/
  | descend {ancestors : List Node} {n : Node} {below : List (Call ε ρ)}
    (h : ForestCalls indent (ancestors ++ [n]) n.children below) :
    NodeCalls indent ancestors n (.at indent ancestors n (.ok none) :: below)
  /-- A value keeps the walk out of the descendants. -/
  | prune (ancestors : List Node) (n : Node) (value : ρ) :
    NodeCalls indent ancestors n [.at indent ancestors n (.ok (some value))]
  | fail (ancestors : List Node) (n : Node) (e : ε) :
    NodeCalls indent ancestors n [.at indent ancestors n (.error e)]

/-- The calls at some nodes below the given ancestors and at their descendants. -/
inductive ForestCalls {ε ρ : Type} (indent : Nat) :
    List Node → List Node → List (Call ε ρ) → Prop
  | nil (ancestors : List Node) : ForestCalls indent ancestors [] []
  /-- Whatever the value at a node, the walk goes on to the next one. -/
  | cons {ancestors : List Node} {n : Node} {rest : List Node} {first others : List (Call ε ρ)}
    {value : Option ρ} (h : NodeCalls indent ancestors n first) (hvalue : outcome first = .ok value)
    (hrest : ForestCalls indent ancestors rest others) :
    ForestCalls indent ancestors (n :: rest) (first ++ others)
  /-- No call follows a failure. -/
  | stop {ancestors : List Node} {n : Node} {first : List (Call ε ρ)} {e : ε}
    (h : NodeCalls indent ancestors n first) (he : outcome first = .error e) (rest : List Node) :
    ForestCalls indent ancestors (n :: rest) first

end

/-- Whether a callback gives the answers of some calls, the first call being made in one state, each
other one in the state that the call before it leaves, and the last one leaving another state. -/
inductive Replays {σ ε ρ : Type} (onVisit : Callback σ ε ρ) : σ → List (Call ε ρ) → σ → Prop
  | nil (st : σ) : Replays onVisit st [] st
  | cons {st st₁ st₂ : σ} {c : Call ε ρ} {calls : List (Call ε ρ)}
    (h : (onVisit c.visit c.indent).run st = (c.answer, st₁))
    (hrest : Replays onVisit st₁ calls st₂) : Replays onVisit st (c :: calls) st₂

/-- A callback that notes its calls. -/
def Callback.recorded {σ ε ρ : Type} (onVisit : Callback σ ε ρ) :
    Callback (σ × List (Call ε ρ)) ε ρ :=
  fun v indent => ExceptT.mk fun (st, calls) =>
    let (answer, st') := (onVisit v indent).run st
    (answer, st', calls ++ [⟨v, indent, answer⟩])

variable {σ ε ρ : Type}

theorem Callback.run_recorded (onVisit : Callback σ ε ρ) (v : Visit) (indent : Nat) (st : σ)
    (before : List (Call ε ρ)) :
    (onVisit.recorded v indent).run (st, before) =
      (((onVisit v indent).run st).1, ((onVisit v indent).run st).2,
        before ++ [⟨v, indent, ((onVisit v indent).run st).1⟩]) := rfl

theorem outcome_cons_none {c : Call ε ρ} (h : c.answer = .ok none) (calls : List (Call ε ρ)) :
    outcome (c :: calls) = outcome calls := by
  rw [outcome, h]
  cases outcome calls <;> rfl

theorem outcome_append (calls calls' : List (Call ε ρ)) :
    outcome (calls ++ calls') = do
      let first ← outcome calls
      let others ← outcome calls'
      return first.or others := by
  induction calls with
  | nil => cases h : outcome calls' <;> simp [outcome, h, bind, Except.bind, pure, Except.pure]
  | cons c calls ih =>
    rw [List.cons_append, outcome, outcome, ih]
    cases c.answer with
    | error e => rfl
    | ok first =>
      cases outcome calls with
      | error e => rfl
      | ok value =>
        cases outcome calls' with
        | error e => rfl
        | ok others => simp [bind, Except.bind, pure, Except.pure, Option.or_assoc]

namespace Replays

variable {onVisit : Callback σ ε ρ} {st st₁ st₂ : σ} {calls calls' : List (Call ε ρ)}

theorem append (h : Replays onVisit st calls st₁) (h' : Replays onVisit st₁ calls' st₂) :
    Replays onVisit st (calls ++ calls') st₂ := by
  induction h with
  | nil => exact h'
  | cons h _ ih => exact .cons h (ih h')

theorem exists_of_append (h : Replays onVisit st (calls ++ calls') st₂) :
    ∃ st₁, Replays onVisit st calls st₁ ∧ Replays onVisit st₁ calls' st₂ := by
  induction calls generalizing st with
  | nil => exact ⟨st, .nil st, h⟩
  | cons c calls ih =>
    cases h with
    | cons h hrest =>
      obtain ⟨st₁, h₁, h₂⟩ := ih hrest
      exact ⟨st₁, .cons h h₁, h₂⟩

theorem recorded (h : Replays onVisit st calls st₁) (before : List (Call ε ρ)) :
    Replays onVisit.recorded (st, before) calls (st₁, before ++ calls) := by
  induction h generalizing before with
  | nil st =>
    rw [List.append_nil]
    exact .nil _
  | @cons st st₁ st₂ c calls h _ ih =>
    have hcall : (onVisit.recorded c.visit c.indent).run (st, before) =
        (c.answer, st₁, before ++ [c]) := by
      rw [Callback.run_recorded, h]
    have hrest := ih (before ++ [c])
    rw [List.append_assoc, List.singleton_append] at hrest
    exact .cons hcall hrest

end Replays

/-! ## Runs -/

theorem run_bind_of_ok {α β : Type} {m : Action σ ε α} {f : α → Action σ ε β} {st st' : σ} {a : α}
    (h : m.run st = (.ok a, st')) : (m >>= f).run st = (f a).run st' := by
  change ExceptT.bindCont f (m.run st).1 (m.run st).2 = _
  rw [h]
  rfl

theorem run_bind_of_error {α β : Type} {m : Action σ ε α} {f : α → Action σ ε β} {st st' : σ}
    {e : ε} (h : m.run st = (.error e, st')) : (m >>= f).run st = (.error e, st') := by
  change ExceptT.bindCont f (m.run st).1 (m.run st).2 = _
  rw [h]
  rfl

section

variable {indent : Nat} {onVisit : Callback σ ε ρ}

mutual

/-- Calls that the tree allows, with the answers of the callback, are what the traversal of a node
does. -/
theorem NodeCalls.run_traverseNode {ancestors : List Node} {n : Node} {calls : List (Call ε ρ)}
    (h : NodeCalls indent ancestors n calls) {st st' : σ}
    (hreplays : Replays onVisit st calls st') :
    (traverseNode indent onVisit ancestors n).run st = (outcome calls, st') := by
  obtain ⟨kind, span, children⟩ := n
  rw [traverseNode]
  match h, hreplays with
  | .descend hbelow, .cons hcall hrest =>
    refine (run_bind_of_ok hcall).trans ((hbelow.run_traverseNodes hrest).trans ?_)
    rw [outcome_cons_none rfl]
  | .prune _ _ value, .cons hcall (.nil _) => exact run_bind_of_ok hcall
  | .fail _ _ e, .cons hcall (.nil _) => exact run_bind_of_error hcall

theorem ForestCalls.run_traverseNodes {ancestors ns : List Node} {calls : List (Call ε ρ)}
    (h : ForestCalls indent ancestors ns calls) {st st' : σ}
    (hreplays : Replays onVisit st calls st') :
    (traverseNodes indent onVisit ancestors ns).run st = (outcome calls, st') := by
  match h with
  | .nil _ =>
    cases hreplays
    rfl
  | .cons hfirst hvalue hrest =>
    obtain ⟨st₁, hreplays₁, hreplays₂⟩ := hreplays.exists_of_append
    have hfirst := hfirst.run_traverseNode hreplays₁
    have hrest := hrest.run_traverseNodes hreplays₂
    rw [hvalue] at hfirst
    rw [traverseNodes, outcome_append, hvalue]
    refine (run_bind_of_ok hfirst).trans ?_
    generalize outcome _ = ended at hrest ⊢
    cases ended with
    | error e => exact run_bind_of_error hrest
    | ok value => exact run_bind_of_ok hrest
  | .stop hfirst he _ =>
    have hfirst := hfirst.run_traverseNode hreplays
    rw [he] at hfirst ⊢
    rw [traverseNodes]
    exact run_bind_of_error hfirst

end

variable (indent onVisit)

mutual

/-- A callback answers some calls that the tree allows. -/
theorem exists_nodeCalls (ancestors : List Node) (n : Node) (st : σ) :
    ∃ calls st', NodeCalls indent ancestors n calls ∧ Replays onVisit st calls st' := by
  obtain ⟨kind, span, children⟩ := n
  let n : Node := ⟨kind, span, children⟩
  rcases hcall : (onVisit ⟨n, ancestors.length, ancestors⟩ (indent + (ancestors.length - 1))).run st
    with ⟨answer, st₁⟩
  match answer with
  | .ok none =>
    obtain ⟨below, st₂, hbelow, hreplays⟩ := exists_forestCalls (ancestors ++ [n]) children st₁
    exact ⟨_, st₂, .descend (n := n) hbelow, .cons hcall hreplays⟩
  | .ok (some value) => exact ⟨_, st₁, .prune ancestors n value, .cons hcall (.nil st₁)⟩
  | .error e => exact ⟨_, st₁, .fail ancestors n e, .cons hcall (.nil st₁)⟩

theorem exists_forestCalls (ancestors ns : List Node) (st : σ) :
    ∃ calls st', ForestCalls indent ancestors ns calls ∧ Replays onVisit st calls st' := by
  match ns with
  | [] => exact ⟨[], st, .nil ancestors, .nil st⟩
  | n :: rest =>
    obtain ⟨first, st₁, hfirst, hreplays₁⟩ := exists_nodeCalls ancestors n st
    cases houtcome : outcome first with
    | error e => exact ⟨first, st₁, .stop hfirst houtcome rest, hreplays₁⟩
    | ok value =>
      obtain ⟨others, st₂, hrest, hreplays₂⟩ := exists_forestCalls ancestors rest st₁
      exact ⟨_, st₂, .cons hfirst houtcome hrest, hreplays₁.append hreplays₂⟩

end

end

/-- A walk goes through the flat list that a visitor of its tree makes, and does what the traversal
of the tree does, with any callback and from any state. Its calls are those that the tree allows
after the answers of the callback; its result is their outcome. -/
theorem walk_calls (root : Node) (indent : Nat) (onVisit : Callback σ ε ρ) (st : σ) :
    ({} : Flattener).takeAll (hooks root) = ⟨flatten 0 root, 0⟩ ∧
    walk root indent onVisit = traverse root indent onVisit ∧
    ∃ calls st', ForestCalls indent [root] root.children calls ∧ Replays onVisit st calls st' ∧
      (walk root indent onVisit).run st = (outcome calls, st') ∧
      (walk root indent onVisit.recorded).run (st, []) = (outcome calls, st', calls) := by
  refine ⟨Flattener.takeAll_hooks {} root, walk_eq_traverse root indent onVisit, ?_⟩
  obtain ⟨calls, st', hcalls, hreplays⟩ :=
    exists_forestCalls indent onVisit [root] root.children st
  refine ⟨calls, st', hcalls, hreplays, ?_, ?_⟩
  · rw [walk_eq_traverse]
    exact hcalls.run_traverseNodes hreplays
  · rw [walk_eq_traverse]
    exact hcalls.run_traverseNodes (hreplays.recorded [])

end ComponentScan
