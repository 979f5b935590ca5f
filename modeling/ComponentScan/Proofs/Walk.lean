import ComponentScan.Walk

/-!
# Walks follow the tree

The walk along the list of nodes makes the calls of the traversal of the tree (`walk_eq_traverse`):
what it remembers of the path and of the node whose callback yielded a value is, in front of each
node, what the recursion knows. A callback that never yields a value is called at every strict
descendant in the order of the text (`walk_ofStep`).
-/

namespace ComponentScan

open Syntax

variable {σ ε ρ : Type} (indent : Nat) (onVisit : Callback σ ε ρ)

/-! ## Depths -/

mutual

theorem le_of_mem_flatten {depth : Nat} {n : Node} {e : Node × Nat} (h : e ∈ flatten depth n) :
    depth ≤ e.2 := by
  obtain ⟨kind, span, children⟩ := n
  rw [flatten] at h
  rcases List.mem_cons.1 h with rfl | h
  · exact Nat.le_refl _
  · exact Nat.le_of_succ_le (le_of_mem_flattenAll h)

theorem le_of_mem_flattenAll {depth : Nat} {ns : List Node} {e : Node × Nat}
    (h : e ∈ flattenAll depth ns) : depth ≤ e.2 := by
  match ns with
  | [] => cases h
  | n :: rest =>
    rw [flattenAll] at h
    rcases List.mem_append.1 h with h | h
    · exact le_of_mem_flatten h
    · exact le_of_mem_flattenAll h

end

/-- Whether a list is empty or goes on at a depth no greater than `depth`. -/
def LeavesAt (depth : Nat) (rest : List (Node × Nat)) : Prop :=
  ∀ e ∈ rest.head?, e.2 ≤ depth

theorem leavesAt_nil (depth : Nat) : LeavesAt depth [] := nofun

theorem LeavesAt.mono {depth depth' : Nat} {rest : List (Node × Nat)} (h : LeavesAt depth rest)
    (hle : depth ≤ depth') : LeavesAt depth' rest :=
  fun e he => Nat.le_trans (h e he) hle

theorem leavesAt_flattenAll {depth : Nat} {ns : List Node} {rest : List (Node × Nat)}
    (h : LeavesAt depth rest) : LeavesAt depth (flattenAll depth ns ++ rest) := by
  cases ns with
  | nil => exact h
  | cons n ns =>
    obtain ⟨kind, span, children⟩ := n
    rintro e ⟨⟩
    exact Nat.le_refl _

/-! ## States of a walk -/

/-- Nodes below one that yielded a value are passed over. -/
theorem walkList_skip {depth : Nat} {below : List (Node × Nat)} (h : ∀ e ∈ below, depth < e.2)
    (path : List Node) (result : Option ρ) (rest : List (Node × Nat)) :
    ∃ path', path'.take depth = path.take depth ∧
      walkList indent onVisit ⟨path, some depth, result⟩ (below ++ rest) =
        walkList indent onVisit ⟨path', some depth, result⟩ rest := by
  induction below generalizing path with
  | nil => exact ⟨path, rfl, rfl⟩
  | cons e below ih =>
    obtain ⟨he, hbelow⟩ := List.forall_mem_cons.1 h
    obtain ⟨path', hpath, hwalk⟩ := ih hbelow (path.take e.2)
    refine ⟨path', ?_, ?_⟩
    · rw [hpath, List.take_take, Nat.min_eq_left (Nat.le_of_lt he)]
    · rw [List.cons_append, walkList, ← hwalk]
      simp [WalkState.skips, he]

/-- Only the path above the next node counts. -/
theorem walkList_take {depth : Nat} {rest : List (Node × Nat)} (h : LeavesAt depth rest)
    {w : WalkState ρ} (hskip : ∀ d ∈ w.prunedAt, depth ≤ d) :
    walkList indent onVisit w rest =
      walkList indent onVisit ⟨w.path.take depth, none, w.result⟩ rest := by
  cases rest with
  | nil => rfl
  | cons e rest =>
    obtain ⟨n, d⟩ := e
    have hd : d ≤ depth := h _ rfl
    have hskips : w.skips d = false := by
      cases hp : w.prunedAt with
      | none => simp [WalkState.skips, hp]
      | some p => simpa [WalkState.skips, hp] using Nat.le_trans hd (hskip p hp)
    rw [walkList, walkList, hskips]
    simp [WalkState.skips, List.take_take, Nat.min_eq_left hd]

mutual

theorem walkList_flatten (ancestors : List Node) (hne : ancestors ≠ []) (n : Node)
    (result : Option ρ) {rest : List (Node × Nat)} (h : LeavesAt ancestors.length rest) :
    walkList indent onVisit ⟨ancestors, none, result⟩ (flatten ancestors.length n ++ rest) =
      traverseNode indent onVisit ancestors n >>= fun value =>
        walkList indent onVisit ⟨ancestors, none, result.or value⟩ rest := by
  obtain ⟨kind, span, children⟩ := n
  have hdepth : ancestors.length ≠ 0 := fun h => hne (List.length_eq_zero_iff.1 h)
  have hpath (n : Node) : (ancestors ++ [n]).take ancestors.length = ancestors := by simp
  rw [flatten, List.cons_append, walkList, traverseNode]
  simp only [WalkState.skips, Option.any_none, Bool.false_eq_true, if_false, hdepth,
    List.take_length, bind_assoc]
  congr 1
  funext value
  cases value with
  | some value =>
    have hbelow : ∀ e ∈ flattenAll (ancestors.length + 1) children, ancestors.length < e.2 :=
      fun e he => le_of_mem_flattenAll he
    obtain ⟨path', hpath', hwalk⟩ := walkList_skip indent onVisit hbelow
      (ancestors ++ [Node.mk kind span children]) (result.or (some value)) rest
    simp only [Option.map_some, pure_bind]
    rw [hwalk, walkList_take indent onVisit h (by simp), hpath', hpath]
  | none =>
    have hlength : (ancestors ++ [Node.mk kind span children]).length = ancestors.length + 1 := by
      simp
    have hwalk := walkList_flattenAll (ancestors ++ [Node.mk kind span children]) (by simp) children
      result (h.mono (by simp))
    rw [hlength] at hwalk
    simp only [Option.map_none, Option.or_none]
    rw [hwalk]
    congr 1
    funext value
    rw [walkList_take indent onVisit h (by simp), hpath]

theorem walkList_flattenAll (ancestors : List Node) (hne : ancestors ≠ []) (ns : List Node)
    (result : Option ρ) {rest : List (Node × Nat)} (h : LeavesAt ancestors.length rest) :
    walkList indent onVisit ⟨ancestors, none, result⟩ (flattenAll ancestors.length ns ++ rest) =
      traverseNodes indent onVisit ancestors ns >>= fun value =>
        walkList indent onVisit ⟨ancestors, none, result.or value⟩ rest := by
  match ns with
  | [] => simp [flattenAll, traverseNodes]
  | n :: ns =>
    rw [flattenAll, List.append_assoc, walkList_flatten ancestors hne n result
      (leavesAt_flattenAll h), traverseNodes]
    simp only [bind_assoc, pure_bind]
    congr 1
    funext first
    rw [walkList_flattenAll ancestors hne ns _ h]
    simp only [Option.or_assoc]

end

/-- The walk along the list of nodes is the traversal of the tree. -/
theorem walk_eq_traverse (root : Node) (indent : Nat) (onVisit : Callback σ ε ρ) :
    walk root indent onVisit = traverse root indent onVisit := by
  obtain ⟨kind, span, children⟩ := root
  have hwalk := walkList_flattenAll indent onVisit [⟨kind, span, children⟩] (by simp) children none
    (leavesAt_nil 1)
  rw [List.append_nil] at hwalk
  rw [walk, flatten, walkList]
  simpa [WalkState.skips, traverse, walkList] using hwalk

/-! ## Callbacks that yield nothing -/

mutual

/-- The visits of a node below the given ancestors and of its descendants. -/
def visitsOf (ancestors : List Node) : Node → List Visit
  | ⟨kind, span, children⟩ =>
    let n : Node := ⟨kind, span, children⟩
    ⟨n, ancestors.length, ancestors⟩ :: visitsBelow (ancestors ++ [n]) children

/-- The visits of some nodes below the given ancestors and of their descendants. -/
def visitsBelow (ancestors : List Node) : List Node → List Visit
  | [] => []
  | n :: rest => visitsOf ancestors n ++ visitsBelow ancestors rest

end

/-- The visits of the strict descendants of a node in the order of the text. -/
def visits (root : Node) : List Visit :=
  visitsBelow [root] root.children

/-- Calls a step at each visit, with the indentation of a walk. -/
def forVisits (indent : Nat) (step : Visit → Nat → Action σ ε Unit) (vs : List Visit) :
    Action σ ε Unit :=
  vs.forM fun v => step v (indent + (v.depth - 1))

section

variable {step : Visit → Nat → Action σ ε Unit}

theorem forVisits_cons (v : Visit) (vs : List Visit) :
    forVisits indent step (v :: vs) =
      step v (indent + (v.depth - 1)) >>= fun _ => forVisits indent step vs := rfl

theorem forVisits_append (vs vs' : List Visit) :
    forVisits indent step (vs ++ vs') =
      forVisits indent step vs >>= fun _ => forVisits indent step vs' := by
  induction vs with
  | nil => rfl
  | cons v vs ih => rw [List.cons_append, forVisits_cons, forVisits_cons, ih, bind_assoc]

/-- The callback that takes a step and yields nothing. -/
def Callback.ofStep (step : Visit → Nat → Action σ ε Unit) : Callback σ ε ρ :=
  fun v indent => do
    step v indent
    return none

mutual

theorem traverseNode_ofStep (ancestors : List Node) (n : Node) :
    traverseNode indent (.ofStep step : Callback σ ε ρ) ancestors n =
      forVisits indent step (visitsOf ancestors n) >>= fun _ => return none := by
  obtain ⟨kind, span, children⟩ := n
  rw [traverseNode, visitsOf, forVisits_cons]
  simp only [Callback.ofStep, bind_assoc, pure_bind]
  congr 1
  funext _
  exact traverseNodes_ofStep _ children

theorem traverseNodes_ofStep (ancestors : List Node) (ns : List Node) :
    traverseNodes indent (.ofStep step : Callback σ ε ρ) ancestors ns =
      forVisits indent step (visitsBelow ancestors ns) >>= fun _ => return none := by
  match ns with
  | [] => rfl
  | n :: ns =>
    rw [traverseNodes, traverseNode_ofStep, traverseNodes_ofStep, visitsBelow, forVisits_append]
    simp only [bind_assoc, pure_bind]
    rfl

end

/-- A callback that yields nothing is called at every visit. -/
theorem walk_ofStep (root : Node) :
    walk root indent (.ofStep step : Callback σ ε ρ) =
      forVisits indent step (visits root) >>= fun _ => return none := by
  rw [walk_eq_traverse, traverse, visits, traverseNodes_ofStep]

end

/-! ## Ancestors -/

mutual

theorem exists_visit_before_of_visitsOf {ancestors : List Node} {v : Visit} {m : Node}
    (hm : m ∈ v.ancestors) {after : List Visit} : ∀ {n : Node} {before : List Visit},
      visitsOf ancestors n = before ++ v :: after → m ∈ ancestors ∨ ∃ u ∈ before, u.node = m
  | ⟨kind, span, children⟩, [], h => by
    cases (List.cons.inj h).1
    exact .inl hm
  | ⟨kind, span, children⟩, u :: before, h => by
    obtain ⟨rfl, hbelow⟩ := List.cons.inj h
    rcases exists_visit_before_of_visitsBelow hm hbelow with h | ⟨u', hu', hnode⟩
    · rcases List.mem_append.1 h with h | h
      · exact .inl h
      · exact .inr ⟨_, List.mem_cons_self, (List.mem_singleton.1 h).symm⟩
    · exact .inr ⟨u', List.mem_cons_of_mem _ hu', hnode⟩

theorem exists_visit_before_of_visitsBelow {ancestors : List Node} {v : Visit} {m : Node}
    (hm : m ∈ v.ancestors) {after : List Visit} : ∀ {ns : List Node} {before : List Visit},
      visitsBelow ancestors ns = before ++ v :: after → m ∈ ancestors ∨ ∃ u ∈ before, u.node = m
  | [], before, h => by simp [visitsBelow] at h
  | n :: rest, before, h => by
    rcases List.append_eq_append_iff.1 h with ⟨front, rfl, hrest⟩ | ⟨back, hfirst, hrest⟩
    · rcases exists_visit_before_of_visitsBelow hm hrest with h | ⟨u, hu, hnode⟩
      · exact .inl h
      · exact .inr ⟨u, List.mem_append_right _ hu, hnode⟩
    · cases back with
      | nil =>
        have hbelow : visitsBelow ancestors rest = [] ++ v :: after := hrest.symm
        rcases exists_visit_before_of_visitsBelow hm hbelow with h | ⟨u, hu, -⟩
        · exact .inl h
        · cases hu
      | cons v' back =>
        obtain ⟨rfl, -⟩ := List.cons.inj hrest
        exact exists_visit_before_of_visitsOf hm hfirst

end

/-- What is above a visited node is visited before, but for the root. -/
theorem exists_visit_before_of_mem_ancestors {root m : Node} {v : Visit} {before after : List Visit}
    (h : visits root = before ++ v :: after) (hm : m ∈ v.ancestors) (hroot : m ≠ root) :
    ∃ u ∈ before, u.node = m :=
  (exists_visit_before_of_visitsBelow hm h).resolve_left fun h => hroot (List.mem_singleton.1 h)

theorem exists_visit_of_mem_ancestors {root m : Node} {v : Visit} (hv : v ∈ visits root)
    (hm : m ∈ v.ancestors) (hroot : m ≠ root) : ∃ u ∈ visits root, u.node = m := by
  obtain ⟨before, after, h⟩ := List.append_of_mem hv
  obtain ⟨u, hu, hnode⟩ := exists_visit_before_of_mem_ancestors h hm hroot
  exact ⟨u, h ▸ List.mem_append_left _ hu, hnode⟩

end ComponentScan
