import ComponentScan.Proofs.Walk

/-!
# The nodes of a tree

`Node.nodes` lists a node and all nodes below it. It holds the children of its members, and with
them whatever an accessor or a visit of a walk yields.
-/

namespace ComponentScan.Syntax.Node

mutual

/-- A property of a tree follows if it passes from the children of a node to the node. -/
theorem induction {P : Node → Prop}
    (h : ∀ kind span children, (∀ c ∈ children, P c) → P ⟨kind, span, children⟩) : ∀ n, P n
  | ⟨kind, span, children⟩ => h kind span children (inductionAll h children)

theorem inductionAll {P : Node → Prop}
    (h : ∀ kind span children, (∀ c ∈ children, P c) → P ⟨kind, span, children⟩) :
    ∀ ns : List Node, ∀ n ∈ ns, P n
  | [] => fun _ hn => absurd hn List.not_mem_nil
  | n :: rest => List.forall_mem_cons.2 ⟨induction h n, inductionAll h rest⟩

end

/-- A node and all nodes below it, in the order of the text. -/
def nodes (root : Node) : List Node :=
  root :: descendants root

theorem self_mem_nodes (root : Node) : root ∈ root.nodes :=
  List.mem_cons_self

mutual

theorem mem_flatten_iff {depth : Nat} {m : Node} : ∀ {n : Node},
    m ∈ (flatten depth n).map (·.1) ↔ m ∈ n.nodes
  | ⟨kind, span, children⟩ => by
    have hbelow : m ∈ (flattenAll (depth + 1) children).map (·.1) ↔
        m ∈ descendants ⟨kind, span, children⟩ :=
      mem_flattenAll_iff.trans mem_flattenAll_iff.symm
    rw [flatten, nodes, List.map_cons, List.mem_cons, List.mem_cons, hbelow]

theorem mem_flattenAll_iff {depth : Nat} {m : Node} : ∀ {ns : List Node},
    m ∈ (flattenAll depth ns).map (·.1) ↔ ∃ n ∈ ns, m ∈ n.nodes
  | [] => by simp [flattenAll]
  | n :: rest => by
    simp only [flattenAll, List.map_append, List.mem_append, @mem_flatten_iff _ _ n,
      @mem_flattenAll_iff _ _ rest, List.mem_cons, or_and_right, exists_or, exists_eq_left]

end

theorem mem_descendants_iff {n m : Node} : m ∈ descendants n ↔ ∃ c ∈ n.children, m ∈ c.nodes :=
  mem_flattenAll_iff

theorem nodes_subset_of_child {n c : Node} (h : c ∈ n.children) : c.nodes ⊆ n.nodes :=
  fun _ hm => List.mem_cons_of_mem _ (mem_descendants_iff.2 ⟨c, h, hm⟩)

theorem nodes_subset {root n : Node} (h : n ∈ root.nodes) : n.nodes ⊆ root.nodes := by
  induction root using Node.induction with
  | h kind span children ih =>
    rcases List.mem_cons.1 h with rfl | h
    · exact List.Subset.refl _
    · obtain ⟨c, hc, hn⟩ := mem_descendants_iff.1 h
      exact List.Subset.trans (ih c hc hn) (nodes_subset_of_child hc)

theorem mem_nodes_of_child {root n c : Node} (h : n ∈ root.nodes) (hc : c ∈ n.children) :
    c ∈ root.nodes :=
  nodes_subset h (nodes_subset_of_child hc c.self_mem_nodes)

theorem nodes_subset_descendants {root n : Node} (h : n ∈ descendants root) :
    n.nodes ⊆ descendants root := by
  obtain ⟨c, hc, hn⟩ := mem_descendants_iff.1 h
  exact fun m hm => mem_descendants_iff.2 ⟨c, hc, nodes_subset hn hm⟩

/-- What is below a node has a parent in its tree. -/
theorem exists_parent_of_mem_descendants {root n : Node} (h : n ∈ descendants root) :
    ∃ p ∈ root.nodes, n ∈ p.children := by
  induction root using Node.induction with
  | h kind span children ih =>
    obtain ⟨c, hc, hn⟩ := mem_descendants_iff.1 h
    rcases List.mem_cons.1 hn with rfl | hn
    · exact ⟨_, self_mem_nodes _, hc⟩
    · obtain ⟨p, hp, hchild⟩ := ih c hc hn
      exact ⟨p, nodes_subset_of_child hc hp, hchild⟩

/-- Whether the spans of all nodes below a node satisfy `P`. -/
def Below (P : Span → Prop) (n : Node) : Prop :=
  ∀ m ∈ descendants n, P m.span

instance (P : Span → Prop) [DecidablePred P] (n : Node) : Decidable (n.Below P) :=
  inferInstanceAs (Decidable (∀ m ∈ descendants n, P m.span))

section

variable {P : Span → Prop} {n c : Node}

theorem below_iff : n.Below P ↔ ∀ c ∈ n.children, P c.span ∧ c.Below P := by
  constructor
  · intro h c hc
    exact ⟨h c (mem_descendants_iff.2 ⟨c, hc, c.self_mem_nodes⟩),
      fun m hm => h m (mem_descendants_iff.2 ⟨c, hc, List.mem_cons_of_mem _ hm⟩)⟩
  · intro h m hm
    obtain ⟨c, hc, hm⟩ := mem_descendants_iff.1 hm
    rcases List.mem_cons.1 hm with rfl | hm
    · exact (h _ hc).1
    · exact (h c hc).2 m hm

theorem Below.span_child (h : n.Below P) (hc : c ∈ n.children) : P c.span :=
  (below_iff.1 h c hc).1

theorem Below.child (h : n.Below P) (hc : c ∈ n.children) : c.Below P :=
  (below_iff.1 h c hc).2

end

/-! ## Accessors -/

theorem mem_of_child? {n c : Node} {p : Kind → Bool} (h : n.child? p = some c) : c ∈ n.children :=
  List.mem_of_find?_eq_some h

theorem mem_of_initializer? {n c : Node} (h : n.initializer? = some c) : c ∈ n.children :=
  List.mem_of_mem_drop (List.mem_of_find?_eq_some h)

theorem mem_of_memberValue? {n c : Node} (h : n.memberValue? = some c) : c ∈ n.children :=
  (List.mem_filter.1 (List.mem_of_mem_drop (List.mem_of_find?_eq_some h))).1

theorem mem_nodes_of_classMember {root n m : Node} (h : n ∈ root.nodes) (hm : m ∈ n.classMembers) :
    m ∈ root.nodes := by
  unfold classMembers at hm
  cases hbody : n.child? Kind.isClassBody with
  | none =>
    rw [hbody] at hm
    cases hm
  | some body =>
    rw [hbody] at hm
    exact mem_nodes_of_child (mem_nodes_of_child h (mem_of_child? hbody)) hm

end ComponentScan.Syntax.Node

namespace ComponentScan

open Syntax

/-! ## Visits -/

/-- Whether a visit sees nodes of a tree only. -/
structure Visit.IsIn (root : Node) (v : Visit) : Prop where
  node : v.node ∈ root.nodes
  ancestors : ∀ n ∈ v.ancestors, n ∈ root.nodes

mutual

theorem isIn_of_mem_visitsOf {root : Node} {ancestors : List Node} {v : Visit}
    (ha : ∀ n ∈ ancestors, n ∈ root.nodes) : ∀ {n : Node}, n ∈ root.nodes →
      v ∈ visitsOf ancestors n → v.IsIn root
  | ⟨kind, span, children⟩, hn, hv => by
    rcases List.mem_cons.1 hv with rfl | hv
    · exact ⟨hn, ha⟩
    · have ha' : ∀ n ∈ ancestors ++ [⟨kind, span, children⟩], n ∈ root.nodes := fun n h => by
        rcases List.mem_append.1 h with h | h
        · exact ha n h
        · exact List.mem_singleton.1 h ▸ hn
      exact isIn_of_mem_visitsBelow ha' (fun _ hc => Node.mem_nodes_of_child hn hc) hv

theorem isIn_of_mem_visitsBelow {root : Node} {ancestors : List Node} {v : Visit}
    (ha : ∀ n ∈ ancestors, n ∈ root.nodes) : ∀ {ns : List Node}, (∀ n ∈ ns, n ∈ root.nodes) →
      v ∈ visitsBelow ancestors ns → v.IsIn root
  | n :: rest, hns, hv => by
    obtain ⟨hn, hrest⟩ := List.forall_mem_cons.1 hns
    rcases List.mem_append.1 hv with hv | hv
    · exact isIn_of_mem_visitsOf ha hn hv
    · exact isIn_of_mem_visitsBelow ha hrest hv

end

mutual

theorem node_mem_nodes_of_mem_visitsOf {ancestors : List Node} {v : Visit} :
    ∀ {n : Node}, v ∈ visitsOf ancestors n → v.node ∈ n.nodes
  | ⟨kind, span, children⟩, hv => by
    rcases List.mem_cons.1 hv with rfl | hv
    · exact List.mem_cons_self
    · obtain ⟨c, hc, hv⟩ := exists_of_mem_visitsBelow hv
      exact Node.nodes_subset_of_child hc hv

theorem exists_of_mem_visitsBelow {ancestors : List Node} {v : Visit} :
    ∀ {ns : List Node}, v ∈ visitsBelow ancestors ns → ∃ n ∈ ns, v.node ∈ n.nodes
  | n :: rest, hv => by
    rcases List.mem_append.1 hv with hv | hv
    · exact ⟨n, List.mem_cons_self, node_mem_nodes_of_mem_visitsOf hv⟩
    · obtain ⟨m, hm, hv⟩ := exists_of_mem_visitsBelow hv
      exact ⟨m, List.mem_cons_of_mem _ hm, hv⟩

end

/-- The root is not visited. -/
theorem node_mem_descendants_of_mem_visits {root : Node} {v : Visit} (h : v ∈ visits root) :
    v.node ∈ descendants root :=
  Node.mem_descendants_iff.2 (exists_of_mem_visitsBelow h)

theorem isIn_of_mem_visits {root : Node} {v : Visit} (h : v ∈ visits root) : v.IsIn root := by
  refine isIn_of_mem_visitsBelow (fun n hn => ?_) (fun n hn => ?_) h
  · exact List.mem_singleton.1 hn ▸ root.self_mem_nodes
  · exact Node.mem_nodes_of_child root.self_mem_nodes hn

mutual

/-- What is visited strictly below a node has its parent there. -/
theorem exists_parent_of_mem_visitsOf {ancestors : List Node} {v : Visit} :
    ∀ {n : Node}, v ∈ visitsOf ancestors n → v = ⟨n, ancestors.length, ancestors⟩ ∨
      ∃ p ∈ n.nodes, v.parent? = some p ∧ v.node ∈ p.children
  | ⟨kind, span, children⟩, hv => by
    rcases List.mem_cons.1 hv with rfl | hv
    · exact .inl rfl
    · obtain ⟨c, hc, rfl | ⟨p, hp, hparent⟩⟩ := exists_parent_of_mem_visitsBelow hv
      · exact .inr ⟨_, Node.self_mem_nodes _, List.getLast?_concat, hc⟩
      · exact .inr ⟨p, Node.nodes_subset_of_child hc hp, hparent⟩

theorem exists_parent_of_mem_visitsBelow {ancestors : List Node} {v : Visit} :
    ∀ {ns : List Node}, v ∈ visitsBelow ancestors ns →
      ∃ n ∈ ns, v = ⟨n, ancestors.length, ancestors⟩ ∨
        ∃ p ∈ n.nodes, v.parent? = some p ∧ v.node ∈ p.children
  | n :: rest, hv => by
    rcases List.mem_append.1 hv with hv | hv
    · exact ⟨n, List.mem_cons_self, exists_parent_of_mem_visitsOf hv⟩
    · obtain ⟨m, hm, hparent⟩ := exists_parent_of_mem_visitsBelow hv
      exact ⟨m, List.mem_cons_of_mem _ hm, hparent⟩

end

end ComponentScan
