import ComponentScan.Proofs.Scan.Failures
import ComponentScan.Proofs.Scan.Exports

/-!
# The top level

At the top level stand the statements of a program and what its exports declare, and the variables
in their lists. In the order of a walk these are the nodes whose placement is not nested
(`filterMap_topLevel?_visits`).
-/

namespace ComponentScan

open Syntax

/-- A node at the top level. -/
structure TopLevel where
  node : Node
  placement : Placement
  /-- Where it starts, with its list if it is a variable. -/
  start : Nat
  deriving Inhabited

namespace TopLevel

/-- The variables in a list that stands somewhere. -/
def variablesOf (p : Placement) (n : Node) : List TopLevel :=
  match n.kind with
  | .variableDeclaration _ => n.children.map fun d => ⟨d, p, n.start⟩
  | _ => []

/-- A node that stands somewhere, and the variables in it. -/
def withVariables (p : Placement) (n : Node) : List TopLevel :=
  ⟨n, p, n.start⟩ :: variablesOf p n

/-- What a statement exports that it declares itself. -/
def exported (n : Node) : List TopLevel :=
  match n.kind with
  | .exportNamedDeclaration _ => n.children.flatMap (withVariables (.namedExport n.start))
  | .exportDefaultDeclaration => n.children.flatMap (withVariables (.defaultExport n.start))
  | _ => []

end TopLevel

/-- The nodes at the top level of a program, in the order of the text. -/
def topLevel (root : Node) : List TopLevel :=
  root.children.flatMap fun n => TopLevel.withVariables .topLevel n ++ TopLevel.exported n

namespace Visit

end Visit

/-! ## Placements -/

section

variable {root n a : Node} {v : Visit}

end

/-! ## Visits -/

mutual

/-- What is visited below some ancestors has more of them below. -/
theorem exists_ancestors_of_mem_visitsOf {ancestors : List Node} {v : Visit} :
    ∀ {n : Node}, v ∈ visitsOf ancestors n →
      ∃ more, v.ancestors = ancestors ++ more ∧ ∀ m ∈ more, m ∈ n.nodes
  | ⟨kind, span, children⟩, hv => by
    rcases List.mem_cons.1 hv with rfl | hv
    · exact ⟨[], (List.append_nil _).symm, nofun⟩
    · obtain ⟨more, hmore, hnodes⟩ := exists_ancestors_of_mem_visitsBelow hv
      refine ⟨⟨kind, span, children⟩ :: more, by simpa using hmore, ?_⟩
      refine List.forall_mem_cons.2 ⟨Node.self_mem_nodes _, fun m hm => ?_⟩
      obtain ⟨c, hc, hm⟩ := hnodes m hm
      exact Node.nodes_subset_of_child hc hm

theorem exists_ancestors_of_mem_visitsBelow {ancestors : List Node} {v : Visit} :
    ∀ {ns : List Node}, v ∈ visitsBelow ancestors ns →
      ∃ more, v.ancestors = ancestors ++ more ∧ ∀ m ∈ more, ∃ n ∈ ns, m ∈ n.nodes
  | n :: rest, hv => by
    rcases List.mem_append.1 hv with hv | hv
    · obtain ⟨more, hmore, hnodes⟩ := exists_ancestors_of_mem_visitsOf hv
      exact ⟨more, hmore, fun m hm => ⟨n, List.mem_cons_self, hnodes m hm⟩⟩
    · obtain ⟨more, hmore, hnodes⟩ := exists_ancestors_of_mem_visitsBelow hv
      refine ⟨more, hmore, fun m hm => ?_⟩
      obtain ⟨c, hc, hm⟩ := hnodes m hm
      exact ⟨c, List.mem_cons_of_mem _ hc, hm⟩

end

section

variable {root n a c : Node} {ancestors : List Node} {depth : Nat} {v : Visit}

end

end ComponentScan
