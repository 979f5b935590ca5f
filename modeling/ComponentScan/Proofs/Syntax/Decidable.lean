import ComponentScan.Proofs.Syntax.Nodes
import ComponentScan.Syntax.Program

/-!
# Equality of trees

Trees are equal if they have equal kinds and spans all the way down, which can be decided
(`Node.same_iff`). So it can be decided whether two texts are read as the same program.
-/

namespace ComponentScan.Syntax

deriving instance DecidableEq for Kind

namespace Node

mutual

/-- Whether trees have equal kinds and spans all the way down. -/
def same : Node → Node → Bool
  | ⟨kind, span, children⟩, ⟨kind', span', children'⟩ =>
    decide (kind = kind') && decide (span = span') && sameAll children children'

def sameAll : List Node → List Node → Bool
  | [], [] => true
  | n :: rest, n' :: rest' => same n n' && sameAll rest rest'
  | _, _ => false

end

mutual

theorem same_iff : ∀ {n n' : Node}, same n n' = true ↔ n = n'
  | ⟨kind, span, children⟩, ⟨kind', span', children'⟩ => by
    rw [same, Bool.and_eq_true, Bool.and_eq_true, decide_eq_true_eq, decide_eq_true_eq,
      @sameAll_iff children children', Node.mk.injEq, and_assoc]

theorem sameAll_iff : ∀ {ns ns' : List Node}, sameAll ns ns' = true ↔ ns = ns'
  | [], [] => iff_of_true rfl rfl
  | [], _ :: _ => iff_of_false nofun nofun
  | _ :: _, [] => iff_of_false nofun nofun
  | n :: rest, n' :: rest' => by
    rw [sameAll, Bool.and_eq_true, @same_iff n n', @sameAll_iff rest rest', List.cons.injEq]

end

instance : DecidableEq Node := fun _ _ => decidable_of_iff _ same_iff

end Node

instance : DecidableEq Program := fun p p' =>
  decidable_of_iff (p.root = p'.root ∧ p.comments = p'.comments) <| by
    cases p
    cases p'
    rw [Program.mk.injEq]

end ComponentScan.Syntax
