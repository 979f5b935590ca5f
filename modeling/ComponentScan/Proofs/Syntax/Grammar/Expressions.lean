import ComponentScan.Proofs.Syntax.Grammar.Parts

/-!
# Rules for expressions

Rules for expressions yield sound trees. An expression that is seen as a target stays sound, since
neither tags nor declarators are made of its parts.
-/

namespace ComponentScan.Syntax

set_option synthInstance.maxSize 200000

open Parse

variable {text : List Char}

/-! ## Targets -/

namespace Node

theorem isSound_of_asSimpleTarget? {n t : Node} (h : n.IsSound text)
    (ht : n.asSimpleTarget? = some t) : t.IsSound text := by
  fun_induction asSimpleTarget? n with
  | case1 span inner ih => exact ih (h.child rfl List.mem_cons_self) ht
  | case2 | case3 | case4 | case5 =>
    obtain ⟨_, -, rfl⟩ := Option.map_eq_some_iff.1 ht
    exact h
  | case6 | case7 | case8 | case9 =>
    cases ht
    exact h
  | case10 => cases ht

mutual

theorem isSound_of_asTarget? :
    ∀ {n t : Node}, n.IsSound text → n.asTarget? = some t → t.IsSound text
  | ⟨kind, span, children⟩, t, h, ht => by
    unfold asTarget? at ht
    split at ht
    · next heq =>
      cases heq
      obtain ⟨parts, hparts, rfl⟩ := Option.map_eq_some_iff.1 ht
      exact isSound_of_isPlain rfl (isSound_of_asElements? (h.forall_child rfl) hparts)
    · next heq =>
      cases heq
      obtain ⟨parts, hparts, rfl⟩ := Option.map_eq_some_iff.1 ht
      exact isSound_of_isPlain rfl (isSound_of_asProperties? (h.forall_child rfl) hparts)
    · exact isSound_of_asSimpleTarget? h ht

theorem isSound_of_asMaybeDefault? :
    ∀ {n t : Node}, n.IsSound text → n.asMaybeDefault? = some t → t.IsSound text
  | ⟨kind, span, children⟩, t, h, ht => by
    unfold asMaybeDefault? at ht
    split at ht
    · next heq =>
      cases heq
      split at ht
      · cases ht
        exact isSound_of_isPlain rfl (h.forall_child rfl)
      · cases ht
    · next heq =>
      cases heq
      obtain ⟨parts, hparts, rfl⟩ := Option.map_eq_some_iff.1 ht
      exact isSound_of_isPlain rfl (isSound_of_asElements? (h.forall_child rfl) hparts)
    · next heq =>
      cases heq
      obtain ⟨parts, hparts, rfl⟩ := Option.map_eq_some_iff.1 ht
      exact isSound_of_isPlain rfl (isSound_of_asProperties? (h.forall_child rfl) hparts)
    · exact isSound_of_asSimpleTarget? h ht

theorem isSound_of_asElements? : ∀ {items parts : List Node}, (∀ n ∈ items, n.IsSound text) →
    asElements? items = some parts → ∀ n ∈ parts, n.IsSound text
  | [], parts, _, hparts => by
    cases hparts
    exact List.forall_mem_nil _
  | n :: rest, parts, h, hparts => by
    obtain ⟨hn, hrest⟩ := List.forall_mem_cons.1 h
    unfold asElements? at hparts
    split at hparts
    · next heq => cases heq
    · next inner _ heq =>
      cases heq
      split at hparts
      · obtain ⟨target, htarget, rfl⟩ := Option.map_eq_some_iff.1 hparts
        have hinner := isSound_of_asTarget? (hn.child rfl List.mem_cons_self) htarget
        exact List.forall_mem_singleton.2
          (isSound_of_isPlain rfl (List.forall_mem_singleton.2 hinner))
      · cases hparts
    · next heq =>
      cases heq
      split at hparts
      · exact isSound_of_asElements? hrest hparts
      · obtain ⟨target, htarget, hparts⟩ := Option.bind_eq_some_iff.1 hparts
        obtain ⟨targets, htargets, hparts⟩ := Option.bind_eq_some_iff.1 hparts
        cases hparts
        exact List.forall_mem_cons.2 ⟨isSound_of_asMaybeDefault? hn htarget,
          isSound_of_asElements? hrest htargets⟩

theorem isSound_of_asProperties? : ∀ {items parts : List Node}, (∀ n ∈ items, n.IsSound text) →
    asProperties? items = some parts → ∀ n ∈ parts, n.IsSound text
  | [], parts, _, hparts => by
    cases hparts
    exact List.forall_mem_nil _
  | n :: rest, parts, h, hparts => by
    obtain ⟨hn, hrest⟩ := List.forall_mem_cons.1 h
    unfold asProperties? at hparts
    split at hparts
    · next heq => cases heq
    · next inner _ heq =>
      cases heq
      split at hparts
      · obtain ⟨target, htarget, rfl⟩ := Option.map_eq_some_iff.1 hparts
        have hinner := isSound_of_asTarget? (hn.child rfl List.mem_cons_self) htarget
        exact List.forall_mem_singleton.2
          (isSound_of_isPlain rfl (List.forall_mem_singleton.2 hinner))
      · cases hparts
    · next heq =>
      cases heq
      obtain ⟨targets, htargets, hparts⟩ := Option.bind_eq_some_iff.1 hparts
      cases hparts
      exact List.forall_mem_cons.2 ⟨isSound_of_isPlain rfl
        (List.forall_mem_cons.1 (hn.forall_child rfl)).2,
          isSound_of_asProperties? hrest htargets⟩
    · next key value _ heq =>
      cases heq
      obtain ⟨hkey, hvalue⟩ := List.forall_mem_cons.1 (hn.forall_child rfl)
      split at hparts
      · obtain ⟨_, ⟨⟩, hparts⟩ := Option.bind_eq_some_iff.1 hparts
        obtain ⟨targets, htargets, hparts⟩ := Option.bind_eq_some_iff.1 hparts
        cases hparts
        exact List.forall_mem_cons.2 ⟨isSound_of_isPlain rfl hvalue,
          isSound_of_asProperties? hrest htargets⟩
      · obtain ⟨target, htarget, hparts⟩ := Option.bind_eq_some_iff.1 hparts
        obtain ⟨_, ⟨⟩, hparts⟩ := Option.bind_eq_some_iff.1 hparts
        obtain ⟨targets, htargets, hparts⟩ := Option.bind_eq_some_iff.1 hparts
        cases hparts
        refine List.forall_mem_cons.2
          ⟨isSound_of_isPlain rfl (List.forall_mem_cons.2 ⟨hkey, ?_⟩),
            isSound_of_asProperties? hrest htargets⟩
        exact List.forall_mem_singleton.2
          (isSound_of_asMaybeDefault? (List.forall_mem_singleton.1 hvalue) htarget)
    · cases hparts

end
end Node

theorem allSound_of_asSimpleTarget? {n t : Node} [h : AllSound text n]
    (ht : n.asSimpleTarget? = some t) : AllSound text t :=
  allSound_node_iff.2 (Node.isSound_of_asSimpleTarget? (allSound_node_iff.1 h) ht)

theorem allSound_of_asTarget? {n t : Node} [h : AllSound text n] (ht : n.asTarget? = some t) :
    AllSound text t :=
  allSound_node_iff.2 (Node.isSound_of_asTarget? (allSound_node_iff.1 h) ht)

instance {n : Node} [AllSound text n] : AllSound text n.asTarget? := by
  cases ht : n.asTarget? with
  | none => infer_instance
  | some t =>
    have : AllSound text t := allSound_of_asTarget? ht
    infer_instance

variable {g : Rules} [hg : g.IsSound text]

/-! ## Literals -/

instance : Yields text (spreadElement g) := by unfold spreadElement; infer_instance
instance : Yields text (arrayLiteral g) := by unfold arrayLiteral; infer_instance
instance {start : Nat} {isAsync : Bool} {isGenerator : Bool} {key : Node} [AllSound text key] :
    Yields text (objectMethod g start isAsync isGenerator key) := by
  unfold objectMethod; infer_instance
instance {start : Nat} : Yields text (objectAccessor g start) := by
  unfold objectAccessor; infer_instance
instance : Yields text (shorthandProperty g) := by unfold shorthandProperty; infer_instance

instance : Yields text (objectProperty g) := by
  unfold objectProperty
  refine .seq fun start _ => .seq fun t _ => ?_
  split
  · infer_instance
  · dsimp only
    repeat' first | infer_instance | split | refine .seq fun _ _ => ?_

instance : Yields text (objectLiteral g) := by unfold objectLiteral; infer_instance
instance : Yields text (parenthesized g) := by unfold parenthesized; infer_instance

/-! ## Calls and accesses -/

instance : Yields text (expressionTypeArguments g) := by
  unfold expressionTypeArguments; infer_instance
instance : Yields text (expressionTypeArguments? g) := by
  unfold expressionTypeArguments?; infer_instance
instance : Yields text (callArguments g) := by unfold callArguments; infer_instance

instance {start : Nat} {object : Node} [AllSound text object] :
    Yields text (namedAccess start object) := by
  unfold namedAccess
  refine .seq fun t _ => ?_
  split <;> infer_instance

instance {start : Nat} {object : Node} [AllSound text object] :
    Yields text (computedAccess g start object) := by
  unfold computedAccess; infer_instance

instance {start : Nat} {tag : Node} [AllSound text tag] :
    Yields text (taggedTemplate g start tag) := by
  unfold taggedTemplate; dsimp only; infer_instance

instance {start : Nat} {allowOptional inChain : Bool} {object : Node} [AllSound text object] :
    Yields text (access? g start allowOptional inChain object) := by
  unfold access?
  refine .seq fun ctx _ => .seq fun t _ => ?_
  split
  all_goals try infer_instance
  refine .seq_option ?_ fun args _ => ?_ <;> infer_instance

instance {start : Nat} {allowOptional inChain : Bool} {object : Node} [AllSound text object] :
    Yields text (accesses g start allowOptional inChain object) := by
  unfold accesses
  refine .loop inferInstance fun x _ => ?_
  dsimp only
  refine .seq_option inferInstance fun link _ => ?_
  dsimp only
  infer_instance

instance {optional : Bool} {callee : Node} [AllSound text callee] :
    Yields text (calleeParts g optional callee) := by
  unfold calleeParts; infer_instance
instance {start : Nat} {callee : Node} [AllSound text callee] :
    Yields text (call? g start callee) := by
  unfold call?; infer_instance

instance {start : Nat} {object : Node} [AllSound text object] :
    Yields text (accessesAndCalls g start object) := by
  unfold accessesAndCalls
  refine .loop inferInstance fun x _ => ?_
  dsimp only
  exact .seq_option inferInstance fun link _ => inferInstance

instance {first : Token} {firstName : String} {secondName : String} :
    Yields text (metaProperty first firstName secondName) := by
  unfold metaProperty; infer_instance

theorem yields_match_importExpression (kind : Kind) {p p' : Parse Node} (hp : Yields text p)
    (hp' : Yields text p') :
    Yields text (match kind with
      | .importExpression => p
      | _ => p') := by
  cases kind <;> first | exact hp' | exact hp

instance : Yields text (newExpression g) := by
  unfold newExpression
  refine .seq fun first _ => .seq fun _ _ => .seq fun dot _ => ?_
  split
  · infer_instance
  · refine .seq fun callee _ => ?_
    exact yields_match_importExpression callee.kind inferInstance inferInstance

instance : Yields text (importExpression g) := by
  have := @yields_setModule text
  unfold importExpression
  infer_instance

instance : Yields text superExpression := by unfold superExpression; infer_instance
instance : Yields text regExpLiteral := by unfold regExpLiteral; infer_instance

instance {word : String} : Yields text (wordExpression g word) := by
  unfold wordExpression
  split <;> infer_instance

instance : Yields text (primary g) := by
  unfold primary
  refine .seq fun t _ => ?_
  split <;> infer_instance

instance : Yields text (constructedRule g) := by unfold constructedRule; infer_instance

instance {n : Node} [h : AllSound text n] : AllSound text (wrapChain n) := by
  unfold wrapChain
  split
  · next inner args hkind hchildren =>
    have hsound := (allSound_node_iff.1 h).forall_child (hkind ▸ rfl)
    rw [hchildren] at hsound
    have : AllSound text inner := allSound_node_iff.2 (hsound inner List.mem_cons_self)
    have : AllSound text args :=
      allSound_node_iff.2 (hsound args (List.mem_cons_of_mem _ List.mem_cons_self))
    infer_instance
  · infer_instance

instance : Yields text (leftHandSideRule g) := by
  unfold leftHandSideRule; dsimp only; infer_instance

/-! ## Arrow functions -/

instance {isAsync : Bool} {arrowReturn : Bool} : Yields text (arrowBody g isAsync arrowReturn) := by
  unfold arrowBody; infer_instance
instance : Yields text (arrowHead g) := by unfold arrowHead; infer_instance
instance {arrowReturn : Bool} {mayGiveUp : Bool} :
    Yields text (parenthesizedArrow g arrowReturn mayGiveUp) := by
  unfold parenthesizedArrow; infer_instance
instance {start : Nat} {param : Node} {isAsync : Bool} {arrowReturn : Bool} [AllSound text param] :
    Yields text (simpleArrow g start param isAsync arrowReturn) := by
  unfold simpleArrow; infer_instance

instance {arrowReturn : Bool} : Yields text (arrow? g arrowReturn) := by
  unfold arrow?
  refine .seq fun guess _ => ?_
  split <;> infer_instance

/-! ## Operators -/

instance : Yields text (awaitExpression g) := by unfold awaitExpression; infer_instance
instance : Yields text (typeAssertion g) := by unfold typeAssertion; infer_instance

instance : Yields text (updateExpression g) := by
  unfold updateExpression
  refine .seq fun start _ => .seq fun increment _ => .seq fun decrement _ => ?_
  split
  · refine .seq fun e _ => ?_
    cases htarget : e.asSimpleTarget? with
    | none => infer_instance
    | some target =>
      have : AllSound text target := allSound_of_asSimpleTarget? htarget
      infer_instance
  · refine .seq fun e _ => .seq fun increment _ => .seq fun decrement _ => .seq fun newline _ => ?_
    cases htarget : e.asSimpleTarget? with
    | none => infer_instance
    | some target =>
      have : AllSound text target := allSound_of_asSimpleTarget? htarget
      infer_instance

instance : Yields text (unaryRule g) := by unfold unaryRule; infer_instance
instance {above : Nat} : Yields text (privateIn g above) := by unfold privateIn; infer_instance
instance {operator : String} {start : Nat} {left : Node} {right : Node} {leftOpen : Bool}
    {rightOpen : Bool} [AllSound text left] [AllSound text right] :
    Yields text (combine operator start left right leftOpen rightOpen) := by
  unfold combine; infer_instance

instance {above : Nat} : Yields text (binaryRule g above) := by
  unfold binaryRule
  refine .seq fun start _ => .seq fun leftOpen _ => .seq fun t _ => ?_
  dsimp only
  split
  all_goals
    refine .seq fun first _ => .loop inferInstance fun left _ => .seq fun operator _ => ?_
    split <;> infer_instance

instance : Yields text (yieldExpression g) := by unfold yieldExpression; infer_instance

instance {start : Nat} {left : Node} {operator : String} {arrowReturn : Bool} [AllSound text left] :
    Yields text (assignmentTo g start left operator arrowReturn) := by
  unfold assignmentTo
  dsimp only
  cases htarget : if operator == "=" then left.asTarget? else left.asSimpleTarget? with
  | none => infer_instance
  | some target =>
    have : AllSound text target := by
      split at htarget
      · exact allSound_of_asTarget? htarget
      · exact allSound_of_asSimpleTarget? htarget
    infer_instance

instance {start : Nat} {test : Node} {arrowReturn : Bool} [AllSound text test] :
    Yields text (conditionalRest g start test arrowReturn) := by
  unfold conditionalRest; infer_instance

instance {arrowReturn : Bool} : Yields text (assignmentRule g arrowReturn) := by
  unfold assignmentRule
  refine .seq fun yields _ => ?_
  split
  · infer_instance
  · refine .seq_option ?_ fun n _ => inferInstance
    refine .seq fun start _ => .seq fun left _ => ?_
    dsimp only
    split
    · refine .seq fun arrow _ => ?_
      split
      · infer_instance
      · refine .seq fun t _ => ?_
        split <;> infer_instance
    · refine .seq fun t _ => ?_
      split <;> infer_instance

instance : Yields text (expressionRule g) := by unfold expressionRule; infer_instance

end ComponentScan.Syntax
