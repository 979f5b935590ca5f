import ComponentScan.Proofs.Syntax.Grammar.TagNames

/-!
# Rules for names, patterns, types, elements and functions

If the parsers that a grammar closes its recursion with yield sound trees, so do the rules for the
parts of expressions and statements.
-/

namespace ComponentScan.Syntax

set_option synthInstance.maxSize 200000

open Parse

/-- Whether the parsers of all nonterminals yield sound trees, and only names and patterns are
bound. -/
class Rules.IsSound (text : List Char) (g : Rules) : Prop where
  yields : ∀ n, Yields text (g n)
  isBinding : (g .binding).Always Anywhere (·.kind.isBinding = true)

variable {text : List Char} {g : Rules} [hg : g.IsSound text]

instance {n : Nonterminal} : Yields text (g n) := hg.yields n

/-! ## Names, keys and templates -/

instance {kind : String → Kind} [hkind : ∀ name, Holds (kind name).isPlain] :
    Yields text (identifier kind) := by
  unfold identifier
  refine .seq fun ctx _ => .seq fun t _ => ?_
  split <;> infer_instance

instance : Yields text bindingIdentifier := by unfold bindingIdentifier; infer_instance

theorem always_bindingIdentifier :
    bindingIdentifier.Always Anywhere (·.kind.isBindingIdentifier = true) := by
  unfold bindingIdentifier identifier
  refine .of_rest fun ctx => .of_rest fun t => ?_
  split
  · next name _ =>
    have hleaf :
        (leaf (.bindingIdentifier name)).Always Anywhere (·.kind.isBindingIdentifier = true) :=
      (always_leaf _).imp fun n h => h.1 ▸ rfl
    dsimp only
    split
    · exact .of_rest fun _ => .of_rest fun _ => .of_rest fun _ => hleaf
    · exact .of_rest fun _ => .of_rest fun _ => hleaf
  · exact always_reject

instance : Yields text identifierReference := by unfold identifierReference; infer_instance
instance : Yields text labelIdentifier := by unfold labelIdentifier; infer_instance

instance : Yields text identifierName := by
  unfold identifierName
  refine .seq fun t _ => ?_
  split <;> infer_instance

instance : Yields text privateIdentifier := by
  unfold privateIdentifier
  refine .seq fun t _ => ?_
  split <;> infer_instance

instance : Yields text stringLiteral := by
  unfold stringLiteral
  refine .seq fun t _ => ?_
  split <;> infer_instance

instance : Yields text numericLiteral := by
  unfold numericLiteral
  refine .seq fun t _ => ?_
  split <;> infer_instance

instance : Yields text (computedKey g) := by unfold computedKey; infer_instance

instance : Yields text (propertyName g) := by
  unfold propertyName
  refine .seq fun t _ => ?_
  split <;> infer_instance

instance {tagged : Bool} : Yields text (templateElement tagged) := by
  unfold templateElement
  refine .seq fun t _ => ?_
  split <;> infer_instance

instance {kind : Kind} {item : Parse Node} {tagged : Bool} [Holds kind.isPlain] [Yields text item] :
    Yields text (template kind item tagged) := by
  unfold template; infer_instance
instance {tagged : Bool} : Yields text (templateLiteral g tagged) := by
  unfold templateLiteral; infer_instance
instance : Yields text (typeAscription? g) := by unfold typeAscription?; infer_instance

/-! ## Patterns and parameters -/

instance : Yields text (bindingElement g) := by unfold bindingElement; infer_instance
instance : Yields text (bindingRest g) := by unfold bindingRest; infer_instance
instance : Yields text (bindingProperty g) := by unfold bindingProperty; infer_instance

instance : Yields text (objectPattern g) := by unfold objectPattern; infer_instance

omit hg in
theorem always_kind_objectPattern (g : Rules) :
    (objectPattern g).Always Anywhere (·.kind = .objectPattern) := by
  unfold objectPattern
  exact .of_rest fun _ => .of_rest fun _ => .of_rest fun _ => .of_rest fun _ =>
    (always_node ..).imp fun _ h => h.1

instance : Yields text (arrayPattern g) := by unfold arrayPattern; infer_instance

omit hg in
theorem always_kind_arrayPattern (g : Rules) :
    (arrayPattern g).Always Anywhere (·.kind = .arrayPattern) := by
  unfold arrayPattern
  exact .of_rest fun _ => .of_rest fun _ => .of_rest fun _ => .of_rest fun _ =>
    (always_node ..).imp fun _ h => h.1

instance : Yields text (bindingTarget g) := by
  unfold bindingTarget
  refine .seq fun t _ => ?_
  split <;> infer_instance

omit hg in
/-- Only names and patterns are bound. -/
theorem always_isBinding_bindingTarget :
    (bindingTarget g).Always Anywhere (·.kind.isBinding = true) := by
  unfold bindingTarget
  refine .of_rest fun t => ?_
  split
  · exact (always_kind_objectPattern g).imp fun n hkind => hkind ▸ rfl
  · exact (always_kind_arrayPattern g).imp fun n hkind => hkind ▸ rfl
  · exact always_bindingIdentifier.imp fun n hident => Kind.isBinding_of_isBindingIdentifier hident

instance : Yields text (decorator g) := by unfold decorator; infer_instance
instance : Yields text (decorators g) := by unfold decorators; infer_instance
instance : Yields text (formalParameter g) := by unfold formalParameter; infer_instance
instance : Yields text (restParameter g) := by unfold restParameter; infer_instance
instance : Yields text (thisParameter? g) := by unfold thisParameter?; infer_instance
instance : Yields text (formalParameters g) := by unfold formalParameters; infer_instance

/-! ## Types -/

instance : Yields text (typeParameter g) := by unfold typeParameter; infer_instance
instance : Yields text (typeParameters? g) := by unfold typeParameters?; infer_instance
instance : Yields text (typeArguments g) := by unfold typeArguments; infer_instance

instance : Yields text (typeArgumentsOfType? g) := by
  unfold typeArgumentsOfType?
  refine .seq fun newline _ => ?_
  split
  · infer_instance
  · refine .seq fun t _ => ?_
    split <;> infer_instance

instance : Yields text typeIdentifier := by
  unfold typeIdentifier
  refine .seq fun t _ => ?_
  split <;> infer_instance

instance : Yields text typeName := by unfold typeName; infer_instance
instance : Yields text (typeReference g) := by unfold typeReference; infer_instance
instance : Yields text predicateSubject := by unfold predicateSubject; infer_instance
instance : Yields text (predicateType g) := by unfold predicateType; infer_instance

instance : Yields text (typeOrPredicate g) := by
  unfold typeOrPredicate
  refine .seq fun start _ => .seq fun named _ => ?_
  dsimp only
  split
  · exact .seq_option inferInstance fun subject _ => inferInstance
  · exact .seq_option inferInstance fun subject _ => inferInstance

instance : Yields text (returnType? g) := by unfold returnType?; infer_instance
instance : Yields text (functionTypeParts g) := by unfold functionTypeParts; infer_instance
instance : Yields text (functionType g) := by unfold functionType; infer_instance

instance {start : Nat} : Yields text (indexSignature g start) := by
  unfold indexSignature
  refine .seq fun _ _ => .bind (.separated ?_ "," "]") fun params _ => .seq fun _ _ =>
    .seq fun _ _ => .seq_option inferInstance fun type _ => inferInstance
  exact .seq fun _ _ => .seq fun _ _ => .seq_option inferInstance fun type _ => inferInstance

omit hg in
theorem always_kind_indexSignature (start : Nat) :
    (indexSignature g start).Always Anywhere (·.kind = .tsIndexSignature) := by
  unfold indexSignature
  refine .of_rest fun _ => .of_rest fun params => .of_rest fun _ => .of_rest fun _ =>
    .of_rest fun type => ?_
  split
  · exact (always_node ..).imp fun _ h => h.1
  · exact always_reject

/-- A path of members ends where its last name does. -/
theorem yields_closeNode {n : Node} (hn : AllSound text n) (hkind : n.kind ≠ .jsxMemberExpression) :
    Yields text (closeNode n) :=
  ⟨(always_node n.kind n.start n.children).imp fun _ h =>
    allSound_node_iff.2 ((allSound_node_iff.1 hn).of_children_eq h.1 h.2 hkind)⟩

/-- An index signature ends with the separator behind it. -/
instance {start : Nat} : Yields text (do
    let n ← indexSignature g start
    endMember
    return ← closeNode n) := by
  refine .seq_with (always_kind_indexSignature start) fun n hn hkind => .seq fun _ _ => ?_
  have := yields_closeNode hn (hkind ▸ nofun)
  infer_instance

instance {kind : Kind} {start : Nat} [Holds kind.isPlain] :
    Yields text (signature g kind start) := by
  unfold signature; infer_instance
instance {start : Nat} : Yields text (accessorSignature g start) := by
  unfold accessorSignature; infer_instance
instance {start : Nat} : Yields text (propertySignature g start) := by
  unfold propertySignature; infer_instance
instance : Yields text (typeMember g) := by unfold typeMember; infer_instance
instance : Yields text (typeMembers g) := by unfold typeMembers; infer_instance

instance : Yields text (mappedType g) := by
  unfold mappedType
  refine .seq fun start _ => .seq fun _ _ => .seq fun plus _ => .seq fun minus _ => ?_
  dsimp only
  split
  all_goals
    refine .seq fun _ _ => .seq fun _ _ => .seq fun named _ => ?_
    split <;> infer_instance

instance : Yields text (tupleElementType g) := by
  unfold tupleElementType
  refine .seq fun start _ => .seq fun rest _ => ?_
  split
  · infer_instance
  · refine .seq fun t ht => ?_
    split
    · next inner hkind hchildren =>
      have : AllSound text inner := allSound_node_iff.2 <| (allSound_node_iff.1 ht).child
        (hkind ▸ rfl) (hchildren ▸ List.mem_cons_self)
      infer_instance
    · infer_instance

instance : Yields text (tupleElement g) := by unfold tupleElement; infer_instance
instance {literal : Parse Node} [Yields text literal] : Yields text (literalType literal) := by
  unfold literalType; infer_instance
instance : Yields text negativeNumber := by unfold negativeNumber; infer_instance
instance : Yields text (thisType g) := by unfold thisType; infer_instance
instance : Yields text (assertsPredicate g) := by unfold assertsPredicate; infer_instance
instance : Yields text importedName := by unfold importedName; infer_instance
instance : Yields text (importType g) := by unfold importType; infer_instance

instance : Yields text (typeQuery g) := by
  unfold typeQuery
  refine .seq fun start _ => .seq fun _ _ => .seq fun imports _ => ?_
  have hargs (name : Node) (hname : AllSound text name) : Yields text (do
      let args ← match name.kind with
        | .tsImportType => pure none
        | _ => typeArgumentsOfType? g
      node .tsTypeQuery start (name :: args.toList)) := by
    dsimp only
    split <;> infer_instance
  dsimp only
  split
  · exact .seq hargs
  · exact .seq hargs

theorem isPlain_of_keywordType? {word : String} {kind : Kind} (h : keywordType? word = some kind) :
    Holds kind.isPlain := by
  unfold keywordType? at h
  split at h <;> cases h <;> exact ⟨rfl⟩

instance {word : String} : Yields text (wordType g word) := by
  unfold wordType
  split
  · next kind hkind =>
    have := isPlain_of_keywordType? hkind
    infer_instance
  · split <;> infer_instance

instance {closed : Bool} : Yields text (templateType g closed) := by
  unfold templateType; infer_instance

instance : Yields text (primaryType g) := by
  unfold primaryType
  refine .seq fun start _ => .seq fun t _ => ?_
  split
  all_goals try infer_instance
  refine .seq fun _ _ => .seq fun t _ => ?_
  split <;> infer_instance

instance : Yields text (postfixType g) := by
  unfold postfixType
  refine .seq fun start _ => .seq fun first _ => .loop inferInstance fun t _ =>
    .seq fun newline _ => ?_
  split
  · infer_instance
  · refine .seq fun t _ => ?_
    split <;> infer_instance

instance : Yields text (inferConstraint g) := by unfold inferConstraint; infer_instance
instance : Yields text (inferType g) := by unfold inferType; infer_instance
instance : Yields text (operatorType g) := by unfold operatorType; infer_instance
instance {operator : String} {kind : Kind} {item : Parse Node} [Holds kind.isPlain]
    [Yields text item] : Yields text (joinedTypes operator kind item) := by
  unfold joinedTypes; infer_instance
instance : Yields text (unionType g) := by unfold unionType; infer_instance
instance : Yields text (typeRule g) := by unfold typeRule; infer_instance

/-! ## Elements -/

instance {nested : Bool} : Yields text (jsxContainer g nested) := by
  have hrest (start : Nat) : Yields text (do
      let e ← enclosed (g .expression)
      match e.kind with
      | .sequenceExpression => fault
      | _ => pure ()
      closeJsx "\x7d" nested
      node .jsxExpressionContainer start [e]) := by
    refine .seq fun e _ => ?_
    dsimp only
    split <;> infer_instance
  unfold jsxContainer
  refine .seq fun start _ => .seq fun _ _ => .seq fun spread _ => ?_
  split
  · infer_instance
  · refine .seq fun empty _ => ?_
    split
    · infer_instance
    · exact hrest start

instance : Yields text jsxAttributeName := by unfold jsxAttributeName; infer_instance

instance : Yields text (jsxAttributeValue g) := by
  unfold jsxAttributeValue
  refine .seq fun ctx _ => .bind (yields_modify_advance ⟨fun c => ?_⟩) fun _ _ =>
    .seq fun t _ => ?_
  · split
    · exact (isLiteral_lexJsxString '\"' c).isRead
    · exact (isLiteral_lexJsxString '\'' c).isRead
    · exact isRead_lex ctx.size c
  · split <;> infer_instance

instance : Yields text (jsxAttribute g) := by unfold jsxAttribute; infer_instance

instance : Yields text (jsxChildren g) := by
  unfold jsxChildren
  refine .bind (.many (.seq fun start _ => .seq fun t _ => ?_)) fun children _ => inferInstance
  split <;> infer_instance

instance {start : Nat} {nested : Bool} : Yields text (jsxFragment g start nested) := by
  unfold jsxFragment; infer_instance

/-- An opening tag is sound but for its kind. -/
theorem always_openingElement {start : Nat} {parts : List Node} (h : AllSound text parts) :
    (node .jsxOpeningElement start parts).Always (State.IsIn text)
      fun n => n.kind = .jsxOpeningElement ∧ ∀ m ∈ n.nodes, m.FitsIn text := by
  refine (always_node ..).imp fun n ⟨hkind, hchildren⟩ =>
    ⟨hkind, Node.forall_mem_nodes_iff.2
      ⟨Node.fits_of_isLoose (hkind ▸ rfl) fun c hc => ?_, ?_⟩⟩
  · rw [hkind]
    exact Kind.mayHold_of_isFree nofun (h.isSound_of_mem (hchildren ▸ hc)).kind
  · exact fun c hc => (h.isSound_of_mem (hchildren ▸ hc)).fits

/-- It may be the first child of an element. -/
theorem yields_jsxElement {start : Nat} {opening : Node} {children : List Node}
    (hopening : opening.kind = .jsxOpeningElement ∧ ∀ m ∈ opening.nodes, m.FitsIn text)
    (h : AllSound text children) : Yields text (node .jsxElement start (opening :: children)) := by
  refine ⟨(always_node ..).imp fun n ⟨hkind, hchildren⟩ => allSound_node_iff.2 ?_⟩
  refine Node.isSound_of_fits (hkind ▸ rfl) (Node.fits_of_isLoose (hkind ▸ rfl) ?_) ?_
  · rw [hkind, hchildren, List.forall_mem_cons, hopening.1]
    exact ⟨rfl, fun c hc => Kind.mayHold_of_isFree nofun (h.isSound_of_mem hc).kind⟩
  · rw [hchildren]
    exact List.forall_mem_cons.2 ⟨hopening.2, fun c hc => (h.isSound_of_mem hc).fits⟩

instance {nested : Bool} : Yields text (jsxElementRule g nested) := by
  unfold jsxElementRule
  refine .seq fun start _ => .seq fun _ _ => .seq fun fragment _ => ?_
  split
  · infer_instance
  · refine .seq fun name _ => .seq fun ctx _ => .seq fun angle _ => ?_
    dsimp only
    split
    all_goals
      refine .seq fun typeArgs _ => .seq fun attributes _ => .seq fun closed _ => ?_
      have hparts : AllSound text (name :: (typeArgs.toList ++ attributes)) := inferInstance
      split
      · exact .seq fun _ _ => .seq_of (always_openingElement hparts) fun opening hopening =>
          yields_jsxElement hopening inferInstance
      · exact .seq fun _ _ => .seq_of (always_openingElement hparts) fun opening hopening =>
          .seq fun children _ => .seq fun closeName _ => .seq fun _ _ => .seq fun _ _ =>
            .seq fun closing _ => yields_jsxElement hopening inferInstance

/-! ## Functions and classes -/

instance : Yields text (statements g) := by unfold statements; infer_instance

instance {ns : List Node} [h : AllSound text ns] : AllSound text (markDirectives ns) := by
  refine allSound_list_iff.2 ?_
  replace h := allSound_list_iff.1 h
  fun_induction markDirectives ns with
  | case1 => exact List.forall_mem_nil _
  | case2 n rest e hchildren hkind _ ih =>
    obtain ⟨hn, hrest⟩ := List.forall_mem_cons.1 h
    refine List.forall_mem_cons.2
      ⟨allSound_node_iff.2 (Node.isSound_of_isPlain rfl ?_), ih hrest⟩
    exact (allSound_node_iff.1 hn).forall_child (hkind ▸ rfl)
  | case3 | case4 => exact h

instance {isAsync isGenerator : Bool} : Yields text (functionBody g isAsync isGenerator) := by
  unfold functionBody; infer_instance

instance {isAsync isGenerator : Bool} : Yields text (functionHead g isAsync isGenerator) := by
  unfold functionHead; infer_instance
instance {isAsync isGenerator : Bool} : Yields text (functionBody? g isAsync isGenerator) := by
  unfold functionBody?; infer_instance
instance {isAsync isGenerator : Bool} : Yields text (methodFunction g isAsync isGenerator) := by
  unfold methodFunction; infer_instance
instance {start : Nat} {needsName : Bool} :
    Yields text (functionDeclaration g start needsName) := by
  unfold functionDeclaration; infer_instance
instance : Yields text (functionExpression g) := by unfold functionExpression; infer_instance
instance {start : Nat} {decos : List Node} {m : MemberModifiers} [AllSound text decos] :
    Yields text (accessorMember g start decos m) := by
  unfold accessorMember; infer_instance
instance {start : Nat} {decos : List Node} {m : MemberModifiers} {isGenerator : Bool} {key : Node}
    {computed : Bool} [AllSound text decos] [AllSound text key] :
    Yields text (methodMember g start decos m isGenerator key computed) := by
  unfold methodMember; infer_instance
instance {start : Nat} {decos : List Node} {m : MemberModifiers} {key : Node} {computed : Bool}
    [AllSound text decos] [AllSound text key] :
    Yields text (propertyMember g start decos m key computed) := by
  unfold propertyMember; infer_instance
instance {start : Nat} : Yields text (staticBlock g start) := by unfold staticBlock; infer_instance
instance : Yields text (classMember g) := by unfold classMember; infer_instance
instance : Yields text (classBody g) := by unfold classBody; infer_instance

instance {e : Node} [h : AllSound text e] : AllSound text (splitInstantiation e) := by
  unfold splitInstantiation
  split
  · next inner args hkind hchildren =>
    have hsound := (allSound_node_iff.1 h).forall_child (hkind ▸ rfl)
    rw [hchildren] at hsound
    have : AllSound text inner := allSound_node_iff.2 (hsound inner List.mem_cons_self)
    have : AllSound text args :=
      allSound_node_iff.2 (hsound args (List.mem_cons_of_mem _ List.mem_cons_self))
    infer_instance
  · infer_instance

instance : Yields text (extendsClause g) := by unfold extendsClause; dsimp only; infer_instance

instance : Yields text (implementsItem g) := by unfold implementsItem; infer_instance
instance {item : Parse Node} [Yields text item] : Yields text (commaList item) := by
  unfold commaList; infer_instance
instance {start : Nat} {declares needsName : Bool} {decos : List Node} [AllSound text decos] :
    Yields text (classRest g start declares needsName decos) := by
  unfold classRest; infer_instance
instance : Yields text (classExpression g) := by unfold classExpression; infer_instance

end ComponentScan.Syntax
