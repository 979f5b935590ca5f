import ComponentScan.Syntax.Node

/-!
# Assignment targets

What stands before an assignment operator is read as an expression and then seen as a target. Arrays
and objects become patterns, whose parts are targets in turn; identifiers and members are targets as
they are, parentheses around them aside. No other expression is a target.
-/

namespace ComponentScan.Syntax

namespace Kind

def isElision : Kind → Bool
  | elision => true
  | _ => false

/-- An array or object literal. -/
def isCompound : Kind → Bool
  | arrayExpression | objectExpression => true
  | _ => false

end Kind

namespace Node

/-- The target that a single expression is, patterns aside. -/
def asSimpleTarget? : Node → Option Node
  | ⟨.parenthesizedExpression, _, [inner]⟩ => inner.asSimpleTarget?
  | ⟨.tsAsExpression, span, [inner, type]⟩ =>
    inner.asSimpleTarget?.map fun _ => ⟨.tsAsExpression, span, [inner, type]⟩
  | ⟨.tsSatisfiesExpression, span, [inner, type]⟩ =>
    inner.asSimpleTarget?.map fun _ => ⟨.tsSatisfiesExpression, span, [inner, type]⟩
  | ⟨.tsTypeAssertion, span, [type, inner]⟩ =>
    inner.asSimpleTarget?.map fun _ => ⟨.tsTypeAssertion, span, [type, inner]⟩
  | ⟨.tsNonNullExpression, span, [inner]⟩ =>
    inner.asSimpleTarget?.map fun _ => ⟨.tsNonNullExpression, span, [inner]⟩
  | n =>
    match n.kind with
    | .identifierReference _ | .computedMemberExpression | .staticMemberExpression
    | .privateFieldExpression => some n
    | _ => none

/-- Whether a property of an object literal is a name that stands for key and value. -/
def isShorthand (key value : Node) : Bool :=
  match value.kind with
  | .identifierReference _ => key.span == value.span
  | _ => false

mutual

/-- The target that an expression is. -/
def asTarget? : Node → Option Node
  | ⟨.arrayExpression, span, items⟩ =>
    (asElements? items).map fun parts => ⟨.arrayAssignmentTarget, span, parts⟩
  | ⟨.objectExpression, span, items⟩ =>
    (asProperties? items).map fun parts => ⟨.objectAssignmentTarget, span, parts⟩
  | n => n.asSimpleTarget?

/-- A target with the default it may have. -/
def asMaybeDefault? : Node → Option Node
  | ⟨.assignmentExpression plain, span, [left, right]⟩ =>
    if plain then some ⟨.assignmentTargetWithDefault, span, [left, right]⟩ else none
  | ⟨.arrayExpression, span, items⟩ =>
    (asElements? items).map fun parts => ⟨.arrayAssignmentTarget, span, parts⟩
  | ⟨.objectExpression, span, items⟩ =>
    (asProperties? items).map fun parts => ⟨.objectAssignmentTarget, span, parts⟩
  | n => n.asSimpleTarget?

/-- The elements of an array pattern; a rest element is the last one, without a comma. -/
def asElements? : List Node → Option (List Node)
  | [] => some []
  | ⟨.spreadElement comma, span, [inner]⟩ :: rest =>
    if rest.isEmpty && !comma then
      (asTarget? inner).map fun target => [⟨.assignmentTargetRest, span, [target]⟩]
    else none
  | n :: rest => do
    if n.kind.isElision then return ← asElements? rest
    let target ← asMaybeDefault? n
    return target :: (← asElements? rest)

/-- The properties of an object pattern; a rest element is the last one, without a comma. -/
def asProperties? : List Node → Option (List Node)
  | [] => some []
  | ⟨.spreadElement comma, span, [inner]⟩ :: rest =>
    if rest.isEmpty && !comma then
      (asTarget? inner).map fun target => [⟨.assignmentTargetRest, span, [target]⟩]
    else none
  | ⟨.objectProperty, span, [_, target, default]⟩ :: rest => do
    return ⟨.assignmentTargetPropertyIdentifier, span, [target, default]⟩ :: (← asProperties? rest)
  | ⟨.objectProperty, span, [key, value]⟩ :: rest => do
    let first : Node ←
      if isShorthand key value then
        pure ⟨.assignmentTargetPropertyIdentifier, span, [value]⟩
      else do
        pure ⟨.assignmentTargetPropertyProperty, span, [key, ← asMaybeDefault? value]⟩
    return first :: (← asProperties? rest)
  | _ => none

end

/-- Whether a name with a default that only a pattern may hold is left in an expression. -/
def hasStrayDefault : Node → Bool
  | ⟨kind, _, children⟩ =>
    (match kind with
      | .objectProperty => children.length == 3
      | _ => false) || anyStray children
where
  /-- Whether some of the nodes have one. -/
  anyStray : List Node → Bool
    | [] => false
    | n :: rest => n.hasStrayDefault || anyStray rest

end Node

end ComponentScan.Syntax
