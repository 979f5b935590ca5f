import ComponentScan.Scan.Basic
import ComponentScan.Text.Uppercase

/-!
# Templates

A template is a JSX element or fragment. A tag whose name starts with an upper-case letter refers to
a component, as does an identifier in an attribute `component`; other tags are intrinsic elements.
Each component that is referred to is recorded; one that no symbol of the file names is recorded
under the name of its tag.
-/

namespace ComponentScan

open Syntax

/-- Whether a node is a template or holds one. -/
def containsTemplate (root : Node) : Bool :=
  root.kind.isTemplate || (descendants root).any (·.kind.isTemplate)

namespace Template

/-- The attribute whose value is a component. -/
def componentAttribute : String := "component"

/-- The identifier at the root of a path of members, unless it is `this`. -/
def memberRoot? : Node → Option Node
  | ⟨.jsxMemberExpression, _, object :: _⟩ => memberRoot? object
  | ⟨.identifierReference name, span, children⟩ => some ⟨.identifierReference name, span, children⟩
  | _ => none

/-- The identity of a component and where it is defined, as far as the file tells. -/
def resolveReference (s : Session) (ident : Option Node) (name suffix : String) (indent : Nat) :
    Scan (Identity × String) := do
  match ident, ident.bind s.symbolAt? with
  | some ident, some symbol =>
    let root ← Scan.identify s ident
    return (root ++ suffix, (s.symbolLocation symbol).text)
  | _, _ =>
    Scan.log indent s!"unresolved tag <{name}>"
    return (s!"{s.path}:{name}", unresolvedLocation)

/-- Records a component that is referred to by a name; `ident` is the identifier that is resolved,
and `suffix` the members of it that make up the rest of the name. -/
def recordReference (s : Session) (ident : Option Node) (name suffix : String) (indent : Nat) :
    Scan Identity := do
  let (id, definitionLocation) ← resolveReference s ident name suffix indent
  if ← Scan.update (·.reference id { name, definitionLocation }) then
    Scan.log indent s!"referenced {id}"
  return id

/-- The text of a name after its first `n` bytes. -/
def dropBytes (n : Nat) (name : String) : String :=
  match Text.cutAt? n name.toList with
  | some (_, rest) => String.ofList rest
  | none => ""

/-- The component that the name of a tag refers to. -/
def tagReference? (s : Session) (name : Node) (indent : Nat) : Scan (Option Identity) := do
  match name.kind with
  | .identifierReference text =>
    if Text.startsUppercase text.toList then some <$> recordReference s (some name) text "" indent
    else return none
  | .jsxIdentifier text =>
    if Text.startsUppercase text.toList then some <$> recordReference s none text "" indent
    else return none
  | .jsxMemberExpression =>
    let printed := s.printCompact name
    if !Text.startsUppercase printed.toList then return none
    match memberRoot? name with
    | some root =>
      let suffix := dropBytes (Text.byteLength (nameOr "" root).toList) printed
      some <$> recordReference s (some root) printed suffix indent
    | none => some <$> recordReference s none printed "" indent
  | .jsxNamespacedName =>
    let printed := s.print name
    if !Text.startsUppercase printed.toList then return none
    throw (.unexpectedShape "JSXNamespacedName" printed
      "component tag name must be an identifier or member expression")
  | _ => return none

/-- The identifier that an attribute gives as a component. -/
def attributeComponent? (n : Node) : Option Node :=
  match n with
  | ⟨.jsxAttribute, _, [⟨.jsxIdentifier name, _, _⟩, ⟨.jsxExpressionContainer, _, [value]⟩]⟩ =>
    match value.kind with
    | .identifierReference _ => if name == componentAttribute then some value else none
    | _ => none
  | _ => none

/-- The components that the opening tag of an element refers to. -/
def openingReferences (s : Session) (opening : Node) (indent : Nat) : Scan (List Identity) := do
  let tag ← match opening.children.head? with
    | some name => tagReference? s name indent
    | none => pure none
  let attributes ← (opening.children.filterMap attributeComponent?).mapM fun value =>
    recordReference s (some value) (nameOr "" value) "" indent
  return tag.toList ++ attributes

/-- Adds an identity to a list, once. -/
def pushUnique (found : List Identity) (id : Identity) : List Identity :=
  if found.contains id then found else found ++ [id]

/-- Adds the components that a node at a depth refers to. -/
def collect (s : Session) (indent : Nat) (found : List Identity) (n : Node) (depth : Nat) :
    Scan (List Identity) := do
  match n.kind with
  | .jsxOpeningElement =>
    let ids ← openingReferences s n (indent + (depth - 1))
    return ids.foldl pushUnique found
  | _ => return found

end Template

/-- The components that are referred to below a node, each once, in the order of the text. -/
def findJsx (s : Session) (root : Node) (indent : Nat) : Scan (List Identity) :=
  (flattenAll 1 root.children).foldlM (fun found (n, depth) =>
    Template.collect s indent found n depth) []

end ComponentScan
