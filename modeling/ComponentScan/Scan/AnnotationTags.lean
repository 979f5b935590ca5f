import ComponentScan.Permalink
import ComponentScan.Scan.ClassComponent

/-!
# Annotations

The documentation comments of a declaration may carry tags that mark pending work, or a tag that
links the comment to an artifact elsewhere. Each tag makes an annotation on the declaration. The
comments at a token belong to the first declaration that starts there.
-/

namespace ComponentScan.AnnotationTags

open Syntax

/-- What comments are attached to. -/
inductive Target
  | declaration (n : Node)
  /-- A member of a class, by its name. -/
  | member (name : String)

/-- Whether a node is a declaration that annotations may be on. -/
def isDeclaration (n : Node) : Bool :=
  match n.kind with
  | .function true | .classNode true | .variableDeclaration _ | .tsInterfaceDeclaration
  | .tsTypeAliasDeclaration | .tsEnumDeclaration => true
  | _ => false

/-- Whether a default export declares something with a name. -/
def isNamedDeclaration (n : Node) : Bool :=
  match n.kind with
  | .function true | .classNode true => n.id?.isSome
  | _ => false

/-- What the comments at the start of a node are attached to, as far as the node tells. -/
def targetOf? (n : Node) : Option Target :=
  match n.kind with
  | .exportNamedDeclaration _ => (n.children.find? isDeclaration).map .declaration
  | .exportDefaultDeclaration => (n.children.find? isNamedDeclaration).map .declaration
  | .methodDefinition .. | .propertyDefinition _ =>
    (n.memberKey?.bind memberName?).map .member
  | _ => if isDeclaration n then some (.declaration n) else none

/-- The node that names the class around a member: the class itself if it is declared, or the
variable that it is bound to. The ancestors are given with the innermost first. -/
def classOwner? : List Node → Option Node
  | [] => none
  | n :: above =>
    match n.kind with
    | .classNode true => if n.id?.isSome then some n else none
    | .classNode false =>
      above.head?.filter fun p =>
        p.kind.isVariableDeclarator && (p.binding?.any (·.kind.isBindingIdentifier))
    | _ => classOwner? above

/-- The identity of what comments are attached to; a member of a class without a name has none. -/
def parentIdentity? (s : Session) (v : Visit) (target : Target) (indent : Nat) :
    Scan (Option Identity) := do
  match target with
  | .declaration n => some <$> Scan.identify s n
  | .member name =>
    match classOwner? v.ancestors.reverse with
    | some owner => return some (ClassComponent.memberIdentity (← Scan.identify s owner) name)
    | none =>
      Scan.log indent s!"docs on member {name} of an anonymous class"
      return none

/-- Adds an annotation. -/
def annotate (a : Annotation) : Scan Unit :=
  Scan.update fun report => ((), report.annotate a)

/-- Takes a cross-reference tag of a comment. The location starts at the tag, where a permalink is
written. -/
def takeCrossReference (s : Session) (doc : DocComment) (tag : DocTag) (parent : Identity)
    (indent : Nat) : Scan Unit := do
  if doc.description.isEmpty then
    Scan.log indent s!"@{tag.name} without a comment body"
  else
    annotate {
      sourceLocation := s.location ⟨tag.span.start, doc.span.stop⟩
      text := doc.description
      parentIdentity := parent
      sequenceKey := none
      crossReference := some {
        text := doc.description
        sourceLocation := s.location tag.span
        parentIdentity := parent
        permalink := parsePermalink tag.text } }
    Scan.log indent s!"cross-reference on {parent}"

/-- Takes a tag that marks pending work; without a text it stands for the description. -/
def takePendingWork (s : Session) (doc : DocComment) (tag : DocTag) (parent : Identity)
    (indent : Nat) : Scan Unit := do
  annotate {
    sourceLocation := s.location tag.span
    text := if tag.text.isEmpty then doc.description else tag.text
    parentIdentity := parent
    sequenceKey := none
    crossReference := none }
  Scan.log indent s!"@{tag.name} on {parent}"

/-- Takes a tag of a comment. -/
def takeTag (config : Config) (s : Session) (doc : DocComment) (parent : Identity) (indent : Nat)
    (tag : DocTag) : Scan Unit := do
  if config.isCrossReferenceTag tag.name then takeCrossReference s doc tag parent indent
  else if config.isPendingWorkTag tag.name then takePendingWork s doc tag parent indent

/-- Takes the comments at the start of a node, unless another node has taken them. -/
def visit (config : Config) (s : Session) (v : Visit) (indent : Nat) : Scan Unit := do
  let anchor := v.node.start
  let docs := s.docsAt anchor
  if docs.isEmpty || (← get).claimed.contains anchor then return
  match targetOf? v.node with
  | none => return
  | some target =>
    modify fun st => { st with claimed := anchor :: st.claimed }
    match ← parentIdentity? s v target indent with
    | none => return
    | some parent =>
      docs.forM fun doc => doc.tags.forM (takeTag config s doc parent indent)

/-- The detector of annotations. -/
def detector : Detector :=
  ⟨"annotation", visit⟩

end ComponentScan.AnnotationTags
