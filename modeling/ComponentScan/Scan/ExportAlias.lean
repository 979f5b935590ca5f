import ComponentScan.Scan.Basic

/-!
# Export aliases

A component may be exported by a statement elsewhere in its file, even before its definition. Such
statements are noted on the way and applied after the walk. A component that is exported where it is
defined keeps that name, and otherwise the first alias counts.
-/

namespace ComponentScan.ExportAlias

open Syntax

/-- Whether there is a source among the children of a statement that exports names. Then they are
names of another module. -/
def hasSource (children : List Node) : Bool :=
  children.any (·.kind.isStringLiteral)

/-- The local names that a statement exports, each with its exported name. -/
def exportedNames (n : Node) : List (Node × String) :=
  match n.kind, n.children with
  | .exportNamedDeclaration _, children =>
    if hasSource children then []
    else children.filterMap fun spec =>
      match spec.kind, spec.children with
      | .exportSpecifier _, [name, exported] => some (name, nameOr "" exported)
      | _, _ => none
  | .exportDefaultDeclaration, [name] => [(name, "default")]
  | _, _ => []

/-- Notes an alias if the local name is a reference to a symbol. -/
def noteAlias (s : Session) (name : Node) (exported : String) : Scan Unit := do
  match name.kind, s.symbolAt? name with
  | .identifierReference _, some _ =>
    let id ← Scan.identify s name
    modify fun st => { st with aliases := st.aliases ++ [(id, exported)] }
  | _, _ => return

/-- Notes the aliases in an export statement. -/
def visit (s : Session) (v : Visit) : Scan Unit :=
  (exportedNames v.node).forM fun (name, exported) => noteAlias s name exported

/-- The detector of export aliases. -/
def detector : Detector :=
  ⟨"export-alias", fun _ s v _ => visit s v⟩

/-! ## After the walk -/

/-- The name of a component after an alias. -/
def rename (exported : String) (c : DefinedComponent) : DefinedComponent :=
  { c with exportedAs := some (c.exportedAs.getD exported) }

/-- Applies an alias. -/
def applyAlias (id : Identity) (exported : String) : Scan Unit := do
  let report := (← get).report
  if (report.defined? id).isSome then
    Scan.update fun report => ((), (report.updateDefined id (rename exported)).markExported id)
    Scan.log 0 s!"export alias {id} -> {exported}"
  else Scan.log 0 s!"export alias {id} -> {exported}: not a component"

/-- Applies the aliases that have been noted. -/
def applyAliases : Scan Unit := do
  (← get).aliases.forM fun (id, exported) => applyAlias id exported

end ComponentScan.ExportAlias
