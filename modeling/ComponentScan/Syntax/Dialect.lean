import ComponentScan.FilePath

/-!
# Dialects

The extension of a file decides which language it holds: whether types and JSX elements are part of
it, and whether the file is a module. A file of no known extension is a TypeScript module with JSX.
-/

namespace ComponentScan.Syntax

/-- How a file is loaded. -/
inductive Goal
  | module
  | commonJs
  /-- A module if it holds an import, an export or a top-level await, else a script. -/
  | detected
  deriving Repr, DecidableEq, Inhabited

structure Dialect where
  typescript : Bool
  jsx : Bool
  goal : Goal
  /-- The file only declares what others define. -/
  declarationFile : Bool
  deriving Repr, DecidableEq, Inhabited

namespace Dialect

/-- The pieces of the last part of a path between its full stops. -/
def namePieces (path : String) : List String :=
  let name := ((FilePath.parts path).getLast?).getD ""
  (Text.splitWhere (· == '.') name.toList).map String.ofList

/-- The dialect of an extension, given the pieces of the name before it, the last one first. -/
def ofExtension (extension : String) (before : List String) : Dialect :=
  match extension with
  | "js" => ⟨false, false, .detected, false⟩
  | "mjs" => ⟨false, false, .module, false⟩
  | "cjs" => ⟨false, false, .commonJs, false⟩
  | "jsx" => ⟨false, true, .detected, false⟩
  | "ts" => ⟨true, false, .detected, (before.take 2).contains "d"⟩
  | "mts" => ⟨true, false, .module, (before.take 1).contains "d"⟩
  | "cts" => ⟨true, false, .commonJs, (before.take 1).contains "d"⟩
  | "tsx" => ⟨true, true, .detected, false⟩
  | _ => ⟨true, true, .module, false⟩

/-- The dialect of the file at a path. A name that only starts with a full stop has no
extension. -/
def ofPath (path : String) : Dialect :=
  match (namePieces path).reverse with
  | extension :: before =>
    if before = [] ∨ before = [""] then ofExtension "" [] else ofExtension extension before
  | [] => ofExtension "" []

end Dialect

end ComponentScan.Syntax
