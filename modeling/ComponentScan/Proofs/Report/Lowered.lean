import ComponentScan.Proofs.Report.SequenceKeys
import ComponentScan.Proofs.Report.Table

/-!
# Reports moved down

A report is another one moved down if they agree but for the lines of locations, all of which are
`k` lines further down (`ScanReport.IsLowered`). Where a component is defined that the file only
refers to is a text, which may be a location or something else; how these texts are related is left
to `located`. What is done to reports alike keeps them so, and annotations are numbered alike
(`assignSequenceKeys_addLines`).
-/

namespace ComponentScan

/-! ## Lines -/

/-- The range `k` lines further down. -/
def SourceLocation.addLines (k : Nat) (l : SourceLocation) : SourceLocation :=
  ⟨l.path, l.startLine + k, l.endLine + k⟩

def SymbolDescriptor.addLines (k : Nat) (d : SymbolDescriptor) : SymbolDescriptor :=
  { d with sourceLocation := d.sourceLocation.addLines k }

def DefinedComponent.addLines (k : Nat) (c : DefinedComponent) : DefinedComponent :=
  { c with
    sourceLocation := c.sourceLocation.addLines k
    description := c.description.addLines k }

def CrossReference.addLines (k : Nat) (x : CrossReference) : CrossReference :=
  { x with sourceLocation := x.sourceLocation.addLines k }

def Annotation.addLines (k : Nat) (a : Annotation) : Annotation :=
  { a with
    sourceLocation := a.sourceLocation.addLines k
    crossReference := a.crossReference.map (CrossReference.addLines k) }

/-- Annotations are numbered by what they say, not by where they are. -/
theorem assignSequenceKeys_addLines (k : Nat) (as : List Annotation) :
    assignSequenceKeys (as.map (·.addLines k)) =
      (assignSequenceKeys as).map (·.addLines k) := by
  have hcontent (a : Annotation) : (a.addLines k).content = a.content := by
    unfold Annotation.content Annotation.addLines
    cases a.crossReference <;> rfl
  have hfrom (seen : Annotation.Tally) :
      assignSequenceKeysFrom seen (as.map (·.addLines k)) =
        (assignSequenceKeysFrom seen as).map (·.addLines k) := by
    induction as generalizing seen with
    | nil => rfl
    | cons a rest ih =>
      rw [List.map_cons, assignSequenceKeysFrom_cons, assignSequenceKeysFrom_cons, hcontent, ih]
      rfl
  exact hfrom {}

/-! ## Reports -/

/-- The record `record'` is `record` with its lines `k` lines further down. -/
inductive ComponentRecord.IsLowered (k : Nat) (located : String → String → Prop) :
    ComponentRecord → ComponentRecord → Prop
  | defined (c : DefinedComponent) : IsLowered k located (.defined c) (.defined (c.addLines k))
  | referenced (name : String) {l l' : String} (h : located l l') :
    IsLowered k located (.referenced ⟨name, l⟩) (.referenced ⟨name, l'⟩)

/-- The report `r'` is `r` with all lines `k` lines further down. -/
structure ScanReport.IsLowered (k : Nat) (located : String → String → Prop) (r r' : ScanReport) :
    Prop where
  path : r'.path = r.path
  exports : r'.exports = r.exports
  components : List.Forall₂ (fun e e' => e'.1 = e.1 ∧ e.2.IsLowered k located e'.2)
    r.components.entries r'.components.entries
  annotations : r'.annotations = r.annotations.map (·.addLines k)
  debugLog : r'.debugLog = r.debugLog
  repo : r'.repo = r.repo

namespace ScanReport.IsLowered

variable {k : Nat} {located : String → String → Prop}

theorem fresh (path : String) (repo : RepoMetadata) :
    (fresh path repo).IsLowered k located (.fresh path repo) :=
  ⟨rfl, rfl, .nil, rfl, rfl, rfl⟩

variable {r r' : ScanReport} (h : r.IsLowered k located r') (id : Identity)
include h

theorem defined? : r'.defined? id = (r.defined? id).map (DefinedComponent.addLines k) := by
  have hrel := ComponentTable.rel_lookup h.components id
  unfold ScanReport.defined? ComponentTable.get?
  generalize r.components.entries.lookup id = x, r'.components.entries.lookup id = x' at hrel ⊢
  cases hrel with
  | none => rfl
  | some hx => cases hx <;> rfl

theorem isSome_defined? : (r'.defined? id).isSome = (r.defined? id).isSome := by
  rw [h.defined?, Option.isSome_map]

theorem insert {record record' : ComponentRecord} (hrecord : record.IsLowered k located record') :
    IsLowered k located { r with components := r.components.insert id record }
      { r' with components := r'.components.insert id record' } :=
  { h with components := ComponentTable.forall₂_insertInto h.components id hrecord }

theorem define (c : DefinedComponent) :
    (r'.define id (c.addLines k)).1 = (r.define id c).1 ∧
      (r.define id c).2.IsLowered k located (r'.define id (c.addLines k)).2 := by
  unfold ScanReport.define
  rw [h.defined?]
  cases r.defined? id with
  | some _ => exact ⟨rfl, h⟩
  | none => exact ⟨rfl, h.insert id (.defined c)⟩

theorem reference (name : String) {l l' : String} (hl : located l l') :
    (r'.reference id ⟨name, l'⟩).1 = (r.reference id ⟨name, l⟩).1 ∧
      (r.reference id ⟨name, l⟩).2.IsLowered k located (r'.reference id ⟨name, l'⟩).2 := by
  have hrel := ComponentTable.rel_lookup h.components id
  unfold ScanReport.reference ComponentTable.get?
  generalize r.components.entries.lookup id = x, r'.components.entries.lookup id = x' at hrel ⊢
  cases hrel with
  | none => exact ⟨rfl, h.insert id (.referenced name hl)⟩
  | some _ => exact ⟨rfl, h⟩

theorem markExported : (r.markExported id).IsLowered k located (r'.markExported id) := by
  unfold ScanReport.markExported
  rw [h.exports]
  split
  · exact h
  · exact { h with exports := rfl }

theorem updateDefined {g : DefinedComponent → DefinedComponent}
    (hg : ∀ c, g (c.addLines k) = (g c).addLines k) :
    (r.updateDefined id g).IsLowered k located (r'.updateDefined id g) := by
  unfold ScanReport.updateDefined
  rw [h.defined?]
  cases r.defined? id with
  | none => exact h
  | some c => exact h.insert id (hg c ▸ .defined (g c))

omit id in
theorem annotate (a : Annotation) :
    (r.annotate a).IsLowered k located (r'.annotate (a.addLines k)) := by
  refine { h with annotations := ?_ }
  unfold ScanReport.annotate
  rw [h.annotations, List.map_append, List.map_singleton]

end ScanReport.IsLowered

end ComponentScan
