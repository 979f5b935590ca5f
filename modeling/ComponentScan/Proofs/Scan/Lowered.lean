import ComponentScan.Proofs.Report.Json
import ComponentScan.Proofs.Scan.Root
import ComponentScan.Proofs.Session.Lowered
import ComponentScan.Proofs.Syntax.Decidable

/-!
# Scans of files moved down

The scan of a file that is moved down by `k` lines goes along with the scan of the file itself: each
step fails in both with one error, or yields the same in both and keeps their states alike
(`Scan.Lowers`), the logs to the letter. So the reports differ by the lines of their locations only,
all of which are `k` lines further down (`scanSource_lowered`).
-/

namespace ComponentScan

open Syntax Template

/-! ## States -/

/-- Where the definition of a component is said to be that the file `s` only refers to, and where it
is said to be `k` lines further down: at a symbol of the file, in an imported module, or nowhere. -/
inductive Session.LocationLowered (s : Session) (k : Nat) : String → String → Prop
  | symbol {e : Nat × Scope.Symbol} (h : e ∈ s.symbols) : LocationLowered s k
    (s.symbolLocation e.2).text ((s.symbolLocation e.2).addLines k).text
  | module {n : Node} (h : n ∈ descendants s.root) (hkind : n.kind = .importExpression) :
    LocationLowered s k (LazyComponent.importedModule n) (LazyComponent.importedModule n)
  | unresolved : LocationLowered s k unresolvedLocation unresolvedLocation

/-- The state `st'` of a scan is `st` in a file that is `k` lines further down. -/
structure ScanState.IsLowered (s : Session) (k : Nat) (st st' : ScanState) : Prop where
  report : st.report.IsLowered k (s.LocationLowered k) st'.report
  log : st'.log = st.log
  claimed : st'.claimed = st.claimed.map (· + k)
  aliases : st'.aliases = st.aliases

namespace Scan

/-- The ends of two steps: both fail with one error, or both yield one result and have states alike. -/
inductive LoweredEnd (s : Session) (k : Nat) {α : Type} :
    Except ScanError α × ScanState → Except ScanError α × ScanState → Prop
  | error (e : ScanError) (st st' : ScanState) : LoweredEnd s k (.error e, st) (.error e, st')
  | ok (a : α) {st st' : ScanState} (h : st.IsLowered s k st') :
    LoweredEnd s k (.ok a, st) (.ok a, st')

/-- Whether the step `m'` does in a file that is `k` lines further down what `m` does in `s`. -/
def Lowers (s : Session) (k : Nat) {α : Type} (m m' : Scan α) : Prop :=
  ∀ ⦃st st' : ScanState⦄, st.IsLowered s k st' → LoweredEnd s k (m.run st) (m'.run st')

variable {s : Session} {k : Nat} {α β γ δ : Type}

namespace Lowers

theorem pure (a : α) : Lowers s k (Pure.pure a) (Pure.pure a) :=
  fun _ _ hst => .ok a hst

theorem throw (e : ScanError) :
    Lowers s k (MonadExcept.throw e : Scan α) (MonadExcept.throw e : Scan α) :=
  fun st st' _ => .error e st st'

theorem bind {m m' : Scan α} {f f' : α → Scan β} (h : Lowers s k m m')
    (hf : ∀ a, Lowers s k (f a) (f' a)) : Lowers s k (m >>= f) (m' >>= f') := by
  intro st st' hst
  have hend := h hst
  rw [run_bind, run_bind]
  cases hm : m.run st
  cases hm' : m'.run st'
  rw [hm, hm'] at hend
  cases hend with
  | error e => exact .error e _ _
  | ok a hst => exact hf a hst

theorem map {m m' : Scan α} (h : Lowers s k m m') (f : α → β) :
    Lowers s k (f <$> m) (f <$> m') := by
  rw [← bind_pure_comp, ← bind_pure_comp]
  exact h.bind fun a => .pure (f a)

theorem forM {f : γ → Scan Unit} {f' : δ → Scan Unit} {g : γ → δ} {l : List γ}
    (h : ∀ x ∈ l, Lowers s k (f x) (f' (g x))) : Lowers s k (l.forM f) ((l.map g).forM f') := by
  induction l with
  | nil => exact .pure ()
  | cons x l ih =>
    obtain ⟨hx, hl⟩ := List.forall_mem_cons.1 h
    exact hx.bind fun _ => ih hl

theorem mapM {f : γ → Scan α} {f' : δ → Scan α} {g : γ → δ}
    (h : ∀ x, Lowers s k (f x) (f' (g x))) (l : List γ) :
    Lowers s k (l.mapM f) ((l.map g).mapM f') := by
  induction l with
  | nil => exact .pure []
  | cons x l ih =>
    rw [List.map_cons, List.mapM_cons, List.mapM_cons]
    exact (h x).bind fun a => ih.bind fun as => .pure (a :: as)

theorem foldlM {f : α → γ → Scan α} {f' : α → δ → Scan α} {g : γ → δ}
    (h : ∀ a x, Lowers s k (f a x) (f' a (g x))) (l : List γ) (a : α) :
    Lowers s k (l.foldlM f a) ((l.map g).foldlM f' a) := by
  induction l generalizing a with
  | nil => exact .pure a
  | cons x l ih =>
    rw [List.map_cons, List.foldlM_cons, List.foldlM_cons]
    exact (h a x).bind ih

theorem log (indent : Nat) (message : String) :
    Lowers s k (Scan.log indent message) (Scan.log indent message) := fun st st' hst => by
  rw [run_log, run_log, hst.log]
  exact .ok () { hst with log := rfl }

theorem update {change change' : ScanReport → α × ScanReport}
    (h : ∀ r r', r.IsLowered k (s.LocationLowered k) r' →
      (change' r').1 = (change r).1 ∧ (change r).2.IsLowered k (s.LocationLowered k) (change' r').2) :
    Lowers s k (Scan.update change) (Scan.update change') := fun st st' hst => by
  obtain ⟨hresult, hreport⟩ := h _ _ hst.report
  rw [run_update, run_update, hresult]
  exact .ok _ { hst with report := hreport }

/-- A step that looks at the state where it starts. -/
theorem get_bind {f f' : ScanState → Scan α}
    (h : ∀ st st', st.IsLowered s k st' → Lowers s k (f st) (f' st')) :
    Lowers s k (get >>= f) (get >>= f') := by
  intro st st' hst
  have hget (st : ScanState) : (get : Scan ScanState).run st = (.ok st, st) := rfl
  rw [run_bind, run_bind, hget, hget]
  exact h st st' hst hst

theorem modify {f f' : ScanState → ScanState}
    (h : ∀ st st', st.IsLowered s k st' → (f st).IsLowered s k (f' st')) :
    Lowers s k (MonadState.modifyGet fun st => ((), f st) : Scan Unit)
      (MonadState.modifyGet fun st => ((), f' st)) :=
  fun st st' hst => .ok () (h st st' hst)

theorem identify (n : Node) : Lowers s k (Scan.identify s n) (Scan.identify s n) := by
  unfold Scan.identify Scan.identify.liftExcept
  cases s.identify n with
  | ok id => exact .pure id
  | error e => exact .throw e

end Lowers

end Scan

/-! ## Detectors of components -/

namespace Session.IsLowered

open Scan

variable {k : Nat} {s t : Session} (h : s.IsLowered k t)
include h

theorem lowers_identify (n : Node) :
    Lowers s k (Scan.identify s n) (Scan.identify t (n.move (· + k))) := by
  have hsame : Scan.identify t (n.move (· + k)) = Scan.identify s n := by
    unfold Scan.identify
    rw [h.identify]
  rw [hsame]
  exact .identify n

theorem lowers_recordReference (ident : Option Node) (name suffix : String) (indent : Nat) :
    Lowers s k (recordReference s ident name suffix indent)
      (recordReference t (ident.map (Node.move (· + k))) name suffix indent) := by
  have htake (id : Identity) {l l' : String} (hl : s.LocationLowered k l l') :
      Lowers s k
        (do
          if ← Scan.update (·.reference id ⟨name, l⟩) then Scan.log indent s!"referenced {id}"
          return id)
        (do
          if ← Scan.update (·.reference id ⟨name, l'⟩) then Scan.log indent s!"referenced {id}"
          return id) := by
    refine (Lowers.update fun r r' hr => hr.reference id name hl).bind fun stored => ?_
    cases stored with
    | true => exact (Lowers.log _ _).bind fun _ => .pure id
    | false => exact (Lowers.pure ()).bind fun _ => .pure id
  have hunresolved : Lowers s k
      (do
        Scan.log indent s!"unresolved tag <{name}>"
        let id := s!"{s.path}:{name}"
        if ← Scan.update (·.reference id ⟨name, unresolvedLocation⟩) then
          Scan.log indent s!"referenced {id}"
        return id)
      (do
        Scan.log indent s!"unresolved tag <{name}>"
        let id := s!"{t.path}:{name}"
        if ← Scan.update (·.reference id ⟨name, unresolvedLocation⟩) then
          Scan.log indent s!"referenced {id}"
        return id) := by
    rw [h.path]
    exact (Lowers.log _ _).bind fun _ => htake _ .unresolved
  unfold recordReference resolveReference
  cases ident with
  | none =>
    simp only [Option.map_none, bind_assoc, pure_bind]
    exact hunresolved
  | some n =>
    simp only [Option.map_some, Option.bind_some, h.symbolAt?]
    cases hsymbol : s.symbolAt? n with
    | none =>
      simp only [Option.map_none, bind_assoc, pure_bind]
      exact hunresolved
    | some symbol =>
      obtain ⟨e, he, rfl⟩ := mem_symbols_of_symbolAt? hsymbol
      simp only [Option.map_some, bind_assoc, pure_bind, h.symbolLocation]
      exact (h.lowers_identify n).bind fun root => htake (root ++ suffix) (.symbol he)

theorem lowers_tagReference? (name : Node) (indent : Nat) :
    Lowers s k (tagReference? s name indent) (tagReference? t (name.move (· + k)) indent) := by
  have hrecord (ident : Option Node) (text suffix : String) :
      Lowers s k (some <$> recordReference s ident text suffix indent)
        (some <$> recordReference t (ident.map (Node.move (· + k))) text suffix indent) :=
    (h.lowers_recordReference ident text suffix indent).map some
  unfold tagReference?
  rw [Node.kind_move, h.printCompact, h.print, memberRoot?_move]
  split
  · split
    · exact hrecord (some name) _ _
    · exact .pure none
  · split
    · exact hrecord none _ _
    · exact .pure none
  · dsimp only
    split
    · exact .pure none
    · cases hroot : memberRoot? name with
      | some root =>
        have hname : nameOr "" (some (root.move (· + k))) = nameOr "" (some root) :=
          nameOr_move "" (some root)
        simp only [Option.map_some, hname]
        exact hrecord (some root) _ _
      | none => exact hrecord none _ _
  · dsimp only
    split
    · exact .pure none
    · exact .throw _
  · exact .pure none

theorem lowers_openingReferences (opening : Node) (indent : Nat) :
    Lowers s k (openingReferences s opening indent)
      (openingReferences t (opening.move (· + k)) indent) := by
  have hvalues : (opening.move (· + k)).children.filterMap attributeComponent? =
      (opening.children.filterMap attributeComponent?).map (Node.move (· + k)) := by
    rw [Node.children_move, List.filterMap_map, List.map_filterMap]
    exact List.filterMap_congr fun c _ => attributeComponent?_move c
  have hvalue (value : Node) :
      Lowers s k (recordReference s (some value) (nameOr "" (some value)) "" indent)
        (recordReference t (some (value.move (· + k))) (nameOr "" (some (value.move (· + k)))) ""
          indent) := by
    have hname : nameOr "" (some (value.move (· + k))) = nameOr "" (some value) :=
      nameOr_move "" (some value)
    rw [hname]
    exact h.lowers_recordReference (some value) _ "" indent
  have hattributes (values : List Node) :
      Lowers s k
        (values.mapM fun value => recordReference s (some value) (nameOr "" (some value)) "" indent)
        ((values.map (Node.move (· + k))).mapM fun value =>
          recordReference t (some value) (nameOr "" (some value)) "" indent) :=
    .mapM hvalue values
  unfold openingReferences
  rw [hvalues, Node.children_move, List.head?_map]
  cases opening.children.head? with
  | none => exact (Lowers.pure none).bind fun _ => (hattributes _).bind fun _ => .pure _
  | some name =>
    exact (h.lowers_tagReference? name indent).bind fun _ => (hattributes _).bind fun _ => .pure _

theorem lowers_findJsx (root : Node) (indent : Nat) :
    Lowers s k (findJsx s root indent) (findJsx t (root.move (· + k)) indent) := by
  unfold findJsx
  rw [Node.children_move, flattenAll_move]
  refine Lowers.foldlM (fun found e => ?_) _ _
  obtain ⟨n, depth⟩ := e
  dsimp only
  unfold collect
  rw [Node.kind_move]
  split
  · exact (h.lowers_openingReferences n _).bind fun _ => .pure _
  · exact .pure found

/-! ### Definitions -/

theorem lowers_recordDefinition (c : Candidate) (id : Identity) (references : List Identity)
    (indent : Nat) :
    Lowers s k (recordDefinition s c id references indent)
      (recordDefinition t (c.move (· + k)) id references indent) := by
  have hcomponent : (c.move (· + k)).component t references = (c.component s references).addLines k := by
    unfold Candidate.component DefinedComponent.addLines Candidate.move
    dsimp only
    rw [h.describe, Node.span_move, h.location, Placement.exportedAs?_move]
  have hexported : ((c.component s references).addLines k).exportedAs =
      (c.component s references).exportedAs := rfl
  unfold recordDefinition
  dsimp only
  rw [hcomponent, hexported]
  refine (Lowers.update fun r r' hr => hr.define id _).bind fun stored => ?_
  cases stored with
  | false => exact .log _ _
  | true =>
    cases (c.component s references).exportedAs with
    | none => exact .log _ _
    | some _ =>
      exact Lowers.bind (.update fun r r' hr => ⟨rfl, hr.markExported id⟩) fun _ => .log _ _

theorem lowers_functionComponent (v : Visit) (indent : Nat) :
    Lowers s k (FunctionComponent.visit s v indent)
      (FunctionComponent.visit t (v.move (· + k)) indent) := by
  unfold FunctionComponent.visit
  rw [FunctionComponent.candidate?_move]
  cases FunctionComponent.candidate? v with
  | none => exact .pure ()
  | some e =>
    obtain ⟨candidate, body⟩ := e
    have htop : (candidate.move (· + k)).placement.isTopLevel = candidate.placement.isTopLevel :=
      candidate.placement.isTopLevel_move
    simp only [Option.map_some, FunctionComponent.moveCandidate, containsTemplate_move, htop]
    split
    · exact (h.lowers_identify candidate.declaration).bind fun id =>
        (h.lowers_findJsx body indent).bind fun references =>
          h.lowers_recordDefinition candidate id references indent
    · exact .pure ()

theorem lowers_takeMember (className : String) (owner : Identity) (indent : Nat)
    (references : List Identity) (member : Node) :
    Lowers s k (ClassComponent.takeMember s className owner indent references member)
      (ClassComponent.takeMember t className owner indent references (member.move (· + k))) := by
  unfold ClassComponent.takeMember
  rw [ClassComponent.memberPart?_move]
  cases ClassComponent.memberPart? member with
  | none => exact .pure references
  | some part =>
    cases part with
    | render body => exact h.lowers_findJsx body indent
    | helper name root =>
      refine Lowers.bind ?_ fun _ => .pure references
      unfold ClassComponent.recordHelper
      rw [containsTemplate_move]
      split
      · refine (h.lowers_findJsx root indent).bind fun found => ?_
        rw [Node.start_move]
        exact h.lowers_recordDefinition ⟨s!"{className}.{name}", member, .nested, member.start⟩ _
          found indent
      · exact .pure ()

theorem lowers_classComponent (config : Config) (v : Visit) (indent : Nat) :
    Lowers s k (ClassComponent.visit config s v indent)
      (ClassComponent.visit config t (v.move (· + k)) indent) := by
  have hname : (v.node.move (· + k)).id?.bind Node.text? = v.node.id?.bind Node.text? := by
    rw [Node.id?_move]
    cases v.node.id? <;> simp
  have hclass (name : String) : Lowers s k (ClassComponent.recordClass s v name indent)
      (ClassComponent.recordClass t (v.move (· + k)) name indent) := by
    have hanchor : ((Placement.ofContainers v.ancestors).move (· + k)).docAnchor (v.node.start + k) =
        (Placement.ofContainers v.ancestors).docAnchor v.node.start + k :=
      Placement.docAnchor_move _ _
    unfold ClassComponent.recordClass
    refine (h.lowers_identify v.node).bind fun id => ?_
    rw [Visit.node_move, Node.classMembers_move, Visit.ancestors_move, Placement.ofContainers_move,
      Node.start_move]
    dsimp only
    rw [hanchor]
    exact (Lowers.foldlM (h.lowers_takeMember name id indent) _ _).bind fun references =>
      h.lowers_recordDefinition ⟨name, v.node, _, _⟩ id references indent
  unfold ClassComponent.visit
  dsimp only
  rw [Visit.node_move, Node.kind_move, hname, Node.superClass?_move]
  cases v.node.kind with
  | classNode declares =>
    cases declares with
    | false => exact .pure ()
    | true =>
      cases v.node.id?.bind Node.text? with
      | none => exact .pure ()
      | some name =>
        cases v.node.superClass? with
        | none => exact .pure ()
        | some base =>
          simp only [Option.map_some, h.printCompact]
          split
          · exact hclass name
          · exact .log _ _
  | _ => exact .pure ()

theorem isWrapper_move (wrappers : PrintedNames) (n : Node) :
    LazyComponent.isWrapper wrappers t (n.move (· + k)) =
      LazyComponent.isWrapper wrappers s n := by
  unfold LazyComponent.isWrapper
  rw [Node.kind_move, Node.children_move]
  cases n.kind with
  | callExpression =>
    cases n.children with
    | nil => rfl
    | cons callee _ => simp only [List.map_cons, h.printCompact]
  | _ => rfl

theorem aboveWrapper?_move (wrappers : PrintedNames) (ancestors : List Node) :
    LazyComponent.aboveWrapper? wrappers t (ancestors.map (Node.move (· + k))) =
      (LazyComponent.aboveWrapper? wrappers s ancestors).map (List.map (Node.move (· + k))) := by
  unfold LazyComponent.aboveWrapper?
  rw [← List.map_reverse, List.dropWhile_map]
  simp only [Function.comp_def, h.isWrapper_move]
  cases ancestors.reverse.dropWhile (!LazyComponent.isWrapper wrappers s ·) <;> rfl

theorem lowers_lazyComponent (config : Config) {v : Visit} (hv : v ∈ visits s.root) (indent : Nat) :
    Lowers s k (LazyComponent.visit config s v indent)
      (LazyComponent.visit config t (v.move (· + k)) indent) := by
  have hrecord (declarator : Node) (hkind : v.node.kind = .importExpression) :
      Lowers s k (LazyComponent.recordLazy s declarator v.node indent)
        (LazyComponent.recordLazy t (declarator.move (· + k)) (v.node.move (· + k)) indent) := by
    have hname : LazyComponent.variableName t (declarator.move (· + k)) =
        LazyComponent.variableName s declarator := by
      unfold LazyComponent.variableName
      rw [Node.binding?_move]
      cases declarator.binding? with
      | none => rfl
      | some target => simp only [Option.map_some, Node.text?_move, h.print]
    have hmodule : LazyComponent.importedModule (v.node.move (· + k)) =
        LazyComponent.importedModule v.node := by
      unfold LazyComponent.importedModule
      rw [Node.children_move, List.head?_map, Option.map_map]
      simp only [Function.comp_def, Node.kind_move]
    unfold LazyComponent.recordLazy
    refine (h.lowers_identify declarator).bind fun id => ?_
    rw [hname, hmodule]
    refine (Lowers.update fun r r' hr => hr.reference id _
      (.module (node_mem_descendants_of_mem_visits hv) hkind)).bind fun stored => ?_
    cases stored with
    | true => exact .log _ _
    | false => exact .pure ()
  unfold LazyComponent.visit
  rw [Visit.node_move, Node.kind_move, Visit.ancestors_move, h.aboveWrapper?_move]
  split
  · next hkind =>
    cases LazyComponent.aboveWrapper? ⟨config.lazyLoadCallees⟩ s v.ancestors with
    | none => exact .log _ _
    | some above =>
      simp only [Option.map_some, List.find?_map, Function.comp_def, Node.kind_move]
      cases above.find? (·.kind.isVariableDeclarator) with
      | none => exact .log _ _
      | some declarator => exact hrecord declarator hkind
  · exact .pure ()

/-! ### Export aliases -/

theorem lowers_exportAlias (v : Visit) :
    Lowers s k (ExportAlias.visit s v) (ExportAlias.visit t (v.move (· + k))) := by
  unfold ExportAlias.visit
  rw [Visit.node_move, IsMoved.exportedNames_move]
  refine .forM fun e _ => ?_
  obtain ⟨name, exported⟩ := e
  dsimp only
  unfold ExportAlias.noteAlias
  rw [Node.kind_move, h.symbolAt?]
  cases name.kind with
  | identifierReference =>
    cases s.symbolAt? name with
    | none => exact .pure ()
    | some symbol =>
      refine (h.lowers_identify name).bind fun id => .modify fun st st' hst => ?_
      exact { hst with aliases := congrArg (· ++ [(id, exported)]) hst.aliases }
  | _ => exact .pure ()

/-! ## Annotations -/

open AnnotationTags

theorem lowers_parentIdentity? (v : Visit) (target : Target) (indent : Nat) :
    Lowers s k (parentIdentity? s v target indent)
      (parentIdentity? t (v.move (· + k)) (target.move (· + k)) indent) := by
  cases target with
  | declaration n => exact (h.lowers_identify n).map some
  | member name =>
    unfold parentIdentity?
    simp only [Target.move, Visit.ancestors_move, ← List.map_reverse, classOwner?_move]
    cases classOwner? v.ancestors.reverse with
    | none => exact (Lowers.log _ _).bind fun _ => .pure none
    | some owner => exact (h.lowers_identify owner).bind fun id => .pure _

theorem lowers_takeTag (config : Config) (doc : DocComment) (parent : Identity) (indent : Nat)
    (tag : DocTag) :
    Lowers s k (takeTag config s doc parent indent tag)
      (takeTag config t (doc.move (· + k)) parent indent (tag.move (· + k))) := by
  have hannotate (a : Annotation) : Lowers s k (annotate a) (annotate (a.addLines k)) :=
    .update fun r r' hr => ⟨rfl, hr.annotate a⟩
  have htag : t.location (tag.move (· + k)).span = (s.location tag.span).addLines k :=
    h.location tag.span
  have hrest : t.location ⟨(tag.move (· + k)).span.start, (doc.move (· + k)).span.stop⟩ =
      (s.location ⟨tag.span.start, doc.span.stop⟩).addLines k :=
    h.location ⟨tag.span.start, doc.span.stop⟩
  have hname : (tag.move (· + k)).name = tag.name := rfl
  have htext : (tag.move (· + k)).text = tag.text := rfl
  have hdescription : (doc.move (· + k)).description = doc.description := rfl
  unfold takeTag takeCrossReference takePendingWork
  rw [hname, htext, hdescription, htag, hrest]
  split
  · split
    · exact .log _ _
    · exact (hannotate _).bind fun _ => .log _ _
  · split
    · exact (hannotate _).bind fun _ => .log _ _
    · exact .pure ()

theorem lowers_annotationTags (config : Config) (v : Visit) (indent : Nat) :
    Lowers s k (AnnotationTags.visit config s v indent)
      (AnnotationTags.visit config t (v.move (· + k)) indent) := by
  unfold AnnotationTags.visit
  dsimp only
  rw [Visit.node_move, Node.start_move, h.docsAt, targetOf?_move]
  refine .get_bind fun st st' hst => ?_
  have hclaimed : st'.claimed.contains (v.node.start + k) = st.claimed.contains v.node.start := by
    rw [hst.claimed, Bool.eq_iff_iff, List.contains_iff_mem, List.contains_iff_mem, List.mem_map]
    exact ⟨fun ⟨o, ho, heq⟩ => Nat.add_right_cancel heq ▸ ho, fun ho => ⟨_, ho, rfl⟩⟩
  rw [hclaimed, List.isEmpty_map]
  split
  · exact .pure ()
  · cases targetOf? v.node with
    | none => exact .pure ()
    | some target =>
      refine Lowers.bind (.modify fun st st' hst => ?_) fun _ => ?_
      · exact { hst with claimed := congrArg ((v.node.start + k) :: ·) hst.claimed }
      · refine (h.lowers_parentIdentity? v target indent).bind fun parent => ?_
        cases parent with
        | none => exact .pure ()
        | some parent =>
          exact .forM fun doc _ => .forM fun tag _ => h.lowers_takeTag config doc parent indent tag

/-! ### The walk -/

theorem lowers_visit (config : Config) {v : Visit} (hv : v ∈ visits s.root) (indent : Nat) :
    Lowers s k (detectors.forM fun d => d.visit config s v indent)
      (detectors.forM fun d => d.visit config t (v.move (· + k)) indent) :=
  (h.lowers_functionComponent v indent).bind fun _ =>
    (h.lowers_classComponent config v indent).bind fun _ =>
      (h.lowers_lazyComponent config hv indent).bind fun _ =>
        (h.lowers_exportAlias v).bind fun _ =>
          (h.lowers_annotationTags config v indent).bind fun _ => .pure ()

theorem lowers_walk (config : Config) :
    Lowers s k (walk s.root 0 (runDetectors config s detectors))
      (walk t.root 0 (runDetectors config t detectors)) := by
  have hcallback (s : Session) : runDetectors config s detectors =
      .ofStep fun v indent => detectors.forM fun d => d.visit config s v indent := rfl
  have hkind : (s.root.move (· + k)).kind = .program := by rw [Node.kind_move, h.kind]
  have hbelow := sameBelow_visits hkind h.kind_lowered (by rw [h.children, Node.children_move])
  rw [hcallback, hcallback, walk_ofStep, walk_ofStep, forVisits_sameBelow t 0 hbelow, visits_move]
  refine Lowers.bind ?_ fun _ => .pure none
  exact .forM fun v hv => h.lowers_visit config hv _

end Session.IsLowered

/-! ## Reports -/

namespace ExportAlias

open Scan

variable {s : Session} {k : Nat}

theorem lowers_applyAlias (id : Identity) (exported : String) :
    Lowers s k (applyAlias id exported) (applyAlias id exported) := by
  have hrename (c : DefinedComponent) :
      rename exported (c.addLines k) = (rename exported c).addLines k := rfl
  refine .get_bind fun st st' hst => ?_
  dsimp only
  rw [hst.report.isSome_defined?]
  split
  · exact Lowers.bind (.update fun r r' hr => ⟨rfl, (hr.updateDefined id hrename).markExported id⟩)
      fun _ => .log _ _
  · exact .log _ _

theorem lowers_applyAliases : Lowers s k applyAliases applyAliases := by
  refine .get_bind fun st st' hst => ?_
  have hforM {f : Identity × String → Scan Unit} (hf : ∀ a, Lowers s k (f a) (f a)) :
      Lowers s k (st.aliases.forM f) ((st.aliases.map id).forM f) :=
    .forM fun a _ => hf a
  rw [hst.aliases]
  rw [List.map_id] at hforM
  exact hforM fun a => lowers_applyAlias a.1 a.2

end ExportAlias

/-- The scan of a session that is moved down fails with the same error, or its report is moved down. -/
theorem Session.IsLowered.scan {k : Nat} {s t : Session} (h : s.IsLowered k t) (config : Config)
    (repo : RepoMetadata) :
    (∃ e, s.scan config repo = .error e ∧ t.scan config repo = .error e) ∨
      ∃ r r', s.scan config repo = .ok r ∧ t.scan config repo = .ok r' ∧
        r.IsLowered k (s.LocationLowered k) r' := by
  have hrun : Scan.Lowers s k (runScan config s detectors true) (runScan config t detectors true) :=
    (h.lowers_walk config).bind fun _ => ExportAlias.lowers_applyAliases
  have hstart : ScanState.IsLowered s k { report := .fresh s.path repo }
      { report := .fresh t.path repo } := by
    rw [h.path]
    exact ⟨.fresh s.path repo, rfl, rfl, rfl⟩
  have hend := hrun hstart
  unfold Session.scan detect
  cases hs : (runScan config s detectors true).run { report := .fresh s.path repo }
  cases ht : (runScan config t detectors true).run { report := .fresh t.path repo }
  rw [hs, ht] at hend
  cases hend with
  | error e => exact .inl ⟨e, rfl, rfl⟩
  | ok _ hst =>
    refine .inr ⟨_, _, rfl, rfl, { hst.report with debugLog := hst.log, annotations := ?_ }⟩
    dsimp only
    rw [hst.report.annotations, assignSequenceKeys_addLines]

/-- The scan of a file with line feeds in front of it, which move its program as it is, fails with
the same error as the scan of the file, or its report is the one on the file with all lines further
down. -/
theorem scanSource_lowered {path source : String} {k : Nat}
    (h : Option.Rel (Program.IsLowered k) (Program.parse (.ofPath path) source)
      (Program.parse (.ofPath path) (String.ofList (Text.lower k source.toList))))
    (config : Config) (repo : RepoMetadata) :
    (∀ e, scanSource config path (String.ofList (Text.lower k source.toList)) repo = .error e ↔
      scanSource config path source repo = .error e) ∧
    ∀ r, scanSource config path source repo = .ok r → ∃ s r',
      Session.ofSource path source = .ok s ∧
      scanSource config path (String.ofList (Text.lower k source.toList)) repo = .ok r' ∧
      r.IsLowered k (s.LocationLowered k) r' := by
  have htext : (String.ofList (Text.lower k source.toList)).toList = Text.lower k source.toList :=
    String.toList_ofList
  generalize String.ofList (Text.lower k source.toList) = source' at h htext ⊢
  generalize hp : Program.parse (.ofPath path) source = x,
    hp' : Program.parse (.ofPath path) source' = x' at h
  cases h with
  | none =>
    have hfail {source : String} (hp : Program.parse (.ofPath path) source = none) :
        scanSource config path source repo = .error (.unparsable path) := by
      rw [scanSource_eq_bind, Session.ofSource_eq_error_of_parse hp]
      rfl
    rw [hfail hp, hfail hp']
    exact ⟨fun _ => Iff.rfl, nofun⟩
  | @some p p' h =>
    have hs := Session.ofSource_eq_ok_iff.2 ⟨p, hp, rfl⟩
    have ht := Session.ofSource_eq_ok_iff.2 ⟨p', hp', rfl⟩
    have hlowered := Session.isLowered_ofProgram h (Program.isReadFrom_of_parse hp).kind_root
      (Program.isReadFrom_of_parse hp').kind_root path source.toList
    rw [← htext] at hlowered
    rw [scanSource_of_ofSource hs, scanSource_of_ofSource ht, hs]
    obtain ⟨e, he, he'⟩ | ⟨r, r', hr, hr', hreport⟩ := hlowered.scan config repo
    · rw [he, he']
      exact ⟨fun _ => Iff.rfl, nofun⟩
    · rw [hr, hr']
      refine ⟨fun _ => iff_of_false nofun nofun, fun _ heq => ?_⟩
      cases heq
      exact ⟨_, r', rfl, rfl, hreport⟩

/-- A component with a comment, which refers to an imported component. -/
def movable : String :=
  "import Out from \"./out\";\n/** @FIXME split */\nexport const List = () => <Out/>;\n"

/-- The file, two lines further down. -/
def movableLowered : String :=
  "\n\nimport Out from \"./out\";\n/** @FIXME split */\nexport const List = () => <Out/>;\n"

/-- The component, its tag and the import are two lines further down. -/
theorem scanSource_lowered_two :
    movableLowered = String.ofList (Text.lower 2 movable.toList) ∧
    Option.Rel (Program.IsLowered 2) (Program.parse (.ofPath "a.tsx") movable)
      (Program.parse (.ofPath "a.tsx") movableLowered) ∧
    ∃ s r r', Session.ofSource "a.tsx" movable = .ok s ∧
      scanSource {} "a.tsx" movable .placeholder = .ok r ∧
      scanSource {} "a.tsx" movableLowered .placeholder = .ok r' ∧
      r.IsLowered 2 (s.LocationLowered 2) r' ∧
      r.locations.map (·.startLine) = [3, 3, 2] ∧ r'.locations.map (·.startLine) = [5, 5, 4] ∧
      r.components.get? "a.tsx:Out" = some (.referenced ⟨"Out", "a.tsx#L1"⟩) ∧
      r'.components.get? "a.tsx:Out" = some (.referenced ⟨"Out", "a.tsx#L3"⟩) := by
  have htext : movable.toList = _ := String.toList_ofList
  have htext' : movableLowered.toList = _ := String.toList_ofList
  obtain ⟨hlower, hparse⟩ : movableLowered.toList = Text.lower 2 movable.toList ∧
      ((Program.parse (.ofPath "a.tsx") movable).any fun p =>
        (Program.parse (.ofPath "a.tsx") movableLowered).any fun p' =>
          p'.root.children == p.root.children.map (Node.move (· + 2)) &&
          (p'.comments == p.comments.map fun e => (e.1 + 2, e.2.move (· + 2))) &&
          ((Session.ofProgram "a.tsx" movable.toList p).scan {} .placeholder).toOption.any (fun r =>
            r.locations.map (·.startLine) == [3, 3, 2] &&
            r.components.get? "a.tsx:Out" == some (.referenced ⟨"Out", "a.tsx#L1"⟩)) &&
          ((Session.ofProgram "a.tsx" movableLowered.toList p').scan {} .placeholder).toOption.any
            fun r => r.locations.map (·.startLine) == [5, 5, 4] &&
              r.components.get? "a.tsx:Out" == some (.referenced ⟨"Out", "a.tsx#L3"⟩)) = true := by
    simp only [Program.parse, htext, htext']
    decide +kernel
  obtain ⟨p, hp, hparse⟩ := (Option.any_eq_true _ _).1 hparse
  obtain ⟨p', hp', hparse⟩ := (Option.any_eq_true _ _).1 hparse
  simp only [Bool.and_eq_true, beq_iff_eq, Option.any_eq_true] at hparse
  obtain ⟨⟨⟨hchildren, hcomments⟩, r, hr, hlines, hout⟩, r', hr', hlines', hout'⟩ := hparse
  replace hlower : movableLowered = String.ofList (Text.lower 2 movable.toList) := by
    rw [← hlower, String.ofList_toList]
  have hrel : Option.Rel (Program.IsLowered 2) (Program.parse (.ofPath "a.tsx") movable)
      (Program.parse (.ofPath "a.tsx") movableLowered) := by
    rw [hp, hp']
    exact .some ⟨hchildren, hcomments⟩
  have hs := Session.ofSource_eq_ok_iff.2 ⟨p, hp, rfl⟩
  have ht := Session.ofSource_eq_ok_iff.2 ⟨p', hp', rfl⟩
  have hscan := (scanSource_of_ofSource hs {} .placeholder).trans (ok_of_toOption hr)
  have hscan' := (scanSource_of_ofSource ht {} .placeholder).trans (ok_of_toOption hr')
  obtain ⟨s, r₂, hs', hr₂, hreport⟩ := (scanSource_lowered (hlower ▸ hrel) {} .placeholder).2 _ hscan
  rw [← hlower] at hr₂
  cases hs.symm.trans hs'
  cases hscan'.symm.trans hr₂
  exact ⟨hlower, hrel, _, r, r', hs, hscan, hscan', hreport, hlines, hlines', hout, hout'⟩

end ComponentScan
