import ComponentScan.Proofs.Except
import ComponentScan.Proofs.Scan.Events
import ComponentScan.Proofs.Syntax.Nodes

/-!
# Traces of the detectors

The trace of every detector at a node, and of the walk over a file (`Session.events`). A scan
records these events and applies the aliases among them (`scanSource_eq`).
-/

namespace ComponentScan

open Syntax

namespace Session

theorem identify_of_symbolAt? {s : Session} {n : Node} {symbol : Scope.Symbol}
    (h : s.symbolAt? n = some symbol) : s.identify n = .ok (s.identityOf symbol) := by
  unfold identify identifyWithin
  rw [h]

end Session

/-! ## Templates -/

namespace Template

/-- A component that is referred to: its identity, and its record if it has no other. -/
abbrev Mention := Identity × ReferencedComponent

def Mention.event (m : Mention) : Event :=
  .reference m.1 m.2

/-- The component that a name refers to, whose root is an identifier. -/
def mention (s : Session) (ident : Option Node) (name suffix : String) : Mention :=
  match ident.bind s.symbolAt? with
  | some symbol => (s.identityOf symbol ++ suffix, ⟨name, (s.symbolLocation symbol).text⟩)
  | none => (s!"{s.path}:{name}", ⟨name, unresolvedLocation⟩)

/-- The component that the name of a tag refers to. -/
def tagMention? (s : Session) (name : Node) : Except ScanError (Option Mention) :=
  match name.kind with
  | .identifierReference text =>
    .ok (if Text.startsUppercase text.toList then some (mention s (some name) text "") else none)
  | .jsxIdentifier text =>
    .ok (if Text.startsUppercase text.toList then some (mention s none text "") else none)
  | .jsxMemberExpression =>
    let printed := s.printCompact name
    .ok <|
      if Text.startsUppercase printed.toList then
        match memberRoot? name with
        | some root =>
          let suffix := dropBytes (Text.byteLength (nameOr "" root).toList) printed
          some (mention s (some root) printed suffix)
        | none => some (mention s none printed "")
      else none
  | .jsxNamespacedName =>
    let printed := s.print name
    if Text.startsUppercase printed.toList then
      .error (.unexpectedShape "JSXNamespacedName" printed
        "component tag name must be an identifier or member expression")
    else .ok none
  | _ => .ok none

/-- The components that attributes of an opening tag refer to. -/
def attributeMentions (s : Session) (opening : Node) : List Mention :=
  (opening.children.filterMap attributeComponent?).map fun value =>
    mention s (some value) (nameOr "" value) ""

/-- The components that a node refers to by itself: an opening tag by its name and attributes. -/
def nodeMentions (s : Session) (n : Node) : Except ScanError (List Mention) :=
  match n.kind with
  | .jsxOpeningElement =>
    match n.children.head? with
    | some name => (tagMention? s name).map fun tag => tag.toList ++ attributeMentions s n
    | none => .ok (attributeMentions s n)
  | _ => .ok []

/-- The components that some nodes refer to, in order. -/
def allMentions (s : Session) : List Node → Except ScanError (List Mention)
  | [] => .ok []
  | n :: rest => do
    let first ← nodeMentions s n
    let others ← allMentions s rest
    return first ++ others

/-- The components that are referred to below a node, in the order of the text. -/
def mentions (s : Session) (root : Node) : Except ScanError (List Mention) :=
  allMentions s (descendants root)

/-- The identities of some mentions, each once. -/
def identities (found : List Identity) (ms : List Mention) : List Identity :=
  (ms.map (·.1)).foldl pushUnique found

theorem identities_append (found : List Identity) (ms ms' : List Mention) :
    identities found (ms ++ ms') = identities (identities found ms) ms' := by
  rw [identities, List.map_append, List.foldl_append]
  rfl

end Template

namespace Scan

open Template

theorem traces_resolveReference (s : Session) (ident : Option Node) (name suffix : String)
    (indent : Nat) :
    Traces (resolveReference s ident name suffix indent)
      (.ok (((mention s ident name suffix).1, (mention s ident name suffix).2.definitionLocation),
        [])) := by
  unfold resolveReference mention
  cases hsymbol : ident.bind s.symbolAt? with
  | none => cases ident <;> exact (traces_log _ _).quiet_bind (traces_pure _)
  | some symbol =>
    obtain ⟨n, rfl, hn⟩ := Option.bind_eq_some_iff.1 hsymbol
    have hidentify := traces_identify s n
    rw [Session.identify_of_symbolAt? hn] at hidentify
    exact hidentify.quiet_bind (traces_pure _)

theorem traces_recordReference (s : Session) (ident : Option Node) (name suffix : String)
    (indent : Nat) :
    Traces (recordReference s ident name suffix indent)
      (.ok ((mention s ident name suffix).1, [(mention s ident name suffix).event])) := by
  have hname : (mention s ident name suffix).2 =
      ⟨name, (mention s ident name suffix).2.definitionLocation⟩ := by
    unfold mention
    split <;> rfl
  refine (traces_resolveReference s ident name suffix indent).quiet_bind ?_
  rw [Mention.event, hname]
  refine traces_reference (t := .ok (_, [])) fun stored => ?_
  cases stored with
  | false => exact traces_pure _
  | true => exact (traces_log _ _).quiet_bind (traces_pure _)

theorem traces_tagReference? (s : Session) (name : Node) (indent : Nat) :
    Traces (tagReference? s name indent) ((tagMention? s name).map fun tag =>
      (tag.map (·.1), tag.toList.map Mention.event)) := by
  have hrecord (ident : Option Node) (name suffix : String) :
      Traces (some <$> recordReference s ident name suffix indent)
        (.ok (some (mention s ident name suffix).1, [(mention s ident name suffix).event])) :=
    (traces_recordReference s ident name suffix indent).map
  unfold tagReference?
  split
  · next text hkind =>
    simp only [tagMention?, hkind]
    split
    · exact hrecord _ _ _
    · exact traces_pure _
  · next text hkind =>
    simp only [tagMention?, hkind]
    split
    · exact hrecord _ _ _
    · exact traces_pure _
  · next hkind =>
    simp only [tagMention?, hkind]
    by_cases hupper : Text.startsUppercase (s.printCompact name).toList = true
    · simp only [hupper, Bool.not_true, Bool.false_eq_true, if_false, if_true]
      cases memberRoot? name with
      | some root => exact hrecord _ _ _
      | none => exact hrecord _ _ _
    · simp only [hupper, Bool.not_false, if_true]
      exact traces_pure _
  · next hkind =>
    simp only [tagMention?, hkind]
    by_cases hupper : Text.startsUppercase (s.print name).toList = true
    · simp only [hupper, Bool.not_true, Bool.false_eq_true, if_false, if_true]
      exact traces_throw _
    · simp only [hupper, Bool.not_false, if_true]
      exact traces_pure _
  · simp only [tagMention?, *]
    exact traces_pure _

/-- The trace of a step that records mentions and yields their identities. -/
def mentionTrace (ms : Except ScanError (List Mention)) : Trace (List Identity) :=
  ms.map fun ms => (ms.map (·.1), ms.map Mention.event)

theorem traces_openingReferences (s : Session) (opening : Node) (indent : Nat)
    (hkind : opening.kind = .jsxOpeningElement) :
    Traces (openingReferences s opening indent) (mentionTrace (nodeMentions s opening)) := by
  have hattributes : Traces ((opening.children.filterMap attributeComponent?).mapM fun value =>
      recordReference s (some value) (nameOr "" value) "" indent)
      (mentionTrace (.ok (attributeMentions s opening))) := by
    have h := traces_mapM (l := opening.children.filterMap attributeComponent?) fun value _ =>
      traces_recordReference s (some value) (nameOr "" value) "" indent
    rw [← List.map_eq_flatMap] at h
    simpa only [mentionTrace, attributeMentions, Except.map, List.map_map, Function.comp_def] using h
  unfold openingReferences
  simp only [nodeMentions, hkind]
  cases opening.children.head? with
  | none => exact hattributes.bind_quiet (traces_pure _)
  | some name =>
    have htag := traces_tagReference? s name indent
    dsimp only
    cases hmention : tagMention? s name with
    | error e =>
      rw [hmention] at htag
      exact htag.error_bind
    | ok tag =>
      rw [hmention] at htag
      change Traces _ (.ok ((tag.toList ++ attributeMentions s opening).map (·.1),
        (tag.toList ++ attributeMentions s opening).map Mention.event))
      rw [List.map_append, List.map_append]
      refine htag.bind_ok (hattributes.bind_quiet ?_)
      cases tag <;> exact traces_pure _

theorem traces_collect (s : Session) (indent : Nat) (found : List Identity) (n : Node)
    (depth : Nat) :
    Traces (collect s indent found n depth)
      ((nodeMentions s n).map fun ms => (identities found ms, ms.map Mention.event)) := by
  unfold collect
  split
  · next hkind =>
    have h := traces_openingReferences s n (indent + (depth - 1)) hkind
    cases hms : nodeMentions s n with
    | error e =>
      rw [hms] at h
      exact h.error_bind
    | ok ms =>
      rw [hms] at h
      exact h.bind_quiet (traces_pure _)
  · next hkind =>
    have hms : nodeMentions s n = .ok [] := by
      unfold nodeMentions
      split
      · next heq => exact (hkind heq).elim
      · rfl
    rw [hms]
    exact traces_pure _

theorem traces_collectAll (s : Session) (indent : Nat) (nodes : List (Node × Nat))
    (found : List Identity) :
    Traces (nodes.foldlM (fun found (n, depth) => collect s indent found n depth) found)
      ((allMentions s (nodes.map (·.1))).map fun ms =>
        (identities found ms, ms.map Mention.event)) := by
  induction nodes generalizing found with
  | nil => exact traces_pure _
  | cons node nodes ih =>
    obtain ⟨n, depth⟩ := node
    rw [List.foldlM_cons, List.map_cons, allMentions]
    have hfirst := traces_collect s indent found n depth
    cases hms : nodeMentions s n with
    | error e =>
      rw [hms] at hfirst
      exact hfirst.error_bind
    | ok ms =>
      rw [hms] at hfirst
      have hothers := ih (identities found ms)
      cases hms' : allMentions s (nodes.map (·.1)) with
      | error e =>
        rw [hms'] at hothers
        change Traces _ (Trace.after (ms.map Mention.event) (.error e))
        exact hfirst.ok_bind hothers
      | ok ms' =>
        rw [hms'] at hothers
        change Traces _ (.ok (identities found (ms ++ ms'), (ms ++ ms').map Mention.event))
        rw [identities_append, List.map_append]
        exact hfirst.bind_ok hothers

theorem traces_findJsx (s : Session) (root : Node) (indent : Nat) :
    Traces (findJsx s root indent)
      ((mentions s root).map fun ms => (identities [] ms, ms.map Mention.event)) :=
  traces_collectAll s indent (flattenAll 1 root.children) []

end Scan

open Template

/-! ## Defined components -/

/-- The events of a function component at a node. -/
def FunctionComponent.events (s : Session) (v : Visit) : Except ScanError (List Event) :=
  match candidate? v with
  | some (candidate, body) =>
    if candidate.placement.isTopLevel && containsTemplate body then do
      let id ← s.identify candidate.declaration
      let ms ← mentions s body
      return ms.map Mention.event ++ [.define id (candidate.component s (identities [] ms))]
    else .ok []
  | none => .ok []

namespace ClassComponent

/-- What a member adds to a class: its references, if the member renders it, and the events on the
way. -/
def memberEvents (s : Session) (className : String) (owner : Identity) (member : Node) :
    Except ScanError (Option (List Identity) × List Event) :=
  match memberPart? member with
  | some (.render body) =>
    (mentions s body).map fun ms => (some (identities [] ms), ms.map Mention.event)
  | some (.helper name root) =>
    if containsTemplate root then
      (mentions s root).map fun ms =>
        let candidate : Candidate := ⟨s!"{className}.{name}", member, .nested, member.start⟩
        (none, ms.map Mention.event ++
          [.define (memberIdentity owner name) (candidate.component s (identities [] ms))])
    else .ok (none, [])
  | none => .ok (none, [])

/-- The references that members leave to their class, and the events on the way. -/
def membersEvents (s : Session) (className : String) (owner : Identity)
    (references : List Identity) : List Node → Except ScanError (List Identity × List Event)
  | [] => .ok (references, [])
  | member :: rest => do
    let (own, first) ← memberEvents s className owner member
    let (references, others) ← membersEvents s className owner (own.getD references) rest
    return (references, first ++ others)

/-- The events of a class component. -/
def classEvents (s : Session) (v : Visit) (name : String) : Except ScanError (List Event) := do
  let id ← s.identify v.node
  let (references, members) ← membersEvents s name id [] v.node.classMembers
  let placement := Placement.ofContainers v.ancestors
  let candidate : Candidate := ⟨name, v.node, placement, placement.docAnchor v.node.start⟩
  return members ++ [.define id (candidate.component s references)]

/-- The events of a class component at a node. -/
def events (config : Config) (s : Session) (v : Visit) : Except ScanError (List Event) :=
  let bases : PrintedNames := ⟨config.componentBaseClasses⟩
  match v.node.kind, v.node.id?.bind Node.text?, v.node.superClass? with
  | .classNode true, some name, some base =>
    if bases.matchesText (s.printCompact base) then classEvents s v name else .ok []
  | _, _, _ => .ok []

end ClassComponent

namespace Scan

theorem traces_functionComponent (s : Session) (v : Visit) (indent : Nat) :
    Traces (FunctionComponent.visit s v indent)
      ((FunctionComponent.events s v).map fun events => ((), events)) := by
  unfold FunctionComponent.visit
  split
  · next candidate body hcandidate =>
    simp only [FunctionComponent.events, hcandidate]
    split
    · have hid := traces_identify s candidate.declaration
      have hms := traces_findJsx s body indent
      cases hid' : s.identify candidate.declaration with
      | error e =>
        rw [hid'] at hid
        exact hid.error_bind
      | ok id =>
        rw [hid'] at hid
        cases hms' : mentions s body with
        | error e =>
          rw [hms'] at hms
          refine hid.quiet_bind ?_
          exact hms.error_bind
        | ok ms =>
          rw [hms'] at hms
          refine hid.quiet_bind ?_
          exact hms.bind_ok (traces_recordDefinition s candidate id _ indent)
    · exact traces_pure ()
  · next hcandidate =>
    simp only [FunctionComponent.events, hcandidate]
    exact traces_pure ()

theorem traces_takeMember (s : Session) (className : String) (owner : Identity) (indent : Nat)
    (references : List Identity) (member : Node) :
    Traces (ClassComponent.takeMember s className owner indent references member)
      ((ClassComponent.memberEvents s className owner member).map fun (own, events) =>
        (own.getD references, events)) := by
  unfold ClassComponent.takeMember
  split
  · next body hpart =>
    simp only [ClassComponent.memberEvents, hpart]
    have hms := traces_findJsx s body indent
    cases hms' : mentions s body with
    | error e => rwa [hms'] at hms
    | ok ms => rwa [hms'] at hms
  · next name root hpart =>
    simp only [ClassComponent.memberEvents, hpart, ClassComponent.recordHelper]
    split
    · have hms := traces_findJsx s root indent
      cases hms' : mentions s root with
      | error e =>
        rw [hms'] at hms
        exact hms.error_bind.error_bind
      | ok ms =>
        rw [hms'] at hms
        exact (hms.bind_ok (traces_recordDefinition s _ _ _ indent)).bind_quiet (traces_pure _)
    · exact (traces_pure ()).quiet_bind (traces_pure _)
  · next hpart =>
    simp only [ClassComponent.memberEvents, hpart]
    exact traces_pure _

theorem traces_takeMembers (s : Session) (className : String) (owner : Identity) (indent : Nat)
    (references : List Identity) (members : List Node) :
    Traces (members.foldlM (ClassComponent.takeMember s className owner indent) references)
      (ClassComponent.membersEvents s className owner references members) := by
  induction members generalizing references with
  | nil => exact traces_pure references
  | cons member rest ih =>
    rw [List.foldlM_cons, ClassComponent.membersEvents]
    have hfirst := traces_takeMember s className owner indent references member
    cases hmember : ClassComponent.memberEvents s className owner member with
    | error e =>
      rw [hmember] at hfirst
      exact hfirst.error_bind
    | ok first =>
      obtain ⟨own, first⟩ := first
      rw [hmember] at hfirst
      have hothers := ih (own.getD references)
      cases hrest : ClassComponent.membersEvents s className owner (own.getD references) rest with
      | error e =>
        rw [hrest] at hothers
        simp only [bind, Except.bind, hrest]
        change Traces _ (Trace.after first (.error e))
        exact hfirst.ok_bind hothers
      | ok others =>
        rw [hrest] at hothers
        simp only [bind, Except.bind, hrest]
        exact hfirst.bind_ok hothers

theorem traces_recordClass (s : Session) (v : Visit) (name : String) (indent : Nat) :
    Traces (ClassComponent.recordClass s v name indent)
      ((ClassComponent.classEvents s v name).map fun events => ((), events)) := by
  unfold ClassComponent.recordClass ClassComponent.classEvents
  have hid := traces_identify s v.node
  cases hid' : s.identify v.node with
  | error e =>
    rw [hid'] at hid
    exact hid.error_bind
  | ok id =>
    rw [hid'] at hid
    refine hid.quiet_bind ?_
    have hmembers := traces_takeMembers s name id indent [] v.node.classMembers
    cases hmembers' : ClassComponent.membersEvents s name id [] v.node.classMembers with
    | error e =>
      rw [hmembers'] at hmembers
      simp only [bind, Except.bind, hmembers']
      exact hmembers.error_bind
    | ok members =>
      rw [hmembers'] at hmembers
      simp only [bind, Except.bind, hmembers']
      exact hmembers.bind_ok (traces_recordDefinition s _ id _ indent)

theorem traces_classComponent (config : Config) (s : Session) (v : Visit) (indent : Nat) :
    Traces (ClassComponent.visit config s v indent)
      ((ClassComponent.events config s v).map fun events => ((), events)) := by
  unfold ClassComponent.visit
  split
  · next name base hkind hname hbase =>
    simp only [ClassComponent.events, hkind, hname, hbase]
    split
    · exact traces_recordClass s v name indent
    · exact traces_log _ _
  · simp only [ClassComponent.events, *]
    exact traces_pure ()

end Scan

/-! ## Deferred components -/

/-- The events of a deferred component at a node. -/
def LazyComponent.events (config : Config) (s : Session) (v : Visit) :
    Except ScanError (List Event) :=
  match v.node.kind with
  | .importExpression =>
    match (aboveWrapper? ⟨config.lazyLoadCallees⟩ s v.ancestors).bind
        (·.find? (·.kind.isVariableDeclarator)) with
    | some declarator =>
      (s.identify declarator).map fun id =>
        [.reference id ⟨variableName s declarator, importedModule v.node⟩]
    | none => .ok []
  | _ => .ok []

/-! ## Export aliases -/

namespace ExportAlias

/-- The event of a local name that is exported under a name. -/
def aliasEvent? (s : Session) (name : Node) (exported : String) : Option Event :=
  match name.kind, s.symbolAt? name with
  | .identifierReference _, some symbol => some (.alias (s.identityOf symbol) exported)
  | _, _ => none

/-- The events of an export statement. -/
def events (s : Session) (n : Node) : List Event :=
  (exportedNames n).flatMap fun (name, exported) => (aliasEvent? s name exported).toList

end ExportAlias

/-! ## Annotations -/

namespace AnnotationTags

/-- The identity of what comments are attached to. -/
def targetIdentity? (s : Session) (v : Visit) : Target → Except ScanError (Option Identity)
  | .declaration n => (s.identify n).map some
  | .member name =>
    match classOwner? v.ancestors.reverse with
    | some owner =>
      (s.identify owner).map fun id => some (ClassComponent.memberIdentity id name)
    | none => .ok none

/-- The annotation that a tag makes. -/
def annotation? (config : Config) (s : Session) (doc : DocComment) (parent : Identity)
    (tag : DocTag) : Option Annotation :=
  if config.isCrossReferenceTag tag.name then
    if doc.description.isEmpty then none
    else some {
      sourceLocation := s.location ⟨tag.span.start, doc.span.stop⟩
      text := doc.description
      parentIdentity := parent
      sequenceKey := none
      crossReference := some {
        text := doc.description
        sourceLocation := s.location tag.span
        parentIdentity := parent
        permalink := parsePermalink tag.text } }
  else if config.isPendingWorkTag tag.name then
    some {
      sourceLocation := s.location tag.span
      text := if tag.text.isEmpty then doc.description else tag.text
      parentIdentity := parent
      sequenceKey := none
      crossReference := none }
  else none

/-- The events of some comments on a declaration. -/
def docEvents (config : Config) (s : Session) (docs : List DocComment) (parent : Identity) :
    List Event :=
  docs.flatMap fun doc => doc.tags.flatMap fun tag =>
    (annotation? config s doc parent tag).toList.map .annotate

/-- The events of the comments at a node, if some offsets are taken. -/
def events (config : Config) (s : Session) (claimed : List Nat) (v : Visit) :
    Except ScanError (List Event) :=
  let anchor := v.node.start
  if (s.docsAt anchor).isEmpty || claimed.contains anchor then .ok []
  else
    match targetOf? v.node with
    | some target =>
      (targetIdentity? s v target).map fun parent =>
        .claim anchor :: parent.toList.flatMap (docEvents config s (s.docsAt anchor))
    | none => .ok []

end AnnotationTags

namespace Scan

theorem traces_lazyComponent (config : Config) (s : Session) (v : Visit) (indent : Nat) :
    Traces (LazyComponent.visit config s v indent)
      ((LazyComponent.events config s v).map fun events => ((), events)) := by
  unfold LazyComponent.visit
  split
  · next hkind =>
    simp only [LazyComponent.events, hkind]
    cases LazyComponent.aboveWrapper? ⟨config.lazyLoadCallees⟩ s v.ancestors with
    | none => exact traces_log _ _
    | some above =>
      simp only [Option.bind_some]
      cases above.find? (·.kind.isVariableDeclarator) with
      | none => exact traces_log _ _
      | some declarator =>
        simp only [LazyComponent.recordLazy]
        have hid := traces_identify s declarator
        cases hid' : s.identify declarator with
        | error e =>
          rw [hid'] at hid
          exact hid.error_bind
        | ok id =>
          rw [hid'] at hid
          refine hid.quiet_bind (traces_reference (t := .ok ((), [])) fun stored => ?_)
          cases stored with
          | false => exact traces_pure ()
          | true => exact traces_log _ _
  · simp only [LazyComponent.events, *]
    exact traces_pure ()

theorem traces_noteAlias (s : Session) (name : Node) (exported : String) :
    Traces (ExportAlias.noteAlias s name exported)
      (.ok ((), (ExportAlias.aliasEvent? s name exported).toList)) := by
  unfold ExportAlias.noteAlias
  split
  · next symbol hkind hsymbol =>
    simp only [ExportAlias.aliasEvent?, hkind, hsymbol]
    have hid := traces_identify s name
    rw [Session.identify_of_symbolAt? hsymbol] at hid
    exact hid.quiet_bind fun st => ⟨st.log, fun _ => rfl⟩
  · simp only [ExportAlias.aliasEvent?, *]
    exact traces_pure ()

theorem traces_exportAlias (s : Session) (v : Visit) :
    Traces (ExportAlias.visit s v) (.ok ((), ExportAlias.events s v.node)) :=
  traces_forM fun (name, exported) _ => traces_noteAlias s name exported

theorem traces_annotate (a : Annotation) :
    Traces (AnnotationTags.annotate a) (.ok ((), [.annotate a])) :=
  fun st => ⟨st.log, fun _ => by rw [ScanState.takeAll_cons, ScanState.take_annotate]; rfl⟩

theorem traces_takeTag (config : Config) (s : Session) (doc : DocComment) (parent : Identity)
    (indent : Nat) (tag : DocTag) :
    Traces (AnnotationTags.takeTag config s doc parent indent tag)
      (.ok ((), (AnnotationTags.annotation? config s doc parent tag).toList.map .annotate)) := by
  unfold AnnotationTags.takeTag AnnotationTags.annotation?
  split
  · unfold AnnotationTags.takeCrossReference
    split
    · exact traces_log _ _
    · exact (traces_annotate _).bind_quiet (traces_log _ _)
  · split
    · exact (traces_annotate _).bind_quiet (traces_log _ _)
    · exact traces_pure ()

theorem traces_targetIdentity? (s : Session) (v : Visit) (target : AnnotationTags.Target)
    (indent : Nat) :
    Traces (AnnotationTags.parentIdentity? s v target indent)
      ((AnnotationTags.targetIdentity? s v target).map fun parent => (parent, [])) := by
  unfold AnnotationTags.parentIdentity? AnnotationTags.targetIdentity?
  cases target with
  | declaration n =>
    dsimp only
    have hid := traces_identify s n
    cases hid' : s.identify n with
    | error e =>
      rw [hid'] at hid
      rw [← bind_pure_comp]
      exact hid.error_bind
    | ok id =>
      rw [hid'] at hid
      exact hid.map
  | member name =>
    cases AnnotationTags.classOwner? v.ancestors.reverse with
    | none => exact (traces_log _ _).quiet_bind (traces_pure _)
    | some owner =>
      dsimp only
      have hid := traces_identify s owner
      cases hid' : s.identify owner with
      | error e =>
        rw [hid'] at hid
        exact hid.error_bind
      | ok id =>
        rw [hid'] at hid
        exact hid.quiet_bind (traces_pure _)

theorem emits_annotationTags (config : Config) (s : Session) (v : Visit) (indent : Nat)
    (st : ScanState) :
    Emits st (AnnotationTags.visit config s v indent)
      ((AnnotationTags.events config s st.claimed v).map fun events => ((), events)) := by
  unfold AnnotationTags.visit AnnotationTags.events
  refine Emits.get_bind (fun _ => rfl) ?_
  by_cases htaken : ((s.docsAt v.node.start).isEmpty || st.claimed.contains v.node.start) = true
  · simp only [htaken, if_true]
    exact traces_pure ()
  simp only [htaken, if_false, Bool.false_eq_true]
  cases AnnotationTags.targetOf? v.node with
  | none => exact traces_pure ()
  | some target =>
    have hclaim : Traces (modify fun st => { st with claimed := v.node.start :: st.claimed })
        (.ok ((), [.claim v.node.start])) :=
      fun st => ⟨st.log, fun _ => by rw [ScanState.takeAll_cons, ScanState.take_claim]; rfl⟩
    have hparent := traces_targetIdentity? s v target indent
    cases hparent' : AnnotationTags.targetIdentity? s v target with
    | error e =>
      rw [hparent'] at hparent
      simp only [hparent']
      change Traces _ (Trace.after [.claim v.node.start] (.error e))
      refine hclaim.ok_bind ?_
      exact hparent.error_bind
    | ok parent =>
      rw [hparent'] at hparent
      simp only [hparent']
      refine hclaim.bind_ok (hparent.quiet_bind ?_)
      cases parent with
      | none => exact traces_pure ()
      | some parent =>
        change Traces _ (.ok ((), AnnotationTags.docEvents config s (s.docsAt v.node.start) parent ++ []))
        rw [List.append_nil]
        exact traces_forM fun doc _ => traces_forM fun tag _ =>
          traces_takeTag config s doc parent indent tag

end Scan

/-! ## The walk over a file -/

/-- The events of some steps one after the other. -/
def concatEvents : List (Except ScanError (List Event)) → Except ScanError (List Event)
  | [] => .ok []
  | x :: rest => do
    let first ← x
    let others ← concatEvents rest
    return first ++ others

/-- The events of all detectors at a node, if some offsets are taken. -/
def visitEvents (config : Config) (s : Session) (claimed : List Nat) (v : Visit) :
    Except ScanError (List Event) :=
  concatEvents [FunctionComponent.events s v, ClassComponent.events config s v,
    LazyComponent.events config s v, .ok (ExportAlias.events s v.node),
    AnnotationTags.events config s claimed v]

/-- The events of all detectors at some nodes, in order. -/
def walkEvents (config : Config) (s : Session) (claimed : List Nat) :
    List Visit → Except ScanError (List Event)
  | [] => .ok []
  | v :: rest => do
    let first ← visitEvents config s claimed v
    let taken := (first.filterMap Event.claimed?).reverse
    let others ← walkEvents config s (taken ++ claimed) rest
    return first ++ others

/-- The events of a scan. -/
def Session.events (config : Config) (s : Session) : Except ScanError (List Event) :=
  walkEvents config s [] (visits s.root)

/-! ## What the events of a detector are -/

namespace Template

theorem exists_eq_mention_of_tagMention? {s : Session} {name : Node} {m : Mention}
    (h : tagMention? s name = .ok (some m)) : ∃ ident text suffix, m = mention s ident text suffix := by
  unfold tagMention? at h
  split at h
  · next text _ =>
    split at h
    · cases h
      exact ⟨_, _, _, rfl⟩
    · cases h
  · next text _ =>
    split at h
    · cases h
      exact ⟨_, _, _, rfl⟩
    · cases h
  · dsimp only at h
    split at h
    · split at h
      · cases h
        exact ⟨_, _, _, rfl⟩
      · cases h
        exact ⟨_, _, _, rfl⟩
    · cases h
  · dsimp only at h
    split at h <;> cases h
  · cases h

theorem exists_eq_mention_of_nodeMentions {s : Session} {n : Node} {ms : List Mention}
    (h : nodeMentions s n = .ok ms) {m : Mention} (hm : m ∈ ms) :
    ∃ ident text suffix, m = mention s ident text suffix := by
  have hattributes : m ∈ attributeMentions s n → ∃ ident text suffix,
      m = mention s ident text suffix := fun hm => by
    obtain ⟨value, -, rfl⟩ := List.mem_map.1 hm
    exact ⟨_, _, _, rfl⟩
  unfold nodeMentions at h
  split at h
  · split at h
    · obtain ⟨tag, htag, rfl⟩ := ok_map_iff.1 h
      rcases List.mem_append.1 hm with hm | hm
      · exact exists_eq_mention_of_tagMention? (Option.mem_toList.1 hm ▸ htag)
      · exact hattributes hm
    · cases h
      exact hattributes hm
  · cases h
    cases hm

theorem exists_eq_mention {s : Session} {root : Node} {ms : List Mention}
    (h : mentions s root = .ok ms) {m : Mention} (hm : m ∈ ms) :
    ∃ ident text suffix, m = mention s ident text suffix := by
  unfold mentions at h
  generalize descendants root = nodes at h
  induction nodes generalizing ms with
  | nil =>
    cases h
    cases hm
  | cons n rest ih =>
    simp only [allMentions, ok_bind_iff, ok_pure_iff] at h
    obtain ⟨first, hfirst, others, hothers, rfl⟩ := h
    rcases List.mem_append.1 hm with hm | hm
    · exact exists_eq_mention_of_nodeMentions hfirst hm
    · exact ih hm hothers

end Template

/-- What the events of the detectors of components at a node are: a definition is of the node or of
one below it, and what a dynamic import defers is in the module that it imports. -/
inductive Event.IsRecordOf (s : Session) (n : Node) : Event → Prop
  | mention (ident : Option Node) (name suffix : String) :
    IsRecordOf s n (Template.mention s ident name suffix).event
  | deferred {declarator : Node} {id : Identity} (name : String)
    (h : s.identify declarator = .ok id) (hkind : n.kind = .importExpression) :
    IsRecordOf s n (.reference id ⟨name, LazyComponent.importedModule n⟩)
  | define (candidate : Candidate) (id : Identity) (references : List Identity)
    (h : candidate.declaration ∈ n.nodes) :
    IsRecordOf s n (.define id (candidate.component s references))

section

variable {config : Config} {s : Session} {n : Node} {v : Visit} {events : List Event}

theorem Event.isRecordOf_of_mentions {root : Node} {ms : List Mention}
    (h : mentions s root = .ok ms) : ∀ e ∈ ms.map Mention.event, e.IsRecordOf s n := by
  intro e he
  obtain ⟨m, hm, rfl⟩ := List.mem_map.1 he
  obtain ⟨ident, name, suffix, rfl⟩ := exists_eq_mention h hm
  exact .mention ident name suffix

/-- The events of references and a definition with them. -/
theorem Event.isRecordOf_append (h : ∀ e ∈ events, e.IsRecordOf s n) {candidate : Candidate}
    (hdeclaration : candidate.declaration ∈ n.nodes) (id : Identity) (references : List Identity) :
    ∀ e ∈ events ++ [.define id (candidate.component s references)], e.IsRecordOf s n := by
  intro e he
  rcases List.mem_append.1 he with he | he
  · exact h e he
  · cases List.mem_singleton.1 he
    exact .define candidate id references hdeclaration

namespace FunctionComponent

theorem declaration_of_candidate? {candidate : Candidate} {body : Node}
    (h : candidate? v = some (candidate, body)) : candidate.declaration = v.node := by
  unfold candidate? at h
  split at h
  · obtain ⟨_, -, _, -, h⟩ := by simpa only [ofFunction?, Option.bind_eq_bind,
      Option.bind_eq_some_iff] using h
    cases h
    rfl
  · obtain ⟨_, -, _, -, _, -, h⟩ := by simpa only [ofVariable?, Option.bind_eq_bind,
      Option.bind_eq_some_iff] using h
    cases h
    rfl
  · cases h

theorem isRecordOf_events (h : FunctionComponent.events s v = .ok events) :
    ∀ e ∈ events, e.IsRecordOf s v.node := by
  unfold FunctionComponent.events at h
  split at h
  · next candidate body hcandidate =>
    split at h
    · simp only [ok_bind_iff, ok_pure_iff] at h
      obtain ⟨id, -, ms, hms, rfl⟩ := h
      exact Event.isRecordOf_append (Event.isRecordOf_of_mentions hms)
        (declaration_of_candidate? hcandidate ▸ v.node.self_mem_nodes) id _
    · cases h
      nofun
  · cases h
    nofun

end FunctionComponent

namespace ClassComponent

theorem isRecordOf_memberEvents {className : String} {owner : Identity} {member : Node}
    {own : Option (List Identity)} (hmember : member ∈ n.nodes)
    (h : memberEvents s className owner member = .ok (own, events)) :
    ∀ e ∈ events, e.IsRecordOf s n := by
  unfold memberEvents at h
  split at h
  · obtain ⟨ms, hms, heq⟩ := ok_map_iff.1 h
    cases heq
    exact Event.isRecordOf_of_mentions hms
  · split at h
    · obtain ⟨ms, hms, heq⟩ := ok_map_iff.1 h
      cases heq
      exact Event.isRecordOf_append (Event.isRecordOf_of_mentions hms) hmember _ _
    · cases h
      nofun
  · cases h
    nofun

theorem isRecordOf_membersEvents {className : String} {owner : Identity}
    {references references' : List Identity} {members : List Node}
    (hmembers : ∀ member ∈ members, member ∈ n.nodes)
    (h : membersEvents s className owner references members = .ok (references', events)) :
    ∀ e ∈ events, e.IsRecordOf s n := by
  induction members generalizing references events with
  | nil =>
    cases h
    nofun
  | cons member rest ih =>
    obtain ⟨hmember, hrest⟩ := List.forall_mem_cons.1 hmembers
    simp only [membersEvents, ok_bind_iff, ok_pure_iff] at h
    obtain ⟨⟨own, first⟩, hfirst, ⟨_, others⟩, hothers, heq⟩ := h
    cases heq
    intro e he
    rcases List.mem_append.1 he with he | he
    · exact isRecordOf_memberEvents hmember hfirst e he
    · exact ih hrest hothers e he

theorem isRecordOf_events (h : ClassComponent.events config s v = .ok events) :
    ∀ e ∈ events, e.IsRecordOf s v.node := by
  have hself := v.node.self_mem_nodes
  unfold ClassComponent.events at h
  split at h
  · dsimp only at h
    split at h
    · simp only [classEvents, ok_bind_iff, ok_pure_iff] at h
      obtain ⟨id, -, ⟨references, members⟩, hmembers, rfl⟩ := h
      exact Event.isRecordOf_append (isRecordOf_membersEvents
        (fun _ => Node.mem_nodes_of_classMember hself) hmembers) hself id references
    · cases h
      nofun
  · cases h
    nofun

end ClassComponent

theorem LazyComponent.isRecordOf_events (h : LazyComponent.events config s v = .ok events) :
    ∀ e ∈ events, e.IsRecordOf s v.node := by
  unfold LazyComponent.events at h
  split at h
  · next hkind =>
    split at h
    · obtain ⟨id, hid, rfl⟩ := ok_map_iff.1 h
      intro e he
      cases List.mem_singleton.1 he
      exact .deferred _ hid hkind
    · cases h
      nofun
  · cases h
    nofun

end

theorem visitEvents_eq_ok {config : Config} {s : Session} {claimed : List Nat} {v : Visit}
    {events : List Event} (h : visitEvents config s claimed v = .ok events) :
    ∃ functions classes deferred annotations, FunctionComponent.events s v = .ok functions ∧
      ClassComponent.events config s v = .ok classes ∧
      LazyComponent.events config s v = .ok deferred ∧
      AnnotationTags.events config s claimed v = .ok annotations ∧
      events = functions ++ (classes ++ (deferred ++ (ExportAlias.events s v.node ++
        annotations))) := by
  simp only [visitEvents, concatEvents, ok_bind_iff, ok_pure_iff] at h
  obtain ⟨functions, hfunctions, _, ⟨classes, hclasses, _, ⟨deferred, hdeferred, _,
    ⟨aliases, haliases, _, ⟨annotations, hannotations, _, hnil, rfl⟩, rfl⟩, rfl⟩, rfl⟩, rfl⟩ := h
  cases haliases
  cases hnil
  rw [List.append_nil]
  exact ⟨functions, classes, deferred, annotations, hfunctions, hclasses, hdeferred, hannotations,
    rfl⟩

theorem walkEvents_cons_eq_ok_iff {config : Config} {s : Session} {claimed : List Nat} {v : Visit}
    {vs : List Visit} {events : List Event} :
    walkEvents config s claimed (v :: vs) = .ok events ↔
      ∃ first, visitEvents config s claimed v = .ok first ∧ ∃ others,
        walkEvents config s ((first.filterMap Event.claimed?).reverse ++ claimed) vs = .ok others ∧
          first ++ others = events := by
  simp only [walkEvents, ok_bind_iff, ok_pure_iff]

theorem Event.IsRecordOf.claimed? {s : Session} {n : Node} {e : Event} (h : e.IsRecordOf s n) :
    e.claimed? = none := by
  cases h <;> rfl

theorem ExportAlias.exists_of_mem_events {s : Session} {n : Node} {e : Event}
    (h : e ∈ ExportAlias.events s n) : ∃ id exported, e = .alias id exported := by
  simp only [events, List.mem_flatMap, Option.mem_toList, aliasEvent?] at h
  obtain ⟨⟨name, exported⟩, -, h⟩ := h
  dsimp only at h
  split at h
  · cases h
    exact ⟨_, _, rfl⟩
  · cases h

/-- What the events of the comments at a node are: an annotation is one of a tag of theirs. -/
theorem AnnotationTags.exists_tag_of_mem_events {config : Config} {s : Session}
    {claimed : List Nat} {v : Visit} {events : List Event} {e : Event}
    (h : AnnotationTags.events config s claimed v = .ok events) (he : e ∈ events) :
    (∃ offset, e = .claim offset) ∨ ∃ a, e = .annotate a ∧
      ∃ doc ∈ s.docsAt v.node.start, ∃ parent, ∃ tag ∈ doc.tags,
        annotation? config s doc parent tag = some a := by
  unfold AnnotationTags.events at h
  dsimp only at h
  split at h
  · cases h
    cases he
  split at h
  · obtain ⟨parent, -, rfl⟩ := ok_map_iff.1 h
    rcases List.mem_cons.1 he with rfl | he
    · exact .inl ⟨_, rfl⟩
    · simp only [docEvents, List.mem_flatMap, List.mem_map, Option.mem_toList] at he
      obtain ⟨parent, -, doc, hdoc, tag, htag, a, ha, rfl⟩ := he
      exact .inr ⟨a, rfl, doc, hdoc, parent, tag, htag, ha⟩
  · cases h
    cases he

theorem ExportAlias.claimed?_events {s : Session} {n : Node} {e : Event}
    (h : e ∈ ExportAlias.events s n) : e.claimed? = none := by
  obtain ⟨id, exported, rfl⟩ := exists_of_mem_events h
  rfl

namespace Scan

theorem emits_visit (config : Config) (s : Session) (v : Visit) (indent : Nat) (st : ScanState) :
    Emits st (detectors.forM fun d => d.visit config s v indent)
      ((visitEvents config s st.claimed v).map fun events => ((), events)) := by
  have hclaimed {st : ScanState} {events : List Event} (log : List String)
      (h : ∀ e ∈ events, e.claimed? = none) :
      { st.takeAll events with log }.claimed = st.claimed := by
    rw [ScanState.claimed_takeAll, List.filterMap_eq_nil_iff.2 h]
    rfl
  have hrecord {st : ScanState} {events : List Event} (log : List String)
      (h : ∀ e ∈ events, e.IsRecordOf s v.node) :
      { st.takeAll events with log }.claimed = st.claimed :=
    hclaimed log fun e he => (h e he).claimed?
  refine (traces_functionComponent s v indent st).andThen fun functions log hfunctions => ?_
  rw [← hrecord log (FunctionComponent.isRecordOf_events hfunctions)]
  generalize { st.takeAll functions with log } = st₁
  refine (traces_classComponent config s v indent st₁).andThen fun classes log hclasses => ?_
  rw [← hrecord log (ClassComponent.isRecordOf_events hclasses)]
  generalize { st₁.takeAll classes with log } = st₂
  refine (traces_lazyComponent config s v indent st₂).andThen fun deferred log hdeferred => ?_
  rw [← hrecord log (LazyComponent.isRecordOf_events hdeferred)]
  generalize { st₂.takeAll deferred with log } = st₃
  refine Emits.andThen (traces_exportAlias s v st₃) fun aliases log haliases => ?_
  cases haliases
  rw [← hclaimed log fun _ => ExportAlias.claimed?_events]
  generalize { st₃.takeAll (ExportAlias.events s v.node) with log } = st₄
  exact (emits_annotationTags config s v indent st₄).andThen fun _ _ _ => traces_pure () _

theorem emits_visits (config : Config) (s : Session) (indent : Nat) (vs : List Visit)
    (st : ScanState) :
    Emits st (forVisits indent (fun v indent => detectors.forM fun d => d.visit config s v indent) vs)
      ((walkEvents config s st.claimed vs).map fun events => ((), events)) := by
  induction vs generalizing st with
  | nil => exact traces_pure () st
  | cons v vs ih =>
    rw [forVisits_cons]
    refine (emits_visit config s v _ st).andThen fun events log _ => ?_
    rw [← ScanState.claimed_takeAll]
    exact ih _

/-- Steps that do not look at the state leave their events one after the other. -/
theorem traces_forVisits {step : Visit → Nat → Scan Unit}
    {f : Visit → Except ScanError (List Event)}
    (h : ∀ v indent, Traces (step v indent) ((f v).map fun events => ((), events))) (indent : Nat)
    (vs : List Visit) :
    Traces (forVisits indent step vs)
      ((concatEvents (vs.map f)).map fun events => ((), events)) := by
  induction vs with
  | nil => exact traces_pure ()
  | cons v vs ih =>
    rw [forVisits_cons]
    exact fun st => (h v _ st).andThen fun _ _ _ => ih _

/-- A walk yields nothing at its end. -/
theorem Emits.thenNone {m : Scan Unit} {st : ScanState} {x : Except ScanError (List Event)}
    (h : Emits st m (x.map fun events => ((), events))) :
    Emits st (m >>= fun _ => return (none : Option Unit)) (x.map fun events => (none, events)) := by
  cases x with
  | error e => exact h.error_bind
  | ok events =>
    have hpure : Traces (pure none : Scan (Option Unit)) (.ok (none, [])) := traces_pure none
    have hrest := h.ok_bind (f := fun _ => pure none) fun _ => hpure _
    rwa [Trace.after_ok, List.append_nil] at hrest

/-- The walk of a scan with all detectors. -/
theorem emits_walk (config : Config) (s : Session) (st : ScanState) (hclaimed : st.claimed = []) :
    Emits st (walk s.root 0 (runDetectors config s detectors))
      ((s.events config).map fun events => (none, events)) := by
  have hcallback : runDetectors config s detectors =
      .ofStep fun v indent => detectors.forM fun d => d.visit config s v indent := rfl
  have hvisits := emits_visits config s 0 (visits s.root) st
  rw [hclaimed] at hvisits
  rw [hcallback, walk_ofStep]
  exact hvisits.thenNone

end Scan

/-! ## Export aliases of a report -/

namespace ScanReport

/-- Gives a component another name under which it is exported, if it has none. -/
def applyAlias (r : ScanReport) (a : Identity × String) : ScanReport :=
  if (r.defined? a.1).isSome then
    (r.updateDefined a.1 (ExportAlias.rename a.2)).markExported a.1
  else r

theorem updateDefined_withRepo (r : ScanReport) (repo : RepoMetadata) (id : Identity)
    (f : DefinedComponent → DefinedComponent) :
    (r.withRepo repo).updateDefined id f = (r.updateDefined id f).withRepo repo := by
  have hdefined : (r.withRepo repo).defined? id = r.defined? id := rfl
  unfold updateDefined
  rw [hdefined]
  split <;> rfl

theorem applyAlias_withRepo (r : ScanReport) (repo : RepoMetadata) (a : Identity × String) :
    (r.withRepo repo).applyAlias a = (r.applyAlias a).withRepo repo := by
  have hdefined : (r.withRepo repo).defined? a.1 = r.defined? a.1 := rfl
  unfold applyAlias
  rw [hdefined, updateDefined_withRepo, markExported_withRepo]
  split <;> rfl

theorem applyAliases_withRepo (r : ScanReport) (repo : RepoMetadata)
    (aliases : List (Identity × String)) :
    aliases.foldl applyAlias (r.withRepo repo) = (aliases.foldl applyAlias r).withRepo repo := by
  induction aliases generalizing r with
  | nil => rfl
  | cons a aliases ih => rw [List.foldl_cons, List.foldl_cons, applyAlias_withRepo, ih]

end ScanReport

namespace ExportAlias

open Scan

theorem run_applyAlias (id : Identity) (exported : String) (st : ScanState) :
    ∃ log, ∀ repo, (applyAlias id exported).run (st.withRepo repo) =
      (.ok (), { st with report := st.report.applyAlias (id, exported), log }.withRepo repo) := by
  have hget (st : ScanState) : (get : Scan ScanState).run st = (.ok st, st) := rfl
  have hdefined (repo : RepoMetadata) :
      (st.withRepo repo).report.defined? id = st.report.defined? id := rfl
  have hupdate (repo : RepoMetadata) :
      (update fun report => ((), (report.updateDefined id (rename exported)).markExported id)).run
          (st.withRepo repo) =
        (.ok (), { st with
          report := (st.report.updateDefined id (rename exported)).markExported id }.withRepo repo) := by
    change (Except.ok (), { st with
      report := ((st.report.withRepo repo).updateDefined id (rename exported)).markExported id }) = _
    rw [ScanReport.updateDefined_withRepo, ScanReport.markExported_withRepo]
    rfl
  unfold applyAlias ScanReport.applyAlias
  simp only [run_bind, hget, hdefined]
  cases (st.report.defined? id).isSome with
  | true =>
    refine ⟨st.log ++ [logLine 0 s!"export alias {id} -> {exported}"], fun repo => ?_⟩
    simp only [if_true, run_bind, hupdate]
    rfl
  | false =>
    exact ⟨st.log ++ [logLine 0 s!"export alias {id} -> {exported}: not a component"],
      fun repo => rfl⟩

theorem run_forM_applyAlias (aliases : List (Identity × String)) (st : ScanState) :
    ∃ log, ∀ repo,
      (aliases.forM fun (id, exported) => applyAlias id exported).run (st.withRepo repo) =
        (.ok (), { st with
          report := aliases.foldl ScanReport.applyAlias st.report, log }.withRepo repo) := by
  induction aliases generalizing st with
  | nil => exact ⟨st.log, fun _ => rfl⟩
  | cons a aliases ih =>
    obtain ⟨log, hfirst⟩ := run_applyAlias a.1 a.2 st
    obtain ⟨log', hothers⟩ := ih { st with report := st.report.applyAlias a, log }
    refine ⟨log', fun repo => ?_⟩
    change (_ >>= fun _ => aliases.forM _ : Scan Unit).run _ = _
    rw [run_bind, hfirst]
    exact hothers repo

end ExportAlias

/-- The report that events make. -/
def reportOf (path : String) (repo : RepoMetadata) (events : List Event) : ScanReport :=
  let r := (events.filterMap Event.alias?).foldl ScanReport.applyAlias
    ((ScanReport.fresh path repo).takeAll events)
  { r with annotations := assignSequenceKeys r.annotations }

section

variable {config : Config} {s : Session}

open Scan

theorem detect_of_events_error {e : ScanError} (h : s.events config = .error e)
    (repo : RepoMetadata) : (detect config s repo detectors true).1 = some e := by
  have hwalk := emits_walk config s { report := .fresh s.path repo } rfl
  rw [h] at hwalk
  obtain ⟨st, hwalk⟩ := hwalk repo
  replace hwalk : (walk s.root 0 (runDetectors config s detectors)).run
      { report := .fresh s.path repo } = (.error e, st) := hwalk
  rw [detect, runScan, run_bind, hwalk]

/-- A walk without error leaves its events in the report, and the aliases among them if they are
applied. -/
theorem detect_of_emits {chosen : List Detector} {events : List Event}
    (h : Emits { report := .fresh s.path .placeholder } (walk s.root 0 (runDetectors config s chosen))
      (.ok (none, events))) (finish : Bool) :
    ∃ log, ∀ repo, detect config s repo chosen finish =
      (none, { (if finish then events.filterMap Event.alias? else []).foldl ScanReport.applyAlias
        ((ScanReport.fresh s.path repo).takeAll events) with debugLog := log }) := by
  let start : ScanState := { report := .fresh s.path .placeholder }
  obtain ⟨log, hwalk⟩ := h
  have hstart (repo : RepoMetadata) : start.withRepo repo = { report := .fresh s.path repo } := rfl
  have hfresh (repo : RepoMetadata) :
      (ScanReport.fresh s.path .placeholder).withRepo repo = .fresh s.path repo := rfl
  cases finish with
  | false =>
    refine ⟨log, fun repo => ?_⟩
    have hrun : (runScan config s chosen false).run (start.withRepo repo) =
        (.ok (), { start.takeAll events with log }.withRepo repo) := by
      rw [runScan, run_bind, hwalk]
      rfl
    rw [detect, ← hstart, hrun, ← hfresh, ScanReport.takeAll_withRepo]
    dsimp only [ScanState.withRepo]
    rw [ScanState.report_takeAll]
    rfl
  | true =>
    have hget (st : ScanState) : (get : Scan ScanState).run st = (.ok st, st) := rfl
    obtain ⟨log', haliases⟩ := ExportAlias.run_forM_applyAlias (events.filterMap Event.alias?)
      { start.takeAll events with log }
    refine ⟨log', fun repo => ?_⟩
    have hrun : (runScan config s chosen true).run (start.withRepo repo) =
        ((events.filterMap Event.alias?).forM fun (id, exported) =>
          ExportAlias.applyAlias id exported).run
            ({ start.takeAll events with log }.withRepo repo) := by
      rw [runScan, run_bind, hwalk]
      dsimp only
      rw [if_pos rfl, ExportAlias.applyAliases, run_bind, hget]
      dsimp only
      have haliases : ({ start.takeAll events with log }.withRepo repo).aliases =
          (start.takeAll events).aliases := rfl
      rw [haliases, ScanState.aliases_takeAll]
      rfl
    rw [detect, ← hstart, hrun, haliases, ← hfresh, ScanReport.takeAll_withRepo, if_pos rfl,
      ScanReport.applyAliases_withRepo, ScanState.report_takeAll]
    rfl

theorem detect_of_events {events : List Event} (h : s.events config = .ok events) (finish : Bool) :
    ∃ log, ∀ repo, detect config s repo detectors finish =
      (none, { (if finish then events.filterMap Event.alias? else []).foldl ScanReport.applyAlias
        ((ScanReport.fresh s.path repo).takeAll events) with debugLog := log }) := by
  have hwalk := emits_walk config s { report := .fresh s.path .placeholder } rfl
  rw [h] at hwalk
  exact detect_of_emits hwalk finish

/-- The report on a session, or the error that ends its scan. -/
def Session.scan (config : Config) (s : Session) (repo : RepoMetadata) :
    Except ScanError ScanReport :=
  match detect config s repo detectors true with
  | (some e, _) => .error e
  | (none, report) => .ok { report with annotations := assignSequenceKeys report.annotations }

theorem scanSource_eq_bind (config : Config) (path source : String) (repo : RepoMetadata) :
    scanSource config path source repo =
      Session.ofSource path source >>= fun s => s.scan config repo := rfl

theorem scanSource_of_ofSource {path source : String} {s : Session}
    (hs : Session.ofSource path source = .ok s) (config : Config) (repo : RepoMetadata) :
    scanSource config path source repo = s.scan config repo := by
  rw [scanSource_eq_bind, hs]
  rfl

/-- The scan of a session records its events. -/
theorem Session.scan_eq (config : Config) (s : Session) :
    ∃ log, ∀ repo, s.scan config repo = s.events config >>= fun events =>
      return { reportOf s.path repo events with debugLog := log } := by
  cases hevents : s.events config with
  | error e =>
    refine ⟨[], fun repo => ?_⟩
    have hdetect := detect_of_events_error hevents repo
    unfold Session.scan
    simp only [bind, Except.bind]
    split
    · next heq =>
      rw [heq] at hdetect
      cases hdetect
      rfl
    · next heq =>
      rw [heq] at hdetect
      cases hdetect
  | ok events =>
    obtain ⟨log, hdetect⟩ := detect_of_events hevents true
    refine ⟨log, fun repo => ?_⟩
    simp only [Session.scan, bind, Except.bind, hdetect]
    rfl

/-- A scan records the events of its file. -/
theorem scanSource_eq (config : Config) (path source : String) :
    ∃ log, ∀ repo, scanSource config path source repo =
      Session.ofSource path source >>= fun s => s.events config >>= fun events =>
        return { reportOf s.path repo events with debugLog := log } := by
  simp only [scanSource_eq_bind]
  cases Session.ofSource path source with
  | error e => exact ⟨[], fun _ => rfl⟩
  | ok s => exact s.scan_eq config

end

end ComponentScan
