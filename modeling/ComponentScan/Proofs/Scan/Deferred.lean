import ComponentScan.Proofs.Scan.Exports
import ComponentScan.Proofs.Session.Parsed

/-!
# Deferred components

A dynamic import in the initialiser of a variable that calls a wrapper records the variable as a
reference to the imported module. References are first-wins, so the record says so unless a
component that is visited before the import has referred to the variable (`deferred_iff`).
-/

namespace ComponentScan

open Syntax Template

/-! ## First references -/

/-- The first reference to an identity among events. -/
def firstReference? (events : List Event) (id : Identity) : Option ReferencedComponent :=
  ((events.filterMap Event.call?).filterMap (·.reference? id)).head?

theorem firstReference?_append (events events' : List Event) (id : Identity) :
    firstReference? (events ++ events') id =
      (firstReference? events id).or (firstReference? events' id) := by
  rw [firstReference?, List.filterMap_append, List.filterMap_append, List.head?_append]
  rfl

theorem firstReference?_eq_none {events : List Event} {id : Identity}
    (h : ∀ c, .reference id c ∉ events) : firstReference? events id = none := by
  rw [firstReference?, List.head?_eq_none_iff, List.filterMap_eq_nil_iff]
  intro call hcall
  obtain ⟨e, he, heq⟩ := List.mem_filterMap.1 hcall
  cases hreference : call.reference? id with
  | none => rfl
  | some c =>
    rw [ReportCall.eq_reference_of_reference? hreference] at heq
    cases e <;> cases heq
    exact absurd he (h c)

/-- An identity that is not defined has the record of the first reference to it. -/
theorem get?_reportOf_of_undefined {path : String} {repo : RepoMetadata} {events : List Event}
    {id : Identity} (h : (reportOf path repo events).defined? id = none) :
    (reportOf path repo events).components.get? id =
      (firstReference? events id).map .referenced := by
  obtain ⟨change, hget⟩ := exists_get?_reportOf path repo events id
  rw [ScanReport.recordOf?, ← firstReference?] at hget
  cases hdefinition : ((events.filterMap Event.call?).filterMap (·.definition? id)).head? with
  | none =>
    rw [hget, hdefinition]
    cases firstReference? events id <;> rfl
  | some c =>
    rw [hdefinition] at hget
    rw [ScanReport.defined?, hget] at h
    cases h

/-! ## Earlier components -/

/-- The events of the defined components at some nodes, their references among them. -/
def componentEvents (config : Config) (s : Session) (vs : List Visit) : List Event :=
  vs.flatMap fun v => (FunctionComponent.events s v).toOption.getD [] ++
    (ClassComponent.events config s v).toOption.getD []

section

variable {config : Config} {s : Session} {claimed : List Nat} {v : Visit} {vs : List Visit}
  {events : List Event} {id : Identity}

/-- The first reference at a node is that of a component or that of an import. -/
theorem firstReference?_visitEvents (h : visitEvents config s claimed v = .ok events)
    {deferred : List Event} (hdeferred : LazyComponent.events config s v = .ok deferred) :
    firstReference? events id =
      (firstReference? (componentEvents config s [v]) id).or (firstReference? deferred id) := by
  obtain ⟨functions, classes, _, annotations, hfunctions, hclasses, hdeferred', hannotations,
    rfl⟩ := visitEvents_eq_ok h
  cases hdeferred.symm.trans hdeferred'
  have haliases (c : ReferencedComponent) : .reference id c ∉ ExportAlias.events s v.node :=
    fun hm => by
      obtain ⟨_, _, hm⟩ := ExportAlias.exists_of_mem_events hm
      cases hm
  have hannotations (c : ReferencedComponent) : .reference id c ∉ annotations := fun hm => by
    rcases AnnotationTags.exists_of_mem_events hannotations hm with ⟨_, hm⟩ | ⟨_, hm⟩ <;> cases hm
  have hcomponents : componentEvents config s [v] = functions ++ classes := by
    simp [componentEvents, hfunctions, hclasses, Except.toOption]
  rw [hcomponents]
  simp only [firstReference?_append, firstReference?_eq_none haliases,
    firstReference?_eq_none hannotations, Option.or_none, Option.or_assoc]

/-- Among nodes at which no import defers an identity, a component refers to it first. -/
theorem firstReference?_walkEvents (h : walkEvents config s claimed vs = .ok events)
    (hnone : ∀ v ∈ vs, ∀ deferred, LazyComponent.events config s v = .ok deferred →
      ∀ c, .reference id c ∉ deferred) :
    firstReference? events id = firstReference? (componentEvents config s vs) id := by
  induction vs generalizing claimed events with
  | nil =>
    cases h
    rfl
  | cons v vs ih =>
    obtain ⟨first, hfirst, others, hothers, rfl⟩ := walkEvents_cons_eq_ok_iff.1 h
    obtain ⟨hown, hrest⟩ := List.forall_mem_cons.1 hnone
    obtain ⟨-, -, deferred, -, -, -, hdeferred, -, -⟩ := visitEvents_eq_ok hfirst
    have hcons : componentEvents config s (v :: vs) =
        componentEvents config s [v] ++ componentEvents config s vs := by
      simp [componentEvents]
    rw [hcons, firstReference?_append, firstReference?_append, ih hothers hrest,
      firstReference?_visitEvents hfirst hdeferred,
      firstReference?_eq_none (hown deferred hdeferred), Option.or_none]

/-! ## Deferring imports -/

namespace LazyComponent

/-- Whether a node is a dynamic import. -/
def isImport (n : Node) : Bool :=
  match n.kind with
  | .importExpression => true
  | _ => false

/-- The module that a dynamic import gives by its name. -/
def moduleName? (n : Node) : Option String :=
  match n.kind, n.children.head?.map Node.kind with
  | .importExpression, some (.stringLiteral spec) => some spec
  | _, _ => none

/-- The name of a variable that is no pattern. -/
def simpleName? (n : Node) : Option String :=
  match n.kind, n.binding?.map Node.kind with
  | .variableDeclarator, some (.bindingIdentifier name) => some name
  | _, _ => none

theorem of_moduleName? {n : Node} {spec : String} (h : moduleName? n = some spec) :
    n.kind = .importExpression ∧ importedModule n = spec := by
  unfold moduleName? at h
  split at h
  · next hkind hmodule =>
    cases h
    refine ⟨hkind, ?_⟩
    unfold importedModule
    rw [hmodule]
  · cases h

theorem of_simpleName? {n : Node} {name : String} (h : simpleName? n = some name) :
    n.kind = .variableDeclarator ∧ n.binding?.map Node.kind = some (.bindingIdentifier name) := by
  unfold simpleName? at h
  split at h
  · next hkind hbinding =>
    cases h
    exact ⟨hkind, hbinding⟩
  · cases h

/-- The variable that an import defers: the nearest one around the innermost wrapper. -/
def deferred? (config : Config) (s : Session) (v : Visit) : Option Node :=
  (aboveWrapper? ⟨config.lazyLoadCallees⟩ s v.ancestors).bind
    (·.find? (·.kind.isVariableDeclarator))

theorem mem_ancestors_of_deferred? {d : Node} (h : deferred? config s v = some d) :
    d ∈ v.ancestors ∧ d.kind = .variableDeclarator := by
  obtain ⟨above, habove, hfind⟩ := Option.bind_eq_some_iff.1 h
  constructor
  · unfold aboveWrapper? at habove
    split at habove
    · next w above' hdrop =>
      cases habove
      have hsuffix := List.dropWhile_suffix (l := v.ancestors.reverse)
        (!isWrapper ⟨config.lazyLoadCallees⟩ s ·)
      rw [hdrop] at hsuffix
      exact List.mem_reverse.1 (hsuffix.subset
        (List.mem_cons_of_mem w (List.mem_of_find?_eq_some hfind)))
    · cases habove
  · have hkind := List.find?_some hfind
    revert hkind
    cases d.kind <;> simp [Kind.isVariableDeclarator]

/-- What refers to an identity at a node is an import that defers a variable with the identity. -/
theorem exists_deferred?_of_reference_mem {deferred : List Event} {c : ReferencedComponent}
    (h : LazyComponent.events config s v = .ok deferred) (hmem : .reference id c ∈ deferred) :
    v.node.kind = .importExpression ∧
      ∃ d, deferred? config s v = some d ∧ s.identify d = .ok id := by
  unfold LazyComponent.events at h
  split at h
  · next himport =>
    split at h
    · next d hd =>
      obtain ⟨id', hid, rfl⟩ := ok_map_iff.1 h
      cases List.mem_singleton.1 hmem
      exact ⟨himport, d, hd, hid⟩
    · cases h
      cases hmem
  · cases h
    cases hmem

theorem kind_of_isWrapper {wrappers : PrintedNames} {n : Node}
    (h : isWrapper wrappers s n = true) : n.kind = .callExpression := by
  unfold isWrapper at h
  split at h
  · next hkind _ => exact hkind
  · cases h

/-- An import in a call of a wrapper defers the variable that the call is bound to, unless another
wrapper inside the call is bound to another variable there. -/
theorem deferred?_eq_some {up down : List Node} {declarator call : Node}
    (hancestors : v.ancestors = up ++ declarator :: call :: down)
    (hdeclarator : declarator.kind = .variableDeclarator)
    (hcall : isWrapper ⟨config.lazyLoadCallees⟩ s call = true)
    (hdown : ∀ outer n inner, down = outer ++ n :: inner →
      isWrapper ⟨config.lazyLoadCallees⟩ s n = true →
      ∀ d ∈ outer, d.kind ≠ .variableDeclarator) :
    deferred? config s v = some declarator := by
  have hvariable {n : Node} (h : n.kind ≠ .variableDeclarator) :
      n.kind.isVariableDeclarator = false := by
    revert h
    cases n.kind <;> simp [Kind.isVariableDeclarator]
  have hreverse : v.ancestors.reverse = down.reverse ++ call :: declarator :: up.reverse := by
    simp [hancestors]
  have hcall' : call.kind.isVariableDeclarator = false :=
    hvariable (by rw [kind_of_isWrapper hcall]; nofun)
  have hfound : declarator.kind.isVariableDeclarator = true := by
    rw [hdeclarator]
    rfl
  unfold deferred? aboveWrapper?
  rw [hreverse, List.dropWhile_append]
  cases hinner : down.reverse.dropWhile (!isWrapper ⟨config.lazyLoadCallees⟩ s ·) with
  | nil => simp [hcall, hfound]
  | cons w between =>
    have hwrapper : isWrapper ⟨config.lazyLoadCallees⟩ s w = true := by
      have hhead := List.head?_dropWhile_not (!isWrapper ⟨config.lazyLoadCallees⟩ s ·) down.reverse
      simpa [hinner] using hhead
    have hsplit : down = between.reverse ++ w ::
        (down.reverse.takeWhile (!isWrapper ⟨config.lazyLoadCallees⟩ s ·)).reverse := by
      have hboth := List.takeWhile_append_dropWhile
        (p := (!isWrapper ⟨config.lazyLoadCallees⟩ s ·)) (l := down.reverse)
      rw [hinner] at hboth
      simpa using (congrArg List.reverse hboth).symm
    have hnone : between.find? (·.kind.isVariableDeclarator) = none :=
      List.find?_eq_none.2 fun n hn => by
        simp [hvariable (hdown _ w _ hsplit hwrapper n (List.mem_reverse.2 hn))]
    simp [hnone, hcall', hfound]

end LazyComponent

/-- A name that is bound once is bound at one node. -/
theorem eq_of_count_boundNames {name : String} {u w : Visit}
    (honce : (vs.flatMap Visit.boundNames).count name = 1) (hu : u ∈ vs) (hw : w ∈ vs)
    (hname : name ∈ u.boundNames) (hname' : name ∈ w.boundNames) : u = w := by
  obtain ⟨before, after, rfl⟩ := List.append_of_mem hu
  have hcount : 0 < u.boundNames.count name := List.count_pos_iff.2 hname
  simp only [List.flatMap_append, List.flatMap_cons, List.count_append] at honce
  rcases List.mem_append.1 hw with hw | hw
  · have hbefore : 0 < (before.flatMap Visit.boundNames).count name :=
      List.count_pos_iff.2 (List.mem_flatMap.2 ⟨w, hw, hname'⟩)
    omega
  · rcases List.mem_cons.1 hw with rfl | hw
    · rfl
    · have hafter : 0 < (after.flatMap Visit.boundNames).count name :=
        List.count_pos_iff.2 (List.mem_flatMap.2 ⟨w, hw, hname'⟩)
      omega

end

section

variable {config : Config} {path source : String} {repo : RepoMetadata} {s : Session}
  {r : ScanReport} {before after : List Visit} {v : Visit} {up down : List Node}
  {declarator call : Node} {name spec : String}

/-- Imports that defer other variables do not refer to a variable that is bound once. -/
theorem reference_notMem_of_notMem_ancestors (hs : Session.ofSource path source = .ok s)
    {u w : Visit} (hu : u ∈ visits s.root) (hw : w ∈ visits s.root) (hbound : name ∈ u.boundNames)
    (honce : ((visits s.root).flatMap Visit.boundNames).count name = 1)
    (hother : w.node.kind = .importExpression → LazyComponent.deferred? config s w ≠ some u.node)
    {deferred : List Event} (hdeferred : LazyComponent.events config s w = .ok deferred)
    (c : ReferencedComponent) : .reference (s.identityNamed name) c ∉ deferred := by
  intro hmem
  obtain ⟨himport, d, hd, hid⟩ := LazyComponent.exists_deferred?_of_reference_mem hdeferred hmem
  obtain ⟨hmem', hkind⟩ := LazyComponent.mem_ancestors_of_deferred? hd
  have hroot : d ≠ s.root := fun heq => by
    rw [heq, Session.kind_root hs] at hkind
    cases hkind
  obtain ⟨u', hu', rfl⟩ := exists_visit_of_mem_ancestors hw hmem' hroot
  obtain ⟨name', -, heq, hnames⟩ := exists_boundNames_of_identify hkind hid
  have hbound' : name ∈ u'.boundNames := by
    rw [hnames, Session.identityNamed_inj heq]
    exact List.mem_singleton.2 rfl
  obtain rfl := eq_of_count_boundNames honce hu hu' hbound hbound'
  exact hother himport hd

/-- An import that defers a variable refers to its identity first among the events at its node. -/
theorem exists_firstReference?_of_deferred? {claimed : List Nat} {u : Visit} {events : List Event}
    (h : visitEvents config s claimed v = .ok events)
    (hmodule : LazyComponent.moduleName? v.node = some spec)
    (hdefers : LazyComponent.deferred? config s v = some u.node)
    (hname : LazyComponent.simpleName? u.node = some name) :
    ∃ c, firstReference? events (s.identityNamed name) = some c ∧ c.definitionLocation = spec := by
  obtain ⟨-, -, deferred, -, -, -, hdeferred, -, -⟩ := visitEvents_eq_ok h
  obtain ⟨himport, hmodule⟩ := LazyComponent.of_moduleName? hmodule
  obtain ⟨hkind, hname⟩ := LazyComponent.of_simpleName? hname
  have hevents := hdeferred
  unfold LazyComponent.events at hevents
  rw [himport, ← LazyComponent.deferred?, hdefers] at hevents
  obtain ⟨id, hid, rfl⟩ := ok_map_iff.1 hevents
  obtain ⟨name', hname', rfl, -⟩ := exists_boundNames_of_identify hkind hid
  cases hname.symm.trans hname'
  have hfunctions : FunctionComponent.events s v = .ok [] := by
    simp [FunctionComponent.events, FunctionComponent.candidate?, himport]
  have hclasses : ClassComponent.events config s v = .ok [] := by
    simp [ClassComponent.events, himport]
  refine ⟨⟨LazyComponent.variableName s u.node, LazyComponent.importedModule v.node⟩, ?_, hmodule⟩
  rw [firstReference?_visitEvents h hdeferred]
  simp [componentEvents, hfunctions, hclasses, Except.toOption, firstReference?, Event.call?]

/-- Let a variable that is bound once have an initialiser that calls a wrapper and holds one import,
and let no component be defined under its identity. The import defers the variable, unless another
wrapper around it is bound to another variable. Then the record is a reference, and the module is
the place of its definition exactly if it is so for the first reference, if there is one, that the
components before the import make to the variable. Otherwise only components refer to it. -/
theorem deferred_iff (hs : Session.ofSource path source = .ok s)
    (h : scanSource config path source repo = .ok r)
    (hvisits : visits s.root = before ++ v :: after)
    (hmodule : LazyComponent.moduleName? v.node = some spec)
    (hancestors : v.ancestors = up ++ declarator :: call :: down)
    (hname : LazyComponent.simpleName? declarator = some name)
    (hcall : LazyComponent.isWrapper ⟨config.lazyLoadCallees⟩ s call = true)
    (honce : ((visits s.root).flatMap Visit.boundNames).count name = 1)
    (honly : ∀ w ∈ before ++ after, w.node.kind = .importExpression → declarator ∉ w.ancestors)
    (hundefined : r.defined? (s.identityNamed name) = none) :
    ((∀ outer n inner, down = outer ++ n :: inner →
        LazyComponent.isWrapper ⟨config.lazyLoadCallees⟩ s n = true →
        ∀ d ∈ outer, d.kind ≠ .variableDeclarator) →
      LazyComponent.deferred? config s v = some declarator) ∧
    (LazyComponent.deferred? config s v = some declarator →
      ∃ c, r.components.get? (s.identityNamed name) = some (.referenced c) ∧
        (c.definitionLocation = spec ↔ ∀ c',
          firstReference? (componentEvents config s before) (s.identityNamed name) = some c' →
            c'.definitionLocation = spec)) ∧
    (LazyComponent.deferred? config s v ≠ some declarator →
      r.components.get? (s.identityNamed name) =
        (firstReference? (componentEvents config s (visits s.root)) (s.identityNamed name)).map
          .referenced) := by
  obtain ⟨hdeclarator, hbinding⟩ := LazyComponent.of_simpleName? hname
  obtain ⟨s', events, log, hs', hwalk, rfl⟩ := exists_events_of_scanSource h
  cases hs.symm.trans hs'
  have hrecord : (reportOf path repo events).components.get? (s.identityNamed name) =
      (firstReference? events (s.identityNamed name)).map .referenced :=
    get?_reportOf_of_undefined hundefined
  have hv : v ∈ visits s.root := hvisits ▸ List.mem_append_right _ List.mem_cons_self
  have hmem : declarator ∈ v.ancestors := by simp [hancestors]
  have hroot : declarator ≠ s.root := fun heq => by
    rw [heq, Session.kind_root hs] at hdeclarator
    cases hdeclarator
  obtain ⟨u, hu, rfl⟩ := exists_visit_of_mem_ancestors hv hmem hroot
  have hnames := boundNames_of_variable hdeclarator hbinding
  have hbound : name ∈ u.boundNames := hnames ▸ List.mem_singleton.2 rfl
  have hother : ∀ w ∈ before ++ after, ∀ deferred, LazyComponent.events config s w = .ok deferred →
      ∀ c, .reference (s.identityNamed name) c ∉ deferred := by
    intro w hw deferred hdeferred c
    have hw' : w ∈ visits s.root := by
      rw [hvisits]
      exact (List.mem_append.1 hw).elim (List.mem_append_left _)
        (fun hw => List.mem_append_right _ (List.mem_cons_of_mem v hw))
    refine reference_notMem_of_notMem_ancestors hs hu hw' hbound honce (fun himport heq => ?_)
      hdeferred c
    exact honly w hw himport (LazyComponent.mem_ancestors_of_deferred? heq).1
  refine ⟨LazyComponent.deferred?_eq_some hancestors hdeclarator hcall, fun hdefers => ?_,
    fun hdefers => ?_⟩
  · unfold Session.events at hwalk
    rw [hvisits] at hwalk
    obtain ⟨first, others, claimed, hfirst, hothers, rfl⟩ := walkEvents_append_eq_ok hwalk
    simp only [walkEvents, ok_bind_iff, ok_pure_iff] at hothers
    obtain ⟨own, hown, rest, -, rfl⟩ := hothers
    obtain ⟨c, hc, hlocation⟩ :=
      exists_firstReference?_of_deferred? hown hmodule hdefers hname
    rw [firstReference?_append, firstReference?_append, hc, Option.some_or,
      firstReference?_walkEvents hfirst fun w hw => hother w (List.mem_append_left _ hw)] at hrecord
    cases hearlier : firstReference? (componentEvents config s before) (s.identityNamed name) with
    | none =>
      rw [hearlier, Option.none_or] at hrecord
      exact ⟨c, hrecord, iff_of_true hlocation fun _ h => absurd h.symm (Option.some_ne_none _)⟩
    | some c' =>
      rw [hearlier, Option.some_or] at hrecord
      refine ⟨c', hrecord, fun heq => ?_, fun hall => hall c' rfl⟩
      rintro _ ⟨⟩
      exact heq
  · rw [hrecord]
    refine congrArg _ (firstReference?_walkEvents hwalk fun w hw => ?_)
    rw [hvisits] at hw
    rcases List.mem_append.1 hw with hw | hw
    · exact hother w (List.mem_append_left _ hw)
    · rcases List.mem_cons.1 hw with rfl | hw
      · exact fun deferred => reference_notMem_of_notMem_ancestors hs hu hv hbound honce
          (fun _ => hdefers)
      · exact hother w (List.mem_append_right _ hw)

/-- A component renders a variable that is bound to a deferred module below it. -/
def deferredLate : String :=
  "export function App() \x7b return <Settings/>; \x7d\n" ++
    "const Settings = lazy(() => import(\"./pages/Settings\"));\n"

def deferredLateSession : Session :=
  ((Session.ofSource "a.tsx" deferredLate).toOption).getD default

def deferredLateReport : ScanReport :=
  ((scanSource {} "a.tsx" deferredLate .placeholder).toOption).getD default

theorem drop_eq_getD_cons {α : Type} [Inhabited α] {l : List α} {i : Nat} (h : i < l.length) :
    l.drop i = l.getD i default :: l.drop (i + 1) := by
  rw [List.getD_eq_getElem?_getD, List.getElem?_eq_getElem h, Option.getD_some,
    List.getElem_cons_drop]

/-- The component above the variable has put the variable itself into the record. -/
theorem deferred_iff_late :
    Session.ofSource "a.tsx" deferredLate = .ok deferredLateSession ∧
      scanSource {} "a.tsx" deferredLate .placeholder = .ok deferredLateReport ∧
      ∃ v ∈ visits deferredLateSession.root, ∃ declarator,
        LazyComponent.moduleName? v.node = some "./pages/Settings" ∧
        LazyComponent.simpleName? declarator = some "Settings" ∧
        LazyComponent.deferred? {} deferredLateSession v = some declarator ∧
        ∃ c, deferredLateReport.components.get? "a.tsx:Settings" = some (.referenced c) ∧
          c.definitionLocation ≠ "./pages/Settings" := by
  have htext : deferredLate.toList = _ := toList_append_of String.toList_ofList String.toList_ofList
  obtain ⟨hs, hr, hlength, hid, hfirst, honce, hothers, hundefined, hmodule, hdepth, hname, hcall,
      hdown⟩ :
      (Session.ofSource "a.tsx" deferredLate).toOption.isSome = true ∧
      (scanSource {} "a.tsx" deferredLate .placeholder).toOption.isSome = true ∧
      18 < (visits deferredLateSession.root).length ∧
      deferredLateSession.identityNamed "Settings" = "a.tsx:Settings" ∧
      firstReference? (componentEvents {} deferredLateSession
        ((visits deferredLateSession.root).take 18)) "a.tsx:Settings" =
          some ⟨"Settings", "a.tsx#L2"⟩ ∧
      ((visits deferredLateSession.root).flatMap Visit.boundNames).count "Settings" = 1 ∧
      ((visits deferredLateSession.root).take 18 ++ (visits deferredLateSession.root).drop 19).all
        (!LazyComponent.isImport ·.node) = true ∧
      deferredLateReport.defined? "a.tsx:Settings" = none ∧
      LazyComponent.moduleName? ((visits deferredLateSession.root).getD 18 default).node =
        some "./pages/Settings" ∧
      3 < ((visits deferredLateSession.root).getD 18 default).ancestors.length ∧
      LazyComponent.simpleName? (((visits deferredLateSession.root).getD 18 default).ancestors.getD 2
        default) = some "Settings" ∧
      LazyComponent.isWrapper ⟨["React.lazy", "lazy"]⟩ deferredLateSession
        (((visits deferredLateSession.root).getD 18 default).ancestors.getD 3 default) = true ∧
      (((visits deferredLateSession.root).getD 18 default).ancestors.drop 4).all
        (!LazyComponent.isWrapper ⟨["React.lazy", "lazy"]⟩ deferredLateSession ·) = true := by
    rw [deferredLateReport, deferredLateSession, scanSource_eq_bind, Session.ofSource, htext]
    decide +kernel
  replace hs : Session.ofSource "a.tsx" deferredLate = .ok deferredLateSession := eq_ok_getD hs
  replace hr : scanSource {} "a.tsx" deferredLate .placeholder = .ok deferredLateReport :=
    eq_ok_getD hr
  rw [← hid] at hfirst hundefined ⊢
  have hvisits := (List.take_append_drop 18 (visits deferredLateSession.root)).symm
  rw [drop_eq_getD_cons hlength] at hvisits
  have honly : ∀ w ∈ (visits deferredLateSession.root).take 18 ++
      (visits deferredLateSession.root).drop 19, w.node.kind = .importExpression →
      (((visits deferredLateSession.root).getD 18 default).ancestors.getD 2 default) ∉
        w.ancestors := fun w hw himport => by
    have hw := List.all_eq_true.1 hothers w hw
    unfold LazyComponent.isImport at hw
    rw [himport] at hw
    cases hw
  have hv :
      (visits deferredLateSession.root).getD 18 default ∈ visits deferredLateSession.root := by
    refine List.mem_of_mem_drop (i := 18) ?_
    rw [drop_eq_getD_cons hlength]
    exact List.mem_cons_self
  generalize (visits deferredLateSession.root).getD 18 default = v at *
  have hancestors := (List.take_append_drop 2 v.ancestors).symm
  rw [drop_eq_getD_cons (Nat.lt_of_succ_lt hdepth), drop_eq_getD_cons hdepth] at hancestors
  obtain ⟨hdefers, hrecord, -⟩ :=
    deferred_iff hs hr hvisits hmodule hancestors hname hcall honce honly hundefined
  replace hdefers := hdefers fun outer n inner heq hwrapper => by
    have hn := List.all_eq_true.1 hdown n (heq ▸ List.mem_append_right _ List.mem_cons_self)
    rw [hwrapper] at hn
    cases hn
  obtain ⟨c, hc, hiff⟩ := hrecord hdefers
  refine ⟨hs, hr, v, hv, _, hmodule, hname, hdefers, c, hc, fun heq => ?_⟩
  exact absurd (hiff.1 heq _ hfirst) (by decide)

end

end ComponentScan
