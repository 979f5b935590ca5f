import ComponentScan.Proofs.Scan.Records
import ComponentScan.Proofs.Scan.WellFormed

/-!
# Exported function components

A function component that is exported where it stands has the record of its own declaration, unless
a class that is visited before defines the same identity; and what a report exports is exported at
the top level, unless a statement inside a namespace exports it (`exports_iff`).
-/

namespace ComponentScan

open Syntax Template

/-! ## The top level -/

namespace Visit

/-- Where the declaration stands to which a node belongs: a variable stands where its list does. -/
def placement (v : Visit) : Placement :=
  match v.node.kind with
  | .variableDeclarator => .ofContainers v.ancestors.dropLast
  | _ => .ofContainers v.ancestors

/-- The names that a node binds where it stands. -/
def boundNames (v : Visit) : List String :=
  match v.node.kind with
  | .variableDeclarator => (Scope.parameterBindings v.node).map (·.name)
  | .function true | .classNode true | .importDeclaration _ | .tsEnumDeclaration
  | .tsInterfaceDeclaration | .tsTypeAliasDeclaration | .tsModuleDeclaration
  | .tsImportEqualsDeclaration _ => (Scope.declared v.node).map (·.name)
  | _ => []

/-- The names that a node binds at the top level. -/
def topLevelNames (v : Visit) : List String :=
  if v.placement.isTopLevel then v.boundNames else []

end Visit

/-- The names that the declarations at the top level of a program bind. -/
def topLevelNames (root : Node) : List String :=
  (visits root).flatMap Visit.topLevelNames

/-! ## Identities of declarations -/

namespace Session

/-- The identity of a name. -/
def identityNamed (s : Session) (name : String) : Identity :=
  s!"{s.path}:{name}"

theorem identityNamed_inj {s : Session} {name name' : String}
    (h : s.identityNamed name = s.identityNamed name') : name = name' := by
  have hlist : (s.path ++ ":" ++ name).toList = (s.path ++ ":" ++ name').toList :=
    congrArg String.toList h
  rw [String.toList_append, String.toList_append (t := name')] at hlist
  exact String.toList_injective (List.append_cancel_left hlist)

/-- A symbol has the name of each node that names it. -/
theorem identityOf_of_symbolAt? {s : Session} {n : Node} {symbol : Scope.Symbol}
    (h : s.symbolAt? n = some symbol) :
    s.identityOf symbol = s.identityNamed (nameOr "" (some n)) := by
  have hnamed {name : String} (hname : nameOr "" (some n) = name)
      (h : (s.symbols.find? fun entry => entry.1 == n.start && entry.2.name == name).map (·.2) =
        some symbol) : s.identityOf symbol = s.identityNamed (nameOr "" (some n)) := by
    obtain ⟨entry, hfind, rfl⟩ := Option.map_eq_some_iff.1 h
    have hentry := List.find?_some hfind
    simp only [Bool.and_eq_true, beq_iff_eq] at hentry
    rw [identityOf, identityNamed, hentry.2, hname]
  unfold symbolAt? at h
  split at h
  · next name hkind =>
    exact hnamed (by rw [nameOr, Option.bind_some, Node.text?, hkind]; rfl) h
  · next name hkind =>
    exact hnamed (by rw [nameOr, Option.bind_some, Node.text?, hkind]; rfl) h
  · cases h

theorem identityOf_symbolAt? {s : Session} {n : Node} {name : String}
    (hkind : n.kind = .bindingIdentifier name) {symbol : Scope.Symbol}
    (h : s.symbolAt? n = some symbol) : s.identityOf symbol = s.identityNamed name := by
  rw [identityOf_of_symbolAt? h, nameOr, Option.bind_some, Node.text?, hkind]
  rfl

/-- A declaration has the identity of the identifier that bears its name. -/
theorem identify_eq_ok {s : Session} {n child : Node} {id : Identity}
    (hsymbol : s.symbolAt? n = none) (hchild : nameBearer? n = some child)
    (hkind : child.kind.isBindingIdentifier = true) (h : s.identify n = .ok id) :
    ∃ name, child.kind = .bindingIdentifier name ∧ id = s.identityNamed name := by
  obtain ⟨kind, span, children⟩ := child
  cases kind with
  | bindingIdentifier name =>
    refine ⟨name, rfl, ?_⟩
    unfold identify identifyWithin at h
    rw [hsymbol, hchild] at h
    dsimp only at h
    unfold identifyWithin at h
    cases hown : s.symbolAt? ⟨.bindingIdentifier name, span, children⟩ with
    | some symbol =>
      rw [hown] at h
      rw [← identityOf_symbolAt? rfl hown]
      exact (Except.ok.inj h).symm
    | none =>
      rw [hown] at h
      cases h
  | _ => cases hkind

end Session

theorem isBindingIdentifier_of_id? {n ident : Node} (h : n.id? = some ident) :
    ident.kind.isBindingIdentifier = true := by
  have hfound := List.find?_some h
  exact hfound

/-- A named declaration of a function or class binds the name of its identity. -/
theorem exists_boundName {s : Session} {v : Visit} {ident : Node} {id : Identity} {name : String}
    (hkind : v.node.kind = .function true ∨ v.node.kind = .classNode true)
    (hident : v.node.id? = some ident) (hname : ident.text? = some name)
    (hid : s.identify v.node = .ok id) : id = s.identityNamed name ∧ v.boundNames = [name] := by
  have hsymbol : s.symbolAt? v.node = none := by
    unfold Session.symbolAt?
    rcases hkind with hkind | hkind <;> rw [hkind]
  have hbearer : nameBearer? v.node = some ident := by
    unfold nameBearer?
    rcases hkind with hkind | hkind <;> rw [hkind] <;> exact hident
  obtain ⟨name', hname', rfl⟩ := Session.identify_eq_ok hsymbol hbearer
    (isBindingIdentifier_of_id? hident) hid
  have heq : name' = name := by simpa [Node.text?, hname'] using hname
  subst heq
  refine ⟨rfl, ?_⟩
  obtain ⟨⟨kind, span, children⟩, depth, ancestors⟩ := v
  unfold Visit.boundNames
  rcases hkind with hkind | hkind
  · cases hkind
    simp only [Scope.declared, Scope.named]
    rw [hident]
    simp [Scope.bindingOf, hname']
  · cases hkind
    simp only [Scope.declared, Scope.named]
    rw [hident]
    simp [Scope.bindingOf, hname']

theorem boundNames_of_variable {v : Visit} {name : String} (hkind : v.node.kind = .variableDeclarator)
    (hname : v.node.binding?.map Node.kind = some (.bindingIdentifier name)) :
    v.boundNames = [name] := by
  obtain ⟨bound, hbound, hname⟩ := Option.map_eq_some_iff.1 hname
  obtain ⟨rest, hchildren⟩ := List.head?_eq_some_iff.1 hbound
  have hfirst : v.node.child? (!·.isDecorator) = some bound := by
    unfold Node.child?
    rw [hchildren, List.find?_cons_of_pos]
    rw [hname]
    rfl
  unfold Visit.boundNames Scope.parameterBindings
  rw [hkind]
  dsimp only
  rw [hfirst]
  obtain ⟨kind, span, children⟩ := bound
  cases hname
  simp [Scope.patternBindings]

/-- A variable that is identified binds the name of its identity and no other. -/
theorem exists_boundNames_of_identify {s : Session} {v : Visit} {id : Identity}
    (hkind : v.node.kind = .variableDeclarator) (hid : s.identify v.node = .ok id) :
    ∃ name, v.node.binding?.map Node.kind = some (.bindingIdentifier name) ∧
      id = s.identityNamed name ∧ v.boundNames = [name] := by
  have hsymbol : s.symbolAt? v.node = none := by
    unfold Session.symbolAt?
    rw [hkind]
  cases hbearer : nameBearer? v.node with
  | none =>
    unfold Session.identify Session.identifyWithin at hid
    rw [hsymbol, hbearer] at hid
    cases hid
  | some bound =>
    have hbound : v.node.binding? = some bound ∧ bound.kind.isBindingIdentifier = true := by
      unfold nameBearer? at hbearer
      rw [hkind] at hbearer
      exact Option.filter_eq_some_iff.1 hbearer
    obtain ⟨name, hname, hidentity⟩ := Session.identify_eq_ok hsymbol hbearer hbound.2 hid
    have hbinding : v.node.binding?.map Node.kind = some (.bindingIdentifier name) := by
      rw [hbound.1, Option.map_some, hname]
    exact ⟨name, hbinding, hidentity, boundNames_of_variable hkind hbinding⟩

/-- A variable binds the name of its identity. -/
theorem exists_boundName_of_variable {s : Session} {v : Visit} {bound : Node} {id : Identity}
    {name : String} (hkind : v.node.kind = .variableDeclarator)
    (hbound : v.node.binding? = some bound) (hname : bound.text? = some name)
    (hid : s.identify v.node = .ok id) : id = s.identityNamed name ∧ v.boundNames = [name] := by
  obtain ⟨name', hbinding, hidentity, hnames⟩ := exists_boundNames_of_identify hkind hid
  rw [hbound, Option.map_some, Option.some.injEq] at hbinding
  have heq : name' = name := by simpa [Node.text?, hbinding] using hname
  exact heq ▸ ⟨hidentity, hnames⟩

namespace FunctionComponent

variable {s : Session} {v : Visit} {candidate : Candidate} {body : Node} {id : Identity}

theorem placement_of_candidate? (h : candidate? v = some (candidate, body)) :
    candidate.placement = v.placement := by
  unfold candidate? at h
  split at h
  · next hkind =>
    simp only [ofFunction?, Option.bind_eq_bind, Option.bind_eq_some_iff] at h
    obtain ⟨name, -, body', -, heq⟩ := h
    cases heq
    unfold Visit.placement
    rw [hkind]
  · next hkind =>
    simp only [ofVariable?, Option.bind_eq_bind, Option.bind_eq_some_iff] at h
    obtain ⟨name, -, body', -, list, -, heq⟩ := h
    cases heq
    unfold Visit.placement
    rw [hkind]
  · cases h

/-- A candidate has the identity of its name, which it binds. -/
theorem identity_of_candidate? (h : candidate? v = some (candidate, body))
    (hid : s.identify candidate.declaration = .ok id) :
    id = s.identityNamed candidate.name ∧ v.boundNames = [candidate.name] := by
  rw [declaration_of_candidate? h] at hid
  unfold candidate? at h
  split at h
  · next hkind =>
    simp only [ofFunction?, Option.bind_eq_bind, Option.bind_eq_some_iff] at h
    obtain ⟨name, ⟨ident, hident, hname⟩, body', -, heq⟩ := h
    cases heq
    exact exists_boundName (.inl hkind) hident hname hid
  · next hkind =>
    simp only [ofVariable?, Option.bind_eq_bind, Option.bind_eq_some_iff] at h
    obtain ⟨name, ⟨bound, hbound, hname⟩, body', -, list, -, heq⟩ := h
    cases heq
    exact exists_boundName_of_variable hkind hbound hname hid
  · cases h

/-- What a function component defines. -/
theorem exists_candidate_of_define_mem {events : List Event} {c : DefinedComponent}
    (h : FunctionComponent.events s v = .ok events) (hmem : .define id c ∈ events) :
    ∃ candidate body ms, candidate? v = some (candidate, body) ∧
      candidate.placement.isTopLevel = true ∧ s.identify candidate.declaration = .ok id ∧
      mentions s body = .ok ms ∧ c = candidate.component s (identities [] ms) := by
  unfold FunctionComponent.events at h
  split at h
  · next candidate body hcandidate =>
    split at h
    · next htop =>
      simp only [ok_bind_iff, ok_pure_iff] at h
      obtain ⟨id', hid, ms, hms, rfl⟩ := h
      have hdefine := (List.mem_append.1 hmem).resolve_left fun hm => by
        obtain ⟨m, -, hm⟩ := List.mem_map.1 hm
        cases hm
      cases List.mem_singleton.1 hdefine
      exact ⟨candidate, body, ms, hcandidate, (Bool.and_eq_true_iff.1 htop).1, hid, hms, rfl⟩
    · cases h
      cases hmem
  · cases h
    cases hmem

end FunctionComponent

namespace ClassComponent

variable {config : Config} {s : Session} {v : Visit} {id owner : Identity} {className : String}
  {events : List Event} {c : DefinedComponent}

theorem exportedAs_of_define_mem_memberEvents {member : Node} {own : Option (List Identity)}
    (h : memberEvents s className owner member = .ok (own, events))
    (hmem : .define id c ∈ events) : c.exportedAs = none := by
  have hmention (ms : List Mention) : .define id c ∉ ms.map Mention.event := fun hm => by
    obtain ⟨m, -, hm⟩ := List.mem_map.1 hm
    cases hm
  unfold memberEvents at h
  split at h
  · obtain ⟨ms, -, heq⟩ := ok_map_iff.1 h
    cases heq
    exact absurd hmem (hmention ms)
  · split at h
    · obtain ⟨ms, -, heq⟩ := ok_map_iff.1 h
      cases heq
      have hdefine := (List.mem_append.1 hmem).resolve_left (hmention ms)
      cases List.mem_singleton.1 hdefine
      rfl
    · cases h
      cases hmem
  · cases h
    cases hmem

theorem exportedAs_of_define_mem_membersEvents {references references' : List Identity}
    {members : List Node} (h : membersEvents s className owner references members =
      .ok (references', events)) (hmem : .define id c ∈ events) : c.exportedAs = none := by
  induction members generalizing references events with
  | nil =>
    cases h
    cases hmem
  | cons member rest ih =>
    simp only [membersEvents, ok_bind_iff, ok_pure_iff] at h
    obtain ⟨⟨own, first⟩, hfirst, ⟨_, others⟩, hothers, heq⟩ := h
    cases heq
    rcases List.mem_append.1 hmem with hmem | hmem
    · exact exportedAs_of_define_mem_memberEvents hfirst hmem
    · exact ih hothers hmem

/-- A class defines its members, which are not exported, and itself, by the name that it binds. -/
theorem exportedAs_of_define_mem (h : ClassComponent.events config s v = .ok events)
    (hmem : .define id c ∈ events) :
    c.exportedAs = none ∨ ∃ name, v.boundNames = [name] ∧ id = s.identityNamed name ∧
      c.exportedAs = v.placement.exportedAs? name := by
  unfold ClassComponent.events at h
  split at h
  · next name base hkind hname _ =>
    dsimp only at h
    split at h
    · simp only [classEvents, ok_bind_iff, ok_pure_iff] at h
      obtain ⟨id', hid, ⟨references, members⟩, hmembers, rfl⟩ := h
      rcases List.mem_append.1 hmem with hmem | hmem
      · exact .inl (exportedAs_of_define_mem_membersEvents hmembers hmem)
      · cases List.mem_singleton.1 hmem
        obtain ⟨ident, hident, htext⟩ := Option.bind_eq_some_iff.1 hname
        obtain ⟨hidentity, hbound⟩ := exists_boundName (.inr hkind) hident htext hid
        refine .inr ⟨name, hbound, hidentity, ?_⟩
        unfold Visit.placement
        rw [hkind]
        rfl
    · cases h
      cases hmem
  · cases h
    cases hmem

end ClassComponent

/-! ## Events of a walk -/

/-- The events of the class components at some nodes. -/
def classEvents (config : Config) (s : Session) (vs : List Visit) : List Event :=
  vs.flatMap fun v => (ClassComponent.events config s v).toOption.getD []

/-- The aliases in the export statements at some nodes. -/
def exportAliases (s : Session) (vs : List Visit) : List (Identity × String) :=
  vs.flatMap fun v => (ExportAlias.events s v.node).filterMap Event.alias?

section

variable {config : Config} {s : Session} {claimed : List Nat} {v : Visit} {vs : List Visit}
  {events : List Event} {id : Identity}

theorem walkEvents_append_eq_ok {ws : List Visit}
    (h : walkEvents config s claimed (vs ++ ws) = .ok events) :
    ∃ first others claimed', walkEvents config s claimed vs = .ok first ∧
      walkEvents config s claimed' ws = .ok others ∧ events = first ++ others := by
  induction vs generalizing claimed events with
  | nil => exact ⟨[], events, claimed, rfl, h, rfl⟩
  | cons v vs ih =>
    rw [List.cons_append] at h
    obtain ⟨own, hown, rest, hrest, rfl⟩ := walkEvents_cons_eq_ok_iff.1 h
    obtain ⟨first, others, claimed', hfirst, hothers, rfl⟩ := ih hrest
    exact ⟨own ++ first, others, claimed',
      walkEvents_cons_eq_ok_iff.2 ⟨own, hown, first, hfirst, rfl⟩, hothers,
      (List.append_assoc _ _ _).symm⟩

theorem LazyComponent.define_notMem (h : LazyComponent.events config s v = .ok events)
    (c : DefinedComponent) : .define id c ∉ events := by
  unfold LazyComponent.events at h
  split at h
  · split at h
    · obtain ⟨id', -, rfl⟩ := ok_map_iff.1 h
      simp
    · cases h
      nofun
  · cases h
    nofun

theorem AnnotationTags.exists_of_mem_events
    (h : AnnotationTags.events config s claimed v = .ok events) {e : Event} (he : e ∈ events) :
    (∃ offset, e = .claim offset) ∨ ∃ a, e = .annotate a :=
  (exists_tag_of_mem_events h he).imp_right fun ⟨a, ha, _⟩ => ⟨a, ha⟩

/-- Only functions and classes define components. -/
theorem definitions_visitEvents (h : visitEvents config s claimed v = .ok events)
    {functions classes : List Event} (hfunctions : FunctionComponent.events s v = .ok functions)
    (hclasses : ClassComponent.events config s v = .ok classes) :
    events.filterMap Event.definition? =
      functions.filterMap Event.definition? ++ classes.filterMap Event.definition? := by
  have hnone {events : List Event} (h : ∀ id c, .define id c ∉ events) :
      events.filterMap Event.definition? = [] :=
    List.filterMap_eq_nil_iff.2 fun e he => by
      cases e with
      | define id c => exact absurd he (h id c)
      | _ => rfl
  obtain ⟨functions', classes', deferred, annotations, hfunctions', hclasses', hdeferred,
    hannotations, rfl⟩ := visitEvents_eq_ok h
  cases hfunctions.symm.trans hfunctions'
  cases hclasses.symm.trans hclasses'
  have haliases (id : Identity) (c : DefinedComponent) :
      .define id c ∉ ExportAlias.events s v.node := fun hm => by
    obtain ⟨_, _, hm⟩ := ExportAlias.exists_of_mem_events hm
    cases hm
  have hannotations (id : Identity) (c : DefinedComponent) : .define id c ∉ annotations :=
    fun hm => by
      rcases AnnotationTags.exists_of_mem_events hannotations hm with ⟨_, hm⟩ | ⟨_, hm⟩ <;> cases hm
  simp only [List.filterMap_append, hnone haliases, hnone hannotations,
    hnone fun _ => LazyComponent.define_notMem hdeferred, List.append_nil]

theorem firstDefinition?_visitEvents (h : visitEvents config s claimed v = .ok events)
    {functions classes : List Event} (hfunctions : FunctionComponent.events s v = .ok functions)
    (hclasses : ClassComponent.events config s v = .ok classes) :
    firstDefinition? events id =
      (firstDefinition? functions id).or (firstDefinition? classes id) := by
  rw [firstDefinition?, definitions_visitEvents h hfunctions hclasses, List.lookup_append]
  rfl

/-- Among nodes at which no function defines an identity, a class defines it first. -/
theorem firstDefinition?_walkEvents (h : walkEvents config s claimed vs = .ok events)
    (hnone : ∀ v ∈ vs, ∀ functions, FunctionComponent.events s v = .ok functions →
      ∀ c, .define id c ∉ functions) :
    firstDefinition? events id = firstDefinition? (classEvents config s vs) id := by
  induction vs generalizing claimed events with
  | nil =>
    cases h
    rfl
  | cons v vs ih =>
    obtain ⟨own, hown, rest, hrest, rfl⟩ := walkEvents_cons_eq_ok_iff.1 h
    obtain ⟨hv, hvs⟩ := List.forall_mem_cons.1 hnone
    obtain ⟨functions, classes, -, -, hfunctions, hclasses, -, -, -⟩ := visitEvents_eq_ok hown
    have hclass : classEvents config s (v :: vs) = classes ++ classEvents config s vs := by
      rw [classEvents, List.flatMap_cons, hclasses]
      rfl
    rw [hclass, firstDefinition?_append, firstDefinition?_append, ih hrest hvs,
      firstDefinition?_visitEvents hown hfunctions hclasses,
      firstDefinition?_eq_none (hv functions hfunctions), Option.none_or]

/-- The aliases among the events of a walk are those of the export statements. -/
theorem aliases_walkEvents (h : walkEvents config s claimed vs = .ok events) :
    events.filterMap Event.alias? = exportAliases s vs := by
  have hrecords {n : Node} {events : List Event} (h : ∀ e ∈ events, e.IsRecordOf s n) :
      events.filterMap Event.alias? = [] :=
    List.filterMap_eq_nil_iff.2 fun e he => by cases h e he <;> rfl
  induction vs generalizing claimed events with
  | nil =>
    cases h
    rfl
  | cons v vs ih =>
    obtain ⟨own, hown, rest, hrest, rfl⟩ := walkEvents_cons_eq_ok_iff.1 h
    obtain ⟨functions, classes, deferred, annotations, hfunctions, hclasses, hdeferred,
      hannotations, rfl⟩ := visitEvents_eq_ok hown
    have hannotations : annotations.filterMap Event.alias? = [] :=
      List.filterMap_eq_nil_iff.2 fun e he => by
        rcases AnnotationTags.exists_of_mem_events hannotations he with ⟨_, rfl⟩ | ⟨_, rfl⟩ <;> rfl
    simp only [List.filterMap_append, ih hrest,
      hrecords (FunctionComponent.isRecordOf_events hfunctions),
      hrecords (ClassComponent.isRecordOf_events hclasses),
      hrecords (LazyComponent.isRecordOf_events hdeferred), hannotations, List.nil_append,
      List.append_nil]
    rw [exportAliases, exportAliases, List.flatMap_cons]

end

/-! ## Reports of files -/

/-- What the report of a scan says of an identity, by the nodes of the file. -/
theorem exists_walk_of_scanSource {config : Config} {path source : String} {repo : RepoMetadata}
    {s : Session} {r : ScanReport} (hs : Session.ofSource path source = .ok s)
    (h : scanSource config path source repo = .ok r) :
    ∃ events, walkEvents config s [] (visits s.root) = .ok events ∧ r.IsConsistent ∧
      ∀ id, r.defined? id = (firstDefinition? events id).map
        (·.exportedBy ((exportAliases s (visits s.root)).lookup id)) := by
  obtain ⟨s', events, log, hs', hevents, rfl⟩ := exists_events_of_scanSource h
  cases hs.symm.trans hs'
  refine ⟨events, hevents, ?_, fun id => ?_⟩
  · exact isConsistent_reportOf path repo events
  · rw [← aliases_walkEvents hevents]
    exact defined?_reportOf path repo events id

section

variable {config : Config} {path source : String} {repo : RepoMetadata} {s : Session}
  {r : ScanReport} {v w : Visit} {before after : List Visit} {candidate : Candidate} {body : Node}
  {id : Identity} {name exported : String}

theorem notMem_topLevelNames {root : Node} (hnames : (topLevelNames root).Nodup)
    (hvisits : visits root = before ++ v :: after) (hw : w ∈ before)
    (hname : name ∈ v.topLevelNames) : name ∉ w.topLevelNames := by
  intro hname'
  rw [topLevelNames, hvisits, List.flatMap_append, List.nodup_append] at hnames
  exact hnames.2.2 name (List.mem_flatMap.2 ⟨w, hw, hname'⟩) name
    (List.mem_flatMap.2 ⟨v, List.mem_cons_self, hname⟩) rfl

theorem isTopLevel_of_exportedAs? {p : Placement} (h : (p.exportedAs? name).isSome = true) :
    p.isTopLevel = true := by
  cases p with
  | nested => cases h
  | topLevel => rfl
  | namedExport => rfl
  | defaultExport => rfl

theorem exportedAs?_of_not_isTopLevel {p : Placement} (h : ¬ p.isTopLevel = true) :
    p.exportedAs? name = none := by
  cases hexported : p.exportedAs? name with
  | none => rfl
  | some exported => exact absurd (isTopLevel_of_exportedAs? (by rw [hexported]; rfl)) h

/-- A class before an exported function defines the identity of the function without exporting
it. -/
theorem exportedAs_of_firstDefinition?_classEvents (hnames : (topLevelNames s.root).Nodup)
    (hvisits : visits s.root = before ++ v :: after) (hname : name ∈ v.topLevelNames)
    {c : DefinedComponent}
    (h : firstDefinition? (classEvents config s before) (s.identityNamed name) = some c) :
    c.exportedAs = none := by
  obtain ⟨w, hw, hmem⟩ := List.mem_flatMap.1 (define_mem_of_firstDefinition? h)
  cases hclass : ClassComponent.events config s w with
  | error e =>
    rw [hclass] at hmem
    cases hmem
  | ok classes =>
    rw [hclass] at hmem
    rcases ClassComponent.exportedAs_of_define_mem hclass hmem with hnone | ⟨name', hbound, hid,
      hexported⟩
    · exact hnone
    · cases Session.identityNamed_inj hid
      rw [hexported]
      refine exportedAs?_of_not_isTopLevel fun htop =>
        notMem_topLevelNames hnames hvisits hw hname ?_
      rw [Visit.topLevelNames, if_pos htop, hbound]
      exact List.mem_singleton.2 rfl

/-- The first definition of the identity of an exported function is that of the first class before
it which defines the identity, or its own. -/
theorem exists_firstDefinition?_walkEvents {events : List Event}
    (hwalk : walkEvents config s [] (visits s.root) = .ok events)
    (hnames : (topLevelNames s.root).Nodup) (hvisits : visits s.root = before ++ v :: after)
    (hcandidate : FunctionComponent.candidate? v = some (candidate, body))
    (htemplate : containsTemplate body = true) (htop : candidate.placement.isTopLevel = true) :
    ∃ id ms, s.identify candidate.declaration = .ok id ∧ mentions s body = .ok ms ∧
      id = s.identityNamed candidate.name ∧ candidate.name ∈ v.topLevelNames ∧
      firstDefinition? events id = (firstDefinition? (classEvents config s before) id).or
        (some (candidate.component s (identities [] ms))) := by
  rw [hvisits] at hwalk
  obtain ⟨first, others, claimed, hfirst, hothers, rfl⟩ := walkEvents_append_eq_ok hwalk
  obtain ⟨own, hown, rest, -, rfl⟩ := walkEvents_cons_eq_ok_iff.1 hothers
  obtain ⟨functions, classes, -, -, hfunctions, hclasses, -, -, -⟩ := visitEvents_eq_ok hown
  have hevents := hfunctions
  unfold FunctionComponent.events at hevents
  rw [hcandidate] at hevents
  dsimp only at hevents
  rw [htop, htemplate, Bool.and_self, if_pos rfl] at hevents
  simp only [ok_bind_iff, ok_pure_iff] at hevents
  obtain ⟨id, hid, ms, hms, rfl⟩ := hevents
  obtain ⟨hidentity, hbound⟩ := FunctionComponent.identity_of_candidate? hcandidate hid
  have hplacement := FunctionComponent.placement_of_candidate? hcandidate
  have hname : candidate.name ∈ v.topLevelNames := by
    rw [Visit.topLevelNames, ← hplacement, if_pos htop, hbound]
    exact List.mem_singleton.2 rfl
  refine ⟨id, ms, hid, hms, hidentity, hname, ?_⟩
  -- No function before it has the name.
  have hnone : ∀ w ∈ before, ∀ functions, FunctionComponent.events s w = .ok functions →
      ∀ c, .define id c ∉ functions := by
    intro w hw functions hfunctions c hmem
    obtain ⟨candidate', body', ms', hcandidate', htop', hid', -, -⟩ :=
      FunctionComponent.exists_candidate_of_define_mem hfunctions hmem
    obtain ⟨hidentity', hbound'⟩ := FunctionComponent.identity_of_candidate? hcandidate' hid'
    have hsame := Session.identityNamed_inj (hidentity.symm.trans hidentity')
    refine notMem_topLevelNames hnames hvisits hw hname ?_
    rw [Visit.topLevelNames, ← FunctionComponent.placement_of_candidate? hcandidate',
      if_pos htop', hbound', hsame]
    exact List.mem_singleton.2 rfl
  have hmentions : firstDefinition? (ms.map Mention.event) id = none :=
    firstDefinition?_eq_none fun c hm => by
      obtain ⟨m, -, hm⟩ := List.mem_map.1 hm
      cases hm
  have hdefine : firstDefinition? [.define id (candidate.component s (identities [] ms))] id =
      some (candidate.component s (identities [] ms)) := List.lookup_cons_self
  rw [firstDefinition?_append, firstDefinition?_append, firstDefinition?_walkEvents hfirst hnone,
    firstDefinition?_visitEvents hown hfunctions hclasses, firstDefinition?_append, hmentions,
    hdefine, Option.none_or, Option.some_or, Option.some_or]

/-! ## What is exported -/

/-- Whether a statement exports an identity under another name. -/
def Session.Aliases (s : Session) (v : Visit) (id : Identity) : Prop :=
  ∃ exported, .alias id exported ∈ ExportAlias.events s v.node

/-- Whether the binding of an identity at the top level is exported: where it stands, or by a
statement at the top level. -/
def Session.Exports (s : Session) (id : Identity) : Prop :=
  ∃ v ∈ visits s.root,
    (∃ name ∈ v.boundNames, id = s.identityNamed name ∧
      (v.placement.exportedAs? name).isSome = true) ∨
    v.placement = .topLevel ∧ s.Aliases v id

theorem isSome_lookup_exportAliases {vs : List Visit} :
    ((exportAliases s vs).lookup id).isSome = true ↔ ∃ v ∈ vs, s.Aliases v id := by
  rw [List.lookup_isSome_iff]
  constructor
  · rintro ⟨⟨id', exported⟩, hmem, heq⟩
    obtain ⟨v, hv, hmem⟩ := List.mem_flatMap.1 hmem
    obtain ⟨e, he, halias⟩ := List.mem_filterMap.1 hmem
    cases beq_iff_eq.1 heq
    cases e <;> cases halias
    exact ⟨v, hv, _, he⟩
  · rintro ⟨v, hv, exported, he⟩
    exact ⟨(id, exported), List.mem_flatMap.2 ⟨v, hv, List.mem_filterMap.2 ⟨_, he, rfl⟩⟩,
      beq_self_eq_true id⟩

/-- A component that is exported where it is defined stands in an export at the top level. -/
theorem exports_of_define_mem {events : List Event}
    (hwalk : walkEvents config s [] (visits s.root) = .ok events) {c : DefinedComponent}
    (hmem : .define id c ∈ events) (hexported : c.exportedAs.isSome = true) : s.Exports id := by
  obtain ⟨v, hv, claimed, own, hown, hmem⟩ := exists_visit_of_mem_walkEvents hwalk hmem
  obtain ⟨functions, classes, deferred, annotations, hfunctions, hclasses, hdeferred,
    hannotations, rfl⟩ := visitEvents_eq_ok hown
  simp only [List.mem_append] at hmem
  rcases hmem with hmem | hmem | hmem | hmem | hmem
  · obtain ⟨candidate, body, ms, hcandidate, -, hid, -, rfl⟩ :=
      FunctionComponent.exists_candidate_of_define_mem hfunctions hmem
    obtain ⟨hidentity, hbound⟩ := FunctionComponent.identity_of_candidate? hcandidate hid
    refine ⟨v, hv, .inl ⟨candidate.name, hbound ▸ List.mem_singleton.2 rfl, hidentity, ?_⟩⟩
    rw [← FunctionComponent.placement_of_candidate? hcandidate]
    exact hexported
  · rcases ClassComponent.exportedAs_of_define_mem hclasses hmem with hnone | ⟨name, hbound, hid,
      hplacement⟩
    · rw [hnone] at hexported
      cases hexported
    · exact ⟨v, hv, .inl ⟨name, hbound ▸ List.mem_singleton.2 rfl, hid, hplacement ▸ hexported⟩⟩
  · exact absurd hmem (LazyComponent.define_notMem hdeferred c)
  · obtain ⟨_, _, hmem⟩ := ExportAlias.exists_of_mem_events hmem
    cases hmem
  · rcases AnnotationTags.exists_of_mem_events hannotations hmem with ⟨_, hmem⟩ | ⟨_, hmem⟩ <;>
      cases hmem

/-- What a report exports is exported at the top level, or by an alias elsewhere; and every alias of
a component exports it. -/
theorem mem_exports_scanSource (hs : Session.ofSource path source = .ok s)
    (h : scanSource config path source repo = .ok r) :
    (id ∈ r.exports → s.Exports id ∨ (r.defined? id).isSome = true ∧
      ∃ v ∈ visits s.root, v.placement ≠ .topLevel ∧ s.Aliases v id) ∧
    ((r.defined? id).isSome = true → (∃ v ∈ visits s.root, s.Aliases v id) → id ∈ r.exports) := by
  obtain ⟨events, hwalk, hconsistent, hdefined⟩ := exists_walk_of_scanSource hs h
  constructor
  · intro hmem
    obtain ⟨c, hc, hexported⟩ := (hconsistent id).1 hmem
    obtain ⟨first, hfirst, rfl⟩ := Option.map_eq_some_iff.1 ((hdefined id).symm.trans hc)
    rw [DefinedComponent.exportedBy, Option.isSome_or, Bool.or_eq_true] at hexported
    rcases hexported with hexported | halias
    · exact .inl (exports_of_define_mem hwalk (define_mem_of_firstDefinition? hfirst) hexported)
    · obtain ⟨v, hv, halias⟩ := isSome_lookup_exportAliases.1 halias
      by_cases htop : v.placement = .topLevel
      · exact .inl ⟨v, hv, .inr ⟨htop, halias⟩⟩
      · exact .inr ⟨by rw [hc]; rfl, v, hv, htop, halias⟩
  · intro hsome halias
    obtain ⟨c, hc⟩ := Option.isSome_iff_exists.1 hsome
    obtain ⟨first, hfirst, rfl⟩ := Option.map_eq_some_iff.1 ((hdefined id).symm.trans hc)
    refine (hconsistent id).2 ⟨_, hc, ?_⟩
    rw [DefinedComponent.exportedBy, Option.isSome_or, isSome_lookup_exportAliases.2 halias,
      Bool.or_true]

/-- The record of an exported function is its own exactly if each class before it that defines its
identity has the same place and references, and is exported under the same name by the first
alias. -/
theorem isRecorded_iff (hs : Session.ofSource path source = .ok s)
    (h : scanSource config path source repo = .ok r) (hnames : (topLevelNames s.root).Nodup)
    (hvisits : visits s.root = before ++ v :: after)
    (hcandidate : FunctionComponent.candidate? v = some (candidate, body))
    (htemplate : containsTemplate body = true)
    (hexported : candidate.placement.exportedAs? candidate.name = some exported) :
    ∃ id ms, s.identify candidate.declaration = .ok id ∧ mentions s body = .ok ms ∧
      ((∃ c, r.defined? id = some c ∧ c.sourceLocation = s.location candidate.declaration.span ∧
          c.referencedComponents = identities [] ms ∧ c.exportedAs = some exported ∧
          id ∈ r.exports) ↔
        ∀ c, firstDefinition? (classEvents config s before) id = some c →
          c.sourceLocation = s.location candidate.declaration.span ∧
            c.referencedComponents = identities [] ms ∧
            (exportAliases s (visits s.root)).lookup id = some exported) := by
  obtain ⟨events, hwalk, hconsistent, hdefined⟩ := exists_walk_of_scanSource hs h
  have htop : candidate.placement.isTopLevel = true :=
    isTopLevel_of_exportedAs? (by rw [hexported]; rfl)
  obtain ⟨id, ms, hid, hms, rfl, hname, hfirst⟩ :=
    exists_firstDefinition?_walkEvents hwalk hnames hvisits hcandidate htemplate htop
  refine ⟨_, ms, hid, hms, ?_⟩
  have hexports {c : DefinedComponent} (hc : r.defined? (s.identityNamed candidate.name) = some c)
      (hc' : c.exportedAs = some exported) : s.identityNamed candidate.name ∈ r.exports :=
    (hconsistent _).2 ⟨c, hc, by rw [hc']; rfl⟩
  have hrecord := hdefined (s.identityNamed candidate.name)
  rw [hfirst] at hrecord
  cases hclass : firstDefinition? (classEvents config s before)
    (s.identityNamed candidate.name) with
  | none =>
    rw [hclass, Option.none_or, Option.map_some] at hrecord
    refine ⟨nofun, fun _ => ⟨_, hrecord, rfl, rfl, ?_, ?_⟩⟩
    · simp [DefinedComponent.exportedBy, Candidate.component, hexported]
    · exact hexports hrecord (by simp [DefinedComponent.exportedBy, Candidate.component, hexported])
  | some c =>
    rw [hclass, Option.some_or, Option.map_some] at hrecord
    have hnone := exportedAs_of_firstDefinition?_classEvents hnames hvisits hname hclass
    constructor
    · rintro ⟨c', hc', hlocation, hreferences, hname', -⟩ c'' ⟨⟩
      cases hrecord.symm.trans hc'
      refine ⟨hlocation, hreferences, ?_⟩
      rwa [DefinedComponent.exportedBy, hnone, Option.none_or] at hname'
    · intro hall
      obtain ⟨hlocation, hreferences, halias⟩ := hall c rfl
      have hname' : (c.exportedBy ((exportAliases s (visits s.root)).lookup
          (s.identityNamed candidate.name))).exportedAs = some exported := by
        rw [DefinedComponent.exportedBy, hnone, Option.none_or, halias]
      exact ⟨_, hrecord, hlocation, hreferences, hname', hexports hrecord hname'⟩

/-- Exported functions have their own records, and nothing is exported that is not exported at the
top level, exactly as far as no class before a function takes its record and no alias elsewhere
exports a component. -/
theorem exports_iff (hs : Session.ofSource path source = .ok s)
    (h : scanSource config path source repo = .ok r) (hnames : (topLevelNames s.root).Nodup) :
    (∀ before v after, visits s.root = before ++ v :: after →
      ∀ candidate body exported, FunctionComponent.candidate? v = some (candidate, body) →
        containsTemplate body = true →
        candidate.placement.exportedAs? candidate.name = some exported →
      ∃ id ms, s.identify candidate.declaration = .ok id ∧ mentions s body = .ok ms ∧
        ((∃ c, r.defined? id = some c ∧
            c.sourceLocation = s.location candidate.declaration.span ∧
            c.referencedComponents = identities [] ms ∧ c.exportedAs = some exported ∧
            id ∈ r.exports) ↔
          ∀ c, firstDefinition? (classEvents config s before) id = some c →
            c.sourceLocation = s.location candidate.declaration.span ∧
              c.referencedComponents = identities [] ms ∧
              (exportAliases s (visits s.root)).lookup id = some exported)) ∧
    ((∀ id ∈ r.exports, s.Exports id) ↔
      ∀ v ∈ visits s.root, v.placement ≠ .topLevel → ∀ id, s.Aliases v id →
        (r.defined? id).isSome = true → s.Exports id) := by
  refine ⟨fun before v after hvisits candidate body exported hcandidate htemplate hexported =>
    isRecorded_iff hs h hnames hvisits hcandidate htemplate hexported, ?_, ?_⟩
  · intro hall v hv _ id halias hsome
    exact hall id ((mem_exports_scanSource hs h).2 hsome ⟨v, hv, halias⟩)
  · intro hall id hmem
    rcases (mem_exports_scanSource hs h).1 hmem with hexports | ⟨hsome, v, hv, hplace, halias⟩
    · exact hexports
    · exact hall v hv hplace id halias hsome

/-- A function holds a class that has the name of an exported function behind it. -/
def shadowed : String :=
  "function f() \x7b class Foo extends Component \x7b render() \x7b return <a/>; \x7d \x7d \x7d\n" ++
    "export function Foo() \x7b return <B/>; \x7d\n"

def shadowedSession : Session :=
  ((Session.ofSource "a.tsx" shadowed).toOption).getD default

def shadowedReport : ScanReport :=
  ((scanSource {} "a.tsx" shadowed .placeholder).toOption).getD default

/-- The exported function behind the class does not have its own record. -/
theorem exports_iff_shadowed :
    Session.ofSource "a.tsx" shadowed = .ok shadowedSession ∧
      scanSource {} "a.tsx" shadowed .placeholder = .ok shadowedReport ∧
      (topLevelNames shadowedSession.root).Nodup ∧
      ∃ v ∈ visits shadowedSession.root, ∃ candidate body id ms,
        FunctionComponent.candidate? v = some (candidate, body) ∧
          containsTemplate body = true ∧
          candidate.placement.exportedAs? candidate.name = some "Foo" ∧
          shadowedSession.identify candidate.declaration = .ok id ∧
          mentions shadowedSession body = .ok ms ∧
          ¬ ∃ c, shadowedReport.defined? id = some c ∧
            c.sourceLocation = shadowedSession.location candidate.declaration.span ∧
            c.referencedComponents = identities [] ms ∧ c.exportedAs = some "Foo" ∧
            id ∈ shadowedReport.exports := by
  have htext : shadowed.toList = _ :=
    toList_append_of String.toList_ofList String.toList_ofList
  -- One computation for all that is read off the program.
  obtain ⟨hsource, hscan, hnames, hlength, hfacts, hclass⟩ :
      (Session.ofSource "a.tsx" shadowed).toOption.isSome = true ∧
      (scanSource {} "a.tsx" shadowed .placeholder).toOption.isSome = true ∧
      (topLevelNames shadowedSession.root).Nodup ∧
      18 < (visits shadowedSession.root).length ∧
      ((FunctionComponent.candidate? ((visits shadowedSession.root).getD 18 default)).map
        fun (candidate, body) => (candidate.placement.exportedAs? candidate.name,
          containsTemplate body, shadowedSession.identify candidate.declaration,
          shadowedSession.location candidate.declaration.span)) =
        some (some "Foo", true, .ok "a.tsx:Foo", ⟨"a.tsx", 2, 2⟩) ∧
      (firstDefinition? (classEvents {} shadowedSession
        ((visits shadowedSession.root).take 18)) "a.tsx:Foo").map (·.sourceLocation) =
        some ⟨"a.tsx", 1, 1⟩ := by
    rw [shadowedSession, scanSource_eq_bind, Session.ofSource, htext]
    decide +kernel
  have hs : Session.ofSource "a.tsx" shadowed = .ok shadowedSession := eq_ok_getD hsource
  have hr : scanSource {} "a.tsx" shadowed .placeholder = .ok shadowedReport := eq_ok_getD hscan
  have hv : (visits shadowedSession.root).getD 18 default = (visits shadowedSession.root)[18] := by
    rw [List.getD_eq_getElem?_getD, List.getElem?_eq_getElem hlength, Option.getD_some]
  have hvisits : visits shadowedSession.root = (visits shadowedSession.root).take 18 ++
      (visits shadowedSession.root).getD 18 default :: (visits shadowedSession.root).drop 19 := by
    rw [hv, List.getElem_cons_drop, List.take_append_drop]
  obtain ⟨⟨candidate, body⟩, hcandidate, heq⟩ := Option.map_eq_some_iff.1 hfacts
  simp only [Prod.mk.injEq] at heq
  obtain ⟨hexported, htemplate, hid, hlocation⟩ := heq
  obtain ⟨c, hc, hline⟩ := Option.map_eq_some_iff.1 hclass
  obtain ⟨id, ms, hid', hms, hiff⟩ := (exports_iff hs hr hnames).1 _ _ _ hvisits candidate body
    "Foo" hcandidate htemplate hexported
  cases hid.symm.trans hid'
  have hmem : (visits shadowedSession.root).getD 18 default ∈ visits shadowedSession.root := by
    rw [hv]
    exact List.getElem_mem hlength
  refine ⟨hs, hr, hnames, _, hmem, candidate, body, _, ms, hcandidate, htemplate, hexported, hid,
    hms, fun hown => ?_⟩
  have hplace := (hiff.1 hown c hc).1
  rw [hline, hlocation] at hplace
  exact absurd hplace (by decide)

end

end ComponentScan
