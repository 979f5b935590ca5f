import ComponentScan.Proofs.Scan.Deferred

/-!
# Members of class components

What instances of a class component render makes its references, and every other member with a name
that holds a template is a component of its own. Static methods are taken as if they were methods of
the instances, so a static method `render` is not recorded, and its references take the place of
those of the members before it. `members_scanSource` says for each record of a class when it is the
one that the members declare.
-/

namespace ComponentScan

open Syntax Template

namespace ClassComponent

/-! ## What members declare -/

def name? (member : Node) : Option String :=
  member.memberKey?.bind memberName?

/-- What may hold the templates of a member: the body of a method, unless it is the constructor, or
the value of a property. -/
def content? (member : Node) : Option Node :=
  match member.kind with
  | .methodDefinition .constructor _ => none
  | .methodDefinition _ _ => member.memberValue?.bind Node.functionBody?
  | .propertyDefinition _ => member.memberValue?
  | _ => none

/-- The node that an instance of the class renders, in its method `render` or in a function that is
its property `render`. -/
def instanceRender? (member : Node) : Option Node :=
  if name? member = some "render" then
    match member.kind with
    | .methodDefinition .method false => content? member
    | .propertyDefinition false => (content? member).bind FunctionComponent.expressionBody?
    | _ => none
  else none

/-- The body of a static method `render`. -/
def staticRender? (member : Node) : Option Node :=
  if name? member = some "render" then
    match member.kind with
    | .methodDefinition .method true => content? member
    | _ => none
  else none

/-- The name and the content of a member that instances do not render. -/
def helper? (member : Node) : Option (String × Node) := do
  let name ← name? member
  let root ← content? member
  if (instanceRender? member).isSome then none else some (name, root)

theorem methodPart?_eq (role : MethodRole) (name : String) (method : Node) :
    methodPart? role name method =
      (method.memberValue?.bind Node.functionBody?).bind fun body =>
        match role with
        | .constructor => none
        | .method => some (if name == "render" then .render body else .helper name body)
        | .getter | .setter => some (.helper name body) := by
  rw [Option.bind_assoc]
  rfl

/-- A static method `render` is taken for the one of the instances. -/
theorem memberPart?_eq (member : Node) :
    memberPart? member =
      match (staticRender? member).or (instanceRender? member) with
      | some body => some (.render body)
      | none => (helper? member).map fun (name, root) => .helper name root := by
  unfold memberPart? helper? staticRender? instanceRender? content?
  rw [← name?]
  cases name? member with
  | none => rfl
  | some name =>
    cases member.kind with
    | methodDefinition role isStatic =>
      cases hbody : member.memberValue?.bind Node.functionBody? with
      | none => cases role <;> cases isStatic <;> simp [methodPart?_eq, hbody]
      | some body =>
        by_cases hrender : name = "render" <;> cases role <;> cases isStatic <;>
          simp [methodPart?_eq, hbody, hrender]
    | propertyDefinition isStatic =>
      cases hvalue : member.memberValue? with
      | none => cases isStatic <;> simp [propertyPart?, hvalue]
      | some value =>
        cases hbody : FunctionComponent.expressionBody? value with
        | none => cases isStatic <;> simp [propertyPart?, hvalue, hbody]
        | some body =>
          by_cases hrender : name = "render" <;> cases isStatic <;>
            simp [propertyPart?, hvalue, hbody, hrender]
    | _ => simp

theorem helper?_eq_some {member root : Node} {name : String} :
    helper? member = some (name, root) ↔
      name? member = some name ∧ content? member = some root ∧ instanceRender? member = none := by
  unfold helper?
  cases name? member <;> cases content? member <;> cases instanceRender? member <;> simp

/-- The node that the scan takes for what instances render. -/
def rendered? (member : Node) : Option Node :=
  (staticRender? member).or (instanceRender? member)

/-- The name and the content of a member that is recorded as a component of its own. -/
def recorded? (member : Node) : Option (String × Node) :=
  if (staticRender? member).isSome then none
  else (helper? member).filter (containsTemplate ·.2)

theorem recorded?_eq_some {member root : Node} {name : String} :
    recorded? member = some (name, root) ↔
      staticRender? member = none ∧ helper? member = some (name, root) ∧
        containsTemplate root = true := by
  unfold recorded?
  cases staticRender? member <;> simp [Option.filter_eq_some_iff]

/-! ## What a member adds -/

/-- The components that a node refers to, if there is one. -/
def references (s : Session) : Option Node → Except ScanError (List Identity)
  | some body => (mentions s body).map (identities [])
  | none => .ok []

/-- The component that a member is. -/
def memberComponent (s : Session) (className name : String) (member : Node)
    (references : List Identity) : DefinedComponent :=
  (⟨s!"{className}.{name}", member, .nested, member.start⟩ : Candidate).component s references

theorem memberIdentity_inj {owner : Identity} {name name' : String}
    (h : memberIdentity owner name = memberIdentity owner name') : name = name' := by
  have hlist : (owner ++ "." ++ name ++ "()").toList = (owner ++ "." ++ name' ++ "()").toList :=
    congrArg String.toList h
  simp only [String.toList_append] at hlist
  exact String.toList_injective (List.append_cancel_left (List.append_cancel_right hlist))

theorem memberIdentity_ne {owner : Identity} {name : String} : memberIdentity owner name ≠ owner := by
  intro h
  have hlist : (owner ++ "." ++ name ++ "()").toList = owner.toList := congrArg String.toList h
  have hlength := congrArg List.length hlist
  simp only [String.toList_append, List.length_append] at hlength
  have hdot : ".".toList.length = 1 := rfl
  omega

section

variable {s : Session} {className : String} {owner id : Identity} {member : Node}
  {own : Option (List Identity)} {before after members : List Node}
  {found found' : List Identity} {events : List Event} {name : String} {root : Node}

theorem recorded?_of_rendered? {body : Node} (h : rendered? member = some body) :
    recorded? member = none := by
  unfold rendered? at h
  unfold recorded? helper?
  cases hstatic : staticRender? member with
  | some _ => rfl
  | none =>
    rw [hstatic, Option.none_or] at h
    simp [h]

/-- A member renders for its class, is recorded, or adds nothing. -/
theorem memberEvents_cases (h : memberEvents s className owner member = .ok (own, events)) :
    (∃ body ms, rendered? member = some body ∧ recorded? member = none ∧
      mentions s body = .ok ms ∧ own = some (identities [] ms) ∧ events = ms.map Mention.event) ∨
    (∃ name root ms, rendered? member = none ∧ recorded? member = some (name, root) ∧
      mentions s root = .ok ms ∧ own = none ∧
      events = ms.map Mention.event ++ [.define (memberIdentity owner name)
        (memberComponent s className name member (identities [] ms))]) ∨
    (rendered? member = none ∧ recorded? member = none ∧ own = none ∧ events = []) := by
  unfold memberEvents at h
  rw [memberPart?_eq, ← rendered?] at h
  cases hrendered : rendered? member with
  | some body =>
    rw [hrendered] at h
    obtain ⟨ms, hms, heq⟩ := ok_map_iff.1 h
    cases heq
    exact .inl ⟨body, ms, rfl, recorded?_of_rendered? hrendered, hms, rfl, rfl⟩
  | none =>
    have hrecorded : recorded? member = (helper? member).filter (containsTemplate ·.2) := by
      unfold recorded?
      rw [(Option.or_eq_none_iff.1 hrendered).1]
      rfl
    rw [hrendered] at h
    cases hhelper : helper? member with
    | none =>
      rw [hhelper] at h hrecorded
      cases h
      exact .inr (.inr ⟨rfl, hrecorded, rfl, rfl⟩)
    | some helper =>
      obtain ⟨name, root⟩ := helper
      rw [hhelper] at h hrecorded
      dsimp only [Option.map_some] at h
      split at h
      · next htemplate =>
        obtain ⟨ms, hms, heq⟩ := ok_map_iff.1 h
        cases heq
        refine .inr (.inl ⟨name, root, ms, rfl, ?_, hms, rfl, rfl⟩)
        rw [hrecorded, Option.filter_some, if_pos htemplate]
      · next htemplate =>
        cases h
        refine .inr (.inr ⟨rfl, ?_, rfl, rfl⟩)
        rw [hrecorded, Option.filter_some, if_neg htemplate]

theorem define_notMem_mentions (ms : List Mention) (c : DefinedComponent) :
    .define id c ∉ ms.map Mention.event := fun h => by
  obtain ⟨m, -, h⟩ := List.mem_map.1 h
  cases h

/-! ## What the members add -/

/-- The last member that is taken for one that renders gives the class its references. -/
theorem references_membersEvents
    (h : membersEvents s className owner found members = .ok (found', events)) :
    match members.reverse.findSome? rendered? with
    | some body => references s (some body) = .ok found'
    | none => found' = found := by
  induction members generalizing found events with
  | nil =>
    cases h
    rfl
  | cons member rest ih =>
    simp only [membersEvents, ok_bind_iff, ok_pure_iff] at h
    obtain ⟨⟨own, first⟩, hfirst, ⟨_, others⟩, hothers, heq⟩ := h
    cases heq
    have hrest := ih hothers
    rw [List.reverse_cons, List.findSome?_append]
    cases hlast : rest.reverse.findSome? rendered? with
    | some body =>
      rw [hlast] at hrest
      exact hrest
    | none =>
      rw [hlast] at hrest
      dsimp only at hrest
      subst hrest
      rcases memberEvents_cases hfirst with ⟨body, ms, hrendered, -, hms, rfl, -⟩ |
        ⟨_, _, _, hrendered, -, -, rfl, -⟩ | ⟨hrendered, -, rfl, -⟩
      · simp [hrendered, references, hms, Except.map]
      · simp [hrendered]
      · simp [hrendered]

theorem membersEvents_append
    (h : membersEvents s className owner found (before ++ after) = .ok (found', events)) :
    ∃ between first others, membersEvents s className owner found before = .ok (between, first) ∧
      membersEvents s className owner between after = .ok (found', others) ∧
      events = first ++ others := by
  induction before generalizing found events with
  | nil => exact ⟨found, [], events, rfl, h, rfl⟩
  | cons member before ih =>
    simp only [List.cons_append, membersEvents, ok_bind_iff, ok_pure_iff] at h
    obtain ⟨⟨own, first⟩, hfirst, ⟨_, others⟩, hothers, heq⟩ := h
    cases heq
    obtain ⟨between, first', others', hbefore, hafter, rfl⟩ := ih hothers
    refine ⟨between, first ++ first', others', ?_, hafter, (List.append_assoc _ _ _).symm⟩
    simp only [membersEvents, ok_bind_iff, ok_pure_iff]
    exact ⟨⟨own, first⟩, hfirst, ⟨between, first'⟩, hbefore, rfl⟩

theorem subset_membersEvents
    (h : membersEvents s className owner found members = .ok (found', events))
    (hmember : member ∈ members) {first : List Event}
    (hfirst : memberEvents s className owner member = .ok (own, first)) : first ⊆ events := by
  obtain ⟨before, after, rfl⟩ := List.append_of_mem hmember
  obtain ⟨between, _, others, -, hothers, rfl⟩ := membersEvents_append h
  simp only [membersEvents, ok_bind_iff, ok_pure_iff] at hothers
  obtain ⟨⟨_, own'⟩, hown, ⟨_, rest⟩, -, heq⟩ := hothers
  cases heq
  cases hfirst.symm.trans hown
  exact fun e he => List.mem_append_right _ (List.mem_append_left _ he)

/-- What members define are the identities of those that are recorded. -/
theorem exists_recorded_of_define_mem {c : DefinedComponent}
    (h : membersEvents s className owner found members = .ok (found', events))
    (hmem : .define id c ∈ events) :
    ∃ member ∈ members, ∃ name root, recorded? member = some (name, root) ∧
      id = memberIdentity owner name := by
  induction members generalizing found events with
  | nil =>
    cases h
    cases hmem
  | cons member rest ih =>
    simp only [membersEvents, ok_bind_iff, ok_pure_iff] at h
    obtain ⟨⟨own, first⟩, hfirst, ⟨_, others⟩, hothers, heq⟩ := h
    cases heq
    rcases List.mem_append.1 hmem with hmem | hmem
    · refine ⟨member, List.mem_cons_self, ?_⟩
      rcases memberEvents_cases hfirst with ⟨_, ms, -, -, -, -, rfl⟩ |
        ⟨name, root, ms, -, hrecorded, -, -, rfl⟩ | ⟨-, -, -, rfl⟩
      · exact absurd hmem (define_notMem_mentions ms c)
      · have hdefine := (List.mem_append.1 hmem).resolve_left (define_notMem_mentions ms c)
        cases List.mem_singleton.1 hdefine
        exact ⟨name, root, hrecorded, rfl⟩
      · cases hmem
    · obtain ⟨member', hmember, hrecorded⟩ := ih hothers hmem
      exact ⟨member', List.mem_cons_of_mem member hmember, hrecorded⟩

/-- The first member that is recorded under a name defines its identity. -/
theorem firstDefinition?_membersEvents
    (h : membersEvents s className owner found (before ++ member :: after) = .ok (found', events))
    (hrecorded : recorded? member = some (name, root))
    (hfirst : ∀ member' ∈ before, ∀ root', recorded? member' ≠ some (name, root')) :
    ∃ ids, references s (some root) = .ok ids ∧
      firstDefinition? events (memberIdentity owner name) =
        some (memberComponent s className name member ids) := by
  obtain ⟨between, first, others, hbefore, hothers, rfl⟩ := membersEvents_append h
  simp only [membersEvents, ok_bind_iff, ok_pure_iff] at hothers
  obtain ⟨⟨_, own⟩, hown, ⟨_, rest⟩, -, heq⟩ := hothers
  cases heq
  have hnone : firstDefinition? first (memberIdentity owner name) = none :=
    firstDefinition?_eq_none fun c hmem => by
      obtain ⟨member', hmember, name', root', hrecorded', heq⟩ :=
        exists_recorded_of_define_mem hbefore hmem
      cases memberIdentity_inj heq
      exact hfirst member' hmember root' hrecorded'
  rcases memberEvents_cases hown with ⟨_, _, -, hrecorded', -⟩ |
    ⟨name', root', ms, -, hrecorded', hms, -, rfl⟩ | ⟨-, hrecorded', -⟩
  · cases hrecorded.symm.trans hrecorded'
  · cases hrecorded.symm.trans hrecorded'
    refine ⟨identities [] ms, by simp [references, hms, Except.map], ?_⟩
    have hdefine : firstDefinition? [.define (memberIdentity owner name)
        (memberComponent s className name member (identities [] ms))] (memberIdentity owner name) =
        some (memberComponent s className name member (identities [] ms)) := List.lookup_cons_self
    rw [firstDefinition?_append, firstDefinition?_append, firstDefinition?_append, hnone,
      firstDefinition?_eq_none (define_notMem_mentions ms), hdefine]
    rfl
  · cases hrecorded.symm.trans hrecorded'

end

/-! ## The class -/

/-- The name of a class component. -/
def componentName? (config : Config) (s : Session) (v : Visit) : Option String :=
  match v.node.kind, v.node.id?.bind Node.text?, v.node.superClass? with
  | .classNode true, some name, some base =>
    if PrintedNames.matchesText ⟨config.componentBaseClasses⟩ (s.printCompact base) then some name
    else none
  | _, _, _ => none

theorem events_eq (config : Config) (s : Session) (v : Visit) :
    ClassComponent.events config s v =
      match componentName? config s v with
      | some name => classEvents s v name
      | none => .ok [] := by
  unfold ClassComponent.events
  split
  · next hkind hname hbase =>
    simp only [componentName?, hkind, hname, hbase]
    split <;> rfl
  · simp only [componentName?, *]

theorem of_componentName? {config : Config} {s : Session} {v : Visit} {name : String}
    (h : componentName? config s v = some name) :
    v.node.kind = .classNode true ∧ v.node.id?.bind Node.text? = some name ∧
      ClassComponent.events config s v = classEvents s v name := by
  have hevents := events_eq config s v
  rw [h] at hevents
  unfold componentName? at h
  split at h
  · next hkind hname _ =>
    split at h
    · cases h
      exact ⟨hkind, hname, hevents⟩
    · cases h
  · cases h

/-- The last member that is taken for one that renders. -/
def lastRendered? (members : List Node) : Option Node :=
  members.reverse.find? fun member => (rendered? member).isSome

/-- What instances of a class render; the last member counts. -/
def classRender? (members : List Node) : Option Node :=
  members.reverse.findSome? instanceRender?

theorem findSome?_rendered?_of_lastRendered? {members : List Node} {member : Node}
    (h : lastRendered? members = some member) :
    members.reverse.findSome? rendered? = rendered? member := by
  obtain ⟨hmember, skipped, rest, hlist, hskipped⟩ := List.find?_eq_some_iff_append.1 h
  obtain ⟨body, hbody⟩ := Option.isSome_iff_exists.1 hmember
  have hnone : skipped.findSome? rendered? = none :=
    List.findSome?_eq_none_iff.2 fun member' hmember' => by
      simpa using hskipped member' hmember'
  rw [hlist, List.findSome?_append, hnone, List.findSome?_cons, hbody]
  rfl

/-- Either instances render what the scan takes, or that is in a static method. -/
theorem findSome?_rendered?_cases (members : List Node) :
    members.reverse.findSome? rendered? = classRender? members ∨
      ∃ member body, lastRendered? members = some member ∧ staticRender? member = some body := by
  unfold classRender? lastRendered?
  induction members.reverse with
  | nil => exact .inl rfl
  | cons member rest ih =>
    rw [List.findSome?_cons, List.findSome?_cons, List.find?_cons]
    cases hstatic : staticRender? member with
    | some body =>
      have hrendered : rendered? member = some body := by rw [rendered?, hstatic, Option.some_or]
      exact .inr ⟨member, body, by rw [hrendered]; rfl, hstatic⟩
    | none =>
      have hrendered : rendered? member = instanceRender? member := by
        rw [rendered?, hstatic, Option.none_or]
      rw [hrendered]
      cases instanceRender? member with
      | some body => exact .inl rfl
      | none => exact ih

end ClassComponent

/-! ## Records of a walk -/

section

variable {config : Config} {s : Session} {claimed : List Nat} {vs : List Visit}
  {events : List Event} {id : Identity}

theorem definitions_walkEvents (h : walkEvents config s claimed vs = .ok events) :
    events.filterMap Event.definition? =
      (componentEvents config s vs).filterMap Event.definition? := by
  induction vs generalizing claimed events with
  | nil =>
    cases h
    rfl
  | cons v vs ih =>
    obtain ⟨first, hfirst, others, hothers, rfl⟩ := walkEvents_cons_eq_ok_iff.1 h
    obtain ⟨functions, classes, -, -, hfunctions, hclasses, -, -, -⟩ := visitEvents_eq_ok hfirst
    have hcons : componentEvents config s (v :: vs) =
        functions ++ classes ++ componentEvents config s vs := by
      simp [componentEvents, hfunctions, hclasses, Except.toOption]
    rw [hcons, List.filterMap_append, List.filterMap_append, List.filterMap_append, ih hothers,
      definitions_visitEvents hfirst hfunctions hclasses]

theorem firstDefinition?_componentEvents (h : walkEvents config s claimed vs = .ok events) :
    firstDefinition? events id = firstDefinition? (componentEvents config s vs) id := by
  rw [firstDefinition?, definitions_walkEvents h, firstDefinition?]

end

section

open ClassComponent

variable {config : Config} {path source : String} {repo : RepoMetadata} {s : Session}
  {r : ScanReport} {before after : List Visit} {v : Visit} {name : String}

/-- What a report records under an identity is defined by a class, unless something before the
class defines it, or else by what is behind the class. -/
theorem exists_classEvents_of_scanSource (hs : Session.ofSource path source = .ok s)
    (h : scanSource config path source repo = .ok r)
    (hvisits : visits s.root = before ++ v :: after) (hclass : componentName? config s v = some name) :
    ∃ classes, ClassComponent.classEvents s v name = .ok classes ∧
      ∀ id, firstDefinition? (componentEvents config s before) id = none →
        ∃ exported, r.defined? id = ((firstDefinition? classes id).or
          (firstDefinition? (componentEvents config s after) id)).map (·.exportedBy exported) := by
  obtain ⟨events, hwalk, -, hdefined⟩ := exists_walk_of_scanSource hs h
  obtain ⟨hkind, -, hevents⟩ := of_componentName? hclass
  have hvisit : ∃ classes, ClassComponent.events config s v = .ok classes := by
    rw [hvisits] at hwalk
    obtain ⟨_, _, _, -, hothers, -⟩ := walkEvents_append_eq_ok hwalk
    obtain ⟨own, hown, -⟩ := walkEvents_cons_eq_ok_iff.1 hothers
    obtain ⟨-, classes, -, -, -, hclasses, -⟩ := visitEvents_eq_ok hown
    exact ⟨classes, hclasses⟩
  obtain ⟨classes, hclasses⟩ := hvisit
  have hfunctions : FunctionComponent.events s v = .ok [] := by
    simp [FunctionComponent.events, FunctionComponent.candidate?, hkind]
  refine ⟨classes, hevents ▸ hclasses, fun id hbefore =>
    ⟨(exportAliases s (visits s.root)).lookup id, ?_⟩⟩
  have hcomponents : componentEvents config s (before ++ v :: after) =
      componentEvents config s before ++ (classes ++ componentEvents config s after) := by
    simp [componentEvents, hfunctions, hclasses, Except.toOption]
  rw [hdefined, firstDefinition?_componentEvents hwalk, hvisits, hcomponents,
    firstDefinition?_append, firstDefinition?_append, hbefore, Option.none_or]

/-- A class component has the references of what its instances render exactly if the last member
that renders is no static method, or one with the same references. A member with another name that
holds a template is recorded as a component of its own, and so is a getter, setter or property
`render` that is no function of the instances; a static method `render` is not. -/
theorem members_scanSource (hs : Session.ofSource path source = .ok s)
    (h : scanSource config path source repo = .ok r)
    (hvisits : visits s.root = before ++ v :: after) (hclass : componentName? config s v = some name) :
    (firstDefinition? (componentEvents config s before) (s.identityNamed name) = none →
      ∃ c, r.defined? (s.identityNamed name) = some c ∧ c.name = name ∧
        c.sourceLocation = s.location v.node.span ∧
        (references s (classRender? v.node.classMembers) = .ok c.referencedComponents ↔
          ∀ member body, lastRendered? v.node.classMembers = some member →
            staticRender? member = some body →
            references s (some body) = references s (classRender? v.node.classMembers))) ∧
    ∀ key, firstDefinition? (componentEvents config s before)
        (memberIdentity (s.identityNamed name) key) = none →
      (∀ earlier member later root, v.node.classMembers = earlier ++ member :: later →
        helper? member = some (key, root) → containsTemplate root = true →
        staticRender? member = none →
        (∀ member' ∈ earlier, ∀ root', recorded? member' ≠ some (key, root')) →
        ∃ c, r.defined? (memberIdentity (s.identityNamed name) key) = some c ∧
          c.name = s!"{name}.{key}" ∧ c.sourceLocation = s.location member.span ∧
          references s (some root) = .ok c.referencedComponents) ∧
      ((∀ member ∈ v.node.classMembers, ∀ root, recorded? member ≠ some (key, root)) →
        ((r.defined? (memberIdentity (s.identityNamed name) key)).isSome ↔
          (firstDefinition? (componentEvents config s after)
            (memberIdentity (s.identityNamed name) key)).isSome)) := by
  obtain ⟨classes, hclasses, hdefined⟩ := exists_classEvents_of_scanSource hs h hvisits hclass
  obtain ⟨hkind, hname, -⟩ := of_componentName? hclass
  simp only [ClassComponent.classEvents, ok_bind_iff, ok_pure_iff] at hclasses
  obtain ⟨id, hid, ⟨found, events⟩, hmembers, rfl⟩ := hclasses
  obtain ⟨ident, hident, htext⟩ := Option.bind_eq_some_iff.1 hname
  obtain ⟨rfl, -⟩ := exists_boundName (.inr hkind) hident htext hid
  have hfound : references s (v.node.classMembers.reverse.findSome? rendered?) = .ok found := by
    have hlast := references_membersEvents hmembers
    revert hlast
    cases v.node.classMembers.reverse.findSome? rendered? with
    | none => exact fun hlast => congrArg Except.ok hlast.symm
    | some body => exact fun hlast => hlast
  have hself (c : DefinedComponent) :
      firstDefinition? [.define (s.identityNamed name) c] (s.identityNamed name) = some c :=
    List.lookup_cons_self
  have hother (key : String) (c : DefinedComponent) : firstDefinition?
      [.define (s.identityNamed name) c] (memberIdentity (s.identityNamed name) key) = none :=
    firstDefinition?_eq_none fun c' hmem => by
      have heq := (Event.define.inj (List.mem_singleton.1 hmem)).1
      exact memberIdentity_ne heq
  refine ⟨fun hbefore => ?_, fun key hbefore => ⟨?_, ?_⟩⟩
  · have hnone : firstDefinition? events (s.identityNamed name) = none :=
      firstDefinition?_eq_none fun c hmem => by
        obtain ⟨_, _, _, _, _, heq⟩ := exists_recorded_of_define_mem hmembers hmem
        exact memberIdentity_ne heq.symm
    obtain ⟨exported, hrecord⟩ := hdefined _ hbefore
    rw [firstDefinition?_append, hnone, Option.none_or, hself, Option.some_or, Option.map_some]
      at hrecord
    refine ⟨_, hrecord, rfl, rfl, ?_⟩
    change references s (classRender? v.node.classMembers) = .ok found ↔ _
    constructor
    · intro hrender member body hlast hstatic
      rw [findSome?_rendered?_of_lastRendered? hlast, rendered?, hstatic, Option.some_or] at hfound
      rw [hfound, hrender]
    · intro hlast
      rcases findSome?_rendered?_cases v.node.classMembers with heq | ⟨member, body, hmember, hstatic⟩
      · rwa [heq] at hfound
      · rw [← hlast member body hmember hstatic, ← hfound,
          findSome?_rendered?_of_lastRendered? hmember, rendered?, hstatic, Option.some_or]
  · intro earlier member later root hlist hhelper htemplate hstatic hfirst
    rw [hlist] at hmembers
    obtain ⟨ids, hids, hdefinition⟩ := firstDefinition?_membersEvents hmembers
      (recorded?_eq_some.2 ⟨hstatic, hhelper, htemplate⟩) hfirst
    obtain ⟨exported, hrecord⟩ := hdefined _ hbefore
    rw [firstDefinition?_append, hdefinition, Option.some_or, Option.some_or, Option.map_some]
      at hrecord
    exact ⟨_, hrecord, rfl, rfl, hids⟩
  · intro hnone
    have hnone : firstDefinition? events (memberIdentity (s.identityNamed name) key) = none :=
      firstDefinition?_eq_none fun c hmem => by
        obtain ⟨member, hmember, key', root, hrecorded, heq⟩ :=
          exists_recorded_of_define_mem hmembers hmem
        cases memberIdentity_inj heq
        exact hnone member hmember root hrecorded
    obtain ⟨exported, hrecord⟩ := hdefined _ hbefore
    rw [firstDefinition?_append, hnone, Option.none_or, hother, Option.none_or] at hrecord
    rw [hrecord, Option.isSome_map]

/-- A class has a static method beside the one that its instances render. -/
def twoRenders : String :=
  "export class Foo extends Component \x7b\n" ++
    "  render() \x7b return <A/>; \x7d\n" ++
    "  static render() \x7b return <B/>; \x7d\n" ++
    "  header() \x7b return <C/>; \x7d\n\x7d\n"

def twoRendersSession : Session :=
  ((Session.ofSource "a.tsx" twoRenders).toOption).getD default

/-- The declaration of the class. -/
def twoRendersClass : Visit :=
  (visits twoRendersSession.root).getD 1 default

def twoRendersReport : ScanReport :=
  ((scanSource {} "a.tsx" twoRenders .placeholder).toOption).getD default

/-- The static method is not recorded, and its references have become those of the class. -/
theorem members_scanSource_twoRenders :
    Session.ofSource "a.tsx" twoRenders = .ok twoRendersSession ∧
      scanSource {} "a.tsx" twoRenders .placeholder = .ok twoRendersReport ∧
      ∃ v ∈ visits twoRendersSession.root,
        componentName? {} twoRendersSession v = some "Foo" ∧
        (∃ c, twoRendersReport.defined? "a.tsx:Foo" = some c ∧
          references twoRendersSession (classRender? v.node.classMembers) ≠
            .ok c.referencedComponents) ∧
        (∃ member ∈ v.node.classMembers, ∃ root, helper? member = some ("render", root) ∧
          containsTemplate root = true) ∧
        twoRendersReport.defined? "a.tsx:Foo.render()" = none ∧
        ∃ c, twoRendersReport.defined? "a.tsx:Foo.header()" = some c ∧ c.name = "Foo.header" ∧
          c.referencedComponents = ["a.tsx:C"] := by
  have htext : twoRenders.toList = _ :=
    toList_append_of (toList_append_of (toList_append_of String.toList_ofList String.toList_ofList)
      String.toList_ofList) String.toList_ofList
  obtain ⟨hs, hr, hlength, hclass, hid, hbefore, hbehind, hmembers, hlast, hrender, hstatic,
      hheader, hrecorded, hearlier⟩ :
      (Session.ofSource "a.tsx" twoRenders).toOption.isSome = true ∧
      (scanSource {} "a.tsx" twoRenders .placeholder).toOption.isSome = true ∧
      1 < (visits twoRendersSession.root).length ∧
      componentName? {} twoRendersSession twoRendersClass = some "Foo" ∧
      twoRendersSession.identityNamed "Foo" = "a.tsx:Foo" ∧
      componentEvents {} twoRendersSession ((visits twoRendersSession.root).take 1) = [] ∧
      (firstDefinition? (componentEvents {} twoRendersSession
        ((visits twoRendersSession.root).drop 2)) "a.tsx:Foo.render()").isSome = false ∧
      2 < twoRendersClass.node.classMembers.length ∧
      ((lastRendered? twoRendersClass.node.classMembers).bind staticRender?).map
        (fun body => references twoRendersSession (some body)) = some (.ok ["a.tsx:B"]) ∧
      references twoRendersSession (classRender? twoRendersClass.node.classMembers) =
        .ok ["a.tsx:A"] ∧
      (helper? (twoRendersClass.node.classMembers.getD 1 default)).map
        (fun (key, root) => (key, containsTemplate root)) = some ("render", true) ∧
      ((helper? (twoRendersClass.node.classMembers.getD 2 default)).map fun (key, root) =>
        (key, containsTemplate root, (staticRender?
          (twoRendersClass.node.classMembers.getD 2 default)).isNone,
          references twoRendersSession (some root))) =
        some ("header", true, true, .ok ["a.tsx:C"]) ∧
      (twoRendersClass.node.classMembers.all fun m => (recorded? m).all (·.1 != "render")) = true ∧
      ((twoRendersClass.node.classMembers.take 2).all fun m => (recorded? m).isNone) = true := by
    rw [twoRendersClass, twoRendersSession, scanSource_eq_bind, Session.ofSource, htext]
    decide +kernel
  replace hs : Session.ofSource "a.tsx" twoRenders = .ok twoRendersSession := eq_ok_getD hs
  replace hr : scanSource {} "a.tsx" twoRenders .placeholder = .ok twoRendersReport :=
    eq_ok_getD hr
  have hvisits := (List.take_append_drop 1 (visits twoRendersSession.root)).symm
  rw [drop_eq_getD_cons hlength, ← twoRendersClass] at hvisits
  obtain ⟨hown, hkeys⟩ := members_scanSource hs hr hvisits hclass
  rw [hbefore, hid] at hown hkeys
  have hmem {i : Nat} (hi : i < twoRendersClass.node.classMembers.length) :
      twoRendersClass.node.classMembers.getD i default ∈ twoRendersClass.node.classMembers := by
    rw [List.getD_eq_getElem?_getD, List.getElem?_eq_getElem hi, Option.getD_some]
    exact List.getElem_mem hi
  refine ⟨hs, hr, twoRendersClass, hvisits ▸ List.mem_append_right _ List.mem_cons_self, hclass,
    ?_, ?_, ?_, ?_⟩
  · obtain ⟨c, hc, -, -, hiff⟩ := hown rfl
    obtain ⟨body, hbody, hreferences⟩ := Option.map_eq_some_iff.1 hlast
    obtain ⟨member, hmember, hbody⟩ := Option.bind_eq_some_iff.1 hbody
    refine ⟨c, hc, fun heq => ?_⟩
    have hsame := hiff.1 heq member body hmember hbody
    rw [hreferences, hrender] at hsame
    exact absurd hsame (by decide)
  · obtain ⟨⟨key, root⟩, hhelper, heq⟩ := Option.map_eq_some_iff.1 hstatic
    simp only [Prod.mk.injEq] at heq
    exact ⟨_, hmem (by omega), root, heq.1 ▸ hhelper, heq.2⟩
  · have hnone := (hkeys "render" rfl).2 fun member hmember root heq => by
      simpa [heq] using List.all_eq_true.1 hrecorded member hmember
    rw [show memberIdentity "a.tsx:Foo" "render" = "a.tsx:Foo.render()" from rfl, hbehind] at hnone
    exact Option.not_isSome_iff_eq_none.1 fun hsome => Bool.false_ne_true (hnone.1 hsome)
  · obtain ⟨⟨key, root⟩, hhelper, heq⟩ := Option.map_eq_some_iff.1 hheader
    simp only [Prod.mk.injEq, Option.isNone_iff_eq_none] at heq
    obtain ⟨rfl, htemplate, hinstance, hreferences⟩ := heq
    have hlist := (List.take_append_drop 2 twoRendersClass.node.classMembers).symm
    rw [drop_eq_getD_cons hmembers] at hlist
    obtain ⟨c, hc, hname, -, hids⟩ := (hkeys "header" rfl).1 _ _ _ root hlist hhelper htemplate
      hinstance fun member hmember root' heq => by
        simpa [heq] using List.all_eq_true.1 hearlier member hmember
    rw [hreferences] at hids
    exact ⟨c, hc, hname, (Except.ok.inj hids).symm⟩

end

end ComponentScan
