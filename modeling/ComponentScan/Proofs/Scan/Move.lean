import ComponentScan.Proofs.Scan.Traces
import ComponentScan.Proofs.Session.Move
import Mathlib.Data.List.Forall2

/-!
# Scans of moved sessions

If detectors read the same names in a session and in another one that is the first one moved, then
they do the same in both (`Session.IsMoved.agree_events`): the components have the same identities,
are exported alike, and annotations stand at corresponding nodes.
-/

namespace ComponentScan

open Syntax Template

/-- Events of a session and of the moved session that differ by what does not decide about
identities and exports. -/
inductive Event.Moved (f : Nat → Nat) : Event → Event → Prop
  | define {id : Identity} {c c' : DefinedComponent} (h : c'.exportedAs = c.exportedAs) :
    Moved f (.define id c) (.define id c')
  | reference (id : Identity) (c c' : ReferencedComponent) :
    Moved f (.reference id c) (.reference id c')
  | annotate (a a' : Annotation) : Moved f (.annotate a) (.annotate a')
  | claim (offset : Nat) : Moved f (.claim offset) (.claim (f offset))
  | alias (id : Identity) (exported : String) : Moved f (.alias id exported) (.alias id exported)

/-- The names that detectors read off the text are the same in a moved session. -/
structure Session.KeepsNames (config : Config) (f : Nat → Nat) (s s' : Session) : Prop where
  base : ∀ n ∈ s.root.nodes, ∀ b ∈ n.superClass?,
    (⟨config.componentBaseClasses⟩ : PrintedNames).matchesText (s'.printCompact (b.move f)) =
      (⟨config.componentBaseClasses⟩ : PrintedNames).matchesText (s.printCompact b)
  wrapper : ∀ n ∈ s.root.nodes,
    LazyComponent.isWrapper ⟨config.lazyLoadCallees⟩ s' (n.move f) =
      LazyComponent.isWrapper ⟨config.lazyLoadCallees⟩ s n
  tagName : ∀ n ∈ s.root.nodes, n.kind = .jsxOpeningElement → ∀ name ∈ n.children.head?,
    s'.textAt (name.span.move f) = s.textAt name.span

variable {config : Config} {f : Nat → Nat} {s s' : Session}

/-! ## Templates -/

@[simp] theorem containsTemplate_move (n : Node) :
    containsTemplate (n.move f) = containsTemplate n := by
  simp [containsTemplate, Function.comp_def]

theorem memberRoot?_move (n : Node) :
    memberRoot? (n.move f) = (memberRoot? n).map (Node.move f) := by
  induction n using Node.induction with
  | h kind span children ih =>
    rw [Node.move_mk]
    cases kind with
    | jsxMemberExpression =>
      match children, ih with
      | [], _ => rfl
      | object :: _, ih => exact ih object List.mem_cons_self
    | identifierReference name => simp [memberRoot?]
    | _ => rfl

theorem attributeComponent?_move (n : Node) :
    attributeComponent? (n.move f) = (attributeComponent? n).map (Node.move f) := by
  obtain ⟨kind, span, children⟩ := n
  rw [Node.move_mk]
  cases kind with
  | jsxAttribute =>
    match children with
    | [] => rfl
    | [⟨kind, _, _⟩] => cases kind <;> rfl
    | ⟨kind, _, _⟩ :: ⟨kind', _, children⟩ :: _ :: _ =>
      cases kind with
      | jsxIdentifier name =>
        cases kind' with
        | jsxExpressionContainer => match children with
          | [] | [_] | _ :: _ :: _ => rfl
        | _ => rfl
      | _ => rfl
    | [⟨kind, _, _⟩, ⟨kind', _, children⟩] =>
      cases kind with
      | jsxIdentifier name =>
        cases kind' with
        | jsxExpressionContainer =>
          match children with
          | [] | _ :: _ :: _ => rfl
          | [value] =>
            simp only [List.map_cons, List.map_nil, Node.move_mk, attributeComponent?,
              Node.kind_move]
            split
            · split <;> rfl
            · rfl
        | _ => rfl
      | _ => rfl
  | _ => rfl

@[simp] theorem nameOr_move (otherwise : String) (n : Option Node) :
    nameOr otherwise (n.map (Node.move f)) = nameOr otherwise n := by
  cases n <;> simp [nameOr]

/-- Whether mentions are of the same components. -/
def Template.SameIdentities (ms ms' : List Mention) : Prop :=
  List.Forall₂ (fun m m' => m'.1 = m.1) ms ms'

namespace Template.SameIdentities

variable {ms ms' : List Mention}

theorem identities_eq (h : SameIdentities ms ms') (found : List Identity) :
    identities found ms' = identities found ms := by
  have hmap : ms'.map (·.1) = ms.map (·.1) := by
    induction h with
    | nil => rfl
    | cons hfirst _ ih => rw [List.map_cons, List.map_cons, hfirst, ih]
  rw [identities, identities, hmap]

theorem moved_events (h : SameIdentities ms ms') :
    List.Forall₂ (Event.Moved f) (ms.map Mention.event) (ms'.map Mention.event) := by
  rw [List.forall₂_map_left_iff, List.forall₂_map_right_iff]
  refine List.Forall₂.imp (fun m m' hm => ?_) h
  rw [Mention.event, Mention.event, hm]
  exact .reference m.1 m.2 m'.2

end Template.SameIdentities

namespace Session.IsMoved

theorem mention_move (h : s.IsMoved f s') (ident : Option Node) (name suffix : String) :
    (mention s' (ident.map (Node.move f)) name suffix).1 = (mention s ident name suffix).1 := by
  unfold mention
  cases ident with
  | none => simp [h.path]
  | some n =>
    simp only [Option.map_some, Option.bind_some, h.symbolAt?_move]
    cases s.symbolAt? n with
    | none => simp [h.path]
    | some symbol => simp [h.identityOf_move]

theorem agree_tagMention? (h : s.IsMoved f s') {name : Node}
    (htext : s'.textAt (name.span.move f) = s.textAt name.span) :
    Agree (fun m m' => m'.map (·.1) = m.map (·.1)) (tagMention? s name)
      (tagMention? s' (name.move f)) := by
  have hcompact : s'.printCompact (name.move f) = s.printCompact name := by
    rw [printCompact, printCompact, Node.span_move, htext]
  have hprint : s'.print (name.move f) = s.print name := by
    rw [print, print, Node.span_move, htext]
  unfold tagMention?
  rw [Node.kind_move]
  split
  · next text _ =>
    have hmention := h.mention_move (some name) text ""
    refine .ok ?_
    split
    · exact congrArg some hmention
    · rfl
  · next text _ =>
    have hmention := h.mention_move none text ""
    refine .ok ?_
    split
    · exact congrArg some hmention
    · rfl
  · rw [hcompact, memberRoot?_move]
    refine .ok ?_
    dsimp only
    split
    · cases memberRoot? name with
      | some root =>
        simp only [Option.map_some]
        rw [show nameOr "" (some (root.move f)) = nameOr "" (some root) from
          nameOr_move "" (some root)]
        exact congrArg some (h.mention_move (some root) _ _)
      | none => exact congrArg some (h.mention_move none _ _)
    · rfl
  · rw [hprint]
    dsimp only
    split
    · exact .error _ _
    · exact .ok rfl
  · exact .ok rfl

theorem sameIdentities_attributeMentions (h : s.IsMoved f s') (n : Node) :
    SameIdentities (attributeMentions s n) (attributeMentions s' (n.move f)) := by
  have hvalues : (n.move f).children.filterMap attributeComponent? =
      (n.children.filterMap attributeComponent?).map (Node.move f) := by
    rw [Node.children_move, List.filterMap_map, List.map_filterMap]
    exact List.filterMap_congr fun c _ => attributeComponent?_move c
  rw [attributeMentions, attributeMentions, hvalues, SameIdentities, List.map_map,
    List.forall₂_map_left_iff, List.forall₂_map_right_iff, List.forall₂_same]
  intro value _
  have hname : nameOr "" (some (value.move f)) = nameOr "" (some value) :=
    nameOr_move "" (some value)
  rw [Function.comp_apply, hname]
  exact h.mention_move (some value) _ _

theorem agree_nodeMentions (h : s.IsMoved f s') (hkeeps : s.KeepsNames config f s') {n : Node}
    (hn : n ∈ s.root.nodes) :
    Agree SameIdentities (nodeMentions s n) (nodeMentions s' (n.move f)) := by
  have hattributes := h.sameIdentities_attributeMentions n
  unfold nodeMentions
  rw [Node.kind_move]
  split
  · next hkind =>
    rw [Node.children_move, List.head?_map]
    cases hname : n.children.head? with
    | none => exact .ok hattributes
    | some name =>
      have htext := hkeeps.tagName n hn hkind name hname
      refine (h.agree_tagMention? htext).map fun m m' hm => ?_
      refine List.rel_append ?_ hattributes
      cases m <;> cases m' <;> simp_all
  · exact .ok .nil

theorem agree_allMentions (h : s.IsMoved f s') (hkeeps : s.KeepsNames config f s') {ns : List Node}
    (hns : ∀ n ∈ ns, n ∈ s.root.nodes) :
    Agree SameIdentities (allMentions s ns) (allMentions s' (ns.map (Node.move f))) := by
  induction ns with
  | nil => exact .ok .nil
  | cons n ns ih =>
    obtain ⟨hn, hns⟩ := List.forall_mem_cons.1 hns
    refine (h.agree_nodeMentions hkeeps hn).bind fun first first' hfirst => ?_
    exact (ih hns).bind fun others others' hothers => .ok (List.rel_append hfirst hothers)

theorem agree_mentions (h : s.IsMoved f s') (hkeeps : s.KeepsNames config f s') {body : Node}
    (hbody : body ∈ s.root.nodes) :
    Agree SameIdentities (mentions s body) (mentions s' (body.move f)) := by
  rw [mentions, mentions, descendants_move]
  exact h.agree_allMentions hkeeps fun n hn =>
    Node.nodes_subset hbody (List.mem_cons_of_mem _ hn)

end Session.IsMoved

/-! ## Defined components -/

def Placement.move (f : Nat → Nat) : Placement → Placement
  | nested => nested
  | topLevel => topLevel
  | namedExport start => namedExport (f start)
  | defaultExport start => defaultExport (f start)

namespace Placement

variable (p : Placement)

@[simp] theorem isTopLevel_move : (p.move f).isTopLevel = p.isTopLevel := by
  cases p <;> rfl

@[simp] theorem exportedAs?_move (name : String) :
    (p.move f).exportedAs? name = p.exportedAs? name := by
  cases p <;> rfl

@[simp] theorem docAnchor_move (start : Nat) : (p.move f).docAnchor (f start) = f (p.docAnchor start) := by
  cases p <;> rfl

@[simp] theorem ofContainers_move (containers : List Node) :
    ofContainers (containers.map (Node.move f)) = (ofContainers containers).move f := by
  unfold ofContainers
  rw [← List.map_reverse]
  match containers.reverse with
  | [] => rfl
  | [⟨kind, _, _⟩] =>
    rw [List.map_singleton, Node.move_mk]
    cases kind <;> rfl
  | ⟨kind, _, _⟩ :: ⟨kind', _, _⟩ :: _ =>
    simp only [List.map_cons, Node.move_mk]
    cases kind with
    | exportNamedDeclaration => cases kind' <;> rfl
    | exportDefaultDeclaration => cases kind' <;> rfl
    | _ => rfl

end Placement

def Candidate.move (f : Nat → Nat) (c : Candidate) : Candidate :=
  ⟨c.name, c.declaration.move f, c.placement.move f, f c.docAnchor⟩

theorem exportedAs_component_move (c : Candidate) (references references' : List Identity) :
    ((c.move f).component s' references').exportedAs = (c.component s references).exportedAs :=
  c.placement.exportedAs?_move c.name

namespace FunctionComponent

@[simp] theorem expressionBody?_move (e : Node) :
    expressionBody? (e.move f) = (expressionBody? e).map (Node.move f) := by
  unfold expressionBody?
  rw [Node.kind_move]
  split <;> simp

/-- A candidate and its body, moved. -/
def moveCandidate (f : Nat → Nat) (e : Candidate × Node) : Candidate × Node :=
  (e.1.move f, e.2.move f)

theorem candidate?_move (v : Visit) :
    candidate? (v.move f) = (candidate? v).map (moveCandidate f) := by
  unfold candidate?
  rw [Visit.node_move, Node.kind_move]
  split
  · unfold ofFunction?
    simp only [Visit.node_move, Visit.ancestors_move, Node.id?_move, Node.functionBody?_move,
      Placement.ofContainers_move, Node.start_move, Placement.docAnchor_move]
    cases v.node.id? with
    | none => rfl
    | some id =>
      simp only [Option.map_some, Option.bind_some, Node.text?_move]
      cases id.text? <;> cases v.node.functionBody? <;> rfl
  · unfold ofVariable?
    have hplacement : Placement.ofContainers (v.ancestors.map (Node.move f)).dropLast =
        (Placement.ofContainers v.ancestors.dropLast).move f := by
      rw [← List.map_dropLast, Placement.ofContainers_move]
    have hlist : (v.parent?.map (Node.move f)).filter (·.kind.isVariableDeclaration) =
        (v.parent?.filter (·.kind.isVariableDeclaration)).map (Node.move f) := by
      simp only [Option.filter_map, Function.comp_def, Node.kind_move]
    simp only [Visit.node_move, Visit.ancestors_move, Node.binding?_move, Node.initializer?_move,
      Visit.parent?_move, hlist, hplacement]
    cases v.node.binding? with
    | none => rfl
    | some target =>
      simp only [Option.map_some, Option.bind_some, Node.text?_move]
      cases target.text? with
      | none => rfl
      | some name =>
        cases v.node.initializer? with
        | none => rfl
        | some e =>
          simp only [Option.map_some, Option.bind_some, expressionBody?_move]
          cases expressionBody? e with
          | none => rfl
          | some body =>
            cases v.parent?.filter (·.kind.isVariableDeclaration) with
            | none => rfl
            | some list => simp [moveCandidate, Candidate.move]
  · rfl

theorem mem_nodes_of_expressionBody? {root e body : Node} (he : e ∈ root.nodes)
    (h : expressionBody? e = some body) : body ∈ root.nodes := by
  unfold expressionBody? at h
  split at h
  · exact Node.mem_nodes_of_child he (Node.mem_of_child? h)
  · exact Node.mem_nodes_of_child he (Node.mem_of_child? h)
  · cases h

theorem mem_nodes_of_candidate? {root : Node} {v : Visit} (hv : v.IsIn root) {c : Candidate}
    {body : Node} (h : candidate? v = some (c, body)) : body ∈ root.nodes := by
  unfold candidate? at h
  split at h
  · obtain ⟨_, -, body, hbody, h⟩ := by simpa only [ofFunction?, Option.bind_eq_bind,
      Option.bind_eq_some_iff] using h
    cases h
    exact Node.mem_nodes_of_child hv.node (Node.mem_of_child? hbody)
  · obtain ⟨_, -, body, ⟨e, he, hbody⟩, list, -, h⟩ := by simpa only [ofVariable?,
      Option.bind_eq_bind, Option.bind_eq_some_iff] using h
    cases h
    exact mem_nodes_of_expressionBody?
      (Node.mem_nodes_of_child hv.node (Node.mem_of_initializer? he)) hbody
  · cases h

end FunctionComponent

namespace Session.IsMoved

theorem agree_functionComponent (h : s.IsMoved f s') (hkeeps : s.KeepsNames config f s') {v : Visit}
    (hv : v.IsIn s.root) :
    Agree (List.Forall₂ (Event.Moved f)) (FunctionComponent.events s v)
      (FunctionComponent.events s' (v.move f)) := by
  unfold FunctionComponent.events
  rw [FunctionComponent.candidate?_move]
  cases hcandidate : FunctionComponent.candidate? v with
  | none => exact .ok .nil
  | some e =>
    obtain ⟨candidate, body⟩ := e
    have hbody := FunctionComponent.mem_nodes_of_candidate? hv hcandidate
    simp only [Option.map_some, FunctionComponent.moveCandidate, containsTemplate_move]
    have htop : (candidate.move f).placement.isTopLevel = candidate.placement.isTopLevel :=
      candidate.placement.isTopLevel_move
    rw [htop]
    split
    · refine (h.agree_identify candidate.declaration).bind fun id id' hid => ?_
      subst hid
      refine (h.agree_mentions hkeeps hbody).bind fun ms ms' hms => .ok ?_
      refine List.rel_append hms.moved_events (.cons (.define ?_) .nil)
      exact exportedAs_component_move candidate _ _
    · exact .ok .nil

end Session.IsMoved

namespace ClassComponent

def MemberPart.move (f : Nat → Nat) : MemberPart → MemberPart
  | render body => render (body.move f)
  | helper name root => helper name (root.move f)

/-- The node of a part. -/
def MemberPart.node : MemberPart → Node
  | render body => body
  | helper _ root => root

@[simp] theorem memberName?_move (key : Node) : memberName? (key.move f) = memberName? key := by
  unfold memberName?
  rw [Node.kind_move]

theorem methodPart?_move (role : MethodRole) (name : String) (n : Node) :
    methodPart? role name (n.move f) = (methodPart? role name n).map (MemberPart.move f) := by
  unfold methodPart?
  rw [Node.memberValue?_move]
  cases n.memberValue? with
  | none => rfl
  | some value =>
    simp only [Option.map_some, Option.bind_eq_bind, Option.bind_some, Node.functionBody?_move]
    cases value.functionBody? with
    | none => rfl
    | some body =>
      simp only [Option.map_some, Option.bind_some]
      cases role with
      | constructor => rfl
      | method =>
        dsimp only
        split <;> rfl
      | getter => rfl
      | setter => rfl

theorem propertyPart?_move (isStatic : Bool) (name : String) (n : Node) :
    propertyPart? isStatic name (n.move f) =
      (propertyPart? isStatic name n).map (MemberPart.move f) := by
  unfold propertyPart?
  rw [Node.memberValue?_move]
  cases n.memberValue? with
  | none => rfl
  | some value =>
    simp only [Option.map_some, Option.bind_eq_bind, Option.bind_some,
      FunctionComponent.expressionBody?_move]
    cases FunctionComponent.expressionBody? value with
    | none => rfl
    | some body =>
      simp only [Option.map_some]
      split <;> rfl

theorem memberPart?_move (n : Node) :
    memberPart? (n.move f) = (memberPart? n).map (MemberPart.move f) := by
  unfold memberPart?
  rw [Node.memberKey?_move, Node.kind_move]
  cases n.memberKey? with
  | none => rfl
  | some key =>
    simp only [Option.map_some, Option.bind_eq_bind, Option.bind_some, memberName?_move]
    cases memberName? key with
    | none => rfl
    | some name =>
      simp only [Option.bind_some]
      split
      · exact methodPart?_move _ _ _
      · exact propertyPart?_move _ _ _
      · rfl

theorem mem_nodes_of_memberPart? {root n : Node} (hn : n ∈ root.nodes) {part : MemberPart}
    (h : memberPart? n = some part) : part.node ∈ root.nodes := by
  simp only [memberPart?, Option.bind_eq_bind, Option.bind_eq_some_iff] at h
  obtain ⟨name, -, h⟩ := h
  split at h
  · simp only [methodPart?, Option.bind_eq_bind, Option.bind_eq_some_iff] at h
    obtain ⟨value, hvalue, body, hbody, h⟩ := h
    have hmem : body ∈ root.nodes := Node.mem_nodes_of_child
      (Node.mem_nodes_of_child hn (Node.mem_of_memberValue? hvalue)) (Node.mem_of_child? hbody)
    split at h
    · cases h
    · split at h <;> cases h <;> exact hmem
    · cases h
      exact hmem
    · cases h
      exact hmem
  · simp only [propertyPart?, Option.bind_eq_bind, Option.bind_eq_some_iff] at h
    obtain ⟨value, hvalue, h⟩ := h
    have hmem := Node.mem_nodes_of_child hn (Node.mem_of_memberValue? hvalue)
    split at h
    · next body hbody =>
      split at h <;> cases h
      · exact FunctionComponent.mem_nodes_of_expressionBody? hmem hbody
      · exact hmem
    · cases h
      exact hmem
  · cases h

end ClassComponent

namespace Session.IsMoved

open ClassComponent

theorem agree_memberEvents (h : s.IsMoved f s') (hkeeps : s.KeepsNames config f s')
    (className : String) (owner : Identity) {n : Node} (hn : n ∈ s.root.nodes) :
    Agree (fun x y => y.1 = x.1 ∧ List.Forall₂ (Event.Moved f) x.2 y.2)
      (memberEvents s className owner n) (memberEvents s' className owner (n.move f)) := by
  unfold memberEvents
  rw [memberPart?_move]
  cases hpart : memberPart? n with
  | none => exact .ok ⟨rfl, .nil⟩
  | some part =>
    have hmem := mem_nodes_of_memberPart? hn hpart
    cases part with
    | render body =>
      refine (h.agree_mentions hkeeps hmem).map fun ms ms' hms => ⟨?_, hms.moved_events⟩
      exact congrArg some (hms.identities_eq [])
    | helper name root =>
      simp only [Option.map_some, MemberPart.move, containsTemplate_move]
      split
      · refine (h.agree_mentions hkeeps hmem).map fun ms ms' hms => ⟨rfl, ?_⟩
        exact List.rel_append hms.moved_events (.cons (.define rfl) .nil)
      · exact .ok ⟨rfl, .nil⟩

theorem agree_membersEvents (h : s.IsMoved f s') (hkeeps : s.KeepsNames config f s')
    (className : String) (owner : Identity) {members : List Node}
    (hmembers : ∀ m ∈ members, m ∈ s.root.nodes) (references : List Identity) :
    Agree (fun x y => y.1 = x.1 ∧ List.Forall₂ (Event.Moved f) x.2 y.2)
      (membersEvents s className owner references members)
      (membersEvents s' className owner references (members.map (Node.move f))) := by
  induction members generalizing references with
  | nil => exact .ok ⟨rfl, .nil⟩
  | cons m members ih =>
    obtain ⟨hm, hmembers⟩ := List.forall_mem_cons.1 hmembers
    refine (h.agree_memberEvents hkeeps className owner hm).bind fun x y hxy => ?_
    obtain ⟨hown, hfirst⟩ := hxy
    dsimp only
    rw [hown]
    refine (ih hmembers _).bind fun x' y' hxy' => .ok ⟨hxy'.1, ?_⟩
    exact List.rel_append hfirst hxy'.2

theorem agree_classEvents (h : s.IsMoved f s') (hkeeps : s.KeepsNames config f s') {v : Visit}
    (hv : v.IsIn s.root) (name : String) :
    Agree (List.Forall₂ (Event.Moved f)) (classEvents s v name) (classEvents s' (v.move f) name) := by
  unfold classEvents
  rw [Visit.node_move, Node.classMembers_move]
  refine (h.agree_identify v.node).bind fun id id' hid => ?_
  subst hid
  have hmembers := h.agree_membersEvents hkeeps name id
    (fun m hm => Node.mem_nodes_of_classMember hv.node hm) []
  refine hmembers.bind fun x y hxy => .ok (List.rel_append hxy.2 (.cons (.define ?_) .nil))
  simp [Candidate.component]

theorem agree_classComponent (h : s.IsMoved f s') (hkeeps : s.KeepsNames config f s') {v : Visit}
    (hv : v.IsIn s.root) :
    Agree (List.Forall₂ (Event.Moved f)) (ClassComponent.events config s v)
      (ClassComponent.events config s' (v.move f)) := by
  have hname : (v.node.move f).id?.bind Node.text? = v.node.id?.bind Node.text? := by
    rw [Node.id?_move]
    cases v.node.id? <;> simp
  unfold ClassComponent.events
  rw [Visit.node_move, hname, Node.kind_move, Node.superClass?_move]
  cases v.node.kind with
  | classNode declares =>
    cases declares with
    | false => exact .ok .nil
    | true =>
      cases v.node.id?.bind Node.text? with
      | none => exact .ok .nil
      | some name =>
        cases hbase : v.node.superClass? with
        | none => exact .ok .nil
        | some base =>
          simp only [Option.map_some, hkeeps.base _ hv.node base hbase]
          split
          · exact h.agree_classEvents hkeeps hv name
          · exact .ok .nil
  | _ => exact .ok .nil

/-! ## Deferred components -/

theorem aboveWrapper?_move (hkeeps : s.KeepsNames config f s') {ancestors : List Node}
    (hancestors : ∀ n ∈ ancestors, n ∈ s.root.nodes) :
    LazyComponent.aboveWrapper? ⟨config.lazyLoadCallees⟩ s' (ancestors.map (Node.move f)) =
      (LazyComponent.aboveWrapper? ⟨config.lazyLoadCallees⟩ s ancestors).map
        (List.map (Node.move f)) := by
  have hdrop (l : List Node) (hl : ∀ n ∈ l, n ∈ s.root.nodes) :
      (l.map (Node.move f)).dropWhile (!LazyComponent.isWrapper ⟨config.lazyLoadCallees⟩ s' ·) =
        (l.dropWhile (!LazyComponent.isWrapper ⟨config.lazyLoadCallees⟩ s ·)).map (Node.move f) := by
    induction l with
    | nil => rfl
    | cons n l ih =>
      obtain ⟨hn, hl⟩ := List.forall_mem_cons.1 hl
      simp only [List.map_cons, List.dropWhile_cons, hkeeps.wrapper n hn, ih hl]
      split <;> rfl
  unfold LazyComponent.aboveWrapper?
  rw [← List.map_reverse, hdrop _ fun n hn => hancestors n (List.mem_reverse.1 hn)]
  cases ancestors.reverse.dropWhile (!LazyComponent.isWrapper ⟨config.lazyLoadCallees⟩ s ·) <;> rfl

theorem agree_lazyComponent (h : s.IsMoved f s') (hkeeps : s.KeepsNames config f s') {v : Visit}
    (hv : v.IsIn s.root) :
    Agree (List.Forall₂ (Event.Moved f)) (LazyComponent.events config s v)
      (LazyComponent.events config s' (v.move f)) := by
  unfold LazyComponent.events
  rw [Visit.node_move, Node.kind_move, Visit.ancestors_move, aboveWrapper?_move hkeeps hv.ancestors]
  cases v.node.kind with
  | importExpression =>
    cases LazyComponent.aboveWrapper? ⟨config.lazyLoadCallees⟩ s v.ancestors with
    | none => exact .ok .nil
    | some above =>
      simp only [Option.map_some, Option.bind_some, List.find?_map, Function.comp_def,
        Node.kind_move]
      cases above.find? (·.kind.isVariableDeclarator) with
      | none => exact .ok .nil
      | some declarator =>
        refine (h.agree_identify declarator).map fun id id' hid => ?_
        subst hid
        exact .cons (.reference id _ _) .nil
  | _ => exact .ok .nil

/-! ## Export aliases -/

theorem aliasEvent?_move (h : s.IsMoved f s') (name : Node) (exported : String) :
    ExportAlias.aliasEvent? s' (name.move f) exported = ExportAlias.aliasEvent? s name exported := by
  unfold ExportAlias.aliasEvent?
  rw [Node.kind_move, h.symbolAt?_move]
  cases name.kind with
  | identifierReference =>
    cases s.symbolAt? name with
    | none => rfl
    | some symbol => simp only [Option.map_some, h.identityOf_move]
  | _ => rfl

theorem exportedNames_move (n : Node) :
    ExportAlias.exportedNames (n.move f) =
      (ExportAlias.exportedNames n).map fun e => (e.1.move f, e.2) := by
  unfold ExportAlias.exportedNames
  rw [Node.kind_move, Node.children_move]
  cases n.kind with
  | exportNamedDeclaration =>
    have hsource : ExportAlias.hasSource (n.children.map (Node.move f)) =
        ExportAlias.hasSource n.children := by
      simp only [ExportAlias.hasSource, List.any_map, Function.comp_def, Node.kind_move]
    dsimp only
    rw [hsource]
    split
    · rfl
    rw [List.filterMap_map, List.map_filterMap]
    refine List.filterMap_congr fun spec _ => ?_
    rw [Function.comp_apply, Node.kind_move, Node.children_move]
    cases spec.kind with
    | exportSpecifier =>
      match spec.children with
      | [name, exported] =>
        have hname : nameOr "" (some (exported.move f)) = nameOr "" (some exported) :=
          nameOr_move "" (some exported)
        simp only [List.map_cons, List.map_nil, hname, Option.map_some]
      | [] | [_] | _ :: _ :: _ :: _ => rfl
    | _ => rfl
  | exportDefaultDeclaration =>
    match n.children with
    | [] | [_] | _ :: _ :: _ => rfl
  | _ => rfl

theorem events_exportAlias_move (h : s.IsMoved f s') (n : Node) :
    ExportAlias.events s' (n.move f) = ExportAlias.events s n := by
  rw [ExportAlias.events, ExportAlias.events, exportedNames_move, List.flatMap_map]
  exact List.flatMap_congr fun e _ => congrArg Option.toList (h.aliasEvent?_move e.1 e.2)

theorem moved_exportAlias (h : s.IsMoved f s') (n : Node) :
    List.Forall₂ (Event.Moved f) (ExportAlias.events s n) (ExportAlias.events s' (n.move f)) := by
  rw [h.events_exportAlias_move, List.forall₂_same]
  intro e he
  obtain ⟨x, -, he⟩ := List.mem_flatMap.1 he
  replace he : ExportAlias.aliasEvent? s x.1 x.2 = some e := Option.mem_toList.1 he
  unfold ExportAlias.aliasEvent? at he
  split at he
  · cases he
    exact .alias _ _
  · cases he

end Session.IsMoved

/-! ## Annotations -/

namespace AnnotationTags

def Target.move (f : Nat → Nat) : Target → Target
  | declaration n => declaration (n.move f)
  | member name => member name

theorem isDeclaration_move (n : Node) : isDeclaration (n.move f) = isDeclaration n := by
  simp only [isDeclaration, Node.kind_move]

theorem isNamedDeclaration_move (n : Node) :
    isNamedDeclaration (n.move f) = isNamedDeclaration n := by
  simp only [isNamedDeclaration, Node.kind_move, Node.id?_move, Option.isSome_map]

theorem targetOf?_move (n : Node) : targetOf? (n.move f) = (targetOf? n).map (Target.move f) := by
  have hfind (p : Node → Bool) (hp : ∀ c : Node, p (c.move f) = p c) :
      ((n.move f).children.find? p).map Target.declaration =
        ((n.children.find? p).map Target.declaration).map (Target.move f) := by
    rw [Node.children_move, List.find?_map, show p ∘ Node.move f = p from funext hp]
    cases n.children.find? p <;> rfl
  have hmember : ((n.move f).memberKey?.bind memberName?).map Target.member =
      ((n.memberKey?.bind memberName?).map Target.member).map (Target.move f) := by
    rw [Node.memberKey?_move]
    cases n.memberKey? with
    | none => rfl
    | some key =>
      simp only [Option.map_some, Option.bind_some, ClassComponent.memberName?_move]
      cases memberName? key <;> rfl
  unfold targetOf?
  rw [Node.kind_move, isDeclaration_move]
  split
  · exact hfind _ isDeclaration_move
  · exact hfind _ isNamedDeclaration_move
  · exact hmember
  · exact hmember
  · split <;> rfl

theorem classOwner?_move (ancestors : List Node) :
    classOwner? (ancestors.map (Node.move f)) = (classOwner? ancestors).map (Node.move f) := by
  induction ancestors with
  | nil => rfl
  | cons n above ih =>
    simp only [List.map_cons, classOwner?, Node.kind_move, Node.id?_move, Option.isSome_map, ih]
    split
    · split <;> rfl
    · rw [List.head?_map, Option.filter_map]
      have hbound (p : Node) : (p.move f).binding?.any (·.kind.isBindingIdentifier) =
          p.binding?.any (·.kind.isBindingIdentifier) := by
        rw [Node.binding?_move]
        cases p.binding? <;> simp
      simp only [Function.comp_def, Node.kind_move, hbound]
    · rfl

end AnnotationTags

namespace Session.IsMoved

open AnnotationTags

theorem agree_targetIdentity? (h : s.IsMoved f s') (v : Visit) (target : Target) :
    Agree Eq (targetIdentity? s v target) (targetIdentity? s' (v.move f) (target.move f)) := by
  cases target with
  | declaration n => exact (h.agree_identify n).map fun _ _ hid => congrArg some hid
  | member name =>
    simp only [Target.move, targetIdentity?, Visit.ancestors_move, ← List.map_reverse,
      classOwner?_move]
    cases classOwner? v.ancestors.reverse with
    | none => exact .ok rfl
    | some owner =>
      refine (h.agree_identify owner).map fun id id' hid => ?_
      rw [hid]

/-- Whether comments say the same but for the texts of their tags. -/
def SameDoc (doc doc' : DocComment) : Prop :=
  doc'.description = doc.description ∧ List.Forall₂ (fun t t' => t'.name = t.name) doc.tags doc'.tags

theorem moved_annotation? {doc doc' : DocComment} {tag tag' : DocTag} (hdoc : SameDoc doc doc')
    (htag : tag'.name = tag.name) (parent : Identity) :
    List.Forall₂ (Event.Moved f) ((annotation? config s doc parent tag).toList.map .annotate)
      ((annotation? config s' doc' parent tag').toList.map .annotate) := by
  unfold annotation?
  rw [htag, hdoc.1]
  split
  · split
    · exact .nil
    · exact .cons (.annotate _ _) .nil
  · split
    · exact .cons (.annotate _ _) .nil
    · exact .nil

theorem moved_docEvents {docs docs' : List DocComment} (hdocs : List.Forall₂ SameDoc docs docs')
    (parent : Identity) :
    List.Forall₂ (Event.Moved f) (docEvents config s docs parent)
      (docEvents config s' docs' parent) := by
  unfold docEvents
  refine List.rel_flatMap hdocs fun doc doc' hdoc => ?_
  exact List.rel_flatMap hdoc.2 fun tag tag' htag => moved_annotation? hdoc htag parent

theorem agree_annotationTags (h : s.IsMoved f s')
    (hdocs : ∀ o, List.Forall₂ SameDoc (s.docsAt o) (s'.docsAt (f o))) (claimed : List Nat)
    (v : Visit) :
    Agree (List.Forall₂ (Event.Moved f)) (AnnotationTags.events config s claimed v)
      (AnnotationTags.events config s' (claimed.map f) (v.move f)) := by
  have hanchor := hdocs v.node.start
  have hempty : (s'.docsAt (f v.node.start)).isEmpty = (s.docsAt v.node.start).isEmpty := by
    rw [Bool.eq_iff_iff, List.isEmpty_iff_length_eq_zero, List.isEmpty_iff_length_eq_zero,
      hanchor.length_eq]
  have hclaimed : (claimed.map f).contains (f v.node.start) = claimed.contains v.node.start := by
    rw [Bool.eq_iff_iff, List.contains_iff_mem, List.contains_iff_mem,
      List.mem_map_of_injective h.injective]
  unfold AnnotationTags.events
  simp only [Visit.node_move, Node.start_move, hempty, hclaimed, targetOf?_move]
  split
  · exact .ok .nil
  · cases targetOf? v.node with
    | none => exact .ok .nil
    | some target =>
      refine (h.agree_targetIdentity? v target).map fun parent parent' hparent => ?_
      subst hparent
      refine .cons (.claim _) ?_
      cases parent with
      | none => exact .nil
      | some parent =>
        simp only [Option.toList_some, List.flatMap_singleton]
        exact moved_docEvents hanchor parent

/-! ## The walk -/

theorem agree_concatEvents {xs ys : List (Except ScanError (List Event))}
    (hxs : List.Forall₂ (Agree (List.Forall₂ (Event.Moved f))) xs ys) :
    Agree (List.Forall₂ (Event.Moved f)) (concatEvents xs) (concatEvents ys) := by
  induction hxs with
  | nil => exact .ok .nil
  | cons hx _ ih =>
    refine hx.bind fun first first' hfirst => ?_
    exact ih.bind fun others others' hothers => .ok (List.rel_append hfirst hothers)

theorem claimed?_of_moved {events events' : List Event}
    (hevents : List.Forall₂ (Event.Moved f) events events') :
    events'.filterMap Event.claimed? = (events.filterMap Event.claimed?).map f := by
  induction hevents with
  | nil => rfl
  | cons hfirst _ ih =>
    cases hfirst with
    | claim offset => exact congrArg (f offset :: ·) ih
    | _ => exact ih

theorem agree_walkEvents (h : s.IsMoved f s') (hkeeps : s.KeepsNames config f s')
    (hdocs : ∀ o, List.Forall₂ SameDoc (s.docsAt o) (s'.docsAt (f o))) {vs : List Visit}
    (hvs : ∀ v ∈ vs, v.IsIn s.root) (claimed : List Nat) :
    Agree (List.Forall₂ (Event.Moved f)) (walkEvents config s claimed vs)
      (walkEvents config s' (claimed.map f) (vs.map (Visit.move f))) := by
  induction vs generalizing claimed with
  | nil => exact .ok .nil
  | cons v vs ih =>
    obtain ⟨hv, hvs⟩ := List.forall_mem_cons.1 hvs
    have hvisit : Agree (List.Forall₂ (Event.Moved f)) (visitEvents config s claimed v)
        (visitEvents config s' (claimed.map f) (v.move f)) :=
      agree_concatEvents <| .cons (h.agree_functionComponent hkeeps hv) <|
        .cons (h.agree_classComponent hkeeps hv) <| .cons (h.agree_lazyComponent hkeeps hv) <|
        .cons (.ok (h.moved_exportAlias v.node)) <|
        .cons (h.agree_annotationTags hdocs claimed v) .nil
    refine hvisit.bind fun first first' hfirst => ?_
    dsimp only
    rw [claimed?_of_moved hfirst, ← List.map_reverse, ← List.map_append]
    exact (ih hvs _).bind fun others others' hothers => .ok (List.rel_append hfirst hothers)

/-- Detectors do the same in a session and in the moved session. -/
theorem agree_events (h : s.IsMoved f s') (hkeeps : s.KeepsNames config f s')
    (hdocs : ∀ o, List.Forall₂ SameDoc (s.docsAt o) (s'.docsAt (f o))) :
    Agree (List.Forall₂ (Event.Moved f)) (s.events config) (s'.events config) := by
  rw [Session.events, Session.events, h.root, visits_move]
  exact h.agree_walkEvents hkeeps hdocs (fun _ hv => isIn_of_mem_visits hv) []

end Session.IsMoved

end ComponentScan
