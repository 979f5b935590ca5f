import ComponentScan.Proofs.Scan.Members
import ComponentScan.Proofs.Scan.Move
import ComponentScan.Proofs.Scan.Order
import ComponentScan.Proofs.Session.Parsed
import ComponentScan.Proofs.Syntax.Decidable

/-!
# Failures of the detection of components

If all names that a file binds have symbols, the detectors of components fail for two reasons only:
a tag with a namespace and an upper-case letter in front, somewhere in what is searched for the
templates of a component, and an import that is deferred by a variable with a pattern in the place
of its name. The first node at which there is such a reason gives the error (`detect_error_iff`).

Which part of a component is searched depends on how it is written: the body of a function, of a
method or of an accessor, and the whole value of a property, unless it is a function that instances
render. Parameters of methods are not searched (`detect_parameterTag`).
-/

namespace ComponentScan

open Syntax Template

/-! ## Errors of several steps -/

theorem error?_concatEvents (xs : List (Except ScanError (List Event))) :
    error? (concatEvents xs) = xs.findSome? error? := by
  induction xs with
  | nil => rfl
  | cons x rest ih =>
    rw [concatEvents, error?_bind fun _ _ => (error?_bind_pure _ _).trans ih, List.findSome?_cons]
    cases error? x <;> rfl

namespace Template

/-! ## Tags with namespaces -/

/-- Whether the name of a tag has a namespace and starts with an upper-case letter. -/
def isNamespaced (s : Session) (name : Node) : Bool :=
  match name.kind with
  | .jsxNamespacedName => Text.startsUppercase (s.print name).toList
  | _ => false

/-- The name of an opening tag, if it has a namespace and starts with an upper-case letter. -/
def namespacedTag? (s : Session) (n : Node) : Option Node :=
  match n.kind with
  | .jsxOpeningElement => n.children.head?.filter (isNamespaced s)
  | _ => none

/-- The name of the first such tag below a node. -/
def firstNamespacedTag? (s : Session) (root : Node) : Option Node :=
  (descendants root).findSome? (namespacedTag? s)

/-- The error for the name of a tag with a namespace. -/
def namespacedTagError (s : Session) (name : Node) : ScanError :=
  .unexpectedShape "JSXNamespacedName" (s.print name)
    "component tag name must be an identifier or member expression"

section

variable {s : Session} {root : Node}

theorem error?_tagMention? (s : Session) (name : Node) :
    error? (tagMention? s name) =
      if isNamespaced s name then some (namespacedTagError s name) else none := by
  unfold tagMention? isNamespaced
  split
  · next hkind =>
    rw [hkind]
    rfl
  · next hkind =>
    rw [hkind]
    rfl
  · next hkind =>
    rw [hkind]
    rfl
  · next hkind =>
    simp only [hkind]
    split <;> rfl
  · next hkind =>
    split
    · exact absurd ‹_› hkind
    · rfl

theorem error?_nodeMentions (s : Session) (n : Node) :
    error? (nodeMentions s n) = (namespacedTag? s n).map (namespacedTagError s) := by
  by_cases hkind : n.kind = .jsxOpeningElement
  · unfold nodeMentions namespacedTag?
    rw [hkind]
    dsimp only
    cases n.children.head? with
    | none => rfl
    | some name =>
      dsimp only
      rw [error?_map, error?_tagMention?, Option.filter_some]
      split <;> rfl
  · have hmentions : nodeMentions s n = .ok [] := by
      unfold nodeMentions
      split
      · exact absurd ‹_› hkind
      · rfl
    have htag : namespacedTag? s n = none := by
      unfold namespacedTag?
      split
      · exact absurd ‹_› hkind
      · rfl
    rw [hmentions, htag]
    rfl

theorem error?_allMentions (s : Session) (nodes : List Node) :
    error? (allMentions s nodes) =
      (nodes.findSome? (namespacedTag? s)).map (namespacedTagError s) := by
  induction nodes with
  | nil => rfl
  | cons n rest ih =>
    rw [allMentions, error?_bind fun _ _ => (error?_bind_pure _ _).trans ih, error?_nodeMentions,
      List.findSome?_cons]
    cases namespacedTag? s n <;> rfl

theorem error?_mentions (s : Session) (root : Node) :
    error? (mentions s root) = (firstNamespacedTag? s root).map (namespacedTagError s) :=
  error?_allMentions s (descendants root)

/-- Where there is no element, there is no tag. -/
theorem firstNamespacedTag?_eq_none (hfits : ∀ n ∈ root.nodes, n.Fits)
    (h : ¬ containsTemplate root = true) : firstNamespacedTag? s root = none := by
  refine List.findSome?_eq_none_iff.2 fun n hn => ?_
  unfold namespacedTag?
  split
  · next hopening =>
    obtain ⟨p, hp, hchild⟩ := Node.exists_parent_of_mem_descendants hn
    have helement := (hfits p hp).opening n hchild hopening
    have htemplate : p.kind.isTemplate = true := by
      rw [helement]
      rfl
    refine absurd ?_ h
    unfold containsTemplate
    rcases List.mem_cons.1 hp with rfl | hp
    · rw [htemplate, Bool.true_or]
    · rw [List.any_eq_true.2 ⟨p, hp, htemplate⟩, Bool.or_true]
  · rfl

end

end Template

/-! ## Identities that are missing -/

section

variable {s : Session} {n child : Node}

/-- A node whose name has a symbol is identified. -/
theorem error?_identify_of_nameBearer? (hchild : nameBearer? n = some child)
    (hsymbol : (s.symbolAt? child).isSome = true) : error? (s.identify n) = none := by
  obtain ⟨symbol, hsymbol⟩ := Option.isSome_iff_exists.1 hsymbol
  unfold Session.identify Session.identifyWithin
  cases s.symbolAt? n with
  | some symbol => rfl
  | none =>
    rw [hchild]
    dsimp only
    unfold Session.identifyWithin
    rw [hsymbol]
    rfl

/-- The error for a node that no rule names. -/
def namelessError (s : Session) (n : Node) : ScanError :=
  .unresolvableIdentity (s.nodeName n) (s.print n)

theorem error?_identify_of_nameless (hsymbol : s.symbolAt? n = none)
    (hchild : nameBearer? n = none) : error? (s.identify n) = some (namelessError s n) := by
  unfold Session.identify Session.identifyWithin
  rw [hsymbol, hchild]
  rfl

end

/-- Whether all names that are bound in a file have symbols. -/
def Session.BindsSymbols (s : Session) : Prop :=
  ∀ n ∈ s.root.nodes, n.kind.isBindingIdentifier = true → (s.symbolAt? n).isSome = true

instance (s : Session) : Decidable s.BindsSymbols :=
  inferInstanceAs (Decidable (∀ n ∈ s.root.nodes, n.kind.isBindingIdentifier = true →
    (s.symbolAt? n).isSome = true))

section

variable {config : Config} {s : Session} {v : Visit}

theorem error?_identify_of_id? (hsymbols : s.BindsSymbols) {n ident : Node}
    (hn : n ∈ s.root.nodes) (hkind : n.kind = .function true ∨ n.kind = .classNode true)
    (hident : n.id? = some ident) : error? (s.identify n) = none := by
  have hbearer : nameBearer? n = some ident := by
    unfold nameBearer?
    rcases hkind with hkind | hkind <;> rwa [hkind]
  exact error?_identify_of_nameBearer? hbearer (hsymbols ident
    (Node.mem_nodes_of_child hn (Node.mem_of_child? hident)) (isBindingIdentifier_of_id? hident))

/-- Whether a variable declarator has a pattern in the place of a name. -/
def bindsPattern (declarator : Node) : Bool :=
  match declarator.binding?.map Node.kind with
  | some .objectPattern | some .arrayPattern => true
  | _ => false

/-- A variable is identified unless there is a pattern in the place of its name. -/
theorem error?_identify_of_declarator (hsymbols : s.BindsSymbols) {d : Node}
    (hd : d ∈ s.root.nodes) (hfits : d.Fits) (hkind : d.kind = .variableDeclarator) :
    error? (s.identify d) = if bindsPattern d then some (namelessError s d) else none := by
  obtain ⟨b, hb, hbinding⟩ := hfits.declarator hkind
  have hbearer : nameBearer? d = (some b).filter (·.kind.isBindingIdentifier) := by
    unfold nameBearer?
    rw [hkind, ← hb]
  have hsymbol : s.symbolAt? d = none := by
    unfold Session.symbolAt?
    rw [hkind]
  have hnameless (hpattern : b.kind.isBindingIdentifier = false) :
      error? (s.identify d) = some (namelessError s d) := by
    refine error?_identify_of_nameless hsymbol (hbearer.trans ?_)
    rw [Option.filter_some, hpattern]
    rfl
  unfold bindsPattern
  rw [hb, Option.map_some]
  unfold Kind.isBinding at hbinding
  split at hbinding
  · next name hname =>
    have hidentifier : b.kind.isBindingIdentifier = true := by
      rw [hname]
      rfl
    rw [Option.filter_some, if_pos hidentifier] at hbearer
    rw [hname]
    exact error?_identify_of_nameBearer? hbearer
      (hsymbols b (Node.mem_nodes_of_child hd (List.mem_of_mem_head? hb)) hidentifier)
  · next hpattern =>
    rw [hpattern]
    exact hnameless (by rw [hpattern]; rfl)
  · next hpattern =>
    rw [hpattern]
    exact hnameless (by rw [hpattern]; rfl)
  · cases hbinding

/-! ## Functions -/

namespace FunctionComponent

/-- The body of a function that may be a component, if it is at the top level. -/
def searchedParts (v : Visit) : List Node :=
  match candidate? v with
  | some (candidate, body) => if candidate.placement.isTopLevel then [body] else []
  | none => []

theorem error?_identify_of_candidate? (hfits : ∀ n ∈ s.root.nodes, n.Fits)
    (hsymbols : s.BindsSymbols) (hv : v.IsIn s.root) {candidate : Candidate} {body : Node}
    (h : candidate? v = some (candidate, body)) :
    error? (s.identify candidate.declaration) = none := by
  rw [declaration_of_candidate? h]
  unfold candidate? at h
  split at h
  · next hkind =>
    simp only [ofFunction?, Option.bind_eq_bind, Option.bind_eq_some_iff] at h
    obtain ⟨name, ⟨ident, hident, -⟩, -⟩ := h
    exact error?_identify_of_id? hsymbols hv.node (.inl hkind) hident
  · next hkind =>
    simp only [ofVariable?, Option.bind_eq_bind, Option.bind_eq_some_iff] at h
    obtain ⟨name, ⟨b, hb, hname⟩, -⟩ := h
    rw [error?_identify_of_declarator hsymbols hv.node (hfits _ hv.node) hkind]
    -- A pattern has no text.
    have hpattern : bindsPattern v.node = false := by
      unfold bindsPattern
      rw [hb, Option.map_some]
      unfold Node.text? at hname
      split
      · next hkind => cases (Option.some.inj hkind) ▸ hname
      · next hkind => cases (Option.some.inj hkind) ▸ hname
      · rfl
    rw [hpattern]
    rfl
  · cases h

theorem error?_events (hfits : ∀ n ∈ s.root.nodes, n.Fits) (hsymbols : s.BindsSymbols)
    (hv : v.IsIn s.root) :
    error? (FunctionComponent.events s v) =
      ((searchedParts v).findSome? (firstNamespacedTag? s)).map (namespacedTagError s) := by
  unfold FunctionComponent.events searchedParts
  cases hcandidate : candidate? v with
  | none => rfl
  | some found =>
    obtain ⟨candidate, body⟩ := found
    have hid := error?_identify_of_candidate? hfits hsymbols hv hcandidate
    have hbody := mem_nodes_of_candidate? hv hcandidate
    dsimp only
    cases candidate.placement.isTopLevel with
    | false => rfl
    | true =>
      rw [Bool.true_and, if_pos rfl, List.findSome?_singleton]
      split
      · rw [error?_bind fun _ _ => error?_bind_pure _ _, hid, Option.none_or, error?_mentions]
      · next htemplate =>
        rw [firstNamespacedTag?_eq_none (fun n hn => hfits n (Node.nodes_subset hbody hn))
          htemplate]
        rfl

end FunctionComponent

/-! ## Classes -/

namespace ClassComponent

/-- What is searched of a member with a name: what instances render, or else the body of a method
that is not the constructor, or the value of a property. -/
def searchedPart? (member : Node) : Option Node :=
  if (name? member).isSome then (instanceRender? member).or (content? member) else none

/-- The searched parts of the members of a class component. -/
def searchedParts (config : Config) (s : Session) (v : Visit) : List Node :=
  if (componentName? config s v).isSome then v.node.classMembers.filterMap searchedPart? else []

theorem of_staticRender? {member body : Node} (h : staticRender? member = some body) :
    content? member = some body ∧ instanceRender? member = none := by
  unfold staticRender? at h
  split at h
  · next hname =>
    split at h
    · next hkind =>
      refine ⟨h, ?_⟩
      unfold instanceRender?
      rw [if_pos hname, hkind]
    · cases h
  · cases h

theorem searchedPart?_eq (member : Node) :
    searchedPart? member = (memberPart? member).map MemberPart.node := by
  rw [memberPart?_eq]
  unfold searchedPart? helper?
  cases hname : name? member with
  | none => simp [staticRender?, instanceRender?, hname]
  | some name =>
    cases hstatic : staticRender? member with
    | some body =>
      obtain ⟨hcontent, hinstance⟩ := of_staticRender? hstatic
      rw [hinstance, hcontent]
      rfl
    | none =>
      cases hinstance : instanceRender? member with
      | some body => rfl
      | none => cases content? member <;> rfl

theorem error?_memberEvents (hfits : ∀ n ∈ s.root.nodes, n.Fits) {member : Node}
    (hmember : member ∈ s.root.nodes) (className : String) (owner : Identity) :
    error? (memberEvents s className owner member) =
      ((searchedPart? member).bind (firstNamespacedTag? s)).map (namespacedTagError s) := by
  rw [searchedPart?_eq]
  unfold memberEvents
  cases hpart : memberPart? member with
  | none => rfl
  | some part =>
    have hnode := mem_nodes_of_memberPart? hmember hpart
    cases part with
    | render body => exact (error?_map _ _).trans (error?_mentions s body)
    | helper name root =>
      dsimp only
      split
      · exact (error?_map _ _).trans (error?_mentions s root)
      · next htemplate =>
        have hnone : firstNamespacedTag? s root = none :=
          firstNamespacedTag?_eq_none (fun n hn => hfits n (Node.nodes_subset hnode hn)) htemplate
        change none = (firstNamespacedTag? s root).map (namespacedTagError s)
        rw [hnone]
        rfl

theorem error?_membersEvents (hfits : ∀ n ∈ s.root.nodes, n.Fits) {members : List Node}
    (hmembers : ∀ member ∈ members, member ∈ s.root.nodes) (className : String)
    (owner : Identity) (references : List Identity) :
    error? (membersEvents s className owner references members) =
      ((members.filterMap searchedPart?).findSome? (firstNamespacedTag? s)).map
        (namespacedTagError s) := by
  induction members generalizing references with
  | nil => rfl
  | cons member rest ih =>
    obtain ⟨hmember, hrest⟩ := List.forall_mem_cons.1 hmembers
    rw [membersEvents, error?_bind fun _ _ => (error?_bind_pure _ _).trans (ih hrest _),
      error?_memberEvents hfits hmember, List.filterMap_cons]
    cases searchedPart? member with
    | none => rfl
    | some part =>
      rw [Option.bind_some]
      dsimp only
      rw [List.findSome?_cons]
      cases firstNamespacedTag? s part <;> rfl

theorem error?_events (hfits : ∀ n ∈ s.root.nodes, n.Fits) (hsymbols : s.BindsSymbols)
    (hv : v.IsIn s.root) :
    error? (ClassComponent.events config s v) =
      ((searchedParts config s v).findSome? (firstNamespacedTag? s)).map
        (namespacedTagError s) := by
  unfold searchedParts
  rw [events_eq]
  cases hclass : componentName? config s v with
  | none => rfl
  | some name =>
    obtain ⟨hkind, hname, -⟩ := of_componentName? hclass
    obtain ⟨ident, hident, -⟩ := Option.bind_eq_some_iff.1 hname
    have hmembers := error?_membersEvents hfits
      (fun _ hm => Node.mem_nodes_of_classMember hv.node hm) name
    dsimp only [Option.isSome_some]
    rw [classEvents, error?_bind fun id _ => (error?_bind_pure _ _).trans (hmembers id []),
      error?_identify_of_id? hsymbols hv.node (.inr hkind) hident, Option.none_or, if_pos rfl]

end ClassComponent

/-! ## Imports -/

namespace LazyComponent

theorem aboveWrapper?_eq_some_iff {wrappers : PrintedNames} {ancestors above : List Node} :
    aboveWrapper? wrappers s ancestors = some above ↔
      ∃ call inner, ancestors = above.reverse ++ call :: inner ∧
        isWrapper wrappers s call = true ∧ ∀ n ∈ inner, isWrapper wrappers s n = false := by
  unfold aboveWrapper?
  constructor
  · intro h
    split at h
    · next call _ hdrop =>
      cases h
      have hsplit := List.takeWhile_append_dropWhile (p := (!isWrapper wrappers s ·))
        (l := ancestors.reverse)
      have hhead := List.head?_dropWhile_not (!isWrapper wrappers s ·) ancestors.reverse
      rw [hdrop] at hsplit hhead
      refine ⟨call, (ancestors.reverse.takeWhile (!isWrapper wrappers s ·)).reverse, ?_, ?_, ?_⟩
      · simpa using (congrArg List.reverse hsplit).symm
      · simpa using hhead
      · intro n hn
        simpa using List.all_eq_true.1 List.all_takeWhile n (List.mem_reverse.1 hn)
    · cases h
  · rintro ⟨call, inner, rfl, hcall, hinner⟩
    have hreverse : (above.reverse ++ call :: inner).reverse = inner.reverse ++ call :: above := by
      simp
    have hskip : ∀ n ∈ inner.reverse, (!isWrapper wrappers s n) = true := fun n hn => by
      simpa using hinner n (List.mem_reverse.1 hn)
    rw [hreverse, List.dropWhile_append_of_pos hskip,
      List.dropWhile_cons_of_neg (by simpa using hcall)]

/-- Whether a declarator with a pattern is the nearest one around the innermost call of a wrapper
around a dynamic import. -/
def DefersPattern (config : Config) (s : Session) (v : Visit) (declarator : Node) : Prop :=
  v.node.kind = .importExpression ∧ declarator.kind = .variableDeclarator ∧
    bindsPattern declarator = true ∧
    ∃ outer between call inner, v.ancestors = outer ++ declarator :: (between ++ call :: inner) ∧
      (∀ n ∈ between, n.kind ≠ .variableDeclarator) ∧
      isWrapper ⟨config.lazyLoadCallees⟩ s call = true ∧
      ∀ n ∈ inner, isWrapper ⟨config.lazyLoadCallees⟩ s n = false

theorem isVariableDeclarator_iff {kind : Kind} :
    kind.isVariableDeclarator = true ↔ kind = .variableDeclarator := by
  cases kind <;> simp [Kind.isVariableDeclarator]

theorem deferred?_eq_some_iff {d : Node} :
    deferred? config s v = some d ↔ d.kind = .variableDeclarator ∧
      ∃ outer between call inner, v.ancestors = outer ++ d :: (between ++ call :: inner) ∧
        (∀ n ∈ between, n.kind ≠ .variableDeclarator) ∧
        isWrapper ⟨config.lazyLoadCallees⟩ s call = true ∧
        ∀ n ∈ inner, isWrapper ⟨config.lazyLoadCallees⟩ s n = false := by
  unfold deferred?
  simp only [Option.bind_eq_some_iff, aboveWrapper?_eq_some_iff, List.find?_eq_some_iff_append,
    Bool.not_eq_true', ← Bool.not_eq_true, isVariableDeclarator_iff]
  constructor
  · rintro ⟨above, ⟨call, inner, hancestors, hcall, hinner⟩, hkind, between, outer, rfl, hbetween⟩
    refine ⟨hkind, outer.reverse, between.reverse, call, inner, ?_, ?_, hcall, hinner⟩
    · simpa using hancestors
    · exact fun n hn => hbetween n (List.mem_reverse.1 hn)
  · rintro ⟨hkind, outer, between, call, inner, hancestors, hbetween, hcall, hinner⟩
    refine ⟨between.reverse ++ d :: outer.reverse, ⟨call, inner, ?_, hcall, hinner⟩, hkind,
      between.reverse, outer.reverse, rfl, fun n hn => hbetween n (List.mem_reverse.1 hn)⟩
    simpa using hancestors

/-- The declarator with a pattern that defers a dynamic import. -/
def deferredPattern? (config : Config) (s : Session) (v : Visit) : Option Node :=
  match v.node.kind with
  | .importExpression => (deferred? config s v).filter bindsPattern
  | _ => none

theorem deferredPattern?_eq_some_iff {d : Node} :
    deferredPattern? config s v = some d ↔ DefersPattern config s v d := by
  unfold deferredPattern? DefersPattern
  split
  · next hkind =>
    rw [Option.filter_eq_some_iff, deferred?_eq_some_iff]
    constructor
    · rintro ⟨⟨hd, hplace⟩, hpattern⟩
      exact ⟨hkind, hd, hpattern, hplace⟩
    · rintro ⟨-, hd, hpattern, hplace⟩
      exact ⟨⟨hd, hplace⟩, hpattern⟩
  · next hkind => exact iff_of_false (Option.some_ne_none d).symm fun h => hkind h.1

theorem error?_events (hfits : ∀ n ∈ s.root.nodes, n.Fits) (hsymbols : s.BindsSymbols)
    (hv : v.IsIn s.root) :
    error? (LazyComponent.events config s v) =
      (deferredPattern? config s v).map (namelessError s) := by
  by_cases hkind : v.node.kind = .importExpression
  · unfold LazyComponent.events deferredPattern?
    rw [hkind, ← deferred?]
    dsimp only
    cases hdeferred : deferred? config s v with
    | none => rfl
    | some d =>
      obtain ⟨hmem, hd⟩ := mem_ancestors_of_deferred? hdeferred
      have hmem := hv.ancestors d hmem
      dsimp only
      rw [error?_map, error?_identify_of_declarator hsymbols hmem (hfits d hmem) hd,
        Option.filter_some]
      split <;> rfl
  · have hevents : LazyComponent.events config s v = .ok [] := by
      unfold LazyComponent.events
      split
      · exact absurd ‹_› hkind
      · rfl
    have hpattern : deferredPattern? config s v = none := by
      unfold deferredPattern?
      split
      · exact absurd ‹_› hkind
      · rfl
    rw [hevents, hpattern]
    rfl

end LazyComponent

/-! ## Nodes -/

/-- The nodes that are searched for the templates of a component at a node. -/
def searchedParts (config : Config) (s : Session) (v : Visit) : List Node :=
  FunctionComponent.searchedParts v ++ ClassComponent.searchedParts config s v

/-- Whether there is a tag with a namespace, and an upper-case letter in front, in what is searched
at a node. -/
def HoldsNamespacedTag (config : Config) (s : Session) (v : Visit) : Prop :=
  ∃ part ∈ searchedParts config s v, ∃ tag ∈ descendants part, (namespacedTag? s tag).isSome = true

/-- The first such tag. -/
def namespacedTagOf? (config : Config) (s : Session) (v : Visit) : Option Node :=
  (searchedParts config s v).findSome? (firstNamespacedTag? s)

theorem isSome_namespacedTagOf?_iff :
    (namespacedTagOf? config s v).isSome = true ↔ HoldsNamespacedTag config s v := by
  simp only [namespacedTagOf?, firstNamespacedTag?, List.findSome?_isSome_iff, HoldsNamespacedTag]

/-- The error of the detectors of components at a node. -/
def failure? (config : Config) (s : Session) (v : Visit) : Option ScanError :=
  ((namespacedTagOf? config s v).map (namespacedTagError s)).or
    ((LazyComponent.deferredPattern? config s v).map (namelessError s))

theorem isSome_failure?_iff :
    (failure? config s v).isSome = true ↔
      HoldsNamespacedTag config s v ∨ ∃ d, LazyComponent.DefersPattern config s v d := by
  rw [failure?, Option.isSome_or, Bool.or_eq_true, Option.isSome_map, Option.isSome_map,
    isSome_namespacedTagOf?_iff, Option.isSome_iff_exists]
  simp only [LazyComponent.deferredPattern?_eq_some_iff]

/-- Nothing is searched at an import. -/
theorem searchedParts_of_import (hkind : v.node.kind = .importExpression) :
    searchedParts config s v = [] := by
  simp [searchedParts, FunctionComponent.searchedParts, FunctionComponent.candidate?,
    ClassComponent.searchedParts, ClassComponent.componentName?, hkind]

/-- The events of the detectors of components at a node. -/
def componentTrace (config : Config) (s : Session) (v : Visit) : Except ScanError (List Event) :=
  concatEvents [FunctionComponent.events s v, ClassComponent.events config s v,
    LazyComponent.events config s v, .ok (ExportAlias.events s v.node)]

theorem error?_componentTrace (hfits : ∀ n ∈ s.root.nodes, n.Fits) (hsymbols : s.BindsSymbols)
    (hv : v.IsIn s.root) : error? (componentTrace config s v) = failure? config s v := by
  rw [componentTrace, error?_concatEvents, failure?, namespacedTagOf?, searchedParts,
    List.findSome?_append, Option.map_or, ← FunctionComponent.error?_events hfits hsymbols hv,
    ← ClassComponent.error?_events hfits hsymbols hv,
    ← LazyComponent.error?_events hfits hsymbols hv]
  simp only [List.findSome?_cons, List.findSome?_nil]
  cases error? (FunctionComponent.events s v) <;>
    cases error? (ClassComponent.events config s v) <;>
    cases error? (LazyComponent.events config s v) <;> rfl

end

/-! ## Walks -/

namespace Scan

theorem Emits.error?_run {α : Type} {st : ScanState} {m : Scan α} {t : Trace α}
    (h : Emits st m t) : error? (m.run st).1 = error? t := by
  cases t with
  | ok b =>
    obtain ⟨log, hrun⟩ := h.exists_run
    rw [hrun]
    rfl
  | error e =>
    obtain ⟨st', hrun⟩ := h st.report.repo
    replace hrun : m.run st = (.error e, st') := hrun
    rw [hrun]
    rfl

theorem traces_componentDetectors (config : Config) (s : Session) (v : Visit) (indent : Nat) :
    Traces (componentDetectors.forM fun d => d.visit config s v indent)
      ((componentTrace config s v).map fun events => ((), events)) := fun st =>
  (traces_functionComponent s v indent st).andThen fun _ _ _ =>
    (traces_classComponent config s v indent _).andThen fun _ _ _ =>
      (traces_lazyComponent config s v indent _).andThen fun _ _ _ =>
        Emits.andThen (traces_exportAlias s v _) fun _ _ _ => traces_pure () _

/-- The detection of components ends with the error of its walk. -/
theorem error_detect (config : Config) (s : Session) (repo : RepoMetadata)
    (chosen : List Detector) (finish : Bool) :
    (detect config s repo chosen finish).1 =
      error? ((walk s.root 0 (runDetectors config s chosen)).run
        { report := .fresh s.path repo }).1 := by
  unfold detect runScan
  rw [run_bind]
  rcases (walk s.root 0 (runDetectors config s chosen)).run { report := .fresh s.path repo } with
    ⟨_ | _, st⟩
  · rfl
  · cases finish with
    | false => rfl
    | true =>
      have hget (st : ScanState) : (get : Scan ScanState).run st = (.ok st, st) := rfl
      have hown : st.withRepo st.report.repo = st := rfl
      obtain ⟨log, h⟩ := ExportAlias.run_forM_applyAlias st.aliases st
      have hrun := h st.report.repo
      rw [hown] at hrun
      dsimp only
      rw [if_pos rfl, ExportAlias.applyAliases, run_bind, hget]
      dsimp only
      rw [hrun]
      rfl

end Scan

section

open Scan

variable {config : Config} {path source : String} {repo : RepoMetadata} {s : Session}
  {finish : Bool}

/-- Whether a visited node and the node around it fit. -/
structure Visit.Fits (v : Visit) : Prop where
  node : v.node.Fits
  parent : ∃ p, v.parent? = some p ∧ p.Fits ∧ v.node ∈ p.children

/-- The first node at which the detectors of components fail gives the error. -/
theorem error_detect_componentDetectors (hs : Session.ofSource path source = .ok s)
    (hsymbols : s.BindsSymbols) :
    (detect config s repo componentDetectors finish).1 =
      (visits s.root).findSome? (failure? config s) := by
  have hfits := Session.fits hs
  have hcallback : runDetectors config s componentDetectors =
      .ofStep fun v indent => componentDetectors.forM fun d => d.visit config s v indent := rfl
  have htrace := (traces_forVisits (traces_componentDetectors config s) 0 (visits s.root)
    { report := .fresh s.path repo }).error?_run
  have hwalk {m : Scan Unit} {st : ScanState} :
      error? ((m >>= fun _ => return (none : Option Unit)).run st).1 = error? (m.run st).1 := by
    rw [run_bind]
    rcases m.run st with ⟨_ | _, _⟩ <;> rfl
  rw [error_detect, hcallback, walk_ofStep, hwalk, htrace, error?_map, error?_concatEvents,
    List.findSome?_map, ← List.head?_filterMap, ← List.head?_filterMap]
  refine congrArg List.head? (List.filterMap_congr fun v hv => ?_)
  exact error?_componentTrace hfits hsymbols (isIn_of_mem_visits hv)

/-- Let all names that a file binds have symbols. The detection of components fails exactly if there
is a tag with a namespace, and an upper-case letter in front, in what is searched for the templates
of a component, or an import that a declarator with a pattern defers. The first node at which it is
so gives the error: the function or variable, the class, or the import. -/
theorem detect_error_iff (hs : Session.ofSource path source = .ok s) (hsymbols : s.BindsSymbols) :
    ((detect config s repo componentDetectors finish).1.isSome = true ↔
      ∃ v ∈ visits s.root,
        HoldsNamespacedTag config s v ∨ ∃ d, LazyComponent.DefersPattern config s v d) ∧
    ∀ before v after, visits s.root = before ++ v :: after →
      (∀ u ∈ before, ¬ HoldsNamespacedTag config s u ∧
        ∀ d, ¬ LazyComponent.DefersPattern config s u d) →
      (HoldsNamespacedTag config s v → ∃ name, namespacedTagOf? config s v = some name ∧
        (detect config s repo componentDetectors finish).1 = some (namespacedTagError s name) ∧
        (namespacedTagError s name).code = "CC-ERR-SHAPE-001") ∧
      ∀ d, LazyComponent.DefersPattern config s v d →
        (detect config s repo componentDetectors finish).1 = some (namelessError s d) ∧
        (namelessError s d).code = "CC-ERR-IDENTITY-001" := by
  rw [error_detect_componentDetectors hs hsymbols]
  refine ⟨?_, fun before v after hvisits hbefore => ?_⟩
  · simp only [List.findSome?_isSome_iff, isSome_failure?_iff]
  · have hfirst {e : ScanError} (he : failure? config s v = some e) :
        (visits s.root).findSome? (failure? config s) = some e := by
      refine List.findSome?_eq_some_iff.2 ⟨before, v, after, hvisits, he, fun u hu => ?_⟩
      obtain ⟨htag, hpattern⟩ := hbefore u hu
      refine Option.not_isSome_iff_eq_none.1 fun hsome => ?_
      exact (isSome_failure?_iff.1 hsome).elim htag fun ⟨d, hd⟩ => hpattern d hd
    refine ⟨fun hholds => ?_, fun d hd => ⟨hfirst ?_, rfl⟩⟩
    · obtain ⟨name, hname⟩ := Option.isSome_iff_exists.1 (isSome_namespacedTagOf?_iff.2 hholds)
      refine ⟨name, hname, hfirst ?_, rfl⟩
      rw [failure?, hname]
      rfl
    · rw [failure?, namespacedTagOf?, searchedParts_of_import hd.1,
        LazyComponent.deferredPattern?_eq_some_iff.2 hd]
      rfl

/-- A component with a pattern in the place of the name of a deferred module, and a tag with a
namespace behind it. -/
def patternAndTag : String :=
  "export function App() \x7b\n" ++
    "  const \x7b Row \x7d = lazy(() => import(\"./Row\"));\n" ++
    "  return <N:Row/>;\n\x7d\n"

def patternAndTagSession : Session :=
  ((Session.ofSource "a.tsx" patternAndTag).toOption).getD default

/-- The tag gives the error, as the component comes before the import in it. -/
theorem detect_error_iff_patternAndTag :
    Session.ofSource "a.tsx" patternAndTag = .ok patternAndTagSession ∧
      patternAndTagSession.BindsSymbols ∧
      (∃ v ∈ visits patternAndTagSession.root, ∃ d,
        LazyComponent.DefersPattern {} patternAndTagSession v d) ∧
      (detect {} patternAndTagSession .placeholder componentDetectors true).1 =
        some (.unexpectedShape "JSXNamespacedName" "N:Row"
          "component tag name must be an identifier or member expression") := by
  have htext : patternAndTag.toList = _ :=
    toList_append_of (toList_append_of String.toList_ofList String.toList_ofList)
      String.toList_ofList
  obtain ⟨hsome, hsymbols, hpattern, hlength, hbefore, htag⟩ :
      (Session.ofSource "a.tsx" patternAndTag).toOption.isSome = true ∧
      patternAndTagSession.BindsSymbols ∧
      (∃ v ∈ visits patternAndTagSession.root,
        (LazyComponent.deferredPattern? {} patternAndTagSession v).isSome = true) ∧
      1 < (visits patternAndTagSession.root).length ∧
      (∀ u ∈ (visits patternAndTagSession.root).take 1,
        ¬ (failure? {} patternAndTagSession u).isSome = true) ∧
      (namespacedTagOf? {} patternAndTagSession
        ((visits patternAndTagSession.root).getD 1 default)).map patternAndTagSession.print =
          some "N:Row" := by
    rw [patternAndTagSession, Session.ofSource, htext]
    decide +kernel
  have hs : Session.ofSource "a.tsx" patternAndTag = .ok patternAndTagSession := eq_ok_getD hsome
  have hvisits := (List.take_append_drop 1 (visits patternAndTagSession.root)).symm
  rw [drop_eq_getD_cons hlength] at hvisits
  have hfails := @detect_error_iff {} _ _ .placeholder _ true hs hsymbols
  obtain ⟨hfirst, -⟩ := hfails.2 _ _ _ hvisits fun u hu =>
    ⟨fun htag => hbefore u hu (isSome_failure?_iff.2 (.inl htag)),
      fun d hd => hbefore u hu (isSome_failure?_iff.2 (.inr ⟨d, hd⟩))⟩
  obtain ⟨name, hname, hprint⟩ := Option.map_eq_some_iff.1 htag
  obtain ⟨name', hname', herror, -⟩ := hfirst (isSome_namespacedTagOf?_iff.1 (by rw [hname]; rfl))
  cases hname.symm.trans hname'
  refine ⟨hs, hsymbols, ?_, by rw [herror, namespacedTagError, hprint]⟩
  obtain ⟨v, hv, hsome⟩ := hpattern
  obtain ⟨d, hd⟩ := Option.isSome_iff_exists.1 hsome
  exact ⟨v, hv, d, LazyComponent.deferredPattern?_eq_some_iff.1 hd⟩

/-- A tag with a namespace in a parameter of a method. -/
def parameterTag : String :=
  "class Foo extends Component \x7b row(cell = <N:x/>) \x7b return <b/>; \x7d \x7d\n"

def parameterTagSession : Session :=
  ((Session.ofSource "a.tsx" parameterTag).toOption).getD default

/-- A tag inside of a member of a class component need not make the detection fail. -/
theorem detect_parameterTag :
    Session.ofSource "a.tsx" parameterTag = .ok parameterTagSession ∧
      parameterTagSession.BindsSymbols ∧
      (∃ v ∈ visits parameterTagSession.root,
        ClassComponent.componentName? {} parameterTagSession v = some "Foo" ∧
        ∃ member ∈ v.node.classMembers, ClassComponent.name? member = some "row" ∧
          member.kind = .methodDefinition .method false ∧
          ∃ tag ∈ descendants member, (namespacedTag? parameterTagSession tag).isSome = true) ∧
      (detect {} parameterTagSession .placeholder componentDetectors true).1 = none := by
  have htext : parameterTag.toList = _ := String.toList_ofList
  refine And.imp_left eq_ok_getD ?_
  rw [parameterTagSession, Session.ofSource, htext]
  decide +kernel

end

end ComponentScan
