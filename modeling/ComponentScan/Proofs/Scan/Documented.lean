import ComponentScan.Proofs.Scan.Members
import ComponentScan.Proofs.Scan.PlacedTags
import ComponentScan.Proofs.Syntax.Decidable
import Mathlib.Data.List.Perm.Basic

/-!
# Documented declarations

The comments that lead a token are on the outermost declaration or member that starts there
(`Session.targetAt?`), and on nothing if that has no identity. The annotations of a report are made
by the tags of the comments, each comment being taken once, and their parents have the identities
under which the component detectors define them (`annotations_scanSource`).
-/

namespace ComponentScan

open Syntax

/-- A list is put together from the groups of its items by key. -/
theorem perm_flatMap_filter {α κ : Type} [DecidableEq κ] (key : α → κ) {keys : List κ}
    (hkeys : keys.Nodup) {items : List α} (h : ∀ x ∈ items, key x ∈ keys) :
    (keys.flatMap fun k => items.filter fun x => key x == k).Perm items := by
  induction keys generalizing items with
  | nil =>
    cases items with
    | nil => exact .refl _
    | cons x items => cases h x List.mem_cons_self
  | cons k keys ih =>
    obtain ⟨hk, hkeys⟩ := List.nodup_cons.1 hkeys
    have hothers : (keys.flatMap fun k' => items.filter fun x => key x == k') =
        keys.flatMap fun k' => (items.filter fun x => !(key x == k)).filter fun x => key x == k' := by
      refine List.flatMap_congr fun k' hk' => ?_
      rw [List.filter_filter]
      refine List.filter_congr fun x _ => ?_
      by_cases heq : key x = k'
      · have hne : key x ≠ k := fun h => hk (h ▸ heq ▸ hk')
        simp [heq, heq ▸ hne]
      · simp [heq]
    rw [List.flatMap_cons, hothers]
    refine .trans (.append_left _ (ih hkeys fun x hx => ?_)) (List.filter_append_perm _ _)
    obtain ⟨hx, hne⟩ := List.mem_filter.1 hx
    exact (List.mem_cons.1 (h x hx)).resolve_left fun heq => by simp [heq] at hne

/-! ## Targets -/

namespace AnnotationTags

/-- The first of some nodes that starts at an offset and that comments may be on. -/
def firstTarget? (o : Nat) (vs : List Visit) : Option (Visit × Target) :=
  vs.findSome? fun v => if v.node.start = o then (targetOf? v.node).map (v, ·) else none

/-- The identity of the first of some nodes that comments at an offset may be on. -/
def documented? (s : Session) (o : Nat) (vs : List Visit) : Option Identity :=
  (firstTarget? o vs).bind fun (v, target) => (targetIdentity? s v target).toOption.join

section

variable {config : Config} {s : Session} {claimed : List Nat} {v : Visit} {vs : List Visit}
  {o : Nat} {id : Identity} {target : Target}

theorem firstTarget?_cons_of_none (h : v.node.start = o → targetOf? v.node = none) :
    firstTarget? o (v :: vs) = firstTarget? o vs := by
  unfold firstTarget?
  rw [List.findSome?_cons]
  by_cases hstart : v.node.start = o
  · rw [if_pos hstart, h hstart]
    rfl
  · rw [if_neg hstart]

theorem firstTarget?_cons_of_some (hstart : v.node.start = o) (h : targetOf? v.node = some target) :
    firstTarget? o (v :: vs) = some (v, target) := by
  unfold firstTarget?
  rw [List.findSome?_cons, if_pos hstart, h]
  rfl

/-- The comments at an offset that nothing has taken yet are taken for its first target. -/
theorem mem_taken :
    (o, id) ∈ taken s claimed vs ↔
      o ∉ claimed ∧ (s.docsAt o).isEmpty = false ∧ documented? s o vs = some id := by
  induction vs generalizing claimed with
  | nil => simp [taken, documented?, firstTarget?]
  | cons v vs ih =>
    unfold taken takes?
    by_cases hstart : v.node.start = o
    · subst hstart
      cases hdocs : (s.docsAt v.node.start).isEmpty with
      | true => simp [ih, hdocs]
      | false =>
        cases htarget : targetOf? v.node with
        | none => simp [ih, hdocs, documented?, firstTarget?_cons_of_none fun _ => htarget]
        | some target =>
          by_cases hclaimed : v.node.start ∈ claimed
          · simp [ih, hclaimed]
          · have hfirst : firstTarget? v.node.start (v :: vs) = some (v, target) :=
              firstTarget?_cons_of_some rfl htarget
            simp [ih, hclaimed, documented?, hfirst]
    · have hfirst : documented? s o (v :: vs) = documented? s o vs := by
        unfold documented?
        rw [firstTarget?_cons_of_none fun h => absurd h hstart]
      rw [hfirst]
      split
      · next parent _ =>
        have hother : (o, id) ∉ parent.toList.map fun id => (v.node.start, id) := fun hmem => by
          obtain ⟨id', -, heq⟩ := List.mem_map.1 hmem
          exact hstart (Prod.mk.inj heq).1
        rw [List.mem_append, or_iff_right hother, ih, List.mem_cons, not_or]
        simp [Ne.symm hstart]
      · exact ih

theorem isDeclaration_of_isNamedDeclaration {n : Node} (h : isNamedDeclaration n = true) :
    isDeclaration n = true := by
  unfold isNamedDeclaration at h
  split at h
  · next hkind => simp [isDeclaration, hkind]
  · next hkind => simp [isDeclaration, hkind]
  · cases h

theorem isDeclaration_of_targetOf? {n d : Node} (h : targetOf? n = some (.declaration d)) :
    isDeclaration d = true := by
  unfold targetOf? at h
  split at h
  · obtain ⟨d', hd, heq⟩ := Option.map_eq_some_iff.1 h
    cases heq
    exact List.find?_some (p := isDeclaration) hd
  · obtain ⟨d', hd, heq⟩ := Option.map_eq_some_iff.1 h
    cases heq
    exact isDeclaration_of_isNamedDeclaration (List.find?_some (p := isNamedDeclaration) hd)
  · obtain ⟨_, -, heq⟩ := Option.map_eq_some_iff.1 h
    cases heq
  · obtain ⟨_, -, heq⟩ := Option.map_eq_some_iff.1 h
    cases heq
  · split at h
    · next hdeclaration =>
      cases h
      exact hdeclaration
    · cases h

/-- Whether a node is a member of a class. -/
def isMember (n : Node) : Bool :=
  match n.kind with
  | .methodDefinition .. | .propertyDefinition _ => true
  | _ => false

theorem of_targetOf?_member {n : Node} {key : String} (h : targetOf? n = some (.member key)) :
    isMember n = true ∧ ClassComponent.name? n = some key := by
  unfold targetOf? at h
  split at h
  · obtain ⟨_, -, heq⟩ := Option.map_eq_some_iff.1 h
    cases heq
  · obtain ⟨_, -, heq⟩ := Option.map_eq_some_iff.1 h
    cases heq
  · next hkind =>
    obtain ⟨_, hname, heq⟩ := Option.map_eq_some_iff.1 h
    cases heq
    exact ⟨by simp [isMember, hkind], hname⟩
  · next hkind =>
    obtain ⟨_, hname, heq⟩ := Option.map_eq_some_iff.1 h
    cases heq
    exact ⟨by simp [isMember, hkind], hname⟩
  · split at h <;> cases h

end

end AnnotationTags

namespace Session

/-- What comments at an offset are on: the first node in the order of the text, and so the outermost
one. -/
def targetAt? (s : Session) (o : Nat) : Option (Visit × AnnotationTags.Target) :=
  AnnotationTags.firstTarget? o (visits s.root)

/-- The identity of what comments at an offset are on. -/
def documentedAt? (s : Session) (o : Nat) : Option Identity :=
  (s.targetAt? o).bind fun (v, target) => (AnnotationTags.targetIdentity? s v target).toOption.join

/-- Nothing around the target at an offset is a target there. -/
theorem outermost_of_targetAt? {s : Session} (hroot : s.root.kind = .program) {o : Nat} {v : Visit}
    {target : AnnotationTags.Target} (h : s.targetAt? o = some (v, target)) :
    v ∈ visits s.root ∧ v.node.start = o ∧ AnnotationTags.targetOf? v.node = some target ∧
      ∀ m ∈ v.ancestors, m.start = o → AnnotationTags.targetOf? m = none := by
  obtain ⟨before, u, after, hvisits, hu, hbefore⟩ := List.findSome?_eq_some_iff.1 h
  have hfound : u.node.start = o ∧ AnnotationTags.targetOf? u.node = some target ∧ u = v := by
    split at hu
    · next hstart =>
      obtain ⟨target', htarget, heq⟩ := Option.map_eq_some_iff.1 hu
      cases heq
      exact ⟨hstart, htarget, rfl⟩
    · cases hu
  obtain ⟨hstart, htarget, rfl⟩ := hfound
  refine ⟨hvisits ▸ List.mem_append_right _ List.mem_cons_self, hstart, htarget, fun m hm hm' => ?_⟩
  by_cases heq : m = s.root
  · simp [heq, AnnotationTags.targetOf?, hroot, AnnotationTags.isDeclaration]
  · obtain ⟨w, hw, rfl⟩ := exists_visit_before_of_mem_ancestors hvisits hm heq
    simpa [hm'] using hbefore w hw

/-! ## Annotations -/

theorem docsAt_eq (s : Session) (o : Nat) :
    s.docsAt o = (s.docs.filter fun d => d.1 == o).map (·.2) := by
  rw [docsAt, ← List.filterMap_eq_map, List.filterMap_filter]
  rfl

variable {config : Config} {s : Session}

theorem mem_taken_visits {o : Nat} {id : Identity} :
    (o, id) ∈ AnnotationTags.taken s [] (visits s.root) ↔
      (s.docsAt o).isEmpty = false ∧ s.documentedAt? o = some id := by
  rw [AnnotationTags.mem_taken]
  exact and_iff_right List.not_mem_nil

/-- The annotations that the tags of a comment make, which stands at an offset. -/
def commentAnnotations (config : Config) (s : Session) (d : Nat × DocComment) : List Annotation :=
  match s.documentedAt? d.1 with
  | some parent => d.2.tags.filterMap (AnnotationTags.annotation? config s d.2 parent)
  | none => []

/-- The annotations of a file are those of the tags of its comments, comment by comment. -/
theorem exists_perm_docs (config : Config) (s : Session) :
    ∃ docs : List (Nat × DocComment), docs.Perm s.docs ∧
      s.annotations config = docs.flatMap (s.commentAnnotations config) := by
  set keys := (AnnotationTags.taken s [] (visits s.root)).map (·.1) with hkeys
  have hnodup : keys.Nodup := (AnnotationTags.nodup_taken [] (visits s.root)).2
  have hgroups : (keys.flatMap fun o => s.docs.filter fun d => d.1 == o).Perm
      (s.docs.filter fun d => keys.contains d.1) := by
    have hsame : (keys.flatMap fun o => s.docs.filter fun d => d.1 == o) =
        keys.flatMap fun o =>
          (s.docs.filter fun d => keys.contains d.1).filter fun d => d.1 == o := by
      refine List.flatMap_congr fun o ho => ?_
      rw [List.filter_filter]
      refine List.filter_congr fun d _ => ?_
      by_cases heq : d.1 = o <;> simp [heq, ho]
    rw [hsame]
    exact perm_flatMap_filter _ hnodup fun d hd =>
      List.contains_iff_mem.1 (List.mem_filter.1 hd).2
  refine ⟨(keys.flatMap fun o => s.docs.filter fun d => d.1 == o) ++
    s.docs.filter fun d => !keys.contains d.1, ?_, ?_⟩
  · exact (hgroups.append_right _).trans (List.filter_append_perm _ _)
  · have hothers : (s.docs.filter fun d => !keys.contains d.1).flatMap
        (s.commentAnnotations config) = [] := by
      refine List.flatMap_eq_nil_iff.2 fun d hd => ?_
      obtain ⟨hd, hkey⟩ := List.mem_filter.1 hd
      have hdocs : (s.docsAt d.1).isEmpty = false := by
        rw [docsAt_eq, List.isEmpty_map]
        exact List.isEmpty_eq_false_iff_exists_mem.2 ⟨d, List.mem_filter.2 ⟨hd, beq_self_eq_true _⟩⟩
      unfold commentAnnotations
      cases hid : s.documentedAt? d.1 with
      | none => rfl
      | some id =>
        have hmem : d.1 ∈ keys := List.mem_map.2 ⟨_, mem_taken_visits.2 ⟨hdocs, hid⟩, rfl⟩
        rw [List.contains_iff_mem.2 hmem] at hkey
        cases hkey
    rw [List.flatMap_append, hothers, List.append_nil, annotations, hkeys, List.flatMap_map,
      List.flatMap_assoc]
    refine List.flatMap_congr fun e he => ?_
    obtain ⟨-, hid⟩ := mem_taken_visits.1 (show (e.1, e.2) ∈ _ from he)
    rw [AnnotationTags.docAnnotations, docsAt_eq, List.flatMap_map]
    refine List.flatMap_congr fun d hd => ?_
    rw [commentAnnotations, beq_iff_eq.1 (List.mem_filter.1 hd).2, hid]

theorem parentIdentity_of_annotation? {doc : DocComment} {parent : Identity} {tag : DocTag}
    {a : Annotation} (h : AnnotationTags.annotation? config s doc parent tag = some a) :
    a.parentIdentity = parent := by
  unfold AnnotationTags.annotation? at h
  split at h
  · split at h
    · cases h
    · cases h
      rfl
  · split at h
    · cases h
      rfl
    · cases h

theorem startLine_of_annotation? {doc : DocComment} {parent : Identity} {tag : DocTag}
    {a : Annotation} (h : AnnotationTags.annotation? config s doc parent tag = some a)
    {x : CrossReference} (hx : a.crossReference = some x) :
    a.sourceLocation.startLine = x.sourceLocation.startLine := by
  unfold AnnotationTags.annotation? at h
  split at h
  · split at h
    · cases h
    · cases h
      cases hx
      rfl
  · split at h
    · cases h
      cases hx
    · cases h

/-! ## Defined nodes -/

theorem isMember_of_recorded? {member root : Node} {name : String}
    (h : ClassComponent.recorded? member = some (name, root)) :
    AnnotationTags.isMember member = true ∧ ClassComponent.name? member = some name := by
  obtain ⟨-, hhelper, -⟩ := ClassComponent.recorded?_eq_some.1 h
  obtain ⟨hname, hcontent, -⟩ := ClassComponent.helper?_eq_some.1 hhelper
  refine ⟨?_, hname⟩
  unfold ClassComponent.content? at hcontent
  unfold AnnotationTags.isMember
  revert hcontent
  cases member.kind <;> simp

/-- Whether the detectors of components define a node under an identity: a function, a variable or a
class by the last of their events, a member of a class by the last of its own. -/
inductive Defines (config : Config) (s : Session) (v : Visit) (id : Identity) : Prop
  | function {events : List Event} {c : DefinedComponent}
    (h : FunctionComponent.events s v = .ok events) (hlast : events.getLast? = some (.define id c))
  | class {events : List Event} {c : DefinedComponent}
    (h : ClassComponent.events config s v = .ok events)
    (hlast : events.getLast? = some (.define id c))
  | member {w : Visit} {name : String} {owner : Identity} {outer : List Node} {body : Node}
    {own : Option (List Identity)} {events : List Event} {c : DefinedComponent}
    (hw : w ∈ visits s.root) (hclass : ClassComponent.componentName? config s w = some name)
    (howner : s.identify w.node = .ok owner) (hancestors : v.ancestors = outer ++ [w.node, body])
    (hbody : body.kind = .classBody) (hmember : v.node ∈ w.node.classMembers)
    (h : ClassComponent.memberEvents s name owner v.node = .ok (own, events))
    (hlast : events.getLast? = some (.define id c))

/-- A node that is defined has its own identity, or is a member of a class. -/
theorem Defines.cases {v : Visit} {id : Identity} (h : Defines config s v id) :
    (¬ AnnotationTags.isMember v.node = true ∧ s.identify v.node = .ok id) ∨
      ∃ owner name root w outer body, ClassComponent.recorded? v.node = some (name, root) ∧
        id = ClassComponent.memberIdentity owner name ∧ s.identify w = .ok owner ∧
        v.ancestors = outer ++ [w, body] ∧ body.kind = .classBody ∧ w.kind = .classNode true ∧
        w.id?.isSome = true := by
  cases h with
  | function h hlast =>
    obtain ⟨candidate, body, ms, hcandidate, -, hid, -, -⟩ :=
      FunctionComponent.exists_candidate_of_define_mem h (List.mem_of_getLast? hlast)
    rw [FunctionComponent.declaration_of_candidate? hcandidate] at hid
    refine .inl ⟨fun hmember => ?_, hid⟩
    unfold AnnotationTags.isMember at hmember
    split at hmember
    · next hkind => simp [FunctionComponent.candidate?, hkind] at hcandidate
    · next hkind => simp [FunctionComponent.candidate?, hkind] at hcandidate
    · cases hmember
  | «class» h hlast =>
    rw [ClassComponent.events_eq] at h
    cases hclass : ClassComponent.componentName? config s v with
    | none =>
      rw [hclass] at h
      cases h
      cases hlast
    | some name =>
      rw [hclass] at h
      obtain ⟨hkind, -, -⟩ := ClassComponent.of_componentName? hclass
      simp only [ClassComponent.classEvents, ok_bind_iff, ok_pure_iff] at h
      obtain ⟨id', hid, ⟨references, members⟩, -, rfl⟩ := h
      rw [List.getLast?_concat] at hlast
      cases hlast
      exact .inl ⟨by simp [AnnotationTags.isMember, hkind], hid⟩
  | member hw hclass howner hancestors hbody hmember h hlast =>
    obtain ⟨hkind, hname, -⟩ := ClassComponent.of_componentName? hclass
    obtain ⟨ident, hident, -⟩ := Option.bind_eq_some_iff.1 hname
    rcases ClassComponent.memberEvents_cases h with ⟨_, ms, -, -, -, -, rfl⟩ |
      ⟨name', root, ms, -, hrecorded, -, -, rfl⟩ | ⟨-, -, -, rfl⟩
    · exact absurd (List.mem_of_getLast? hlast) (ClassComponent.define_notMem_mentions ms _)
    · rw [List.getLast?_concat] at hlast
      cases hlast
      exact .inr ⟨_, name', root, _, _, _, hrecorded, rfl, howner, hancestors, hbody, hkind,
        by rw [hident]; rfl⟩
    · cases hlast

/-- A list of variables has the identity of its first variable. -/
theorem identify_list {n d : Node} {id : Identity} {binder : Binder}
    (hkind : n.kind = .variableDeclaration binder) (hfirst : n.children.head? = some d)
    (hd : d.kind = .variableDeclarator) (h : s.identify d = .ok id) : s.identify n = .ok id := by
  have hsymbol : s.symbolAt? n = none := by simp [symbolAt?, hkind]
  have hsymbol' : s.symbolAt? d = none := by simp [symbolAt?, hd]
  have hbearer : nameBearer? n = some d := by simp [nameBearer?, hkind, hfirst]
  unfold identify identifyWithin at h ⊢
  rw [hsymbol'] at h
  rw [hsymbol, hbearer]
  dsimp only at h ⊢
  cases hbinding : nameBearer? d with
  | none =>
    rw [hbinding] at h
    cases h
  | some binding =>
    rw [hbinding] at h
    unfold identifyWithin
    rw [hsymbol', hbinding]
    dsimp only at h ⊢
    have hidentifier : binding.kind.isBindingIdentifier = true := by
      simp only [nameBearer?, hd] at hbinding
      exact (Option.filter_eq_some_iff.1 hbinding).2
    have hnone : nameBearer? binding = none := by
      unfold nameBearer?
      revert hidentifier
      cases binding.kind <;> simp [Kind.isBindingIdentifier]
    unfold identifyWithin at h ⊢
    cases hown : s.symbolAt? binding with
    | none =>
      rw [hown, hnone] at h
      cases h
    | some symbol =>
      rw [hown] at h
      exact h

/-- Whether the detectors of components define what comments are on: a declaration, or the first of
the variables that it declares, or a member of a class. -/
def DefinesTarget (config : Config) (s : Session) (v : Visit) (id : Identity) :
    AnnotationTags.Target → Prop
  | .declaration n => ∃ w ∈ visits s.root, s.Defines config w id ∧ (w.node = n ∨
      (∃ binder, n.kind = .variableDeclaration binder) ∧ n.children.head? = some w.node ∧
        w.node.kind = .variableDeclarator)
  | .member _ => s.Defines config v id

/-- Comments are on what the detectors define, under the identity that they define it under. -/
theorem documentedAt?_of_definesTarget {o : Nat} {v : Visit} {target : AnnotationTags.Target}
    {id : Identity} (htarget : AnnotationTags.targetOf? v.node = some target)
    (h : s.targetAt? o = some (v, target)) (hdefines : s.DefinesTarget config v id target) :
    s.documentedAt? o = some id := by
  have hidentity : AnnotationTags.targetIdentity? s v target = .ok (some id) := by
    cases target with
    | declaration n =>
      have hdeclaration := AnnotationTags.isDeclaration_of_targetOf? htarget
      obtain ⟨w, -, hdefines, hnode⟩ := hdefines
      have hmember : ¬ AnnotationTags.isMember w.node = true := by
        rcases hnode with rfl | ⟨-, -, hkind⟩
        · revert hdeclaration
          unfold AnnotationTags.isDeclaration AnnotationTags.isMember
          cases w.node.kind <;> simp
        · simp [AnnotationTags.isMember, hkind]
      rcases hdefines.cases with ⟨-, hid⟩ | ⟨owner, name, root, _, _, _, hrecorded, -⟩
      · have hid : s.identify n = .ok id := by
          rcases hnode with rfl | ⟨⟨binder, hkind⟩, hfirst, hdeclarator⟩
          · exact hid
          · exact identify_list hkind hfirst hdeclarator hid
        rw [AnnotationTags.targetIdentity?, hid]
        rfl
      · exact absurd (isMember_of_recorded? hrecorded).1 hmember
    | member key =>
      obtain ⟨hmember, hkey⟩ := AnnotationTags.of_targetOf?_member htarget
      rcases hdefines.cases with ⟨hother, -⟩ | ⟨owner, name, root, w, outer, body, hrecorded, rfl,
        howner, hancestors, hbody, hw, hident⟩
      · exact absurd hmember hother
      · have hclass : AnnotationTags.classOwner? v.ancestors.reverse = some w := by
          rw [hancestors, List.reverse_append]
          simp [AnnotationTags.classOwner?, hbody, hw, hident]
        have hname : name = key := by
          have hname := (isMember_of_recorded? hrecorded).2
          rw [hkey] at hname
          exact (Option.some_inj.1 hname).symm
        rw [AnnotationTags.targetIdentity?, hclass]
        simp [howner, hname, Except.map]
  rw [documentedAt?, h, Option.bind_some]
  dsimp only
  rw [hidentity]
  rfl

end Session

section

variable {config : Config} {path source : String} {repo : RepoMetadata} {s : Session}
  {r : ScanReport} {id : Identity}

/-- What the detectors define is in the report. -/
theorem isSome_defined?_of_defines (hs : Session.ofSource path source = .ok s)
    (h : scanSource config path source repo = .ok r) {v : Visit} (hv : v ∈ visits s.root)
    (hdefines : s.Defines config v id) : (r.defined? id).isSome = true := by
  have hmem : ∃ c, .define id c ∈ componentEvents config s (visits s.root) := by
    cases hdefines with
    | @function events c hevents hlast =>
      refine ⟨c, List.mem_flatMap.2 ⟨v, hv, List.mem_append_left _ ?_⟩⟩
      rw [hevents]
      exact List.mem_of_getLast? hlast
    | @«class» events c hevents hlast =>
      refine ⟨c, List.mem_flatMap.2 ⟨v, hv, List.mem_append_right _ ?_⟩⟩
      rw [hevents]
      exact List.mem_of_getLast? hlast
    | @member w name owner outer body own events c hw hclass howner _ _ hmember hown hlast =>
      obtain ⟨before, after, hvisits⟩ := List.append_of_mem hw
      obtain ⟨classes, hclasses, -⟩ := exists_classEvents_of_scanSource hs h hvisits hclass
      obtain ⟨-, -, hevents⟩ := ClassComponent.of_componentName? hclass
      refine ⟨c, List.mem_flatMap.2 ⟨w, hw, List.mem_append_right _ ?_⟩⟩
      rw [hevents, hclasses]
      simp only [ClassComponent.classEvents, ok_bind_iff, ok_pure_iff] at hclasses
      obtain ⟨id', hid, ⟨_, members⟩, hmembers, rfl⟩ := hclasses
      cases howner.symm.trans hid
      exact List.mem_append_left _
        (ClassComponent.subset_membersEvents hmembers hmember hown (List.mem_of_getLast? hlast))
  obtain ⟨c, hmem⟩ := hmem
  obtain ⟨events, hwalk, -, hdefined⟩ := exists_walk_of_scanSource hs h
  rw [hdefined, Option.isSome_map, firstDefinition?_componentEvents hwalk]
  exact isSome_firstDefinition?_of_mem hmem

/-- A report has one annotation for each tag of a comment that links the comment, if that has a
description, or marks pending work, and whose comment is on something with an identity, in the order
of the tags; and none besides. Comments are on the outermost declaration or member that starts at
their token, under the identity under which the detectors of components define it. -/
theorem annotations_scanSource (hs : Session.ofSource path source = .ok s)
    (h : scanSource config path source repo = .ok r) :
    (∃ docs : List (Nat × DocComment), docs.Perm s.docs ∧
      r.annotations.map Annotation.unkeyed = docs.flatMap (s.commentAnnotations config)) ∧
    (∀ doc parent tag, (AnnotationTags.annotation? config s doc parent tag).isSome =
      if config.isCrossReferenceTag tag.name then !doc.description.isEmpty
      else config.isPendingWorkTag tag.name) ∧
    (∀ doc parent tag a, AnnotationTags.annotation? config s doc parent tag = some a →
      a.parentIdentity = parent) ∧
    (∀ a ∈ r.annotations, ∀ x, a.crossReference = some x →
      a.sourceLocation.startLine = x.sourceLocation.startLine) ∧
    ∀ o v target, s.targetAt? o = some (v, target) →
      (v.node.start = o ∧ AnnotationTags.targetOf? v.node = some target ∧
        ∀ m ∈ v.ancestors, m.start = o → AnnotationTags.targetOf? m = none) ∧
      ∀ id, s.DefinesTarget config v id target →
        (r.defined? id).isSome = true ∧ s.documentedAt? o = some id := by
  obtain ⟨s', events, log, hs', hevents, rfl⟩ := exists_events_of_scanSource h
  cases hs.symm.trans hs'
  have hannotations := unkeyed_annotations_reportOf hevents path repo
  obtain ⟨docs, hdocs, hmade⟩ := s.exists_perm_docs config
  refine ⟨⟨docs, hdocs, hannotations.trans hmade⟩, ?_, ?_, ?_, ?_⟩
  · exact fun doc parent tag => PlacedTag.isSome_annotation? config s ⟨parent, doc, tag⟩
  · exact fun doc parent tag a => Session.parentIdentity_of_annotation?
  · intro a ha x hx
    have hmem : a.unkeyed ∈ s.annotations config := hannotations ▸ List.mem_map_of_mem ha
    obtain ⟨e, -, hmem⟩ := List.mem_flatMap.1 hmem
    obtain ⟨doc, -, hmem⟩ := List.mem_flatMap.1 hmem
    obtain ⟨tag, -, hmade⟩ := List.mem_filterMap.1 hmem
    exact Session.startLine_of_annotation? hmade hx
  · intro o v target htarget
    obtain ⟨hv, hstart, htargetOf, houter⟩ := Session.outermost_of_targetAt? (Session.kind_root hs)
      htarget
    refine ⟨⟨hstart, htargetOf, houter⟩, fun id hdefines => ⟨?_, ?_⟩⟩
    · cases target with
      | declaration n =>
        obtain ⟨w, hw, hdefines, -⟩ := hdefines
        exact isSome_defined?_of_defines hs h hw hdefines
      | member key => exact isSome_defined?_of_defines hs h hv hdefines
    · exact Session.documentedAt?_of_definesTarget htargetOf htarget hdefines

/-- A class with comments at its export and at a member. -/
def documented : String :=
  "/** A card.\n * @canvas https://c.example/1\n * @FIXME later */\n" ++
    "export class Card extends Component \x7b\n" ++
    "  /** @todo split */\n  header() \x7b return <B/>; \x7d\n\x7d\n"

def documentedSession : Session :=
  ((Session.ofSource "a.tsx" documented).toOption).getD default

def documentedReport : ScanReport :=
  ((scanSource {} "a.tsx" documented .placeholder).toOption).getD default

/-- The declaration of the class, which is below its export. -/
def documentedClass : Visit :=
  (visits documentedSession.root).getD 1 default

/-- The node of the declaration that comments are on. -/
def AnnotationTags.Target.declaration? : AnnotationTags.Target → Option Node
  | .declaration n => some n
  | .member _ => none

/-- The tags in front of the export are on the class, the one in the class on the member. -/
theorem annotations_scanSource_documented :
    Session.ofSource "a.tsx" documented = .ok documentedSession ∧
      scanSource {} "a.tsx" documented .placeholder = .ok documentedReport ∧
      (∃ docs : List (Nat × DocComment), docs.Perm documentedSession.docs ∧
        documentedReport.annotations.map Annotation.unkeyed =
          docs.flatMap (documentedSession.commentAnnotations {})) ∧
      documentedReport.annotations.map (fun a => (a.parentIdentity, a.crossReference.isSome)) =
        [("a.tsx:Card", true), ("a.tsx:Card", false), ("a.tsx:Card.header()", false)] ∧
      documentedSession.documentedAt? 62 = some "a.tsx:Card" ∧
      documentedSession.documentedAt? 123 = some "a.tsx:Card.header()" := by
  have htext : documented.toList = _ :=
    toList_append_of (toList_append_of String.toList_ofList String.toList_ofList)
      String.toList_ofList
  obtain ⟨hs, hr, hannotations, htarget, hlength, hevents, hlast, hclass, howner, hmember⟩ :
      (Session.ofSource "a.tsx" documented).toOption.isSome = true ∧
      (scanSource {} "a.tsx" documented .placeholder).toOption.isSome = true ∧
      documentedReport.annotations.map (fun a => (a.parentIdentity, a.crossReference.isSome)) =
        [("a.tsx:Card", true), ("a.tsx:Card", false), ("a.tsx:Card.header()", false)] ∧
      (documentedSession.targetAt? 62).map (·.2.declaration?) = some (some documentedClass.node) ∧
      1 < (visits documentedSession.root).length ∧
      (ClassComponent.events {} documentedSession documentedClass).toOption.isSome = true ∧
      (((ClassComponent.events {} documentedSession documentedClass).toOption.getD
        []).getLast?.bind Event.definition?).map (·.1) = some "a.tsx:Card" ∧
      ClassComponent.componentName? {} documentedSession documentedClass = some "Card" ∧
      documentedSession.identify documentedClass.node = .ok "a.tsx:Card" ∧
      (documentedSession.targetAt? 123).map (fun e => (e.2.declaration?,
        e.1.ancestors.getLast?.map Node.kind, e.1.ancestors.dropLast.getLast?,
        documentedClass.node.classMembers.contains e.1.node,
        (ClassComponent.memberEvents documentedSession "Card" "a.tsx:Card" e.1.node).toOption.bind
          fun own => (own.2.getLast?.bind Event.definition?).map (·.1))) =
        some (none, some .classBody, some documentedClass.node, true,
          some "a.tsx:Card.header()") := by
    rw [documentedClass, documentedReport, documentedSession, scanSource_eq_bind, Session.ofSource,
      htext]
    decide +kernel
  replace hs : Session.ofSource "a.tsx" documented = .ok documentedSession := eq_ok_getD hs
  replace hr : scanSource {} "a.tsx" documented .placeholder = .ok documentedReport :=
    eq_ok_getD hr
  obtain ⟨hdocs, -, -, -, htargets⟩ := annotations_scanSource hs hr
  obtain ⟨⟨v, target⟩, hfound, hdeclaration⟩ := Option.map_eq_some_iff.1 htarget
  have hmem : documentedClass ∈ visits documentedSession.root := by
    rw [documentedClass, List.getD_eq_getElem?_getD, List.getElem?_eq_getElem hlength,
      Option.getD_some]
    exact List.getElem_mem hlength
  refine ⟨hs, hr, hdocs, hannotations, ?_, ?_⟩
  · cases target with
    | member key => cases hdeclaration
    | declaration n =>
      have hnode : n = documentedClass.node := Option.some.inj hdeclaration
      obtain ⟨⟨id, c⟩, hdefinition, rfl⟩ := Option.map_eq_some_iff.1 hlast
      obtain ⟨e, he, hdefinition⟩ := Option.bind_eq_some_iff.1 hdefinition
      cases e <;> cases hdefinition
      exact ((htargets 62 v _ hfound).2 "a.tsx:Card"
        ⟨documentedClass, hmem, .class (eq_ok_getD hevents) he, .inl hnode.symm⟩).2
  · obtain ⟨⟨v, target⟩, hfound, heq⟩ := Option.map_eq_some_iff.1 hmember
    simp only [Prod.mk.injEq, List.contains_iff_mem] at heq
    obtain ⟨htarget, hbody, howned, hmember, hown⟩ := heq
    cases target with
    | declaration n => cases htarget
    | member key =>
      obtain ⟨body, hbody, hkind⟩ := Option.map_eq_some_iff.1 hbody
      obtain ⟨inner, hancestors⟩ := List.getLast?_eq_some_iff.1 hbody
      obtain ⟨outer, hinner⟩ := List.getLast?_eq_some_iff.1 howned
      rw [hancestors, List.dropLast_concat] at hinner
      rw [hinner, List.append_assoc] at hancestors
      obtain ⟨⟨own, events⟩, hevents, hlast⟩ := Option.bind_eq_some_iff.1 hown
      obtain ⟨⟨id, c⟩, hdefinition, rfl⟩ := Option.map_eq_some_iff.1 hlast
      obtain ⟨e, he, hdefinition⟩ := Option.bind_eq_some_iff.1 hdefinition
      cases e <;> cases hdefinition
      exact ((htargets 123 v _ hfound).2 "a.tsx:Card.header()" (.member hmem hclass howner
        hancestors hkind hmember (ok_of_toOption hevents) he)).2

end

end ComponentScan
