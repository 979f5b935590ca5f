import ComponentScan.Proofs.Scan.Steps
import Mathlib.Data.List.Forall2

/-!
# Where the program stands

The program is the outermost ancestor of every node that is visited, but what is asked of it is only
that it is the program. So the detectors do the same below two programs with the same children
(`visit_sameBelow`).
-/

namespace ComponentScan

open Syntax

/-- Visits of one node below programs that may stand elsewhere. -/
inductive Visit.SameBelow : Visit → Visit → Prop
  | mk (n : Node) (depth : Nat) (inner : List Node) {root root' : Node} (h : root.kind = .program)
    (h' : root'.kind = .program) : SameBelow ⟨n, depth, root :: inner⟩ ⟨n, depth, root' :: inner⟩

theorem Visit.SameBelow.depth_eq {v v' : Visit} (h : v.SameBelow v') : v'.depth = v.depth := by
  cases h
  rfl

mutual

theorem sameBelow_visitsOf {root root' : Node} (h : root.kind = .program)
    (h' : root'.kind = .program) (inner : List Node) : ∀ n : Node,
    List.Forall₂ Visit.SameBelow (visitsOf (root :: inner) n) (visitsOf (root' :: inner) n)
  | ⟨kind, span, children⟩ => by
    have hbelow := sameBelow_visitsBelow h h' (inner ++ [⟨kind, span, children⟩]) children
    rw [visitsOf, visitsOf]
    exact .cons (.mk _ _ inner h h') hbelow

theorem sameBelow_visitsBelow {root root' : Node} (h : root.kind = .program)
    (h' : root'.kind = .program) (inner : List Node) : ∀ ns : List Node,
    List.Forall₂ Visit.SameBelow (visitsBelow (root :: inner) ns) (visitsBelow (root' :: inner) ns)
  | [] => .nil
  | n :: rest =>
    List.rel_append (sameBelow_visitsOf h h' inner n) (sameBelow_visitsBelow h h' inner rest)

end

/-- The visits below programs with the same children. -/
theorem sameBelow_visits {root root' : Node} (h : root.kind = .program) (h' : root'.kind = .program)
    (hchildren : root'.children = root.children) :
    List.Forall₂ Visit.SameBelow (visits root) (visits root') := by
  rw [visits, visits, hchildren]
  exact sameBelow_visitsBelow h h' [] root.children

/-! ## What is asked of ancestors -/

section

variable {root root' : Node} (h : root.kind = .program) (h' : root'.kind = .program)
include h h'

theorem Placement.ofContainers_root (inner : List Node) :
    ofContainers (root' :: inner) = ofContainers (root :: inner) := by
  obtain ⟨kind, span, children⟩ := root
  obtain ⟨kind', span', children'⟩ := root'
  cases h
  cases h'
  unfold ofContainers
  rw [List.reverse_cons, List.reverse_cons]
  match inner.reverse with
  | [] => rfl
  | [⟨kind, _, _⟩] => cases kind <;> rfl
  | ⟨kind, _, _⟩ :: ⟨kind', _, _⟩ :: _ =>
    simp only [List.cons_append]
    cases kind with
    | exportNamedDeclaration => cases kind' <;> rfl
    | exportDefaultDeclaration => cases kind' <;> rfl
    | _ => rfl

omit h' in
theorem LazyComponent.aboveWrapper?_root (wrappers : PrintedNames) (s : Session)
    (inner : List Node) :
    aboveWrapper? wrappers s (root :: inner) =
      (aboveWrapper? wrappers s inner).map (· ++ [root]) := by
  have hroot : isWrapper wrappers s root = false := by
    unfold isWrapper
    rw [h]
  unfold aboveWrapper?
  rw [List.reverse_cons, List.dropWhile_append]
  cases inner.reverse.dropWhile (!isWrapper wrappers s ·) with
  | nil => simp [hroot]
  | cons n above => rfl

omit h' in
theorem AnnotationTags.classOwner?_root (inner : List Node) :
    classOwner? (inner ++ [root]) = classOwner? inner := by
  have hroot : root.kind.isVariableDeclarator = false := by rw [h]; rfl
  induction inner with
  | nil => simp [classOwner?, h]
  | cons n above ih =>
    rw [List.cons_append, classOwner?, classOwner?, ih]
    cases above with
    | nil => simp [Option.filter, hroot]
    | cons p above => rfl

end

/-! ## Detectors -/

section

variable {v v' : Visit} (h : v.SameBelow v') (s : Session) (indent : Nat)
include h

omit s indent in
/-- A variable right below the program would have no list of variables around it; it is no candidate
at the top level. -/
theorem FunctionComponent.candidate?_sameBelow :
    candidate? v' = candidate? v ∨ (∀ e ∈ candidate? v, e.1.placement.isTopLevel = false) ∧
      ∀ e ∈ candidate? v', e.1.placement.isTopLevel = false := by
  obtain ⟨n, depth, inner, hroot, hroot'⟩ := h
  have hplacement := Placement.ofContainers_root hroot hroot'
  have hnested {root e} (he : e ∈ ofVariable? ⟨n, depth, [root]⟩) :
      e.1.placement.isTopLevel = false := by
    simp only [ofVariable?, Visit.parent?, Option.bind_eq_bind, Option.mem_def,
      Option.bind_eq_some_iff] at he
    obtain ⟨_, -, _, -, _, -, he⟩ := he
    cases he
    rfl
  unfold candidate?
  dsimp only
  split
  · exact .inl (by simp only [ofFunction?, hplacement])
  · cases inner with
    | nil => exact .inr ⟨fun e => hnested, fun e => hnested⟩
    | cons m rest =>
      refine .inl ?_
      simp only [ofVariable?, Visit.parent?, List.getLast?_cons_cons, List.dropLast_cons_cons, hplacement]
  · exact .inl rfl

theorem FunctionComponent.visit_sameBelow : visit s v' indent = visit s v indent := by
  have hidle {v : Visit} (hv : ∀ e ∈ candidate? v, e.1.placement.isTopLevel = false) :
      visit s v indent = pure () := by
    unfold visit
    cases hcandidate : candidate? v with
    | none => rfl
    | some e => simp [hv e hcandidate]
  rcases candidate?_sameBelow h with heq | ⟨hv, hv'⟩
  · rw [visit, visit, heq]
  · rw [hidle hv, hidle hv']

theorem ClassComponent.visit_sameBelow (config : Config) :
    visit config s v' indent = visit config s v indent := by
  obtain ⟨n, depth, inner, hroot, hroot'⟩ := h
  have hplacement := Placement.ofContainers_root hroot hroot' inner
  unfold visit recordClass
  dsimp only
  rw [hplacement]

theorem LazyComponent.visit_sameBelow (config : Config) :
    visit config s v' indent = visit config s v indent := by
  obtain ⟨n, depth, inner, hroot, hroot'⟩ := h
  unfold visit
  dsimp only
  rw [aboveWrapper?_root hroot, aboveWrapper?_root hroot']
  cases aboveWrapper? ⟨config.lazyLoadCallees⟩ s inner with
  | none => rfl
  | some above => simp [List.find?_append, hroot, hroot', Kind.isVariableDeclarator]

theorem AnnotationTags.visit_sameBelow (config : Config) :
    visit config s v' indent = visit config s v indent := by
  obtain ⟨n, depth, inner, hroot, hroot'⟩ := h
  unfold visit parentIdentity?
  dsimp only
  simp only [List.reverse_cons, classOwner?_root hroot, classOwner?_root hroot']

/-- A detector does the same below both programs. -/
theorem visit_sameBelow {d : Detector} (hd : d ∈ detectors) (config : Config) :
    d.visit config s v' indent = d.visit config s v indent := by
  simp only [detectors, List.mem_cons, List.not_mem_nil, or_false] at hd
  rcases hd with rfl | rfl | rfl | rfl | rfl
  · exact FunctionComponent.visit_sameBelow h s indent
  · exact ClassComponent.visit_sameBelow h s indent config
  · exact LazyComponent.visit_sameBelow h s indent config
  · obtain ⟨n, depth, inner, hroot, hroot'⟩ := h
    rfl
  · exact AnnotationTags.visit_sameBelow h s indent config

omit h in
/-- The walk of a scan is the same below both programs. -/
theorem forVisits_sameBelow {vs vs' : List Visit} (h : List.Forall₂ Visit.SameBelow vs vs')
    (config : Config) :
    forVisits indent (fun v indent => detectors.forM fun d => d.visit config s v indent) vs' =
      forVisits indent (fun v indent => detectors.forM fun d => d.visit config s v indent) vs := by
  have hstep {v v' : Visit} (h : v.SameBelow v') (indent : Nat) {ds : List Detector}
      (hds : ∀ d ∈ ds, d ∈ detectors) : (ds.forM fun d => d.visit config s v' indent) =
        ds.forM fun d => d.visit config s v indent := by
    induction ds with
    | nil => rfl
    | cons d ds ih =>
      obtain ⟨hd, hds⟩ := List.forall_mem_cons.1 hds
      have hcons (f : Detector → Scan Unit) : (d :: ds).forM f = f d >>= fun _ => ds.forM f := rfl
      rw [hcons, hcons, visit_sameBelow h s indent hd, ih hds]
  induction h with
  | nil => rfl
  | cons hv _ ih =>
    have hdepth := hv.depth_eq
    rw [forVisits_cons, forVisits_cons, ih, hdepth, hstep hv _ fun _ hd => hd]

end

end ComponentScan
