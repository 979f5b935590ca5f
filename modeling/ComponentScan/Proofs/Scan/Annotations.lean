import ComponentScan.Proofs.Scan.Move
import ComponentScan.Proofs.Scan.Records
import ComponentScan.Proofs.Scan.WellFormed

/-!
# The annotations of a report

The annotations of a report are those that the tags of the taken comments make, in order
(`annotations_reportOf`). Which comments are taken and for what declaration (`taken`) follows from
the tree: no offset is taken twice, and what is taken moves with a session.
-/

namespace ComponentScan

open Syntax

namespace Event

theorem IsRecordOf.annotation? {s : Session} {n : Node} {e : Event} (h : e.IsRecordOf s n) :
    Event.annotation? e = none := by
  cases h <;> rfl

end Event

theorem ExportAlias.annotation?_events {s : Session} {n : Node} {e : Event}
    (h : e ∈ ExportAlias.events s n) : Event.annotation? e = none := by
  obtain ⟨id, exported, rfl⟩ := exists_of_mem_events h
  rfl

/-! ## Taken comments -/

namespace AnnotationTags

/-- Whether the comments at a node are taken, and for what declaration. -/
def takes? (s : Session) (claimed : List Nat) (v : Visit) : Option (Option Identity) :=
  if (s.docsAt v.node.start).isEmpty || claimed.contains v.node.start then none
  else (targetOf? v.node).map fun target => (targetIdentity? s v target).toOption.join

/-- The offsets of the comments that are taken at some nodes, each with the declaration. -/
def taken (s : Session) (claimed : List Nat) : List Visit → List (Nat × Identity)
  | [] => []
  | v :: rest =>
    match takes? s claimed v with
    | some parent =>
      parent.toList.map (fun id => (v.node.start, id)) ++ taken s (v.node.start :: claimed) rest
    | none => taken s claimed rest

/-- The annotations that comments make on a declaration. -/
def docAnnotations (config : Config) (s : Session) (docs : List DocComment) (parent : Identity) :
    List Annotation :=
  docs.flatMap fun doc => doc.tags.filterMap (annotation? config s doc parent)

variable {config : Config} {s : Session} {claimed : List Nat} {v : Visit} {vs : List Visit}
  {events : List Event}

theorem notMem_claimed_of_takes? {parent : Option Identity} (h : takes? s claimed v = some parent) :
    v.node.start ∉ claimed := by
  intro hmem
  have hclaimed : claimed.contains v.node.start = true := List.contains_iff_mem.2 hmem
  rw [takes?, hclaimed, Bool.or_true, if_pos rfl] at h
  cases h

/-- No offset is taken twice. -/
theorem nodup_taken (claimed : List Nat) (vs : List Visit) :
    (∀ e ∈ taken s claimed vs, e.1 ∉ claimed) ∧ ((taken s claimed vs).map (·.1)).Nodup := by
  induction vs generalizing claimed with
  | nil => exact ⟨nofun, .nil⟩
  | cons v vs ih =>
    unfold taken
    cases htakes : takes? s claimed v with
    | none => exact ih claimed
    | some parent =>
      obtain ⟨hfresh, hnodup⟩ := ih (v.node.start :: claimed)
      simp only [List.mem_cons, not_or] at hfresh
      cases parent with
      | none => exact ⟨fun e he => (hfresh e he).2, hnodup⟩
      | some id =>
        refine ⟨List.forall_mem_cons.2 ⟨notMem_claimed_of_takes? htakes, fun e he =>
          (hfresh e he).2⟩, List.nodup_cons.2 ⟨fun hmem => ?_, hnodup⟩⟩
        obtain ⟨e, he, heq⟩ := List.mem_map.1 hmem
        exact (hfresh e he).1 heq

theorem filterMap_docEvents (docs : List DocComment) (parent : Identity) :
    (docEvents config s docs parent).filterMap Event.annotation? =
      docAnnotations config s docs parent := by
  have htag (doc : DocComment) (tag : DocTag) :
      (((annotation? config s doc parent tag).toList.map .annotate).filterMap Event.annotation?) =
        (annotation? config s doc parent tag).toList := by
    cases annotation? config s doc parent tag <;> rfl
  rw [docEvents, docAnnotations, List.filterMap_flatMap]
  refine List.flatMap_congr fun doc _ => ?_
  rw [List.filterMap_flatMap, List.filterMap_eq_flatMap_toList]
  exact List.flatMap_congr fun tag _ => htag doc tag

theorem claimed?_docEvents (docs : List DocComment) (parent : Identity) :
    (docEvents config s docs parent).filterMap Event.claimed? = [] := by
  refine List.filterMap_eq_nil_iff.2 fun e he => ?_
  obtain ⟨doc, -, he⟩ := List.mem_flatMap.1 he
  obtain ⟨tag, -, he⟩ := List.mem_flatMap.1 he
  obtain ⟨a, -, rfl⟩ := List.mem_map.1 he
  rfl

/-- What the detector of annotations does at a node. -/
theorem events_eq_of_takes? (h : AnnotationTags.events config s claimed v = .ok events) :
    (takes? s claimed v = none ∧ events = []) ∨
      ∃ parent, takes? s claimed v = some parent ∧ events = .claim v.node.start ::
        parent.toList.flatMap (docEvents config s (s.docsAt v.node.start)) := by
  unfold AnnotationTags.events at h
  unfold takes?
  dsimp only at h
  split at h
  · next hskip =>
    cases h
    exact .inl ⟨if_pos hskip, rfl⟩
  · next hskip =>
    rw [if_neg hskip]
    cases htarget : targetOf? v.node with
    | none =>
      rw [htarget] at h
      cases h
      exact .inl ⟨rfl, rfl⟩
    | some target =>
      rw [htarget] at h
      obtain ⟨parent, hparent, rfl⟩ := ok_map_iff.1 h
      refine .inr ⟨parent, ?_, rfl⟩
      rw [Option.map_some, hparent]
      rfl

/-- Only the detector of annotations annotates and takes comments. -/
theorem filterMap_visitEvents (h : visitEvents config s claimed v = .ok events) :
    ∃ tags, AnnotationTags.events config s claimed v = .ok tags ∧
      events.filterMap Event.annotation? = tags.filterMap Event.annotation? ∧
      events.filterMap Event.claimed? = tags.filterMap Event.claimed? := by
  obtain ⟨functions, classes, deferred, tags, hfunctions, hclasses, hdeferred, htags, rfl⟩ :=
    visitEvents_eq_ok h
  have hrecords {es : List Event} (hes : ∀ e ∈ es, e.IsRecordOf s v.node) :
      es.filterMap Event.annotation? = [] ∧ es.filterMap Event.claimed? = [] :=
    ⟨List.filterMap_eq_nil_iff.2 fun e he => (hes e he).annotation?,
      List.filterMap_eq_nil_iff.2 fun e he => (hes e he).claimed?⟩
  obtain ⟨hfunctions, hfunctions'⟩ := hrecords (FunctionComponent.isRecordOf_events hfunctions)
  obtain ⟨hclasses, hclasses'⟩ := hrecords (ClassComponent.isRecordOf_events hclasses)
  obtain ⟨hdeferred, hdeferred'⟩ := hrecords (LazyComponent.isRecordOf_events hdeferred)
  have haliases : (ExportAlias.events s v.node).filterMap Event.annotation? = [] :=
    List.filterMap_eq_nil_iff.2 fun e he => ExportAlias.annotation?_events he
  have haliases' : (ExportAlias.events s v.node).filterMap Event.claimed? = [] :=
    List.filterMap_eq_nil_iff.2 fun e he => ExportAlias.claimed?_events he
  refine ⟨tags, htags, ?_, ?_⟩
  · simp only [List.filterMap_append, hfunctions, hclasses, hdeferred, haliases, List.nil_append]
  · simp only [List.filterMap_append, hfunctions', hclasses', hdeferred', haliases', List.nil_append]

/-- The annotations of the events of a walk are those of the taken comments. -/
theorem filterMap_walkEvents (h : walkEvents config s claimed vs = .ok events) :
    events.filterMap Event.annotation? = (taken s claimed vs).flatMap fun e =>
      docAnnotations config s (s.docsAt e.1) e.2 := by
  induction vs generalizing claimed events with
  | nil =>
    cases h
    rfl
  | cons v vs ih =>
    obtain ⟨first, hfirst, others, hothers, rfl⟩ := walkEvents_cons_eq_ok_iff.1 h
    obtain ⟨tags, htags, hannotations, hclaims⟩ := filterMap_visitEvents hfirst
    rw [hclaims] at hothers
    rw [List.filterMap_append, hannotations, ih hothers, taken]
    rcases events_eq_of_takes? htags with ⟨htakes, rfl⟩ | ⟨parent, htakes, rfl⟩
    · rw [htakes]
      rfl
    · rw [htakes]
      cases parent with
      | none => rfl
      | some id =>
        have hdocs := @filterMap_docEvents config s (s.docsAt v.node.start) id
        have hclaim (events : List Event) (o : Nat) :
            (.claim o :: events : List Event).filterMap Event.claimed? =
              o :: events.filterMap Event.claimed? := rfl
        simp only [Option.toList_some, List.flatMap_cons, List.flatMap_nil, List.append_nil,
          List.map_cons, List.map_nil, List.cons_append, List.nil_append, ← hdocs, hclaim,
          claimed?_docEvents, List.reverse_singleton]
        rfl

/-! ## Moved sessions -/

theorem taken_move {f : Nat → Nat} {s' : Session} (h : s.IsMoved f s')
    (hdocs : ∀ o, (s'.docsAt (f o)).isEmpty = (s.docsAt o).isEmpty) (claimed : List Nat)
    (vs : List Visit) : taken s' (claimed.map f) (vs.map (Visit.move f)) =
      (taken s claimed vs).map fun e => (f e.1, e.2) := by
  have htakes (claimed : List Nat) (v : Visit) :
      takes? s' (claimed.map f) (v.move f) = takes? s claimed v := by
    have hclaimed : (claimed.map f).contains (f v.node.start) = claimed.contains v.node.start := by
      rw [Bool.eq_iff_iff, List.contains_iff_mem, List.contains_iff_mem,
        List.mem_map_of_injective h.injective]
    unfold takes?
    simp only [Visit.node_move, Node.start_move, hdocs, hclaimed, targetOf?_move, Option.map_map]
    refine congrArg _ (congrFun (congrArg _ (funext fun target => ?_)) _)
    have htarget := h.agree_targetIdentity? v target
    simp only [Function.comp_apply]
    revert htarget
    generalize targetIdentity? s v target = x
    generalize targetIdentity? s' (v.move f) (target.move f) = y
    intro hxy
    cases hxy with
    | error => rfl
    | ok heq => rw [heq]
  induction vs generalizing claimed with
  | nil => rfl
  | cons v vs ih =>
    have hrest := ih (v.node.start :: claimed)
    rw [List.map_cons] at hrest
    rw [List.map_cons, taken, taken, htakes]
    cases takes? s claimed v with
    | none => exact ih claimed
    | some parent =>
      simp only [Visit.node_move, Node.start_move, hrest, List.map_append, List.map_map]
      rfl

end AnnotationTags

/-- The annotations of a file, without their sequence keys. -/
def Session.annotations (config : Config) (s : Session) : List Annotation :=
  (AnnotationTags.taken s [] (visits s.root)).flatMap fun e =>
    AnnotationTags.docAnnotations config s (s.docsAt e.1) e.2

theorem unkeyed_annotation? {config : Config} {s : Session} {doc : DocComment} {parent : Identity}
    {tag : DocTag} {a : Annotation} (h : AnnotationTags.annotation? config s doc parent tag = some a) :
    a.unkeyed = a := by
  unfold AnnotationTags.annotation? at h
  split at h
  · split at h
    · cases h
    · cases h
      rfl
  · split at h
    · cases h
      rfl
    · cases h

theorem map_unkeyed_annotations (config : Config) (s : Session) :
    (s.annotations config).map Annotation.unkeyed = s.annotations config := by
  refine (List.map_congr_left fun a ha => ?_).trans (List.map_id _)
  obtain ⟨e, -, ha⟩ := List.mem_flatMap.1 ha
  obtain ⟨doc, -, ha⟩ := List.mem_flatMap.1 ha
  obtain ⟨tag, -, ha⟩ := List.mem_filterMap.1 ha
  exact unkeyed_annotation? ha

/-- A report has the annotations of its file, numbered. -/
theorem numbered_annotations_reportOf {config : Config} {s : Session} {events : List Event}
    (h : s.events config = .ok events) (path : String) (repo : RepoMetadata) :
    (reportOf path repo events).annotations = assignSequenceKeys (s.annotations config) := by
  rw [annotations_reportOf, AnnotationTags.filterMap_walkEvents h]
  rfl

/-- Sequence keys apart, a report has the annotations of its file. -/
theorem unkeyed_annotations_reportOf {config : Config} {s : Session} {events : List Event}
    (h : s.events config = .ok events) (path : String) (repo : RepoMetadata) :
    (reportOf path repo events).annotations.map Annotation.unkeyed = s.annotations config := by
  rw [numbered_annotations_reportOf h, map_assignSequenceKeys fun _ _ => rfl,
    map_unkeyed_annotations]

/-- What changes no sequence key is done before or after annotations lose theirs. -/
theorem map_unkeyed_modify {g : Annotation → Annotation} (hg : ∀ a, (g a).unkeyed = g a.unkeyed)
    (annotations : List Annotation) (i : Nat) :
    (annotations.modify i g).map Annotation.unkeyed =
      (annotations.map Annotation.unkeyed).modify i g := by
  refine List.ext_getElem? fun j => ?_
  simp only [List.getElem?_map, List.getElem?_modify]
  split <;> cases annotations[j]? <;> simp [hg]

end ComponentScan
