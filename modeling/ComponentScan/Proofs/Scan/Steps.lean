import ComponentScan.Proofs.Scan.Traces

/-!
# Steps of detectors

The detectors of components are put together from steps that record references, definitions and
aliases (`Scan.Records`), the detector of annotations from steps that take comments and add
annotations (`Scan.Annotates`). What all such steps keep, the detectors keep, also if they fail
(`Scan.Keeps.of_builtFrom`); what all such steps neither look at nor change, the detectors pass on
(`Scan.PassesOn.of_builtFrom`).
-/

namespace ComponentScan

open Syntax

namespace Scan

/-- Whether a step is put together from basic steps, lines of the log and failures. -/
inductive BuiltFrom (basic : (α : Type) → Scan α → Prop) : {α : Type} → Scan α → Prop
  | basic {α : Type} {m : Scan α} (h : basic α m) : BuiltFrom basic m
  | pure {α : Type} (a : α) : BuiltFrom basic (Pure.pure a)
  | throw {α : Type} (e : ScanError) : BuiltFrom basic (MonadExcept.throw e : Scan α)
  | log (indent : Nat) (message : String) : BuiltFrom basic (Scan.log indent message)
  | bind {α β : Type} {m : Scan α} {f : α → Scan β} (h : BuiltFrom basic m)
    (hf : ∀ a, BuiltFrom basic (f a)) : BuiltFrom basic (m >>= f)

/-- The basic steps of the detectors of components. -/
inductive Recording : (α : Type) → Scan α → Prop
  | reference (id : Identity) (c : ReferencedComponent) :
    Recording Bool (update (·.reference id c))
  | define (s : Session) (c : Candidate) (id : Identity) (references : List Identity)
    (indent : Nat) : Recording Unit (recordDefinition s c id references indent)
  | note (id : Identity) (exported : String) :
    Recording Unit (modify fun st => { st with aliases := st.aliases ++ [(id, exported)] })

/-- The basic steps of the detector of annotations. -/
inductive Annotating : (α : Type) → Scan α → Prop
  | annotate (a : Annotation) : Annotating Unit (AnnotationTags.annotate a)
  | claim (offset : Nat) :
    Annotating Unit (modify fun st => { st with claimed := offset :: st.claimed })
  | claimed : Annotating (List Nat) (ScanState.claimed <$> get)

/-- Whether a step only records references, definitions and aliases. -/
abbrev Records {α : Type} (m : Scan α) : Prop := BuiltFrom Recording m

/-- Whether a step only takes comments and adds annotations. -/
abbrev Annotates {α : Type} (m : Scan α) : Prop := BuiltFrom Annotating m

namespace BuiltFrom

variable {basic : (α : Type) → Scan α → Prop} {α β γ : Type}

theorem map {m : Scan α} (h : BuiltFrom basic m) (f : α → β) : BuiltFrom basic (f <$> m) := by
  rw [← bind_pure_comp]
  exact h.bind fun a => .pure (f a)

theorem forM {f : γ → Scan Unit} (h : ∀ x, BuiltFrom basic (f x)) (l : List γ) :
    BuiltFrom basic (l.forM f) := by
  induction l with
  | nil => exact .pure ()
  | cons x l ih => exact (h x).bind fun _ => ih

theorem mapM {f : γ → Scan α} (h : ∀ x, BuiltFrom basic (f x)) (l : List γ) :
    BuiltFrom basic (l.mapM f) := by
  induction l with
  | nil => exact .pure []
  | cons x l ih =>
    rw [List.mapM_cons]
    exact (h x).bind fun a => ih.bind fun as => .pure (a :: as)

theorem foldlM {f : α → γ → Scan α} (h : ∀ a x, BuiltFrom basic (f a x)) (l : List γ) (a : α) :
    BuiltFrom basic (l.foldlM f a) := by
  induction l generalizing a with
  | nil => exact .pure a
  | cons x l ih =>
    rw [List.foldlM_cons]
    exact (h a x).bind ih

theorem identify (s : Session) (n : Node) : BuiltFrom basic (identify s n) := by
  unfold Scan.identify Scan.identify.liftExcept
  cases s.identify n with
  | ok id => exact .pure id
  | error e => exact .throw e

end BuiltFrom

/-! ## Detectors of components -/

section

open Template

variable (s : Session) (indent : Nat)

theorem records_recordReference (ident : Option Node) (name suffix : String) :
    Records (recordReference s ident name suffix indent) := by
  have hresolve : Records (resolveReference s ident name suffix indent) := by
    unfold resolveReference
    split
    · exact (BuiltFrom.identify s _).bind fun _ => .pure _
    · exact (BuiltFrom.log _ _).bind fun _ => .pure _
  refine hresolve.bind fun (id, _) => (BuiltFrom.basic (.reference id _)).bind fun stored => ?_
  cases stored with
  | true => exact (BuiltFrom.log _ _).bind fun _ => .pure id
  | false => exact (BuiltFrom.pure ()).bind fun _ => .pure id

theorem records_tagReference? (name : Node) : Records (tagReference? s name indent) := by
  have hrecord (ident : Option Node) (text suffix : String) :
      Records (some <$> recordReference s ident text suffix indent) :=
    (records_recordReference s indent ident text suffix).map some
  unfold tagReference?
  split
  · split
    · exact hrecord _ _ _
    · exact .pure none
  · split
    · exact hrecord _ _ _
    · exact .pure none
  · dsimp only
    split
    · exact .pure none
    · split <;> exact hrecord _ _ _
  · dsimp only
    split
    · exact .pure none
    · exact .throw _
  · exact .pure none

theorem records_findJsx (root : Node) : Records (findJsx s root indent) := by
  have hopening (opening : Node) (indent : Nat) : Records (openingReferences s opening indent) := by
    have hattributes := BuiltFrom.mapM (fun value =>
      records_recordReference s indent (some value) (nameOr "" value) "")
      (opening.children.filterMap attributeComponent?)
    unfold openingReferences
    split
    · exact (records_tagReference? s _ _).bind fun _ => hattributes.bind fun _ => .pure _
    · exact (BuiltFrom.pure none).bind fun _ => hattributes.bind fun _ => .pure _
  refine BuiltFrom.foldlM (fun found e => ?_) _ _
  obtain ⟨n, depth⟩ := e
  dsimp only
  unfold collect
  split
  · exact (hopening n _).bind fun _ => .pure _
  · exact .pure found

theorem records_functionComponent (v : Visit) : Records (FunctionComponent.visit s v indent) := by
  unfold FunctionComponent.visit
  split
  · split
    · exact (BuiltFrom.identify s _).bind fun _ => (records_findJsx s indent _).bind fun _ =>
        .basic (.define s _ _ _ _)
    · exact .pure ()
  · exact .pure ()

theorem records_takeMember (className : String) (owner : Identity) (references : List Identity)
    (member : Node) :
    Records (ClassComponent.takeMember s className owner indent references member) := by
  unfold ClassComponent.takeMember
  split
  · exact records_findJsx s indent _
  · refine BuiltFrom.bind ?_ fun _ => .pure references
    unfold ClassComponent.recordHelper
    split
    · exact (records_findJsx s indent _).bind fun _ => .basic (.define s _ _ _ _)
    · exact .pure ()
  · exact .pure references

theorem records_classComponent (config : Config) (v : Visit) :
    Records (ClassComponent.visit config s v indent) := by
  unfold ClassComponent.visit
  dsimp only
  split
  · split
    · exact (BuiltFrom.identify s _).bind fun _ =>
        (BuiltFrom.foldlM (records_takeMember s indent _ _) _ _).bind fun _ =>
          .basic (.define s _ _ _ _)
    · exact .log _ _
  · exact .pure ()

theorem records_lazyComponent (config : Config) (v : Visit) :
    Records (LazyComponent.visit config s v indent) := by
  unfold LazyComponent.visit
  split
  · split
    · exact .log _ _
    · split
      · exact .log _ _
      · refine (BuiltFrom.identify s _).bind fun id =>
          (BuiltFrom.basic (.reference id _)).bind fun stored => ?_
        cases stored with
        | true => exact .log _ _
        | false => exact .pure ()
  · exact .pure ()

theorem records_exportAlias (v : Visit) : Records (ExportAlias.visit s v) := by
  refine BuiltFrom.forM (fun (name, exported) => ?_) _
  dsimp only
  unfold ExportAlias.noteAlias
  split
  · exact (BuiltFrom.identify s _).bind fun id => .basic (.note id exported)
  · exact .pure ()

/-! ## The detector of annotations -/

theorem annotates_takeTag (config : Config) (doc : DocComment) (parent : Identity) (tag : DocTag) :
    Annotates (AnnotationTags.takeTag config s doc parent indent tag) := by
  have hannotate (a : Annotation) (message : String) :
      Annotates (AnnotationTags.annotate a >>= fun _ => log indent message) :=
    (BuiltFrom.basic (.annotate a)).bind fun _ => .log _ _
  unfold AnnotationTags.takeTag
  split
  · unfold AnnotationTags.takeCrossReference
    split
    · exact .log _ _
    · exact hannotate _ _
  · split
    · exact hannotate _ _
    · exact .pure ()

theorem annotates_parentIdentity? (v : Visit) (target : AnnotationTags.Target) :
    Annotates (AnnotationTags.parentIdentity? s v target indent) := by
  unfold AnnotationTags.parentIdentity?
  split
  · exact (BuiltFrom.identify s _).map some
  · split
    · exact (BuiltFrom.identify s _).bind fun _ => .pure _
    · exact (BuiltFrom.log _ _).bind fun _ => .pure none

theorem annotates_annotationTags (config : Config) (v : Visit) :
    Annotates (AnnotationTags.visit config s v indent) := by
  -- Of the state in which it starts the detector reads only which comments are taken.
  have hread {g : List Nat → Scan Unit} (hg : ∀ claimed, Annotates (g claimed)) :
      Annotates (get >>= fun st => g st.claimed) := by
    have hclaimed : Annotates (ScanState.claimed <$> get) := .basic .claimed
    exact hclaimed.bind hg
  unfold AnnotationTags.visit
  refine hread (g := fun claimed =>
    if (s.docsAt v.node.start).isEmpty || claimed.contains v.node.start then return
    else _) fun claimed => ?_
  split
  · exact .pure ()
  · split
    · exact .pure ()
    · refine (BuiltFrom.basic (.claim _)).bind fun _ =>
        (annotates_parentIdentity? s indent v _).bind fun parent => ?_
      cases parent with
      | none => exact .pure ()
      | some parent =>
        exact BuiltFrom.forM (fun doc => BuiltFrom.forM
          (annotates_takeTag s indent config doc parent) _) _

end

/-! ## All detectors -/

/-- The detectors of components. -/
def componentDetectors : List Detector :=
  [FunctionComponent.detector, ClassComponent.detector, LazyComponent.detector,
    ExportAlias.detector]

theorem mem_detectors_iff {d : Detector} :
    d ∈ detectors ↔ d ∈ componentDetectors ∨ d = AnnotationTags.detector := by
  have hdetectors : detectors = componentDetectors ++ [AnnotationTags.detector] := rfl
  rw [hdetectors, List.mem_append, List.mem_singleton]

theorem records_of_mem {d : Detector} (hd : d ∈ componentDetectors) (config : Config) (s : Session)
    (v : Visit) (indent : Nat) : Records (d.visit config s v indent) := by
  simp only [componentDetectors, List.mem_cons, List.not_mem_nil, or_false] at hd
  rcases hd with rfl | rfl | rfl | rfl
  · exact records_functionComponent s indent v
  · exact records_classComponent s indent config v
  · exact records_lazyComponent s indent config v
  · exact records_exportAlias s v

/-! ## Runs of steps -/

theorem run_log (indent : Nat) (message : String) (st : ScanState) :
    (log indent message).run st =
      (.ok (), { st with log := st.log ++ [logLine indent message] }) := rfl

theorem run_update {α : Type} (change : ScanReport → α × ScanReport) (st : ScanState) :
    (update change).run st =
      (.ok (change st.report).1, { st with report := (change st.report).2 }) := rfl

section

variable {α : Type} {st : ScanState} {m : Scan α}

theorem Emits.exists_run {a : α} {events : List Event} (h : Emits st m (.ok (a, events))) :
    ∃ log, m.run st = (.ok a, { st.takeAll events with log }) := by
  obtain ⟨log, h⟩ := h
  have hown : (st.takeAll events).withRepo st.report.repo = st.takeAll events :=
    (st.takeAll_withRepo st.report.repo events).symm
  refine ⟨log, (h st.report.repo).trans ?_⟩
  change (Except.ok a, { (st.takeAll events).withRepo st.report.repo with log }) = _
  rw [hown]

theorem Emits.eq_error {t : Trace α} {e : ScanError} (h : Emits st m t)
    (he : (m.run st).1 = .error e) : t = .error e := by
  cases t with
  | ok b =>
    obtain ⟨log, h⟩ := Emits.exists_run h
    rw [h] at he
    cases he
  | error e' =>
    obtain ⟨st', h⟩ := h st.report.repo
    replace h : m.run st = (.error e', st') := h
    rw [h] at he
    cases he
    rfl

theorem Emits.eq_ok {t : Trace α} {a : α} {st' : ScanState} (h : Emits st m t)
    (hrun : m.run st = (.ok a, st')) :
    ∃ events log, t = .ok (a, events) ∧ st' = { st.takeAll events with log } := by
  cases t with
  | ok b =>
    obtain ⟨log, h⟩ := Emits.exists_run h
    rw [h] at hrun
    cases hrun
    exact ⟨b.2, log, rfl, rfl⟩
  | error e =>
    obtain ⟨st₂, h⟩ := h st.report.repo
    replace h : m.run st = (.error e, st₂) := h
    rw [h] at hrun
    cases hrun

end

theorem exists_run_applyAlias (id : Identity) (exported : String) (st : ScanState) :
    ∃ log, (ExportAlias.applyAlias id exported).run st =
      (.ok (), { st with report := st.report.applyAlias (id, exported), log }) := by
  obtain ⟨log, h⟩ := ExportAlias.run_applyAlias id exported st
  have hown : (st.report.applyAlias (id, exported)).withRepo st.report.repo =
      st.report.applyAlias (id, exported) :=
    (st.report.applyAlias_withRepo st.report.repo (id, exported)).symm
  refine ⟨log, (h st.report.repo).trans ?_⟩
  rw [ScanState.withRepo, hown]

/-! ## What steps keep and what they pass on -/

/-- Whether a step keeps a property of the state, also if it fails. -/
def Keeps {α : Type} (P : ScanState → Prop) (m : Scan α) : Prop :=
  ∀ st, P st → P (m.run st).2

/-- Whether a step does not look at what a function changes in the state, and leaves it as it is. -/
def PassesOn {α : Type} (f : ScanState → ScanState) (m : Scan α) : Prop :=
  ∀ st, m.run (f st) = ((m.run st).1, f (m.run st).2)

section

variable {basic : (α : Type) → Scan α → Prop} {α β : Type} {P : ScanState → Prop}
  {f : ScanState → ScanState} {m : Scan α} {g : α → Scan β}

theorem Keeps.bind (h : Keeps P m) (hg : ∀ a, Keeps P (g a)) : Keeps P (m >>= g) := by
  intro st hst
  have hm := h st hst
  rw [run_bind]
  generalize m.run st = x at hm ⊢
  obtain ⟨_ | a, st'⟩ := x
  · exact hm
  · exact hg a st' hm

theorem Keeps.of_builtFrom (hlog : ∀ indent message, Keeps P (log indent message))
    (hbasic : ∀ {α : Type} {m : Scan α}, basic α m → Keeps P m) (h : BuiltFrom basic m) :
    Keeps P m := by
  induction h with
  | basic h => exact hbasic h
  | pure a => exact fun _ hst => hst
  | throw e => exact fun _ hst => hst
  | log indent message => exact hlog indent message
  | bind _ _ ih ihf => exact ih.bind ihf

theorem PassesOn.bind (h : PassesOn f m) (hg : ∀ a, PassesOn f (g a)) : PassesOn f (m >>= g) := by
  intro st
  rw [run_bind, run_bind, h st]
  rcases m.run st with ⟨_ | a, st'⟩
  · rfl
  · exact hg a st'

theorem PassesOn.forM {γ : Type} {g : γ → Scan Unit} (h : ∀ x, PassesOn f (g x)) (l : List γ) :
    PassesOn f (l.forM g) := by
  induction l with
  | nil => exact fun _ => rfl
  | cons x l ih => exact (h x).bind fun _ => ih

theorem PassesOn.of_builtFrom (hlog : ∀ indent message, PassesOn f (log indent message))
    (hbasic : ∀ {α : Type} {m : Scan α}, basic α m → PassesOn f m) (h : BuiltFrom basic m) :
    PassesOn f m := by
  induction h with
  | basic h => exact hbasic h
  | pure a => exact fun _ => rfl
  | throw e => exact fun _ => rfl
  | log indent message => exact hlog indent message
  | bind _ _ ih ihf => exact ih.bind ihf

end

end Scan

end ComponentScan
