import ComponentScan.Proofs.Scan.Steps
import ComponentScan.Proofs.Session.Parsed

/-!
# The order of detectors

At each node at most one of the detectors of components does anything (`eq_or_idle`), and it works
on other parts of the state than the detector of annotations, apart from the log. If both of them
fail they fail alike (`error_eq`). So the order in which the detectors run at a node shows in
nothing but the order of the log (`detect_perm`).
-/

namespace ComponentScan

open Syntax

/-! ## States but for the order of their logs -/

namespace ScanReport

/-- A report with the components and exports of another one. -/
def withComponents (r other : ScanReport) : ScanReport :=
  { r with
    exports := other.exports
    components := other.components }

variable (r other : ScanReport) (id : Identity)

theorem define_withComponents (c : DefinedComponent) :
    (r.withComponents other).define id c =
      ((other.define id c).1, r.withComponents (other.define id c).2) := by
  have hdefined : (r.withComponents other).defined? id = other.defined? id := rfl
  rw [define, define, hdefined]
  cases other.defined? id <;> rfl

theorem reference_withComponents (c : ReferencedComponent) :
    (r.withComponents other).reference id c =
      ((other.reference id c).1, r.withComponents (other.reference id c).2) := by
  have hget : (r.withComponents other).components.get? id = other.components.get? id := rfl
  rw [reference, reference, hget]
  cases other.components.get? id <;> rfl

theorem markExported_withComponents :
    (r.withComponents other).markExported id = r.withComponents (other.markExported id) := by
  have hexports : (r.withComponents other).exports = other.exports := rfl
  rw [markExported, markExported, hexports]
  split <;> rfl

theorem updateDefined_withComponents (f : DefinedComponent → DefinedComponent) :
    (r.withComponents other).updateDefined id f = r.withComponents (other.updateDefined id f) := by
  have hdefined : (r.withComponents other).defined? id = other.defined? id := rfl
  rw [updateDefined, updateDefined, hdefined]
  cases other.defined? id <;> rfl

end ScanReport

namespace ScanState

/-- Whether two states differ at most in the order of their logs. -/
structure SameButLog (st st' : ScanState) : Prop where
  rest : { st with log := [] } = { st' with log := [] }
  log : st.log.Perm st'.log

theorem SameButLog.refl (st : ScanState) : st.SameButLog st :=
  ⟨rfl, .refl _⟩

theorem SameButLog.symm {st st' : ScanState} (h : st.SameButLog st') : st'.SameButLog st :=
  ⟨h.rest.symm, h.log.symm⟩

theorem SameButLog.trans {st st' st'' : ScanState} (h : st.SameButLog st')
    (h' : st'.SameButLog st'') : st.SameButLog st'' :=
  ⟨h.rest.trans h'.rest, h.log.trans h'.log⟩

/-- A state with the components, exports and aliases of another one, whose log follows its own. -/
def withComponents (st other : ScanState) : ScanState :=
  { st with
    report := st.report.withComponents other.report
    aliases := other.aliases
    log := st.log ++ other.log }

/-- A state with the annotations and taken comments of another one, whose log follows its own. -/
def withAnnotations (st other : ScanState) : ScanState :=
  { st with
    report := { st.report with annotations := other.report.annotations }
    claimed := other.claimed
    log := st.log ++ other.log }

theorem withComponents_self (st : ScanState) : st.withComponents { st with log := [] } = st := by
  simp [withComponents, ScanReport.withComponents]

theorem withAnnotations_self (st : ScanState) : st.withAnnotations { st with log := [] } = st := by
  simp [withAnnotations]

end ScanState

namespace Scan

/-- The ends of two steps: both fail alike, or both have one result and states that differ at most
in the order of their logs. -/
inductive SameEnd {α : Type} :
    Except ScanError α × ScanState → Except ScanError α × ScanState → Prop
  | error (e : ScanError) (st st' : ScanState) : SameEnd (.error e, st) (.error e, st')
  | ok (a : α) {st st' : ScanState} (h : st.SameButLog st') : SameEnd (.ok a, st) (.ok a, st')

/-- Whether two steps end alike wherever they start, but for the order of the log. -/
def Same {α : Type} (m m' : Scan α) : Prop :=
  ∀ ⦃st st' : ScanState⦄, st.SameButLog st' → SameEnd (m.run st) (m'.run st')

variable {α β : Type}

theorem SameEnd.symm {x y : Except ScanError α × ScanState} (h : SameEnd x y) : SameEnd y x := by
  cases h with
  | error e st st' => exact .error e st' st
  | ok a h => exact .ok a h.symm

theorem SameEnd.trans {x y z : Except ScanError α × ScanState} (h : SameEnd x y)
    (h' : SameEnd y z) : SameEnd x z := by
  cases h with
  | error e st st' =>
    cases h' with
    | error _ _ st'' => exact .error e st st''
  | ok a h =>
    cases h' with
    | ok _ h' => exact .ok a (h.trans h')

theorem Same.symm {m m' : Scan α} (h : Same m m') : Same m' m :=
  fun _ _ hst => (h hst.symm).symm

theorem Same.trans {m m' m'' : Scan α} (h : Same m m') (h' : Same m' m'') : Same m m'' :=
  fun _ _ hst => (h hst).trans (h' (.refl _))

theorem Same.bind {m m' : Scan α} {f f' : α → Scan β} (h : Same m m')
    (hf : ∀ a, Same (f a) (f' a)) : Same (m >>= f) (m' >>= f') := by
  intro st st' hst
  have hend := h hst
  rw [run_bind, run_bind]
  cases hm : m.run st
  cases hm' : m'.run st'
  rw [hm, hm'] at hend
  cases hend with
  | error e => exact .error e _ _
  | ok a hst => exact hf a hst

/-! ## Steps on different parts of the state -/

section

variable {m : Scan α}

theorem passesOn_update {change : ScanReport → α × ScanReport}
    (h : ∀ r other : ScanReport, change (r.withComponents other) =
      ((change other).1, r.withComponents (change other).2)) (st : ScanState) :
    PassesOn st.withComponents (update change) := by
  intro st'
  have hreport : (st.withComponents st').report = st.report.withComponents st'.report := rfl
  rw [run_update, run_update, hreport, h]
  rfl

theorem passesOn_log (indent : Nat) (message : String) (st : ScanState) :
    PassesOn st.withComponents (log indent message) := fun st' => by
  simp [run_log, ScanState.withComponents]

theorem passesOn_withComponents (st : ScanState) (h : Records m) :
    PassesOn st.withComponents m := by
  refine PassesOn.of_builtFrom (fun indent message => passesOn_log indent message st)
    (fun h => ?_) h
  cases h with
  | reference id c =>
    exact passesOn_update (fun r other => r.reference_withComponents other id c) st
  | define s c id references indent =>
    refine PassesOn.bind (passesOn_update (fun r other => r.define_withComponents other id _) st)
      fun stored => ?_
    cases stored with
    | true =>
      cases (c.component s references).exportedAs with
      | some _ =>
        refine PassesOn.bind (passesOn_update (fun r other => ?_) st) fun _ => passesOn_log _ _ st
        rw [r.markExported_withComponents other id]
      | none => exact passesOn_log _ _ st
    | false => exact passesOn_log _ _ st
  | note id exported => exact fun st' => rfl

theorem passesOn_withAnnotations (st : ScanState) (h : Annotates m) :
    PassesOn st.withAnnotations m := by
  refine PassesOn.of_builtFrom (fun indent message st' => ?_) (fun h => ?_) h
  · simp [run_log, ScanState.withAnnotations]
  · cases h <;> exact fun st' => rfl

/-- A step that passes on what is different in two states but for their logs ends alike. -/
theorem same_self_of_passesOn {f : ScanState → ScanState → ScanState}
    (hself : ∀ st, f st { st with log := [] } = st)
    (hlog : ∀ st st', (f st st').log = st.log ++ st'.log)
    (hrest : ∀ st st', { f st st' with log := [] } = { f { st with log := [] } st' with log := [] })
    (hm : ∀ st, PassesOn (f st) m) : Same m m := by
  intro st st' hst
  have hrun (st : ScanState) := hm st { st with log := [] }
  simp only [hself] at hrun
  rw [hrun st, hrun st', ← hst.rest]
  rcases m.run { st with log := [] } with ⟨_ | a, t⟩
  · exact .error _ _ _
  · refine .ok a ⟨?_, ?_⟩
    · rw [hrest st, hrest st', hst.rest]
    · rw [hlog, hlog]
      exact hst.log.append_right _

theorem Records.same_self (h : Records m) : Same m m :=
  same_self_of_passesOn ScanState.withComponents_self (fun _ _ => rfl) (fun _ _ => rfl)
    fun st => passesOn_withComponents st h

theorem Annotates.same_self (h : Annotates m) : Same m m :=
  same_self_of_passesOn ScanState.withAnnotations_self (fun _ _ => rfl) (fun _ _ => rfl)
    fun st => passesOn_withAnnotations st h

end

/-- A step that records and a step that annotates may be exchanged, if they fail alike. -/
theorem same_swap {m m' : Scan Unit} (h : Records m) (h' : Annotates m')
    (herror : ∀ st e e', (m.run st).1 = .error e → (m'.run st).1 = .error e' → e = e') :
    Same (m >>= fun _ => m') (m' >>= fun _ => m) := by
  intro st st' hst
  let start : ScanState := { st with log := [] }
  have hstart : { st' with log := [] } = start := hst.rest.symm
  rcases hm : m.run start with ⟨x, t⟩
  rcases hm' : m'.run start with ⟨x', t'⟩
  have hfirst : m.run st = (x, st.withComponents t) := by
    have := passesOn_withComponents st h start
    rwa [hm, st.withComponents_self] at this
  have hfirst' : m'.run st' = (x', st'.withAnnotations t') := by
    have := passesOn_withAnnotations st' h' start
    rwa [hm', ← hstart, st'.withAnnotations_self] at this
  -- Each step finds its own part of the state as it was at the start.
  have hsecond : m'.run (st.withComponents t) =
      (x', (st.withComponents t).withAnnotations t') := by
    have heq : (st.withComponents t).withAnnotations start = st.withComponents t := by
      simp [ScanState.withAnnotations, ScanState.withComponents, ScanReport.withComponents, start]
    have := passesOn_withAnnotations (st.withComponents t) h' start
    rwa [hm', heq] at this
  have hsecond' : m.run (st'.withAnnotations t') =
      (x, (st'.withAnnotations t').withComponents t) := by
    have heq : (st'.withAnnotations t').withComponents start = st'.withAnnotations t' := by
      simp [ScanState.withAnnotations, ScanState.withComponents, ScanReport.withComponents,
        ← hstart]
    have := passesOn_withComponents (st'.withAnnotations t') h start
    rwa [hm, heq] at this
  rw [run_bind, run_bind, hfirst, hfirst']
  match x, x' with
  | .error e, .error e' =>
    cases herror start e e' (congrArg Prod.fst hm) (congrArg Prod.fst hm')
    exact .error e _ _
  | .error e, .ok () =>
    dsimp only
    rw [hsecond']
    exact .error e _ _
  | .ok (), .error e' =>
    dsimp only
    rw [hsecond]
    exact .error e' _ _
  | .ok (), .ok () =>
    dsimp only
    rw [hsecond, hsecond']
    refine .ok () ⟨?_, ?_⟩
    · have hrest (st : ScanState) : { (st.withAnnotations t').withComponents t with log := [] } =
          { (({ st with log := [] } : ScanState).withComponents t).withAnnotations t' with
            log := [] } := rfl
      rw [hrest st', hstart]
      rfl
    · simp only [ScanState.withAnnotations, ScanState.withComponents, List.append_assoc]
      exact hst.log.append List.perm_append_comm

end Scan

/-! ## Detectors at a node -/

open Scan

/-- The detector of components that looks at nodes of a kind. -/
def componentDetector : Kind → Detector
  | .function true | .variableDeclarator => FunctionComponent.detector
  | .classNode true => ClassComponent.detector
  | .importExpression => LazyComponent.detector
  | _ => ExportAlias.detector

/-- Whether a detector does nothing at a node. -/
def Detector.IsIdleAt (config : Config) (s : Session) (d : Detector) (v : Visit) : Prop :=
  ∀ indent, d.visit config s v indent = pure ()

section

variable {config : Config} {s : Session} {v : Visit} {d d' : Detector}

theorem functionComponent_eq_or_idle (s : Session) (v : Visit) :
    FunctionComponent.detector = componentDetector v.node.kind ∨
      FunctionComponent.detector.IsIdleAt config s v := by
  by_cases hcandidate : FunctionComponent.candidate? v = none
  · refine .inr fun indent => ?_
    change FunctionComponent.visit s v indent = _
    rw [FunctionComponent.visit, hcandidate]
  · left
    unfold FunctionComponent.candidate? at hcandidate
    split at hcandidate
    · next hkind =>
      rw [hkind]
      rfl
    · next hkind =>
      rw [hkind]
      rfl
    · exact absurd rfl hcandidate

theorem classComponent_eq_or_idle (config : Config) (s : Session) (v : Visit) :
    ClassComponent.detector = componentDetector v.node.kind ∨
      ClassComponent.detector.IsIdleAt config s v := by
  by_cases hkind : v.node.kind = .classNode true
  · rw [hkind]
    exact .inl rfl
  · refine .inr fun indent => ?_
    change ClassComponent.visit config s v indent = _
    unfold ClassComponent.visit
    dsimp only
    split
    · exact absurd ‹_› hkind
    · rfl

theorem lazyComponent_eq_or_idle (config : Config) (s : Session) (v : Visit) :
    LazyComponent.detector = componentDetector v.node.kind ∨
      LazyComponent.detector.IsIdleAt config s v := by
  by_cases hkind : v.node.kind = .importExpression
  · rw [hkind]
    exact .inl rfl
  · refine .inr fun indent => ?_
    change LazyComponent.visit config s v indent = _
    unfold LazyComponent.visit
    split
    · exact absurd ‹_› hkind
    · rfl

theorem exportAlias_eq_or_idle (s : Session) (v : Visit) :
    ExportAlias.detector = componentDetector v.node.kind ∨
      ExportAlias.detector.IsIdleAt config s v := by
  by_cases hnames : ExportAlias.exportedNames v.node = []
  · refine .inr fun indent => ?_
    change ExportAlias.visit s v = _
    rw [ExportAlias.visit, hnames]
    rfl
  · left
    unfold ExportAlias.exportedNames at hnames
    split at hnames
    · next hkind =>
      rw [hkind]
      rfl
    · next hkind _ =>
      rw [hkind]
      rfl
    · exact absurd rfl hnames

/-- At each node only one detector of components may do anything. -/
theorem eq_or_idle (config : Config) (s : Session) (v : Visit) (hd : d ∈ componentDetectors) :
    d = componentDetector v.node.kind ∨ d.IsIdleAt config s v := by
  simp only [componentDetectors, List.mem_cons, List.not_mem_nil, or_false] at hd
  rcases hd with rfl | rfl | rfl | rfl
  · exact functionComponent_eq_or_idle s v
  · exact classComponent_eq_or_idle config s v
  · exact lazyComponent_eq_or_idle config s v
  · exact exportAlias_eq_or_idle s v

/-! ## Failures at a node -/

theorem FunctionComponent.of_events_error {e : ScanError}
    (h : FunctionComponent.events s v = .error e) :
    v.node.kind = .variableDeclarator ∨
      v.node.kind = .function true ∧ ∀ e', s.identify v.node = .error e' → e = e' := by
  unfold FunctionComponent.events at h
  split at h
  · next candidate body hcandidate =>
    unfold FunctionComponent.candidate? at hcandidate
    split at hcandidate
    · next hkind =>
      simp only [FunctionComponent.ofFunction?, Option.bind_eq_bind,
        Option.bind_eq_some_iff] at hcandidate
      obtain ⟨name, -, body', -, heq⟩ := hcandidate
      cases heq
      refine .inr ⟨hkind, fun e' he' => ?_⟩
      dsimp only at h
      rw [he'] at h
      split at h <;> cases h
      rfl
    · next hkind => exact .inl hkind
    · cases hcandidate
  · cases h

theorem ClassComponent.of_events_error {e : ScanError}
    (h : ClassComponent.events config s v = .error e) :
    v.node.kind = .classNode true ∧ ∀ e', s.identify v.node = .error e' → e = e' := by
  unfold ClassComponent.events at h
  split at h
  · next hkind _ _ =>
    refine ⟨hkind, fun e' he' => ?_⟩
    rw [ClassComponent.classEvents, he'] at h
    dsimp only at h
    split at h <;> cases h
    rfl
  · cases h

theorem LazyComponent.of_events_error {e : ScanError}
    (h : LazyComponent.events config s v = .error e) : v.node.kind = .importExpression := by
  unfold LazyComponent.events at h
  split at h
  · assumption
  · cases h

/-- What the comments of a function, class or variable are attached to. -/
theorem targetOf?_of_kind {n : Node} :
    (n.kind = .function true ∨ n.kind = .classNode true →
      AnnotationTags.targetOf? n = some (.declaration n)) ∧
    (n.kind = .variableDeclarator ∨ n.kind = .importExpression →
      AnnotationTags.targetOf? n = none) := by
  constructor <;> rintro (hkind | hkind) <;>
    simp [AnnotationTags.targetOf?, AnnotationTags.isDeclaration, hkind]

theorem exists_targetIdentity?_of_error {claimed : List Nat} {e : ScanError}
    (h : AnnotationTags.events config s claimed v = .error e) :
    ∃ target, AnnotationTags.targetOf? v.node = some target ∧
      AnnotationTags.targetIdentity? s v target = .error e := by
  unfold AnnotationTags.events at h
  dsimp only at h
  split at h
  · cases h
  · split at h
    · next target htarget =>
      refine ⟨target, htarget, ?_⟩
      cases hidentity : AnnotationTags.targetIdentity? s v target with
      | error e' =>
        rw [hidentity] at h
        cases h
        rfl
      | ok parent =>
        rw [hidentity] at h
        cases h
    · cases h

/-- A detector of components and that of annotations fail alike at a node, if both of them fail. -/
theorem error_eq {indent : Nat} {st : ScanState} {e e' : ScanError} (hd : d ∈ componentDetectors)
    (h : ((d.visit config s v indent).run st).1 = .error e)
    (h' : ((AnnotationTags.visit config s v indent).run st).1 = .error e') : e = e' := by
  have hannotations := (emits_annotationTags config s v indent st).eq_error h'
  obtain ⟨target, htarget, hidentity⟩ :=
    exists_targetIdentity?_of_error (error_map_iff.1 hannotations)
  -- Both look for the identity of the node first.
  have hidentify (hkind : v.node.kind = .function true ∨ v.node.kind = .classNode true) :
      s.identify v.node = .error e' := by
    rw [targetOf?_of_kind.1 hkind] at htarget
    cases htarget
    exact error_map_iff.1 hidentity
  have hfalse (hkind : v.node.kind = .variableDeclarator ∨ v.node.kind = .importExpression) :
      False := by
    rw [targetOf?_of_kind.2 hkind] at htarget
    cases htarget
  simp only [componentDetectors, List.mem_cons, List.not_mem_nil, or_false] at hd
  rcases hd with rfl | rfl | rfl | rfl
  · have hevents := error_map_iff.1 ((traces_functionComponent s v indent st).eq_error h)
    rcases FunctionComponent.of_events_error hevents with hkind | ⟨hkind, he⟩
    · exact (hfalse (.inl hkind)).elim
    · exact he e' (hidentify (.inl hkind))
  · have hevents := error_map_iff.1 ((traces_classComponent config s v indent st).eq_error h)
    obtain ⟨hkind, he⟩ := ClassComponent.of_events_error hevents
    exact he e' (hidentify (.inr hkind))
  · have hevents := error_map_iff.1 ((traces_lazyComponent config s v indent st).eq_error h)
    exact (hfalse (.inr (LazyComponent.of_events_error hevents))).elim
  · cases (traces_exportAlias s v st).eq_error h

/-! ## Order at a node -/

theorem same_self_of_mem (config : Config) (s : Session) (v : Visit) (hd : d ∈ detectors)
    (indent : Nat) :
    Same (d.visit config s v indent) (d.visit config s v indent) := by
  rcases mem_detectors_iff.1 hd with hd | rfl
  · exact (records_of_mem hd config s v indent).same_self
  · exact (annotates_annotationTags s indent config v).same_self

/-- Two detectors may be exchanged at a node. -/
theorem same_swap_of_mem (config : Config) (s : Session) (v : Visit) (hd : d ∈ detectors)
    (hd' : d' ∈ detectors) (indent : Nat) :
    Same (d.visit config s v indent >>= fun _ => d'.visit config s v indent)
      (d'.visit config s v indent >>= fun _ => d.visit config s v indent) := by
  have hself := same_self_of_mem config s v hd indent
  have hself' := same_self_of_mem config s v hd' indent
  have hannotates := annotates_annotationTags s indent config v
  rcases mem_detectors_iff.1 hd with hc | rfl
  · rcases mem_detectors_iff.1 hd' with hc' | rfl
    · rcases eq_or_idle config s v hc with heq | hidle
      · rcases eq_or_idle config s v hc' with heq' | hidle'
        · rw [heq.trans heq'.symm]
          exact hself'.bind fun _ => hself'
        · rw [hidle' indent, bind_pure_unit, pure_bind]
          exact hself
      · rw [hidle indent, bind_pure_unit, pure_bind]
        exact hself'
    · exact same_swap (records_of_mem hc config s v indent) hannotates fun _ _ _ => error_eq hc
  · rcases mem_detectors_iff.1 hd' with hc' | rfl
    · exact (same_swap (records_of_mem hc' config s v indent) hannotates
        fun _ _ _ => error_eq hc').symm
    · exact hself.bind fun _ => hself

/-- All detectors may run in any order at a node. -/
theorem same_forM_of_perm {chosen chosen' : List Detector} (hperm : chosen.Perm chosen')
    (hmem : ∀ d ∈ chosen, d ∈ detectors) (indent : Nat) :
    Same (chosen.forM fun d => d.visit config s v indent)
      (chosen'.forM fun d => d.visit config s v indent) := by
  have hself : ∀ rest : List Detector, (∀ d ∈ rest, d ∈ detectors) →
      Same (rest.forM fun d => d.visit config s v indent)
        (rest.forM fun d => d.visit config s v indent) := by
    intro rest hmem
    induction rest with
    | nil => exact fun _ _ hst => .ok () hst
    | cons d rest ih =>
      obtain ⟨hd, hmem⟩ := List.forall_mem_cons.1 hmem
      exact (same_self_of_mem config s v hd indent).bind fun _ => ih hmem
  induction hperm with
  | nil => exact fun _ _ hst => .ok () hst
  | cons d _ ih =>
    obtain ⟨hd, hmem⟩ := List.forall_mem_cons.1 hmem
    exact (same_self_of_mem config s v hd indent).bind fun _ => ih hmem
  | swap d d' rest =>
    obtain ⟨hd', hmem⟩ := List.forall_mem_cons.1 hmem
    obtain ⟨hd, hmem⟩ := List.forall_mem_cons.1 hmem
    have hswap := (same_swap_of_mem config s v hd' hd indent).bind
      fun _ => hself rest hmem
    rwa [bind_assoc, bind_assoc] at hswap
  | trans hperm _ ih ih' =>
    exact (ih hmem).trans (ih' fun d hd => hmem d (hperm.mem_iff.2 hd))

end

/-! ## Scans -/

theorem same_walk_of_perm (config : Config) (s : Session) {chosen : List Detector}
    (h : chosen.Perm detectors) :
    Same (walk s.root 0 (runDetectors config s chosen))
      (walk s.root 0 (runDetectors config s detectors)) := by
  have hcallback (chosen : List Detector) : runDetectors config s chosen =
      .ofStep fun v indent => chosen.forM fun d => d.visit config s v indent := rfl
  have hvisits (vs : List Visit) : Same
      (forVisits 0 (fun v indent => chosen.forM fun d => d.visit config s v indent) vs)
      (forVisits 0 (fun v indent => detectors.forM fun d => d.visit config s v indent) vs) := by
    induction vs with
    | nil => exact fun _ _ hst => .ok () hst
    | cons v vs ih =>
      rw [forVisits_cons, forVisits_cons]
      exact (same_forM_of_perm h (fun d => h.mem_iff.1) _).bind fun _ => ih
  rw [hcallback, hcallback, walk_ofStep, walk_ofStep]
  exact (hvisits _).bind fun _ _ _ hst => .ok none hst

theorem passesOn_applyAlias (st : ScanState) (id : Identity) (exported : String) :
    PassesOn st.withComponents (ExportAlias.applyAlias id exported) := by
  intro st'
  have hdefined : (st.withComponents st').report.defined? id = st'.report.defined? id := rfl
  have hget (st : ScanState) : (get : Scan ScanState).run st = (.ok st, st) := rfl
  unfold ExportAlias.applyAlias
  rw [run_bind, run_bind, hget, hget]
  dsimp only
  rw [hdefined]
  cases (st'.report.defined? id).isSome with
  | true =>
    refine PassesOn.bind (passesOn_update (fun r other => ?_) st)
      (fun _ => passesOn_log 0 _ st) st'
    rw [ScanReport.updateDefined_withComponents, ScanReport.markExported_withComponents]
  | false => exact passesOn_log 0 _ st st'

theorem same_applyAliases : Same ExportAlias.applyAliases ExportAlias.applyAliases := by
  refine same_self_of_passesOn ScanState.withComponents_self (fun _ _ => rfl) (fun _ _ => rfl)
    fun st st' => ?_
  exact PassesOn.forM (fun a => passesOn_applyAlias st a.1 a.2) st'.aliases st'

/-- The detectors may run in any order: a scan fails with the same error, or else makes the same
report but for the order of its log. -/
theorem detect_perm {chosen : List Detector} (h : chosen.Perm detectors) (config : Config)
    (s : Session) (repo : RepoMetadata) :
    (detect config s repo chosen true).1 = (detect config s repo detectors true).1 ∧
    ((detect config s repo detectors true).1 = none →
      let report := (detect config s repo chosen true).2
      let report' := (detect config s repo detectors true).2
      report.components = report'.components ∧ report.exports = report'.exports ∧
        assignSequenceKeys report.annotations = assignSequenceKeys report'.annotations ∧
        report.debugLog.Perm report'.debugLog) := by
  have hscan : Same (runScan config s chosen true) (runScan config s detectors true) :=
    (same_walk_of_perm config s h).bind fun _ => same_applyAliases
  have hend := hscan (.refl { report := .fresh s.path repo })
  unfold detect
  dsimp only
  generalize (runScan config s chosen true).run { report := .fresh s.path repo } = x at hend ⊢
  generalize (runScan config s detectors true).run { report := .fresh s.path repo } = y at hend ⊢
  cases hend with
  | error e st st' => exact ⟨rfl, nofun⟩
  | @ok _ st st' hst =>
    have hreport : st.report = st'.report := by
      injection hst.rest with hreport
    refine ⟨rfl, fun _ => ?_⟩
    dsimp only
    rw [hreport]
    exact ⟨rfl, rfl, rfl, hst.log⟩

/-- A component with a note on it, which is exported after its definition. -/
def exportedLater : String :=
  "/** @todo sort the rows */\nfunction List() \x7b return <Row/>; \x7d\n" ++
    "export \x7b List as Table \x7d;\n"

def exportedLaterSession : Session :=
  ((Session.ofSource "src/a.tsx" exportedLater).toOption).getD default

theorem detect_perm_reverse :
    Session.ofSource "src/a.tsx" exportedLater = .ok exportedLaterSession ∧
    (detect {} exportedLaterSession .placeholder detectors true).1 = none ∧
    (detect {} exportedLaterSession .placeholder detectors.reverse true).1 = none ∧
    (let report := (detect {} exportedLaterSession .placeholder detectors.reverse true).2
      let report' := (detect {} exportedLaterSession .placeholder detectors true).2
      report.components = report'.components ∧ report.exports = report'.exports ∧
        assignSequenceKeys report.annotations = assignSequenceKeys report'.annotations ∧
        report.debugLog.Perm report'.debugLog ∧ report.debugLog ≠ report'.debugLog ∧
        report.exports = ["src/a.tsx:List"]) := by
  obtain ⟨herror, hreport⟩ :=
    detect_perm detectors.reverse_perm {} exportedLaterSession .placeholder
  have htext : exportedLater.toList = _ :=
    toList_append_of String.toList_ofList String.toList_ofList
  obtain ⟨hsource, hok, hchanged, hexported⟩ :
      (Session.ofSource "src/a.tsx" exportedLater).toOption.isSome = true ∧
      (detect {} exportedLaterSession .placeholder detectors true).1 = none ∧
      (detect {} exportedLaterSession .placeholder detectors.reverse true).2.debugLog ≠
        (detect {} exportedLaterSession .placeholder detectors true).2.debugLog ∧
      (detect {} exportedLaterSession .placeholder detectors.reverse true).2.exports =
        ["src/a.tsx:List"] := by
    rw [exportedLaterSession, Session.ofSource, htext]
    decide +kernel
  obtain ⟨hcomponents, hexports, hannotations, hlog⟩ := hreport hok
  exact ⟨eq_ok_getD hsource, hok, herror.trans hok, hcomponents, hexports, hannotations, hlog,
    hchanged, hexported⟩

end ComponentScan
