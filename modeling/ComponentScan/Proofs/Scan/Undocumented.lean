import ComponentScan.Proofs.Scan.Records

/-!
# Reports without documentation

What a report is without the documentation of its components and its log
(`ScanReport.undocumented`), and that this is the report of the events without documentation
(`ScanReport.undocumented_reportOf`). Up to documentation the detectors of components make the same
events of a session whatever its documentation comments are (`Session.withDocs`).
-/

namespace ComponentScan

open Syntax Template

/-! ## Records -/

/-- The component without its documentation. -/
def DefinedComponent.undocumented (c : DefinedComponent) : DefinedComponent :=
  { c with description := { c.description with documentation := "" } }

def ComponentRecord.undocumented : ComponentRecord → ComponentRecord
  | defined c => .defined c.undocumented
  | referenced c => .referenced c

theorem ComponentRecord.asDefined?_undocumented (record : ComponentRecord) :
    record.undocumented.asDefined? = record.asDefined?.map DefinedComponent.undocumented := by
  cases record <;> rfl

namespace ComponentTable

def undocumented (t : ComponentTable) : ComponentTable :=
  ⟨t.entries.map fun e => (e.1, e.2.undocumented)⟩

theorem get?_undocumented (t : ComponentTable) (id : Identity) :
    t.undocumented.get? id = (t.get? id).map ComponentRecord.undocumented := by
  obtain ⟨entries⟩ := t
  unfold get? undocumented
  induction entries with
  | nil => rfl
  | cons e entries ih =>
    obtain ⟨k, record⟩ := e
    simp only [List.map_cons, List.lookup_cons] at ih ⊢
    cases id == k with
    | true => rfl
    | false => exact ih

theorem insert_undocumented (t : ComponentTable) (id : Identity) (record : ComponentRecord) :
    t.undocumented.insert id record.undocumented = (t.insert id record).undocumented := by
  obtain ⟨entries⟩ := t
  unfold insert undocumented
  refine congrArg ComponentTable.mk ?_
  dsimp only
  induction entries with
  | nil => rfl
  | cons e entries ih =>
    simp only [List.map_cons, insertInto]
    split
    · rfl
    · split
      · rfl
      · rw [ih, List.map_cons]

end ComponentTable

/-! ## Reports -/

/-- What an event leaves in a report but for documentation: taking comments leaves nothing. -/
def Event.recorded? : Event → Option Event
  | .define id c => some (.define id c.undocumented)
  | .claim _ => none
  | e => some e

namespace ScanReport

/-- The report without documentation and log. -/
def undocumented (r : ScanReport) : ScanReport :=
  { r with components := r.components.undocumented, debugLog := [] }

variable (r : ScanReport) (id : Identity)

theorem defined?_undocumented :
    r.undocumented.defined? id = (r.defined? id).map DefinedComponent.undocumented := by
  unfold defined?
  rw [undocumented, ComponentTable.get?_undocumented]
  cases r.components.get? id with
  | none => rfl
  | some record => exact record.asDefined?_undocumented

theorem markExported_undocumented :
    r.undocumented.markExported id = (r.markExported id).undocumented := by
  unfold markExported
  have hexports : r.undocumented.exports = r.exports := rfl
  rw [hexports]
  split <;> rfl

theorem insert_undocumented (record : ComponentRecord) :
    { r.undocumented with
        components := r.undocumented.components.insert id record.undocumented } =
      { r with components := r.components.insert id record }.undocumented := by
  unfold undocumented
  dsimp only
  rw [ComponentTable.insert_undocumented]

theorem define_undocumented (c : DefinedComponent) :
    r.undocumented.define id c.undocumented = ((r.define id c).1, (r.define id c).2.undocumented) := by
  unfold define
  rw [defined?_undocumented]
  cases r.defined? id with
  | some _ => rfl
  | none => exact congrArg (true, ·) (r.insert_undocumented id (.defined c))

theorem reference_undocumented (c : ReferencedComponent) :
    r.undocumented.reference id c = ((r.reference id c).1, (r.reference id c).2.undocumented) := by
  unfold reference
  have hget : r.undocumented.components.get? id =
      (r.components.get? id).map ComponentRecord.undocumented :=
    ComponentTable.get?_undocumented _ _
  rw [hget]
  cases r.components.get? id with
  | some _ => rfl
  | none => exact congrArg (true, ·) (r.insert_undocumented id (.referenced c))

theorem take_undocumented (e : Event) :
    (e.recorded?.elim r.undocumented r.undocumented.take) = (r.take e).undocumented := by
  cases e with
  | define id c =>
    have hexported : c.undocumented.exportedAs = c.exportedAs := rfl
    simp only [Event.recorded?, Option.elim_some, take, takeDefinition, define_undocumented,
      hexported]
    split
    · exact markExported_undocumented _ id
    · rfl
  | reference id c => exact congrArg Prod.snd (r.reference_undocumented id c)
  | annotate a => rfl
  | claim => rfl
  | «alias» => rfl

theorem takeAll_undocumented (events : List Event) :
    r.undocumented.takeAll (events.filterMap Event.recorded?) = (r.takeAll events).undocumented := by
  induction events generalizing r with
  | nil => rfl
  | cons e events ih =>
    have htake := r.take_undocumented e
    change _ = ((r.take e).takeAll events).undocumented
    rw [← ih, ← htake, List.filterMap_cons]
    cases e.recorded? <;> rfl

theorem applyAlias_undocumented (a : Identity × String) :
    r.undocumented.applyAlias a = (r.applyAlias a).undocumented := by
  unfold applyAlias
  rw [defined?_undocumented, Option.isSome_map]
  split
  · rw [← markExported_undocumented]
    congr 1
    unfold updateDefined
    rw [defined?_undocumented]
    cases r.defined? a.1 with
    | none => rfl
    | some c => exact r.insert_undocumented a.1 (.defined (ExportAlias.rename a.2 c))
  · rfl

theorem applyAliases_undocumented (aliases : List (Identity × String)) :
    aliases.foldl applyAlias r.undocumented = (aliases.foldl applyAlias r).undocumented := by
  induction aliases generalizing r with
  | nil => rfl
  | cons a aliases ih => rw [List.foldl_cons, List.foldl_cons, applyAlias_undocumented, ih]

/-- A report without documentation is the one of the events without documentation. -/
theorem undocumented_reportOf (path : String) (repo : RepoMetadata) (events : List Event) :
    (reportOf path repo events).undocumented =
      reportOf path repo (events.filterMap Event.recorded?) := by
  have haliases : (events.filterMap Event.recorded?).filterMap Event.alias? =
      events.filterMap Event.alias? := by
    rw [List.filterMap_filterMap]
    refine List.filterMap_congr fun e _ => ?_
    cases e <;> rfl
  have hfresh : (fresh path repo).undocumented = fresh path repo := rfl
  unfold reportOf
  dsimp only
  rw [haliases, ← hfresh, takeAll_undocumented, applyAliases_undocumented]
  rfl

end ScanReport

/-! ## Events -/

/-- The events of a step that are recorded, but for documentation. -/
def recordedOf (x : Except ScanError (List Event)) : Except ScanError (List Event) :=
  x.map (·.filterMap Event.recorded?)

/-- The trace with the events that are recorded, but for documentation. -/
def Trace.recorded {α : Type} (t : Trace α) : Trace α :=
  t.map fun e => (e.1, e.2.filterMap Event.recorded?)

section

variable {x x' : Except ScanError (List Event)}

theorem recordedOf_eq_iff : recordedOf x = recordedOf x' ↔
    (∃ e, x = .error e ∧ x' = .error e) ∨ ∃ events events', x = .ok events ∧ x' = .ok events' ∧
      events.filterMap Event.recorded? = events'.filterMap Event.recorded? :=
  map_eq_map_iff

theorem exists_ok_of_recordedOf (h : recordedOf x = recordedOf x') {events : List Event}
    (hevents : x' = .ok events) : ∃ events', x = .ok events' := by
  obtain ⟨e, -, he⟩ | ⟨events', -, hevents', -⟩ := recordedOf_eq_iff.1 h
  · cases hevents.symm.trans he
  · exact ⟨events', hevents'⟩

theorem recordedOf_append {y y' : List Event → Except ScanError (List Event)}
    (hx : recordedOf x = recordedOf x')
    (hy : ∀ events events', x = .ok events → x' = .ok events' →
      recordedOf (y events) = recordedOf (y' events')) :
    recordedOf (do
      let first ← x
      let others ← y first
      return first ++ others) = recordedOf (do
      let first ← x'
      let others ← y' first
      return first ++ others) := by
  obtain ⟨e, rfl, rfl⟩ | ⟨first, first', rfl, rfl, hfirst⟩ := recordedOf_eq_iff.1 hx
  · rfl
  obtain ⟨e, h, h'⟩ | ⟨others, others', h, h', hothers⟩ :=
    recordedOf_eq_iff.1 (hy first first' rfl rfl)
  · simp only [bind, Except.bind, h, h']
  · simp only [bind, Except.bind, pure, Except.pure, h, h', recordedOf, Except.map,
      List.filterMap_append, hfirst, hothers]

theorem recordedOf_concatEvents {xs ys : List (Except ScanError (List Event))}
    (h : List.Forall₂ (fun x y => recordedOf x = recordedOf y) xs ys) :
    recordedOf (concatEvents xs) = recordedOf (concatEvents ys) := by
  induction h with
  | nil => rfl
  | cons hfirst _ ih => exact recordedOf_append hfirst fun _ _ _ _ => ih

theorem Trace.recorded_bind {α β : Type} {t t' : Except ScanError (α × List Event)}
    {u u' : α → Except ScanError (β × List Event)} (ht : Trace.recorded t = Trace.recorded t')
    (hu : ∀ a, Trace.recorded (u a) = Trace.recorded (u' a)) :
    Trace.recorded (do
      let (a, first) ← t
      let (b, others) ← u a
      return (b, first ++ others) : Except ScanError (β × List Event)) = Trace.recorded (do
      let (a, first) ← t'
      let (b, others) ← u' a
      return (b, first ++ others) : Except ScanError (β × List Event)) := by
  obtain ⟨e, rfl, rfl⟩ | ⟨⟨a, first⟩, ⟨a', first'⟩, rfl, rfl, heq⟩ := map_eq_map_iff.1 ht
  · rfl
  simp only [Prod.mk.injEq] at heq
  obtain ⟨rfl, hfirst⟩ := heq
  obtain ⟨e, h, h'⟩ | ⟨⟨b, others⟩, ⟨b', others'⟩, h, h', heq⟩ := map_eq_map_iff.1 (hu a)
  · simp only [bind, Except.bind, h, h']
  · simp only [Prod.mk.injEq] at heq
    obtain ⟨rfl, hothers⟩ := heq
    simp only [bind, Except.bind, pure, Except.pure, h, h', Trace.recorded, Except.map,
      List.filterMap_append, hfirst, hothers]

end

/-! ## Sessions with other comments -/

namespace Session

/-- The session with other documentation comments. -/
def withDocs (s : Session) (docs : List (Nat × DocComment)) : Session :=
  { s with docs }

variable (config : Config) (s : Session) (docs : List (Nat × DocComment)) (v : Visit)

theorem identifyWithin_withDocs (steps : Nat) (n : Node) :
    (s.withDocs docs).identifyWithin steps n = s.identifyWithin steps n := by
  have hsymbol (n : Node) : (s.withDocs docs).symbolAt? n = s.symbolAt? n := rfl
  have hname (n : Node) : (s.withDocs docs).nodeName n = s.nodeName n := rfl
  have hprint (n : Node) : (s.withDocs docs).print n = s.print n := rfl
  induction steps generalizing n with
  | zero =>
    unfold identifyWithin
    rw [hsymbol, hname, hprint]
    rfl
  | succ steps ih =>
    unfold identifyWithin
    rw [hsymbol, hname, hprint]
    cases s.symbolAt? n with
    | some symbol => rfl
    | none =>
      cases nameBearer? n with
      | none => rfl
      | some child => exact ih child

@[simp] theorem identify_withDocs (n : Node) : (s.withDocs docs).identify n = s.identify n :=
  s.identifyWithin_withDocs docs 2 n

theorem targetIdentity?_withDocs (target : AnnotationTags.Target) :
    AnnotationTags.targetIdentity? (s.withDocs docs) v target =
      AnnotationTags.targetIdentity? s v target := by
  unfold AnnotationTags.targetIdentity?
  simp only [identify_withDocs]

theorem lazyComponent_withDocs :
    LazyComponent.events config (s.withDocs docs) v = LazyComponent.events config s v := by
  unfold LazyComponent.events
  simp only [identify_withDocs]
  rfl

theorem exportAlias_withDocs (n : Node) :
    ExportAlias.events (s.withDocs docs) n = ExportAlias.events s n := rfl

theorem mentions_withDocs (root : Node) : mentions (s.withDocs docs) root = mentions s root := by
  unfold mentions
  induction descendants root with
  | nil => rfl
  | cons n rest ih =>
    have hnode : nodeMentions (s.withDocs docs) n = nodeMentions s n := rfl
    rw [allMentions, allMentions, hnode, ih]

theorem functionComponent_withDocs :
    recordedOf (FunctionComponent.events (s.withDocs docs) v) =
      recordedOf (FunctionComponent.events s v) := by
  unfold FunctionComponent.events
  split
  · next candidate body hcandidate =>
    split
    · rw [identify_withDocs, mentions_withDocs]
      cases s.identify candidate.declaration with
      | error e => rfl
      | ok id =>
        cases mentions s body with
        | error e => rfl
        | ok ms =>
          refine congrArg Except.ok ?_
          dsimp only
          rw [List.filterMap_append, List.filterMap_append]
          rfl
    · rfl
  · rfl

theorem memberEvents_withDocs (className : String) (owner : Identity) (member : Node) :
    Trace.recorded (ClassComponent.memberEvents (s.withDocs docs) className owner member) =
      Trace.recorded (ClassComponent.memberEvents s className owner member) := by
  unfold ClassComponent.memberEvents
  split
  · rw [mentions_withDocs]
  · next name root _ =>
    split
    · rw [mentions_withDocs]
      cases mentions s root with
      | error e => rfl
      | ok ms =>
        refine congrArg Except.ok (congrArg (none, ·) ?_)
        dsimp only
        rw [List.filterMap_append, List.filterMap_append]
        rfl
    · rfl
  · rfl

theorem membersEvents_withDocs (className : String) (owner : Identity)
    (references : List Identity) (members : List Node) :
    Trace.recorded
        (ClassComponent.membersEvents (s.withDocs docs) className owner references members) =
      Trace.recorded (ClassComponent.membersEvents s className owner references members) := by
  induction members generalizing references with
  | nil => rfl
  | cons member rest ih =>
    exact Trace.recorded_bind (s.memberEvents_withDocs docs className owner member)
      fun own => ih (own.getD references)

theorem classComponent_withDocs :
    recordedOf (ClassComponent.events config (s.withDocs docs) v) =
      recordedOf (ClassComponent.events config s v) := by
  have hclass (name : String) : recordedOf (ClassComponent.classEvents (s.withDocs docs) v name) =
      recordedOf (ClassComponent.classEvents s v name) := by
    unfold ClassComponent.classEvents
    rw [identify_withDocs]
    cases s.identify v.node with
    | error e => rfl
    | ok id =>
      have hmembers := s.membersEvents_withDocs docs name id [] v.node.classMembers
      simp only [bind, Except.bind]
      obtain ⟨e, h, h'⟩ | ⟨⟨references, events⟩, ⟨references', events'⟩, h, h', heq⟩ :=
        map_eq_map_iff.1 hmembers
      · simp only [h, h']
      · simp only [Prod.mk.injEq] at heq
        obtain ⟨rfl, hevents⟩ := heq
        simp only [h, h', recordedOf, pure, Except.pure, Except.map, List.filterMap_append, hevents]
        rfl
  have hprint (n : Node) : (s.withDocs docs).printCompact n = s.printCompact n := rfl
  unfold ClassComponent.events
  split
  · dsimp only
    rw [hprint]
    split
    · exact hclass _
    · rfl
  · rfl

end Session

end ComponentScan
