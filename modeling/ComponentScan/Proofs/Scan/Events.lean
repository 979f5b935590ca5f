import ComponentScan.Scan.Source

/-!
# Events of a scan

What a detector does to the state of a scan is a list of events, apart from the log. Which events
these are does not depend on the report, so a step of a scan is known by its trace (`Scan.Emits`):
the error in which it ends, or its result and its events in order. `Scan.Emits.bind` puts the traces
of two steps together.
-/

namespace ComponentScan

/-- What changes the state of a scan. -/
inductive Event
  | define (id : Identity) (component : DefinedComponent)
  | reference (id : Identity) (component : ReferencedComponent)
  | annotate (a : Annotation)
  /-- The comments at an offset are taken. -/
  | claim (offset : Nat)
  /-- A statement exports an identity under a name. -/
  | alias (id : Identity) (exported : String)
  deriving DecidableEq

namespace Event

/-- The offset whose comments an event takes. -/
def claimed? : Event → Option Nat
  | claim offset => some offset
  | _ => none

/-- The alias that an event notes. -/
def alias? : Event → Option (Identity × String)
  | «alias» id exported => some (id, exported)
  | _ => none

end Event

namespace ScanReport

/-- Takes a definition and, if it is new, its export. -/
def takeDefinition (r : ScanReport) (id : Identity) (c : DefinedComponent) : ScanReport :=
  let (stored, report) := r.define id c
  if stored && c.exportedAs.isSome then report.markExported id else report

def take (r : ScanReport) : Event → ScanReport
  | .define id c => r.takeDefinition id c
  | .reference id c => (r.reference id c).2
  | .annotate a => r.annotate a
  | .claim _ | .alias _ _ => r

/-- Takes events one after the other. -/
def takeAll (r : ScanReport) (events : List Event) : ScanReport :=
  events.foldl take r

/-- The report for other metadata. -/
def withRepo (r : ScanReport) (repo : RepoMetadata) : ScanReport :=
  { r with repo }

theorem markExported_withRepo (r : ScanReport) (repo : RepoMetadata) (id : Identity) :
    (r.withRepo repo).markExported id = (r.markExported id).withRepo repo := by
  have hexports : (r.withRepo repo).exports = r.exports := rfl
  unfold markExported
  rw [hexports]
  split <;> rfl

theorem define_withRepo (r : ScanReport) (repo : RepoMetadata) (id : Identity)
    (c : DefinedComponent) :
    (r.withRepo repo).define id c = ((r.define id c).1, (r.define id c).2.withRepo repo) := by
  have hdefined : (r.withRepo repo).defined? id = r.defined? id := rfl
  unfold define
  rw [hdefined]
  split <;> rfl

theorem reference_withRepo (r : ScanReport) (repo : RepoMetadata) (id : Identity)
    (c : ReferencedComponent) :
    (r.withRepo repo).reference id c =
      ((r.reference id c).1, (r.reference id c).2.withRepo repo) := by
  have hget : (r.withRepo repo).components.get? id = r.components.get? id := rfl
  unfold reference
  rw [hget]
  split <;> rfl

theorem take_withRepo (r : ScanReport) (repo : RepoMetadata) (e : Event) :
    (r.withRepo repo).take e = (r.take e).withRepo repo := by
  cases e with
  | define id c =>
    simp only [take, takeDefinition, define_withRepo]
    split
    · exact markExported_withRepo _ repo id
    · rfl
  | reference id c => simp only [take, reference_withRepo]
  | annotate a => rfl
  | claim => rfl
  | «alias» => rfl

theorem takeAll_withRepo (r : ScanReport) (repo : RepoMetadata) (events : List Event) :
    (r.withRepo repo).takeAll events = (r.takeAll events).withRepo repo := by
  induction events generalizing r with
  | nil => rfl
  | cons e events ih =>
    change ((r.withRepo repo).take e).takeAll events = ((r.take e).takeAll events).withRepo repo
    rw [take_withRepo, ih]

end ScanReport

namespace ScanState

def take (st : ScanState) (e : Event) : ScanState :=
  { st with
    report := st.report.take e
    claimed := e.claimed?.toList ++ st.claimed
    aliases := st.aliases ++ e.alias?.toList }

/-- Takes events one after the other. -/
def takeAll (st : ScanState) (events : List Event) : ScanState :=
  events.foldl take st

@[simp] theorem takeAll_nil (st : ScanState) : st.takeAll [] = st := rfl

@[simp] theorem takeAll_cons (st : ScanState) (e : Event) (events : List Event) :
    st.takeAll (e :: events) = (st.take e).takeAll events := rfl

@[simp] theorem takeAll_append (st : ScanState) (events events' : List Event) :
    st.takeAll (events ++ events') = (st.takeAll events).takeAll events' :=
  List.foldl_append

theorem take_define (st : ScanState) (id : Identity) (c : DefinedComponent) :
    st.take (.define id c) = { st with report := st.report.takeDefinition id c } := by
  simp [take, ScanReport.take, Event.claimed?, Event.alias?]

theorem take_reference (st : ScanState) (id : Identity) (c : ReferencedComponent) :
    st.take (.reference id c) = { st with report := (st.report.reference id c).2 } := by
  simp [take, ScanReport.take, Event.claimed?, Event.alias?]

theorem take_annotate (st : ScanState) (a : Annotation) :
    st.take (.annotate a) = { st with report := st.report.annotate a } := by
  simp [take, ScanReport.take, Event.claimed?, Event.alias?]

theorem take_claim (st : ScanState) (offset : Nat) :
    st.take (.claim offset) = { st with claimed := offset :: st.claimed } := by
  simp [take, ScanReport.take, Event.claimed?, Event.alias?]

theorem report_takeAll (st : ScanState) (events : List Event) :
    (st.takeAll events).report = st.report.takeAll events := by
  induction events generalizing st with
  | nil => rfl
  | cons e events ih => exact ih (st.take e)

theorem claimed_takeAll (st : ScanState) (events : List Event) :
    (st.takeAll events).claimed = (events.filterMap Event.claimed?).reverse ++ st.claimed := by
  induction events generalizing st with
  | nil => rfl
  | cons e events ih =>
    rw [takeAll_cons, ih, List.filterMap_cons]
    cases h : e.claimed? <;> simp [take, h]

theorem aliases_takeAll (st : ScanState) (events : List Event) :
    (st.takeAll events).aliases = st.aliases ++ events.filterMap Event.alias? := by
  induction events generalizing st with
  | nil => simp
  | cons e events ih =>
    rw [takeAll_cons, ih, List.filterMap_cons]
    cases h : e.alias? <;> simp [take, h]

/-- Events do not look at the log. -/
theorem takeAll_log (st : ScanState) (log : List String) (events : List Event) :
    { st with log }.takeAll events = { st.takeAll events with log } := by
  induction events generalizing st with
  | nil => rfl
  | cons e events ih =>
    rw [takeAll_cons, takeAll_cons, ← ih]
    rfl

/-- The state of a scan for other metadata. -/
def withRepo (st : ScanState) (repo : RepoMetadata) : ScanState :=
  { st with report := st.report.withRepo repo }

/-- Events do not look at the metadata. -/
theorem takeAll_withRepo (st : ScanState) (repo : RepoMetadata) (events : List Event) :
    (st.withRepo repo).takeAll events = (st.takeAll events).withRepo repo := by
  induction events generalizing st with
  | nil => rfl
  | cons e events ih =>
    have htake : (st.withRepo repo).take e = (st.take e).withRepo repo := by
      simp only [take, withRepo, ScanReport.take_withRepo]
    rw [takeAll_cons, takeAll_cons, htake, ih]

end ScanState

/-- The end of a step: an error, or a result and the events on the way. -/
abbrev Trace (α : Type) := Except ScanError (α × List Event)

namespace Trace

/-- A trace behind earlier events. -/
def after {α : Type} (events : List Event) (t : Trace α) : Trace α :=
  t.map fun (a, events') => (a, events ++ events')

@[simp] theorem after_ok {α : Type} (events events' : List Event) (a : α) :
    after events (.ok (a, events')) = .ok (a, events ++ events') := rfl

@[simp] theorem after_error {α : Type} (events : List Event) (e : ScanError) :
    after events (.error e : Trace α) = .error e := rfl

@[simp] theorem after_nil {α : Type} (t : Trace α) : after [] t = t := by
  cases t <;> rfl

end Trace

namespace Scan

variable {α β : Type} {st : ScanState} {m : Scan α} {f : α → Scan β}

/-- Whether a step that starts at a state has a trace, whatever the metadata are. The log does not
depend on them either. -/
def Emits (st : ScanState) (m : Scan α) (t : Trace α) : Prop :=
  match t with
  | .ok (a, events) =>
    ∃ log, ∀ repo, m.run (st.withRepo repo) = (.ok a, { st.takeAll events with log }.withRepo repo)
  | .error e => ∀ repo, ∃ st', m.run (st.withRepo repo) = (.error e, st')

/-- Whether a step has a trace wherever it starts. -/
def Traces (m : Scan α) (t : Trace α) : Prop :=
  ∀ st, Emits st m t

theorem traces_pure (a : α) : Traces (pure a) (.ok (a, [])) :=
  fun st => ⟨st.log, fun _ => rfl⟩

theorem traces_throw (e : ScanError) : Traces (throw e : Scan α) (.error e) :=
  fun st repo => ⟨st.withRepo repo, rfl⟩

/-- A line of the log. -/
def logLine (indent : Nat) (message : String) : String :=
  String.ofList (List.replicate (2 * indent) ' ') ++ message

theorem traces_log (indent : Nat) (message : String) : Traces (log indent message) (.ok ((), [])) :=
  fun st => ⟨st.log ++ [logLine indent message], fun _ => rfl⟩

theorem run_bind (m : Scan α) (f : α → Scan β) (st : ScanState) :
    (m >>= f).run st =
      match m.run st with
      | (.ok a, st') => (f a).run st'
      | (.error e, st') => (.error e, st') := by
  change ExceptT.bindCont f (m.run st).1 (m.run st).2 = _
  rcases m.run st with ⟨_ | _, _⟩ <;> rfl

theorem Emits.error_bind {e : ScanError} (h : Emits st m (.error e)) :
    Emits st (m >>= f) (.error e) := by
  intro repo
  obtain ⟨st', h⟩ := h repo
  exact ⟨st', by rw [run_bind, h]⟩

/-- A step that goes on where another one ended. -/
theorem Emits.ok_bind {a : α} {events : List Event} {t : Trace β}
    (h : Emits st m (.ok (a, events)))
    (hf : ∀ log, Emits { st.takeAll events with log } (f a) t) :
    Emits st (m >>= f) (t.after events) := by
  obtain ⟨log, h⟩ := h
  cases t with
  | error e =>
    intro repo
    obtain ⟨st', hf⟩ := hf log repo
    exact ⟨st', by rw [run_bind, h]; exact hf⟩
  | ok b =>
    obtain ⟨b, events'⟩ := b
    obtain ⟨log', hf⟩ := hf log
    refine ⟨log', fun repo => ?_⟩
    rw [run_bind, h]
    dsimp only
    rw [hf, ScanState.takeAll_log, ScanState.takeAll_append]

theorem Traces.error_bind {e : ScanError} (h : Traces m (.error e)) :
    Traces (m >>= f) (.error e) :=
  fun st => (h st).error_bind

theorem Traces.ok_bind {a : α} {events : List Event} {t : Trace β}
    (h : Traces m (.ok (a, events))) (hf : Traces (f a) t) : Traces (m >>= f) (t.after events) :=
  fun st => (h st).ok_bind fun _ => hf _

theorem Traces.bind_ok {a : α} {b : β} {events events' : List Event}
    (h : Traces m (.ok (a, events))) (hf : Traces (f a) (.ok (b, events'))) :
    Traces (m >>= f) (.ok (b, events ++ events')) :=
  h.ok_bind hf

/-- A step without events. -/
theorem Traces.quiet_bind {a : α} {t : Trace β} (h : Traces m (.ok (a, []))) (hf : Traces (f a) t) :
    Traces (m >>= f) t :=
  Trace.after_nil t ▸ h.ok_bind hf

/-- A last step without events. -/
theorem Traces.bind_quiet {a : α} {b : β} {events : List Event} (h : Traces m (.ok (a, events)))
    (hf : Traces (f a) (.ok (b, []))) : Traces (m >>= f) (.ok (b, events)) :=
  List.append_nil events ▸ h.bind_ok hf

theorem Traces.map {a : α} {events : List Event} {g : α → β} (h : Traces m (.ok (a, events))) :
    Traces (g <$> m) (.ok (g a, events)) := by
  rw [← bind_pure_comp]
  exact h.bind_quiet (traces_pure (g a))

/-- A step that looks at the state where it starts. -/
theorem Emits.get_bind {g : ScanState → Scan α} {t : Trace α}
    (hg : ∀ repo, g (st.withRepo repo) = g st) (h : Traces (g st) t) : Emits st (get >>= g) t := by
  have hget (st : ScanState) : (get : Scan ScanState).run st = (.ok st, st) := rfl
  have hrun (repo : RepoMetadata) :
      (get >>= g).run (st.withRepo repo) = (g st).run (st.withRepo repo) := by
    rw [run_bind, hget]
    dsimp only
    rw [hg]
  cases t with
  | error e => exact fun repo => hrun repo ▸ h st repo
  | ok b =>
    obtain ⟨log, h⟩ := h st
    exact ⟨log, fun repo => (hrun repo).trans (h repo)⟩

theorem traces_identify (s : Session) (n : Syntax.Node) :
    Traces (identify s n) ((s.identify n).map fun id => (id, [])) := by
  unfold identify identify.liftExcept
  cases s.identify n with
  | ok id => exact traces_pure id
  | error e => exact traces_throw e

/-- Two steps without results, the second of which may depend on the events of the first. -/
theorem Emits.andThen {m m' : Scan Unit} {x : Except ScanError (List Event)}
    {y : List Event → Except ScanError (List Event)}
    (h : Emits st m (x.map fun events => ((), events)))
    (h' : ∀ events log, x = .ok events →
      Emits { st.takeAll events with log } m' ((y events).map fun events => ((), events))) :
    Emits st (m >>= fun _ => m') ((do
      let first ← x
      let others ← y first
      return first ++ others).map fun events => ((), events)) := by
  cases hx : x with
  | error e =>
    rw [hx] at h
    exact h.error_bind
  | ok first =>
    rw [hx] at h
    have hrest := h.ok_bind (f := fun _ => m') fun log => h' first log hx
    cases hy : y first with
    | error e => simpa [hy, bind, Except.bind, Except.map] using hrest
    | ok others => simpa [hy, bind, Except.bind, Except.map, pure, Except.pure] using hrest

/-- What follows a reference does not depend on whether there was a record. -/
theorem traces_reference {id : Identity} {c : ReferencedComponent} {g : Bool → Scan α}
    {t : Trace α} (hg : ∀ stored, Traces (g stored) t) :
    Traces (update (·.reference id c) >>= g) (t.after [.reference id c]) := by
  intro st
  have h : Emits st (update (·.reference id c))
      (.ok ((st.report.reference id c).1, [.reference id c])) := by
    refine ⟨st.log, fun repo => ?_⟩
    have htake : { st.takeAll [.reference id c] with log := st.log }.withRepo repo =
        (st.withRepo repo).take (.reference id c) := by
      change ((st.take (.reference id c)).withRepo repo) = _
      exact (st.takeAll_withRepo repo [.reference id c]).symm
    rw [htake, ScanState.take_reference]
    change (Except.ok ((st.report.withRepo repo).reference id c).1, _) = _
    rw [ScanReport.reference_withRepo]
    rfl
  exact h.ok_bind fun _ => hg _ _

theorem traces_recordDefinition (s : Session) (c : Candidate) (id : Identity)
    (references : List Identity) (indent : Nat) :
    Traces (recordDefinition s c id references indent)
      (.ok ((), [.define id (c.component s references)])) := by
  intro st
  rcases hdefine : st.report.define id (c.component s references) with ⟨stored, report⟩
  have hupdate (repo : RepoMetadata) :
      (update (·.define id (c.component s references))).run (st.withRepo repo) =
        (.ok stored, { st with report := report.withRepo repo }) := by
    change (Except.ok ((st.report.withRepo repo).define id (c.component s references)).1,
      { st with report := ((st.report.withRepo repo).define id (c.component s references)).2 }) = _
    rw [ScanReport.define_withRepo, hdefine]
  have htake : st.take (.define id (c.component s references)) = { st with report :=
      if stored && (c.component s references).exportedAs.isSome then report.markExported id
      else report } := by
    simp only [ScanState.take_define, ScanReport.takeDefinition, hdefine]
  have hmark (repo : RepoMetadata) :
      (update fun report => ((), report.markExported id)).run
          { st with report := report.withRepo repo } =
        (.ok (), { st with report := (report.markExported id).withRepo repo }) := by
    rw [← ScanReport.markExported_withRepo]
    rfl
  unfold recordDefinition Emits
  simp only [run_bind, hupdate, ScanState.takeAll_cons, ScanState.takeAll_nil, htake]
  cases stored with
  | false => exact ⟨st.log ++ [logLine indent s!"{id} already defined, keeping first"], fun _ => rfl⟩
  | true =>
    refine ⟨st.log ++ [logLine indent s!"defined {id}"], fun repo => ?_⟩
    cases (c.component s references).exportedAs with
    | none => rfl
    | some _ =>
      simp only [Option.isSome_some, if_true, Bool.and_self, run_bind, hmark]
      rfl

theorem traces_forM {γ : Type} {g : γ → Scan Unit} {events : γ → List Event} {l : List γ}
    (h : ∀ x ∈ l, Traces (g x) (.ok ((), events x))) :
    Traces (l.forM g) (.ok ((), l.flatMap events)) := by
  induction l with
  | nil => exact traces_pure ()
  | cons x l ih =>
    obtain ⟨hx, hl⟩ := List.forall_mem_cons.1 h
    exact hx.bind_ok (ih hl)

theorem traces_mapM {γ : Type} {g : γ → Scan α} {a : γ → α} {events : γ → List Event} {l : List γ}
    (h : ∀ x ∈ l, Traces (g x) (.ok (a x, events x))) :
    Traces (l.mapM g) (.ok (l.map a, l.flatMap events)) := by
  induction l with
  | nil => exact traces_pure []
  | cons x l ih =>
    obtain ⟨hx, hl⟩ := List.forall_mem_cons.1 h
    rw [List.mapM_cons, List.map_cons, List.flatMap_cons]
    exact hx.bind_ok ((ih hl).bind_quiet (traces_pure (a x :: l.map a)))

end Scan

end ComponentScan
