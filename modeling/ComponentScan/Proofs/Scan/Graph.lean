import ComponentScan.Proofs.Scan.Records
import ComponentScan.Proofs.Scan.WellFormed

/-!
# The component graph

A report is a graph: its components are the nodes, and a definition has an edge to each component
that it refers to. In the report of a scan no edge and no export leads out of the graph, no edge is
there twice, and all identities are of the scanned file (`ScanReport.IsGraph`,
`isGraph_scanSource`).

The references of a definition are among the events of the detector that makes it. So the events of
each detector are closed (`Event.AreClosed`), and so are those of a whole scan.
-/

namespace ComponentScan

open Syntax Template

/-- Whether an identity is one of the file at a path. -/
def IsIdentityIn (path : String) (id : Identity) : Prop :=
  ∃ name, id = path ++ ":" ++ name

/-- Whether the edges and the exports of a report lead to components of it, each edge once, and
everything in the report is of its file. -/
structure ScanReport.IsGraph (r : ScanReport) : Prop where
  closed : ∀ id c, (id, .defined c) ∈ r.components.entries →
    ∀ target ∈ c.referencedComponents, target ∈ r.components.entries.map (·.1)
  nodup : ∀ id c, (id, .defined c) ∈ r.components.entries → c.referencedComponents.Nodup
  exports : ∀ id ∈ r.exports, ∃ c, (id, .defined c) ∈ r.components.entries
  componentsIn : ∀ id ∈ r.components.entries.map (·.1), IsIdentityIn r.path id
  exportsIn : ∀ id ∈ r.exports, IsIdentityIn r.path id
  annotationsIn : ∀ a ∈ r.annotations, IsIdentityIn r.path a.parentIdentity

/-! ## Identities of the file -/

theorem IsIdentityIn.append {path : String} {id : Identity} (h : IsIdentityIn path id)
    (suffix : String) : IsIdentityIn path (id ++ suffix) := by
  obtain ⟨name, rfl⟩ := h
  exact ⟨name ++ suffix, String.append_assoc⟩

theorem IsIdentityIn.memberIdentity {path : String} {owner : Identity} (h : IsIdentityIn path owner)
    (name : String) : IsIdentityIn path (ClassComponent.memberIdentity owner name) :=
  ((h.append ".").append name).append "()"

namespace Session

variable {s : Session}

theorem isIdentityIn_identityOf (symbol : Scope.Symbol) :
    IsIdentityIn s.path (s.identityOf symbol) :=
  ⟨symbol.name, rfl⟩

theorem isIdentityIn_identifyWithin {steps : Nat} {n : Node} {id : Identity}
    (h : s.identifyWithin steps n = .ok id) : IsIdentityIn s.path id := by
  induction steps generalizing n with
  | zero =>
    unfold identifyWithin at h
    split at h
    · next symbol _ =>
      cases h
      exact isIdentityIn_identityOf symbol
    · cases h
  | succ steps ih =>
    unfold identifyWithin at h
    split at h
    · next symbol _ =>
      cases h
      exact isIdentityIn_identityOf symbol
    · split at h
      · next heq _ =>
        cases heq
        exact ih h
      · cases h

theorem isIdentityIn_identify {n : Node} {id : Identity} (h : s.identify n = .ok id) :
    IsIdentityIn s.path id :=
  isIdentityIn_identifyWithin h

end Session

theorem isIdentityIn_mention (s : Session) (ident : Option Node) (name suffix : String) :
    IsIdentityIn s.path (mention s ident name suffix).1 := by
  unfold mention
  split
  · next symbol _ => exact (Session.isIdentityIn_identityOf symbol).append suffix
  · exact ⟨name, rfl⟩

theorem isIdentityIn_of_mem_mentions {s : Session} {root : Node} {ms : List Mention}
    (h : mentions s root = .ok ms) {m : Mention} (hm : m ∈ ms) : IsIdentityIn s.path m.1 := by
  obtain ⟨ident, name, suffix, rfl⟩ := exists_eq_mention h hm
  exact isIdentityIn_mention s ident name suffix

/-! ## Events of the file -/

/-- Whether what an event records is of the file at a path, and a definition has no reference
twice. -/
def Event.IsIn (path : String) : Event → Prop
  | .define id c => IsIdentityIn path id ∧ c.referencedComponents.Nodup
  | .reference id _ => IsIdentityIn path id
  | .annotate a => IsIdentityIn path a.parentIdentity
  | .claim _ | .alias _ _ => True

/-- Whether what events record is of the file at a path, and they record each reference of a
definition as well. -/
structure Event.FormGraph (path : String) (events : List Event) : Prop where
  isIn : ∀ e ∈ events, e.IsIn path
  closed : ∀ id c, .define id c ∈ events →
    ∀ target ∈ c.referencedComponents, ∃ c', .reference target c' ∈ events

namespace Event.FormGraph

variable {path : String} {events events' : List Event}

/-- Events without definitions. -/
theorem of_notMem (h : ∀ e ∈ events, e.IsIn path) (hnone : ∀ id c, .define id c ∉ events) :
    FormGraph path events :=
  ⟨h, fun id c hmem => absurd hmem (hnone id c)⟩

theorem nil (path : String) : FormGraph path [] :=
  of_notMem nofun nofun

theorem append (h : FormGraph path events) (h' : FormGraph path events') :
    FormGraph path (events ++ events') := by
  refine ⟨fun e he => (List.mem_append.1 he).elim (h.isIn e) (h'.isIn e),
    fun id c hmem target htarget => ?_⟩
  rcases List.mem_append.1 hmem with hmem | hmem
  · obtain ⟨c', hc'⟩ := h.closed id c hmem target htarget
    exact ⟨c', List.mem_append_left _ hc'⟩
  · obtain ⟨c', hc'⟩ := h'.closed id c hmem target htarget
    exact ⟨c', List.mem_append_right _ hc'⟩

/-- A definition whose references come before it. -/
theorem define (h : FormGraph path events) {id : Identity} {c : DefinedComponent}
    (hid : IsIdentityIn path id) (hnodup : c.referencedComponents.Nodup)
    (hrecorded : ∀ target ∈ c.referencedComponents, ∃ c', .reference target c' ∈ events) :
    FormGraph path (events ++ [.define id c]) := by
  refine ⟨fun e he => ?_, fun id' c' hmem target htarget => ?_⟩
  · rcases List.mem_append.1 he with he | he
    · exact h.isIn e he
    · cases List.mem_singleton.1 he
      exact ⟨hid, hnodup⟩
  · have hbefore : ∃ c'', .reference target c'' ∈ events := by
      rcases List.mem_append.1 hmem with hmem | hmem
      · exact h.closed id' c' hmem target htarget
      · cases List.mem_singleton.1 hmem
        exact hrecorded target htarget
    obtain ⟨c'', hc''⟩ := hbefore
    exact ⟨c'', List.mem_append_left _ hc''⟩

end Event.FormGraph

/-! ## Detectors -/

/-- The identities of mentions are those of their records, each once. -/
theorem identities_nil (ms : List Mention) : identities [] ms = (ms.map (·.1)).eraseDups := by
  unfold identities
  induction ms.map (·.1) using List.reverseRecOn with
  | nil => rfl
  | append_singleton ids id ih =>
    rw [List.foldl_append, ih, ScanReport.eraseDups_concat, List.foldl_cons, List.foldl_nil,
      pushUnique]
    simp only [List.contains_iff_mem, List.mem_eraseDups]

theorem nodup_identities (ms : List Mention) : (identities [] ms).Nodup := by
  rw [identities_nil]
  induction ms.map (·.1) using List.reverseRecOn with
  | nil => exact .nil
  | append_singleton ids id ih =>
    rw [ScanReport.eraseDups_concat]
    split
    · exact ih
    · next hmem =>
      refine List.nodup_append.2 ⟨ih, List.pairwise_singleton _ id, fun id' hid' _ hid heq => ?_⟩
      rw [List.mem_singleton.1 hid] at heq
      exact hmem (List.mem_eraseDups.1 (heq ▸ hid'))

theorem exists_reference_of_mem_identities {ms : List Mention} {target : Identity}
    (h : target ∈ identities [] ms) : ∃ c, .reference target c ∈ ms.map Mention.event := by
  rw [identities_nil, List.mem_eraseDups] at h
  obtain ⟨m, hm, rfl⟩ := List.mem_map.1 h
  exact ⟨m.2, List.mem_map.2 ⟨m, hm, rfl⟩⟩

variable {config : Config} {s : Session} {claimed : List Nat} {v : Visit} {events : List Event}

theorem formGraph_mentions {root : Node} {ms : List Mention} (h : mentions s root = .ok ms) :
    Event.FormGraph s.path (ms.map Mention.event) := by
  refine .of_notMem (fun e he => ?_) fun id c hmem => ?_
  · obtain ⟨m, hm, rfl⟩ := List.mem_map.1 he
    exact isIdentityIn_of_mem_mentions h hm
  · obtain ⟨m, -, hm⟩ := List.mem_map.1 hmem
    cases hm

/-- A definition that refers to what is mentioned in it. -/
theorem formGraph_define_identities {root : Node} {ms : List Mention}
    (h : mentions s root = .ok ms) {id : Identity} (hid : IsIdentityIn s.path id)
    (candidate : Candidate) : Event.FormGraph s.path
      (ms.map Mention.event ++ [.define id (candidate.component s (identities [] ms))]) :=
  (formGraph_mentions h).define hid (nodup_identities ms) fun _ =>
    exists_reference_of_mem_identities

theorem FunctionComponent.formGraph_events (h : FunctionComponent.events s v = .ok events) :
    Event.FormGraph s.path events := by
  unfold FunctionComponent.events at h
  split at h
  · next candidate body _ =>
    split at h
    · simp only [ok_bind_iff, ok_pure_iff] at h
      obtain ⟨id, hid, ms, hms, rfl⟩ := h
      exact formGraph_define_identities hms (Session.isIdentityIn_identify hid) candidate
    · cases h
      exact .nil _
  · cases h
    exact .nil _

namespace ClassComponent

/-- What a member leaves to its class is recorded, each component once. -/
theorem formGraph_memberEvents {className : String} {owner : Identity} {member : Node}
    {own : Option (List Identity)} (howner : IsIdentityIn s.path owner)
    (h : memberEvents s className owner member = .ok (own, events)) :
    Event.FormGraph s.path events ∧ ∀ references ∈ own, references.Nodup ∧
      ∀ target ∈ references, ∃ c, .reference target c ∈ events := by
  unfold memberEvents at h
  split at h
  · obtain ⟨ms, hms, heq⟩ := ok_map_iff.1 h
    cases heq
    refine ⟨formGraph_mentions hms, ?_⟩
    rintro _ ⟨⟩
    exact ⟨nodup_identities ms, fun _ => exists_reference_of_mem_identities⟩
  · split at h
    · obtain ⟨ms, hms, heq⟩ := ok_map_iff.1 h
      cases heq
      exact ⟨formGraph_define_identities hms (howner.memberIdentity _) _, nofun⟩
    · cases h
      exact ⟨.nil _, nofun⟩
  · cases h
    exact ⟨.nil _, nofun⟩

/-- What members leave to their class is recorded, if what came before them is. -/
theorem formGraph_membersEvents {className : String} {owner : Identity} {members : List Node}
    {references references' : List Identity} {before : List Event}
    (howner : IsIdentityIn s.path owner) (hnodup : references.Nodup)
    (hrecorded : ∀ target ∈ references, ∃ c, .reference target c ∈ before)
    (h : membersEvents s className owner references members = .ok (references', events)) :
    Event.FormGraph s.path events ∧ references'.Nodup ∧
      ∀ target ∈ references', ∃ c, .reference target c ∈ before ++ events := by
  induction members generalizing references before events with
  | nil =>
    cases h
    exact ⟨.nil _, hnodup, by simpa using hrecorded⟩
  | cons member rest ih =>
    simp only [membersEvents, ok_bind_iff, ok_pure_iff] at h
    obtain ⟨⟨own, first⟩, hfirst, ⟨_, others⟩, hothers, heq⟩ := h
    cases heq
    obtain ⟨hgraph, hown⟩ := formGraph_memberEvents howner hfirst
    have hleft : (own.getD references).Nodup ∧
        ∀ target ∈ own.getD references, ∃ c, .reference target c ∈ before ++ first := by
      cases own with
      | none =>
        refine ⟨hnodup, fun target htarget => ?_⟩
        obtain ⟨c, hc⟩ := hrecorded target htarget
        exact ⟨c, List.mem_append_left _ hc⟩
      | some own =>
        obtain ⟨hnodup, hrecorded⟩ := hown own rfl
        refine ⟨hnodup, fun target htarget => ?_⟩
        obtain ⟨c, hc⟩ := hrecorded target htarget
        exact ⟨c, List.mem_append_right _ hc⟩
    obtain ⟨hgraph', hnodup', hrecorded'⟩ := ih hleft.1 hleft.2 hothers
    rw [List.append_assoc] at hrecorded'
    exact ⟨hgraph.append hgraph', hnodup', hrecorded'⟩

theorem formGraph_events (h : ClassComponent.events config s v = .ok events) :
    Event.FormGraph s.path events := by
  unfold ClassComponent.events at h
  split at h
  · dsimp only at h
    split at h
    · simp only [classEvents, ok_bind_iff, ok_pure_iff] at h
      obtain ⟨id, hid, ⟨references, members⟩, hmembers, rfl⟩ := h
      have hid := Session.isIdentityIn_identify hid
      have hnone : ∀ target ∈ ([] : List Identity), ∃ c, .reference target c ∈ ([] : List Event) :=
        fun _ h => absurd h List.not_mem_nil
      obtain ⟨hgraph, hnodup, hrecorded⟩ := formGraph_membersEvents hid .nil hnone hmembers
      exact hgraph.define hid hnodup hrecorded
    · cases h
      exact .nil _
  · cases h
    exact .nil _

end ClassComponent

theorem LazyComponent.formGraph_events (h : LazyComponent.events config s v = .ok events) :
    Event.FormGraph s.path events := by
  unfold LazyComponent.events at h
  split at h
  · split at h
    · obtain ⟨id, hid, rfl⟩ := ok_map_iff.1 h
      refine .of_notMem (fun e he => ?_) fun id' c hmem => ?_
      · cases List.mem_singleton.1 he
        exact Session.isIdentityIn_identify hid
      · cases List.mem_singleton.1 hmem
    · cases h
      exact .nil _
  · cases h
    exact .nil _

theorem ExportAlias.formGraph_events (s : Session) (n : Node) :
    Event.FormGraph s.path (ExportAlias.events s n) := by
  refine .of_notMem (fun e he => ?_) fun id c hmem => ?_
  · obtain ⟨id, exported, rfl⟩ := exists_of_mem_events he
    trivial
  · obtain ⟨id', exported, heq⟩ := exists_of_mem_events hmem
    cases heq

namespace AnnotationTags

theorem isIdentityIn_of_targetIdentity? {target : Target} {id : Identity}
    (h : targetIdentity? s v target = .ok (some id)) : IsIdentityIn s.path id := by
  unfold targetIdentity? at h
  split at h
  · obtain ⟨id', hid, heq⟩ := ok_map_iff.1 h
    cases heq
    exact Session.isIdentityIn_identify hid
  · split at h
    · obtain ⟨id', hid, heq⟩ := ok_map_iff.1 h
      cases heq
      exact (Session.isIdentityIn_identify hid).memberIdentity _
    · cases h

theorem parentIdentity_of_annotation? {doc : DocComment} {parent : Identity} {tag : DocTag}
    {a : Annotation} (h : annotation? config s doc parent tag = some a) :
    a.parentIdentity = parent := by
  unfold annotation? at h
  split at h
  · split at h
    · cases h
    · cases h
      rfl
  · split at h
    · cases h
      rfl
    · cases h

theorem formGraph_events (h : AnnotationTags.events config s claimed v = .ok events) :
    Event.FormGraph s.path events := by
  unfold AnnotationTags.events at h
  dsimp only at h
  split at h
  · cases h
    exact .nil _
  split at h
  · obtain ⟨parent, hparent, rfl⟩ := ok_map_iff.1 h
    have hdocs : ∀ e ∈ parent.toList.flatMap (docEvents config s (s.docsAt v.node.start)),
        ∃ a, e = .annotate a ∧ IsIdentityIn s.path a.parentIdentity := by
      simp only [docEvents, List.mem_flatMap, List.mem_map, Option.mem_toList]
      rintro e ⟨id, hid, doc, -, tag, -, a, ha, rfl⟩
      refine ⟨a, rfl, parentIdentity_of_annotation? ha ▸ ?_⟩
      exact isIdentityIn_of_targetIdentity? (hid ▸ hparent)
    refine .of_notMem (fun e he => ?_) fun id c hmem => ?_
    · rcases List.mem_cons.1 he with rfl | he
      · trivial
      · obtain ⟨a, rfl, ha⟩ := hdocs e he
        exact ha
    · rcases List.mem_cons.1 hmem with heq | hmem
      · cases heq
      · obtain ⟨a, heq, -⟩ := hdocs _ hmem
        cases heq
  · cases h
    exact .nil _

end AnnotationTags

/-! ## Scans -/

theorem formGraph_walkEvents {vs : List Visit} (h : walkEvents config s claimed vs = .ok events) :
    Event.FormGraph s.path events := by
  induction vs generalizing claimed events with
  | nil =>
    cases h
    exact .nil _
  | cons v rest ih =>
    obtain ⟨first, hfirst, others, hothers, rfl⟩ := walkEvents_cons_eq_ok_iff.1 h
    obtain ⟨functions, classes, deferred, annotations, hfunctions, hclasses, hdeferred,
      hannotations, rfl⟩ := visitEvents_eq_ok hfirst
    have hown := (FunctionComponent.formGraph_events hfunctions).append <|
      (ClassComponent.formGraph_events hclasses).append <|
      (LazyComponent.formGraph_events hdeferred).append <|
      (ExportAlias.formGraph_events s v.node).append (AnnotationTags.formGraph_events hannotations)
    exact hown.append (ih hothers)

/-- The report of events that form a graph is the graph. -/
theorem isGraph_reportOf {path : String} (h : Event.FormGraph path events) (repo : RepoMetadata)
    (hsorted : (reportOf path repo events).components.IsSorted) :
    (reportOf path repo events).IsGraph := by
  have hdefined {id : Identity} {c : DefinedComponent}
      (hc : (id, .defined c) ∈ (reportOf path repo events).components.entries) :
      ∃ c', .define id c' ∈ events ∧ c.referencedComponents = c'.referencedComponents := by
    obtain ⟨c', change, hmem, rfl⟩ :=
      exists_define_mem_of_get?_reportOf (hsorted.mem_entries_iff.1 hc)
    exact ⟨c', hmem, rfl⟩
  have hcomponents : ∀ id ∈ (reportOf path repo events).components.entries.map (·.1),
      IsIdentityIn path id := fun id hid => by
    obtain ⟨⟨id, record⟩, hrecord, rfl⟩ := List.mem_map.1 hid
    cases record with
    | defined c =>
      obtain ⟨c', hmem, -⟩ := hdefined hrecord
      exact (h.isIn _ hmem).1
    | referenced c =>
      exact h.isIn _ (reference_mem_of_get?_reportOf (hsorted.mem_entries_iff.1 hrecord))
  have hexports : ∀ id ∈ (reportOf path repo events).exports,
      ∃ c, (id, .defined c) ∈ (reportOf path repo events).components.entries := fun id hid => by
    obtain ⟨c, hc, -⟩ := (isConsistent_reportOf path repo events id).1 hid
    exact ⟨c, ScanReport.mem_of_defined? hc⟩
  have hpath := path_reportOf path repo events
  refine ⟨fun id c hc target htarget => ?_, fun id c hc => ?_, hexports, ?_, fun id hid => ?_,
    fun a ha => ?_⟩
  · obtain ⟨c', hmem, heq⟩ := hdefined hc
    obtain ⟨c'', hreference⟩ := h.closed id c' hmem target (heq ▸ htarget)
    obtain ⟨record, hrecord⟩ := exists_get?_reportOf_of_reference_mem hreference path repo
    exact List.mem_map.2 ⟨(target, record), hsorted.mem_entries_iff.2 hrecord, rfl⟩
  · obtain ⟨c', hmem, heq⟩ := hdefined hc
    exact heq ▸ (h.isIn _ hmem).2
  · rwa [hpath]
  · obtain ⟨c, hc⟩ := hexports id hid
    rw [hpath]
    exact hcomponents id (List.mem_map.2 ⟨_, hc, rfl⟩)
  · obtain ⟨a', n, he, rfl⟩ := exists_annotate_mem_of_mem_annotations_reportOf ha
    rw [hpath]
    exact h.isIn _ he

/-- The report of a scan is a graph of its file. -/
theorem isGraph_scanSource {path source : String} {repo : RepoMetadata} {r : ScanReport}
    (h : scanSource config path source repo = .ok r) : r.IsGraph := by
  have hsorted := (isWellFormed_scanSource h).sorted
  obtain ⟨s, events, log, hs, hevents, rfl⟩ := exists_events_of_scanSource h
  have hgraph := isGraph_reportOf (Session.path_ofSource hs ▸ formGraph_walkEvents hevents) repo
    hsorted
  exact ⟨hgraph.closed, hgraph.nodup, hgraph.exports, hgraph.componentsIn, hgraph.exportsIn,
    hgraph.annotationsIn⟩

/-- An exported component with a note on it, which refers to another one twice. -/
def linked : String :=
  "/** Shows the list.\n * @todo sort it */\n" ++
    "export function List() \x7b return <ul><Row/><Row/></ul>; \x7d\n"

def linkedReport : ScanReport :=
  ((scanSource {} "src/a.tsx" linked .placeholder).toOption).getD default

theorem isGraph_scanSource_linked :
    scanSource {} "src/a.tsx" linked .placeholder = .ok linkedReport ∧ linkedReport.IsGraph ∧
      linkedReport.components.entries.map (fun e =>
        (e.1, e.2.asDefined?.map (·.referencedComponents))) =
        [("src/a.tsx:List", some ["src/a.tsx:Row"]), ("src/a.tsx:Row", none)] ∧
      linkedReport.exports = ["src/a.tsx:List"] ∧
      linkedReport.annotations.map (·.parentIdentity) = ["src/a.tsx:List"] := by
  have htext : linked.toList = _ := toList_append_of String.toList_ofList String.toList_ofList
  obtain ⟨hscan, hcomponents, hexports, hannotations⟩ :
      (scanSource {} "src/a.tsx" linked .placeholder).toOption.isSome = true ∧
      linkedReport.components.entries.map (fun e =>
        (e.1, e.2.asDefined?.map (·.referencedComponents))) =
        [("src/a.tsx:List", some ["src/a.tsx:Row"]), ("src/a.tsx:Row", none)] ∧
      linkedReport.exports = ["src/a.tsx:List"] ∧
      linkedReport.annotations.map (·.parentIdentity) = ["src/a.tsx:List"] := by
    rw [linkedReport, scanSource_eq_bind, Session.ofSource, htext]
    decide +kernel
  have h : scanSource {} "src/a.tsx" linked .placeholder = .ok linkedReport := eq_ok_getD hscan
  exact ⟨h, isGraph_scanSource h, hcomponents, hexports, hannotations⟩

end ComponentScan
