import ComponentScan.Proofs.Scan.Failures
import ComponentScan.Proofs.Scan.Members

/-!
# Aliases of components

Aliases are applied to what a walk has recorded, so it does not matter where in the file they stand.
A component that is not exported where it is defined takes the name of its first alias, and nothing
else of a record changes. What a walk exports itself comes first in a report, in the order in which
it was recorded; behind it come the other components that have aliases, in the order of these
(`exportedAs_scanSource`).
-/

namespace ComponentScan

open Syntax

/-! ## Exports of a walk -/

/-- The identities whose recorded definitions are exported, in the order in which they are
recorded. -/
def exportedDefinitions (definitions : List (Identity × DefinedComponent)) : List Identity :=
  (definitions.map (·.1)).eraseDups.filter fun id =>
    (definitions.lookup id).any (·.exportedAs.isSome)

section

variable {definitions : List (Identity × DefinedComponent)} {id : Identity} {c : DefinedComponent}

theorem isSome_lookup_iff : (definitions.lookup id).isSome = true ↔ id ∈ definitions.map (·.1) := by
  rw [List.lookup_isSome_iff, List.mem_map]
  exact exists_congr fun d => and_congr_right fun _ => beq_iff_eq.trans eq_comm

theorem lookup_concat_of_mem (h : id ∈ definitions.map (·.1)) (d : Identity × DefinedComponent) :
    (definitions ++ [d]).lookup id = definitions.lookup id := by
  rw [List.lookup_append, Option.or_of_isSome (isSome_lookup_iff.2 h)]

/-- One more definition is exported if it is the first of its identity. -/
theorem exportedDefinitions_concat :
    exportedDefinitions (definitions ++ [(id, c)]) =
      if (definitions.lookup id).isSome = false ∧ c.exportedAs.isSome = true then
        exportedDefinitions definitions ++ [id]
      else exportedDefinitions definitions := by
  have hkept : (definitions.map (·.1)).eraseDups.filter (fun id' =>
      ((definitions ++ [(id, c)]).lookup id').any (·.exportedAs.isSome)) =
        exportedDefinitions definitions := by
    refine List.filter_congr fun id' hid' => ?_
    rw [lookup_concat_of_mem (List.mem_eraseDups.1 hid')]
  rw [exportedDefinitions, List.map_append, List.map_singleton, ScanReport.eraseDups_concat]
  cases hid : definitions.lookup id with
  | some c' =>
    have hmem : id ∈ definitions.map (·.1) := isSome_lookup_iff.1 (by rw [hid]; rfl)
    rw [if_pos hmem, hkept]
    simp
  | none =>
    have hmem : id ∉ definitions.map (·.1) := fun hmem => by
      have hsome := isSome_lookup_iff.2 hmem
      rw [hid] at hsome
      cases hsome
    have hown : (definitions ++ [(id, c)]).lookup id = some c := by
      rw [List.lookup_append, hid, Option.none_or, List.lookup_cons_self]
    rw [if_neg hmem, List.filter_append, hkept, List.filter_singleton, hown]
    cases hexported : c.exportedAs <;> simp [hexported]

end

namespace ScanReport

variable {path : String} {repo : RepoMetadata}

theorem exports_take (r : ScanReport) (e : Event) :
    (r.take e).exports = match e.definition? with
      | some (id, c) => if (r.defined? id).isSome = false ∧ c.exportedAs.isSome = true then
          (r.markExported id).exports
        else r.exports
      | none => r.exports := by
  cases e with
  | define id c =>
    simp only [take, takeDefinition, Event.definition?]
    cases hid : r.defined? id with
    | some c' =>
      rw [define_of_some r hid]
      simp
    | none =>
      rw [define_of_none r hid]
      cases c.exportedAs <;> simp [exports_markExported]
  | reference id c =>
    simp only [take, reference, Event.definition?]
    split <;> rfl
  | annotate => rfl
  | claim => rfl
  | «alias» => rfl

/-- What a walk exports are the recorded definitions that are exported where they stand. -/
theorem exports_takeAll (events : List Event) :
    ((fresh path repo).takeAll events).exports =
      exportedDefinitions (events.filterMap Event.definition?) := by
  induction events using List.reverseRecOn with
  | nil => rfl
  | append_singleton events e ih =>
    have hlast : (fresh path repo).takeAll (events ++ [e]) =
        ((fresh path repo).takeAll events).take e := List.foldl_append
    have hdefined (id : Identity) : ((fresh path repo).takeAll events).defined? id =
        (events.filterMap Event.definition?).lookup id :=
      (defined?_takeAll _ events id).trans Option.none_or
    rw [hlast, exports_take, List.filterMap_append]
    cases he : e.definition? with
    | none => simp [he, ih]
    | some d =>
      obtain ⟨id, c⟩ := d
      rw [List.filterMap_cons_some he, List.filterMap_nil, exportedDefinitions_concat, ← hdefined]
      dsimp only
      by_cases hnew : (((fresh path repo).takeAll events).defined? id).isSome = false ∧
          c.exportedAs.isSome = true
      · have hmem : id ∉ ((fresh path repo).takeAll events).exports := fun hmem => by
          obtain ⟨c', hc', -⟩ := ((isConsistent_fresh path repo).takeAll events id).1 hmem
          rw [hc'] at hnew
          cases hnew.1
        rw [if_pos hnew, if_pos hnew, exports_markExported, if_neg hmem, ih]
      · rw [if_neg hnew, if_neg hnew, ih]

/-- Aliases export those components that were not exported before, in the order of their first
aliases. -/
theorem exports_applyAliases (r : ScanReport) (aliases : List (Identity × String)) :
    (aliases.foldl applyAlias r).exports =
      r.exports ++ (aliases.map (·.1)).eraseDups.filter fun id =>
        (r.defined? id).isSome && !r.exports.contains id := by
  induction aliases using List.reverseRecOn with
  | nil => exact (List.append_nil _).symm
  | append_singleton aliases a ih =>
    have hsome : ((aliases.foldl applyAlias r).defined? a.1).isSome = (r.defined? a.1).isSome := by
      rw [defined?_applyAliases, Option.isSome_map]
    have hexports (r : ScanReport) : (r.updateDefined a.1 (ExportAlias.rename a.2)).exports =
        r.exports := by
      unfold updateDefined
      split <;> rfl
    rw [List.foldl_append, List.foldl_cons, List.foldl_nil, applyAlias, hsome, List.map_append,
      List.map_singleton, eraseDups_concat]
    cases hdefined : (r.defined? a.1).isSome with
    | false =>
      rw [if_neg Bool.false_ne_true, ih]
      split
      · rfl
      · rw [List.filter_append]
        simp [hdefined]
    | true =>
      rw [if_pos rfl, exports_markExported, hexports, ih]
      by_cases hmem : a.1 ∈ r.exports <;> by_cases halias : a.1 ∈ aliases.map (·.1) <;>
        simp [hmem, halias, hdefined]

end ScanReport

/-! ## Local aliases -/

/-- The identity of the symbol that a name refers to. -/
def Session.referent? (s : Session) (name : Node) : Option Identity :=
  match name.kind with
  | .identifierReference _ => (s.symbolAt? name).map s.identityOf
  | _ => none

/-- The alias that the export of a local name under a name makes. -/
def Session.localAlias? (s : Session) (a : Node × String) : Option (Identity × String) :=
  (s.referent? a.1).map (·, a.2)

/-- The aliases of the symbols of a file, in the order of the text. -/
def Session.localAliases (s : Session) : List (Identity × String) :=
  (visits s.root).flatMap fun v => (ExportAlias.exportedNames v.node).filterMap s.localAlias?

/-- What the detectors of components define at a node. -/
def Session.definitionsAt (config : Config) (s : Session) (v : Visit) :
    List (Identity × DefinedComponent) :=
  (componentEvents config s [v]).filterMap Event.definition?

/-- What the detectors of components define in a file, in the order of a walk. -/
def Session.definitions (config : Config) (s : Session) : List (Identity × DefinedComponent) :=
  (visits s.root).flatMap (s.definitionsAt config)

namespace ExportAlias

variable {s : Session} {n name : Node} {exported : String}

theorem aliasEvent?_eq (s : Session) (name : Node) (exported : String) :
    aliasEvent? s name exported = (s.referent? name).map (.alias · exported) := by
  unfold aliasEvent? Session.referent?
  split
  · next symbol hkind hsymbol => simp only [hkind, hsymbol, Option.map_some]
  · next hnone =>
    split
    · next hkind =>
      cases hsymbol : s.symbolAt? name with
      | none => rfl
      | some symbol => exact absurd hsymbol (hnone _ symbol hkind)
    · rfl

theorem filterMap_alias?_events (s : Session) (n : Node) :
    (events s n).filterMap Event.alias? = (exportedNames n).filterMap s.localAlias? := by
  rw [events, List.filterMap_flatMap, List.filterMap_eq_flatMap_toList]
  refine List.flatMap_congr fun a _ => ?_
  dsimp only
  rw [aliasEvent?_eq, Session.localAlias?]
  cases s.referent? a.1 <;> rfl

end ExportAlias

section

variable {config : Config} {path source : String} {repo : RepoMetadata} {s : Session}
  {r : ScanReport}

theorem exportAliases_visits (s : Session) : exportAliases s (visits s.root) = s.localAliases :=
  List.flatMap_congr fun v _ => ExportAlias.filterMap_alias?_events s v.node

theorem Session.definitions_eq (config : Config) (s : Session) :
    (componentEvents config s (visits s.root)).filterMap Event.definition? =
      s.definitions config := by
  rw [componentEvents, List.filterMap_flatMap, definitions]
  refine List.flatMap_congr fun v _ => ?_
  rw [definitionsAt, componentEvents, List.flatMap_singleton]

/-- A function or a variable is exported where it stands. -/
theorem FunctionComponent.exportedAs_of_define_mem {v : Visit} {id : Identity}
    {c : DefinedComponent} {events : List Event} (h : FunctionComponent.events s v = .ok events)
    (hmem : .define id c ∈ events) :
    s.identify v.node = .ok id ∧ c.exportedAs = v.placement.exportedAs? c.name := by
  obtain ⟨candidate, body, ms, hcandidate, -, hid, -, rfl⟩ := exists_candidate_of_define_mem h hmem
  rw [declaration_of_candidate? hcandidate] at hid
  exact ⟨hid, by rw [← placement_of_candidate? hcandidate]; rfl⟩

/-- A class is exported where it stands, and its members are not. -/
theorem ClassComponent.exportedAs_cases {v : Visit} {id : Identity} {c : DefinedComponent}
    {events : List Event} (h : ClassComponent.events config s v = .ok events)
    (hmem : .define id c ∈ events) :
    (s.identify v.node = .ok id ∧ c.exportedAs = v.placement.exportedAs? c.name) ∨
      ∃ owner member, s.identify v.node = .ok owner ∧ id = memberIdentity owner member ∧
        c.exportedAs = none := by
  cases hclass : componentName? config s v with
  | none =>
    rw [events_eq, hclass] at h
    cases h
    cases hmem
  | some name =>
    obtain ⟨hkind, -, hevents⟩ := of_componentName? hclass
    rw [hevents] at h
    simp only [classEvents, ok_bind_iff, ok_pure_iff] at h
    obtain ⟨owner, howner, ⟨references, members⟩, hmembers, rfl⟩ := h
    rcases List.mem_append.1 hmem with hmem | hmem
    · obtain ⟨member, -, name, root, -, hid⟩ := exists_recorded_of_define_mem hmembers hmem
      exact .inr ⟨owner, name, howner, hid, exportedAs_of_define_mem_membersEvents hmembers hmem⟩
    · cases List.mem_singleton.1 hmem
      refine .inl ⟨howner, ?_⟩
      unfold Visit.placement
      rw [hkind]
      rfl

/-- What is defined at a node is exported where the node stands, unless it is a member of it. -/
theorem Session.exportedAs_of_mem_definitionsAt {v : Visit} {id : Identity} {c : DefinedComponent}
    (h : (id, c) ∈ s.definitionsAt config v) :
    (s.identify v.node = .ok id ∧ c.exportedAs = v.placement.exportedAs? c.name) ∨
      ∃ owner member, s.identify v.node = .ok owner ∧
        id = ClassComponent.memberIdentity owner member ∧ c.exportedAs = none := by
  obtain ⟨e, he, hdefinition⟩ := List.mem_filterMap.1 h
  rw [componentEvents, List.flatMap_singleton, Event.eq_define_of_definition? hdefinition,
    List.mem_append] at he
  rcases he with he | he
  · cases hevents : FunctionComponent.events s v with
    | error e =>
      rw [hevents] at he
      cases he
    | ok events =>
      rw [hevents] at he
      exact .inl (FunctionComponent.exportedAs_of_define_mem hevents he)
  · cases hevents : ClassComponent.events config s v with
    | error e =>
      rw [hevents] at he
      cases he
    | ok events =>
      rw [hevents] at he
      exact ClassComponent.exportedAs_cases hevents he

/-- A scan that ends well applies the aliases of the file to what the walk has recorded. A component
that is not exported where it is defined takes the name of its first alias, wherever that stands;
all other records stay. The exports are those of the walk, in the order in which they are recorded,
and behind them the other components that have aliases, in the order of these. -/
theorem exportedAs_scanSource (hs : Session.ofSource path source = .ok s)
    (h : scanSource config path source repo = .ok r) :
    ∃ walked, detect config s repo detectors false = (none, walked) ∧
      (∀ id, walked.defined? id = (s.definitions config).lookup id) ∧
      (∀ v ∈ visits s.root, ∀ id c, (id, c) ∈ s.definitionsAt config v →
        (s.identify v.node = .ok id ∧ c.exportedAs = v.placement.exportedAs? c.name) ∨
          ∃ owner member, s.identify v.node = .ok owner ∧
            id = ClassComponent.memberIdentity owner member ∧ c.exportedAs = none) ∧
      (∀ id, r.components.get? id = (walked.components.get? id).map
        (ComponentRecord.mapDefined fun c =>
          { c with exportedAs := c.exportedAs.or (s.localAliases.lookup id) })) ∧
      walked.exports = exportedDefinitions (s.definitions config) ∧
      r.exports = walked.exports ++ (s.localAliases.map (·.1)).eraseDups.filter fun id =>
        (walked.defined? id).isSome && !walked.exports.contains id := by
  obtain ⟨s', events, log, hs', hevents, rfl⟩ := exists_events_of_scanSource h
  cases hs.symm.trans hs'
  have hpath : s.path = path := Session.path_ofSource hs
  obtain ⟨log', hdetect⟩ := detect_of_events hevents false
  have hdefinitions : events.filterMap Event.definition? = s.definitions config :=
    (definitions_walkEvents hevents).trans (s.definitions_eq config)
  have haliases : events.filterMap Event.alias? = s.localAliases :=
    (aliases_walkEvents hevents).trans (exportAliases_visits s)
  refine ⟨_, hdetect repo, fun id => ?_, fun v _ id c => Session.exportedAs_of_mem_definitionsAt,
    fun id => ?_, ?_, ?_⟩
  · rw [← hdefinitions]
    exact (ScanReport.defined?_takeAll (.fresh s.path repo) events id).trans Option.none_or
  · rw [← haliases, hpath]
    exact ScanReport.get?_applyAliases ((ScanReport.fresh path repo).takeAll events) _ id
  · rw [← hdefinitions]
    exact ScanReport.exports_takeAll events
  · rw [← haliases, hpath]
    exact ScanReport.exports_applyAliases ((ScanReport.fresh path repo).takeAll events) _

/-- A name of another module, two aliases of one component before its definition, and an alias of a
component that is exported where it stands. -/
def renamed : String :=
  "export \x7b A as Z \x7d from './z';\nexport \x7b A as B, A as C \x7d;\n" ++
    "export function F() \x7b return <a/>; \x7d\nvar A = () => <b/>;\nexport default F;\n"

def renamedSession : Session :=
  ((Session.ofSource "a.tsx" renamed).toOption).getD default

def renamedReport : ScanReport :=
  ((scanSource {} "a.tsx" renamed .placeholder).toOption).getD default

/-- The first alias of the file counts, and the component that it exports comes last. -/
theorem exportedAs_scanSource_renamed :
    Session.ofSource "a.tsx" renamed = .ok renamedSession ∧
      scanSource {} "a.tsx" renamed .placeholder = .ok renamedReport ∧
      (renamedReport.defined? "a.tsx:A").map (·.exportedAs) = some (some "B") ∧
      (renamedReport.defined? "a.tsx:F").map (·.exportedAs) = some (some "F") ∧
      renamedReport.exports = ["a.tsx:F", "a.tsx:A"] := by
  have htext : renamed.toList = _ := toList_append_of String.toList_ofList String.toList_ofList
  -- One computation for all that is read off the program.
  obtain ⟨hsource, hscan, haliases, hnames, hdefinitions⟩ :
      (Session.ofSource "a.tsx" renamed).toOption.isSome = true ∧
      (scanSource {} "a.tsx" renamed .placeholder).toOption.isSome = true ∧
      renamedSession.localAliases =
        [("a.tsx:A", "B"), ("a.tsx:A", "C"), ("a.tsx:F", "default")] ∧
      (["a.tsx:A", "a.tsx:F"].map fun id => ((renamedSession.definitions {}).lookup id).map
        (·.exportedAs)) = [some none, some (some "F")] ∧
      exportedDefinitions (renamedSession.definitions {}) = ["a.tsx:F"] := by
    rw [renamedSession, scanSource_eq_bind, Session.ofSource, htext]
    decide +kernel
  have hs : Session.ofSource "a.tsx" renamed = .ok renamedSession := eq_ok_getD hsource
  have hr : scanSource {} "a.tsx" renamed .placeholder = .ok renamedReport := eq_ok_getD hscan
  obtain ⟨walked, -, hdefined, -, hrecords, hwalked, hexports⟩ := exportedAs_scanSource hs hr
  simp only [List.map_cons, List.map_nil, List.cons.injEq, ← hdefined] at hnames
  obtain ⟨ha, hf, -⟩ := hnames
  have hrecord (id : Identity) : (renamedReport.defined? id).map (·.exportedAs) =
      ((walked.defined? id).map (·.exportedAs)).map fun exported =>
        exported.or (renamedSession.localAliases.lookup id) := by
    rw [ScanReport.defined?, ScanReport.defined?, hrecords]
    rcases walked.components.get? id with _ | c | c <;> rfl
  refine ⟨hs, hr, ?_, ?_, ?_⟩
  · rw [hrecord, haliases, ha]
    decide
  · rw [hrecord, haliases, hf]
    decide
  · have hsome {id : Identity} {exported : Option String}
        (h : (walked.defined? id).map (·.exportedAs) = some exported) :
        (walked.defined? id).isSome = true := by
      rw [← Option.isSome_map, h, Option.isSome_some]
    have hids : (renamedSession.localAliases.map (·.1)).eraseDups = ["a.tsx:A", "a.tsx:F"] := by
      rw [haliases]
      decide
    rw [hexports, hids, hwalked, hdefinitions]
    simp [hsome ha, hsome hf]

end

end ComponentScan
