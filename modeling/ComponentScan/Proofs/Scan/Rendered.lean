import ComponentScan.Proofs.Report.History
import ComponentScan.Proofs.Scan.Graph
import ComponentScan.Proofs.Scan.Progress
import ComponentScan.Proofs.Text.Insertion

/-!
# Rendered components

The components that are referred to below a node are those of its opening tags, in order: of each
one the component of its name, if the name is that of a component (`tagIdentity?`), and then those
of its attributes (`openingIdentities`). To find them adds records for those that have none, and
changes nothing else (`findJsx_eq_ok`).
-/

namespace ComponentScan

open Syntax

namespace Template

/-- The name of a tag and the identifier at its root. -/
def tagName? (s : Session) (name : Node) : Option (String × Option Node) :=
  match name.kind with
  | .identifierReference text => some (text, some name)
  | .jsxIdentifier text => some (text, none)
  | .jsxMemberExpression => some (s.printCompact name, memberRoot? name)
  | _ => none

/-- The identity that a name stands for: that of the symbol of its root, with the members that the
name goes on with, or the whole name in the file. -/
def nameIdentity (s : Session) (root : Option Node) (name : String) : Identity :=
  match root.bind s.symbolAt? with
  | some symbol =>
    s.identityOf symbol ++ dropBytes (Text.byteLength (nameOr "" root).toList) name
  | none => s!"{s.path}:{name}"

/-- The component that a tag refers to by a name that starts with an upper-case letter. -/
def tagIdentity? (s : Session) (name : Node) : Option Identity :=
  (tagName? s name).bind fun (text, root) =>
    if Text.startsUppercase text.toList then some (nameIdentity s root text) else none

/-- The components that an opening tag refers to. -/
def openingIdentities (s : Session) (opening : Node) : List Identity :=
  (opening.children.head?.bind (tagIdentity? s)).toList ++
    (opening.children.filterMap attributeComponent?).map fun value =>
      nameIdentity s (some value) (nameOr "" value)

/-- The opening tags below a node, in the order of the text. -/
def openings (root : Node) : List Node :=
  (descendants root).filter fun n => n.kind matches .jsxOpeningElement

/-! ## Identities of mentions -/

theorem dropBytes_append (name rest : String) :
    dropBytes (Text.byteLength name.toList) (name ++ rest) = rest := by
  have hcut : Text.cutAt? (Text.byteLength name.toList) (name ++ rest).toList =
      some (name.toList, rest.toList) :=
    Text.cutAt?_eq_some_iff.2 ⟨String.toList_append, rfl⟩
  rw [dropBytes, hcut]
  exact String.ofList_toList

theorem dropBytes_byteLength (name : String) :
    dropBytes (Text.byteLength name.toList) name = "" := by
  have hdrop := dropBytes_append name ""
  rwa [String.append_empty] at hdrop

theorem mention_fst (s : Session) (root : Option Node) (name : String) :
    (mention s root name (dropBytes (Text.byteLength (nameOr "" root).toList) name)).1 =
      nameIdentity s root name := by
  unfold mention nameIdentity
  cases root.bind s.symbolAt? <;> rfl

/-- A name without members. -/
theorem mention_fst_of_nameOr {s : Session} {n : Node} {name : String}
    (h : nameOr "" (some n) = name) : (mention s (some n) name "").1 = nameIdentity s (some n) name := by
  rw [← mention_fst, h, dropBytes_byteLength]

theorem mention_none_fst (s : Session) (name suffix : String) :
    (mention s none name suffix).1 = nameIdentity s none name := rfl

theorem tagIdentity?_of_tagMention? {s : Session} {name : Node} {tag : Option Mention}
    (h : tagMention? s name = .ok tag) : tag.map (·.1) = tagIdentity? s name := by
  unfold tagMention? at h
  unfold tagIdentity? tagName?
  split at h
  · next text hkind =>
    cases h
    have hname : nameOr "" (some name) = text := by simp [nameOr, Node.text?, hkind]
    rw [hkind]
    dsimp only [Option.bind_some]
    split
    · exact congrArg some (mention_fst_of_nameOr hname)
    · rfl
  · next text hkind =>
    cases h
    rw [hkind]
    dsimp only [Option.bind_some]
    split
    · exact congrArg some (mention_none_fst s text "")
    · rfl
  · next hkind =>
    cases h
    rw [hkind]
    dsimp only [Option.bind_some]
    split
    · split
      · next root hroot =>
        rw [hroot]
        exact congrArg some (mention_fst s (some root) (s.printCompact name))
      · next hroot =>
        rw [hroot]
        exact congrArg some (mention_none_fst s (s.printCompact name) "")
    · rfl
  · next hkind =>
    rw [hkind]
    dsimp only at h ⊢
    split at h
    · cases h
    · cases h
      rfl
  · cases h
    split <;> first | rfl | simp_all

theorem attributeMentions_map_fst (s : Session) (opening : Node) :
    (attributeMentions s opening).map (·.1) =
      (opening.children.filterMap attributeComponent?).map fun value =>
        nameIdentity s (some value) (nameOr "" value) := by
  rw [attributeMentions, List.map_map]
  exact List.map_congr_left fun value _ => mention_fst_of_nameOr rfl

theorem nodeMentions_map_fst {s : Session} {n : Node} {ms : List Mention}
    (h : nodeMentions s n = .ok ms) :
    ms.map (·.1) = if n.kind matches .jsxOpeningElement then openingIdentities s n else [] := by
  by_cases hkind : n.kind = .jsxOpeningElement
  · rw [nodeMentions, hkind] at h
    dsimp only at h
    rw [hkind, if_pos rfl, openingIdentities, ← attributeMentions_map_fst]
    split at h
    · next name hname =>
      obtain ⟨tag, htag, rfl⟩ := ok_map_iff.1 h
      rw [hname, Option.bind_some, ← tagIdentity?_of_tagMention? htag, List.map_append]
      cases tag <;> rfl
    · next hname =>
      cases h
      rw [hname]
      rfl
  · have hopening : (n.kind matches .jsxOpeningElement) = false := by
      split
      · exact absurd ‹_› hkind
      · rfl
    have hnone : nodeMentions s n = .ok [] := by
      unfold nodeMentions
      split
      · exact absurd ‹_› hkind
      · rfl
    cases hnone.symm.trans h
    rw [hopening]
    rfl

/-- The identities of the mentions below a node are those of its opening tags. -/
theorem mentions_map_fst {s : Session} {root : Node} {ms : List Mention}
    (h : mentions s root = .ok ms) :
    ms.map (·.1) = (openings root).flatMap (openingIdentities s) := by
  unfold mentions at h
  unfold openings
  generalize descendants root = nodes at h ⊢
  induction nodes generalizing ms with
  | nil =>
    cases h
    rfl
  | cons n rest ih =>
    obtain ⟨first, hfirst, h⟩ := ok_bind_iff.1 h
    obtain ⟨others, hothers, h⟩ := ok_bind_iff.1 h
    cases h
    rw [List.map_append, nodeMentions_map_fst hfirst, ih hothers, List.filter_cons]
    split <;> rfl

/-! ## Records of mentions -/

/-- A mention gives a record to an identity that has none; the first one wins. -/
theorem get?_takeAll_mentions (r : ScanReport) (ms : List Mention) (id : Identity) :
    (r.takeAll (ms.map Mention.event)).components.get? id =
      (r.components.get? id).or ((ms.find? (·.1 == id)).map fun m => .referenced m.2) := by
  induction ms generalizing r with
  | nil => simp [ScanReport.takeAll]
  | cons m ms ih =>
    change ((r.reference m.1 m.2).2.takeAll (ms.map Mention.event)).components.get? id = _
    rw [ih, ScanReport.get?_reference, Option.or_assoc, List.find?_cons]
    by_cases hid : m.1 = id
    · simp [hid]
    · rw [if_neg (Ne.symm hid), beq_eq_false_iff_ne.2 hid, Option.none_or]

theorem exports_takeAll_mentions (r : ScanReport) (ms : List Mention) :
    (r.takeAll (ms.map Mention.event)).exports = r.exports := by
  induction ms generalizing r with
  | nil => rfl
  | cons m ms ih => exact (ih _).trans (ScanReport.exports_reference r m.1 m.2)

theorem annotations_takeAll_mentions (r : ScanReport) (ms : List Mention) :
    (r.takeAll (ms.map Mention.event)).annotations = r.annotations := by
  induction ms generalizing r with
  | nil => rfl
  | cons m ms ih => exact (ih _).trans (ScanReport.annotations_reference r m.1 m.2)

theorem filterMap_claimed?_mentions (ms : List Mention) :
    (ms.map Mention.event).filterMap Event.claimed? = [] := by
  simp [Mention.event, Event.claimed?]

theorem filterMap_alias?_mentions (ms : List Mention) :
    (ms.map Mention.event).filterMap Event.alias? = [] := by
  simp [Mention.event, Event.alias?]

end Template

open Template

/-- The components that are found below a node are those that its opening tags refer to, each once.
Afterwards each of them has a record. Records that were there are the same as before, no other
component has got one, and nothing else has changed but the log. -/
theorem findJsx_eq_ok {s : Session} {root : Node} {indent : Nat} {st st' : ScanState}
    {ids : List Identity} (h : (findJsx s root indent).run st = (.ok ids, st')) :
    ids = ((openings root).flatMap (openingIdentities s)).eraseDups ∧
    (∀ id, (st'.report.components.get? id).isSome ↔
      (st.report.components.get? id).isSome ∨ id ∈ ids) ∧
    (∀ id record, st.report.components.get? id = some record →
      st'.report.components.get? id = some record) ∧
    st'.report.exports = st.report.exports ∧ st'.report.annotations = st.report.annotations ∧
    st'.claimed = st.claimed ∧ st'.aliases = st.aliases := by
  obtain ⟨events, log, htrace, rfl⟩ := (Scan.traces_findJsx s root indent st).eq_ok h
  obtain ⟨ms, hms, heq⟩ := ok_map_iff.1 htrace
  cases heq
  have hids : identities [] ms = ((openings root).flatMap (openingIdentities s)).eraseDups := by
    rw [identities_nil, mentions_map_fst hms]
  have hget (id : Identity) :
      ({ st.takeAll (ms.map Mention.event) with log }.report.components.get? id) =
        (st.report.components.get? id).or
          ((ms.find? (·.1 == id)).map fun m => .referenced m.2) := by
    change (st.takeAll (ms.map Mention.event)).report.components.get? id = _
    rw [st.report_takeAll, get?_takeAll_mentions]
  refine ⟨hids, fun id => ?_, fun id record hrecord => ?_, ?_, ?_, ?_, ?_⟩
  · rw [hget, identities_nil, List.mem_eraseDups]
    simp
  · rw [hget, hrecord, Option.some_or]
  · exact (congrArg _ (st.report_takeAll _)).trans (exports_takeAll_mentions _ ms)
  · exact (congrArg _ (st.report_takeAll _)).trans (annotations_takeAll_mentions _ ms)
  · refine (st.claimed_takeAll _).trans ?_
    rw [filterMap_claimed?_mentions]
    rfl
  · refine (st.aliases_takeAll _).trans ?_
    rw [filterMap_alias?_mentions, List.append_nil]

/-- Components in attributes and below, one of them twice, one in a namespace, and an intrinsic
element. -/
def routes : String :=
  "import * as Icons from './icons';\n" ++
    "const Home = () => null;\n" ++
    "const App = () => <Route component=\x7bHome\x7d icon=\x7b<Icons.Bell/>\x7d>" ++
    "<div component=\x7bHome\x7d><Route/></div></Route>;\n"

def routesSession : Session :=
  ((Session.ofSource "src/a.tsx" routes).toOption).getD default

/-- A state with a record of one of them. -/
def routesState : ScanState :=
  { report := ((ScanReport.fresh "src/a.tsx" .placeholder).reference "src/a.tsx:Route"
      ⟨"Route", "elsewhere"⟩).2 }

def routesEnd : ScanState :=
  ((findJsx routesSession routesSession.root 0).run routesState).2

def routesIds : List Identity :=
  ["src/a.tsx:Route", "src/a.tsx:Home", "src/a.tsx:Icons.Bell"]

theorem findJsx_eq_ok_routes :
    (findJsx routesSession routesSession.root 0).run routesState = (.ok routesIds, routesEnd) ∧
    routesIds = ((openings routesSession.root).flatMap (openingIdentities routesSession)).eraseDups ∧
    (∀ id, (routesEnd.report.components.get? id).isSome ↔
      (routesState.report.components.get? id).isSome ∨ id ∈ routesIds) ∧
    (∀ id record, routesState.report.components.get? id = some record →
      routesEnd.report.components.get? id = some record) ∧
    routesEnd.report.exports = routesState.report.exports ∧
    routesEnd.report.annotations = routesState.report.annotations ∧
    routesEnd.claimed = routesState.claimed ∧ routesEnd.aliases = routesState.aliases := by
  have htext : routes.toList = _ :=
    toList_append_of (toList_append_of (toList_append_of String.toList_ofList String.toList_ofList)
      String.toList_ofList) String.toList_ofList
  have hids : ((findJsx routesSession routesSession.root 0).run routesState).1 = .ok routesIds := by
    rw [routesSession, Session.ofSource, htext]
    exact ok_of_toOption (by decide +kernel)
  have h : (findJsx routesSession routesSession.root 0).run routesState =
      (.ok routesIds, routesEnd) := by
    rw [← hids, routesEnd, Prod.mk.eta]
  exact ⟨h, findJsx_eq_ok h⟩

end ComponentScan
