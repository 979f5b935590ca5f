import ComponentScan.Proofs.Scan.Documented
import ComponentScan.Proofs.Scan.Undocumented

/-!
# Comments without tags that count

A documentation comment none of whose tags makes an annotation leaves nothing in a report but
documentation, if what it is on has an identity or another comment leads the same token. Otherwise
the scan fails for want of the identity, although nothing would be recorded under it
(`scanSource_inert`).
-/

namespace ComponentScan

open Syntax

/-! ## One more comment -/

/-- Whether a session is another one with one more documentation comment. -/
def Session.AddsDoc (t : Session) (o : Nat) (doc : DocComment) (s : Session) : Prop :=
  ∃ front back, t.docs = front ++ back ∧ s = t.withDocs (front ++ (o, doc) :: back)

namespace Session.AddsDoc

variable {t s : Session} {o : Nat} {doc : DocComment} (h : t.AddsDoc o doc s)
include h

theorem exists_withDocs : ∃ docs, s = t.withDocs docs := by
  obtain ⟨front, back, -, hs⟩ := h
  exact ⟨_, hs⟩

theorem exists_docsAt :
    ∃ before after, t.docsAt o = before ++ after ∧ s.docsAt o = before ++ doc :: after := by
  obtain ⟨front, back, hdocs, rfl⟩ := h
  refine ⟨(front.filter fun d => d.1 == o).map (·.2), (back.filter fun d => d.1 == o).map (·.2), ?_,
    ?_⟩
  · rw [t.docsAt_eq, hdocs, List.filter_append, List.map_append]
  · have hcons : ((o, doc) :: back).filter (fun d => d.1 == o) =
        (o, doc) :: back.filter fun d => d.1 == o := List.filter_cons_of_pos (by simp)
    have hall : (t.withDocs (front ++ (o, doc) :: back)).docs = front ++ (o, doc) :: back := rfl
    rw [docsAt_eq, hall, List.filter_append, hcons, List.map_append]
    rfl

theorem isEmpty_docsAt : (s.docsAt o).isEmpty = false := by
  obtain ⟨before, after, -, hdocs⟩ := h.exists_docsAt
  rw [hdocs]
  simp

theorem docsAt_of_ne {a : Nat} (ha : a ≠ o) : s.docsAt a = t.docsAt a := by
  obtain ⟨front, back, hdocs, rfl⟩ := h
  have hall : (t.withDocs (front ++ (o, doc) :: back)).docs = front ++ (o, doc) :: back := rfl
  rw [docsAt_eq, docsAt_eq, hall, hdocs, List.filter_append, List.filter_append,
    List.filter_cons_of_neg (by simpa using Ne.symm ha)]

theorem isEmpty_docsAt_of_isEmpty {a : Nat} (ha : (t.docsAt a).isEmpty = false) :
    (s.docsAt a).isEmpty = false := by
  by_cases heq : a = o
  · exact heq ▸ h.isEmpty_docsAt
  · rwa [h.docsAt_of_ne heq]

end Session.AddsDoc

namespace AnnotationTags

/-- Whether no tag of a comment makes an annotation. -/
def IsInert (config : Config) (doc : DocComment) : Prop :=
  ∀ tag ∈ doc.tags, config.isCrossReferenceTag tag.name = false ∧
    config.isPendingWorkTag tag.name = false

section

variable {config : Config} {t s : Session} {o : Nat} {doc : DocComment} {claimed claimed' : List Nat}
  {v : Visit} {vs : List Visit}

/-- An inert comment makes no events. -/
theorem docEvents_docsAt (h : t.AddsDoc o doc s) (hinert : IsInert config doc) (a : Nat) :
    docEvents config s (s.docsAt a) = docEvents config t (t.docsAt a) := by
  funext parent
  have hsession (docs : List DocComment) :
      docEvents config s docs parent = docEvents config t docs parent := by
    obtain ⟨_, rfl⟩ := h.exists_withDocs
    rfl
  rw [hsession]
  by_cases heq : a = o
  · subst heq
    obtain ⟨before, after, hbare, hmore⟩ := h.exists_docsAt
    have hdoc : (doc.tags.flatMap fun tag =>
        (annotation? config t doc parent tag).toList.map Event.annotate) = [] := by
      refine List.flatMap_eq_nil_iff.2 fun tag htag => ?_
      obtain ⟨hcross, hpending⟩ := hinert tag htag
      simp [annotation?, hcross, hpending]
    simp only [hbare, hmore, docEvents, List.flatMap_append, List.flatMap_cons, hdoc,
      List.nil_append]
  · rw [h.docsAt_of_ne heq]

/-- An inert comment changes what the detector of annotations does only where it is alone, and there
that the comment is taken. -/
theorem events_inert (h : t.AddsDoc o doc s) (hinert : IsInert config doc)
    (hclaimed : ∀ a, (t.docsAt a).isEmpty = false → (a ∈ claimed ↔ a ∈ claimed'))
    (hnamed : (t.docsAt o).isEmpty = true → v.node.start = o → o ∉ claimed →
      ∀ target, targetOf? v.node = some target → ∃ parent, targetIdentity? t v target = .ok parent) :
    (AnnotationTags.events config s claimed v = AnnotationTags.events config t claimed' v ∧
      ((t.docsAt o).isEmpty = true → v.node.start = o → targetOf? v.node ≠ none → o ∈ claimed)) ∨
    (v.node.start = o ∧ (t.docsAt o).isEmpty = true ∧
      AnnotationTags.events config s claimed v = .ok [.claim o] ∧
      AnnotationTags.events config t claimed' v = .ok []) := by
  have hidentity (target : Target) : targetIdentity? s v target = targetIdentity? t v target := by
    obtain ⟨docs, rfl⟩ := h.exists_withDocs
    exact t.targetIdentity?_withDocs docs v target
  unfold AnnotationTags.events
  dsimp only
  cases hempty : (t.docsAt v.node.start).isEmpty with
  | false =>
    have hcontains : claimed.contains v.node.start = claimed'.contains v.node.start := by
      rw [Bool.eq_iff_iff, List.contains_iff_mem, List.contains_iff_mem, hclaimed _ hempty]
    refine .inl ⟨?_, fun ho heq => ?_⟩
    · rw [h.isEmpty_docsAt_of_isEmpty hempty, hcontains]
      simp only [hidentity, docEvents_docsAt h hinert]
    · rw [← heq, hempty] at ho
      cases ho
  | true =>
    rw [Bool.true_or, if_pos rfl]
    by_cases hstart : v.node.start = o
    · subst hstart
      rw [h.isEmpty_docsAt, Bool.false_or]
      by_cases hmem : v.node.start ∈ claimed
      · rw [if_pos (List.contains_iff_mem.2 hmem)]
        exact .inl ⟨rfl, fun _ _ _ => hmem⟩
      · rw [if_neg (by simpa using hmem)]
        cases htarget : targetOf? v.node with
        | none => exact .inl ⟨rfl, fun _ _ hne => absurd rfl hne⟩
        | some target =>
          obtain ⟨parent, hparent⟩ := hnamed hempty rfl hmem target htarget
          refine .inr ⟨rfl, hempty, ?_, rfl⟩
          have hnone : t.docsAt v.node.start = [] := List.isEmpty_iff.1 hempty
          dsimp only
          simp only [hidentity, hparent, docEvents_docsAt h hinert, hnone]
          cases parent <;> rfl
    · rw [h.docsAt_of_ne hstart, hempty, Bool.true_or, if_pos rfl]
      exact .inl ⟨rfl, fun _ heq => absurd heq hstart⟩

/-- What the detector of annotations takes are the comments at the node, if it is a target. -/
theorem of_mem_claims {events : List Event} (h : AnnotationTags.events config s claimed v = .ok events)
    {a : Nat} (ha : a ∈ events.filterMap Event.claimed?) :
    a = v.node.start ∧ targetOf? v.node ≠ none := by
  rcases events_eq_of_takes? h with ⟨-, rfl⟩ | ⟨parent, htakes, rfl⟩
  · cases ha
  · have hdocs : (parent.toList.flatMap (docEvents config s (s.docsAt v.node.start))).filterMap
        Event.claimed? = [] := by
      cases parent with
      | none => rfl
      | some id =>
        rw [Option.toList_some, List.flatMap_cons, List.flatMap_nil, List.append_nil]
        exact claimed?_docEvents _ id
    simp only [List.filterMap_cons, Event.claimed?, hdocs, List.mem_singleton] at ha
    refine ⟨ha, fun hnone => ?_⟩
    rw [takes?, hnone, Option.map_none, ite_self] at htakes
    cases htakes

end

end AnnotationTags

/-! ## Walks -/

section

open AnnotationTags

variable {config : Config} {t s : Session} {o : Nat} {doc : DocComment} {claimed claimed' : List Nat}
  {v w : Visit} {vs : List Visit} {target : Target} {e : ScanError}

/-- At a node an inert comment changes nothing that is recorded. -/
theorem visitEvents_inert (h : t.AddsDoc o doc s) (hinert : IsInert config doc)
    (hclaimed : ∀ a, (t.docsAt a).isEmpty = false → (a ∈ claimed ↔ a ∈ claimed'))
    (hnamed : (t.docsAt o).isEmpty = true → v.node.start = o → o ∉ claimed →
      ∀ target, targetOf? v.node = some target → ∃ parent, targetIdentity? t v target = .ok parent) :
    recordedOf (visitEvents config s claimed v) = recordedOf (visitEvents config t claimed' v) ∧
      ∀ events events', visitEvents config s claimed v = .ok events →
        visitEvents config t claimed' v = .ok events' →
        (∀ a, (t.docsAt a).isEmpty = false →
          (a ∈ (events.filterMap Event.claimed?).reverse ++ claimed ↔
            a ∈ (events'.filterMap Event.claimed?).reverse ++ claimed')) ∧
        ((t.docsAt o).isEmpty = true → v.node.start = o → targetOf? v.node ≠ none →
          o ∈ (events.filterMap Event.claimed?).reverse ++ claimed) := by
  have hstep := events_inert h hinert hclaimed hnamed
  constructor
  · have htags : recordedOf (AnnotationTags.events config s claimed v) =
        recordedOf (AnnotationTags.events config t claimed' v) := by
      rcases hstep with ⟨heq, -⟩ | ⟨-, -, hown, hown'⟩
      · rw [heq]
      · rw [hown, hown']
        rfl
    refine recordedOf_concatEvents (.cons ?_ (.cons ?_ (.cons ?_ (.cons ?_ (.cons htags .nil)))))
    all_goals obtain ⟨docs, rfl⟩ := h.exists_withDocs
    · exact t.functionComponent_withDocs docs v
    · exact t.classComponent_withDocs config docs v
    · rw [t.lazyComponent_withDocs]
    · rw [t.exportAlias_withDocs]
  · intro events events' hevents hevents'
    obtain ⟨tags, htags, -, hclaims⟩ := filterMap_visitEvents hevents
    obtain ⟨tags', htags', -, hclaims'⟩ := filterMap_visitEvents hevents'
    rw [hclaims, hclaims']
    rcases hstep with ⟨heq, hmem⟩ | ⟨hstart, hempty, hown, hown'⟩
    · rw [heq] at htags
      cases htags.symm.trans htags'
      refine ⟨fun a ha => ?_, fun ho hstart htarget =>
        List.mem_append_right _ (hmem ho hstart htarget)⟩
      rw [List.mem_append, List.mem_append, hclaimed a ha]
    · cases hown.symm.trans htags
      cases hown'.symm.trans htags'
      refine ⟨fun a ha => ?_, fun _ _ _ => List.mem_append_left _ (List.mem_singleton.2 rfl)⟩
      have hne : a ≠ o := fun heq => by
        rw [heq, hempty] at ha
        cases ha
      change a ∈ o :: claimed ↔ a ∈ claimed'
      rw [List.mem_cons, or_iff_right hne, hclaimed a ha]

/-- An inert comment changes nothing that is recorded if what it is on has an identity. -/
theorem walkEvents_inert (h : t.AddsDoc o doc s) (hinert : IsInert config doc)
    (hclaimed : ∀ a, (t.docsAt a).isEmpty = false → (a ∈ claimed ↔ a ∈ claimed'))
    (hnamed : (t.docsAt o).isEmpty = true → o ∈ claimed ∨ ∀ v target,
      firstTarget? o vs = some (v, target) → ∃ parent, targetIdentity? t v target = .ok parent) :
    recordedOf (walkEvents config s claimed vs) = recordedOf (walkEvents config t claimed' vs) := by
  induction vs generalizing claimed claimed' with
  | nil => rfl
  | cons v vs ih =>
    have hown : (t.docsAt o).isEmpty = true → v.node.start = o → o ∉ claimed →
        ∀ target, targetOf? v.node = some target →
          ∃ parent, targetIdentity? t v target = .ok parent := fun ho hstart hmem target htarget =>
      (hnamed ho).resolve_left hmem v target (firstTarget?_cons_of_some hstart htarget)
    obtain ⟨hfirst, hrest⟩ := visitEvents_inert h hinert hclaimed hown
    refine recordedOf_append hfirst fun events events' hevents hevents' => ?_
    obtain ⟨hclaimed', hmem⟩ := hrest events events' hevents hevents'
    refine ih hclaimed' fun ho => ?_
    by_cases htarget : v.node.start = o ∧ targetOf? v.node ≠ none
    · exact .inl (hmem ho htarget.1 htarget.2)
    · rcases hnamed ho with hmem | hnamed
      · exact .inl (List.mem_append_right _ hmem)
      · refine .inr fun w target hw => hnamed w target ?_
        rwa [firstTarget?_cons_of_none fun hstart => by
          by_contra hne
          exact htarget ⟨hstart, hne⟩]

/-- Where an inert comment alone is on something without an identity, a visit fails; for want of
the identity if nothing else fails there. -/
theorem exists_error_of_visitEvents (config : Config) (claimed' : List Nat) (h : t.AddsDoc o doc s)
    (hmem : o ∉ claimed) (hstart : v.node.start = o) (htarget : targetOf? v.node = some target)
    (hid : targetIdentity? t v target = .error e) :
    ∃ e', visitEvents config s claimed v = .error e' ∧
      ∀ events', visitEvents config t claimed' v = .ok events' → e' = e := by
  have htags : AnnotationTags.events config s claimed v = .error e := by
    have hidentity : targetIdentity? s v target = .error e := by
      obtain ⟨docs, rfl⟩ := h.exists_withDocs
      exact (t.targetIdentity?_withDocs docs v target).trans hid
    unfold AnnotationTags.events
    dsimp only
    rw [hstart, h.isEmpty_docsAt, htarget, Bool.false_or, if_neg (by simpa using hmem)]
    dsimp only
    rw [hidentity]
    rfl
  cases hvisit : visitEvents config s claimed v with
  | ok events =>
    obtain ⟨_, htags', -⟩ := filterMap_visitEvents hvisit
    cases htags.symm.trans htags'
  | error e' =>
    refine ⟨e', rfl, fun events' hevents' => ?_⟩
    -- the detectors before the one of annotations fail in neither session
    obtain ⟨_, _, _, _, hfunctions, hclasses, hdeferred, -⟩ := visitEvents_eq_ok hevents'
    obtain ⟨docs, rfl⟩ := h.exists_withDocs
    obtain ⟨functions, hfunctions⟩ := exists_ok_of_recordedOf
      (t.functionComponent_withDocs docs v) hfunctions
    obtain ⟨classes, hclasses⟩ := exists_ok_of_recordedOf
      (t.classComponent_withDocs config docs v) hclasses
    rw [← t.lazyComponent_withDocs config docs] at hdeferred
    simp only [visitEvents, concatEvents, hfunctions, hclasses, hdeferred, htags, bind,
      Except.bind] at hvisit
    cases hvisit
    rfl

/-- Where an inert comment alone is on something without an identity, a walk fails; for want of the
identity if nothing else fails. -/
theorem exists_error_of_walkEvents (h : t.AddsDoc o doc s) (hinert : IsInert config doc)
    (hclaimed : ∀ a, (t.docsAt a).isEmpty = false → (a ∈ claimed ↔ a ∈ claimed'))
    (hmem : o ∉ claimed)
    (hfirst : firstTarget? o vs = some (w, target)) (hid : targetIdentity? t w target = .error e) :
    ∃ e', walkEvents config s claimed vs = .error e' ∧
      ∀ events', walkEvents config t claimed' vs = .ok events' → e' = e := by
  induction vs generalizing claimed claimed' with
  | nil => cases hfirst
  | cons v vs ih =>
    by_cases htarget : v.node.start = o ∧ targetOf? v.node ≠ none
    · obtain ⟨hstart, htarget⟩ := htarget
      obtain ⟨target', htarget⟩ := Option.ne_none_iff_exists'.1 htarget
      rw [firstTarget?_cons_of_some hstart htarget] at hfirst
      cases hfirst
      obtain ⟨e', he', hall⟩ := exists_error_of_visitEvents config claimed' h
        hmem hstart htarget hid
      refine ⟨e', by simp [walkEvents, he', bind, Except.bind], fun events' hevents' => ?_⟩
      obtain ⟨first, hfirst, -⟩ := walkEvents_cons_eq_ok_iff.1 hevents'
      exact hall first hfirst
    · have hnone : v.node.start = o → targetOf? v.node = none := fun hstart => by
        by_contra hne
        exact htarget ⟨hstart, hne⟩
      rw [firstTarget?_cons_of_none hnone] at hfirst
      obtain ⟨hvisit, hrest⟩ := visitEvents_inert h hinert hclaimed
        fun _ hstart _ target htarget => by
          rw [hnone hstart] at htarget
          cases htarget
      obtain ⟨e', he, he'⟩ | ⟨first, first', hown, hown', -⟩ := recordedOf_eq_iff.1 hvisit
      · refine ⟨e', by simp [walkEvents, he, bind, Except.bind], fun events' hevents' => ?_⟩
        obtain ⟨first, hfirst, -⟩ := walkEvents_cons_eq_ok_iff.1 hevents'
        cases he'.symm.trans hfirst
      · obtain ⟨hclaimed', -⟩ := hrest first first' hown hown'
        have hmem' : o ∉ (first.filterMap Event.claimed?).reverse ++ claimed := by
          obtain ⟨tags, htags, -, hclaims⟩ := filterMap_visitEvents hown
          rw [hclaims, List.mem_append, List.mem_reverse, not_or]
          refine ⟨fun ho => ?_, hmem⟩
          obtain ⟨hstart, htarget⟩ := of_mem_claims htags ho
          exact htarget (hnone hstart.symm)
        obtain ⟨e', he', hall⟩ := ih hclaimed' hmem' hfirst
        refine ⟨e', by simp [walkEvents, hown, he', bind, Except.bind], fun events' hevents' => ?_⟩
        obtain ⟨_, hfirst', others, hothers, -⟩ := walkEvents_cons_eq_ok_iff.1 hevents'
        cases hown'.symm.trans hfirst'
        exact hall others hothers

end

/-! ## Reports -/

namespace Session

/-- The identity of what comments at an offset are on, with the error if there is none. -/
def identityAt? (s : Session) (o : Nat) : Except ScanError (Option Identity) :=
  match s.targetAt? o with
  | some (v, target) => AnnotationTags.targetIdentity? s v target
  | none => .ok none

/-- The session of a program without its comment number `j`, as if an ordinary block comment of the
same length stood in its place: the text and the tree stay, and no documentation is read there. -/
def withoutComment (path source : String) (p : Program) (j : Nat) : Session :=
  .ofProgram path source.toList { p with comments := p.comments.eraseIdx j }

theorem addsDoc_withoutComment {source : String} {p : Program} {j o : Nat} {span whole : Span}
    (hcomment : p.comments[j]? = some (o, span))
    (hwhole : DocComment.spanOf? source.toList span = some whole) (path : String) :
    (withoutComment path source p j).AddsDoc o (DocComment.parse source.toList whole)
      (.ofProgram path source.toList p) := by
  obtain ⟨hlt, hget⟩ := List.getElem?_eq_some_iff.1 hcomment
  let docsOf (comments : List (Nat × Span)) : List (Nat × DocComment) :=
    (ofProgram path source.toList { p with comments }).docs
  refine ⟨docsOf (p.comments.take j), docsOf (p.comments.drop (j + 1)), ?_, ?_⟩
  · unfold docsOf withoutComment ofProgram
    rw [← List.filterMap_append, ← List.eraseIdx_eq_take_drop_succ]
  · have hall : docsOf p.comments = docsOf (p.comments.take j) ++
        (o, DocComment.parse source.toList whole) :: docsOf (p.comments.drop (j + 1)) := by
      unfold docsOf ofProgram
      dsimp only
      nth_rewrite 1 [← List.take_append_drop j p.comments]
      rw [List.drop_eq_getElem_cons hlt, hget, List.filterMap_append,
        List.filterMap_cons_some (by rw [hwhole]; rfl)]
    rw [← hall]
    rfl

end Session

section

open AnnotationTags

variable {config : Config} {path source : String} {p : Program} {j o : Nat} {span whole : Span}

/-- Where a documentation comment has no tag that makes an annotation, its scan is the one without
it but for documentation and the log, if what it is on has an identity or other comments are at the
token. Without either the scan fails, for want of the identity if nothing else fails. -/
theorem scanSource_inert (hparse : Program.parse (.ofPath path) source = some p)
    (hcomment : p.comments[j]? = some (o, span))
    (hwhole : DocComment.spanOf? source.toList span = some whole)
    (hinert : IsInert config (DocComment.parse source.toList whole)) (repo : RepoMetadata) :
    (((Session.withoutComment path source p j).docsAt o ≠ [] ∨
        ∃ parent, (Session.withoutComment path source p j).identityAt? o = .ok parent) →
      (scanSource config path source repo).map ScanReport.undocumented =
        ((Session.withoutComment path source p j).scan config repo).map
          ScanReport.undocumented) ∧
    ∀ e, (Session.withoutComment path source p j).identityAt? o = .error e →
      ∃ e', scanSource config path source repo = .error e' ∧
        ∀ r, (Session.withoutComment path source p j).scan config repo = .ok r → e' = e := by
  have hadds := Session.addsDoc_withoutComment hcomment hwhole path
  have hsession := Session.ofSource_eq_ok_iff.2 ⟨p, hparse, rfl⟩
  have hscan := scanSource_of_ofSource hsession config repo
  set t := Session.withoutComment path source p j with ht
  set s := Session.ofProgram path source.toList p with hs
  have hroot : s.root = t.root := rfl
  have hclaimed : ∀ a, (t.docsAt a).isEmpty = false → (a ∈ ([] : List Nat) ↔ a ∈ ([] : List Nat)) :=
    fun _ _ => Iff.rfl
  obtain ⟨log, hevents⟩ := s.scan_eq config
  obtain ⟨log', hevents'⟩ := t.scan_eq config
  rw [hscan, hevents, hevents']
  refine ⟨fun hnamed => ?_, fun e hid => ?_⟩
  · have hrecorded : recordedOf (s.events config) = recordedOf (t.events config) := by
      refine walkEvents_inert hadds hinert hclaimed fun hempty => .inr fun v target htarget => ?_
      obtain ⟨parent, hparent⟩ := hnamed.resolve_left fun h => h (List.isEmpty_iff.1 hempty)
      replace htarget : t.targetAt? o = some (v, target) := htarget
      rw [Session.identityAt?, htarget] at hparent
      exact ⟨parent, hparent⟩
    obtain ⟨e, he, he'⟩ | ⟨events, events', he, he', heq⟩ := recordedOf_eq_iff.1 hrecorded
    · rw [he, he']
      rfl
    · rw [he, he']
      refine congrArg Except.ok ?_
      change (reportOf path repo events).undocumented = (reportOf path repo events').undocumented
      rw [ScanReport.undocumented_reportOf, ScanReport.undocumented_reportOf, heq]
  · unfold Session.identityAt? at hid
    split at hid
    · next v target htarget =>
      obtain ⟨e', he', hall⟩ := exists_error_of_walkEvents hadds hinert hclaimed
        List.not_mem_nil htarget hid
      refine ⟨e', by rw [Session.events, hroot, he']; rfl, fun r hr => ?_⟩
      obtain ⟨events, hevents, -⟩ := ok_bind_iff.1 hr
      exact hall events hevents
    · cases hid

/-- A component below a list of variables that has no identity, with a comment on the list. -/
def inertComment : String :=
  "/** The settings. */\nconst \x7b theme \x7d = settings;\n" ++
    "export function App() \x7b return <B/>; \x7d\n"

/-- The scan fails with the comment, and exports the component without it. -/
theorem scanSource_inert_unnamed :
    ∃ p, Program.parse (.ofPath "a.tsx") inertComment = some p ∧
      p.comments[0]? = some (21, ⟨0, 20⟩) ∧
      DocComment.spanOf? inertComment.toList ⟨0, 20⟩ = some ⟨0, 20⟩ ∧
      IsInert {} (DocComment.parse inertComment.toList ⟨0, 20⟩) ∧
      scanSource {} "a.tsx" inertComment .placeholder = .error
        (.unresolvableIdentity "VariableDeclarator(<destructure>)" "\x7b theme \x7d = settings") ∧
      ((Session.withoutComment "a.tsx" inertComment p 0).scan {} .placeholder).map
        ScanReport.exports = .ok ["a.tsx:App"] := by
  have htext : inertComment.toList = _ := toList_append_of String.toList_ofList String.toList_ofList
  obtain ⟨hparse, hwhole, htags⟩ :
      ((Program.parse (.ofPath "a.tsx") inertComment).any fun p =>
        let t := Session.withoutComment "a.tsx" inertComment p 0
        p.comments[0]? == some (21, ⟨0, 20⟩) && t.identityAt? 21 == .error
          (.unresolvableIdentity "VariableDeclarator(<destructure>)"
            "\x7b theme \x7d = settings") &&
        (t.scan {} .placeholder).map ScanReport.exports == .ok ["a.tsx:App"]) = true ∧
      DocComment.spanOf? inertComment.toList ⟨0, 20⟩ = some ⟨0, 20⟩ ∧
      (DocComment.parse inertComment.toList ⟨0, 20⟩).tags = [] := by
    simp only [Session.withoutComment, Program.parse, htext]
    decide +kernel
  obtain ⟨p, hparse, hp⟩ := (Option.any_eq_true _ _).1 hparse
  simp only [Bool.and_eq_true, beq_iff_eq] at hp
  obtain ⟨⟨hcomment, hidentity⟩, hexports⟩ := hp
  have hinert : IsInert {} (DocComment.parse inertComment.toList ⟨0, 20⟩) := by
    rw [IsInert, htags]
    exact fun tag htag => absurd htag List.not_mem_nil
  obtain ⟨-, hunnamed⟩ := scanSource_inert hparse hcomment hwhole hinert .placeholder
  obtain ⟨e, he, hall⟩ := hunnamed _ hidentity
  obtain ⟨r, hr, -⟩ := ok_map_iff.1 hexports
  refine ⟨p, hparse, hcomment, hwhole, hinert, ?_, hexports⟩
  rw [he, hall r hr]

end

end ComponentScan
