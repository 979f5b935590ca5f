import ComponentScan.Proofs.Report.History
import ComponentScan.Proofs.Scan.Exports
import ComponentScan.Proofs.Scan.Failures
import ComponentScan.Proofs.Scan.Rendered
import ComponentScan.Proofs.Scan.Steps

/-!
# Member tags

A tag such as `<R.a.b>` refers to a component under the identity of its root, with what comes behind
the root in the printed tag. The tag is printed without white space but with its comments, so this is
the path of its members exactly if nothing but white space stands around its dots
(`Session.isRecordedAs_memberTag`). Two such spellings of a path have one identity and one record.
-/

namespace ComponentScan

open Syntax Text

/-! ## Paths -/

namespace Template

/-- The names of the members in a path. -/
def memberNames : Node → List String
  | ⟨.jsxMemberExpression, _, [object, property]⟩ =>
    memberNames object ++ [nameOr "" (some property)]
  | _ => []

/-- The name that a path starts with, unless that is `this`. -/
def rootName (n : Node) : String :=
  nameOr "" (memberRoot? n)

/-- Where the dots of a path stand: from the end of each object to the start of its member. -/
def memberGaps : Node → List Span
  | ⟨.jsxMemberExpression, _, [object, property]⟩ =>
    memberGaps object ++ [⟨object.stop, property.start⟩]
  | _ => []

/-- Names that each stand behind a dot. -/
def dotted (names : List String) : List Char :=
  names.flatMap fun name => '.' :: name.toList

end Template

end ComponentScan

namespace ComponentScan.Syntax.Node.IsPath

open Template Text

variable {text : List Char} {n root : Node} {parts : List (List Char × String)}

theorem memberNames_eq (h : n.IsPath text root parts) : memberNames n = parts.map Prod.snd := by
  induction h with
  | @root n name hkind =>
    obtain ⟨kind, span, children⟩ := n
    rcases hkind with hkind | hkind <;> cases hkind <;> rfl
  | @member object root property parts gap name h hgap hdot hkind htext hink ih =>
    have hname : nameOr "" (some property) = name := by
      rw [nameOr, Option.bind_some, Node.text?, hkind]
      rfl
    rw [memberNames, ih, hname, List.map_append]
    rfl

theorem map_memberGaps (h : n.IsPath text root parts) :
    (memberGaps n).map (fun gap => slice? text gap.start gap.stop) =
      parts.map fun part => some part.1 := by
  induction h with
  | @root n name hkind =>
    obtain ⟨kind, span, children⟩ := n
    rcases hkind with hkind | hkind <;> cases hkind <;> rfl
  | @member object root property parts gap name h hgap hdot hkind htext hink ih =>
    rw [memberGaps, List.map_append, List.map_append, ih]
    exact congrArg _ (congrArg (fun slice => [slice]) hgap)

/-- The identifier at the root of a path is that of its first word. -/
theorem memberRoot?_eq (h : n.IsPath text root parts) : memberRoot? n = memberRoot? root := by
  induction h with
  | root => rfl
  | member h _ _ _ _ _ ih =>
    rw [memberRoot?, ih]

/-- A path is printed as its first word and, for each member, what stands around its dot and its
name. -/
theorem exists_slice? (h : n.IsPath text root parts) : ∃ name : String,
    (root.kind = .identifierReference name ∨ root.kind = .thisExpression) ∧
    (∀ x ∈ name.toList, IsInk x) ∧
    slice? text n.start n.stop =
      some (name.toList ++ parts.flatMap fun part => part.1 ++ part.2.toList) := by
  induction h with
  | @root n name hkind htext hink =>
    refine ⟨name, hkind, hink, ?_⟩
    rw [List.flatMap_nil, List.append_nil]
    exact htext
  | @member object root property parts gap name h hgap hdot hkind htext hink ih =>
    obtain ⟨first, hroot, hfirst, hslice⟩ := ih
    refine ⟨first, hroot, hfirst, ?_⟩
    rw [List.flatMap_append, List.flatMap_singleton, ← List.append_assoc, ← List.append_assoc]
    exact slice?_trans (slice?_trans hslice hgap) htext

theorem forall_part (h : n.IsPath text root parts) :
    ∀ part ∈ parts, '.' ∈ part.1 ∧ ∀ x ∈ part.2.toList, IsInk x := by
  induction h with
  | root => nofun
  | member h _ hdot _ _ hink ih =>
    exact List.forall_mem_append.2 ⟨ih, List.forall_mem_singleton.2 ⟨hdot, hink⟩⟩

end ComponentScan.Syntax.Node.IsPath

namespace ComponentScan

open Syntax Text Template

/-! ## Printed paths -/

/-- The members of a path as they are printed. -/
def printedParts (parts : List (List Char × String)) : List Char :=
  parts.flatMap fun part => compact part.1 ++ part.2.toList

theorem compact_flatMap_parts {parts : List (List Char × String)}
    (h : ∀ part ∈ parts, ∀ x ∈ part.2.toList, IsInk x) :
    compact (parts.flatMap fun part => part.1 ++ part.2.toList) = printedParts parts := by
  induction parts with
  | nil => rfl
  | cons part parts ih =>
    obtain ⟨hpart, hparts⟩ := List.forall_mem_cons.1 h
    rw [List.flatMap_cons, compact_append, compact_append, compact_eq_self hpart, ih hparts]
    rfl

theorem length_compact_pos {gap : List Char} (hdot : '.' ∈ gap) : 0 < (compact gap).length :=
  List.length_pos_of_mem (List.mem_filter.2 ⟨hdot, rfl⟩)

/-- What is printed is never shorter than the names behind dots. -/
theorem length_dotted_le {parts : List (List Char × String)}
    (hdot : ∀ part ∈ parts, '.' ∈ part.1) :
    (dotted (parts.map Prod.snd)).length ≤ (printedParts parts).length := by
  induction parts with
  | nil => exact Nat.le_refl 0
  | cons part parts ih =>
    obtain ⟨hpart, hparts⟩ := List.forall_mem_cons.1 hdot
    have hrest := ih hparts
    have hgap := length_compact_pos hpart
    simp only [dotted, printedParts, List.map_cons, List.flatMap_cons, List.length_append,
      List.length_cons] at hrest ⊢
    omega

/-- It is the names behind dots if nothing else is printed around the dots. -/
theorem printedParts_eq_iff {parts : List (List Char × String)}
    (hdot : ∀ part ∈ parts, '.' ∈ part.1) :
    printedParts parts = dotted (parts.map Prod.snd) ↔
      ∀ part ∈ parts, compact part.1 = ['.'] := by
  induction parts with
  | nil => exact ⟨fun _ => nofun, fun _ => rfl⟩
  | cons part parts ih =>
    obtain ⟨hpart, hparts⟩ := List.forall_mem_cons.1 hdot
    have hprinted : printedParts (part :: parts) =
        compact part.1 ++ (part.2.toList ++ printedParts parts) := List.append_assoc ..
    have hdotted : dotted ((part :: parts).map Prod.snd) =
        ['.'] ++ (part.2.toList ++ dotted (parts.map Prod.snd)) := rfl
    rw [hprinted, hdotted, List.forall_mem_cons, ← ih hparts]
    constructor
    · intro heq
      -- Nothing is shorter than it should be, so nothing is longer either.
      have hlength := congrArg List.length heq
      have hgap := length_compact_pos hpart
      have hrest := length_dotted_le hparts
      simp only [List.length_append, List.length_singleton] at hlength
      obtain ⟨hsign, hnames⟩ := List.append_inj heq (by rw [List.length_singleton]; omega)
      exact ⟨hsign, List.append_cancel_left hnames⟩
    · rintro ⟨hsign, hnames⟩
      rw [hsign, hnames]

/-! ## Printed tags -/

theorem Text.startsUppercase_append {name : List Char} (h : startsUppercase name = true)
    (rest : List Char) : startsUppercase (name ++ rest) = true := by
  cases name with
  | nil => cases h
  | cons x name => exact h

/-- What has a record is not recorded again. -/
theorem ScanReport.reference_again (r : ScanReport) (id : Identity) (c c' : ReferencedComponent) :
    ((r.reference id c).2.reference id c').2 = (r.reference id c).2 := by
  obtain ⟨record, hrecord⟩ : ∃ record, (r.reference id c).2.components.get? id = some record := by
    rw [get?_reference, if_pos rfl]
    cases r.components.get? id with
    | none => exact ⟨_, rfl⟩
    | some record => exact ⟨record, rfl⟩
  conv_lhs =>
    rw [reference, hrecord]

namespace Session

variable {s : Session} {path source : String} {tag tag' : Node}

/-- Whether nothing but white space stands around the dots of a path. -/
def IsPlainPath (s : Session) (n : Node) : Prop :=
  ∀ gap ∈ memberGaps n, compact (s.textAt gap) = ['.']

instance (s : Session) (n : Node) : Decidable (s.IsPlainPath n) :=
  inferInstanceAs (Decidable (∀ gap ∈ memberGaps n, _))

/-- Whether a node is the name of a member tag whose root is an upper-case name of a symbol. -/
structure IsMemberTag (s : Session) (tag : Node) : Prop where
  mem : tag ∈ s.root.nodes
  kind : tag.kind = .jsxMemberExpression
  symbol : ((memberRoot? tag).bind s.symbolAt?).isSome = true
  uppercase : startsUppercase (rootName tag).toList = true

instance (s : Session) (tag : Node) : Decidable (s.IsMemberTag tag) :=
  decidable_of_iff (tag ∈ s.root.nodes ∧ tag.kind = .jsxMemberExpression ∧
      ((memberRoot? tag).bind s.symbolAt?).isSome = true ∧
      startsUppercase (rootName tag).toList = true)
    ⟨fun ⟨hmem, hkind, hsymbol, hupper⟩ => ⟨hmem, hkind, hsymbol, hupper⟩,
      fun h => ⟨h.mem, h.kind, h.symbol, h.uppercase⟩⟩

theorem isPlainPath_iff {root : Node} {parts : List (List Char × String)}
    (h : tag.IsPath s.source root parts) :
    s.IsPlainPath tag ↔ ∀ part ∈ parts, compact part.1 = ['.'] := by
  have hgaps : (memberGaps tag).map s.textAt = parts.map Prod.fst := by
    have hslices := congrArg (List.map fun slice => Option.getD slice []) h.map_memberGaps
    rw [List.map_map, List.map_map] at hslices
    exact hslices
  unfold IsPlainPath
  rw [← List.forall_mem_map (P := fun gap => compact gap = ['.']), hgaps, List.forall_mem_map]

/-- A member tag is printed as the name of its root and its members. -/
theorem IsMemberTag.printCompact_eq {root : Node} {parts : List (List Char × String)}
    (h : s.IsMemberTag tag) (hpath : tag.IsPath s.source root parts) :
    s.printCompact tag = rootName tag ++ String.ofList (printedParts parts) := by
  obtain ⟨name, hkind, hink, hslice⟩ := hpath.exists_slice?
  have hroot := h.symbol
  rw [hpath.memberRoot?_eq] at hroot
  have hname : rootName tag = name := by
    rw [rootName, hpath.memberRoot?_eq]
    obtain ⟨kind, span, children⟩ := root
    rcases hkind with hkind | hkind
    · cases hkind
      rfl
    · cases hkind
      cases hroot
  have hprint : compact (s.textAt tag.span) = name.toList ++ printedParts parts := by
    have htext : s.textAt tag.span =
        name.toList ++ parts.flatMap fun part => part.1 ++ part.2.toList :=
      congrArg (Option.getD · []) hslice
    rw [htext, compact_append, compact_eq_self hink,
      compact_flatMap_parts fun part hpart => (hpath.forall_part part hpart).2]
  rw [printCompact, hprint, String.ofList_append, String.ofList_toList, hname]

/-- Whether a tag is recorded under an identity, wherever a scan has got to. -/
def IsRecordedAs (s : Session) (tag : Node) (id : Identity) : Prop :=
  ∀ indent st, ∃ component log, (tagReference? s tag indent).run st =
    (.ok (some id), { st with report := (st.report.reference id component).2, log })

/-- A member tag is recorded under the identity of its root with what is printed behind it. -/
theorem IsMemberTag.isRecordedAs {root : Node} {parts : List (List Char × String)}
    (h : s.IsMemberTag tag) (hpath : tag.IsPath s.source root parts) :
    s.IsRecordedAs tag
      (s.identityNamed (rootName tag) ++ String.ofList (printedParts parts)) := by
  obtain ⟨symbol, hbound⟩ := Option.isSome_iff_exists.1 h.symbol
  obtain ⟨ident, hident, hsymbol⟩ := Option.bind_eq_some_iff.1 hbound
  have hname : nameOr "" (some ident) = rootName tag := by rw [rootName, hident]
  have hprinted := h.printCompact_eq hpath
  have hupper : startsUppercase (s.printCompact tag).toList = true := by
    rw [hprinted, String.toList_append]
    exact startsUppercase_append h.uppercase _
  let component : ReferencedComponent :=
    ⟨s.printCompact tag, (s.symbolLocation symbol).text⟩
  have hmention : tagMention? s tag = .ok (some
      (s.identityNamed (rootName tag) ++ String.ofList (printedParts parts), component)) := by
    unfold tagMention?
    rw [h.kind]
    dsimp only
    rw [if_pos hupper, hident]
    dsimp only
    rw [mention, Option.bind_some, hsymbol]
    dsimp only
    rw [identityOf_of_symbolAt? hsymbol, hname, hprinted, dropBytes_append, ← hprinted]
  intro indent st
  have htraces := Scan.traces_tagReference? s tag indent
  rw [hmention] at htraces
  obtain ⟨log, hrun⟩ := (htraces st).exists_run
  exact ⟨component, log, hrun.trans (by simp [Mention.event, ScanState.take_reference])⟩

theorem IsRecordedAs.unique {id id' : Identity} (h : s.IsRecordedAs tag id)
    (h' : s.IsRecordedAs tag id') : id = id' := by
  obtain ⟨_, _, hrun⟩ := h 0 default
  obtain ⟨_, _, hrun'⟩ := h' 0 default
  rw [hrun] at hrun'
  cases hrun'
  rfl

/-- The second of two tags with one identity adds no record. -/
theorem IsRecordedAs.components_eq {id : Identity} (h : s.IsRecordedAs tag id)
    (h' : s.IsRecordedAs tag' id) (indent indent' : Nat) (st : ScanState) :
    ((do
      let _ ← tagReference? s tag indent
      tagReference? s tag' indent').run st).2.report.components =
    ((tagReference? s tag indent).run st).2.report.components := by
  obtain ⟨component, log, hrun⟩ := h indent st
  obtain ⟨component', log', hrun'⟩ :=
    h' indent' { st with report := (st.report.reference id component).2, log }
  rw [Scan.run_bind, hrun]
  dsimp only
  rw [hrun']
  exact congrArg ScanReport.components (ScanReport.reference_again st.report id component component')

/-- A member tag is recorded under the identity of its root with its members behind it, each behind a
dot, exactly if nothing but white space stands around its dots. So two such spellings of a path have
one identity and one record, and a spelling with a comment in it has another identity. -/
theorem isRecordedAs_memberTag (hs : ofSource path source = .ok s) (h : s.IsMemberTag tag) :
    ∃ root base id, memberRoot? tag = some root ∧ s.identify root = .ok base ∧
      s.IsRecordedAs tag id ∧
      (id = base ++ String.ofList (dotted (memberNames tag)) ↔ s.IsPlainPath tag) ∧
      ∀ tag', s.IsMemberTag tag' → rootName tag' = rootName tag →
        memberNames tag' = memberNames tag → s.IsPlainPath tag →
        (s.IsRecordedAs tag' id ↔ s.IsPlainPath tag') ∧
        (s.IsPlainPath tag' → ∀ indent indent' st,
          ((do
            let _ ← tagReference? s tag indent
            tagReference? s tag' indent').run st).2.report.components =
          ((tagReference? s tag indent).run st).2.report.components) := by
  -- Of each tag the identity is known, and when it is that of the path.
  have hidentity {tag : Node} (h : s.IsMemberTag tag) : ∃ id, s.IsRecordedAs tag id ∧
      (id = s.identityNamed (rootName tag) ++ String.ofList (dotted (memberNames tag)) ↔
        s.IsPlainPath tag) := by
    obtain ⟨root, parts, hpath⟩ := (fitsIn hs tag h.mem).path h.kind
    refine ⟨_, h.isRecordedAs hpath, ?_⟩
    rw [String.append_right_inj, String.ofList_inj, hpath.memberNames_eq, isPlainPath_iff hpath]
    exact printedParts_eq_iff fun part hpart => (hpath.forall_part part hpart).1
  obtain ⟨symbol, hbound⟩ := Option.isSome_iff_exists.1 h.symbol
  obtain ⟨root, hroot, hsymbol⟩ := Option.bind_eq_some_iff.1 hbound
  have hbase : s.identify root = .ok (s.identityNamed (rootName tag)) := by
    rw [identify_of_symbolAt? hsymbol, identityOf_of_symbolAt? hsymbol, rootName, hroot]
  obtain ⟨id, hrecorded, hplain⟩ := hidentity h
  refine ⟨root, _, id, hroot, hbase, hrecorded, hplain, ?_⟩
  intro tag' h' hrootName hnames hplainTag
  obtain ⟨id', hrecorded', hplain'⟩ := hidentity h'
  rw [hrootName, hnames, ← hplain.2 hplainTag] at hplain'
  have hsame : s.IsRecordedAs tag' id ↔ s.IsPlainPath tag' := by
    rw [← hplain']
    exact ⟨hrecorded'.unique, fun heq => heq ▸ hrecorded'⟩
  exact ⟨hsame, fun hplainTag' => hrecorded.components_eq (hsame.2 hplainTag')⟩

end Session

def spelled : String :=
  "import R from \"r\";\nconst A = () => <R.a><R\n. a/><R/**/.a/></R.a>;\n"

def spelledSession : Session :=
  ((Session.ofSource "a.tsx" spelled).toOption).getD default

/-- Of three spellings of a tag the one with a comment in it has another identity. -/
theorem Session.isRecordedAs_memberTag_spelled :
    Session.ofSource "a.tsx" spelled = .ok spelledSession ∧
    ∃ tag spaced commented, spelledSession.IsMemberTag tag ∧ spelledSession.IsMemberTag spaced ∧
      spelledSession.IsMemberTag commented ∧
      spelledSession.print spaced = "R\n. a" ∧ spelledSession.print commented = "R/**/.a" ∧
      spelledSession.IsRecordedAs tag "a.tsx:R.a" ∧
      spelledSession.IsRecordedAs spaced "a.tsx:R.a" ∧
      ¬ spelledSession.IsRecordedAs commented "a.tsx:R.a" := by
  have htext : spelled.toList = _ := String.toList_ofList
  obtain ⟨hsession, tag, -, htag, hplain, hbase, hnames, spaced, -, hspaced, hprint, hspacedRoot,
      hspacedNames, hspacedPlain, commented, -, hcommented, hprint', hcommentedRoot,
      hcommentedNames, hcomment⟩ :
      (Session.ofSource "a.tsx" spelled).toOption.isSome = true ∧
      ∃ tag ∈ spelledSession.root.nodes, spelledSession.IsMemberTag tag ∧
        spelledSession.IsPlainPath tag ∧
        (memberRoot? tag).bind (fun root => (spelledSession.identify root).toOption) =
          some "a.tsx:R" ∧
        memberNames tag = ["a"] ∧
      ∃ spaced ∈ spelledSession.root.nodes, spelledSession.IsMemberTag spaced ∧
        spelledSession.print spaced = "R\n. a" ∧
        rootName spaced = rootName tag ∧ memberNames spaced = memberNames tag ∧
        spelledSession.IsPlainPath spaced ∧
      ∃ commented ∈ spelledSession.root.nodes, spelledSession.IsMemberTag commented ∧
        spelledSession.print commented = "R/**/.a" ∧
        rootName commented = rootName tag ∧ memberNames commented = memberNames tag ∧
        ¬ spelledSession.IsPlainPath commented := by
    rw [spelledSession, Session.ofSource, htext]
    decide +kernel
  have hs : Session.ofSource "a.tsx" spelled = .ok spelledSession := eq_ok_getD hsession
  obtain ⟨root, base, id, hroot, hidentify, hrecorded, hpath, hspelled⟩ :=
    isRecordedAs_memberTag hs htag
  have hid : id = "a.tsx:R.a" := by
    rw [hroot, Option.bind_some, hidentify] at hbase
    obtain rfl : base = "a.tsx:R" := Option.some.inj hbase
    rw [hpath.2 hplain, hnames]
    decide
  subst hid
  obtain ⟨hsame, -⟩ := hspelled spaced hspaced hspacedRoot hspacedNames hplain
  obtain ⟨hother, -⟩ := hspelled commented hcommented hcommentedRoot hcommentedNames hplain
  exact ⟨hs, tag, spaced, commented, htag, hspaced, hcommented, hprint, hprint', hrecorded,
    hsame.2 hspacedPlain, fun h => hcomment (hother.1 h)⟩

end ComponentScan
