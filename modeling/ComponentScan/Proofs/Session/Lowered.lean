import ComponentScan.Proofs.Report.Lowered
import ComponentScan.Proofs.Session.Insertion

/-!
# Files moved down

A file is moved down by `k` lines if `k` line feeds are put in front of its text and the places in
its program move along (`Program.IsLowered`). Its session tells the same about every node, except
that all lines are `k` lines further down (`Session.IsLowered`, `Session.isLowered_ofProgram`):
nothing that is asked of a session looks at an offset but to compare it with another one.
-/

namespace ComponentScan

open Syntax Scope Text

/-! ## Feeds in front of a text -/

/-- The text with line feeds in front of it. -/
def Text.lower (k : Nat) (text : List Char) : List Char :=
  List.replicate k '\n' ++ text

@[simp] theorem Text.byteLength_feeds (k : Nat) : byteLength (List.replicate k '\n') = k := by
  induction k with
  | zero => rfl
  | succ k ih =>
    have hfeed : '\n'.utf8Size = 1 := rfl
    rw [List.replicate_succ, byteLength_cons, ih, hfeed, Nat.add_comm]

theorem Text.slice?_lower (k : Nat) (text : List Char) (i j : Nat) :
    slice? (lower k text) (i + k) (j + k) = slice? text i j := by
  have hslice := slice?_append_right (List.replicate k '\n') text i j
  rwa [byteLength_feeds, Nat.add_comm k, Nat.add_comm k] at hslice

/-- What starts in front of the text starts with a feed. -/
theorem Text.head?_of_slice?_lower {k : Nat} {text piece : List Char} {c : Char} {i j : Nat}
    (hi : i < k) (h : slice? (lower k text) i j = some (c :: piece)) : c = '\n' := by
  obtain ⟨front, back, heq, hfront, -⟩ := slice?_eq_some_iff.1 h
  rw [lower, List.append_assoc, List.cons_append] at heq
  rcases List.append_eq_append_iff.1 heq with ⟨rest, rfl, -⟩ | ⟨rest, hfeeds, hrest⟩
  · rw [byteLength_append, byteLength_feeds] at hfront
    omega
  · cases rest with
    | nil =>
      rw [List.append_nil] at hfeeds
      rw [← hfront, ← hfeeds, byteLength_feeds] at hi
      omega
    | cons d rest =>
      obtain ⟨rfl, -⟩ := List.cons.inj hrest
      have hmem : c ∈ List.replicate k '\n' := hfeeds ▸ List.mem_append_right _ List.mem_cons_self
      exact (List.mem_replicate.1 hmem).2

namespace LineIndex

theorem length_startsAfter_feeds (o k : Nat) :
    (startsAfter o (List.replicate k '\n')).length = k := by
  induction k generalizing o with
  | zero => rfl
  | succ k ih => rw [List.replicate_succ, startsAfter, if_pos rfl, List.length_cons, ih]

theorem lineOf_lower (k : Nat) (text : List Char) (x : Nat) :
    (ofText (lower k text)).lineOf (x + k) = (ofText text).lineOf x + k := by
  have htext := lineOf_append [] text x
  have hrest : (startsAfter k text).countP (· ≤ x + k) = (startsAfter 0 text).countP (· ≤ x) := by
    rw [← Nat.zero_add k, startsAfter_add, List.countP_map, Nat.zero_add]
    exact List.countP_congr fun y _ => by simp
  rw [List.nil_append, startsAfter, byteLength_nil, List.countP_nil] at htext
  rw [htext, lower, lineOf_append, countP_startsAfter_eq_length (by simp), length_startsAfter_feeds,
    byteLength_feeds, hrest]
  omega

end LineIndex

theorem LineIndex.ofLines_lower (k : Nat) (text : List Char) (path : String) (span : Span) :
    SourceLocation.ofLines path ((ofText (lower k text)).lineOf (span.start + k))
        ((ofText (lower k text)).lineOf (max (span.stop + k - 1) (span.start + k))) =
      (SourceLocation.ofLines path ((ofText text).lineOf span.start)
        ((ofText text).lineOf (max (span.stop - 1) span.start))).addLines k := by
  have hlast : max (span.stop + k - 1) (span.start + k) = max (span.stop - 1) span.start + k := by
    omega
  rw [hlast, lineOf_lower, lineOf_lower]
  unfold SourceLocation.ofLines SourceLocation.addLines
  rw [Nat.add_max_add_right]

/-! ## Comments -/

def DocTag.move (f : Nat → Nat) (t : DocTag) : DocTag :=
  { t with span := t.span.move f }

def DocComment.move (f : Nat → Nat) (d : DocComment) : DocComment :=
  ⟨d.span.move f, d.description, d.tags.map (DocTag.move f)⟩

namespace DocComment

/-- The delimiters of a comment are looked for in front of it, but feeds are none. -/
theorem spanOf?_lower (k : Nat) (text : List Char) (span : Span) :
    spanOf? (lower k text) (span.move (· + k)) = (spanOf? text span).map (Span.move (· + k)) := by
  have hopened : (decide ((span.move (· + k)).start ≥ 2) && slice? (lower k text)
        ((span.move (· + k)).start - 2) (span.move (· + k)).start == some "/*".toList) =
      (decide (span.start ≥ 2) &&
        slice? text (span.start - 2) span.start == some "/*".toList) := by
    change (decide (span.start + k ≥ 2) &&
      slice? (lower k text) (span.start + k - 2) (span.start + k) == some "/*".toList) = _
    by_cases hstart : span.start ≥ 2
    · have hpiece := slice?_lower k text (span.start - 2) span.start
      rw [← Nat.sub_add_comm hstart] at hpiece
      rw [hpiece, decide_eq_true hstart, decide_eq_true (Nat.le_add_right_of_le hstart)]
    · rw [decide_eq_false hstart, Bool.false_and, Bool.and_eq_false_iff, decide_eq_false_iff_not,
        beq_eq_false_iff_ne, or_iff_not_imp_left, not_not]
      intro hle hpiece
      have hfeed := head?_of_slice?_lower (by omega) hpiece
      exact absurd hfeed (by decide)
  have hclosed : slice? (lower k text) (span.move (· + k)).stop ((span.move (· + k)).stop + 2) =
      slice? text span.stop (span.stop + 2) := by
    have hpiece := slice?_lower k text span.stop (span.stop + 2)
    rwa [Nat.add_right_comm] at hpiece
  have hwhole : slice? (lower k text) (span.move (· + k)).start (span.move (· + k)).stop =
      slice? text span.start span.stop := slice?_lower k text span.start span.stop
  unfold spanOf?
  rw [hwhole]
  cases slice? text span.start span.stop with
  | none => rfl
  | some piece =>
    simp only [Option.bind_eq_bind, Option.bind_some, hopened, hclosed]
    split
    · rfl
    · split
      · next hdelimited =>
        simp only [Bool.and_eq_true, decide_eq_true_eq] at hdelimited
        have hstart : span.start + k - 2 = span.start - 2 + k :=
          Nat.sub_add_comm hdelimited.1.1.1
        simp only [Option.pure_def, Option.map_some, Span.move, hstart, Nat.add_right_comm]
      · rfl

/-- Comments that are moved wherever a text is put in are moved as they are. -/
theorem eq_move_of_moved {f : Nat → Nat} {d d' : DocComment} (h : ∀ a, d.Moved f a d') :
    d' = d.move f := by
  have htags {tags tags' : List DocTag} (h : ∀ a, List.Forall₂ (DocTag.Moved f a) tags tags') :
      tags' = tags.map (DocTag.move f) := by
    induction tags generalizing tags' with
    | nil =>
      cases h 0
      rfl
    | cons tag tags ih =>
      cases tags' with
      | nil => nomatch h 0
      | cons tag' tags' =>
        obtain ⟨hname, hspan, htext⟩ := (List.forall₂_cons.1 (h (tag.span.start + 1))).1
        replace htext := htext (Nat.ne_of_lt (Nat.lt_succ_self _))
        rw [ih fun a => (List.forall₂_cons.1 (h a)).2, List.map_cons, DocTag.move, ← hspan, ← hname,
          ← htext]
  obtain ⟨hspan, hdescription, -⟩ := h 0
  rw [move, ← hspan, ← hdescription, ← htags fun a => (h a).tags]

theorem parse_lower (k : Nat) (text : List Char) (span : Span) :
    parse (lower k text) (span.move (· + k)) = (parse text span).move (· + k) := by
  have hshift : shiftFrom (byteLength []) (byteLength (List.replicate k '\n')) = (· + k) := by
    funext x
    rw [byteLength_feeds, byteLength_nil, shiftFrom_of_le (Nat.zero_le x)]
  refine eq_move_of_moved fun a => ?_
  have hmoved := @moved_parse_of_le [] text span (List.replicate k '\n') (Nat.zero_le _) a
  rwa [hshift] at hmoved

end DocComment

/-! ## Sessions -/

/-- The session `t` is `s` with everything `k` lines further down, each of them one byte long. Where
the program itself begins and ends is left open. -/
structure Session.IsLowered (k : Nat) (s t : Session) : Prop where
  path : t.path = s.path
  kind : s.root.kind = .program
  kind_lowered : t.root.kind = .program
  children : t.root.children = s.root.children.map (Node.move (· + k))
  symbols : t.symbols = s.symbols.map (moveEntry (· + k))
  docs : t.docs = s.docs.map fun d => (d.1 + k, d.2.move (· + k))
  textAt : ∀ span, t.textAt (span.move (· + k)) = s.textAt span
  location : ∀ span, t.location (span.move (· + k)) = (s.location span).addLines k

section

variable (f : Nat → Nat) (n : Node)

theorem signatureSpan?_move :
    Session.signatureSpan? (n.move f) = (Session.signatureSpan? n).map (Span.move f) := by
  unfold Session.signatureSpan?
  simp only [Node.child?_move]
  cases n.child? Kind.isFormalParameters with
  | none => rfl
  | some params =>
    cases n.child? Kind.isTypeParameters <;> cases n.child? Kind.isTypeAscription <;>
      simp [Span.move]

theorem expressionSignatureSpan?_move :
    Session.expressionSignatureSpan? (n.move f) =
      (Session.expressionSignatureSpan? n).map (Span.move f) := by
  unfold Session.expressionSignatureSpan?
  rw [Node.kind_move]
  split
  · exact signatureSpan?_move f n
  · exact signatureSpan?_move f n
  · rfl

theorem typeSpan?_move : Session.typeSpan? (n.move f) = (Session.typeSpan? n).map (Span.move f) := by
  have hbind (value : Option Node) {g : Node → Option Span}
      (hg : ∀ n : Node, g (n.move f) = (g n).map (Span.move f)) :
      (value.map (Node.move f)).bind g = (value.bind g).map (Span.move f) := by
    cases value with
    | none => rfl
    | some e => exact hg e
  unfold Session.typeSpan?
  rw [Node.kind_move]
  split
  · exact signatureSpan?_move f n
  · rw [Node.initializer?_move, hbind _ (expressionSignatureSpan?_move f)]
  · rw [Node.memberValue?_move, hbind _ (signatureSpan?_move f)]
  · rw [Node.memberValue?_move, hbind _ (expressionSignatureSpan?_move f)]
  · rw [Node.child?_move]
    cases n.child? Kind.isClassBody <;> simp [Span.move]
  · rfl

end

namespace Session.IsLowered

variable {k : Nat} {s t : Session} (h : s.IsLowered k t)
include h

/-! ### Texts -/

theorem print (n : Node) : t.print (n.move (· + k)) = s.print n := by
  rw [Session.print, Node.span_move, h.textAt]
  rfl

theorem printCompact (n : Node) : t.printCompact (n.move (· + k)) = s.printCompact n := by
  rw [Session.printCompact, Node.span_move, h.textAt]
  rfl

/-! ### Symbols and identities -/

theorem symbolAt? (n : Node) :
    t.symbolAt? (n.move (· + k)) = (s.symbolAt? n).map (Symbol.move (· + k)) :=
  symbolAt?_move_of_symbols (fun _ _ heq => Nat.add_right_cancel heq) h.symbols n

theorem symbolLocation (symbol : Symbol) :
    t.symbolLocation (symbol.move (· + k)) = (s.symbolLocation symbol).addLines k :=
  h.location symbol.span

theorem identityOf (symbol : Symbol) : t.identityOf (symbol.move (· + k)) = s.identityOf symbol := by
  rw [Session.identityOf, Session.identityOf, h.path]
  rfl

theorem calleeName? (callee : Node) :
    t.calleeName? (callee.move (· + k)) = s.calleeName? callee := by
  obtain ⟨kind, span, children⟩ := callee
  rw [Node.move_mk]
  cases kind with
  | staticMemberExpression =>
    match children with
    | [_, property] => exact Node.text?_move _ property
    | [] | [_] | _ :: _ :: _ :: _ => rfl
  | computedMemberExpression =>
    match children with
    | [_, ⟨kind, span, pieces⟩] =>
      cases kind with
      | templateLiteral =>
        match pieces with
        | [piece] => exact congrArg some (h.print piece)
        | [] | _ :: _ :: _ => rfl
      | _ => rfl
    | [] | [_] => rfl
    | _ :: ⟨kind, _, pieces⟩ :: _ :: _ =>
      cases kind with
      | templateLiteral =>
        match pieces with
        | [] | [_] | _ :: _ :: _ => rfl
      | _ => rfl
  | _ => rfl

theorem nodeName (n : Node) : t.nodeName (n.move (· + k)) = s.nodeName n := by
  have hcallee : (n.children.head?.map (Node.move (· + k))).bind t.calleeName? =
      n.children.head?.bind s.calleeName? := by
    cases n.children.head? with
    | none => rfl
    | some callee => exact h.calleeName? callee
  have hdetail : t.nodeDetail? (n.move (· + k)) = s.nodeDetail? n := by
    unfold nodeDetail?
    rw [Node.kind_move]
    split <;> simp only [Node.id?_move, Node.binding?_move, Node.child?_move, Node.children_move,
      List.head?_map, nameOr_move, hcallee]
  unfold Session.nodeName
  rw [hdetail, Node.kind_move]

theorem identifyWithin (steps : Nat) (n : Node) :
    t.identifyWithin steps (n.move (· + k)) = s.identifyWithin steps n := by
  induction steps generalizing n with
  | zero =>
    unfold Session.identifyWithin
    rw [h.symbolAt?, h.nodeName, h.print]
    cases s.symbolAt? n with
    | some symbol => exact congrArg Except.ok (h.identityOf symbol)
    | none => rfl
  | succ steps ih =>
    unfold Session.identifyWithin
    rw [h.symbolAt?, h.nodeName, h.print, nameBearer?_move]
    cases s.symbolAt? n with
    | some symbol => exact congrArg Except.ok (h.identityOf symbol)
    | none =>
      cases nameBearer? n with
      | some child => exact ih child
      | none => rfl

theorem identify (n : Node) : t.identify (n.move (· + k)) = s.identify n :=
  h.identifyWithin 2 n

/-! ### Descriptions -/

theorem docsAt (o : Nat) : t.docsAt (o + k) = (s.docsAt o).map (DocComment.move (· + k)) := by
  unfold Session.docsAt
  rw [h.docs, List.filterMap_map, List.map_filterMap]
  refine List.filterMap_congr fun d _ => ?_
  have hsame : (d.1 + k == o + k) = (d.1 == o) := by
    rw [Bool.eq_iff_iff, beq_iff_eq, beq_iff_eq, Nat.add_right_cancel_iff]
  rw [Function.comp_apply]
  dsimp only
  rw [hsame]
  split <;> rfl

theorem describe (name : String) (n : Node) (o : Nat) :
    t.describe name (n.move (· + k)) (o + k) = (s.describe name n o).addLines k := by
  have hdocumentation : t.documentationAt (o + k) = s.documentationAt o := by
    unfold documentationAt
    rw [h.docsAt, List.map_map]
    rfl
  have htype : t.typeSignature? (n.move (· + k)) = s.typeSignature? n := by
    unfold typeSignature?
    rw [typeSpan?_move]
    cases typeSpan? n with
    | none => rfl
    | some span => simp only [Option.map_some, Option.bind_eq_bind, Option.bind_some, h.textAt]
  unfold Session.describe SymbolDescriptor.addLines
  rw [hdocumentation, htype, Node.span_move, h.location, h.path]

end Session.IsLowered

/-! ## Sessions of programs -/

/-- The program `p'` is `p` moved down by `k` line feeds; where the program itself begins and ends is
left open. -/
structure Syntax.Program.IsLowered (k : Nat) (p p' : Program) : Prop where
  children : p'.root.children = p.root.children.map (Node.move (· + k))
  comments : p'.comments = p.comments.map fun e => (e.1 + k, e.2.move (· + k))

/-- Programs have scopes for what is in them, not for where they are. -/
theorem Scope.resolveProgram_congr {root root' : Node} (hkind : root.kind = .program)
    (hkind' : root'.kind = .program) (h : root'.children = root.children) :
    resolveProgram root' = resolveProgram root := by
  obtain ⟨kind, span, children⟩ := root
  obtain ⟨kind', span', children'⟩ := root'
  cases hkind
  cases hkind'
  cases h
  rfl

/-- The session of a program that is moved down with its text. -/
theorem Session.isLowered_ofProgram {k : Nat} {p p' : Program} (h : p.IsLowered k p')
    (hkind : p.root.kind = .program) (hkind' : p'.root.kind = .program) (path : String)
    (text : List Char) :
    (ofProgram path text p).IsLowered k (ofProgram path (lower k text) p') where
  path := rfl
  kind := hkind
  kind_lowered := hkind'
  children := h.children
  symbols := by
    have hmoved : (p.root.move (· + k)).kind = .program := by rw [Node.kind_move, hkind]
    exact (resolveProgram_congr hmoved hkind' (by rw [h.children, Node.children_move])).trans
      (resolveProgram_move _ p.root)
  docs := by
    unfold ofProgram
    dsimp only
    rw [h.comments, List.filterMap_map, List.map_filterMap]
    refine List.filterMap_congr fun e _ => ?_
    rw [Function.comp_apply]
    dsimp only
    rw [DocComment.spanOf?_lower]
    cases DocComment.spanOf? text e.2 with
    | none => rfl
    | some span => simp only [Option.map_some, DocComment.parse_lower]
  textAt := fun span => congrArg (·.getD []) (slice?_lower k text span.start span.stop)
  location := fun span => LineIndex.ofLines_lower k text path span

end ComponentScan
