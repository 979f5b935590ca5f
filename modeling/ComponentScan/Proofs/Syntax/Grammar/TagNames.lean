import ComponentScan.Proofs.Syntax.Grammar.Tests

/-!
# Names of tags

The name of a tag is read word by word. Each word is a node over its own text, and a path of members
starts where its first word does and ends where its last one does. In between, a dot is taken from
the end of one word to the start of the next, so the path stands in the text as it should
(`Node.IsPath`).
-/

namespace ComponentScan.Syntax

set_option synthInstance.maxSize 200000

open Text Parse

variable {text : List Char}

/-! ## Words -/

/-- Whether a state is right behind a node. -/
structure State.IsBehind (text : List Char) (n : Node) (s : State) : Prop where
  prevStop_eq : s.prevStop = n.stop
  isIn : s.IsIn text

/-- Whether a node is a word in a tag, which stands in a text as it is. -/
structure Node.IsTagWord (text : List Char) (n : Node) (name : String) : Prop where
  kind : n.kind = .jsxIdentifier name
  children : n.children = []
  slice : slice? text n.start n.stop = some name.toList
  isInk : ∀ x ∈ name.toList, IsInk x

theorem span_jsxRoot (n : Node) : (jsxRoot n).span = n.span := by
  unfold jsxRoot
  split <;> rfl

namespace Node.IsTagWord

variable {n : Node} {name : String}

theorem isSound (h : n.IsTagWord text name) : n.IsSound text := by
  refine isSound_of_isPlain (h.kind ▸ rfl) fun c hc => ?_
  rw [h.children] at hc
  cases hc

/-- A path starts with a name of the file or with what `this` is. -/
theorem isPath_jsxRoot (h : n.IsTagWord text name) :
    (jsxRoot n).IsPath text (jsxRoot n) [] := by
  have hkind :
      (jsxRoot n).kind = .identifierReference name ∨ (jsxRoot n).kind = .thisExpression := by
    unfold jsxRoot
    rw [h.kind]
    split
    · exact .inr rfl
    · next heq =>
      cases heq
      exact .inl rfl
    · next hname =>
      exact absurd rfl (hname name)
  refine .root hkind ?_ h.isInk
  rw [start, stop, span_jsxRoot]
  exact h.slice

end Node.IsTagWord

theorem jsxIdentifier_apply (ctx : Context) (s : State) : jsxIdentifier ctx s =
    if s.token.kind.isName then
      let lexeme := lexJsxName s.here s.after
      match lexeme.kind with
      | .word name =>
        some (⟨.jsxIdentifier name, ⟨s.here.pos, lexeme.after.pos⟩, []⟩,
          (s.load s.here s.token.newlineBefore lexeme).advance ctx.size (lex ctx.size))
      | _ => none
    else none := by
  have hname : atName ctx s = some (s.token.kind.isName, s) := rfl
  unfold jsxIdentifier
  rw [bind_apply, hname]
  dsimp only [Option.bind_some]
  cases s.token.kind.isName <;> rfl

/-- A word is read from where the current token stands, whatever is known of that place. -/
theorem ensures_jsxIdentifier (P : Nat → Prop) :
    jsxIdentifier.Ensures (fun s => P s.here.pos ∧ s.IsIn text) fun n s =>
      ((∃ name, n.IsTagWord text name) ∧ P n.start) ∧ s.IsBehind text n := by
  rintro ctx s n s' ⟨hstart, hs⟩ hrun
  obtain ⟨taken, htaken, hspells⟩ := hs.token
  rw [jsxIdentifier_apply] at hrun
  split at hrun
  · next hname =>
    cases hkind : s.token.kind with
    | word word =>
      rw [hkind] at hspells
      obtain ⟨name, hword, hleads, hink⟩ := leads_lexJsxName htaken hspells
      have hread : (lexJsxName s.here s.after).IsRead s.here := ⟨name, hleads, hword ▸ hink⟩
      dsimp only at hrun
      rw [hword] at hrun
      cases hrun
      refine ⟨⟨⟨String.ofList name, rfl, rfl, ?_, ?_⟩, hstart⟩, State.prevStop_advance .., ?_⟩
      · rw [String.toList_ofList]
        exact hs.isIn_here.slice?_eq hleads
      · rw [String.toList_ofList]
        exact hink
      · exact (hs.reread hread s.token.newlineBefore).advance (isRead_lex ctx.size) ctx.size
    | _ =>
      rw [hkind] at hname
      cases hname
  · cases hrun

instance : Yields text jsxIdentifier := by
  refine ⟨fun ctx s n s' hs hrun => ?_⟩
  obtain ⟨⟨⟨name, hword⟩, -⟩, hs'⟩ := ensures_jsxIdentifier (fun _ => True) ⟨trivial, hs⟩ hrun
  exact ⟨allSound_node_iff.2 hword.isSound, hs'.isIn⟩

/-! ## Roots -/

instance {n : Node} [h : AllSound text n] : AllSound text (jsxRoot n) := by
  unfold jsxRoot
  split
  · next hkind =>
    exact allSound_node_iff.2 (Node.isSound_of_isPlain rfl
      ((allSound_node_iff.1 h).forall_child (hkind ▸ rfl)))
  · next hkind =>
    exact allSound_node_iff.2 (Node.isSound_of_isPlain rfl
      ((allSound_node_iff.1 h).forall_child (hkind ▸ rfl)))
  · exact h

instance {n : Node} [h : AllSound text n] : AllSound text (jsxTagName n) := by
  unfold jsxTagName
  split <;> infer_instance

/-! ## Signs, faults and nodes -/

/-- Whether a state is reached when a sign is taken where a condition holds. -/
def State.IsPast (I : State → Prop) (sign : String) (s : State) : Prop :=
  ∃ before size, I before ∧ before.token.kind = .symbol sign ∧ s = before.advance size (lex size)

/-- A sign is taken if it is there. -/
theorem ensures_eat {I : State → Prop} (sign : String) :
    (eat sign).Ensures I fun taken s => if taken then s.IsPast I sign else I s := by
  intro ctx s taken s' hs hrun
  have hat : atSymbol sign ctx s = some (s.token.isSymbol sign, s) := rfl
  unfold eat at hrun
  rw [bind_apply, hat] at hrun
  dsimp only [Option.bind_some] at hrun
  cases hsign : s.token.isSymbol sign with
  | false =>
    rw [hsign] at hrun
    cases hrun
    exact hs
  | true =>
    rw [hsign] at hrun
    cases hrun
    refine ⟨s, ctx.size, hs, ?_, rfl⟩
    unfold Token.isSymbol at hsign
    split at hsign
    · next heq =>
      exact heq.trans (congrArg _ (beq_iff_eq.1 hsign))
    · cases hsign

/-- A fault can be noted anywhere. -/
theorem ensures_faultIf {n : Node} (bad : Bool) :
    (faultIf bad).Ensures (State.IsBehind text n) fun _ s => s.IsBehind text n := by
  cases bad with
  | false =>
    rintro ctx s _ _ hs ⟨⟩
    exact hs
  | true =>
    rintro ctx s _ _ hs ⟨⟩
    exact ⟨hs.prevStop_eq, hs.isIn.place, hs.isIn.token, hs.isIn.start_eq, hs.isIn.stop_eq⟩

theorem ensures_node {I : State → Prop} (kind : Kind) (start : Nat) (children : List Node) :
    (node kind start children).Ensures I fun n s =>
      n = ⟨kind, ⟨start, s.prevStop⟩, children⟩ ∧ I s := by
  rintro ctx s _ _ hs ⟨⟩
  exact ⟨rfl, hs⟩

/-! ## Paths -/

/-- What has been read of a path. -/
structure Node.IsPathFrom (text : List Char) (start : Nat) (n : Node) : Prop where
  path : ∃ root parts, n.IsPath text root parts
  sound : n.IsSound text
  start_eq : n.start = start

theorem Node.fitsIn_of_isPath {span : Span} {children : List Node} {root : Node}
    {parts : List (List Char × String)}
    (h : Node.IsPath text ⟨.jsxMemberExpression, span, children⟩ root parts)
    (hfree : ∀ c ∈ children, c.kind.isFree = true) :
    Node.FitsIn text ⟨.jsxMemberExpression, span, children⟩ where
  mayHold c hc := Kind.mayHold_of_isFree nofun (hfree c hc)
  declarator := nofun
  named := nofun
  path _ := ⟨root, parts, h⟩

/-- A word behind a dot makes a longer path of what stands before the dot. -/
theorem ensures_jsxMember {start : Nat} {object : Node} (h : object.IsPathFrom text start) : (do
      if ← eat "." then
        let property ← jsxIdentifier
        faultIf (hasHyphen property)
        return some (← node .jsxMemberExpression start [object, property])
      else return none : Parse (Option Node)).Ensures (State.IsBehind text object) fun o s =>
    (o.getD object).IsPathFrom text start ∧ s.IsBehind text (o.getD object) := by
  refine (ensures_eat ".").bind fun taken => ?_
  cases taken with
  | false => exact ensures_pure fun s hs => ⟨h, hs⟩
  | true =>
    have hword : jsxIdentifier.Ensures (State.IsPast (State.IsBehind text object) ".")
        fun property s => ((∃ name, property.IsTagWord text name) ∧
          ∃ gap, '.' ∈ gap ∧ slice? text object.stop property.start = some gap) ∧
          s.IsBehind text property := by
      rintro ctx _ property s' ⟨s, size, hs, hdot, rfl⟩ hrun
      obtain ⟨before, behind, hgap⟩ := hs.isIn.exists_gap hdot (isRead_lex size) size
      refine ensures_jsxIdentifier
        (fun pos => ∃ gap, '.' ∈ gap ∧ slice? text object.stop pos = some gap)
        ⟨⟨_, ?_, hs.prevStop_eq ▸ hgap⟩, hs.isIn.advance (isRead_lex size) size⟩ hrun
      exact List.mem_append_right _ List.mem_cons_self
    refine hword.bind fun property => .of_and fun ⟨⟨name, hname⟩, gap, hdot, hgap⟩ => ?_
    refine (ensures_faultIf _).bind fun _ => (ensures_node ..).bind fun n => ensures_pure ?_
    rintro s ⟨rfl, hs⟩
    obtain ⟨root, parts, hpath⟩ := h.path
    obtain rfl := h.start_eq
    have hmember := hpath.member hgap hdot hname.kind hname.slice hname.isInk
    rw [hs.prevStop_eq]
    have hsound : ∀ c ∈ [object, property], c.IsSound text :=
      List.forall_mem_cons.2 ⟨h.sound, List.forall_mem_singleton.2 hname.isSound⟩
    refine ⟨⟨⟨_, _, hmember⟩, Node.isSound_of_fits rfl ?_ fun c hc => (hsound c hc).fits, rfl⟩,
      hs.prevStop_eq, hs.isIn⟩
    exact Node.fitsIn_of_isPath hmember fun c hc => (hsound c hc).kind

/-- The words up to a sign that is not one of names are a path, and the nodes in it are sound. -/
instance : Yields text jsxElementName := by
  have hhere : here.Ensures (State.IsIn text) fun start s => s.here.pos = start ∧ s.IsIn text := by
    rintro ctx s _ _ hs ⟨⟩
    exact ⟨hs.start_eq.symm, hs⟩
  refine ⟨?_⟩
  unfold jsxElementName
  refine hhere.bind fun start => (ensures_jsxIdentifier (· = start)).bind fun first =>
    .of_and fun ⟨⟨name, hword⟩, hstart⟩ => (ensures_eat ":").bind fun colon => ?_
  have hsound : AllSound text first := allSound_node_iff.2 hword.isSound
  cases colon with
  | true =>
    rintro ctx _ n s' ⟨s, size, hs, -, rfl⟩ hrun
    have hrest : Yields text (do
        let name ← jsxIdentifier
        return ← node .jsxNamespacedName start [first, name]) := inferInstance
    exact hrest.always (hs.isIn.advance (isRead_lex size) size) hrun
  | false =>
    have hat : (atSymbol ".").Ensures (State.IsBehind text first) fun _ s =>
        s.IsBehind text first := by
      rintro ctx s _ _ hs ⟨⟩
      exact hs
    refine hat.bind fun dot => ?_
    cases dot with
    | false => exact ensures_pure fun s hs => ⟨inferInstance, hs.isIn⟩
    | true =>
      refine (ensures_faultIf _).bind fun _ ctx s n s' hs hrun => ?_
      have hroot : (jsxRoot first).IsPathFrom text start :=
        ⟨⟨_, _, hword.isPath_jsxRoot⟩, allSound_node_iff.1 inferInstance,
          (congrArg Span.start (span_jsxRoot first)).trans hstart⟩
      obtain ⟨hn, hs'⟩ := ensures_loop
        (J := fun n s => n.IsPathFrom text start ∧ s.IsBehind text n) (jsxRoot first)
        (fun object => .of_and ensures_jsxMember)
        ⟨hroot, hs.prevStop_eq.trans (congrArg Span.stop (span_jsxRoot first)).symm, hs.isIn⟩ hrun
      exact ⟨allSound_node_iff.2 hn.sound, hs'.isIn⟩

end ComponentScan.Syntax
