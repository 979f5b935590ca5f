import ComponentScan.Proofs.Syntax.Grammar.Expressions

/-!
# Sound programs

All rules yield sound trees if the parsers of the nonterminals do, so the tree of every program is
sound (`Program.fitsIn_of_parse`): an opening tag is a child of an element and a declarator of a
list of variables, a declarator binds a name or a pattern, and a path of members stands in the text
as it should.
-/

namespace ComponentScan.Syntax

set_option synthInstance.maxSize 200000

open Parse

section

variable {text : List Char} {g : Rules} [hg : g.IsSound text]

/-! ## Declarations -/

/-- A variable is sound but for its kind. -/
theorem always_variableDeclarator (binder : Binder) (inLoop : Bool) :
    (variableDeclarator g binder inLoop).Always (State.IsIn text)
      fun n => n.kind = .variableDeclarator ∧ ∀ m ∈ n.nodes, m.FitsIn text := by
  unfold variableDeclarator
  refine Yields.always.bind fun ctx _ => Yields.always.bind fun start _ =>
    ((hg.yields .binding).always.and hg.isBinding).bind fun target ⟨htarget, hbinding⟩ => ?_
  have hnode (type value : Option Node) (htype : AllSound text type)
      (hvalue : AllSound text value) :
      (node .variableDeclarator start (target :: type.toList ++ value.toList)).Always
        (State.IsIn text) fun n => n.kind = .variableDeclarator ∧ ∀ m ∈ n.nodes, m.FitsIn text := by
    have hchildren : AllSound text (target :: type.toList ++ value.toList) := inferInstance
    refine (always_node ..).imp fun n ⟨hkind, hn⟩ => ⟨hkind, Node.forall_mem_nodes_iff.2
      ⟨⟨⟨fun c hc => ?_, fun _ => ?_, ?_⟩, ?_⟩, fun c hc => ?_⟩⟩
    · rw [hkind]
      exact Kind.mayHold_of_isFree nofun (hchildren.isSound_of_mem (hn ▸ hc)).kind
    · exact ⟨target, by rw [Node.binding?, hn]; rfl, hbinding⟩
    · rw [hkind]
      nofun
    · rw [hkind]
      nofun
    · exact (hchildren.isSound_of_mem (hn ▸ hc)).fits
  refine Yields.always.bind fun newline _ => ?_
  have hrest : (do
      let type ← typeAscription? g
      let value ← if ← eat "=" then some <$> g (.assignment true) else pure none
      faultIf (value.isNone && !inLoop && !ctx.ambient && needsInitializer binder target)
      node .variableDeclarator start (target :: type.toList ++ value.toList) : Parse Node).Always
        (State.IsIn text) fun n => n.kind = .variableDeclarator ∧ ∀ m ∈ n.nodes, m.FitsIn text := by
    refine Yields.always.bind fun type htype => Yields.always.bind fun given _ => ?_
    dsimp only
    split
    all_goals
      exact Yields.always.bind fun value hvalue => Yields.always.bind fun _ _ =>
        hnode type value htype hvalue
  dsimp only
  split
  · exact Yields.always.bind fun _ _ => hrest
  · exact hrest

omit hg in
theorem always_commaList {P : Node → Prop} {item : Parse Node}
    (h : item.Always (State.IsIn text) P) :
    (commaList item).Always (State.IsIn text) fun l => ∀ n ∈ l, P n := by
  unfold commaList
  refine h.bind fun first hfirst => (always_many (Yields.always.bind fun comma _ => ?_)).bind
    fun others hothers => always_pure (List.forall_mem_cons.2 ⟨hfirst, hothers⟩)
  split
  · exact h.map fun n hn _ heq => Option.some.inj heq ▸ hn
  · exact always_pure nofun

instance {start : Nat} {inLoop : Bool} : Yields text (variableDeclaration g start inLoop) := by
  unfold variableDeclaration
  refine .seq fun t _ => ?_
  split
  · infer_instance
  · next binder _ =>
    refine .seq fun _ _ => .seq_of (always_commaList (always_variableDeclarator binder inLoop))
      fun bound hbound => ⟨(always_node ..).imp fun n ⟨hkind, hn⟩ => allSound_node_iff.2 ?_⟩
    refine Node.isSound_of_fits (hkind ▸ rfl) (Node.fits_of_isLoose (hkind ▸ rfl) fun c hc => ?_)
      fun c hc => (hbound c (hn ▸ hc)).2
    rw [hkind, (hbound c (hn ▸ hc)).1]
    rfl

omit hg in
theorem always_kind_variableDeclaration (start : Nat) (inLoop : Bool) :
    (variableDeclaration g start inLoop).Always Anywhere
      fun n => ∃ binder, n.kind = .variableDeclaration binder := by
  unfold variableDeclaration
  refine .of_rest fun t => ?_
  split
  · exact always_reject
  · exact .of_rest fun _ => .of_rest fun _ => (always_node ..).imp fun _ h => ⟨_, h.1⟩

instance {start : Nat} : Yields text (variableStatement g start) := by
  unfold variableStatement
  refine .seq_with (always_kind_variableDeclaration start false) fun n hn ⟨binder, hkind⟩ =>
    .seq fun _ _ => yields_closeNode hn (hkind ▸ nofun)

instance : Yields text (interfaceHeritage g) := by
  unfold interfaceHeritage; dsimp only; infer_instance

/-- A declaration of a type starts with its name. -/
theorem yields_typeDeclaration {kind : Kind} {start : Nat} {ident : Node} {children : List Node}
    (hkind : kind.isTypeDeclaration = true) (h : AllSound text children)
    (hhead : children.head? = some ident) (hident : ident.kind.isBindingIdentifier = true) :
    Yields text (node kind start children) := by
  have hfree : ∀ child : Kind, child.isFree = true → kind.mayHold child = true := fun child =>
    Kind.mayHold_of_isFree fun binder hlist => by
      rw [hlist] at hkind
      cases hkind
  have hdeclaration : kind.isFree = true ∧ kind ≠ .variableDeclarator ∧
      kind ≠ .jsxMemberExpression := by
    unfold Kind.isTypeDeclaration at hkind
    split at hkind
    · exact ⟨rfl, nofun, nofun⟩
    · exact ⟨rfl, nofun, nofun⟩
    · exact ⟨rfl, nofun, nofun⟩
    · cases hkind
  obtain ⟨hplace, hdeclarator, hpath⟩ := hdeclaration
  refine ⟨(always_node ..).imp fun n ⟨hnode, hn⟩ => allSound_node_iff.2 ?_⟩
  refine Node.isSound_of_fits (hnode ▸ hplace) ⟨⟨fun c hc => ?_, ?_, fun _ => ?_⟩, ?_⟩
    fun c hc => (h.isSound_of_mem (hn ▸ hc)).fits
  · exact hnode ▸ hfree _ (h.isSound_of_mem (hn ▸ hc)).kind
  · exact fun hkind => absurd (hnode.symm.trans hkind) hdeclarator
  · exact ⟨ident, hn ▸ hhead, hident⟩
  · exact fun hkind => absurd (hnode.symm.trans hkind) hpath

instance {start : Nat} : Yields text (interfaceDeclaration g start) := by
  unfold interfaceDeclaration
  refine .seq fun _ _ => .seq_with always_bindingIdentifier fun id _ hid =>
    .seq fun typeParams _ => .seq fun extending _ => ?_
  dsimp only
  split
  all_goals
    refine .seq fun bases _ => .seq fun bodyStart _ => .seq fun members _ => .seq fun body _ => ?_
    exact yields_typeDeclaration rfl inferInstance rfl hid

instance {start : Nat} : Yields text (typeAlias g start) := by
  unfold typeAlias
  refine .seq fun _ _ => .seq_with always_bindingIdentifier fun id _ hid =>
    .seq fun typeParams _ => .seq fun _ _ => ?_
  have hrest (type : Node) (h : AllSound text type) : Yields text (do
      endStatement
      node .tsTypeAliasDeclaration start (id :: typeParams.toList ++ [type])) :=
    .seq fun _ _ => yields_typeDeclaration rfl inferInstance rfl hid
  refine .seq fun word _ => ?_
  dsimp only
  split
  all_goals
    refine .seq fun intrinsic _ => ?_
    split
    · exact .seq hrest
    · exact .seq hrest

instance : Yields text (enumMemberName g) := by
  unfold enumMemberName
  refine .seq fun x _ => ?_
  dsimp only
  split <;> infer_instance

instance : Yields text (enumMember g) := by unfold enumMember; infer_instance

instance {start : Nat} : Yields text (enumDeclaration g start) := by
  unfold enumDeclaration
  refine .seq fun _ _ => .seq fun _ _ => .seq_with always_bindingIdentifier fun id _ hid => ?_
  refine .seq fun bodyStart _ => .seq fun _ _ => .seq fun members _ => .seq fun _ _ =>
    .seq fun body _ => ?_
  exact yields_typeDeclaration rfl inferInstance rfl hid

instance : Yields text (moduleBlock g) := by unfold moduleBlock; infer_instance

theorem allSound_nestNamespace (stop : Nat) {body : Node} (hbody : AllSound text body) :
    ∀ {ids : List Node}, AllSound text ids → AllSound text (nestNamespace stop body ids)
  | [], _ => hbody
  | id :: rest, h => by
    obtain ⟨hid, hrest⟩ := List.forall_mem_cons.1 (allSound_list_iff.1 h)
    have := allSound_nestNamespace stop hbody (allSound_list_iff.2 hrest)
    unfold nestNamespace
    infer_instance

instance {stop : Nat} {body : Node} {ids : List Node} [hbody : AllSound text body]
    [h : AllSound text ids] : AllSound text (nestNamespace stop body ids) :=
  allSound_nestNamespace stop hbody h

instance {start : Nat} : Yields text (moduleDeclaration g start) := by
  unfold moduleDeclaration; infer_instance

instance {start : Nat} : Yields text (globalDeclaration g start) := by
  unfold globalDeclaration; infer_instance
instance : Yields text externalModule := by unfold externalModule; infer_instance
instance {start : Nat} {typeOnly : Bool} {id : Node} [AllSound text id] :
    Yields text (importEqualsRest start typeOnly id) := by
  unfold importEqualsRest; infer_instance
instance {start : Nat} : Yields text (importEquals start) := by unfold importEquals; infer_instance
instance {start : Nat} {place : StatementPlace} :
    Yields text (functionStatement g start place) := by
  unfold functionStatement; infer_instance

instance {start : Nat} : Yields text (typeDeclaration g start) := by
  unfold typeDeclaration
  refine .seq fun ctx _ => ?_
  dsimp only
  split
  · infer_instance
  · refine .seq fun t _ => ?_
    split <;> infer_instance

instance {start : Nat} {place : StatementPlace} : Yields text (bareDeclaration g start place) := by
  unfold bareDeclaration
  refine .seq fun t _ => ?_
  split <;> infer_instance

instance {start : Nat} {place : StatementPlace} : Yields text (declaration g start place) := by
  unfold declaration
  refine .bind (.many (.seq fun t _ => ?_)) fun modifiers _ => inferInstance
  split <;> infer_instance

instance {start : Nat} {needsName : Bool} {decos : List Node} [AllSound text decos] :
    Yields text (decoratedClass g start needsName decos) := by
  unfold decoratedClass; infer_instance

/-! ## Imports and exports -/

instance : Yields text importAttribute := by unfold importAttribute; infer_instance
instance : Yields text withClause? := by unfold withClause?; infer_instance
instance : Yields text fromClause := by unfold fromClause; infer_instance
instance : Yields text exportedName := by unfold exportedName; infer_instance
instance : Yields text specifierNames := by unfold specifierNames; infer_instance

/-- A name stays sound when it is given another kind. -/
theorem allSound_rename {n : Node} {name : String} (h : AllSound text n)
    (hkind : n.kind = .identifierName name) (kind : Kind) [hplain : Holds kind.isPlain] :
    AllSound text { n with kind } :=
  allSound_node_iff.2 (Node.isSound_of_isPlain hplain.out
    ((allSound_node_iff.1 h).forall_child (hkind ▸ rfl)))

instance {n : Node} [h : AllSound text n] : Yields text (localName n) := by
  unfold localName
  split
  · next name hkind =>
    have := allSound_rename h hkind (.bindingIdentifier name)
    infer_instance
  · infer_instance

instance {n : Node} [h : AllSound text n] : Yields text (exportedReference n) := by
  unfold exportedReference
  split
  · next name hkind =>
    have := allSound_rename h hkind (.identifierReference name)
    infer_instance
  · infer_instance

instance : Yields text importSpecifier := by unfold importSpecifier; infer_instance
instance : Yields text importedNames := by unfold importedNames; infer_instance
instance {start : Nat} {typeOnly : Bool} {default : Option Node} [AllSound text default] :
    Yields text (importRest start typeOnly default) := by
  unfold importRest; infer_instance
instance : Yields text importDeclaration := by unfold importDeclaration; infer_instance

/-- Whether a node is a name in a statement that exports names. -/
def IsSpecifier (n : Node) : Prop :=
  ∃ isType, n.kind = .exportSpecifier isType

/-- A specifier whose local name is read as a reference. -/
theorem yields_exportedSpecifiers {specifiers : List Node} (hspecifiers : AllSound text specifiers)
    (hkinds : ∀ spec ∈ specifiers, IsSpecifier spec) :
    Yields text (specifiers.mapM fun spec =>
      match spec.children with
      | [name, given] => return { spec with children := [← exportedReference name, given] }
      | _ => return spec) := by
  induction specifiers with
  | nil => exact inferInstanceAs (Yields text (Pure.pure []))
  | cons spec rest ih =>
    obtain ⟨hspec, hrest⟩ := List.forall_mem_cons.1 (allSound_list_iff.1 hspecifiers)
    obtain ⟨⟨isType, hkind⟩, hkinds⟩ := List.forall_mem_cons.1 hkinds
    have := ih (allSound_list_iff.2 hrest) hkinds
    rw [List.mapM_cons]
    split
    · next name given hchildren =>
      have hsound := (allSound_node_iff.1 hspec).forall_child (hkind ▸ rfl)
      rw [hchildren] at hsound
      have : AllSound text name := allSound_node_iff.2 (hsound name List.mem_cons_self)
      have : AllSound text given :=
        allSound_node_iff.2 (hsound given (List.mem_cons_of_mem _ List.mem_cons_self))
      rw [hkind]
      infer_instance
    · infer_instance

instance {start : Nat} {typeOnly : Bool} : Yields text (exportNames start typeOnly) := by
  unfold exportNames
  refine .seq fun _ _ => .seq_with (always_many (P := IsSpecifier) ?_) fun specifiers h hkinds => ?_
  · refine .of_rest fun close => ?_
    split
    · exact always_pure nofun
    · refine .of_rest fun start => .of_rest fun names => ?_
      dsimp only
      refine .of_rest fun ctx => .of_rest fun _ => (always_node ..).bind fun spec ⟨hkind, _⟩ =>
        .of_rest fun close => ?_
      have hspec : ∀ a ∈ some spec, IsSpecifier a := by
        rintro _ ⟨⟩
        exact ⟨_, hkind⟩
      split
      · exact .of_rest fun _ => always_pure hspec
      · exact always_pure hspec
  · have := yields_exportedSpecifiers h hkinds
    refine .seq fun _ _ => .seq fun imports _ => ?_
    split <;> infer_instance

instance {start : Nat} : Yields text (exportAll start) := by unfold exportAll; infer_instance
instance {start : Nat} {decos : List Node} [AllSound text decos] :
    Yields text (exportDefault g start decos) := by
  unfold exportDefault; infer_instance

instance {start : Nat} {decos : List Node} [AllSound text decos] :
    Yields text (exportedDeclaration g start decos) := by
  unfold exportedDeclaration; infer_instance

instance {decos : List Node} [AllSound text decos] : Yields text (exportDeclaration g decos) := by
  unfold exportDeclaration
  refine .seq fun start _ => .seq fun ctx _ => .seq fun _ _ => .seq fun _ _ => .seq fun t _ => ?_
  split <;> infer_instance

/-! ## Statements -/

instance : Yields text (governed g) := by unfold governed; infer_instance
instance : Yields text (headExpression g) := by unfold headExpression; infer_instance
instance : Yields text (blockStatement g) := by unfold blockStatement; infer_instance
instance : Yields text emptyStatement := by unfold emptyStatement; infer_instance
instance : Yields text (ifStatement g) := by unfold ifStatement; infer_instance
instance : Yields text (doWhileStatement g) := by unfold doWhileStatement; infer_instance
instance : Yields text (whileStatement g) := by unfold whileStatement; infer_instance
instance {start : Nat} {first : Option Node} [AllSound text first] :
    Yields text (classicLoop g start first) := by
  unfold classicLoop; infer_instance

instance {start : Nat} {awaits : Bool} {first : Node} {target : Option Node} [AllSound text first]
    [htarget : AllSound text target] : Yields text (loopRest g start awaits first target) := by
  unfold loopRest
  cases target with
  | none => infer_instance
  | some target =>
    have := allSound_some_iff.1 htarget
    infer_instance

instance : Yields text (forStatement g) := by unfold forStatement; infer_instance

instance {kind : Kind} [Holds kind.isPlain] : Yields text (jumpStatement kind) := by
  unfold jumpStatement; infer_instance
instance : Yields text (returnStatement g) := by unfold returnStatement; infer_instance
instance : Yields text (throwStatement g) := by unfold throwStatement; infer_instance
instance : Yields text (withStatement g) := by unfold withStatement; infer_instance
instance : Yields text (switchCase g) := by unfold switchCase; infer_instance
instance : Yields text (switchStatement g) := by unfold switchStatement; infer_instance
instance : Yields text (catchParameter g) := by unfold catchParameter; infer_instance
instance : Yields text (catchClause g) := by unfold catchClause; infer_instance
instance : Yields text (tryStatement g) := by unfold tryStatement; infer_instance
instance : Yields text debuggerStatement := by unfold debuggerStatement; infer_instance

instance : Yields text (expressionStatement g) := by
  unfold expressionStatement
  refine .seq fun start _ => .seq fun e _ => ?_
  dsimp only
  split <;> infer_instance

instance : Yields text (decoratedStatement g) := by unfold decoratedStatement; infer_instance
instance {place : StatementPlace} : Yields text (softStatement g place) := by
  unfold softStatement; infer_instance

instance {place : StatementPlace} {word : String} : Yields text (wordStatement g place word) := by
  unfold wordStatement
  refine .seq fun start _ => ?_
  split <;> infer_instance

instance {place : StatementPlace} : Yields text (statementRule g place) := by
  unfold statementRule
  refine .seq fun t _ => ?_
  split <;> infer_instance

/-! ## Programs -/

instance : (rules g).IsSound text where
  yields n := by cases n <;> unfold rules <;> infer_instance
  isBinding := always_isBinding_bindingTarget

end

theorem isSound_parseRule (text : List Char) (depth : Nat) :
    Rules.IsSound text (parseRule depth) := by
  induction depth with
  | zero => exact ⟨fun n => ⟨always_reject⟩, always_reject⟩
  | succ depth ih =>
    have hrules : Rules.IsSound text (rules (parseRule depth)) := inferInstance
    exact ⟨fun n => ⟨fun _ _ _ _ hs hrun => (hrules.yields n).always hs hrun⟩,
      fun _ _ _ _ hs hrun => hrules.isBinding hs hrun⟩

theorem allSound_hashbang (text : List Char) {c c' : Cursor} {n : Node}
    (h : hashbang? c = some (n, c')) : AllSound text n := by
  unfold hashbang? at h
  split at h
  · cases h
    infer_instance
  · cases h

theorem isIn_skipByteOrderMark (text : List Char) :
    (skipByteOrderMark ⟨text, 0⟩).IsIn text := by
  unfold skipByteOrderMark
  split
  · exact Cursor.reaches_next _
  · exact .refl _

theorem reaches_hashbang {c c' : Cursor} {n : Node} (h : hashbang? c = some (n, c')) :
    c.Reaches c' := by
  unfold hashbang? at h
  split at h
  · cases h
    exact Cursor.reaches_skipWhile _ c
  · cases h

/-- The nodes of a program fit together, and stand in its text as they should. -/
theorem Program.fitsIn_of_parse {dialect : Dialect} {text : String} {p : Program}
    (h : parse dialect text = some p) : ∀ n ∈ p.root.nodes, n.FitsIn text.toList := by
  obtain ⟨-, ctx, s, -, hparse⟩ := exists_parseIn_of_parse h
  obtain ⟨hashbang, c, body, hc, hbody, rfl⟩ := exists_statements_of_parseIn hparse
  have hstart := isIn_skipByteOrderMark text.toList
  have hhashbang : AllSound text.toList hashbang ∧ c.IsIn text.toList := by
    split at hc
    · next n _ hn =>
      cases hc
      have := allSound_hashbang text.toList hn
      exact ⟨inferInstance, hstart.trans (reaches_hashbang hn)⟩
    · cases hc
      exact ⟨inferInstance, hstart⟩
  obtain ⟨hhashbang, hc⟩ := hhashbang
  have := isSound_parseRule text.toList (depthOf ctx.size)
  have hbody : AllSound text.toList body :=
    (Yields.always (State.isIn_first hc ctx.size) hbody).1
  have hchildren : AllSound text.toList (hashbang.toList ++ markDirectives body) := inferInstance
  exact Node.forall_mem_nodes_iff.2 ⟨Node.fits_of_isLoose rfl fun c hc =>
    Kind.mayHold_of_isFree nofun (hchildren.isSound_of_mem hc).kind,
    fun c hc => (hchildren.isSound_of_mem hc).fits⟩

end ComponentScan.Syntax
