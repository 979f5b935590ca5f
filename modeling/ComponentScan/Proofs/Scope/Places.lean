import ComponentScan.Proofs.Syntax.Nodes
import ComponentScan.Scope.Resolve

/-!
# Places of symbols

A symbol is at the place of an identifier. So whatever holds of the spans of all nodes below the root
of a program holds of the spans of its symbols (`span_of_mem_resolveProgram`).
-/

namespace ComponentScan

open Syntax

namespace Scope

variable {P : Span → Prop} {n : Node} {b : Binding}

/-! ## Declarations -/

theorem span_of_mem_bindingOf {meanings : List Meaning} (hb : b ∈ bindingOf meanings n) :
    b.span = n.span := by
  unfold bindingOf at hb
  split at hb
  · cases List.mem_singleton.1 hb
    rfl
  · cases hb

theorem span_of_mem_named (h : n.Below P) {meanings : List Meaning} (hb : b ∈ named meanings n) :
    P b.span := by
  unfold named at hb
  cases hid : n.id? with
  | none =>
    rw [hid] at hb
    cases hb
  | some id =>
    rw [hid] at hb
    exact span_of_mem_bindingOf hb ▸ h.span_child (Node.mem_of_child? hid)

theorem mem_patternsBindings {ns : List Node} :
    b ∈ patternsBindings ns ↔ ∃ n ∈ ns, b ∈ patternBindings n := by
  induction ns with
  | nil => simp [patternsBindings]
  | cons n ns ih => simp [patternsBindings, ih]

theorem span_of_mem_patternBindings (hspan : P n.span) (h : n.Below P)
    (hb : b ∈ patternBindings n) : P b.span := by
  induction n using Node.induction with
  | h kind span children ih =>
    have hchild {c : Node} (hc : c ∈ children) (hb : b ∈ patternBindings c) : P b.span :=
      ih c hc (h.span_child hc) (h.child hc) hb
    unfold patternBindings at hb
    split at hb
    · next heq =>
      cases heq
      cases List.mem_singleton.1 hb
      exact hspan
    · next heq =>
      cases heq
      exact hchild List.mem_cons_self hb
    · next heq =>
      cases heq
      exact hchild (List.mem_cons_of_mem _ List.mem_cons_self) hb
    · next heq =>
      cases heq
      obtain ⟨c, hc, hb⟩ := mem_patternsBindings.1 hb
      exact hchild hc hb
    · next heq =>
      cases heq
      obtain ⟨c, hc, hb⟩ := mem_patternsBindings.1 hb
      exact hchild hc hb
    · next heq =>
      cases heq
      obtain ⟨c, hc, hb⟩ := mem_patternsBindings.1 hb
      exact hchild hc hb
    · cases hb

theorem span_of_mem_parameterBindings (h : n.Below P) (hb : b ∈ parameterBindings n) : P b.span := by
  unfold parameterBindings at hb
  cases hchild : n.child? (!·.isDecorator) with
  | none =>
    rw [hchild] at hb
    cases hb
  | some c =>
    rw [hchild] at hb
    have hc := Node.mem_of_child? hchild
    exact span_of_mem_patternBindings (h.span_child hc) (h.child hc) hb

theorem span_of_mem_typeParameterBindings (h : n.Below P) (hb : b ∈ typeParameterBindings n) :
    P b.span := by
  unfold typeParameterBindings at hb
  split at hb
  · next params hparams =>
    obtain ⟨c, hc, hb⟩ := List.mem_flatMap.1 hb
    exact span_of_mem_named ((h.child (Node.mem_of_child? hparams)).child hc) hb
  · cases hb

theorem span_of_mem_parametersBindings (h : n.Below P) (hb : b ∈ parametersBindings n) :
    P b.span := by
  unfold parametersBindings at hb
  split at hb
  · next params hparams =>
    obtain ⟨c, hc, hb⟩ := List.mem_flatMap.1 hb
    exact span_of_mem_parameterBindings ((h.child (Node.mem_of_child? hparams)).child hc) hb
  · cases hb

/-- What leaves a block is at the place of something declared in it. -/
theorem span_of_mem_leaveBlock {bindings : List Binding} (h : ∀ b ∈ bindings, P b.span)
    (hb : b ∈ leaveBlock bindings) : P b.span := by
  obtain ⟨b', hb', rfl⟩ := List.mem_map.1 hb
  split
  · next first hfirst => exact h first (List.mem_of_find?_eq_some hfirst)
  · exact h b' (List.mem_filter.1 hb').1

theorem span_of_mem_variableBindings {binder : Binder} {declarators : List Node}
    (h : ∀ c ∈ declarators, c.Below P) (hb : b ∈ variableBindings binder declarators) :
    P b.span := by
  obtain ⟨b', hb', rfl⟩ := List.mem_map.1 hb
  obtain ⟨c, hc, hb'⟩ := List.mem_flatMap.1 hb'
  exact span_of_mem_parameterBindings (b := b') (h c hc) hb'

theorem span_of_mem_importBinding (h : n.Below P) {typeOnly : Bool}
    (hb : b ∈ importBinding typeOnly n) : P b.span := by
  unfold importBinding at hb
  dsimp only at hb
  split at hb
  · exact span_of_mem_named h hb
  · exact span_of_mem_named h hb
  · exact span_of_mem_named h hb
  · cases hb

theorem mem_declaredAll {ns : List Node} : b ∈ declaredAll ns ↔ ∃ n ∈ ns, b ∈ declared n := by
  induction ns with
  | nil => simp [declaredAll]
  | cons n ns ih => simp [declaredAll, ih]

theorem span_of_mem_declared (h : n.Below P) (hb : b ∈ declared n) : P b.span := by
  -- The handler of an exception reads the statements two levels below it.
  suffices hall : (∀ b ∈ declared n, P b.span) ∧ ∀ c ∈ n.children, ∀ b ∈ declared c, P b.span from
    hall.1 b hb
  clear hb
  induction n using Node.induction with
  | h kind span children ih =>
    have hchildren c (hc : c ∈ children) := (ih c hc (h.child hc)).1
    refine ⟨fun b hb => ?_, hchildren⟩
    have hall : ∀ b ∈ declaredAll children, P b.span := fun b hb => by
      obtain ⟨c, hc, hb⟩ := mem_declaredAll.1 hb
      exact hchildren c hc b hb
    have hnamed {meanings : List Meaning} (hb : b ∈ named meanings ⟨kind, span, children⟩) :
        P b.span := span_of_mem_named h hb
    have hblock (hb : b ∈ leaveBlock (declaredAll children)) : P b.span :=
      span_of_mem_leaveBlock hall hb
    cases kind with
    | variableDeclaration => exact span_of_mem_variableBindings (fun c hc => h.child hc) hb
    | function declares => cases declares with
      | false => cases hb
      | true => exact hnamed hb
    | classNode declares => cases declares with
      | false => cases hb
      | true => exact hnamed hb
    | tsEnumDeclaration => exact hnamed hb
    | tsInterfaceDeclaration => exact hnamed hb
    | tsTypeAliasDeclaration => exact hnamed hb
    | tsModuleDeclaration => exact hnamed hb
    | tsImportEqualsDeclaration => exact hnamed hb
    | importDeclaration =>
      obtain ⟨c, hc, hb⟩ := List.mem_flatMap.1 hb
      exact span_of_mem_importBinding (h.child hc) hb
    | exportNamedDeclaration => exact hall b hb
    | exportDefaultDeclaration => exact hall b hb
    | ifStatement => exact hall b hb
    | labeledStatement => exact hall b hb
    | whileStatement => exact hall b hb
    | doWhileStatement => exact hall b hb
    | tryStatement => exact hall b hb
    | switchCase => exact hall b hb
    | blockStatement => exact hblock hb
    | forStatement => exact hblock hb
    | forInStatement => exact hblock hb
    | forOfStatement => exact hblock hb
    | switchStatement => exact hblock hb
    | withStatement => exact hblock hb
    | catchClause =>
      match children, ih, hblock with
      | [], _, hblock | [_], _, hblock => exact hblock hb
      | _ :: ⟨kind, _, _⟩ :: _ :: _, _, hblock => cases kind <;> exact hblock hb
      | [param, ⟨kind, span, body⟩], ih, hblock =>
        cases kind with
        | blockStatement =>
          have hmem : ⟨.blockStatement, span, body⟩ ∈ [param, ⟨.blockStatement, span, body⟩] :=
            List.mem_cons_of_mem _ List.mem_cons_self
          refine span_of_mem_leaveBlock (fun b hb => ?_) hb
          rcases List.mem_append.1 hb with hb | hb
          · exact span_of_mem_parameterBindings (h.child List.mem_cons_self) hb
          · obtain ⟨c, hc, hb⟩ := mem_declaredAll.1 hb
            exact (ih _ hmem (h.child hmem)).2 c hc b hb
        | _ => exact hblock hb
    | _ => cases hb

theorem span_of_mem_declaredAll {ns : List Node} (h : ∀ n ∈ ns, n.Below P)
    (hb : b ∈ declaredAll ns) : P b.span := by
  obtain ⟨n, hn, hb⟩ := mem_declaredAll.1 hb
  exact span_of_mem_declared (h n hn) hb

theorem mem_inferredAll {ns : List Node} : b ∈ inferredAll ns ↔ ∃ n ∈ ns, b ∈ inferred n := by
  induction ns with
  | nil => simp [inferredAll]
  | cons n ns ih => simp [inferredAll, ih]

theorem span_of_mem_inferred (h : n.Below P) (hb : b ∈ inferred n) : P b.span := by
  -- An inferred type reads the nodes two levels below it.
  suffices hall : (∀ b ∈ inferred n, P b.span) ∧ ∀ c ∈ n.children, ∀ b ∈ inferred c, P b.span from
    hall.1 b hb
  clear hb
  induction n using Node.induction with
  | h kind span children ih =>
    have hchildren c (hc : c ∈ children) := (ih c hc (h.child hc)).1
    refine ⟨fun b hb => ?_, hchildren⟩
    have hall (hb : b ∈ inferredAll children) : P b.span := by
      obtain ⟨c, hc, hb⟩ := mem_inferredAll.1 hb
      exact hchildren c hc b hb
    cases kind with
    | tsInferType =>
      match children, ih, hall with
      | [], _, hall | ⟨_, _, _⟩ :: _ :: _, _, hall => exact hall hb
      | [⟨kind, span, children⟩], ih, _ =>
        have hchild := h.child (c := ⟨kind, span, children⟩) List.mem_cons_self
        rcases List.mem_append.1 hb with hb | hb
        · exact span_of_mem_named hchild hb
        · obtain ⟨c, hc, hb⟩ := mem_inferredAll.1 hb
          exact (ih _ List.mem_cons_self hchild).2 c hc b hb
    | tsConditionalType =>
      match children, hchildren, hall with
      | [], _, hall | [_], _, hall | [_, _], _, hall | [_, _, _], _, hall
      | _ :: _ :: _ :: _ :: _ :: _, _, hall => exact hall hb
      | [check, extended, whenTrue, whenFalse], hchildren, _ =>
        rcases List.mem_append.1 hb with hb | hb
        · exact hchildren check (by simp) b hb
        · exact hchildren whenFalse (by simp) b hb
    | _ => exact hall hb

theorem span_of_mem_enumMemberBinding (h : n.Below P) (hb : b ∈ enumMemberBinding n) :
    P b.span := by
  unfold enumMemberBinding at hb
  split at hb
  · next id hid =>
    split at hb
    · cases List.mem_singleton.1 hb
      exact h.span_child (List.mem_of_mem_head? hid)
    · cases hb
  · cases hb

/-! ## Scopes -/

/-- Whether the symbols of scopes are at places that satisfy `P`. -/
def Scopes.AllAt (P : Span → Prop) (scopes : Scopes) : Prop :=
  ∀ symbols ∈ scopes, ∀ s ∈ symbols, P s.span

theorem span_of_mem_declare {symbols : Symbols} (h : ∀ s ∈ symbols, P s.span) (hb : P b.span)
    {s : Symbol} (hs : s ∈ symbols.declare b) : P s.span := by
  induction symbols with
  | nil => exact List.mem_singleton.1 hs ▸ hb
  | cons first rest ih =>
    obtain ⟨hfirst, hrest⟩ := List.forall_mem_cons.1 h
    rw [Symbols.declare] at hs
    split at hs
    · rcases List.mem_cons.1 hs with rfl | hs
      · exact hfirst
      · exact hrest s hs
    · rcases List.mem_cons.1 hs with rfl | hs
      · exact hfirst
      · exact ih hrest hs

theorem span_of_mem_ofBindings {bindings : List Binding} (h : ∀ b ∈ bindings, P b.span) :
    ∀ s ∈ Symbols.ofBindings bindings, P s.span := by
  have key {symbols : Symbols} (hsymbols : ∀ s ∈ symbols, P s.span) :
      ∀ s ∈ bindings.foldl Symbols.declare symbols, P s.span := by
    induction bindings generalizing symbols with
    | nil => exact hsymbols
    | cons b bindings ih =>
      obtain ⟨hb, hbindings⟩ := List.forall_mem_cons.1 h
      exact ih hbindings fun s hs => span_of_mem_declare hsymbols hb hs
  exact key nofun

variable {scopes : Scopes}

theorem Scopes.AllAt.cons (h : scopes.AllAt P) {bindings : List Binding}
    (hbindings : ∀ b ∈ bindings, P b.span) : Scopes.AllAt P (.ofBindings bindings :: scopes) :=
  List.forall_mem_cons.2 ⟨span_of_mem_ofBindings hbindings, h⟩

theorem Scopes.AllAt.span_of_lookup? (h : scopes.AllAt P) {use : Use} {name : String} {s : Symbol}
    (hs : scopes.lookup? use name = some s) : P s.span := by
  obtain ⟨symbols, hsymbols, hs⟩ := List.exists_of_findSome?_eq_some hs
  exact h symbols hsymbols s (List.mem_of_find?_eq_some hs)

theorem Scopes.AllAt.span_of_bound? (h : scopes.AllAt P) {name : String} {s : Symbol}
    (hs : scopes.bound? name = some s) : P s.span := by
  obtain ⟨symbols, hsymbols, hs⟩ := List.exists_of_findSome?_eq_some hs
  exact h symbols hsymbols s (List.mem_of_find?_eq_some hs)

theorem span_of_mem_ownName (h : n.Below P) (hb : b ∈ ownName n) : P b.span := by
  unfold ownName at hb
  split at hb
  · exact span_of_mem_named h hb
  · exact span_of_mem_named h hb
  · cases hb

theorem span_of_mem_headBindings (h : n.Below P) (hb : b ∈ headBindings n) : P b.span := by
  rcases List.mem_append.1 hb with hb | hb
  · exact span_of_mem_ownName h (List.mem_filter.1 hb).1
  · rcases List.mem_append.1 hb with hb | hb
    · exact span_of_mem_typeParameterBindings h hb
    · exact span_of_mem_parametersBindings h hb

theorem allAt_inFunction (hscopes : scopes.AllAt P) (h : n.Below P) {child : Node}
    (hchild : child ∈ n.children) : (inFunction scopes n child).AllAt P := by
  unfold inFunction
  split
  · refine hscopes.cons fun b hb => ?_
    rcases List.mem_append.1 hb with hb | hb
    · exact span_of_mem_headBindings h hb
    · exact span_of_mem_declaredAll (fun c hc => (h.child hchild).child hc) hb
  · split
    · exact hscopes.cons fun b => span_of_mem_ownName h
    · exact hscopes.cons fun b => span_of_mem_headBindings h

theorem allAt_inClass (hscopes : scopes.AllAt P) (h : n.Below P) (child : Node) :
    (inClass scopes n child).AllAt P := by
  unfold inClass
  split
  · exact hscopes
  · refine hscopes.cons fun b hb => ?_
    rcases List.mem_append.1 hb with hb | hb
    · exact span_of_mem_ownName h hb
    · exact span_of_mem_typeParameterBindings h hb

theorem span_of_mem_blockSymbols {ns : List Node} (h : ∀ n ∈ ns, n.Below P) :
    ∀ s ∈ blockSymbols ns, P s.span :=
  span_of_mem_ofBindings fun _ hb => span_of_mem_declaredAll h (List.mem_filter.1 hb).1

theorem span_of_mem_namespaceSymbols (h : n.Below P) : ∀ s ∈ namespaceSymbols n, P s.span := by
  unfold namespaceSymbols
  split
  · exact span_of_mem_ofBindings fun b => span_of_mem_declaredAll fun c hc => h.child hc
  · exact span_of_mem_ofBindings fun b => span_of_mem_declared h

theorem span_of_mem_signatureSymbols (h : n.Below P) : ∀ s ∈ signatureSymbols n, P s.span := by
  refine span_of_mem_ofBindings fun b hb => ?_
  rcases List.mem_append.1 hb with hb | hb
  · exact span_of_mem_typeParameterBindings h hb
  · exact span_of_mem_parametersBindings h hb

/-- The scopes in a child of a node have symbols at nodes below it besides those around it. -/
theorem allAt_childScopes (hscopes : scopes.AllAt P) (h : n.Below P) {child : Node}
    (hchild : child ∈ n.children) (i : Nat) : (childScopes scopes n i child).AllAt P := by
  have hdeclared : ∀ b ∈ declaredAll n.children, P b.span :=
    fun b => span_of_mem_declaredAll fun c hc => h.child hc
  have hblock : Scopes.AllAt P (blockSymbols n.children :: scopes) :=
    List.forall_mem_cons.2 ⟨span_of_mem_blockSymbols fun c hc => h.child hc, hscopes⟩
  have hnamespace : Scopes.AllAt P (namespaceSymbols child :: scopes) :=
    List.forall_mem_cons.2 ⟨span_of_mem_namespaceSymbols (h.child hchild), hscopes⟩
  have hsignature : Scopes.AllAt P (signatureSymbols n :: scopes) :=
    List.forall_mem_cons.2 ⟨span_of_mem_signatureSymbols h, hscopes⟩
  unfold childScopes
  split
  · exact hscopes.cons hdeclared
  · exact allAt_inFunction hscopes h hchild
  · exact allAt_inFunction hscopes h hchild
  · exact allAt_inClass hscopes h child
  · exact hblock
  · exact hblock
  · exact hblock
  · exact hblock
  · split
    · exact hscopes
    · exact hblock
  · refine hscopes.cons fun b hb => ?_
    obtain ⟨c, hc, hb⟩ := List.mem_flatMap.1 hb
    exact span_of_mem_parameterBindings (h.child (List.mem_of_mem_take hc)) hb
  · exact hscopes.cons hdeclared
  · split
    · exact hscopes
    · exact hnamespace
  · exact hnamespace
  · split
    · exact hscopes
    · refine hscopes.cons fun b hb => ?_
      obtain ⟨c, hc, hb⟩ := List.mem_flatMap.1 hb
      exact span_of_mem_enumMemberBinding ((h.child hchild).child hc) hb
  iterate 3
    · split
      · exact hscopes
      · exact hsignature
  iterate 4
    · exact hsignature
  · split
    · refine hscopes.cons fun b hb => ?_
      obtain ⟨c, hc, hb⟩ := List.mem_flatMap.1 hb
      exact span_of_mem_inferred (h.child (List.mem_of_mem_drop (List.mem_of_mem_take hc))) hb
    · exact hscopes
  · refine hscopes.cons fun b hb => ?_
    obtain ⟨c, hc, hb⟩ := List.mem_flatMap.1 hb
    exact span_of_mem_bindingOf hb ▸ h.span_child (List.mem_of_mem_take hc)
  · exact hscopes

/-! ## Resolution -/

theorem exists_of_mem_resolveAll {sc : Nat → Node → Scopes} {us : Nat → Node → Use} {i : Nat}
    {ns : List Node} {e : Nat × Symbol} (he : e ∈ resolveAll sc us i ns) :
    ∃ n ∈ ns, ∃ i, e ∈ resolve (sc i n) (us i n) n := by
  induction ns generalizing i with
  | nil => cases he
  | cons n ns ih =>
    rcases List.mem_append.1 he with he | he
    · exact ⟨n, List.mem_cons_self, i, he⟩
    · obtain ⟨m, hm, j, he⟩ := ih he
      exact ⟨m, List.mem_cons_of_mem _ hm, j, he⟩

/-- A name refers to a symbol of the scopes around it or below it, or stands for itself. -/
theorem span_of_mem_resolve (hspan : P n.span) (h : n.Below P) (hscopes : scopes.AllAt P) {use : Use}
    {e : Nat × Symbol} (he : e ∈ resolve scopes use n) : P e.2.span := by
  induction n using Node.induction generalizing scopes use with
  | h kind span children ih =>
    unfold resolve at he
    split at he
    · next heq =>
      cases heq
      obtain ⟨s, hs, rfl⟩ := Option.map_eq_some_iff.1 (Option.mem_toList.1 he)
      exact hscopes.span_of_lookup? hs
    · next name _ _ heq =>
      cases heq
      cases List.mem_singleton.1 he
      cases hbound : scopes.bound? name with
      | none => exact hspan
      | some s => exact hscopes.span_of_bound? hbound
    · next heq =>
      cases heq
      obtain ⟨c, hc, i, he⟩ := exists_of_mem_resolveAll he
      exact ih c hc (h.span_child hc) (h.child hc) (allAt_childScopes hscopes h hc i) he

/-- Symbols of a program are at nodes below its root. -/
theorem span_of_mem_resolveProgram {root : Node} (hroot : root.kind = .program)
    (h : root.Below P) {e : Nat × Symbol} (he : e ∈ resolveProgram root) : P e.2.span := by
  obtain ⟨kind, span, children⟩ := root
  obtain rfl : kind = .program := hroot
  obtain ⟨c, hc, i, he⟩ := exists_of_mem_resolveAll he
  exact span_of_mem_resolve (h.span_child hc) (h.child hc) (allAt_childScopes nofun h hc i) he

end Scope

end ComponentScan
