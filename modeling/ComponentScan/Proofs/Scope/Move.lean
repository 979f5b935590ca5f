import ComponentScan.Proofs.Syntax.Move
import ComponentScan.Scope.Resolve

/-!
# Symbols of a moved tree

Names are resolved by the shape of a tree, so the symbols of a moved tree are the moved symbols
(`resolveProgram_move`).
-/

namespace ComponentScan.Scope

open Syntax

def Binding.move (f : Nat → Nat) (b : Binding) : Binding :=
  { b with span := b.span.move f }

def Symbol.move (f : Nat → Nat) (s : Symbol) : Symbol :=
  { s with span := s.span.move f }

variable (f : Nat → Nat)

@[simp] theorem Binding.name_move (b : Binding) : (b.move f).name = b.name := rfl

@[simp] theorem Binding.hoists_move (b : Binding) : (b.move f).hoists = b.hoists := rfl

@[simp] theorem Symbol.name_move (s : Symbol) : (s.move f).name = s.name := rfl

@[simp] theorem Symbol.meanings_move (s : Symbol) : (s.move f).meanings = s.meanings := rfl

/-! ## Declarations -/

@[simp] theorem bindingOf_move (meanings : List Meaning) (n : Node) :
    bindingOf meanings (n.move f) = (bindingOf meanings n).map (Binding.move f) := by
  unfold bindingOf
  rw [Node.kind_move]
  split <;> simp [Binding.move]

@[simp] theorem named_move (meanings : List Meaning) (n : Node) :
    named meanings (n.move f) = (named meanings n).map (Binding.move f) := by
  unfold named
  rw [Node.id?_move]
  cases n.id? <;> simp

theorem patternsBindings_eq (ns : List Node) : patternsBindings ns = ns.flatMap patternBindings := by
  induction ns with
  | nil => rfl
  | cons n ns ih => rw [patternsBindings, ih, List.flatMap_cons]

/-- Lists that commute with a move item by item do so as a whole. -/
theorem flatMap_move {α : Type} {g : Node → List α} {h : α → α} {ns : List Node}
    (hg : ∀ n ∈ ns, g (n.move f) = (g n).map h) :
    (ns.map (Node.move f)).flatMap g = (ns.flatMap g).map h := by
  induction ns with
  | nil => rfl
  | cons n ns ih =>
    obtain ⟨hfirst, hothers⟩ := List.forall_mem_cons.1 hg
    rw [List.map_cons, List.flatMap_cons, List.flatMap_cons, List.map_append, hfirst, ih hothers]

@[simp] theorem patternBindings_move (n : Node) :
    patternBindings (n.move f) = (patternBindings n).map (Binding.move f) := by
  induction n using Node.induction with
  | h kind span children ih =>
    have hall := flatMap_move f ih
    rw [Node.move_mk]
    cases kind with
    | assignmentPattern =>
      match children, ih with
      | [left, _], ih => simpa [patternBindings] using ih left List.mem_cons_self
      | [], _ | [_], _ | _ :: _ :: _ :: _, _ => rfl
    | bindingProperty =>
      match children, ih with
      | [_, value], ih =>
        simpa [patternBindings] using ih value (List.mem_cons_of_mem _ List.mem_cons_self)
      | [], _ | [_], _ | _ :: _ :: _ :: _, _ => rfl
    | bindingRestElement => simpa only [patternBindings, patternsBindings_eq] using hall
    | objectPattern => simpa only [patternBindings, patternsBindings_eq] using hall
    | arrayPattern => simpa only [patternBindings, patternsBindings_eq] using hall
    | _ => rfl

@[simp] theorem parameterBindings_move (n : Node) :
    parameterBindings (n.move f) = (parameterBindings n).map (Binding.move f) := by
  unfold parameterBindings
  rw [Node.child?_move]
  cases n.child? (!·.isDecorator) <;> simp

@[simp] theorem typeParameterBindings_move (n : Node) :
    typeParameterBindings (n.move f) = (typeParameterBindings n).map (Binding.move f) := by
  unfold typeParameterBindings
  rw [Node.child?_move]
  cases n.child? Kind.isTypeParameters with
  | none => rfl
  | some params => simpa using flatMap_move f fun n _ => named_move f [.typeParameterName] n

@[simp] theorem parametersBindings_move (n : Node) :
    parametersBindings (n.move f) = (parametersBindings n).map (Binding.move f) := by
  unfold parametersBindings
  rw [Node.child?_move]
  cases n.child? Kind.isFormalParameters with
  | none => rfl
  | some params => simpa using flatMap_move f fun n _ => parameterBindings_move f n

theorem haveValue_eq (ns : List Node) : haveValue ns = ns.any hasValue := by
  induction ns with
  | nil => rfl
  | cons n ns ih => rw [haveValue, ih, List.any_cons]

@[simp] theorem hasValue_move (n : Node) : hasValue (n.move f) = hasValue n := by
  induction n using Node.induction with
  | h kind span children ih =>
    have hall : (children.map (Node.move f)).any hasValue = children.any hasValue := by
      rw [List.any_map, Bool.eq_iff_iff, List.any_eq_true, List.any_eq_true]
      exact exists_congr fun n => and_congr_right fun hn => by rw [Function.comp_apply, ih n hn]
    rw [Node.move_mk]
    cases kind with
    | tsModuleDeclaration =>
      match children, ih with
      | [_, body], ih =>
        simpa [hasValue] using ih body (List.mem_cons_of_mem _ List.mem_cons_self)
      | [], _ | [_], _ | _ :: _ :: _ :: _, _ => rfl
    | tsModuleBlock => simpa only [hasValue, haveValue_eq] using hall
    | exportNamedDeclaration => simpa only [hasValue, haveValue_eq] using hall
    | _ => rfl

theorem leaveBlock_move (bindings : List Binding) :
    leaveBlock (bindings.map (Binding.move f)) = (leaveBlock bindings).map (Binding.move f) := by
  simp only [leaveBlock, List.filter_map, List.map_map, List.find?_map, Function.comp_def,
    Binding.hoists_move, Binding.name_move]
  refine List.map_congr_left fun b _ => ?_
  cases bindings.find? (·.name == b.name) <;> rfl

theorem variableBindings_move (binder : Binder) (declarators : List Node) :
    variableBindings binder (declarators.map (Node.move f)) =
      (variableBindings binder declarators).map (Binding.move f) := by
  simp only [variableBindings, flatMap_move f fun n _ => parameterBindings_move f n, List.map_map]
  rfl

theorem importBinding_move (typeOnly : Bool) (n : Node) :
    importBinding typeOnly (n.move f) = (importBinding typeOnly n).map (Binding.move f) := by
  simp only [importBinding, Node.kind_move, named_move]
  cases n.kind <;> rfl

theorem declaredAll_eq (ns : List Node) : declaredAll ns = ns.flatMap declared := by
  induction ns with
  | nil => rfl
  | cons n ns ih => rw [declaredAll, ih, List.flatMap_cons]

theorem declaredAll_move {f : Nat → Nat} {ns : List Node}
    (h : ∀ n ∈ ns, declared (n.move f) = (declared n).map (Binding.move f)) :
    declaredAll (ns.map (Node.move f)) = (declaredAll ns).map (Binding.move f) := by
  rw [declaredAll_eq, declaredAll_eq]
  exact flatMap_move f h

/-- What a statement declares moves with it. -/
@[simp] theorem declared_move (n : Node) :
    declared (n.move f) = (declared n).map (Binding.move f) := by
  -- The handler of an exception reads the statements two levels below it.
  suffices h : declared (n.move f) = (declared n).map (Binding.move f) ∧
      ∀ c ∈ n.children, declared (c.move f) = (declared c).map (Binding.move f) from h.1
  induction n using Node.induction with
  | h kind span children ih =>
    have hchildren c (hc : c ∈ children) := (ih c hc).1
    refine ⟨?_, hchildren⟩
    have hall := declaredAll_move hchildren
    have hnamed (meanings : List Meaning) := named_move f meanings ⟨kind, span, children⟩
    have hvalue := hasValue_move f ⟨kind, span, children⟩
    have hblock := leaveBlock_move f (declaredAll children)
    rw [← hall] at hblock
    rw [Node.move_mk] at hnamed hvalue ⊢
    cases kind with
    | variableDeclaration binder => exact variableBindings_move f binder children
    | function declares => cases declares with
      | false => rfl
      | true => exact hnamed _
    | classNode declares => cases declares with
      | false => rfl
      | true => exact hnamed _
    | tsEnumDeclaration => exact hnamed _
    | tsInterfaceDeclaration => exact hnamed _
    | tsTypeAliasDeclaration => exact hnamed _
    | tsModuleDeclaration => simpa only [declared, namespaceMeanings, hvalue] using hnamed _
    | tsImportEqualsDeclaration typeOnly => exact hnamed _
    | importDeclaration typeOnly => exact flatMap_move f fun n _ => importBinding_move f typeOnly n
    | exportNamedDeclaration => exact hall
    | exportDefaultDeclaration => exact hall
    | ifStatement => exact hall
    | labeledStatement => exact hall
    | whileStatement => exact hall
    | doWhileStatement => exact hall
    | tryStatement => exact hall
    | switchCase => exact hall
    | blockStatement => exact hblock
    | forStatement => exact hblock
    | forInStatement => exact hblock
    | forOfStatement => exact hblock
    | switchStatement => exact hblock
    | withStatement => exact hblock
    | catchClause =>
      match children, ih, hblock with
      | [], _, hblock | [_], _, hblock => exact hblock
      | _ :: ⟨kind, _, _⟩ :: _ :: _, _, hblock => cases kind <;> exact hblock
      | [param, ⟨kind, span, body⟩], ih, hblock =>
        have hbody := declaredAll_move (ih _ (List.mem_cons_of_mem _ List.mem_cons_self)).2
        simp only [List.map_cons, List.map_nil, Node.move_mk] at hblock ⊢
        cases kind with
        | blockStatement =>
          simp only [declared, parameterBindings_move, hbody, ← List.map_append]
          exact leaveBlock_move f _
        | _ => exact hblock
    | _ => rfl

theorem inferredAll_eq (ns : List Node) : inferredAll ns = ns.flatMap inferred := by
  induction ns with
  | nil => rfl
  | cons n ns ih => rw [inferredAll, ih, List.flatMap_cons]

@[simp] theorem inferred_move (n : Node) :
    inferred (n.move f) = (inferred n).map (Binding.move f) := by
  -- An inferred type reads the nodes two levels below it.
  suffices h : inferred (n.move f) = (inferred n).map (Binding.move f) ∧
      ∀ c ∈ n.children, inferred (c.move f) = (inferred c).map (Binding.move f) from h.1
  induction n using Node.induction with
  | h kind span children ih =>
    have hchildren c (hc : c ∈ children) := (ih c hc).1
    refine ⟨?_, hchildren⟩
    have hall : inferredAll (children.map (Node.move f)) =
        (inferredAll children).map (Binding.move f) := by
      rw [inferredAll_eq, inferredAll_eq]
      exact flatMap_move f hchildren
    rw [Node.move_mk]
    cases kind with
    | tsInferType =>
      match children, ih, hall with
      | [], _, hall | ⟨_, _, _⟩ :: _ :: _, _, hall => exact hall
      | [⟨kind, span, children⟩], ih, _ =>
        have hnamed := named_move f [.typeParameterName] ⟨kind, span, children⟩
        have hbelow := flatMap_move f (ih _ List.mem_cons_self).2
        rw [Node.move_mk] at hnamed
        simp only [List.map_cons, List.map_nil, Node.move_mk, inferred, inferredAll_eq, hnamed,
          List.map_append]
        exact congrArg _ hbelow
    | tsConditionalType =>
      match children, hchildren, hall with
      | [], _, hall | [_], _, hall | [_, _], _, hall | [_, _, _], _, hall
      | _ :: _ :: _ :: _ :: _ :: _, _, hall => exact hall
      | [check, extended, whenTrue, whenFalse], hchildren, _ =>
        have hcheck := hchildren check (by simp)
        have hfalse := hchildren whenFalse (by simp)
        simp only [List.map_cons, List.map_nil, inferred, hcheck, hfalse, List.map_append]
    | _ => exact hall

@[simp] theorem enumMemberBinding_move (n : Node) :
    enumMemberBinding (n.move f) = (enumMemberBinding n).map (Binding.move f) := by
  unfold enumMemberBinding
  rw [Node.children_move, List.head?_map]
  cases n.children.head? with
  | none => rfl
  | some id =>
    simp only [Option.map_some, Node.text?_move, Node.span_move]
    cases id.text? <;> rfl

/-! ## Scopes -/

@[simp] theorem declare_move (symbols : Symbols) (b : Binding) :
    Symbols.declare (symbols.map (Symbol.move f)) (b.move f) =
      (symbols.declare b).map (Symbol.move f) := by
  induction symbols with
  | nil => rfl
  | cons s rest ih =>
    simp only [List.map_cons, Symbols.declare, Symbol.name_move, Binding.name_move, ih]
    split <;> rfl

@[simp] theorem ofBindings_move (bindings : List Binding) :
    Symbols.ofBindings (bindings.map (Binding.move f)) =
      (Symbols.ofBindings bindings).map (Symbol.move f) := by
  have key (symbols : Symbols) :
      (bindings.map (Binding.move f)).foldl Symbols.declare (symbols.map (Symbol.move f)) =
        (bindings.foldl Symbols.declare symbols).map (Symbol.move f) := by
    induction bindings generalizing symbols with
    | nil => rfl
    | cons b bindings ih => rw [List.map_cons, List.foldl_cons, declare_move, ih, List.foldl_cons]
  exact key []

/-- The scopes with their symbols moved. -/
def Scopes.move (f : Nat → Nat) (scopes : Scopes) : Scopes :=
  scopes.map (List.map (Symbol.move f))

@[simp] theorem cons_move (symbols : Symbols) (scopes : Scopes) :
    Scopes.move f (symbols :: scopes) = symbols.map (Symbol.move f) :: scopes.move f := rfl

@[simp] theorem lookup?_move (scopes : Scopes) (use : Use) (name : String) :
    (scopes.move f).lookup? use name = (scopes.lookup? use name).map (Symbol.move f) := by
  simp [Scopes.lookup?, Scopes.move, List.findSome?_map, List.find?_map, Function.comp_def,
    List.map_findSome?]

@[simp] theorem bound?_move (scopes : Scopes) (name : String) :
    (scopes.move f).bound? name = (scopes.bound? name).map (Symbol.move f) := by
  simp [Scopes.bound?, Symbols.find?, Scopes.move, List.findSome?_map, List.find?_map,
    Function.comp_def, List.map_findSome?]

@[simp] theorem ownName_move (n : Node) :
    ownName (n.move f) = (ownName n).map (Binding.move f) := by
  unfold ownName
  rw [Node.kind_move]
  split <;> simp

@[simp] theorem headBindings_move (n : Node) :
    headBindings (n.move f) = (headBindings n).map (Binding.move f) := by
  simp only [headBindings, ownName_move, typeParameterBindings_move, parametersBindings_move,
    ← List.map_append, List.filter_map, List.any_map, Function.comp_def, Binding.name_move]

@[simp] theorem declaredAll_map_move (ns : List Node) :
    declaredAll (ns.map (Node.move f)) = (declaredAll ns).map (Binding.move f) :=
  declaredAll_move fun n _ => declared_move f n

@[simp] theorem inFunction_move (scopes : Scopes) (n child : Node) :
    inFunction (scopes.move f) (n.move f) (child.move f) = (inFunction scopes n child).move f := by
  simp only [inFunction, functionSymbols, headSymbols, Node.kind_move, Node.children_move,
    headBindings_move, declaredAll_map_move, ← List.map_append, ofBindings_move, ownName_move]
  split
  · rfl
  · split <;> rfl

@[simp] theorem inClass_move (scopes : Scopes) (n child : Node) :
    inClass (scopes.move f) (n.move f) (child.move f) = (inClass scopes n child).move f := by
  simp only [inClass, Node.kind_move, ownName_move, typeParameterBindings_move, ← List.map_append,
    ofBindings_move]
  split <;> rfl

@[simp] theorem blockSymbols_move (ns : List Node) :
    blockSymbols (ns.map (Node.move f)) = (blockSymbols ns).map (Symbol.move f) := by
  simp [blockSymbols, List.filter_map, Function.comp_def]

@[simp] theorem namespaceSymbols_move (n : Node) :
    namespaceSymbols (n.move f) = (namespaceSymbols n).map (Symbol.move f) := by
  unfold namespaceSymbols
  rw [Node.kind_move]
  split <;> simp

@[simp] theorem signatureSymbols_move (n : Node) :
    signatureSymbols (n.move f) = (signatureSymbols n).map (Symbol.move f) := by
  simp only [signatureSymbols, typeParameterBindings_move, parametersBindings_move,
    ← List.map_append, ofBindings_move]

theorem childScopes_move (scopes : Scopes) (n : Node) (i : Nat) (child : Node) :
    childScopes (scopes.move f) (n.move f) i (child.move f) = (childScopes scopes n i child).move f := by
  have hinferred := flatMap_move f fun c (_ : c ∈ (n.children.drop 1).take 2) => inferred_move f c
  have henum := flatMap_move f fun c (_ : c ∈ child.children) => enumMemberBinding_move f c
  have hcatch := flatMap_move f fun c (_ : c ∈ n.children.take 1) => parameterBindings_move f c
  have hmapped := flatMap_move f fun c (_ : c ∈ n.children.take 1) =>
    bindingOf_move f [.typeParameterName] c
  rw [List.map_take] at hcatch hmapped
  rw [List.map_take, List.map_drop] at hinferred
  unfold childScopes
  rw [Node.kind_move]
  split
  all_goals simp only [inFunction_move, inClass_move, Node.children_move, declaredAll_map_move,
    blockSymbols_move, ofBindings_move, hcatch, hinferred, henum, hmapped, namespaceSymbols_move,
    signatureSymbols_move, cons_move]
  all_goals split <;> rfl

/-! ## Resolution -/

theorem childUse_move (use : Use) (n : Node) (i : Nat) (child : Node) :
    childUse use (n.move f) i (child.move f) = childUse use n i child := by
  simp only [childUse, Node.kind_move]

/-- A resolved identifier, moved. -/
def moveEntry (f : Nat → Nat) (e : Nat × Symbol) : Nat × Symbol :=
  (f e.1, e.2.move f)

theorem resolve_mk (scopes : Scopes) (use : Use) (n : Node)
    (hreference : ∀ name, n.kind ≠ .identifierReference name)
    (hbinding : ∀ name, n.kind ≠ .bindingIdentifier name) :
    resolve scopes use n = resolveAll (childScopes scopes n) (childUse use n) 0 n.children := by
  obtain ⟨kind, span, children⟩ := n
  rw [resolve]
  · exact hreference
  · exact hbinding

theorem resolve_move (n : Node) : ∀ (scopes : Scopes) (use : Use),
    resolve (scopes.move f) use (n.move f) = (resolve scopes use n).map (moveEntry f) := by
  induction n using Node.induction with
  | h kind span children ih =>
    intro scopes use
    -- The children, given scopes and uses that depend on the place of each.
    have hall (ns : List Node) (hns : ∀ c ∈ ns, c ∈ children) (sc : Nat → Node → Scopes)
        (sc' : Nat → Node → Scopes) (us us' : Nat → Node → Use)
        (hsc : ∀ i c, sc' i (c.move f) = (sc i c).move f) (hus : ∀ i c, us' i (c.move f) = us i c)
        (i : Nat) : resolveAll sc' us' i (ns.map (Node.move f)) =
          (resolveAll sc us i ns).map (moveEntry f) := by
      induction ns generalizing i with
      | nil => rfl
      | cons c ns ihns =>
        obtain ⟨hc, hns⟩ := List.forall_mem_cons.1 hns
        simp only [List.map_cons, resolveAll, List.map_append, hsc, hus, ih c hc, ihns hns]
    by_cases hreference : ∃ name, kind = .identifierReference name
    · obtain ⟨name, rfl⟩ := hreference
      simp only [Node.move_mk, resolve, lookup?_move]
      cases scopes.lookup? use name <;> rfl
    by_cases hbinding : ∃ name, kind = .bindingIdentifier name
    · obtain ⟨name, rfl⟩ := hbinding
      simp only [Node.move_mk, resolve, bound?_move]
      cases scopes.bound? name <;> rfl
    simp only [not_exists] at hreference hbinding
    rw [resolve_mk _ _ ⟨kind, span, children⟩ hreference hbinding, resolve_mk, Node.children_move]
    · exact hall children (fun _ h => h) _ _ _ _ (childScopes_move f scopes _)
        (childUse_move f use _) 0
    · simpa using hreference
    · simpa using hbinding

/-- The symbols of a moved program are the moved symbols. -/
theorem resolveProgram_move (root : Node) :
    resolveProgram (root.move f) = (resolveProgram root).map (moveEntry f) :=
  resolve_move f root [] .value

end ComponentScan.Scope
