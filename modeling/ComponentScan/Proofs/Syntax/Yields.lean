import ComponentScan.Proofs.Syntax.Nodes
import ComponentScan.Proofs.Syntax.Program
import ComponentScan.Proofs.Syntax.States

/-!
# Sound trees

Some kinds of nodes come from one rule of the grammar each: an opening tag is made inside of its
element, a variable declarator inside of its list, and a program inside of nothing. A declarator
binds a name or a pattern, a declaration of a type starts with its name, and a specifier in a
statement that exports from another module does not refer to a symbol of the file. A path of members
in a tag stands in the text as its names, with dots between them. A tree that keeps to this is
sound.

A parser yields sound trees if it is put together from parsers that do, and if all of them leave the
state in the text. Of a compound result all nodes in it are meant, so what has no nodes in it is
sound. The instances below follow the structure of a parser down to the rules that it calls; what
they cannot look into are matches, which a proof splits before.
-/

namespace ComponentScan.Syntax

set_option synthInstance.maxSize 65536

/-! ## Sound nodes -/

namespace Kind

/-- A kind of nodes that may stand anywhere but in a list of variables. -/
@[reducible]
def isFree : Kind → Bool
  | program | variableDeclarator | jsxOpeningElement => false
  | _ => true

/-- Whether a node of a kind may have a child of another. -/
def mayHold : Kind → Kind → Bool
  | variableDeclaration _, variableDeclarator | jsxElement, jsxOpeningElement => true
  | variableDeclaration _, _ => false
  | _, child => child.isFree

/-- A kind of nodes that have only children which may stand anywhere. -/
@[reducible]
def hasFreeChildren : Kind → Bool
  | variableDeclaration _ | jsxElement => false
  | _ => true

/-- A kind of declarations that always have a name. -/
def isTypeDeclaration : Kind → Bool
  | tsInterfaceDeclaration | tsTypeAliasDeclaration | tsEnumDeclaration => true
  | _ => false

/-- A kind of nodes of which no more is known than which kinds of children they may have. -/
@[reducible]
def isLoose : Kind → Bool
  | variableDeclarator | tsInterfaceDeclaration | tsTypeAliasDeclaration | tsEnumDeclaration
  | jsxMemberExpression => false
  | _ => true

/-- A kind of nodes that may stand anywhere and have any sound children. -/
@[reducible]
def isPlain : Kind → Bool
  | program | variableDeclaration _ | variableDeclarator | jsxOpeningElement
  | tsInterfaceDeclaration | tsTypeAliasDeclaration | tsEnumDeclaration | jsxMemberExpression => false
  | _ => true

theorem mayHold_of_isFree {k k' : Kind} (hk : ∀ binder, k ≠ variableDeclaration binder)
    (h : k'.isFree = true) : k.mayHold k' = true := by
  unfold mayHold
  split
  · rfl
  · rfl
  · exact absurd rfl (hk _)
  · exact h

theorem isFree_of_isPlain {k : Kind} (h : k.isPlain = true) : k.isFree = true := by
  unfold isFree
  split
  · cases h
  · cases h
  · cases h
  · rfl

theorem isLoose_of_isPlain {k : Kind} (h : k.isPlain = true) : k.isLoose = true := by
  unfold isLoose
  split
  · cases h
  · cases h
  · cases h
  · cases h
  · cases h
  · rfl

theorem isTypeDeclaration_of_isLoose {k : Kind} (h : k.isLoose = true) :
    k.isTypeDeclaration = false := by
  unfold isTypeDeclaration
  split
  · cases h
  · cases h
  · cases h
  · rfl

theorem isFree_of_mayHold {k k' : Kind} (hk : k.hasFreeChildren = true)
    (h : k.mayHold k' = true) : k'.isFree = true := by
  unfold mayHold at h
  split at h
  · cases hk
  · cases hk
  · cases h
  · exact h

/-- A name or pattern that is bound. -/
def isBinding : Kind → Bool
  | bindingIdentifier _ | objectPattern | arrayPattern => true
  | _ => false

theorem isBinding_of_isBindingIdentifier {k : Kind} (h : k.isBindingIdentifier = true) :
    k.isBinding = true := by
  unfold isBindingIdentifier at h
  split at h
  · rfl
  · cases h

end Kind

namespace Node

/-- Whether a node and its children fit together. -/
structure Fits (n : Node) : Prop where
  mayHold : ∀ c ∈ n.children, n.kind.mayHold c.kind = true
  declarator :
    n.kind = .variableDeclarator → ∃ b, n.binding? = some b ∧ b.kind.isBinding = true
  named : n.kind.isTypeDeclaration = true →
    ∃ ident ∈ n.children.head?, ident.kind.isBindingIdentifier = true

/-- Whether a node is a path of members in a text: its root, and what stands behind it for each
member, which is a dot with white space and comments around it and a name. -/
inductive IsPath (text : List Char) : Node → Node → List (List Char × String) → Prop
  | root {n : Node} {name : String}
    (hkind : n.kind = .identifierReference name ∨ n.kind = .thisExpression)
    (htext : Text.slice? text n.start n.stop = some name.toList)
    (hink : ∀ x ∈ name.toList, IsInk x) : IsPath text n n []
  | member {object root property : Node} {parts : List (List Char × String)} {gap : List Char}
    {name : String} (h : IsPath text object root parts)
    (hgap : Text.slice? text object.stop property.start = some gap) (hdot : '.' ∈ gap)
    (hkind : property.kind = .jsxIdentifier name)
    (htext : Text.slice? text property.start property.stop = some name.toList)
    (hink : ∀ x ∈ name.toList, IsInk x) :
    IsPath text ⟨.jsxMemberExpression, ⟨object.start, property.stop⟩, [object, property]⟩ root
      (parts ++ [(gap, name)])

/-- Whether a node and its children fit together, and stand in a text as they should. -/
structure FitsIn (text : List Char) (n : Node) : Prop extends n.Fits where
  path : n.kind = .jsxMemberExpression → ∃ root parts, n.IsPath text root parts

theorem Fits.opening {n : Node} (h : n.Fits) (c : Node) (hc : c ∈ n.children)
    (hkind : c.kind = .jsxOpeningElement) : n.kind = .jsxElement := by
  have hholds := h.mayHold c hc
  rw [hkind] at hholds
  unfold Kind.mayHold at hholds
  split at hholds <;> simp_all

/-- Whether a node is a list of variables is known by its children. -/
theorem Fits.isVariable_iff {n c : Node} (h : n.Fits) (hc : c ∈ n.children) :
    c.kind = .variableDeclarator ↔ ∃ binder, n.kind = .variableDeclaration binder := by
  have hholds := h.mayHold c hc
  constructor
  · intro hkind
    rw [hkind] at hholds
    cases hn : n.kind <;> rw [hn] at hholds <;> first | exact ⟨_, rfl⟩ | cases hholds
  · rintro ⟨binder, hn⟩
    rw [hn] at hholds
    cases hkind : c.kind <;> rw [hkind] at hholds <;> first | rfl | cases hholds

/-- Whether a node may stand anywhere, and all nodes in it fit together in a text. -/
structure IsSound (text : List Char) (n : Node) : Prop where
  kind : n.kind.isFree = true
  fits : ∀ m ∈ n.nodes, m.FitsIn text

variable {text : List Char}

theorem forall_mem_nodes_iff {P : Node → Prop} {n : Node} :
    (∀ m ∈ n.nodes, P m) ↔ P n ∧ ∀ c ∈ n.children, ∀ m ∈ c.nodes, P m := by
  rw [nodes, List.forall_mem_cons]
  refine and_congr_right fun _ => ⟨fun h c hc m hm => h m (mem_descendants_iff.2 ⟨c, hc, hm⟩),
    fun h m hm => ?_⟩
  obtain ⟨c, hc, hm⟩ := mem_descendants_iff.1 hm
  exact h c hc m hm

theorem isSound_of_fits {n : Node} (hkind : n.kind.isFree = true) (hfits : n.FitsIn text)
    (h : ∀ c ∈ n.children, ∀ m ∈ c.nodes, m.FitsIn text) : n.IsSound text :=
  ⟨hkind, forall_mem_nodes_iff.2 ⟨hfits, h⟩⟩

theorem fits_of_isLoose {n : Node} (hkind : n.kind.isLoose = true)
    (h : ∀ c ∈ n.children, n.kind.mayHold c.kind = true) : n.FitsIn text where
  mayHold := h
  declarator hdeclarator := by
    rw [hdeclarator] at hkind
    cases hkind
  named hnamed := by
    rw [Kind.isTypeDeclaration_of_isLoose hkind] at hnamed
    cases hnamed
  path hpath := by
    rw [hpath] at hkind
    cases hkind

theorem fits_of_isPlain {n : Node} (hkind : n.kind.isPlain = true)
    (h : ∀ c ∈ n.children, c.kind.isFree = true) : n.FitsIn text :=
  fits_of_isLoose (Kind.isLoose_of_isPlain hkind) fun c hc =>
    Kind.mayHold_of_isFree (fun _ hlist => by
      rw [hlist] at hkind
      cases hkind) (h c hc)

/-- A node of a plain kind is sound if its children are. -/
theorem isSound_of_isPlain {n : Node} (hkind : n.kind.isPlain = true)
    (h : ∀ c ∈ n.children, c.IsSound text) : n.IsSound text :=
  isSound_of_fits (Kind.isFree_of_isPlain hkind)
    (fits_of_isPlain hkind fun c hc => (h c hc).kind) fun c hc => (h c hc).fits

theorem IsSound.child {n c : Node} (h : n.IsSound text) (hkind : n.kind.hasFreeChildren = true)
    (hc : c ∈ n.children) : c.IsSound text :=
  ⟨Kind.isFree_of_mayHold hkind ((h.fits n n.self_mem_nodes).mayHold c hc),
    fun m hm => h.fits m (nodes_subset_of_child hc hm)⟩

theorem IsSound.forall_child {n : Node} (h : n.IsSound text)
    (hkind : n.kind.hasFreeChildren = true) : ∀ c ∈ n.children, c.IsSound text :=
  fun _ hc => h.child hkind hc

/-- The place of a node matters only if it is a path of members. -/
theorem IsSound.of_children_eq {n n' : Node} (h : n.IsSound text) (hkind : n'.kind = n.kind)
    (hchildren : n'.children = n.children) (hplace : n.kind ≠ .jsxMemberExpression) :
    n'.IsSound text := by
  have hfits := h.fits n n.self_mem_nodes
  refine isSound_of_fits (hkind ▸ h.kind) ⟨⟨?_, fun hdeclarator => ?_, ?_⟩, fun hpath => ?_⟩ ?_
  · rw [hkind, hchildren]
    exact hfits.mayHold
  · unfold binding?
    rw [hchildren]
    exact hfits.declarator (hkind ▸ hdeclarator)
  · rw [hkind, hchildren]
    exact hfits.named
  · exact absurd (hkind.symm.trans hpath) hplace
  · rw [hchildren]
    exact (forall_mem_nodes_iff.1 h.fits).2

end Node

/-! ## Sound results -/

/-- The nodes in a result. -/
class HasNodes (α : Type) where
  nodesIn : α → List Node

export HasNodes (nodesIn)

instance : HasNodes Node := ⟨fun n => [n]⟩

instance {α : Type} [HasNodes α] : HasNodes (Option α) := ⟨fun o => o.toList.flatMap nodesIn⟩

instance {α : Type} [HasNodes α] : HasNodes (List α) := ⟨fun l => l.flatMap nodesIn⟩

instance {α β : Type} [HasNodes α] [HasNodes β] : HasNodes (α × β) :=
  ⟨fun p => nodesIn p.1 ++ nodesIn p.2⟩

/-- There are no nodes in results of other types. -/
instance (priority := low) HasNodes.none {α : Type} : HasNodes α := ⟨fun _ => []⟩

/-- Whether there are no nodes in results of a type. -/
class NoNodes (α : Type) [HasNodes α] : Prop where
  nodesIn_eq : ∀ a : α, nodesIn a = []

/-- Whether the nodes in a result are sound. -/
class AllSound (text : List Char) {α : Type} [HasNodes α] (a : α) : Prop where
  isSound : ∀ n ∈ nodesIn a, n.IsSound text

/-- A result with sound nodes. -/
structure SoundResult (text : List Char) (α : Type) [HasNodes α] where
  val : α
  sound : AllSound text val

/-- A test that can be seen to hold. -/
class Holds (b : Bool) : Prop where
  out : b = true

instance : Holds true := ⟨rfl⟩

instance {c : Prop} [Decidable c] {k k' : Kind} [hk : Holds k.isPlain] [hk' : Holds k'.isPlain] :
    Holds (if c then k else k').isPlain := by
  split <;> assumption

section

variable {text : List Char} {α β : Type} [HasNodes α] [HasNodes β]

instance (priority := low) {α : Type} : @NoNodes α .none := @NoNodes.mk α .none fun _ => rfl

instance [NoNodes α] : NoNodes (Option α) :=
  ⟨fun _ => List.flatMap_eq_nil_iff.2 fun a _ => NoNodes.nodesIn_eq a⟩

instance (a : SoundResult text α) : AllSound text a.val := a.sound

instance (priority := low) [NoNodes α] (a : α) : AllSound text a :=
  ⟨fun n hn => absurd hn (by rw [NoNodes.nodesIn_eq]; exact List.not_mem_nil)⟩

theorem allSound_node_iff {n : Node} : AllSound text n ↔ n.IsSound text :=
  ⟨fun h => h.isSound n (List.mem_singleton.2 rfl),
    fun h => ⟨fun _ hm => List.mem_singleton.1 hm ▸ h⟩⟩

theorem allSound_list_iff {l : List α} : AllSound text l ↔ ∀ a ∈ l, AllSound text a := by
  refine ⟨fun h a ha => ⟨fun n hn => h.isSound n (List.mem_flatMap.2 ⟨a, ha, hn⟩)⟩,
    fun h => ⟨fun n hn => ?_⟩⟩
  obtain ⟨a, ha, hn⟩ := List.mem_flatMap.1 hn
  exact (h a ha).isSound n hn

theorem allSound_some_iff {a : α} : AllSound text (some a) ↔ AllSound text a := by
  have hnodes : nodesIn (some a) = nodesIn a := List.flatMap_singleton ..
  exact ⟨fun h => ⟨hnodes ▸ h.isSound⟩, fun h => ⟨hnodes ▸ h.isSound⟩⟩

theorem AllSound.isSound_of_mem {ns : List Node} (h : AllSound text ns) {n : Node} (hn : n ∈ ns) :
    n.IsSound text :=
  allSound_node_iff.1 (allSound_list_iff.1 h n hn)

instance : AllSound text (none : Option α) := ⟨nofun⟩

instance {a : α} [h : AllSound text a] : AllSound text (some a) := allSound_some_iff.2 h

instance {o : Option α} [h : AllSound text o] : AllSound text o.toList := ⟨h.isSound⟩

instance {o : Option α} {a : α} [h : AllSound text o] [ha : AllSound text a] :
    AllSound text (o.getD a) := by
  cases o with
  | none => exact ha
  | some _ => exact allSound_some_iff.1 h

instance {o : Option α} {g : α → β} [h : AllSound text o]
    [hg : ∀ a : SoundResult text α, AllSound text (g a.val)] : AllSound text (o.map g) := by
  cases o with
  | none => exact ⟨nofun⟩
  | some a => exact allSound_some_iff.2 (hg ⟨a, allSound_some_iff.1 h⟩)

instance : AllSound text ([] : List α) := ⟨nofun⟩

instance {a : α} {l : List α} [h : AllSound text a] [hl : AllSound text l] :
    AllSound text (a :: l) :=
  allSound_list_iff.2 (List.forall_mem_cons.2 ⟨h, allSound_list_iff.1 hl⟩)

instance {l l' : List α} [h : AllSound text l] [h' : AllSound text l'] :
    AllSound text (l ++ l') :=
  allSound_list_iff.2 (List.forall_mem_append.2 ⟨allSound_list_iff.1 h, allSound_list_iff.1 h'⟩)

instance {l : List α} [h : AllSound text l] : AllSound text l.reverse :=
  allSound_list_iff.2 fun a ha => allSound_list_iff.1 h a (List.mem_reverse.1 ha)

instance {a : α} {b : β} [h : AllSound text a] [h' : AllSound text b] : AllSound text (a, b) :=
  ⟨List.forall_mem_append.2 ⟨h.isSound, h'.isSound⟩⟩

instance {p : α × β} [h : AllSound text p] : AllSound text p.1 :=
  ⟨(List.forall_mem_append.1 h.isSound).1⟩

instance {p : α × β} [h : AllSound text p] : AllSound text p.2 :=
  ⟨(List.forall_mem_append.1 h.isSound).2⟩

instance {c : Prop} [Decidable c] {a a' : α} [h : AllSound text a] [h' : AllSound text a'] :
    AllSound text (if c then a else a') := by
  split <;> assumption

instance {kind : Kind} {span : Span} {children : List Node} [hkind : Holds kind.isPlain]
    [h : AllSound text children] : AllSound text (⟨kind, span, children⟩ : Node) :=
  allSound_node_iff.2 (Node.isSound_of_isPlain hkind.out fun _ hc => h.isSound_of_mem hc)

end

/-! ## What parsers yield -/

namespace Parse

/-- Whether a parser that runs where a condition holds ends where another holds of its result. -/
def Ensures {α : Type} (I : State → Prop) (p : Parse α) (J : α → State → Prop) : Prop :=
  ∀ ⦃ctx s a s'⦄, I s → p ctx s = some (a, s') → J a s'

/-- Whether all results of a parser that runs where a condition holds have a property; and the
condition holds again where the parser ends. -/
def Always {α : Type} (I : State → Prop) (P : α → Prop) (p : Parse α) : Prop :=
  p.Ensures I fun a s => P a ∧ I s

/-- No condition. -/
def Anywhere (_ : State) : Prop :=
  True

section

variable {I : State → Prop} {α β : Type} {P : α → Prop} {Q : β → Prop} {p : Parse α}
  {f : α → Parse β}

theorem Ensures.bind {J : α → State → Prop} {K : β → State → Prop} (h : p.Ensures I J)
    (hf : ∀ a, (f a).Ensures (J a) K) : (p >>= f).Ensures I K := by
  intro ctx s b s' hs hrun
  rw [bind_apply] at hrun
  obtain ⟨⟨a, t⟩, ha, hb⟩ := Option.bind_eq_some_iff.1 hrun
  exact hf a (h hs ha) hb

/-- What a condition says of results does not change where a parser goes on. -/
theorem Ensures.of_and {J : α → State → Prop} {R : Prop} (h : R → p.Ensures I J) :
    p.Ensures (fun s => R ∧ I s) J :=
  fun _ _ _ _ hs hrun => h hs.1 hs.2 hrun

theorem ensures_pure {J : α → State → Prop} {a : α} (h : ∀ s, I s → J a s) :
    (Pure.pure a : Parse α).Ensures I J := by
  rintro ctx s _ _ hs ⟨⟩
  exact h s hs

theorem ensures_loop {J : α → State → Prop} {step : α → Parse (Option α)} (a : α)
    (hstep : ∀ a, (step a).Ensures (J a) fun o s => J (o.getD a) s) :
    (loop a step).Ensures (J a) J := by
  have hfrom (fuel : Nat) (a : α) : (loopFrom step fuel a).Ensures (J a) J := by
    induction fuel generalizing a with
    | zero => exact fun _ _ _ _ _ hrun => nomatch (show none = some _ from hrun)
    | succ fuel ih =>
      refine (hstep a).bind fun o => ?_
      cases o with
      | none => exact ensures_pure fun _ h => h
      | some a' => exact ih a'
  exact fun ctx _ _ _ hs hrun => hfrom ctx.size a hs hrun

theorem Always.bind (h : p.Always I P) (hf : ∀ a, P a → (f a).Always I Q) :
    (p >>= f).Always I Q :=
  Ensures.bind h fun a => .of_and (hf a)

theorem Always.imp {P' : α → Prop} (h : p.Always I P) (himp : ∀ a, P a → P' a) :
    p.Always I P' := by
  intro ctx s a s' hs hrun
  obtain ⟨hP, hs'⟩ := h hs hrun
  exact ⟨himp a hP, hs'⟩

theorem Always.and {P' : α → Prop} (h : p.Always I P) (h' : p.Always Anywhere P') :
    p.Always I fun a => P a ∧ P' a := by
  intro ctx s a s' hs hrun
  obtain ⟨hP, hs'⟩ := h hs hrun
  exact ⟨⟨hP, (h' trivial hrun).1⟩, hs'⟩

theorem always_true (p : Parse α) : p.Always Anywhere fun _ => True :=
  fun _ _ _ _ _ _ => ⟨trivial, trivial⟩

/-- What comes first does not matter if the rest yields as it should anyway. -/
theorem Always.of_rest (hf : ∀ a, (f a).Always Anywhere Q) : (p >>= f).Always Anywhere Q :=
  (always_true p).bind fun a _ => hf a

theorem always_pure {a : α} (h : P a) : (Pure.pure a : Parse α).Always I P := by
  rintro ctx s _ _ hs ⟨⟩
  exact ⟨h, hs⟩

theorem always_reject : (reject : Parse α).Always I P :=
  fun _ _ _ _ _ hrun => nomatch (show none = some _ from hrun)

theorem Always.map {g : α → β} (h : p.Always I P) (hg : ∀ a, P a → Q (g a)) :
    (g <$> p).Always I Q := by
  rw [← bind_pure_comp]
  exact h.bind fun a ha => always_pure (hg a ha)

theorem always_read : (read : Parse Context).Always I fun _ => True := by
  rintro ctx s _ _ hs ⟨⟩
  exact ⟨trivial, hs⟩

theorem always_get : (get : Parse State).Always I I := by
  rintro ctx s _ _ hs ⟨⟩
  exact ⟨hs, hs⟩

theorem always_modify {change : State → State} (h : ∀ s, I s → I (change s)) :
    (modify change : Parse Unit).Always I fun _ => True := by
  rintro ctx s _ _ hs ⟨⟩
  exact ⟨trivial, h s hs⟩

theorem always_loop {step : α → Parse (Option α)} {a : α}
    (hstep : ∀ a, P a → (step a).Always I fun o => ∀ a' ∈ o, P a') (h : P a) :
    (loop a step).Always I P := by
  have hloop : (loop a step).Ensures (fun s => P a ∧ I s) fun a s => P a ∧ I s := by
    refine ensures_loop a fun a => .of_and fun ha ctx s o s' hs hrun => ?_
    obtain ⟨ho, hs'⟩ := hstep a ha hs hrun
    cases o with
    | none => exact ⟨ha, hs'⟩
    | some a' => exact ⟨ho a' rfl, hs'⟩
  exact fun _ _ _ _ hs hrun => hloop ⟨h, hs⟩ hrun

theorem always_many {step : Parse (Option α)} (h : step.Always I fun o => ∀ a ∈ o, P a) :
    (many step).Always I fun l => ∀ a ∈ l, P a := by
  refine (always_loop (P := fun l => ∀ a ∈ l, P a) (fun acc hacc => ?_)
    (List.forall_mem_nil _)).bind fun l hl => always_pure fun a ha => hl a (List.mem_reverse.1 ha)
  refine h.bind fun o ho => always_pure ?_
  rintro _ hmap
  obtain ⟨a, ha, rfl⟩ := Option.map_eq_some_iff.1 hmap
  exact List.forall_mem_cons.2 ⟨ho a ha, hacc⟩

theorem always_mapM {l : List α} (h : ∀ a ∈ l, (f a).Always I Q) :
    (l.mapM f).Always I fun bs => ∀ b ∈ bs, Q b := by
  induction l with
  | nil => exact always_pure nofun
  | cons a l ih =>
    obtain ⟨ha, hl⟩ := List.forall_mem_cons.1 h
    rw [List.mapM_cons]
    exact ha.bind fun b hb => (ih hl).bind fun bs hbs =>
      always_pure (List.forall_mem_cons.2 ⟨hb, hbs⟩)

theorem always_node (kind : Kind) (start : Nat) (children : List Node) :
    (node kind start children).Always I fun n => n.kind = kind ∧ n.children = children :=
  (always_get.bind fun _ _ => always_pure trivial : lastStop.Always I fun _ => True).bind
    fun _ _ => always_pure ⟨rfl, rfl⟩

theorem always_leaf (kind : Kind) :
    (leaf kind).Always Anywhere fun n => n.kind = kind ∧ n.children = [] :=
  .of_rest fun _ => .of_rest fun _ => always_pure ⟨rfl, rfl⟩

end

/-- Whether the nodes in all results of a parser are sound, if it starts in a text; and it ends in
the text. -/
class Yields (text : List Char) {α : Type} [HasNodes α] (p : Parse α) : Prop where
  always : p.Always (State.IsIn text) (AllSound text)

/-- Whether what a reader reads ends where its text does. -/
class IsReader (lexer : Cursor → Lexeme) : Prop where
  isRead : ∀ c, (lexer c).IsRead c

instance {size : Nat} : IsReader (lex size) := ⟨isRead_lex size⟩
instance {size : Nat} : IsReader (lexTemplate size) :=
  ⟨fun c => (isLiteral_lexTemplate size c).isRead⟩
instance : IsReader lexRegex := ⟨fun c => (isLiteral_lexRegex c).isRead⟩
instance {signs : List (List Char)} : IsReader (lexSign signs) := ⟨isRead_lexSign signs⟩
instance : IsReader lexJsxChild := ⟨isRead_lexJsxChild⟩

section

variable {text : List Char} {α β : Type} [HasNodes α] [HasNodes β] {p : Parse α} {f : α → Parse β}

instance {a : α} [h : AllSound text a] : Yields text (Pure.pure a : Parse α) := ⟨always_pure h⟩

instance : Yields text (reject : Parse α) := ⟨always_reject⟩

/-- Nothing comes after a failure. -/
instance (priority := high) {α : Type} {f : α → Parse β} : Yields text (reject >>= f) :=
  ⟨(always_reject (P := fun _ => False)).bind fun _ h => h.elim⟩

theorem Yields.bind (h : Yields text p) (hf : ∀ a, AllSound text a → Yields text (f a)) :
    Yields text (p >>= f) :=
  ⟨h.always.bind fun a ha => (hf a ha).always⟩

/-- A step in front of the rest of a parser. -/
theorem Yields.seq [h : Yields text p] (hf : ∀ a, AllSound text a → Yields text (f a)) :
    Yields text (p >>= f) :=
  h.bind hf

/-- A step that may have no result. -/
theorem Yields.seq_option {p : Parse (Option α)} {f : Option α → Parse β} [h : Yields text p]
    (hnone : Yields text (f none)) (hsome : ∀ a, AllSound text a → Yields text (f (some a))) :
    Yields text (p >>= f) :=
  h.bind fun
    | none, _ => hnone
    | some a, ha => hsome a (allSound_some_iff.1 ha)

/-- A step whose result has a property besides. -/
theorem Yields.seq_with {P : α → Prop} [h : Yields text p] (hp : p.Always Anywhere P)
    (hf : ∀ a, AllSound text a → P a → Yields text (f a)) : Yields text (p >>= f) :=
  ⟨(h.always.and hp).bind fun a ha => (hf a ha.1 ha.2).always⟩

/-- A step whose result has another property. -/
theorem Yields.seq_of {α : Type} {P : α → Prop} {p : Parse α} {f : α → Parse β}
    (h : p.Always (State.IsIn text) P) (hf : ∀ a, P a → Yields text (f a)) :
    Yields text (p >>= f) :=
  ⟨h.bind fun a ha => (hf a ha).always⟩

instance [Yields text p] [hf : ∀ a : SoundResult text α, Yields text (f a.val)] :
    Yields text (p >>= f) :=
  .seq fun a ha => hf ⟨a, ha⟩

instance {g : α → β} [h : Yields text p] [hg : ∀ a : SoundResult text α, AllSound text (g a.val)] :
    Yields text (g <$> p) :=
  ⟨h.always.map fun a ha => hg ⟨a, ha⟩⟩

instance {c : Prop} [Decidable c] {p' : Parse α} [h : Yields text p] [h' : Yields text p'] :
    Yields text (if c then p else p') := by
  split <;> assumption

instance [h : Yields text p] : Yields text (attempt p) := by
  refine ⟨fun ctx s o s' hs hrun => ?_⟩
  unfold attempt at hrun
  split at hrun
  · next a t ha =>
    cases hrun
    obtain ⟨hsound, hs'⟩ := h.always hs ha
    exact ⟨allSound_some_iff.2 hsound, hs'⟩
  · cases hrun
    exact ⟨inferInstance, hs⟩

/-- What is tried out ahead takes nothing. -/
instance {α : Type} {otherwise : α} {p : Parse α} : Yields text (ahead otherwise p) := by
  refine ⟨fun ctx s a s' hs hrun => ?_⟩
  unfold ahead at hrun
  split at hrun
  all_goals
    cases hrun
    exact ⟨inferInstance, hs⟩

instance {change : Context → Context} [h : Yields text p] : Yields text (within change p) :=
  ⟨fun _ _ _ _ hs hrun => h.always hs (by exact hrun)⟩

instance [h : Yields text p] : Yields text (enclosed p) := by
  unfold enclosed
  infer_instance

theorem Yields.loop {a : α} {step : α → Parse (Option α)} (h : AllSound text a)
    (hstep : ∀ a, AllSound text a → Yields text (step a)) : Yields text (loop a step) :=
  ⟨always_loop (fun a ha => (hstep a ha).always.imp fun o ho a' heq => by
    obtain rfl := Option.mem_def.1 heq
    exact allSound_some_iff.1 ho) h⟩

instance {a : α} {step : α → Parse (Option α)} [h : AllSound text a]
    [hstep : ∀ a : SoundResult text α, Yields text (step a.val)] :
    Yields text (Parse.loop a step) :=
  .loop h fun a ha => hstep ⟨a, ha⟩

theorem Yields.many {step : Parse (Option α)} (h : Yields text step) : Yields text (many step) := by
  unfold Parse.many
  infer_instance

instance {step : Parse (Option α)} [h : Yields text step] : Yields text (Parse.many step) :=
  h.many

/-! ## Tokens -/

instance : Yields text (read : Parse Context) := ⟨always_read.imp fun _ _ => inferInstance⟩
instance : Yields text (get : Parse State) := ⟨always_get.imp fun _ _ => inferInstance⟩

theorem yields_modify {change : State → State} (h : ∀ s, s.IsIn text → (change s).IsIn text) :
    Yields text (modify change : Parse Unit) :=
  ⟨(always_modify h).imp fun _ _ => inferInstance⟩

instance : Yields text fault :=
  yields_modify fun _ h => ⟨h.place, h.token, h.start_eq, h.stop_eq⟩

instance {bad : Bool} : Yields text (faultIf bad) := by unfold faultIf; infer_instance
instance : Yields text token := by unfold token; infer_instance
instance : Yields text here := by unfold here; infer_instance
instance : Yields text lastStop := by unfold lastStop; infer_instance

theorem yields_modify_advance {size : Nat} {lexer : Cursor → Lexeme} (h : IsReader lexer) :
    Yields text (modify (State.advance size lexer) : Parse Unit) :=
  yields_modify fun _ hs => hs.advance h.isRead size

instance : Yields text advance := by
  unfold advance
  exact .seq fun _ _ => yields_modify_advance inferInstance

instance {lexer : Cursor → Lexeme} [h : IsReader lexer] : Yields text (advanceTight lexer) := by
  unfold advanceTight
  exact yields_modify fun s hs => hs.advanceTight (h.isRead s.after) false

instance {lexer : Cursor → Lexeme} [h : IsReader lexer] : Yields text (reread lexer) := by
  unfold reread
  exact yields_modify fun s hs => hs.reread (h.isRead s.here) s.token.newlineBefore

instance {sign : String} : Yields text (atSymbol sign) := by unfold atSymbol; infer_instance
instance {name : String} : Yields text (atWord name) := by unfold atWord; infer_instance
instance : Yields text atEnd := by unfold atEnd; infer_instance
instance : Yields text onNewLine := by unfold onNewLine; infer_instance
instance {sign : String} : Yields text (eat sign) := by unfold eat; infer_instance
instance {name : String} : Yields text (eatWord name) := by unfold eatWord; infer_instance
instance {sign : String} : Yields text (expect sign) := by unfold expect; infer_instance
instance {name : String} : Yields text (expectWord name) := by unfold expectWord; infer_instance
instance {p : Parse Bool} : Yields text (lookahead p) := by unfold lookahead; infer_instance
instance {test : Parse Bool} : Yields text (nextIs test) := by unfold nextIs; infer_instance
instance : Yields text canEndStatement := by unfold canEndStatement; infer_instance
instance : Yields text endStatement := by unfold endStatement; infer_instance

/-! ## Nodes -/

theorem Yields.separated {item : Parse Node} (h : Yields text item) (separator closer : String) :
    Yields text (separated separator closer item) := by
  unfold Parse.separated
  dsimp only
  infer_instance

instance {item : Parse Node} {separator closer : String} [h : Yields text item] :
    Yields text (Parse.separated separator closer item) :=
  h.separated separator closer

instance {kind : Kind} {start : Nat} {children : List Node} [hkind : Holds kind.isPlain]
    [h : AllSound text children] : Yields text (node kind start children) := by
  unfold node
  infer_instance

instance {kind : Kind} [hkind : Holds kind.isPlain] : Yields text (leaf kind) := by
  unfold leaf
  infer_instance

end

end Parse

end ComponentScan.Syntax
