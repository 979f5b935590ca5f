import ComponentScan.Proofs.Scan.Exports
import ComponentScan.Proofs.Scan.Failures
import ComponentScan.Proofs.Session.Insertion

/-!
# Identities of nodes

The search for the identity of a node goes down from name bearer to name bearer until a node has a
symbol or has no name bearer. It is never cut short, since it ends after two steps: the name bearer
of a list of variables is a declarator, and all others are identifiers, which have none. So a node
has an identity if it is named by an identifier with a symbol, and otherwise the error is that of the
node at which the search ends (`Session.identify_isExact`).
-/

namespace ComponentScan

open Syntax

/-! ## Names of nodes -/

namespace Syntax.Kind

/-- A kind of identifiers that can have symbols. -/
def isIdentifier : Kind → Bool
  | bindingIdentifier _ | identifierReference _ => true
  | _ => false

/-- A kind of nodes that can have an identifier as their name. -/
def isDeclaration : Kind → Bool
  | function true | classNode true => true
  | k => k.isTypeDeclaration

end Syntax.Kind

/-- Whether an identifier names a node: itself, what it declares, or the list of variables of which
it is the first one. -/
inductive NamedBy : Node → Node → Prop
  | identifier {n : Node} (hkind : n.kind.isIdentifier = true) : NamedBy n n
  | declaration {n ident : Node} (hkind : n.kind.isDeclaration = true) (hident : n.id? = some ident) :
    NamedBy n ident
  | declarator {n ident : Node} (hkind : n.kind = .variableDeclarator)
    (hident : n.binding? = some ident) (hbound : ident.kind.isBindingIdentifier = true) :
    NamedBy n ident
  | list {n d ident : Node} {binder : Binder} (hkind : n.kind = .variableDeclaration binder)
    (hfirst : n.children.head? = some d) (hbound : NamedBy d ident) : NamedBy n ident

section

variable {n c d ident : Node}

theorem mem_children_of_nameBearer? (h : nameBearer? n = some c) : c ∈ n.children := by
  unfold nameBearer? at h
  split at h
  · exact Node.mem_of_child? h
  · exact Node.mem_of_child? h
  · exact List.mem_of_mem_head? h
  · exact List.mem_of_mem_head? (Option.filter_eq_some_iff.1 h).1
  · exact Node.mem_of_child? h
  · exact Node.mem_of_child? h
  · exact Node.mem_of_child? h
  · cases h

theorem nameBearer?_of_isIdentifier (h : n.kind.isIdentifier = true) : nameBearer? n = none := by
  unfold Kind.isIdentifier at h
  unfold nameBearer?
  split at h
  · next hkind => rw [hkind]
  · next hkind => rw [hkind]
  · cases h

theorem nameBearer?_of_isDeclaration (h : n.kind.isDeclaration = true) :
    nameBearer? n = n.id? := by
  unfold Kind.isDeclaration Kind.isTypeDeclaration at h
  unfold nameBearer?
  split at h
  · next hkind => rw [hkind]
  · next hkind => rw [hkind]
  · split at h
    · next hkind => rw [hkind]
    · next hkind => rw [hkind]
    · next hkind => rw [hkind]
    · cases h

theorem nameBearer?_of_declarator (h : n.kind = .variableDeclarator) :
    nameBearer? n = n.binding?.filter (·.kind.isBindingIdentifier) := by
  unfold nameBearer?
  rw [h]

theorem nameBearer?_of_list {binder : Binder} (h : n.kind = .variableDeclaration binder) :
    nameBearer? n = n.children.head? := by
  unfold nameBearer?
  rw [h]

/-- A node with a name bearer is a declaration, a declarator or a list of variables. -/
theorem kind_of_nameBearer? (h : nameBearer? n = some c) :
    n.kind.isDeclaration = true ∨ n.kind = .variableDeclarator ∨
      ∃ binder, n.kind = .variableDeclaration binder := by
  unfold nameBearer? at h
  split at h
  · next hkind => exact .inl (hkind ▸ rfl)
  · next hkind => exact .inl (hkind ▸ rfl)
  · next binder hkind => exact .inr (.inr ⟨binder, hkind⟩)
  · next hkind => exact .inr (.inl hkind)
  · next hkind => exact .inl (hkind ▸ rfl)
  · next hkind => exact .inl (hkind ▸ rfl)
  · next hkind => exact .inl (hkind ▸ rfl)
  · cases h

theorem isIdentifier_of_isBindingIdentifier {k : Kind} (h : k.isBindingIdentifier = true) :
    k.isIdentifier = true := by
  unfold Kind.isBindingIdentifier at h
  split at h
  · rfl
  · cases h

/-- The name bearer of a declaration or declarator is an identifier. -/
theorem isBindingIdentifier_of_nameBearer? (h : nameBearer? n = some c)
    (hkind : n.kind.isDeclaration = true ∨ n.kind = .variableDeclarator) :
    c.kind.isBindingIdentifier = true := by
  rcases hkind with hkind | hkind
  · rw [nameBearer?_of_isDeclaration hkind] at h
    exact isBindingIdentifier_of_id? h
  · rw [nameBearer?_of_declarator hkind] at h
    exact (Option.filter_eq_some_iff.1 h).2

/-- That of a list of variables is a declarator. -/
theorem kind_of_nameBearer?_of_list (hfits : n.Fits) (h : nameBearer? n = some c) {binder : Binder}
    (hkind : n.kind = .variableDeclaration binder) : c.kind = .variableDeclarator :=
  (hfits.isVariable_iff (mem_children_of_nameBearer? h)).2 ⟨binder, hkind⟩

/-- An identifier is named by itself only. -/
theorem NamedBy.eq_of_isIdentifier (h : NamedBy n ident) (hkind : n.kind.isIdentifier = true) :
    ident = n := by
  cases h with
  | identifier => rfl
  | declaration hdeclaration =>
    unfold Kind.isIdentifier at hkind
    split at hkind
    · next heq => rw [heq] at hdeclaration; cases hdeclaration
    · next heq => rw [heq] at hdeclaration; cases hdeclaration
    · cases hkind
  | declarator heq => rw [heq] at hkind; cases hkind
  | list heq => rw [heq] at hkind; cases hkind

end

/-! ## The search for a symbol -/

namespace Session

variable {s : Session} {n c m ident : Node} {steps : Nat} {r : Except ScanError Identity}
  {symbol : Scope.Symbol}

/-- Whether the search for a symbol goes from a node down to another in a number of steps. -/
inductive Descends (s : Session) : Nat → Node → Node → Prop
  | stay (n : Node) : Descends s 0 n n
  | down {steps : Nat} {n c m : Node} (hsymbol : s.symbolAt? n = none)
    (hbearer : nameBearer? n = some c) (hchild : c ∈ n.children) (h : Descends s steps c m) :
    Descends s (steps + 1) n m

/-- Whether the search ends at a node, and what it finds there. -/
inductive EndsAt (s : Session) (n : Node) : Except ScanError Identity → Prop
  | symbol {symbol : Scope.Symbol} (h : s.symbolAt? n = some symbol) :
    EndsAt s n (.ok (s.identityOf symbol))
  | nameless (hsymbol : s.symbolAt? n = none) (hbearer : nameBearer? n = none) :
    EndsAt s n (.error (namelessError s n))

/-- Where a search ends, it has the same result with any number of steps that is not too small. -/
theorem Descends.identifyWithin_eq (h : s.Descends steps n m) (hend : s.EndsAt m r) {limit : Nat}
    (hlimit : steps ≤ limit) : s.identifyWithin limit n = r := by
  induction h generalizing limit with
  | stay n =>
    unfold identifyWithin
    cases hend with
    | symbol h => rw [h]
    | nameless hsymbol hbearer =>
      rw [hsymbol, hbearer]
      cases limit <;> rfl
  | down hsymbol hbearer _ _ ih =>
    obtain ⟨limit, rfl⟩ : ∃ limit', limit = limit' + 1 := ⟨limit - 1, by omega⟩
    unfold identifyWithin
    rw [hsymbol, hbearer]
    exact ih hend (Nat.le_of_succ_le_succ hlimit)

theorem exists_endsAt (h : nameBearer? n = none) : ∃ r, s.EndsAt n r := by
  cases hsymbol : s.symbolAt? n with
  | some symbol => exact ⟨_, .symbol hsymbol⟩
  | none => exact ⟨_, .nameless hsymbol h⟩

/-- A search from a node takes one step more than those from its name bearer. -/
theorem exists_descends_succ {limit : Nat} (h : ∀ c, nameBearer? n = some c →
      ∃ steps ≤ limit, ∃ m r, s.Descends steps c m ∧ s.EndsAt m r) :
    ∃ steps ≤ limit + 1, ∃ m r, s.Descends steps n m ∧ s.EndsAt m r := by
  cases hsymbol : s.symbolAt? n with
  | some symbol => exact ⟨0, Nat.zero_le _, n, _, .stay n, .symbol hsymbol⟩
  | none =>
    cases hbearer : nameBearer? n with
    | none => exact ⟨0, Nat.zero_le _, n, _, .stay n, .nameless hsymbol hbearer⟩
    | some c =>
      obtain ⟨steps, hsteps, m, r, hdown, hend⟩ := h c hbearer
      exact ⟨steps + 1, Nat.succ_le_succ hsteps, m, r,
        .down hsymbol hbearer (mem_children_of_nameBearer? hbearer) hdown, hend⟩

/-- Every search ends after two steps at most. -/
theorem exists_descends (s : Session) (hfits : n.Fits) :
    ∃ steps ≤ 2, ∃ m r, s.Descends steps n m ∧ s.EndsAt m r := by
  have hidentifier {c : Node} (h : c.kind.isBindingIdentifier = true) :
      ∃ r, s.EndsAt c r :=
    exists_endsAt (nameBearer?_of_isIdentifier (isIdentifier_of_isBindingIdentifier h))
  have hdeclarator {c : Node} (h : c.kind.isDeclaration = true ∨ c.kind = .variableDeclarator) :
      ∃ steps ≤ 1, ∃ m r, s.Descends steps c m ∧ s.EndsAt m r := by
    refine exists_descends_succ fun ident hident => ?_
    obtain ⟨r, hend⟩ := hidentifier (isBindingIdentifier_of_nameBearer? hident h)
    exact ⟨0, le_rfl, ident, r, .stay ident, hend⟩
  refine exists_descends_succ fun c hc => ?_
  obtain hkind | hkind | ⟨binder, hkind⟩ := kind_of_nameBearer? hc
  · obtain ⟨r, hend⟩ := hidentifier (isBindingIdentifier_of_nameBearer? hc (.inl hkind))
    exact ⟨0, Nat.zero_le _, c, r, .stay c, hend⟩
  · obtain ⟨r, hend⟩ := hidentifier (isBindingIdentifier_of_nameBearer? hc (.inr hkind))
    exact ⟨0, Nat.zero_le _, c, r, .stay c, hend⟩
  · exact hdeclarator (.inr (kind_of_nameBearer?_of_list hfits hc hkind))

theorem Descends.identify_eq (h : s.Descends steps n m) (hend : s.EndsAt m r) (hfits : n.Fits) :
    s.identify n = r := by
  obtain ⟨steps', hsteps', m', r', hdown, hend'⟩ := exists_descends s hfits
  have hlong := hdown.identifyWithin_eq hend' (Nat.le_max_right steps steps')
  rw [h.identifyWithin_eq hend (Nat.le_max_left steps steps')] at hlong
  rw [hlong]
  exact hdown.identifyWithin_eq hend' hsteps'

/-! ## What the search finds -/

theorem isIdentifier_of_symbolAt? (h : s.symbolAt? n = some symbol) :
    n.kind.isIdentifier = true := by
  unfold symbolAt? at h
  split at h
  · next hkind => rw [hkind, Kind.isIdentifier]
  · next hkind => rw [hkind, Kind.isIdentifier]
  · cases h

theorem symbolAt?_of_nameBearer? (h : nameBearer? n = some c) : s.symbolAt? n = none := by
  cases hsymbol : s.symbolAt? n with
  | none => rfl
  | some symbol =>
    rw [nameBearer?_of_isIdentifier (isIdentifier_of_symbolAt? hsymbol)] at h
    cases h

theorem exists_descends_of_namedBy (s : Session) (h : NamedBy n ident) :
    ∃ steps, s.Descends steps n ident := by
  have hdown {n c : Node} (hbearer : nameBearer? n = some c)
      (h : ∃ steps, s.Descends steps c ident) : ∃ steps, s.Descends steps n ident := by
    obtain ⟨steps, h⟩ := h
    exact ⟨steps + 1, .down (symbolAt?_of_nameBearer? hbearer) hbearer
      (mem_children_of_nameBearer? hbearer) h⟩
  induction h with
  | identifier => exact ⟨0, .stay _⟩
  | declaration hkind hident =>
    exact hdown ((nameBearer?_of_isDeclaration hkind).trans hident) ⟨0, .stay _⟩
  | declarator hkind hident hbound =>
    refine hdown ((nameBearer?_of_declarator hkind).trans ?_) ⟨0, .stay _⟩
    rw [hident, Option.filter_some, if_pos hbound]
  | list hkind hfirst _ ih => exact hdown ((nameBearer?_of_list hkind).trans hfirst) (ih hdown)

theorem Descends.namedBy (h : s.Descends steps n m) (hsymbol : s.symbolAt? m = some symbol) :
    NamedBy n m := by
  induction h with
  | stay n => exact .identifier (isIdentifier_of_symbolAt? hsymbol)
  | @down _ n c m _ hbearer _ _ ih =>
    have hnamed := ih hsymbol
    obtain hkind | hkind | ⟨binder, hkind⟩ := kind_of_nameBearer? hbearer
    · have hident := isBindingIdentifier_of_nameBearer? hbearer (.inl hkind)
      obtain rfl := hnamed.eq_of_isIdentifier (isIdentifier_of_isBindingIdentifier hident)
      rw [nameBearer?_of_isDeclaration hkind] at hbearer
      exact .declaration hkind hbearer
    · have hident := isBindingIdentifier_of_nameBearer? hbearer (.inr hkind)
      obtain rfl := hnamed.eq_of_isIdentifier (isIdentifier_of_isBindingIdentifier hident)
      rw [nameBearer?_of_declarator hkind] at hbearer
      exact .declarator hkind (Option.filter_eq_some_iff.1 hbearer).1 hident
    · rw [nameBearer?_of_list hkind] at hbearer
      exact .list hkind hbearer hnamed

/-- A node has the identity of the symbol of the identifier that names it. -/
theorem identify_eq_ok_iff (hfits : n.Fits) {id : Identity} :
    s.identify n = .ok id ↔ ∃ ident symbol, NamedBy n ident ∧ s.symbolAt? ident = some symbol ∧
      id = s.identityOf symbol := by
  constructor
  · intro h
    obtain ⟨steps, -, m, r, hdown, hend⟩ := exists_descends s hfits
    rw [hdown.identify_eq hend hfits] at h
    subst h
    cases hend with
    | symbol hsymbol => exact ⟨m, _, hdown.namedBy hsymbol, hsymbol, rfl⟩
  · rintro ⟨ident, symbol, hnamed, hsymbol, rfl⟩
    obtain ⟨steps, hdown⟩ := exists_descends_of_namedBy s hnamed
    exact hdown.identify_eq (.symbol hsymbol) hfits

end Session

/-! ## Nodes with identities -/

/-- Whether a variable declarator binds an identifier. -/
def bindsIdentifier (d : Node) : Bool :=
  d.binding?.any (·.kind.isBindingIdentifier)

/-- Whether a node has an identity in a file whose bound names have symbols. -/
def Session.isIdentifiable (s : Session) (n : Node) : Bool :=
  match n.kind with
  | .bindingIdentifier _ | .tsInterfaceDeclaration | .tsTypeAliasDeclaration
  | .tsEnumDeclaration => true
  | .identifierReference _ => (s.symbolAt? n).isSome
  | .function true | .classNode true => n.id?.isSome
  | .variableDeclarator => bindsIdentifier n
  | .variableDeclaration _ => n.children.head?.any bindsIdentifier
  | _ => false

/-- The node at which the search from a node without an identity ends: for a list of variables, its
first declarator. -/
def stoppedAt (n : Node) : Node :=
  match n.kind with
  | .variableDeclaration _ => n.children.head?.getD n
  | _ => n

section

variable {s : Session} {n d m ident : Node} {steps : Nat} {symbol : Scope.Symbol}

theorem bindsIdentifier_of_namedBy (hkind : n.kind = .variableDeclarator)
    (h : NamedBy n ident) : bindsIdentifier n = true := by
  cases h with
  | identifier hident => rw [hkind] at hident; cases hident
  | declaration hdeclaration => rw [hkind] at hdeclaration; cases hdeclaration
  | declarator _ hident hbound =>
    unfold bindsIdentifier
    rw [hident]
    exact hbound
  | list hlist => cases hkind.symm.trans hlist

theorem namedBy_of_bindsIdentifier (hkind : n.kind = .variableDeclarator)
    (h : bindsIdentifier n = true) :
    ∃ ident ∈ n.children, ident.kind.isBindingIdentifier = true ∧ NamedBy n ident := by
  obtain ⟨ident, hident, hbound⟩ := (Option.any_eq_true _ _).1 h
  exact ⟨ident, List.mem_of_mem_head? hident, hbound, .declarator hkind hident hbound⟩

/-- A node that an identifier with a symbol names is one of those with identities. -/
theorem Session.isIdentifiable_of_namedBy (hfits : n.Fits) (h : NamedBy n ident)
    (hsymbol : s.symbolAt? ident = some symbol) : s.isIdentifiable n = true := by
  unfold isIdentifiable
  cases h with
  | identifier hkind =>
    unfold Kind.isIdentifier at hkind
    split at hkind
    · next heq => rw [heq]
    · next heq => rw [heq, hsymbol]; rfl
    · cases hkind
  | declaration hkind hident =>
    unfold Kind.isDeclaration Kind.isTypeDeclaration at hkind
    split at hkind
    · next heq => rw [heq, hident]; rfl
    · next heq => rw [heq, hident]; rfl
    · split at hkind
      · next heq => rw [heq]
      · next heq => rw [heq]
      · next heq => rw [heq]
      · cases hkind
  | declarator hkind hident hbound =>
    rw [hkind]
    exact bindsIdentifier_of_namedBy hkind (.declarator hkind hident hbound)
  | @list _ d _ binder hkind hfirst hbound =>
    have hd : d.kind = .variableDeclarator :=
      (hfits.isVariable_iff (List.mem_of_mem_head? hfirst)).2 ⟨binder, hkind⟩
    rw [hkind, hfirst]
    exact bindsIdentifier_of_namedBy hd hbound

theorem id?_of_head? (h : n.children.head? = some ident)
    (hident : ident.kind.isBindingIdentifier = true) : n.id? = some ident := by
  obtain ⟨rest, hchildren⟩ := List.head?_eq_some_iff.1 h
  rw [Node.id?, Node.child?, hchildren]
  exact List.find?_cons_of_pos hident

/-- A node with an identity that is no reference is named by an identifier that is bound in it. -/
theorem Session.exists_namedBy_of_isIdentifiable (hfits : n.Fits)
    (h : s.isIdentifiable n = true) :
    (∃ ident ∈ n.nodes, ident.kind.isBindingIdentifier = true ∧ NamedBy n ident) ∨
      n.kind.isIdentifier = true ∧ (s.symbolAt? n).isSome = true := by
  have hnamed (hkind : n.kind.isDeclaration = true) (hident : n.id?.isSome = true) :
      ∃ ident ∈ n.nodes, ident.kind.isBindingIdentifier = true ∧ NamedBy n ident := by
    obtain ⟨ident, hident⟩ := Option.isSome_iff_exists.1 hident
    exact ⟨ident, Node.mem_nodes_of_child n.self_mem_nodes (Node.mem_of_child? hident),
      isBindingIdentifier_of_id? hident, .declaration hkind hident⟩
  have htype (hkind : n.kind.isTypeDeclaration = true) : n.id?.isSome = true := by
    obtain ⟨ident, hhead, hident⟩ := hfits.named hkind
    rw [id?_of_head? hhead hident]
    rfl
  unfold isIdentifiable at h
  split at h
  · next hkind =>
    exact .inl ⟨n, n.self_mem_nodes, hkind ▸ rfl, .identifier (hkind ▸ rfl)⟩
  · next hkind => exact .inl (hnamed (hkind ▸ rfl) (htype (hkind ▸ rfl)))
  · next hkind => exact .inl (hnamed (hkind ▸ rfl) (htype (hkind ▸ rfl)))
  · next hkind => exact .inl (hnamed (hkind ▸ rfl) (htype (hkind ▸ rfl)))
  · next hkind => exact .inr ⟨hkind ▸ rfl, h⟩
  · next hkind => exact .inl (hnamed (hkind ▸ rfl) h)
  · next hkind => exact .inl (hnamed (hkind ▸ rfl) h)
  · next hkind =>
    obtain ⟨ident, hident, hbound, hname⟩ := namedBy_of_bindsIdentifier hkind h
    exact .inl ⟨ident, Node.mem_nodes_of_child n.self_mem_nodes hident, hbound, hname⟩
  · next binder hkind =>
    obtain ⟨d, hfirst, hd⟩ := (Option.any_eq_true _ _).1 h
    have hchild : d ∈ n.children := List.mem_of_mem_head? hfirst
    obtain ⟨ident, hident, hbound, hname⟩ :=
      namedBy_of_bindsIdentifier ((hfits.isVariable_iff hchild).2 ⟨binder, hkind⟩) hd
    exact .inl ⟨ident, Node.mem_nodes_of_child (Node.nodes_subset_of_child hchild d.self_mem_nodes)
      hident, hbound, .list hkind hfirst hname⟩
  · cases h

/-- If all names that are bound have symbols, these are all nodes with identities. -/
theorem Session.exists_identify_eq_ok_iff (hsymbols : s.BindsSymbols) (hn : n ∈ s.root.nodes)
    (hfits : n.Fits) : (∃ id, s.identify n = .ok id) ↔ s.isIdentifiable n = true := by
  constructor
  · rintro ⟨id, h⟩
    obtain ⟨ident, symbol, hnamed, hsymbol, -⟩ := (identify_eq_ok_iff hfits).1 h
    exact isIdentifiable_of_namedBy hfits hnamed hsymbol
  · intro h
    obtain ⟨ident, hident, hbound, hnamed⟩ | ⟨hkind, hsymbol⟩ :=
      exists_namedBy_of_isIdentifiable hfits h
    · obtain ⟨symbol, hsymbol⟩ := Option.isSome_iff_exists.1
        (hsymbols ident (Node.nodes_subset hn hident) hbound)
      exact ⟨_, (identify_eq_ok_iff hfits).2 ⟨ident, symbol, hnamed, hsymbol, rfl⟩⟩
    · obtain ⟨symbol, hsymbol⟩ := Option.isSome_iff_exists.1 hsymbol
      exact ⟨_, (identify_eq_ok_iff hfits).2 ⟨n, symbol, .identifier hkind, hsymbol, rfl⟩⟩

theorem Session.Descends.eq_of_isBindingIdentifier (h : s.Descends steps n m)
    (hkind : n.kind.isBindingIdentifier = true) : m = n := by
  cases h with
  | stay => rfl
  | down _ hbearer =>
    rw [nameBearer?_of_isIdentifier (isIdentifier_of_isBindingIdentifier hkind)] at hbearer
    cases hbearer

/-- A search that finds no symbol ends at the node itself or at the first of its variables. -/
theorem Session.Descends.eq_stoppedAt (hsymbols : s.BindsSymbols) (hn : n ∈ s.root.nodes)
    (hfits : n.Fits) (h : s.Descends steps n m) (hsymbol : s.symbolAt? m = none)
    (hbearer : nameBearer? m = none) : m = stoppedAt n := by
  have hbound {c : Node} {steps : Nat} (hc : c ∈ s.root.nodes) (h : s.Descends steps c m) :
      c.kind.isBindingIdentifier = false := by
    rw [Bool.eq_false_iff]
    intro hkind
    obtain rfl := h.eq_of_isBindingIdentifier hkind
    have hsome := hsymbols m hc hkind
    rw [hsymbol] at hsome
    cases hsome
  cases h with
  | stay =>
    unfold stoppedAt
    split
    · next hkind =>
      rw [nameBearer?_of_list hkind] at hbearer
      rw [hbearer, Option.getD_none]
    · rfl
  | @down _ _ c _ _ hc hchild hdown =>
    have hroot := Node.mem_nodes_of_child hn hchild
    obtain hkind | hkind | ⟨binder, hkind⟩ := kind_of_nameBearer? hc
    · cases (hbound hroot hdown).symm.trans (isBindingIdentifier_of_nameBearer? hc (.inl hkind))
    · cases (hbound hroot hdown).symm.trans (isBindingIdentifier_of_nameBearer? hc (.inr hkind))
    · have hfirst := hc
      rw [nameBearer?_of_list hkind] at hfirst
      have hstop : stoppedAt n = c := by
        unfold stoppedAt
        rw [hkind, hfirst, Option.getD_some]
      rw [hstop]
      have hdeclarator := kind_of_nameBearer?_of_list hfits hc hkind
      cases hdown with
      | stay => rfl
      | down _ hident hchild' hdown' =>
        cases (hbound (Node.mem_nodes_of_child hroot hchild') hdown').symm.trans
          (isBindingIdentifier_of_nameBearer? hident (.inr hdeclarator))

theorem Session.identify_of_not_isIdentifiable (hsymbols : s.BindsSymbols)
    (hn : n ∈ s.root.nodes) (hfits : n.Fits) (h : ¬ s.isIdentifiable n = true) :
    s.identify n = .error (namelessError s (stoppedAt n)) := by
  obtain ⟨steps, -, m, r, hdown, hend⟩ := exists_descends s hfits
  rw [hdown.identify_eq hend hfits]
  cases hend with
  | symbol hsymbol =>
    exact absurd (isIdentifiable_of_namedBy hfits (hdown.namedBy hsymbol) hsymbol) h
  | nameless hsymbol hbearer => rw [hdown.eq_stoppedAt hsymbols hn hfits hsymbol hbearer]

end

/-- The search for a symbol ends after two steps down at most. It finds the symbol of the identifier
that names the node, and there is one just for identifiers that are bound or resolved, declarations
with names, and variables without patterns; otherwise the error is that of the node at which the
search ends. Nodes have the same identity if and only if their symbols have the same name. -/
theorem Session.identify_isExact {path source : String} {s : Session}
    (hs : Session.ofSource path source = .ok s) (hsymbols : s.BindsSymbols) {n : Node}
    (hn : n ∈ s.root.nodes) :
    (∃ steps ≤ 2, ∃ m, s.Descends steps n m ∧ s.EndsAt m (s.identify n)) ∧
    (∀ id, s.identify n = .ok id ↔ ∃ ident symbol, NamedBy n ident ∧
      s.symbolAt? ident = some symbol ∧ id = s!"{path}:{symbol.name}") ∧
    ((∃ id, s.identify n = .ok id) ↔ s.isIdentifiable n = true) ∧
    (¬ s.isIdentifiable n = true → s.identify n = .error (namelessError s (stoppedAt n))) ∧
    ∀ n' ∈ s.root.nodes, ∀ ident ident' symbol symbol',
      NamedBy n ident → s.symbolAt? ident = some symbol →
      NamedBy n' ident' → s.symbolAt? ident' = some symbol' →
      (s.identify n = s.identify n' ↔ symbol.name = symbol'.name) := by
  have hfits := Session.fits hs
  have hidentity (symbol : Scope.Symbol) : s.identityOf symbol = s!"{path}:{symbol.name}" := by
    obtain ⟨p, -, rfl⟩ := Session.ofSource_eq_ok_iff.1 hs
    rfl
  refine ⟨?_, fun id => ?_, exists_identify_eq_ok_iff hsymbols hn (hfits n hn),
    identify_of_not_isIdentifiable hsymbols hn (hfits n hn), ?_⟩
  · obtain ⟨steps, hsteps, m, r, hdown, hend⟩ := exists_descends s (hfits n hn)
    exact ⟨steps, hsteps, m, hdown, hdown.identify_eq hend (hfits n hn) ▸ hend⟩
  · simp only [← hidentity]
    exact identify_eq_ok_iff (hfits n hn)
  · intro n' hn' ident ident' symbol symbol' hnamed hsymbol hnamed' hsymbol'
    have hok := (identify_eq_ok_iff (hfits n hn)).2 ⟨ident, symbol, hnamed, hsymbol, rfl⟩
    have hok' := (identify_eq_ok_iff (hfits n' hn')).2 ⟨ident', symbol', hnamed', hsymbol', rfl⟩
    rw [hok, hok', Except.ok.injEq]
    exact ⟨identityNamed_inj, fun hname => congrArg s.identityNamed hname⟩

def nested : String :=
  "const \x7b theme \x7d = settings, size = 1;\n" ++
    "function List() \x7b return <List size=\x7bsize\x7d/>; \x7d\n"

def nestedSession : Session :=
  ((Session.ofSource "a.tsx" nested).toOption).getD default

/-- The error for the list of variables is that of the pattern in it; a function and a tag that refers
to it have the same identity. -/
theorem Session.identify_isExact_nested :
    Session.ofSource "a.tsx" nested = .ok nestedSession ∧ nestedSession.BindsSymbols ∧
    (∃ list ∈ nestedSession.root.nodes, list.kind = .variableDeclaration .const ∧
      nestedSession.identify list = .error (.unresolvableIdentity "VariableDeclarator(<destructure>)"
        "\x7b theme \x7d = settings")) ∧
    ∃ function ∈ nestedSession.root.nodes, function.kind = .function true ∧
      ∃ tag ∈ nestedSession.root.nodes, tag.kind = .identifierReference "List" ∧
        nestedSession.identify function = nestedSession.identify tag := by
  have htext : nested.toList = _ := toList_append_of String.toList_ofList String.toList_ofList
  obtain ⟨hsession, hsymbols, ⟨list, hlist, hlistKind, hnameless, herror⟩,
      ⟨function, hfunction, hfunctionKind, ident, -, hident, tag, htag, htagKind, hsome, hname⟩⟩ :
      (Session.ofSource "a.tsx" nested).toOption.isSome = true ∧ nestedSession.BindsSymbols ∧
      (∃ list ∈ nestedSession.root.nodes, list.kind = .variableDeclaration .const ∧
        ¬ nestedSession.isIdentifiable list = true ∧
        namelessError nestedSession (stoppedAt list) =
          .unresolvableIdentity "VariableDeclarator(<destructure>)" "\x7b theme \x7d = settings") ∧
      ∃ function ∈ nestedSession.root.nodes, function.kind = .function true ∧
        ∃ ident ∈ function.children, function.id? = some ident ∧
          ∃ tag ∈ nestedSession.root.nodes, tag.kind = .identifierReference "List" ∧
            (nestedSession.symbolAt? ident).isSome = true ∧
            (nestedSession.symbolAt? ident).map (·.name) =
              (nestedSession.symbolAt? tag).map (·.name) := by
    rw [nestedSession, Session.ofSource, htext]
    decide +kernel
  have hs : Session.ofSource "a.tsx" nested = .ok nestedSession := eq_ok_getD hsession
  refine ⟨hs, hsymbols, ⟨list, hlist, hlistKind, ?_⟩, function, hfunction, hfunctionKind, tag, htag,
    htagKind, ?_⟩
  · obtain ⟨-, -, -, hfails, -⟩ := identify_isExact hs hsymbols hlist
    rw [hfails hnameless, herror]
  · obtain ⟨-, -, -, -, hagree⟩ := identify_isExact hs hsymbols hfunction
    obtain ⟨symbol, hsymbol⟩ := Option.isSome_iff_exists.1 hsome
    rw [hsymbol, Option.map_some] at hname
    obtain ⟨symbol', hsymbol', hsame⟩ := Option.map_eq_some_iff.1 hname.symm
    exact (hagree tag htag ident tag symbol symbol' (.declaration (hfunctionKind ▸ rfl) hident)
      hsymbol (.identifier (htagKind ▸ rfl)) hsymbol').2 hsame.symm

end ComponentScan
