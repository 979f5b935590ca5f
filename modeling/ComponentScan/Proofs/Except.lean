/-!
# Results

When the combination of steps that may fail yields a result, with which error it fails (`error?`),
and when two such steps agree: both fail, or both have results that are related (`Agree`).
-/

namespace ComponentScan

variable {ε ε' α β : Type}

theorem ok_bind_iff {x : Except ε α} {f : α → Except ε β} {b : β} :
    (x >>= f) = .ok b ↔ ∃ a, x = .ok a ∧ f a = .ok b := by
  cases x with
  | error e => exact ⟨nofun, fun ⟨_, h, _⟩ => nomatch h⟩
  | ok a => exact ⟨fun h => ⟨a, rfl, h⟩, fun ⟨_, rfl, h⟩ => h⟩

theorem ok_pure_iff {a b : α} : (pure a : Except ε α) = .ok b ↔ a = b :=
  Except.ok.injEq a b ▸ Iff.rfl

theorem ok_map_iff {x : Except ε α} {f : α → β} {b : β} :
    x.map f = .ok b ↔ ∃ a, x = .ok a ∧ f a = b := by
  cases x with
  | error e => exact ⟨nofun, fun ⟨_, h, _⟩ => nomatch h⟩
  | ok a => exact ⟨fun h => ⟨a, rfl, Except.ok.inj h⟩, fun ⟨_, rfl, h⟩ => congrArg _ h⟩

theorem ok_functor_map_iff {x : Except ε α} {f : α → β} {b : β} :
    f <$> x = .ok b ↔ ∃ a, x = .ok a ∧ f a = b :=
  ok_map_iff

theorem ok_mapError_iff {x : Except ε α} {f : ε → ε'} {a : α} :
    x.mapError f = .ok a ↔ x = .ok a := by
  cases x with
  | error e => exact ⟨nofun, nofun⟩
  | ok b => exact ⟨fun h => congrArg _ (Except.ok.inj h), fun h => congrArg _ (Except.ok.inj h)⟩

theorem error_map_iff {x : Except ε α} {f : α → β} {e : ε} :
    x.map f = .error e ↔ x = .error e := by
  cases x with
  | error e' =>
    exact ⟨fun h => congrArg _ (Except.error.inj h), fun h => congrArg _ (Except.error.inj h)⟩
  | ok a => exact ⟨nofun, nofun⟩

theorem map_eq_map_iff {x : Except ε α} {y : Except ε β} {γ : Type} {f : α → γ} {g : β → γ} :
    x.map f = y.map g ↔ (∃ e, x = .error e ∧ y = .error e) ∨
      ∃ a b, x = .ok a ∧ y = .ok b ∧ f a = g b := by
  cases x with
  | error e =>
    cases y with
    | error e' => exact ⟨fun h => .inl ⟨e, rfl, (congrArg _ (Except.error.inj h)).symm⟩,
        fun h => by
          obtain ⟨_, h, h'⟩ | ⟨_, _, h, -⟩ := h
          · exact congrArg _ ((Except.error.inj h).trans (Except.error.inj h').symm)
          · cases h⟩
    | ok b => exact ⟨nofun, fun h => by obtain ⟨_, -, h⟩ | ⟨_, _, h, -⟩ := h <;> cases h⟩
  | ok a =>
    cases y with
    | error e => exact ⟨nofun, fun h => by obtain ⟨_, h, -⟩ | ⟨_, _, -, h, -⟩ := h <;> cases h⟩
    | ok b => exact ⟨fun h => .inr ⟨a, b, rfl, rfl, Except.ok.inj h⟩, fun h => by
        obtain ⟨_, h, -⟩ | ⟨_, _, h, h', heq⟩ := h
        · cases h
        · cases h
          cases h'
          exact congrArg _ heq⟩

theorem ok_of_toOption {x : Except ε α} {a : α} (h : x.toOption = some a) : x = .ok a := by
  cases x with
  | error e => cases h
  | ok b => exact congrArg _ (Option.some.inj h)

theorem eq_ok_getD [Inhabited α] {x : Except ε α} (h : x.toOption.isSome = true) :
    x = .ok (x.toOption.getD default) := by
  cases x with
  | error e => cases h
  | ok a => rfl

/-! ## Steps that fail -/

/-- The error of a step that fails. -/
def error? : Except ε α → Option ε
  | .error e => some e
  | .ok _ => none

theorem error?_map (x : Except ε α) (f : α → β) : error? (x.map f) = error? x := by
  cases x <;> rfl

/-- The first of two steps that fails gives the error. -/
theorem error?_bind {x : Except ε α} {f : α → Except ε β} {o : Option ε}
    (h : ∀ a, x = .ok a → error? (f a) = o) : error? (x >>= f) = (error? x).or o := by
  cases x with
  | error e => rfl
  | ok a => exact h a rfl

theorem error?_bind_pure (x : Except ε α) (f : α → β) :
    error? (x >>= fun a => pure (f a)) = error? x := by
  cases x <;> rfl

/-! ## Steps that agree -/

/-- Both steps fail, or their results are related. -/
inductive Agree (R : α → β → Prop) : Except ε α → Except ε' β → Prop
  | error (e : ε) (e' : ε') : Agree R (.error e) (.error e')
  | ok {a : α} {b : β} (h : R a b) : Agree R (.ok a) (.ok b)

namespace Agree

variable {R : α → β → Prop} {x : Except ε α} {y : Except ε' β}

theorem exists_of_ok {a : α} (h : Agree R (.ok a : Except ε α) y) : ∃ b, y = .ok b ∧ R a b := by
  cases h with
  | ok h => exact ⟨_, rfl, h⟩

theorem exists_of_ok_right {b : β} (h : Agree R x (.ok b : Except ε' β)) :
    ∃ a, x = .ok a ∧ R a b := by
  cases h with
  | ok h => exact ⟨_, rfl, h⟩

theorem bind {γ δ : Type} {S : γ → δ → Prop} {f : α → Except ε γ} {g : β → Except ε' δ}
    (h : Agree R x y) (hf : ∀ a b, R a b → Agree S (f a) (g b)) : Agree S (x >>= f) (y >>= g) := by
  cases h with
  | error e e' => exact .error e e'
  | ok h => exact hf _ _ h

theorem map {γ δ : Type} {S : γ → δ → Prop} {f : α → γ} {g : β → δ} (h : Agree R x y)
    (hf : ∀ a b, R a b → S (f a) (g b)) : Agree S (x.map f) (y.map g) := by
  cases h with
  | error e e' => exact .error e e'
  | ok h => exact .ok (hf _ _ h)

end Agree

end ComponentScan
