import ComponentScan.Proofs.Syntax.Yields

/-!
# Rules without nodes

Tests of the tokens ahead, and rules that take tokens which become no nodes, leave the state in the
text.
-/

namespace ComponentScan.Syntax

set_option synthInstance.maxSize 200000

open Parse

variable {text : List Char}

/-! ## Words and signs -/

instance : Yields text atIdentifier := by unfold atIdentifier; infer_instance
instance : Yields text atName := by unfold atName; infer_instance

instance : Yields text atString := by
  unfold atString
  refine .seq fun t _ => ?_
  split <;> infer_instance

instance : Yields text atNumber := by
  unfold atNumber
  refine .seq fun t _ => ?_
  split <;> infer_instance

instance {words : List String} : Yields text (atWordOf words) := by
  unfold atWordOf
  refine .seq fun t _ => ?_
  split <;> infer_instance

instance {signs : List String} : Yields text (atSymbolOf signs) := by
  unfold atSymbolOf
  refine .seq fun t _ => ?_
  split <;> infer_instance

instance : Yields text resumeTemplate := by unfold resumeTemplate; infer_instance
instance : Yields text expectArrow := by unfold expectArrow; infer_instance

instance : Yields text splitAngle := by
  unfold splitAngle
  refine .seq fun t _ => ?_
  split <;> infer_instance

instance {sign : String} {nested : Bool} : Yields text (closeJsx sign nested) := by
  unfold closeJsx; infer_instance

/-! ## Modifiers -/

instance : Yields text canFollowModifier := by
  unfold canFollowModifier
  refine .seq fun t _ => ?_
  split <;> infer_instance

instance {modifiers : List String} : Yields text (atModifier modifiers) := by
  unfold atModifier
  refine .seq fun t _ => ?_
  split <;> infer_instance

instance : Yields text skipParameterModifiers := by unfold skipParameterModifiers; infer_instance

instance : Yields text memberModifiers := by
  unfold memberModifiers
  infer_instance

instance {word : String} : Yields text (atAccessorWord word) := by
  unfold atAccessorWord; infer_instance

instance {f : Node} : Yields text (checkGetter f) := by unfold checkGetter; infer_instance

instance {f : Node} : Yields text (checkSetter f) := by
  unfold checkSetter; dsimp only; infer_instance

/-! ## Types -/

instance {g : Rules} : Yields text (atParametersOfType g) := by
  unfold atParametersOfType; infer_instance

instance {g : Rules} : Yields text (atFunctionType g) := by
  unfold atFunctionType
  refine .seq fun t _ => ?_
  split <;> infer_instance

instance : Yields text endMember := by unfold endMember; infer_instance
instance : Yields text atIndexSignature := by unfold atIndexSignature; infer_instance
instance : Yields text atMappedType := by unfold atMappedType; infer_instance
instance : Yields text atTupleLabel := by unfold atTupleLabel; infer_instance

instance : Yields text atTypeStart := by
  unfold atTypeStart
  refine .seq fun t _ => ?_
  split <;> infer_instance

/-! ## Expressions -/

instance : Yields text atBinaryOperator := by unfold atBinaryOperator; infer_instance

instance : Yields text atExpressionStart := by
  unfold atExpressionStart
  refine .seq fun t _ => ?_
  split <;> infer_instance

instance : Yields text canFollowTypeArguments := by
  unfold canFollowTypeArguments
  refine .seq fun t _ => ?_
  split <;> infer_instance

instance : Yields text atOptionalAccess := by unfold atOptionalAccess; infer_instance
instance : Yields text operandFollows := by unfold operandFollows; infer_instance
instance : Yields text atAwait := by unfold atAwait; infer_instance
instance : Yields text atYield := by unfold atYield; infer_instance

/-- That a text is a module is noted in the state, which stays where it is. -/
theorem yields_setModule : Yields text (modify fun s => { s with isModule := true } : Parse Unit) :=
  yields_modify fun _ h => ⟨h.place, h.token, h.start_eq, h.stop_eq⟩

instance : Yields text noteAwait := by
  have := @yields_setModule text
  unfold noteAwait
  infer_instance

instance {above : Nat} : Yields text (binaryOperator? above) := by
  have hrest : Yields text (do
      let t ← token
      let ctx ← read
      match binaryPrecedence? t with
      | some precedence =>
        let binds := if precedence = 12 then above ≤ precedence else above < precedence
        match t.kind with
        | .word name =>
          let stands := match name with
            | "in" => ctx.allowIn
            | "as" | "satisfies" => !t.newlineBefore && ctx.dialect.typescript
            | _ => true
          return if binds && stands then some (name, precedence) else none
        | .symbol sign => return if binds then some (sign, precedence) else none
        | _ => return none
      | none => return none) := by
    refine .seq fun t _ => .seq fun ctx _ => ?_
    split
    · dsimp only
      split <;> infer_instance
    · infer_instance
  unfold binaryOperator?
  refine .seq fun angle _ => ?_
  dsimp only
  split
  · exact .seq fun _ _ => hrest
  · exact hrest

instance : Yields text atAsyncFunction := by unfold atAsyncFunction; infer_instance
instance : Yields text guessArrow := by unfold guessArrow; infer_instance
instance : Yields text atAsyncSimpleArrow := by unfold atAsyncSimpleArrow; infer_instance
instance : Yields text isLoneWord := by unfold isLoneWord; infer_instance

/-! ## Statements -/

instance : Yields text atUsing := by unfold atUsing; infer_instance
instance : Yields text atAwaitUsing := by unfold atAwaitUsing; infer_instance
instance : Yields text atDeclaration := by unfold atDeclaration; infer_instance
instance : Yields text atLoopVariables := by unfold atLoopVariables; infer_instance

instance {n : Node} : Yields text (checkLoopVariables n) := by
  unfold checkLoopVariables
  split <;> infer_instance

instance {place : StatementPlace} : Yields text (atLet place) := by unfold atLet; infer_instance
instance : Yields text atTypeDeclaration := by unfold atTypeDeclaration; infer_instance
instance : Yields text atImportStatement := by unfold atImportStatement; infer_instance

instance : Yields text noteModule := by
  have := @yields_setModule text
  unfold noteModule
  infer_instance

instance : Yields text atExportedName := by unfold atExportedName; infer_instance
instance : Yields text atImportedTypes := by unfold atImportedTypes; infer_instance
instance : Yields text atPhase := by unfold atPhase; infer_instance

end ComponentScan.Syntax
