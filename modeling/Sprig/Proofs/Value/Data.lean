import Sprig.Operator

/-! Data: the values other than functions. Operators take any values, and either give data or find
fault with their operands.
-/

namespace Sprig

def Value.isFunction : Value → Bool
  | function _ => true
  | nil | boolean _ | number _ | text _ | absent => false

/-- Whether a value is there and no function of the program. -/
def Value.isData : Value → Bool
  | nil | boolean _ | number _ | text _ => true
  | function _ | absent => false

/-- A datum is no function, by cases. -/
theorem Value.not_isFunction_of_isData {value : Value} (data : value.isData)
    : value.isFunction = false := by
  cases value with
  | function _ => simp [isData] at data
  | nil | boolean _ | number _ | text _ | absent => rfl

/-- A datum is there, by cases. -/
theorem Value.ne_absent_of_isData {value : Value} (data : value.isData) : value ≠ .absent := by
  rintro rfl
  simp [isData] at data

/-- A unary operator gives a datum, by cases on the operator. -/
theorem UnaryOperator.isData_apply {operator : UnaryOperator} {operand value : Value}
    (applied : operator.apply operand = .ok value)
    : value.isData := by
  cases operator with
  | not =>
      obtain rfl := Except.ok.inj applied
      rfl
  | negate =>
      cases operand with
      | number _ =>
          obtain rfl := Except.ok.inj applied
          rfl
      | nil | boolean _ | text _ | function _ | absent => simp [apply] at applied

/-- An operation on numbers gives a datum if it does for all numbers, since it is refused
elsewhere. -/
theorem BinaryOperator.isData_onNumbers {action : Action} {left right value : Value}
    {operation : Number → Number → Except Fault Value}
    (gives : ∀ first second, operation first second = .ok value → value.isData)
    (applied : onNumbers action operation left right = .ok value)
    : value.isData := by
  unfold onNumbers at applied
  split at applied
  · exact gives _ _ applied
  · simp at applied

/-- Arithmetic gives numbers. -/
theorem BinaryOperator.isData_arithmetic {action : Action} {left right value : Value}
    {operation : Number → Number → Number}
    (applied : arithmetic action operation left right = .ok value)
    : value.isData := by
  refine isData_onNumbers ?_ applied
  rintro first second ⟨⟩
  rfl

/-- Comparisons give truth values. -/
theorem BinaryOperator.isData_comparison {left right value : Value}
    {relation : Number → Number → Bool}
    (applied : comparison relation left right = .ok value)
    : value.isData := by
  refine isData_onNumbers ?_ applied
  rintro first second ⟨⟩
  rfl

/-- A binary operator gives a datum, by cases on the operator and on what it is applied to. -/
theorem BinaryOperator.isData_apply {operator : BinaryOperator} {left right value : Value}
    (applied : operator.apply left right = .ok value)
    : value.isData := by
  unfold apply at applied
  split at applied
  · obtain rfl := Except.ok.inj applied
    rfl
  · obtain rfl := Except.ok.inj applied
    rfl
  · obtain rfl := Except.ok.inj applied
    rfl
  · exact isData_arithmetic applied
  · exact isData_arithmetic applied
  · exact isData_arithmetic applied
  · refine isData_onNumbers (fun first second divided => ?_) applied
    split at divided
    · simp at divided
    · obtain rfl := Except.ok.inj divided
      rfl
  · exact isData_comparison applied
  · exact isData_comparison applied
  · exact isData_comparison applied
  · exact isData_comparison applied

-- Faults

/-- Whether a name is at fault. -/
def Fault.isUndefined : Fault → Bool
  | undefinedVariable _ => true
  | _ => false

/-- No unary operator finds a name undefined. -/
theorem UnaryOperator.isUndefined_apply {operator : UnaryOperator} {operand : Value} {fault : Fault}
    (failed : operator.apply operand = .error fault)
    : fault.isUndefined = false := by
  unfold apply at failed
  split at failed
  · simp at failed
  · simp at failed
  · obtain rfl := Except.error.inj failed
    rfl

/-- An operation on numbers finds no name undefined if it does so for no numbers, since elsewhere
it finds a wrong type. -/
theorem BinaryOperator.isUndefined_onNumbers {action : Action} {left right : Value} {fault : Fault}
    {operation : Number → Number → Except Fault Value}
    (fails : ∀ first second, operation first second = .error fault → fault.isUndefined = false)
    (failed : onNumbers action operation left right = .error fault)
    : fault.isUndefined = false := by
  unfold onNumbers at failed
  split at failed
  · exact fails _ _ failed
  · obtain rfl := Except.error.inj failed
    rfl

/-- No binary operator finds a name undefined, by cases on the operator; only division can fail on
numbers. -/
theorem BinaryOperator.isUndefined_apply {operator : BinaryOperator} {left right : Value}
    {fault : Fault} (failed : operator.apply left right = .error fault)
    : fault.isUndefined = false := by
  -- two numbers have a sum and the like, and can be compared
  have never {first second : Value} {action : Action} {operation : Number → Number → Value}
      (failed : onNumbers action (fun a b => .ok (operation a b)) first second = .error fault)
      : fault.isUndefined = false :=
    isUndefined_onNumbers (fun _ _ given => by simp at given) failed
  unfold apply at failed
  split at failed
  · simp at failed
  · simp at failed
  · simp at failed
  · exact never failed
  · exact never failed
  · exact never failed
  · refine isUndefined_onNumbers (fun first second divided => ?_) failed
    split at divided
    · obtain rfl := Except.error.inj divided
      rfl
    · simp at divided
  · exact never failed
  · exact never failed
  · exact never failed
  · exact never failed

namespace Token

variable {α : Type} {token : Token}

/-- Naming a token for a fault keeps every value. -/
theorem blame_eq_ok {result : Except Fault α} {value : α}
    (blamed : token.blame result = .ok value)
    : result = .ok value := by
  cases result with
  | ok found => exact congrArg Except.ok (Except.ok.inj blamed)
  | error fault => simp [blame] at blamed

/-- A blamed fault is the fault with the token. -/
theorem blame_eq_error {result : Except Fault α} {halt : Halt}
    (blamed : token.blame result = .error halt)
    : ∃ fault, result = .error fault ∧ halt = .failed ⟨fault, token⟩ := by
  cases result with
  | ok found => simp [blame] at blamed
  | error fault => exact ⟨fault, rfl, (Except.error.inj blamed).symm⟩

/-- Applying a token fails at a fault of the operator it stands for, or it stands for none. -/
theorem applyUnary_eq_error {operand : Value} {halt : Halt}
    (applied : token.applyUnary operand = .error halt)
    : (∃ operator fault, UnaryOperator.ofKind? token.kind = some operator
        ∧ operator.apply operand = .error fault ∧ halt = .failed ⟨fault, token⟩)
      ∨ (UnaryOperator.ofKind? token.kind = none ∧ halt = .unsupportedUnary token.lexeme) := by
  unfold applyUnary at applied
  split at applied
  · next operator isOperator =>
    obtain ⟨fault, failed, same⟩ := blame_eq_error applied
    exact .inl ⟨operator, fault, isOperator, failed, same⟩
  · next unknown => exact .inr ⟨unknown, (Except.error.inj applied).symm⟩

@[inherit_doc applyUnary_eq_error]
theorem applyBinary_eq_error {left right : Value} {halt : Halt}
    (applied : token.applyBinary left right = .error halt)
    : (∃ operator fault, BinaryOperator.ofKind? token.kind = some operator
        ∧ operator.apply left right = .error fault ∧ halt = .failed ⟨fault, token⟩)
      ∨ (BinaryOperator.ofKind? token.kind = none ∧ halt = .unsupportedBinary token.lexeme) := by
  unfold applyBinary at applied
  split at applied
  · next operator isOperator =>
    obtain ⟨fault, failed, same⟩ := blame_eq_error applied
    exact .inl ⟨operator, fault, isOperator, failed, same⟩
  · next unknown => exact .inr ⟨unknown, (Except.error.inj applied).symm⟩

/-- What a unary sign gives is a datum. -/
theorem isData_applyUnary {operand value : Value} (applied : token.applyUnary operand = .ok value)
    : value.isData := by
  unfold applyUnary at applied
  split at applied
  · exact UnaryOperator.isData_apply (blame_eq_ok applied)
  · simp at applied

/-- What a binary sign gives is a datum. -/
theorem isData_applyBinary {left right value : Value}
    (applied : token.applyBinary left right = .ok value)
    : value.isData := by
  unfold applyBinary at applied
  split at applied
  · exact BinaryOperator.isData_apply (blame_eq_ok applied)
  · simp at applied

end Token

end Sprig
