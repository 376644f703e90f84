import CoroutineVM.Store.Execution

/-!
# Instructions that make one value of two

Sums, differences, comparisons and concatenations take the two top values away and push what they
make of them, or they fail because nothing is made of values of these kinds. They differ in what
they make and in nothing else (`Operator`), so `execute_of_operator` speaks for all of them.
-/

namespace CoroutineVM

/-- What is made of two values, or the words for why there is nothing. It is a value that code could
also have as a literal. -/
abbrev Operator := Value → Value → Except String Constant

namespace Operator

/-- A sum or a difference. -/
def arithmetic (verb : String) (operation : Float → Float → Float) : Operator
  | .number x, .number y => .ok (.number (operation x y))
  | first, second => .error s!"attempt to {verb} a {first.typeName} with a {second.typeName}"

/-- Whether the first value is the lesser one. -/
def less : Operator
  | .number x, .number y => .ok (.boolean (decide (x < y)))
  | .string s, .string t => .ok (.boolean (decide (s < t)))
  | first, second => .error s!"attempt to compare {first.typeName} with {second.typeName}"

/-- Whether the values are the same. -/
def equal : Operator := fun first second => .ok (.boolean (first.same second))

/-- The texts of the values, one after the other. -/
def concat : Operator := fun first second =>
  if !Store.isText first then .error s!"attempt to concatenate a {first.typeName} value"
  else if !Store.isText second then .error s!"attempt to concatenate a {second.typeName} value"
  else .ok (.string (first.display ++ second.display))

end Operator

/-- The operator of an instruction that has one. -/
def Instruction.operator? : Instruction → Option Operator
  | .add => some (.arithmetic "add" (· + ·))
  | .subtract => some (.arithmetic "subtract" (· - ·))
  | .less => some .less
  | .equal => some .equal
  | .concat => some .concat
  | _ => none

/-- Takes the two top values away and pushes what is made of them. -/
def Processor.combine (operator : Operator) : Attempt Processor Unit := do
  let operands ← Processor.popOperands
  match operator operands.1 operands.2 with
  | .ok constant => Processor.push constant.value
  | .error message => Attempt.fail (.runtime message)

namespace Store

open Processor Attempt

variable {id : CoroutineId}

/-- Work on two operands is work by an operator if it does the same with all of them: the source
writes each operator out, and here they are brought into one form. -/
theorem onProcessor_combine {operator : Operator} {work : Value × Value → Attempt Processor Unit}
    (same : ∀ first second, work (first, second) = match operator first second with
      | .ok constant => push constant.value
      | .error message => fail (.runtime message)) :
    onProcessor id (popOperands >>= work) = onProcessor id (combine operator) :=
  congrArg (onProcessor id) (congrArg (popOperands >>= ·) (funext fun (first, second) =>
    same first second))

/-- A sum or a difference needs two numbers. Its two values are looked at one after the other, so
that the cases are those of both kinds together. -/
theorem arithmetic_eq (verb : String) (operation : Float → Float → Float) :
    arithmetic id verb operation = onProcessor id (combine (.arithmetic verb operation)) := by
  refine onProcessor_combine fun first second => ?_
  cases first with
  | number x => cases second <;> rfl
  | _ => rfl

/-- Numbers are compared with numbers and texts with texts; anything else is refused. -/
theorem compare_eq : compare id = onProcessor id (combine .less) := by
  refine onProcessor_combine fun first second => ?_
  cases first with
  | number x => cases second <;> rfl
  | string s => cases second <;> rfl
  | _ => rfl

/-- A concatenation looks at the first operand before the second one, which decides what the error
names. -/
theorem concat_eq : concat id = onProcessor id (combine .concat) := by
  refine onProcessor_combine fun first second => ?_
  simp only [Operator.concat]
  cases isText first <;> cases isText second <;> rfl

/-- An instruction with an operator lets it work on the stack and goes on. So whatever holds of
these five instructions is shown once. -/
theorem execute_of_operator {instruction : Instruction} {operator : Operator}
    (works : instruction.operator? = some operator) (next : Nat) :
    execute id instruction next = (do onProcessor id (combine operator); return .goto next) := by
  cases instruction with
  | add | subtract =>
    obtain rfl := Option.some.inj works
    rw [← arithmetic_eq]
    rfl
  | less =>
    obtain rfl := Option.some.inj works
    rw [← compare_eq]
    rfl
  | equal =>
    obtain rfl := Option.some.inj works
    rfl
  | concat =>
    obtain rfl := Option.some.inj works
    rw [← concat_eq]
    rfl
  | _ => cases works

end Store

end CoroutineVM
