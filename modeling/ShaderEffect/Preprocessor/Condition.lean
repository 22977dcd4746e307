import ShaderEffect.Constant
import ShaderEffect.Token.Kind

namespace ShaderEffect.Preprocessor

/-- An operator of a condition. -/
inductive Operator where
  | plus
  | unary (op : UnaryOp)
  | binary (op : BinaryOp)
  | parenthesis
deriving DecidableEq, Repr

namespace Operator

/-- How tightly an operator binds. Operators in front of their operand bind tightest. -/
def strength : Operator → Nat
  | binary op => op.strength
  | plus | unary _ => 12
  | parenthesis => 0

def isBinary : Operator → Bool
  | binary _ => true
  | _ => false

/-- Whether a token of this kind ends an operand, so that a sign behind it is a binary operator. -/
def endsOperand : Token.Kind → Bool
  | .intLiteral | .uintLiteral | .identifier | .parenClose => true
  | _ => false

/-- The operator that a token stands for behind a token of kind `previous`. -/
def ofKind? (previous kind : Token.Kind) : Option Operator :=
  match kind with
  | .exclaim => some (unary .not)
  | .tilde => some (unary .complement)
  | .plus => some (if endsOperand previous then binary .add else plus)
  | .minus => some (if endsOperand previous then binary .sub else unary .negate)
  | _ => (BinaryOp.ofKind? kind).map binary

end Operator

/-- An operand, or an operator behind its operands. -/
inductive Item where
  | value (v : UInt32)
  | operator (op : Operator)
deriving DecidableEq, Repr

/-- Why a condition has no value. -/
inductive ConditionError where
  | invalid | divisionByZero
deriving DecidableEq, Repr, Inhabited

def ConditionError.message : ConditionError → String
  | invalid => "invalid expression"
  | divisionByZero => "division by zero in preprocessor expression"

namespace Condition

/-- The operators that are waiting for an operand, the latest first, and the items in order. -/
structure Sorted where
  waiting : List Operator := []
  items : List Item := []
deriving Inhabited

namespace Sorted

def push (s : Sorted) (v : UInt32) : Sorted :=
  { s with items := s.items ++ [.value v] }

def emit (s : Sorted) (ops : List Operator) : Sorted :=
  { s with items := s.items ++ ops.map Item.operator }

/-- Whether a waiting operator has all its operands once `op` follows. -/
def yields (op waiting : Operator) : Bool :=
  waiting ≠ .parenthesis
    && if op.isBinary then op.strength ≤ waiting.strength else op.strength < waiting.strength

/-- Adds an operator, after those that bind at least as tightly. -/
def add (s : Sorted) (op : Operator) : Sorted :=
  let ready := s.waiting.takeWhile (yields op)
  { s.emit ready with waiting := op :: s.waiting.drop ready.length }

def openParenthesis (s : Sorted) : Sorted :=
  { s with waiting := .parenthesis :: s.waiting }

/-- Closes the innermost open parenthesis, if there is one. -/
def closeParenthesis? (s : Sorted) : Option Sorted :=
  let inner := s.waiting.takeWhile (· ≠ .parenthesis)
  match s.waiting.drop inner.length with
  | [] => none
  | _ :: outer => some { s.emit inner with waiting := outer }

/-- The items of the whole condition, unless a parenthesis is still open. -/
def finish? (s : Sorted) : Option (List Item) :=
  if s.waiting.contains .parenthesis then none else some (s.emit s.waiting).items

end Sorted

/-- The value of a binary operator. Both operands of `&&` and `||` are evaluated. -/
def binary (op : BinaryOp) (a b : UInt32) : Except ConditionError UInt32 :=
  match op with
  | .and => pure (truth (a ≠ 0 && b ≠ 0))
  | .or => pure (truth (a ≠ 0 || b ≠ 0))
  | .div | .rem =>
    if b = 0 then throw .divisionByZero else pure (Constant.binaryLane op (.scalar .int) a b)
  | _ => pure (Constant.binaryLane op (.scalar .int) a b)

/-- Applies an operator to the latest values. -/
def apply (op : Operator) (values : List UInt32) : Except ConditionError (List UInt32) :=
  match op, values with
  | .plus, v :: rest => pure (v :: rest)
  | .unary op, v :: rest => pure (Constant.unaryLane op (.scalar .int) v :: rest)
  | .binary op, b :: a :: rest => return (← binary op a b) :: rest
  | _, _ => throw .invalid

/-- Evaluates items on a stack of values. -/
def run : List Item → List UInt32 → Except ConditionError (List UInt32)
  | [], values => pure values
  | .value v :: rest, values => run rest (v :: values)
  | .operator op :: rest, values => do run rest (← apply op values)

/-- The value of the items, which have to leave exactly one. -/
def evaluate (items : List Item) : Except ConditionError UInt32 := do
  match ← run items [] with
  | [v] => pure v
  | _ => throw .invalid

end Condition
end ShaderEffect.Preprocessor
