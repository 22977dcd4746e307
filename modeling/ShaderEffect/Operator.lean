import ShaderEffect.Token.Kind

namespace ShaderEffect

inductive UnaryOp where
  | negate | complement | not
deriving DecidableEq, Repr

inductive BinaryOp where
  | add | sub | mul | div | rem
  | bitAnd | bitOr | bitXor | shiftLeft | shiftRight
  | less | lessEqual | greater | greaterEqual | equal | notEqual
  | and | or
deriving DecidableEq, Repr

namespace UnaryOp

def ofKind? : Token.Kind → Option UnaryOp
  | .minus => some negate
  | .tilde => some complement
  | .exclaim => some not
  | _ => none

end UnaryOp

namespace BinaryOp

def ofKind? : Token.Kind → Option BinaryOp
  | .plus => some add
  | .minus => some sub
  | .star => some mul
  | .slash => some div
  | .percent => some rem
  | .ampersand => some bitAnd
  | .pipe => some bitOr
  | .caret => some bitXor
  | .lessLess => some shiftLeft
  | .greaterGreater => some shiftRight
  | .less => some less
  | .lessEqual => some lessEqual
  | .greater => some greater
  | .greaterEqual => some greaterEqual
  | .equalEqual => some equal
  | .exclaimEqual => some notEqual
  | .ampersandAmpersand => some and
  | .pipePipe => some or
  | _ => none

/-- How tightly an operator binds. The conditional operator binds with strength 1. -/
def strength : BinaryOp → Nat
  | or => 2
  | and => 3
  | bitOr => 4
  | bitXor => 5
  | bitAnd => 6
  | equal | notEqual => 7
  | less | greater | lessEqual | greaterEqual => 8
  | shiftLeft | shiftRight => 9
  | add | sub => 10
  | mul | div | rem => 11

/-- Whether the operator joins truth values. -/
def isLogical : BinaryOp → Bool
  | and | or => true
  | _ => false

/-- Whether the operator orders its operands. -/
def isOrder : BinaryOp → Bool
  | less | lessEqual | greater | greaterEqual => true
  | _ => false

/-- Whether the operator tests its operands for equality. -/
def isEquality : BinaryOp → Bool
  | equal | notEqual => true
  | _ => false

/-- Whether the result is a truth value made from operands of any type. -/
def isComparison (op : BinaryOp) : Bool :=
  op.isOrder || op.isEquality

/-- Whether the operator works on single bits. -/
def isBitwise : BinaryOp → Bool
  | bitAnd | bitOr | bitXor => true
  | _ => false

/-- The spelling of the operator. -/
def symbol : BinaryOp → String
  | add => "+" | sub => "-" | mul => "*" | div => "/" | rem => "%"
  | bitAnd => "&" | bitOr => "|" | bitXor => "^" | shiftLeft => "<<" | shiftRight => ">>"
  | less => "<" | lessEqual => "<=" | greater => ">" | greaterEqual => ">="
  | equal => "==" | notEqual => "!=" | and => "&&" | or => "||"

end BinaryOp
end ShaderEffect
