namespace ShaderEffect

/-- The languages a module can be generated in. -/
inductive Target where
  | spirv | glsl | hlsl
deriving DecidableEq, Repr, Inhabited

/-- A reason to give up a compilation without a result. -/
inductive Fault where
  /-- A lane, row or element beyond the end of its table was selected. -/
  | outOfRange
  /-- A local variable was needed while no function was open. -/
  | noFunction
  /-- A type that the target cannot express. -/
  | inexpressibleType (target : Target) (description : String)
  /-- A sampler of a texture that was never defined. -/
  | unknownTexture (sampler texture : String)
  /-- A loop or nesting went deeper than its input allows. -/
  | exhausted
deriving DecidableEq, Repr, Inhabited

namespace Fault

/-- The text of a fault that has one. -/
def message? : Fault → Option String
  | .inexpressibleType .spirv t => some ("spirv: cannot convert type " ++ t)
  | .inexpressibleType .glsl t => some ("glsl: cannot write type " ++ t)
  | .inexpressibleType .hlsl t => some ("hlsl: cannot write type " ++ t)
  | .unknownTexture s t => some ("hlsl: sampler " ++ s ++ " refers to unknown texture " ++ t)
  | .outOfRange | .noFunction | .exhausted => none

end Fault

/-- Repeats a step as long as it asks for another round. More than `rounds` rounds are a fault. -/
@[specialize] def repeatWhile {m : Type → Type} [Monad m] [MonadExceptOf Fault m]
    (step : m Bool) :
    (rounds : Nat) → m Unit
  | 0 => throw .exhausted
  | rounds + 1 => do
    if ← step then repeatWhile step rounds

/-- Repeats a step that carries a value along, until it gives a result. -/
@[specialize] def repeatWith {m : Type → Type} [Monad m] [MonadExceptOf Fault m] {α β : Type}
    (step : α → m (α ⊕ β)) : (rounds : Nat) → α → m β
  | 0, _ => throw .exhausted
  | rounds + 1, a => do
    match ← step a with
    | .inl a => repeatWith step rounds a
    | .inr b => pure b

/-- A list of keys and values in which the first entry of a key counts. -/
abbrev Table (κ α : Type) := List (κ × α)

namespace Table

variable {κ α : Type} [BEq κ]

/-- The table in which a key has the given value. A key that is present keeps its place. -/
def set (key : κ) (value : α) : Table κ α → Table κ α
  | [] => [(key, value)]
  | (k, v) :: rest => if k == key then (k, value) :: rest else (k, v) :: set key value rest

/-- The value of a key. -/
def get? (t : Table κ α) (key : κ) : Option α :=
  t.lookup key

end Table

end ShaderEffect
