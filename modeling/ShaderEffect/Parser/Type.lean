import ShaderEffect.Parser.State

namespace ShaderEffect.Parser

/-- The types that are a single keyword. -/
def keywordType? : Token.Kind → Option Ty
  | .voidType => some { base := .void }
  | .stringType => some { base := .string }
  | .textureType => some { base := .texture }
  | .samplerType => some { base := .sampler }
  | .bool1 => some (.matrix .bool 1 1)
  | .bool2 => some (.matrix .bool 2 1)
  | .bool3 => some (.matrix .bool 3 1)
  | .bool4 => some (.matrix .bool 4 1)
  | .bool2x2 => some (.matrix .bool 2 2)
  | .bool3x3 => some (.matrix .bool 3 3)
  | .bool4x4 => some (.matrix .bool 4 4)
  | .int1 => some (.matrix .int 1 1)
  | .int2 => some (.matrix .int 2 1)
  | .int3 => some (.matrix .int 3 1)
  | .int4 => some (.matrix .int 4 1)
  | .int2x2 => some (.matrix .int 2 2)
  | .int3x3 => some (.matrix .int 3 3)
  | .int4x4 => some (.matrix .int 4 4)
  | .uint1 => some (.matrix .uint 1 1)
  | .uint2 => some (.matrix .uint 2 1)
  | .uint3 => some (.matrix .uint 3 1)
  | .uint4 => some (.matrix .uint 4 1)
  | .uint2x2 => some (.matrix .uint 2 2)
  | .uint3x3 => some (.matrix .uint 3 3)
  | .uint4x4 => some (.matrix .uint 4 4)
  | .float1 => some (.matrix .float 1 1)
  | .float2 => some (.matrix .float 2 1)
  | .float3 => some (.matrix .float 3 1)
  | .float4 => some (.matrix .float 4 1)
  | .float2x2 => some (.matrix .float 2 2)
  | .float3x3 => some (.matrix .float 3 3)
  | .float4x4 => some (.matrix .float 4 4)
  | _ => none

/-- Reads a comma and a dimension of a vector or matrix. -/
def expectDimension (code : Int) (message : String) : ReadM (Option UInt32) := do
  if !(← expect .comma) then return none
  if !(← expect .intLiteral) then return none
  let t ← currentToken
  if t.signed < 1 || t.signed > 4 then
    error t.location code message
    return none
  return some t.word

/-- Reads the element type of a vector or matrix, given how a type is read. -/
def expectElement (inner : ReadM (Option Ty)) (noun : String) (code : Int) : ReadM (Option Ty) := do
  match ← inner with
  | none =>
    let t ← nextToken
    error t.location 3000 (unexpectedFor t (noun ++ " element type"))
    return none
  | some t =>
    if t.isScalar then return some t
    error (← currentToken).location code (noun ++ " element type must be a scalar type")
    return none

/-- Reads what follows `vector`. -/
def acceptVector (inner : ReadM (Option Ty)) : ReadM (Option Ty) := do
  if !(← accept .less) then return some (.vector .float 4)
  let some element ← expectElement inner "vector" 3122 | return none
  let some rows ← expectDimension 3052 "vector dimension must be between 1 and 4" | return none
  if ← expect .greater then return some { element with rows } else return none

/-- Reads what follows `matrix`. -/
def acceptMatrix (inner : ReadM (Option Ty)) : ReadM (Option Ty) := do
  if !(← accept .less) then return some (.matrix .float 4 4)
  let some element ← expectElement inner "matrix" 3123 | return none
  let message := "matrix dimensions must be between 1 and 4"
  let some rows ← expectDimension 3053 message | return none
  let some cols ← expectDimension 3053 message | return none
  if ← expect .greater then return some { element with rows, cols } else return none

/-- Reads a type name of nesting depth at most `depth`. A name is only a type if it is that of a
structure; any other is given back. -/
def acceptTypeNested : (depth : Nat) → ReadM (Option Ty)
  | 0 => throw .exhausted
  | depth + 1 => do
    if (← peek .identifier) || (← peek .colonColon) then
      save
      if let some n ← acceptSymbol then
        if n.symbol.kind = .struct then
          return some { base := .struct, definition := n.symbol.id }
      restore
      return none
    if ← accept .vectorType then return ← acceptVector (acceptTypeNested depth)
    if ← accept .matrixType then return ← acceptMatrix (acceptTypeNested depth)
    match keywordType? (← nextToken).kind with
    | none => return none
    | some t =>
      consume
      return some t

/-- Reads a type name. -/
def acceptType : ReadM (Option Ty) := do
  acceptTypeNested (← get).rounds

/-- The modifiers, in the order in which they are looked for. -/
def qualifierKeywords : List (Token.Kind × Qualifiers) :=
  [(.externWord, .external), (.staticWord, .static), (.uniformWord, .uniform),
    (.volatileWord, .volatile), (.preciseWord, .precise), (.inWord, .input), (.outWord, .output),
    (.inoutWord, .inout), (.constWord, .const), (.linearWord, .linear),
    (.noperspectiveWord, .noperspective), (.centroidWord, .centroid),
    (.nointerpolationWord, .nointerpolation)]

/-- Reads any number of modifiers. -/
def acceptQualifiers : ReadM Qualifiers :=
  readLoop (fun all => do
    let found ← qualifierKeywords.foldlM (fun found (kind, q) => do
      if ← accept kind then return found ||| q else return found) (0 : Qualifiers)
    if found = 0 then return .inr all
    if all &&& found = found then
      warning (← currentToken).location 3048 "duplicate usages specified"
    return .inl (all ||| found)) (0 : Qualifiers)

/-- Reads a type with modifiers in front of it. -/
def parseType : ReadM (Option Ty) := do
  let qualifiers ← acceptQualifiers
  let some t ← acceptType | return none
  let t := { t with qualifiers }
  if t.isIntegral && (t.has .centroid || t.has .noperspective) then
    error (← currentToken).location 4576
      "signature specifies invalid interpolation mode for integer component type"
    return none
  if t.has .centroid && !t.has .noperspective then return some (t.withQualifiers .linear)
  return some t

end ShaderEffect.Parser
