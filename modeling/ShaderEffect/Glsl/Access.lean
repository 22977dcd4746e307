import ShaderEffect.Glsl.Language

namespace ShaderEffect.Glsl

open Source

/-- A chain of accesses as far as it was written. -/
structure Path where
  text : String
  /-- The elements selected from a matrix, numbered row by row, four to a row. -/
  elements : Option (List Int) := none
  /-- The matrix that elements are selected from. -/
  matrixType : Ty := {}
  type : Ty

namespace Path

/-- One element of a matrix. -/
def element (p : Path) (lane : Int) : String :=
  let row := lane.toNat / 4
  let col := lane.toNat % 4
  if p.matrixType.isRow then p.text ++ "." ++ String.singleton (componentLetter col)
  else p.text ++ s!"[{row}][{col}]"

/-- The path as a value. -/
def flush (p : Path) : Path :=
  match p.elements with
  | none => p
  | some [lane] => { p with text := p.element lane, elements := none }
  | some lanes =>
    { p with
      text := callText (vectorName p.type.base (UInt32.ofNat lanes.length)) (lanes.map p.element)
      elements := none }

/-- The lanes of a swizzle that are in use. -/
def usedLanes (lanes : List Int) : List Int :=
  (lanes.take 4).takeWhile (· ≥ 0)

/-- A lane by its number. -/
def laneAt (lanes : List Int) (i : Int) : Except Fault Int :=
  match lanes[i.toNat]? with
  | some lane => pure lane
  | none => throw .outOfRange

/-- The text of an access to a value that has been written. -/
def applyText (text : String) (a : Access) : SourceM Language String := do
  match a with
  | .cast _ target => return callText (← constructorName target) [text]
  | .member source _ i =>
    match (((← get).members? source).getD [])[i.toNat]? with
    | some m => return text ++ "." ++ escapeName m.name
    | none => throw .outOfRange
  | .dynamicIndex source _ i =>
    if source.isRow then return text
    return text ++ "[int(" ++ (← nameOf i) ++ ")]"
  | .constantIndex source _ i =>
    if source.isRow then return text
    if source.isVector && !source.isArray then
      return text ++ "." ++ String.singleton (componentLetter i.toNat)
    return text ++ "[" ++ toString i.toNat ++ "]"
  | .swizzle source target lanes =>
    if source.rows = 1 && source.cols = 1 && !source.isArray then
      return callText (← constructorName target) [text]
    return text ++ "." ++ swizzleText (usedLanes lanes)

/-- Applies an access to elements that were selected, if it selects from them. -/
def reselect? (elements : List Int) : Access → Option (Except Fault (List Int))
  | .constantIndex _ _ i => some (return [← laneAt elements i.toNat])
  | .swizzle _ _ lanes => some ((usedLanes lanes).mapM (laneAt elements))
  | .cast _ _ | .member _ _ _ | .dynamicIndex _ _ _ => none

/-- Applies an access. -/
def apply (p : Path) (a : Access) : SourceM Language Path := do
  match p.elements.bind fun elements => reselect? elements a with
  | some selected => return { p with elements := some (← selected), type := a.target }
  | none =>
    let p := p.flush
    match a with
    | .swizzle source target lanes =>
      if source.isMatrix then
        return { p with elements := some (usedLanes lanes), matrixType := source, type := target }
      return { p with text := ← applyText p.text a, type := target }
    | _ => return { p with text := ← applyText p.text a, type := a.target }

end Path

/-- The path of an expression. -/
def pathOf (e : Expression) : SourceM Language Path := do
  e.chain.foldlM Path.apply { text := ← nameOf e.base, type := e.type }

/-- Whether an expression reads or writes elements of a matrix that is not of floats,
but kept as such. -/
def isIntegerElement (e : Expression) : Bool :=
  match e.chain with
  | [] => false
  | a :: _ => a.source.isMatrix && !a.source.isFloat && !e.type.isFloat

/-- The value of an expression. -/
def accessText (e : Expression) : SourceM Language String := do
  let p := (← pathOf e).flush
  if isIntegerElement e then return callText (← typeName .plain e.type) [p.text]
  return p.text

/-- Writes a value to an expression. -/
def storeValue (e : Expression) (value : Id) : SourceM Language Unit := do
  writeLocation e.location
  let p ← pathOf e
  let value ← nameOf value
  let value :=
    if isIntegerElement e then
      callText (numericName { e.type with base := .float }) [value] else value
  let assign (target value : String) : SourceM Language Unit :=
    writeText (target ++ " = " ++ value ++ ";")
  match p.elements with
  | none => assign p.text value
  | some [lane] => assign (p.element lane) value
  | some lanes =>
    lanes.zipIdx.forM fun (lane, i) =>
      assign (p.element lane) (value ++ "." ++ String.singleton (componentLetter i))

end ShaderEffect.Glsl
