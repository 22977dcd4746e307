import ShaderEffect.Spirv.Generator.State

namespace ShaderEffect.Spirv

open Generator

/-- Textures and samplers live in constant memory, whatever is asked for. -/
def storageFor (t : Ty) (storage : StorageClass) : StorageClass :=
  if t.isTexture || t.isSampler then .uniformConstant else storage

/-- The key of a type. The shape of types that are not numeric has no meaning. -/
def TypeKey.of (t : Ty) (isPointer : Bool) (storage : StorageClass) (stride : UInt32) : TypeKey :=
  { base := t.base
    rows := if t.isNumeric then t.rows else 0
    cols := if t.isNumeric then t.cols else 0
    arrayLength := t.arrayLength
    definition := t.definition
    isPointer, stride, storage }

/-- The key of a type that is no pointer. -/
def TypeKey.ofValue (t : Ty) (stride : UInt32) : TypeKey :=
  .of t false (storageFor t .functionMemory) stride

/-- The id under a key, made by `make` on first use. -/
def cachedType (key : TypeKey) (make : SpirvM Id) : SpirvM Id := do
  match (← getTarget).typeIds.get? key with
  | some id => return id
  | none =>
    let id ← make
    modifyTarget fun s => { s with typeIds := s.typeIds.set key id }
    return id

def floatType : SpirvM Id :=
  cachedType (.ofValue (.scalar .float) 0) (addType Op.typeFloat [32])

def textureType : SpirvM Id :=
  cachedType (.ofValue { base := .texture } 0) do
    addType Op.typeImage [← floatType, 1, 0, 0, 0, 1, 0]

/-- The id of a type that is neither array, matrix nor vector. -/
def baseType (t : Ty) : SpirvM Id :=
  cachedType (.ofValue t 0) do
    match t.base with
    | .void => addType Op.typeVoid []
    | .bool => addType Op.typeBool []
    | .int => addType Op.typeInt [32, 1]
    | .uint => addType Op.typeInt [32, 0]
    | .float => addType Op.typeFloat [32]
    | .struct => return t.definition
    | .texture => addType Op.typeImage [← floatType, 1, 0, 0, 0, 1, 0]
    | .sampler => addType Op.typeSampledImage [← textureType]
    | .string | .function => throw (.inexpressibleType .spirv t.description)

def scalarType (base : Base) : SpirvM Id :=
  baseType (.scalar base)

def vectorType (t : Ty) : SpirvM Id :=
  cachedType (.ofValue t 0) do addType Op.typeVector [← scalarType t.base, t.rows]

/-- The id of a matrix type. Rows of the effect language become columns; a single
row is a vector. -/
def matrixType (t : Ty) : SpirvM Id :=
  cachedType (.ofValue t 0) do
    let column ← vectorType (.vector t.base t.cols)
    if t.rows = 1 then return column
    addType Op.typeMatrix [column, t.rows]

/-- The id of a type that is no array. -/
def elementType (t : Ty) : SpirvM Id :=
  if t.isMatrix then matrixType t else if t.isVector then vectorType t else baseType t

/-- The id under a key, made by `make` on first use. -/
def cachedConstant (key : ConstantKey) (make : SpirvM Id) : SpirvM Id := do
  match (← getTarget).constantIds.get? key with
  | some id => return id
  | none =>
    let id ← make
    modifyTarget fun s => { s with constantIds := s.constantIds.set key id }
    return id

/-- The key of a constant that is no array. Only the lanes of its components count. -/
def ConstantKey.of (t : Ty) (value : Constant) : ConstantKey :=
  { type := .of t false .functionMemory 0
    lanes := (Lanes.ofList (value.lanes.toList.take t.components.toNat)).toList }

/-- Adds a constant with a new id, given how its type is converted. -/
def addConstantOf (op : Opcode) (type : SpirvM Id) (operands : List UInt32) : SpirvM Id := do
  let result ← makeId
  let type ← type
  modifyTarget fun s => { s with types := s.types.push { op, type, result, operands } }
  return result

/-- The id of a constant that is neither array, structure, matrix nor vector. -/
def scalarConstant (t : Ty) (value : Constant) : SpirvM Id :=
  cachedConstant (.of t value) do
    if t.isBoolean then
      addConstantOf (if value.word ≠ 0 then Op.constantTrue else Op.constantFalse) (baseType t) []
    else addConstantOf Op.constant (baseType t) [value.word]

def wordConstant (w : UInt32) : SpirvM Id :=
  scalarConstant (.scalar .uint) (.ofWord w)

/-- The id of a type that is no pointer. Arrays in the uniform block have a stride. -/
def valueType (t : Ty) (stride : UInt32 := 0) : SpirvM Id :=
  if t.isArray then
    cachedType (.ofValue t stride) do
      let element ← elementType t.element
      let length ← wordConstant (UInt32.ofInt t.arrayLength)
      let id ← addType Op.typeArray [element, length]
      if stride ≠ 0 then decorate id .arrayStride [stride]
      return id
  else elementType t

/-- The id of a pointer to a type. -/
def pointerType (t : Ty) (storage : StorageClass) (stride : UInt32 := 0) : SpirvM Id :=
  let storage := storageFor t storage
  cachedType (.of t true storage stride) do
    let target ← valueType t stride
    addType Op.typePointer [storage, target]

/-- The id of a function type. Parameters are passed as pointers. -/
def functionType (result : Ty) (params : List Ty) : SpirvM Id := do
  let result ← valueType result
  let params ← params.mapM fun t => pointerType t .functionMemory
  match (← getTarget).functionTypes.find? (fun f => f.result = result && f.params = params) with
  | some f => return f.id
  | none =>
    let id ← addType Op.typeFunction (result :: params)
    modifyTarget fun s => { s with functionTypes := s.functionTypes ++ [{ result, params, id }] }
    return id

def addConstant (op : Opcode) (t : Ty) (operands : List UInt32) : SpirvM Id :=
  addConstantOf op (valueType t) operands

/-- The lanes of one row of a matrix or vector. -/
def rowLanes (t : Ty) (value : Constant) (row : Nat) : Constant :=
  { lanes := Lanes.ofList ((value.lanes.toList.drop (row * t.cols.toNat)).take t.cols.toNat) }

/-- The id of a composite of `rows` constants. A single one stands for itself. -/
def compositeConstant (t : Ty) (value : Constant) (row : Constant → SpirvM Id) : SpirvM Id :=
  cachedConstant (.of t value) do
    let rows ← (List.range t.rows.toNat).mapM fun i => row (rowLanes t value i)
    match rows with
    | [id] => return id
    | ids => addConstant Op.constantComposite t ids

def vectorConstant (t : Ty) (value : Constant) : SpirvM Id :=
  compositeConstant t value (scalarConstant (.scalar t.base))

/-- The id of a constant that is no array. -/
def elementConstant (t : Ty) (value : Constant) : SpirvM Id :=
  if t.isStruct then cachedConstant (.of t value) (addConstant Op.constantNull t [])
  else if t.isMatrix then compositeConstant t value (vectorConstant (.vector t.base t.cols))
  else if t.isVector then vectorConstant t value
  else scalarConstant t value

/-- The id of a constant. Elements that an array value does not give are zero. -/
def constantId (t : Ty) (value : Constant) : SpirvM Id := do
  if !t.isArray then return ← elementConstant t value
  if t.arrayLength < 0 then throw .outOfRange
  let ids ← (List.range t.arrayLength.toNat).mapM fun i =>
    elementConstant t.element (value.elements.getD i {})
  addConstant Op.constantComposite t ids

/-- The constant of a type whose components are all the given lane. -/
def uniformConstant (t : Ty) (lane : UInt32) : SpirvM Id := do
  let lanes ← Lanes.zero.mapFirst t.components fun _ _ => lane
  elementConstant t.element { lanes }

/-- The constant of a type whose components are all zero, or all one. -/
def constantOf (t : Ty) (isOne : Bool) : SpirvM Id :=
  uniformConstant t (if isOne then (if t.isFloat then Number.Single.one.bits else 1) else 0)

end ShaderEffect.Spirv
