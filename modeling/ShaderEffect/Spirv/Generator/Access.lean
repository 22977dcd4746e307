import ShaderEffect.Spirv.Generator.Types

namespace ShaderEffect.Spirv

open Generator

/-- Declares a variable under a given id. Variables of functions are initialized by a store, others
by their declaration. -/
def declareVariable (id : Id) (location : Location) (t : Ty) (name : String)
    (storage : StorageClass) (init : Id) : SpirvM Unit := do
  let isLocal := storage = StorageClass.functionMemory
  let addTo (i : Instruction) : SpirvM Unit :=
    if isLocal then modifyFunction fun f => { f with locals := f.locals.push i }
    else modifyTarget fun s => { s with globals := s.globals.push i }
  if isLocal && (← getTarget).current.isNone then throw .noFunction
  if let some i ← lineInstruction location then addTo i
  let type ← pointerType t storage
  addTo
    { op := Op.var, type, result := id
      operands := storage :: (if init ≠ 0 && !isLocal then [init] else []) }
  addName id name
  modifyTarget fun s => { s with storage := s.storage.set id storage }
  if init ≠ 0 && isLocal then
    addBlockLocation location
    emitStore id init

/-- A new variable of the function being generated. -/
def temporary (location : Location) (t : Ty) : SpirvM Id := do
  let id ← makeId
  declareVariable id location t "" .functionMemory 0
  return id

/-- The memory that an expression starts in. -/
structure Place where
  pointer : Id
  type : Ty
  storage : StorageClass
  /-- Whether the memory holds truth values as words. -/
  asWords : Bool
  /-- The accesses that are left to apply to the value. -/
  rest : List Access
deriving Inhabited

/-- The indices that accesses in front of a chain select in memory, and the type they lead to. -/
def takeIndices (t : Ty) : List Access → SpirvM (List Id × Ty × List Access)
  | [] => return ([], t, [])
  | a :: rest => do
    let index : Option (SpirvM Id) :=
      match a with
      | .dynamicIndex _ _ id => some (pure id)
      | .member _ _ i | .constantIndex _ _ i => some (wordConstant i)
      | .cast _ _ | .swizzle _ _ _ => none
    match index with
    | none => return ([], t, a :: rest)
    | some make =>
      let id ← make
      let (ids, t, rest) ← takeIndices a.target rest
      return (id :: ids, t, rest)

/-- Whether an access selects from a matrix with a single row, which is stored as that row. -/
def selectsOnlyRow (a : Access) : Bool :=
  match a with
  | .dynamicIndex s _ _ | .constantIndex s _ _ => s.isRow
  | _ => false

/-- Resolves the members and indices in front of a chain to a pointer. -/
def resolvePlace (e : Expression) : SpirvM Place := do
  let s ← getTarget
  let root := (e.chain.head?.map (·.source)).getD e.type
  let member := s.memberOf.get? e.base
  let storage := if member.isSome then StorageClass.uniform else storageOf s e.base
  let asWords := member.isSome && root.isBoolean
  let first ←
    match member with
    | some i => pure [← wordConstant i]
    | none => pure []
  let (root, chain) :=
    match e.chain with
    | a :: rest => if selectsOnlyRow a then (a.target, rest) else (root, a :: rest)
    | [] => (root, [])
  let (more, t, rest) ← takeIndices root chain
  let t := if asWords then { t with base := .uint } else t
  let indices := first ++ more
  let base := if member.isSome then s.uniformVariable else e.base
  if indices.isEmpty then return { pointer := base, type := t, storage, asWords, rest }
  let stride := if t.isArray && storage = StorageClass.uniform then 16 else 0
  let type ← pointerType t storage stride
  let pointer ← emit Op.accessChain type (base :: indices)
  return { pointer, type := t, storage, asWords, rest }

/-- Extracts one component of a matrix value by its lane. -/
def extractLane (source : Ty) (value lane : UInt32) : SpirvM Id := do
  let scalar ← scalarType source.base
  emit Op.compositeExtract scalar
    (value :: if source.rows = 1 then [lane % 4] else [lane / 4, lane % 4])

def emitSwizzle (source target : Ty) (lanes : List Int) (value : Id) : SpirvM Id := do
  let result ← valueType target
  let lanes := (lanes.take target.rows.toNat).map UInt32.ofInt
  if source.isMatrix then
    if target.isScalar then return ← extractLane source value (lanes.headD 0)
    let components ← lanes.mapM (extractLane source value)
    emit Op.compositeConstruct result components
  else if source.isVector then emit Op.vectorShuffle result (value :: value :: lanes)
  else emit Op.compositeConstruct result (List.replicate target.rows.toNat value)

/-- Cuts a matrix to fewer rows and columns. -/
def truncateMatrix (source target : Ty) (value : Id) : SpirvM Id := do
  let scalar ← scalarType target.base
  let row ← valueType (.vector target.base target.cols)
  let rows ← (List.range target.rows.toNat).mapM fun r => do
    let cols ← (List.range target.cols.toNat).mapM fun k =>
      emit Op.compositeExtract scalar
        (value :: if source.rows = 1 then [UInt32.ofNat k] else [UInt32.ofNat r, UInt32.ofNat k])
    emit Op.compositeConstruct row cols
  match rows with
  | [row] => return row
  | rows => emit Op.compositeConstruct (← valueType target) rows

/-- Converts a value between numeric types. -/
def emitCast (source target : Ty) (value : Id) : SpirvM Id := do
  if source.base = target.base then
    if source.isMatrix && target.isMatrix
      && (source.rows ≠ target.rows || source.cols ≠ target.cols) then
      return ← truncateMatrix source target value
    return value
  let result ← valueType target
  if source.isBoolean then
    let one ← constantOf target true
    let zero ← constantOf target false
    return ← emit Op.select result [value, one, zero]
  match target.base with
  | .bool =>
    let zero ← constantOf source false
    emit (if source.isFloat then Op.fOrdNotEqual else Op.inotEqual) result [value, zero]
  | .int => emit (if source.isFloat then Op.convertFToS else Op.bitcast) result [value]
  | .uint => emit (if source.isFloat then Op.convertFToU else Op.bitcast) result [value]
  | .float => emit (if source.base = .int then Op.convertSToF else Op.convertUToF) result [value]
  | _ => return value

/-- Applies one access to a value. Arrays and matrices can only be indexed through memory. -/
def applyAccess (location : Location) (value : Id) : Access → SpirvM Id
  | .cast source target => emitCast source target value
  | .member _ target i => do emit Op.compositeExtract (← valueType target) [value, i]
  | .dynamicIndex source target index => do
    if source.isRow then return value
    if source.isVector then
      return ← emit Op.vectorExtractDynamic (← valueType target) [value, index]
    let temp ← temporary location source
    emitStore temp value
    let pointer ← emit Op.accessChain (← pointerType target .functionMemory) [temp, index]
    emit Op.load (← valueType target) [pointer]
  | .constantIndex source target i => do
    if source.isRow then return value
    emit Op.compositeExtract (← valueType target) [value, i]
  | .swizzle source target lanes => emitSwizzle source target lanes value

/-- Reads the memory at a place. -/
def loadPlace (p : Place) : SpirvM Id := do
  let type ←
    if p.type.isArray && p.storage = StorageClass.uniform then
      let _ ← valueType p.type
      valueType p.type 16
    else valueType p.type
  let value ← emit Op.load type [p.pointer]
  if !p.asWords then return value
  let zero ← constantOf { p.type with base := .uint } false
  emit Op.inotEqual (← valueType { p.type with base := .bool }) [value, zero]

/-- The value of an expression. -/
def loadValue (e : Expression) : SpirvM Id := do
  if e.isConstant then return ← constantId e.type e.value
  if e.isLvalue || !e.chain.isEmpty then addBlockLocation e.location
  if e.isLvalue && !(← getTarget).specConstants.contains e.base then
    let p ← resolvePlace e
    let value ← loadPlace p
    p.rest.foldlM (applyAccess e.location) value
  else e.chain.foldlM (applyAccess e.location) e.base

/-- The components of a vector with some lanes replaced by those of another vector behind it. -/
def replaceLanes (rows : UInt32) :
    List Int → UInt32 → List UInt32 → Except Fault (List UInt32)
  | [], _, shuffle => pure shuffle
  | lane :: rest, k, shuffle =>
    if 0 ≤ lane && lane.toNat < shuffle.length then
      replaceLanes rows rest (k + 1) (shuffle.set lane.toNat (rows + k))
    else throw .outOfRange

/-- The value at a pointer with the lanes of a swizzle replaced. -/
def mergeLanes (pointer : Id) (t target : Ty) (lanes : List Int) (value : Id) : SpirvM Id := do
  let type ← valueType t
  let base ← emit Op.load type [pointer]
  if t.isVector then
    let shuffle ← replaceLanes t.rows (lanes.take target.rows.toNat) 0
      (([0, 1, 2, 3] : List UInt32).take t.rows.toNat)
    return ← emit Op.vectorShuffle type (base :: value :: shuffle)
  let scalar ← scalarType t.base
  (lanes.take target.components.toNat).zipIdx.foldlM (fun result (lane, k) => do
    let component ←
      if target.isScalar then pure value
      else emit Op.compositeExtract scalar [value, UInt32.ofNat k]
    let lane := UInt32.ofInt lane
    emit Op.compositeInsert type
      (component :: result :: if t.rows = 1 then [lane % 4] else [lane / 4, lane % 4])) base

/-- The first swizzle among some accesses. -/
def firstSwizzle? (chain : List Access) : Option (Ty × List Int) :=
  chain.findSome? fun
    | .swizzle _ target lanes => some (target, lanes)
    | _ => none

/-- Writes a value to an expression. -/
def storeValue (e : Expression) (value : Id) : SpirvM Unit := do
  addBlockLocation e.location
  let p ← resolvePlace e
  let value ←
    match firstSwizzle? p.rest with
    | some (target, lanes) => mergeLanes p.pointer p.type target lanes value
    | none => pure value
  emitStore p.pointer value

/-- One of three operations, by the components it works on. -/
def pick (t : Ty) (float signed unsigned : Opcode) : Opcode :=
  if t.isFloat then float else if t.isSigned then signed else unsigned

def binaryOpcode (op : BinaryOp) (t : Ty) : Opcode :=
  match op with
  | .add => pick t Op.fadd Op.iadd Op.iadd
  | .sub => pick t Op.fsub Op.isub Op.isub
  | .mul => pick t Op.fmul Op.imul Op.imul
  | .div => pick t Op.fdiv Op.sdiv Op.udiv
  | .rem => pick t Op.frem Op.srem Op.umod
  | .bitXor => Op.bitwiseXor
  | .bitOr => Op.bitwiseOr
  | .bitAnd => Op.bitwiseAnd
  | .shiftLeft => Op.shiftLeftLogical
  | .shiftRight => pick t Op.shiftRightArithmetic Op.shiftRightArithmetic Op.shiftRightLogical
  | .or => Op.logicalOr
  | .and => Op.logicalAnd
  | .less => pick t Op.fOrdLessThan Op.sLessThan Op.uLessThan
  | .lessEqual => pick t Op.fOrdLessThanEqual Op.sLessThanEqual Op.uLessThanEqual
  | .greater => pick t Op.fOrdGreaterThan Op.sGreaterThan Op.uGreaterThan
  | .greaterEqual => pick t Op.fOrdGreaterThanEqual Op.sGreaterThanEqual Op.uGreaterThanEqual
  | .equal => if t.isBoolean then Op.logicalEqual else pick t Op.fOrdEqual Op.iequal Op.iequal
  | .notEqual =>
    if t.isBoolean then Op.logicalNotEqual else pick t Op.fOrdNotEqual Op.inotEqual Op.inotEqual

def unaryOpcode (op : UnaryOp) (t : Ty) : Opcode :=
  match op with
  | .negate => if t.isFloat then Op.fnegate else Op.snegate
  | .complement => Op.not
  | .not => Op.logicalNot

def emitUnary (location : Location) (op : UnaryOp) (t : Ty) (value : Id) : SpirvM Id := do
  addBlockLocation location
  emit (unaryOpcode op t) (← valueType t) [value]

def emitBinary (location : Location) (op : BinaryOp) (result operands : Ty) (left right : Id) :
    SpirvM Id := do
  addBlockLocation location
  let id ← emit (binaryOpcode op operands) (← valueType result) [left, right]
  if result.has .precise then decorate id .noContraction []
  return id

def emitSelect (location : Location) (t : Ty) (condition yes no : Id) : SpirvM Id := do
  addBlockLocation location
  emit Op.select (← valueType t) [condition, yes, no]

def emitCall (location : Location) (function : Id) (result : Ty) (args : List Expression) :
    SpirvM Id := do
  addBlockLocation location
  emit Op.functionCall (← valueType result) (function :: args.map (·.base))

/-- A composite of loaded values. The components of a matrix are grouped into rows first. -/
def emitConstruct (location : Location) (t : Ty) (args : List Expression) : SpirvM Id := do
  addBlockLocation location
  let ids := args.map (·.base)
  if !(t.isMatrix && ids.length = t.components.toNat) then
    return ← emit Op.compositeConstruct (← valueType t) ids
  let row ← valueType (.vector t.base t.cols)
  let rows ← (List.range t.rows.toNat).mapM fun r =>
    emit Op.compositeConstruct row ((ids.drop (r * t.cols.toNat)).take t.cols.toNat)
  match rows with
  | [row] => return row
  | rows => emit Op.compositeConstruct (← valueType t) rows

end ShaderEffect.Spirv
