import ShaderEffect.Spirv.Generator.Types

/-!
Blocks and structured control flow.

A construct is put together when the block behind it is current: its blocks are flattened in front
of that block's own code.

The code of a function is collected when it is left.
-/
namespace ShaderEffect.Spirv

open Generator

def enterBlock (id : Id) : SpirvM Unit := do
  let _ ← setBlock id
  add { op := Op.label, result := id }

/-- Ends the current block. -/
def terminate (i : Instruction) : SpirvM Id := do
  let b ← currentBody
  setCurrentBody { b with terminator := some i }
  setBlock 0

/-- Ends the current block if there is one, or gives `otherwise`. -/
def terminateOr (otherwise : Generator State → Id) (i : SpirvM Instruction) : SpirvM Id := do
  let g ← get
  if !g.isInBlock then return otherwise g
  terminate (← i)

def leaveAndKill : SpirvM Id :=
  terminateOr (fun _ => 0) (return { op := Op.kill })

/-- Returns from the function. A missing value is undefined. -/
def leaveAndReturn (value : Id) : SpirvM Id :=
  terminateOr (fun _ => 0) do
    match (← getTarget).current with
    | none => return { op := Op.ret }
    | some f =>
      if f.returnType.isVoid then return { op := Op.ret }
      if value ≠ 0 then return { op := Op.returnValue, operands := [value] }
      let undefined ← addConstantOf Op.undef (valueType f.returnType) []
      return { op := Op.returnValue, operands := [undefined] }

def leaveAndSwitch (selector defaultTarget : Id) : SpirvM Id :=
  terminateOr (·.lastBlock) (return { op := Op.switch, operands := [selector, defaultTarget] })

def leaveAndBranch (target : Id) : SpirvM Id :=
  terminateOr (·.lastBlock) (return { op := Op.branch, operands := [target] })

def leaveAndBranchConditional (condition trueTarget falseTarget : Id) : SpirvM Id :=
  terminateOr (·.lastBlock)
    (return { op := Op.branchConditional, operands := [condition, trueTarget, falseTarget] })

/-- The instructions of a block, none if it was never entered. -/
def State.code (s : State) (id : Id) : List Instruction :=
  ((s.blocks.get? id).map (·.flatten)).getD []

/-- The instructions of a block with a merge instruction in front of its terminator. -/
def State.structured (s : State) (id : Id) (merge : Instruction) : List Instruction :=
  match s.blocks.get? id with
  | some b => b.body ++ merge :: b.terminator.toList
  | none => []

/-- The label that starts the code collected in a block. -/
def State.entryLabel (s : State) (id : Id) : Id :=
  match s.blocks.get? id with
  | some { body := first :: _, .. } => if first.op = Op.label then first.result else id
  | _ => id

/-- The block that the code entered through `id` ended up in. -/
def State.final (s : State) (id : Id) : Id :=
  go s.spliced.length id
where
  go : Nat → Id → Id
  | 0, id => id
  | n + 1, id =>
    match s.spliced.get? id with
    | some next => go n next
    | none => id

/-- Puts the code of a construct that was entered from a block in front of the current block. -/
def splice (entered : Id) (code : List Instruction) : SpirvM Unit := do
  let b ← currentBody
  setCurrentBody { b with body := code ++ b.body }
  let current := (← get).currentBlock
  modifyTarget fun s => { s with spliced := s.spliced.set entered current }

/-- The instruction that names the block behind a selection. -/
def selectionMerge (hint : ControlHint) : SpirvM Instruction := do
  return { op := Op.selectionMerge, operands := [(← get).currentBlock, hint] }

def emitIf (conditionBlock trueBlock falseBlock : Id) (hint : ControlHint) : SpirvM Unit := do
  let merge ← selectionMerge hint
  let s ← getTarget
  splice conditionBlock (s.structured conditionBlock merge ++ s.code trueBlock ++ s.code falseBlock)

def emitPhi (conditionBlock trueValue trueBlock falseValue falseBlock : Id) (t : Ty) :
    SpirvM Id := do
  let merge ← selectionMerge 0
  let s ← getTarget
  let arm (id : Id) : List Instruction := if id = conditionBlock then [] else s.code id
  splice conditionBlock (s.structured conditionBlock merge ++ arm trueBlock ++ arm falseBlock)
  emit Op.phi (← valueType t) [trueValue, trueBlock, falseValue, falseBlock]

def emitLoop (before header conditionBlock body continueBlock : Id) (hint : ControlHint) :
    SpirvM Unit := do
  let merge : Instruction :=
    { op := Op.loopMerge, operands := [(← get).currentBlock, continueBlock, hint] }
  let s ← getTarget
  splice before
    (s.code before ++ s.structured header merge
      ++ (if conditionBlock = 0 then [] else s.code conditionBlock)
      ++ s.code body ++ s.code (s.final continueBlock))

/-- The distinct labels of a list, in order of first appearance. -/
def distinct (labels : List Id) : List Id :=
  labels.foldl (fun seen l => if seen.contains l then seen else seen ++ [l]) []

def emitSwitch (selectorBlock defaultLabel : Id) (cases : List (UInt32 × Id))
    (hint : ControlHint) :
    SpirvM Unit := do
  let s ← getTarget
  match s.blocks.get? selectorBlock with
  | some { body, terminator := some t } =>
    if t.op = Op.switch then
      let targets := cases.flatMap fun (literal, label) => [literal, s.entryLabel label]
      let t := { t with operands := t.operands.take 1 ++ s.entryLabel defaultLabel :: targets }
      modifyTarget fun s =>
          { s with blocks := s.blocks.set selectorBlock { body, terminator := some t } }
      let merge ← selectionMerge hint
      let s ← getTarget
      let labels := distinct (cases.map (·.2))
      let last :=
        if defaultLabel ≠ (← get).currentBlock && !labels.contains defaultLabel then
          s.code defaultLabel
        else []
      splice selectorBlock (s.structured selectorBlock merge ++ labels.flatMap s.code ++ last)
  | _ => return

/-- Declares one parameter. -/
def declareParameter (p : Member) : SpirvM Member := do
  if let some i ← lineInstruction p.location then addDeclaration i
  let id ← makeId
  let type ← pointerType p.type .functionMemory
  addDeclaration { op := Op.functionParameter, type, result := id }
  addName id p.name
  if p.type.isSampler then
    modifyTarget fun s => { s with storage := s.storage.set id StorageClass.uniformConstant }
  return { p with definition := id }

/-- Starts a function. Gives it with the ids of itself and its parameters. -/
def startFunction (location : Location) (decl : FunctionDecl) : SpirvM FunctionDecl := do
  modifyTarget fun s => { s with current := some { returnType := decl.returnType } }
  if let some i ← lineInstruction location then addDeclaration i
  let id ← makeId
  let result ← valueType decl.returnType
  let type ← functionType decl.returnType (decl.parameters.map (·.type))
  addDeclaration { op := Op.function, type := result, result := id, operands := [0, type] }
  addName id (if decl.uniqueName ≠ "" then decl.uniqueName else decl.name)
  let parameters ← decl.parameters.mapM declareParameter
  return { decl with definition := id, parameters }

/-- Collects the code of the function being generated. A function whose body was never entered has
none. -/
def leaveFunction : SpirvM Unit := do
  let g ← get
  let s := g.target
  match s.current with
  | none => return
  | some f =>
    let definition := s.code g.lastBlock ++ [{ op := Op.functionEnd }]
    let starts := definition.head?.any (·.op == Op.label)
    modifyTarget fun s =>
      { s with
        functions := if starts then s.functions.push { f with definition } else s.functions
        current := none
        blocks := []
        spliced := [] }

end ShaderEffect.Spirv
