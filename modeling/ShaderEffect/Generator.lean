import ShaderEffect.Expression
import ShaderEffect.Intrinsic
import ShaderEffect.Module

/-!
Code generation as the parser drives it: declarations first, then values and control flow, and the
result once at the end.

Every target shares the result being filled, the counter of ids and the current block. What else it
keeps is its own.
-/
namespace ShaderEffect

/-- Where a branch leads to, as seen from a loop or switch. -/
inductive Flow where
  | plain | leaveLoop | nextRound
deriving DecidableEq, Repr, Inhabited

/-- Hints for a control flow statement: bit 0 asks to flatten or unroll it, bit 1 not to. -/
abbrev ControlHint := UInt32

/-- The state of code generation, with what the target itself keeps. -/
structure Generator (β : Type) where
  result : Module := {}
  structs : List StructDecl := []
  functions : List FunctionDecl := []
  /-- The number of the next id. Ids are words, so after 2^32 of them they begin again. -/
  nextId : Nat := 1
  /-- The block that was current before the current one. -/
  lastBlock : Id := 0
  /-- The block that code is added to, 0 if there is none. -/
  currentBlock : Id := 0
  target : β
deriving Inhabited

abbrev GenM (β : Type) := StateT (Generator β) (Except Fault)

namespace Generator

variable {β : Type}

/-- An id that is not in use. -/
def makeId : GenM β Id := do
  let g ← get
  set { g with nextId := g.nextId + 1 }
  return UInt32.ofNat g.nextId

/-- Makes a block current without starting it. Gives the block that was current. -/
def setBlock (id : Id) : GenM β Id := do
  let g ← get
  set { g with lastBlock := g.currentBlock, currentBlock := id }
  return g.currentBlock

/-- Whether code is added to a block. -/
def isInBlock (g : Generator β) : Bool :=
  g.currentBlock ≠ 0

def getTarget : GenM β β := do
  return (← get).target

def modifyTarget (f : β → β) : GenM β Unit :=
  modify fun g => { g with target := f g.target }

def modifyResult (f : Module → Module) : GenM β Unit :=
  modify fun g => { g with result := f g.result }

def findStruct? (g : Generator β) (id : Id) : Option StructDecl :=
  g.structs.find? (·.definition = id)

def findTexture? (g : Generator β) (id : Id) : Option Texture :=
  g.result.textures.find? (·.id = id)

def findFunction? (g : Generator β) (id : Id) : Option FunctionDecl :=
  g.functions.find? (·.definition = id)

/-- The members of a structure type that is defined. -/
def members? (g : Generator β) (t : Ty) : Option (List Member) :=
  if t.isStruct then (g.findStruct? t.definition).map (·.members) else none

/-- Notes that a pass renders to a texture. -/
def markRenderTarget (id : Id) : GenM β Unit :=
  modifyResult fun m =>
    { m with
      textures := m.textures.map fun t => if t.id = id then { t with renderTarget := true } else t }

def defineTechnique (t : Technique) : GenM β Unit :=
  modifyResult fun m => { m with techniques := m.techniques ++ [t] }

/-- Adds an entry point. Gives false if there is one of that name. -/
def addEntryPoint (name : String) (isPixelShader : Bool) : GenM β Bool := do
  if (← get).result.entryPoints.any (·.name = name) then return false
  modifyResult fun m => { m with entryPoints := m.entryPoints ++ [{ name, isPixelShader }] }
  return true

/-- Adds a uniform behind the uniforms placed so far. Gives it with its place. -/
def placeUniform (u : Uniform) : GenM β Uniform := do
  let m := (← get).result
  let slot := Layout.place u.type m.uniformSize
  let u := { u with slot }
  modifyResult fun m => { m with uniforms := m.uniforms ++ [u], uniformSize := slot.stop }
  return u

/-- Adds a uniform that is a specialization constant. It has no place among the uniforms. -/
def addSpecConstant (u : Uniform) : GenM β Unit :=
  modifyResult fun m =>
    { m with specConstants := m.specConstants ++ [{ u with slot := { size := 4, offset := 0 } }] }

end Generator

/-- What a target has to offer. Calls are well typed; the parser makes no others. -/
class Backend (β : Type) where
  /-- Whether a function is being generated. -/
  isInFunction : Generator β → Bool
  /-- The code of everything that was generated. -/
  finish : GenM β Code
  /-- Declares a structure and gives it with its id. -/
  defineStruct (location : Location) (decl : StructDecl) : GenM β StructDecl
  /-- Declares a texture and gives it with its id and binding. -/
  defineTexture (location : Location) (texture : Texture) : GenM β Texture
  /-- Declares a sampler and gives it with its id and binding. -/
  defineSampler (location : Location) (sampler : Sampler) : GenM β Sampler
  defineUniform (location : Location) (uniform : Uniform) : GenM β Id
  /-- Declares a variable. An initial value of 0 stands for none. -/
  defineVariable (location : Location) (type : Ty) (name : String) (isGlobal : Bool) (init : Id) :
    GenM β Id
  /-- Starts a function. Gives it with the ids of itself and its parameters. -/
  defineFunction (location : Location) (decl : FunctionDecl) : GenM β FunctionDecl
  leaveFunction : GenM β Unit
  defineEntryPoint (decl : FunctionDecl) (isPixelShader : Bool) : GenM β Unit
  /-- The value of an expression, under a new id where one is asked for. -/
  load (e : Expression) (forceNew : Bool) : GenM β Id
  store (e : Expression) (value : Id) : GenM β Unit
  constant (type : Ty) (value : Constant) : GenM β Id
  unary (location : Location) (op : UnaryOp) (type : Ty) (value : Id) : GenM β Id
  binary (location : Location) (op : BinaryOp) (result operands : Ty) (left right : Id) : GenM β Id
  /-- One of two values, chosen component by component. -/
  select (location : Location) (type : Ty) (condition yes no : Id) : GenM β Id
  call (location : Location) (function : Id) (result : Ty) (args : List Expression) : GenM β Id
  callIntrinsic (location : Location) (intrinsic : Intrinsic) (result : Ty)
    (args : List Expression) :
    GenM β Id
  /-- A value made from its components or elements. -/
  construct (location : Location) (type : Ty) (args : List Expression) : GenM β Id
  emitIf (location : Location) (condition conditionBlock trueBlock falseBlock : Id)
    (hint : ControlHint) : GenM β Unit
  /-- The value of the branch that was taken. -/
  emitPhi (location : Location) (condition conditionBlock trueValue trueBlock falseValue
    falseBlock : Id) (type : Ty) : GenM β Id
  emitLoop (location : Location) (condition before header conditionBlock body continueBlock : Id)
    (hint : ControlHint) : GenM β Unit
  emitSwitch (location : Location) (selector selectorBlock defaultLabel : Id)
    (cases : List (UInt32 × Id)) (hint : ControlHint) : GenM β Unit
  enterBlock (id : Id) : GenM β Unit
  leaveAndKill : GenM β Id
  leaveAndReturn (value : Id) : GenM β Id
  leaveAndSwitch (selector defaultTarget : Id) : GenM β Id
  leaveAndBranch (target : Id) (flow : Flow) : GenM β Id
  leaveAndBranchConditional (condition trueTarget falseTarget : Id) : GenM β Id

end ShaderEffect
