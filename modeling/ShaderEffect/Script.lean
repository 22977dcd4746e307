import ShaderEffect.Generator

/-!
Scripts: what the parser has a generator do.

The parser never touches the state of a generator. It makes requests, and goes on with their
answers. A script holds its first request and, for each answer, the script that follows it. Whoever
runs it supplies the answers.
-/
namespace ShaderEffect

/-- What can be asked of a generator: questions about its state, blocks and control flow, values,
and declarations. -/
inductive Request where
  | isInBlock
  | isInFunction
  | findStruct (id : Id)
  | findTexture (id : Id)
  | findFunction (id : Id)
  | makeId
  | setBlock (id : Id)
  | enterBlock (id : Id)
  | leaveAndKill
  | leaveAndReturn (value : Id)
  | leaveAndSwitch (selector defaultTarget : Id)
  | leaveAndBranch (target : Id) (flow : Flow)
  | leaveAndBranchConditional (condition trueTarget falseTarget : Id)
  | emitIf (location : Location) (condition conditionBlock trueBlock falseBlock : Id)
      (hint : ControlHint)
  | emitPhi (location : Location)
      (condition conditionBlock trueValue trueBlock falseValue falseBlock : Id) (type : Ty)
  | emitLoop (location : Location) (condition before header conditionBlock body continueBlock : Id)
      (hint : ControlHint)
  | emitSwitch (location : Location) (selector selectorBlock defaultLabel : Id)
      (cases : List (UInt32 × Id)) (hint : ControlHint)
  | load (e : Expression) (forceNew : Bool)
  | store (e : Expression) (value : Id)
  | constant (type : Ty) (value : Constant)
  | unary (location : Location) (op : UnaryOp) (type : Ty) (value : Id)
  | binary (location : Location) (op : BinaryOp) (result operands : Ty) (left right : Id)
  | select (location : Location) (type : Ty) (condition yes no : Id)
  | call (location : Location) (function : Id) (result : Ty) (args : List Expression)
  | callIntrinsic (location : Location) (intrinsic : Intrinsic) (result : Ty)
      (args : List Expression)
  | construct (location : Location) (type : Ty) (args : List Expression)
  | defineStruct (location : Location) (decl : StructDecl)
  | defineTexture (location : Location) (texture : Texture)
  | defineSampler (location : Location) (sampler : Sampler)
  | defineUniform (location : Location) (uniform : Uniform)
  | defineVariable (location : Location) (type : Ty) (name : String) (isGlobal : Bool) (init : Id)
  | defineFunction (location : Location) (decl : FunctionDecl)
  | leaveFunction
  | defineEntryPoint (decl : FunctionDecl) (isPixelShader : Bool)
  | markRenderTarget (id : Id)
  | defineTechnique (technique : Technique)

/-- What the answer to a request is. -/
abbrev Request.Answer : Request → Type
  | isInBlock | isInFunction => Bool
  | findStruct _ => Option StructDecl
  | findTexture _ => Option Texture
  | findFunction _ => Option FunctionDecl
  | enterBlock _ | emitIf .. | emitLoop .. | emitSwitch .. | store .. => Unit
  | leaveFunction | defineEntryPoint .. | markRenderTarget _ | defineTechnique _ => Unit
  | defineStruct .. => StructDecl
  | defineTexture .. => Texture
  | defineSampler .. => Sampler
  | defineFunction .. => FunctionDecl
  | makeId | setBlock _ | leaveAndKill | leaveAndReturn _ | leaveAndSwitch ..
    | leaveAndBranch .. => Id
  | leaveAndBranchConditional .. | emitPhi .. | load .. | constant .. | unary .. | binary .. => Id
  | select .. | call .. | callIntrinsic .. | construct .. | defineUniform ..
    | defineVariable .. => Id

/-- A computation that makes requests. -/
inductive Script (α : Type) where
  | done (a : α)
  | fault (f : Fault)
  | ask (r : Request) (next : r.Answer → Script α)

namespace Script

variable {α γ : Type}

/-- The script that goes on with the result of another. -/
def bind : Script α → (α → Script γ) → Script γ
  | done a, f => f a
  | fault e, _ => fault e
  | ask r next, f => ask r fun answer => (next answer).bind f

/-- The script that goes on behind a fault of its own. Faults of the generator cannot be caught. -/
def catchFault : Script α → (Fault → Script α) → Script α
  | done a, _ => done a
  | fault e, f => f e
  | ask r next, f => ask r fun answer => (next answer).catchFault f

instance : Monad Script where
  pure := done
  bind := bind

instance : MonadExceptOf Fault Script where
  throw := fault
  tryCatch := catchFault

end Script

variable {β : Type} [Backend β]

/-- How a generator answers a request. -/
def Request.handle : (r : Request) → GenM β r.Answer
  | isInBlock => return (← get).isInBlock
  | isInFunction => return Backend.isInFunction (← get)
  | findStruct id => return (← get).findStruct? id
  | findTexture id => return (← get).findTexture? id
  | findFunction id => return (← get).findFunction? id
  | makeId => Generator.makeId
  | setBlock id => Generator.setBlock id
  | enterBlock id => Backend.enterBlock id
  | leaveAndKill => Backend.leaveAndKill
  | leaveAndReturn value => Backend.leaveAndReturn value
  | leaveAndSwitch selector defaultTarget => Backend.leaveAndSwitch selector defaultTarget
  | leaveAndBranch target flow => Backend.leaveAndBranch target flow
  | leaveAndBranchConditional condition yes no => Backend.leaveAndBranchConditional condition yes no
  | emitIf location condition conditionBlock yes no hint =>
    Backend.emitIf location condition conditionBlock yes no hint
  | emitPhi location condition conditionBlock yesValue yes noValue no type =>
    Backend.emitPhi location condition conditionBlock yesValue yes noValue no type
  | emitLoop location condition before header conditionBlock body continueBlock hint =>
    Backend.emitLoop location condition before header conditionBlock body continueBlock hint
  | emitSwitch location selector selectorBlock defaultLabel cases hint =>
    Backend.emitSwitch location selector selectorBlock defaultLabel cases hint
  | load e forceNew => Backend.load e forceNew
  | store e value => Backend.store e value
  | constant type value => Backend.constant type value
  | unary location op type value => Backend.unary location op type value
  | binary location op result operands left right =>
    Backend.binary location op result operands left right
  | select location type condition yes no => Backend.select location type condition yes no
  | call location function result args => Backend.call location function result args
  | callIntrinsic location intrinsic result args =>
    Backend.callIntrinsic location intrinsic result args
  | construct location type args => Backend.construct location type args
  | defineStruct location decl => Backend.defineStruct location decl
  | defineTexture location texture => Backend.defineTexture location texture
  | defineSampler location sampler => Backend.defineSampler location sampler
  | defineUniform location uniform => Backend.defineUniform location uniform
  | defineVariable location type name isGlobal init =>
    Backend.defineVariable location type name isGlobal init
  | defineFunction location decl => Backend.defineFunction location decl
  | leaveFunction => Backend.leaveFunction
  | defineEntryPoint decl isPixelShader => Backend.defineEntryPoint decl isPixelShader
  | markRenderTarget id => Generator.markRenderTarget id
  | defineTechnique technique => Generator.defineTechnique technique

/-- Runs a script on a generator, which answers its requests. -/
def Script.run {α : Type} : Script α → GenM β α
  | done a => pure a
  | fault e => throw e
  | ask r next => do (next (← r.handle)).run

end ShaderEffect
