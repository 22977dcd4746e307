import ShaderEffect.Basic
import ShaderEffect.Parser.Resource

namespace ShaderEffect

/-- Sets a state by its name in lower case, unless there is none of that name. -/
def Pass.set? (p : Pass) (name : String) (value : UInt32) : Option Pass :=
  let on : Bool := value ≠ 0
  let small := value.toUInt8
  match name with
  | "srgbwriteenable" => some { p with srgbWrite := on }
  | "blendenable" => some { p with blend := on }
  | "stencilenable" => some { p with stencil := on }
  | "clearrendertargets" => some { p with clearTargets := on }
  | "rendertargetwritemask" | "colorwritemask" => some { p with colorWriteMask := small }
  | "stencilreadmask" | "stencilmask" => some { p with stencilReadMask := small }
  | "stencilwritemask" => some { p with stencilWriteMask := small }
  | "blendop" => some { p with blendOp := small }
  | "blendopalpha" => some { p with blendOpAlpha := small }
  | "srcblend" => some { p with srcBlend := small }
  | "srcblendalpha" => some { p with srcBlendAlpha := small }
  | "destblend" => some { p with destBlend := small }
  | "destblendalpha" => some { p with destBlendAlpha := small }
  | "stencilfunc" => some { p with stencilFunc := small }
  | "stencilref" => some { p with stencilReference := value }
  | "stencilpass" | "stencilpassop" => some { p with stencilPass := small }
  | "stencilfail" | "stencilfailop" => some { p with stencilFail := small }
  | "stencilzfail" | "stencildepthfail" | "stencildepthfailop" =>
    some { p with stencilDepthFail := small }
  | "vertexcount" => some { p with vertices := value }
  | "primitivetype" | "primitivetopology" => some { p with topology := small }
  | _ => none

namespace Parser

/-- The named values of pass states, in upper case. -/
def passValues : List (String × UInt32) :=
  [("NONE", 0), ("ZERO", 0), ("ONE", 1), ("ADD", 1), ("SUBTRACT", 2), ("REVSUBTRACT", 3),
    ("MIN", 4), ("MAX", 5), ("SRCCOLOR", 2), ("SRCALPHA", 3), ("INVSRCCOLOR", 4),
    ("INVSRCALPHA", 5), ("DESTCOLOR", 6), ("DESTALPHA", 7), ("INVDESTCOLOR", 8),
    ("INVDESTALPHA", 9), ("KEEP", 1), ("INVERT", 2), ("REPLACE", 3), ("INCR", 4), ("INCRSAT", 5),
    ("DECR", 6), ("DECRSAT", 7), ("NEVER", 0), ("EQUAL", 1), ("NEQUAL", 2), ("NOTEQUAL", 2),
    ("LESS", 3), ("LEQUAL", 4), ("LESSEQUAL", 4), ("GREATER", 5), ("GEQUAL", 6),
    ("GREATEREQUAL", 6), ("ALWAYS", 7), ("POINTS", 1), ("POINTLIST", 1), ("LINES", 2),
    ("LINELIST", 2), ("LINESTRIP", 3), ("TRIANGLES", 4), ("TRIANGLELIST", 4), ("TRIANGLESTRIP", 5)]

/-- A pass as far as it was read, with what its last checks need. -/
structure PassDraft where
  pass : Pass := {}
  vertex : Option FunctionDecl := none
  pixel : Option FunctionDecl := none
  /-- Whether every render target can be written with color conversion. -/
  srgbTargets : Bool := true
  valid : Bool := true

/-- What a pass state refers to by name. -/
inductive PassReference where
  | vertexShader
  | pixelShader
  | renderTarget (index : Nat)
deriving DecidableEq, Repr

/-- The reference that a state in lower case sets. A render target without a number is the first. -/
def PassReference.ofName? : String → Option PassReference
  | "vertexshader" => some .vertexShader
  | "pixelshader" => some .pixelShader
  | name =>
    match (Text.stripBeginning? "rendertarget" name).map String.toList with
    | some [] => some (.renderTarget 0)
    | some [c] => if '0' ≤ c && c < '8' then some (.renderTarget (c.toNat - '0'.toNat)) else none
    | _ => none

/-- Makes a function the shader of a pass. -/
def assignShader (d : PassDraft) (isPixel : Bool) (n : Named) (location : Location) :
    ParseM PassDraft := do
  let failed := { d with valid := false }
  if n.symbol.kind = .invalid then
    error location 3501 ("undeclared identifier " ++ inQuotes n.identifier
      ++ ", expected function name")
    return failed
  if !n.symbol.type.isFunction then
    error location 3020 "type mismatch, expected function name"
    return failed
  match ← emit (.findFunction n.symbol.id) with
  | none => return failed
  | some decl =>
    emit (.defineEntryPoint decl isPixel)
    if isPixel then
      return { d with pixel := some decl, pass := { d.pass with pixelShader := decl.uniqueName } }
    return { d with vertex := some decl, pass := { d.pass with vertexShader := decl.uniqueName } }

/-- A size in messages. -/
def sizeText (width height : UInt32) : String :=
  toString width.toNat ++ "x" ++ toString height.toNat

/-- Renders a pass to a texture. All targets of a pass have one size. -/
def assignRenderTarget (d : PassDraft) (index : Nat) (n : Named) (location : Location) :
    ParseM PassDraft := do
  let failed := { d with valid := false }
  if n.symbol.kind = .invalid then
    error location 3004 ("undeclared identifier " ++ inQuotes n.identifier
      ++ ", expected texture name")
    return failed
  if !n.symbol.type.isTexture then
    error location 3020 "type mismatch, expected texture name"
    return failed
  match ← emit (.findTexture n.symbol.id) with
  | none => return failed
  | some t =>
    emit (.markRenderTarget t.id)
    let { viewportWidth := width, viewportHeight := height, .. } := d.pass
    let differs : Bool := width ≠ 0 && height ≠ 0 && (t.width ≠ width || t.height ≠ height)
    if differs then
      error location 4545
        ("cannot use multiple render targets with different texture dimensions (is "
          ++ sizeText t.width t.height ++ ", but expected " ++ sizeText width height ++ ")")
    let pass :=
      { d.pass with
        viewportWidth := t.width
        viewportHeight := t.height
        renderTargets := d.pass.renderTargets.set index t.uniqueName }
    let convertible : Bool := t.format = .rgba8
    return { d with pass, srgbTargets := d.srgbTargets && convertible,
                    valid := d.valid && !differs }

/-- Reads the name that a state refers to. One that stands in for a failed declaration is not
reported again. -/
def parseReference (d : PassDraft) (r : PassReference) : ParseM (Option PassDraft) := do
  let some n ← acceptSymbol | return none
  let location := (← currentToken).location
  if n.symbol.id = Id.invalid then return some { d with valid := false }
  match r with
  | .vertexShader => return some (← assignShader d false n location)
  | .pixelShader => return some (← assignShader d true n location)
  | .renderTarget index => return some (← assignRenderTarget d index n location)

/-- Reads the value of a state that is a number. -/
def parsePassValue (recurse : Recurse) (d : PassDraft) (state : Token) :
    ParseM (Option PassDraft) := do
  let some e ← parseStateValue recurse passValues | return none
  let literal := e.isConstant && e.type.isScalar
  if !literal then error e.location 3011 "pass state value must be a literal scalar expression"
  let e ← e.addCast (.scalar .uint)
  match d.pass.set? (Text.lower state.text) e.value.word with
  | some pass => return some { d with pass, valid := d.valid && literal }
  | none =>
    error state.location 3004 ("unrecognized pass state " ++ inQuotes state.text)
    return some { d with valid := false }

/-- Reads one state. -/
def parsePassState (recurse : Recurse) (d : PassDraft) : ParseM (Option PassDraft) := do
  if !(← expect .identifier) then return none
  let state ← currentToken
  if !(← expect .equal) then return none
  let read ←
    match PassReference.ofName? (Text.lower state.text) with
    | some r => parseReference d r
    | none => parsePassValue recurse d state
  let some d := read | return none
  if ← expect .semicolon then return some d else return none

/-- Checks that everything that a shader takes and gives has a semantic. Structures have those
of their members. -/
def checkSemantics (location : Location) (decl : FunctionDecl) : ReadM Bool := do
  let noResult : Bool :=
    decl.returnSemantic = "" && !decl.returnType.isVoid && !decl.returnType.isStruct
  if noResult then
    declarationError location 3503 decl.name "function return value is missing semantics"
  let missing := decl.parameters.filter fun p => p.semantic = "" && !p.type.isStruct
  missing.forM fun p =>
    if p.type.has .input then
      declarationError location 3502 decl.name
        ("input parameter " ++ inQuotes p.name ++ " is missing semantics")
    else
      declarationError location 3503 decl.name
        ("output parameter " ++ inQuotes p.name ++ " is missing semantics")
  return !noResult && missing.isEmpty

/-- The outputs of a shader by their semantics. The last of a semantic counts. -/
def outputsOf (decl : FunctionDecl) : Table String Ty :=
  let result :=
    if decl.returnSemantic = "" then [] else [(decl.returnSemantic, decl.returnType)]
  (decl.parameters.filter fun p => p.semantic ≠ "" && p.type.has .output).foldl
    (fun outputs p => Table.set p.semantic p.type outputs) result

/-- Checks one input of a pixel shader against the outputs of the vertex shader. -/
def checkInput (location : Location) (decl : FunctionDecl) (outputs : Table String Ty)
    (p : Member) :
    ReadM Bool := do
  let mismatch : ReadM Bool := do
    warning location 4576
      (inQuotes decl.name ++ ": input parameter " ++ inQuotes p.name
        ++ " semantic does not match vertex shader one")
    return true
  match Table.get? outputs p.semantic with
  | none => mismatch
  | some t =>
    if !t.same p.type then mismatch
    else if (t.qualifiers ^^^ p.type.qualifiers) &&& Qualifiers.interpolation ≠ 0 then
      declarationError location 4568 decl.name
        ("input parameter " ++ inQuotes p.name
          ++ " interpolation qualifiers do not match vertex shader ones")
      return false
    else return true

/-- Checks that the inputs of a pixel shader fit the vertex shader in front of it. -/
def checkStages (location : Location) (vertex pixel : FunctionDecl) : ReadM Bool := do
  let valid ← checkSemantics location vertex
  let inputs := pixel.parameters.filter fun p => p.semantic ≠ "" && p.type.has .input
  let results ← inputs.mapM (checkInput location pixel (outputsOf vertex))
  return valid && results.all id

/-- Checks a pass that was read without errors. -/
def checkPass (location : Location) (d : PassDraft) : ReadM Bool := do
  let some pixel := d.pixel
    | error location 3012 "pass is missing 'PixelShader' property"
      return false
  let pixelValid ← checkSemantics location pixel
  let stagesValid ←
    match d.vertex with
    | some vertex => checkStages location vertex pixel
    | none => pure true
  let convertible := !d.pass.srgbWrite || d.srgbTargets
  if !convertible then
    error location 4582
      "one or more render target(s) do not support sRGB writes (only textures with RGBA8 format do)"
  return pixelValid && stagesValid && convertible

/-- Reads the states of a pass up to its brace, which is left to be read. -/
def parsePassStates (recurse : Recurse) : ParseM (Option PassDraft) :=
  loop (fun (d : PassDraft) => do
    if ← peek .braceClose then return .inr (some d)
    match ← parsePassState recurse d with
    | some d => return .inl d
    | none =>
      consumeUntil .braceClose
      return .inr none) {}

/-- Reads a pass. Its name means nothing. -/
def parsePass (recurse : Recurse) : ParseM (Option Pass) := do
  if !(← expect .passWord) then return none
  let location := (← currentToken).location
  let _ ← accept .identifier
  if !(← expect .braceOpen) then return none
  let some d ← parsePassStates recurse | return none
  let valid ← if d.valid then checkPass location d else pure false
  if !(← expect .braceClose) then return none
  return if valid then some d.pass else none

/-- The passes read so far, and whether all of them are valid. -/
structure Passes where
  passes : List Pass := []
  valid : Bool := true

/-- Reads passes up to the brace behind them, which is left to be read. A pass that is wrong is left
out as long as another follows. -/
def parsePasses (recurse : Recurse) : ParseM (Option Passes) :=
  loop (fun (s : Passes) => do
    if ← peek .braceClose then return .inr (some s)
    match ← parsePass recurse with
    | some pass => return .inl { s with passes := s.passes ++ [pass] }
    | none =>
      if (← peek .passWord) || (← peek .braceClose) then return .inl { s with valid := false }
      consumeUntil .braceClose
      return .inr none) {}

/-- Reads a technique from behind its keyword. -/
def parseTechnique (recurse : Recurse) : ParseM Bool := do
  if !(← expect .identifier) then return false
  let name := (← currentToken).text
  let annotations ← parseAnnotations recurse
  if !(← expect .braceOpen) then return false
  let some s ← parsePasses recurse | return false
  emit (.defineTechnique { name, passes := s.passes, annotations := annotations.entries })
  return (← expect .braceClose) && s.valid && annotations.valid

end Parser
end ShaderEffect
