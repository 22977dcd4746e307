import ShaderEffect.Parser.Structure

namespace ShaderEffect.Parser

/-- The named values of properties, in upper case. -/
def resourceValues : List (String × UInt32) :=
  [("NONE", 0), ("POINT", 0), ("LINEAR", 1),
    ("WRAP", 1), ("REPEAT", 1), ("MIRROR", 2), ("CLAMP", 3), ("BORDER", 4),
    ("R8", 1), ("R16F", 2), ("R32F", 3), ("RG8", 4), ("R8G8", 4), ("RG16", 5), ("R16G16", 5),
    ("RG16F", 6), ("R16G16F", 6), ("RG32F", 7), ("R32G32F", 7), ("RGBA8", 8), ("R8G8B8A8", 8),
    ("RGBA16", 9), ("R16G16B16A16", 9), ("RGBA16F", 10), ("R16G16B16A16F", 10), ("RGBA32F", 11),
    ("R32G32B32A32F", 11), ("RGB10A2", 12), ("R10G10B10A2", 12)]

/-- Reads the value of a property or of a pass state: a named value or else an expression. -/
def parseStateValue (recurse : Recurse) (values : List (String × UInt32)) :
    ParseM (Option Expression) := do
  save
  if ← accept .identifier then
    let t ← currentToken
    if let some value := values.lookup (Text.upper t.text) then
      return some (.ofWord t.location value)
    restore
  recurse (.multary 0)

/-- What a block of properties describes. -/
structure Resource where
  texture : Texture := {}
  sampler : Sampler := {}

namespace Resource

def setTexture (r : Resource) (f : Texture → Texture) : Resource :=
  { r with texture := f r.texture }

def setSampler (r : Resource) (f : SamplerState → SamplerState) : Resource :=
  { r with sampler := { r.sampler with state := f r.sampler.state } }

/-- Puts two bits of a filter in place of those at `shift`. -/
def setFilter (f : Filter) (shift : UInt8) (value : UInt32) : Filter :=
  let mask : UInt8 := 3 <<< shift
  (f &&& 0x3f &&& ~~~mask) ||| (value.toUInt8 <<< shift &&& mask)

/-- Sets a property by its name in lower case, unless there is none of that name. -/
def set? (r : Resource) (name : String) (value : UInt32) : Option Resource :=
  let extent := max value 1
  let small := value.toUInt8
  let single := Number.Single.ofInt value.toNat
  match name with
  | "width" => some (r.setTexture ({ · with width := extent }))
  | "height" => some (r.setTexture ({ · with height := extent }))
  | "miplevels" => some (r.setTexture ({ · with levels := extent }))
  | "format" => some (r.setTexture ({ · with format := small }))
  | "srgbtexture" | "srgbreadenable" =>
    some { r with sampler := { r.sampler with srgb := value ≠ 0 } }
  | "addressu" => some (r.setSampler ({ · with addressU := small }))
  | "addressv" => some (r.setSampler ({ · with addressV := small }))
  | "addressw" => some (r.setSampler ({ · with addressW := small }))
  | "minfilter" => some (r.setSampler fun s => { s with filter := setFilter s.filter 4 value })
  | "magfilter" => some (r.setSampler fun s => { s with filter := setFilter s.filter 2 value })
  | "mipfilter" => some (r.setSampler fun s => { s with filter := setFilter s.filter 0 value })
  | "minlod" | "maxmiplevel" => some (r.setSampler ({ · with minLod := single }))
  | "maxlod" => some (r.setSampler ({ · with maxLod := single }))
  | "miplodbias" | "mipmaplodbias" => some (r.setSampler ({ · with lodBias := single }))
  | _ => none

/-- Samples the given texture, and takes over what describes it. -/
def sampling (r : Resource) (t : Texture) : Resource :=
  { texture := t, sampler := { r.sampler with textureName := t.uniqueName } }

end Resource

/-- Applies the property that names a texture. A name that stands in for a failed declaration is not
reported again. -/
def applyTexture (r : Resource) (e : Expression) : ParseM (Option Resource) := do
  if e.base = Id.invalid then return none
  if !e.type.isTexture then
    error e.location 3020 "type mismatch, expected texture name"
    return none
  match ← emit (.findTexture e.base) with
  | some t => return some (r.sampling t)
  | none => return some r

/-- Applies a property whose value is a number. -/
def applyNumber (r : Resource) (location : Location) (name : String) (e : Expression) :
    ReadM (Option Resource) := do
  if !e.isConstant || !e.type.isScalar then
    error e.location 3538 "value must be a literal scalar expression"
    return none
  let e ← e.addCast (.scalar .uint)
  match r.set? (Text.lower name) e.value.word with
  | some r => return some r
  | none =>
    error location 3004 ("unrecognized property " ++ inQuotes name)
    return none

/-- Reads one property. -/
def parseProperty (recurse : Recurse) (r : Resource) : ParseM (Option Resource) := do
  if !(← expect .identifier) then return none
  let { text := name, location, .. } ← currentToken
  if !(← expect .equal) then return none
  let some e ← parseStateValue recurse resourceValues | return none
  let some r ← if Text.lower name = "texture" then applyTexture r e
    else applyNumber r location name e
    | return none
  if ← expect .semicolon then return some r else return none

/-- Reads a block of properties from behind its brace. -/
def parseProperties (recurse : Recurse) : ParseM (Option Resource) :=
  loop (fun (r : Resource) => do
    if ← peek .braceClose then
      if ← expect .braceClose then return .inr (some r) else return .inr none
    match ← parseProperty recurse r with
    | some r => return .inl r
    | none =>
      consumeUntil .braceClose
      return .inr none) {}

end ShaderEffect.Parser
