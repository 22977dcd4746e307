import ShaderEffect.Diagnostic
import ShaderEffect.Module

namespace ShaderEffect

/-- A declaration with the effects it appears in, in order. -/
structure Shared (α : Type) where
  info : α
  effects : List String
deriving Inhabited, Repr

/-- The effect of the first declaration. -/
def Shared.first {α : Type} (s : Shared α) : String :=
  s.effects.headD ""

/-- Adds a declaration of an effect to a list, and gives what was known under its name before. -/
def Shared.declare {α : Type} (name : α → String) (effect : String) (x : α) :
    List (Shared α) → List (Shared α) × Option (Shared α)
  | [] => ([⟨x, [effect]⟩], none)
  | s :: rest =>
    if name s.info = name x then ({ s with effects := s.effects ++ [effect] } :: rest, some s)
    else
      let (rest, known) := declare name effect x rest
      (s :: rest, known)

/-- The declarations of all effects that were merged. -/
structure Registry where
  /-- Textures in the order of their first declarations. -/
  textures : List (Shared Texture) := []
  /-- Uniforms and specialization constants in the order of their first declarations. -/
  uniforms : List (Shared Uniform) := []
  /-- Every technique with its effect. -/
  techniques : List (String × Technique) := []
  diagnostics : Diagnostics := []
deriving Inhabited, Repr

namespace Registry

/-- Reports a warning about an effect as a whole. -/
def warn (r : Registry) (effect message : String) : Registry :=
  let d : Diagnostic :=
    { severity := .warning, stage := .registry, location := { source := effect }, message }
  { r with diagnostics := r.diagnostics ++ [d] }

/-- The extent of a texture. -/
def size (t : Texture) : String :=
  toString t.width.toNat ++ "x" ++ toString t.height.toNat

/-- A name in a message. -/
def named (name : String) : String :=
  "'" ++ name ++ "'"

/-- How a texture differs from its first declaration. -/
def textureConflict? (known new : Texture) : Option String :=
  if known.width ≠ new.width || known.height ≠ new.height then
    some ("is " ++ size new ++ " but " ++ size known)
  else if known.levels ≠ new.levels then
    some ("has " ++ toString new.levels.toNat ++ " mip levels but " ++ toString known.levels.toNat)
  else if known.format ≠ new.format then
    some ("has format " ++ TextureFormat.name new.format ++ " but "
      ++ TextureFormat.name known.format)
  else none

/-- Adds a texture of an effect. Buffers of the host are not tracked. -/
def addTexture (effect : String) (r : Registry) (t : Texture) : Registry :=
  if t.isBackBuffer then r
  else
    let (textures, known?) := Shared.declare Texture.uniqueName effect t r.textures
    let r := { r with textures }
    match known? with
    | none => r
    | some known =>
      match textureConflict? known.info t with
      | none => r
      | some text =>
        r.warn effect ("texture " ++ named t.uniqueName ++ " " ++ text ++ " in "
          ++ named known.first)

/-- Whether two uniforms have the same shape. Qualifiers and ids of structures are
local to an effect. -/
def sameShape (a b : Ty) : Bool :=
  a.base = b.base && a.rows = b.rows && a.cols = b.cols && a.arrayLength = b.arrayLength

/-- Adds a uniform of an effect. -/
def addUniform (effect : String) (r : Registry) (u : Uniform) : Registry :=
  let (uniforms, known?) := Shared.declare Uniform.name effect u r.uniforms
  let r := { r with uniforms }
  match known? with
  | none => r
  | some known =>
    if sameShape known.info.type u.type then r
    else
      r.warn effect <|
        "uniform " ++ named u.name ++ " is declared as " ++ u.type.description ++ " but as "
          ++ known.info.type.description ++ " in " ++ named known.first

/-- Adds a technique of an effect. -/
def addTechnique (effect : String) (r : Registry) (t : Technique) : Registry :=
  let added := { r with techniques := r.techniques ++ [(effect, t)] }
  match r.techniques.find? fun (_, known) => known.name = t.name with
  | none => added
  | some (first, _) =>
    added.warn effect ("technique " ++ named t.name ++ " is also declared in " ++ named first)

/-- Adds the declarations of the module that was generated from an effect. -/
def merge (r : Registry) (effect : String) (m : Module) : Registry :=
  let r := m.textures.foldl (addTexture effect) r
  let r := (m.uniforms ++ m.specConstants).foldl (addUniform effect) r
  m.techniques.foldl (addTechnique effect) r

/-- The texture with a name. -/
def texture? (r : Registry) (name : String) : Option (Shared Texture) :=
  r.textures.find? (·.info.uniqueName = name)

end Registry
end ShaderEffect
