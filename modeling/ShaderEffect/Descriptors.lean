import ShaderEffect.Module
import ShaderEffect.Yaml.Writer

namespace ShaderEffect.Descriptors

open Yaml

def number (n : UInt32) : Node :=
  .plain (toString n.toNat)

def flag (b : Bool) : Node :=
  .plain (if b then "true" else "false")

/-- A float, in words if it is not finite. -/
def single (x : Number.Single) : Node :=
  .plain <|
    if x.isNaN then ".nan"
    else if x.isInfinite then if x.isNegative then "-.inf" else ".inf"
    else x.literal

/-- An entry that is left out if its flag is not set. -/
def flagEntry (key : String) (b : Bool) : List (String × Node) :=
  if b then [(key, flag b)] else []

/-- A list that is left out if it is empty. -/
def listEntry {α : Type} (key : String) (f : α → Node) (xs : List α) : List (String × Node) :=
  if xs.isEmpty then [] else [(key, .list (xs.map f))]

/-- One component of a value. -/
def laneValue (base : Base) (lane : UInt32) : Node :=
  match base with
  | .bool => flag (lane ≠ 0)
  | .int => .plain (toString lane.toInt32.toInt)
  | .uint => number lane
  | _ => single ⟨lane⟩

/-- The components of a value, in a list unless it is a scalar. -/
def lanesValue (t : Ty) (c : Constant) : Node :=
  match (c.lanes.toList.take t.components.toNat).map (laneValue t.base) with
  | [lane] => lane
  | lanes => .list lanes

/-- A compile-time value. -/
def constant (t : Ty) (c : Constant) : Node :=
  if t.base = .string then .text c.text
  else if t.isArray then .list (c.elements.map (lanesValue t.element))
  else lanesValue t c

def annotation (a : Annotation) : Node :=
  .map [("name", .text a.name), ("type", .text a.type.description),
    ("value", constant a.type a.value)]

def annotations (as : List Annotation) : List (String × Node) :=
  listEntry "annotations" annotation as

def entryPoint (e : EntryPoint) : Node :=
  .map [("name", .text e.name), ("stage", .text (if e.isPixelShader then "pixel" else "vertex"))]

def texture (t : Texture) : Node :=
  .map <|
    [("name", .text t.uniqueName)]
    ++ (if t.semantic = "" then [] else [("semantic", .text t.semantic)])
    ++ [("binding", number t.binding), ("width", number t.width), ("height", number t.height),
      ("levels", number t.levels), ("format", .text (TextureFormat.name t.format))]
    ++ flagEntry "render_target" t.renderTarget ++ annotations t.annotations

/-- The name of an address mode, empty for a number that is none. -/
def addressName (m : AddressMode) : String :=
  if m = .wrap then "wrap"
  else if m = .mirror then "mirror"
  else if m = .clamp then "clamp"
  else if m = .border then "border"
  else ""

def filterName (f : Filter) : String :=
  let mode (linear : Bool) : String := if linear then "linear" else "point"
  "min_" ++ mode f.minLinear ++ "_mag_" ++ mode f.magLinear ++ "_mip_" ++ mode f.mipLinear

def sampler (s : Sampler) : Node :=
  let state := s.state
  .map <|
    [("name", .text s.uniqueName), ("texture", .text s.textureName), ("binding", number s.binding),
      ("texture_binding", number s.textureBinding), ("filter", .text (filterName state.filter)),
      ("address", .row ([state.addressU, state.addressV, state.addressW].map addressName)),
      ("min_lod", single state.minLod), ("max_lod", single state.maxLod),
      ("lod_bias", single state.lodBias)]
    ++ flagEntry "srgb" s.srgb ++ annotations s.annotations

def uniform (u : Uniform) : Node :=
  .map <|
    [("name", .text u.name), ("type", .text u.type.description), ("offset", number u.slot.offset),
      ("size", number u.slot.size)]
    ++ (if u.hasInitializer then [("initializer", constant u.type u.initializer)] else [])
    ++ annotations u.annotations

def pass (p : Pass) : Node :=
  .map <|
    [("vertex_shader", .text p.vertexShader), ("pixel_shader", .text p.pixelShader)]
    ++ listEntry "render_targets" .text (p.renderTargets.filter (· ≠ ""))
    ++ flagEntry "blend_enable" p.blend ++ flagEntry "stencil_enable" p.stencil
    ++ flagEntry "srgb_write" p.srgbWrite ++ flagEntry "clear_render_targets" p.clearTargets
    ++ [("color_write_mask", number p.colorWriteMask.toUInt32), ("vertex_count", number p.vertices)]

def technique (t : Technique) : Node :=
  .map ([("name", .text t.name), ("passes", .list (t.passes.map pass))]
    ++ annotations t.annotations)

/-- The document of a module. -/
def ofModule (m : Module) : Node :=
  .map <|
    [("entry_points", .list (m.entryPoints.map entryPoint))]
    ++ listEntry "textures" texture m.textures ++ listEntry "samplers" sampler m.samplers
    ++ listEntry "uniforms" uniform m.uniforms ++ listEntry "spec_constants" uniform m.specConstants
    ++ listEntry "techniques" technique m.techniques
    ++ [("total_uniform_size", number m.uniformSize),
      ("num_texture_bindings", number m.textureBindings),
      ("num_sampler_bindings", number m.samplerBindings)]

end ShaderEffect.Descriptors
