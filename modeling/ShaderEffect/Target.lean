import ShaderEffect.Basic
import ShaderEffect.Text.LowerCase

namespace ShaderEffect.Target

def name : Target → String
  | spirv => "spirv"
  | glsl => "glsl"
  | hlsl => "hlsl"

/-- The extension of files that hold generated code. -/
def extension : Target → String
  | spirv => ".spv"
  | glsl => ".glsl"
  | hlsl => ".hlsl"

/-- The number of a target in settings. -/
def number : Target → UInt8
  | spirv => 0
  | glsl => 1
  | hlsl => 2

/-- The target with a number. -/
def ofNumber? (n : UInt8) : Option Target :=
  [spirv, glsl, hlsl].find? (·.number = n)

/-- The name of the target with a number. A number without a target is named, too. -/
def nameOf (n : UInt8) : String :=
  match ofNumber? n with
  | some t => t.name
  | none => "Target(" ++ toString n.toNat ++ ")"

/-- The extension of the target with a number. Without a target it is that of the first. -/
def extensionOf (n : UInt8) : String :=
  ((ofNumber? n).getD spirv).extension

/-- The target that a text names, whatever its case and the white space around it. -/
def parse? (text : String) : Option Target :=
  match Text.lowerCase (Text.trim text) with
  | "spirv" | "spir-v" | "spv" => some spirv
  | "glsl" => some glsl
  | "hlsl" => some hlsl
  | _ => none

end ShaderEffect.Target
