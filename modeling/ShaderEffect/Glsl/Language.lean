import ShaderEffect.Glsl.Keyword
import ShaderEffect.Glsl.Version
import ShaderEffect.Layout
import ShaderEffect.Source.Declaration

namespace ShaderEffect.Glsl

open Source

structure Options where
  version : Version := .v450
  /-- Names, bindings and constants are those that the host of the binary format expects. -/
  vulkanSemantics : Bool := true
  debugInfo : Bool := false
  uniformsToSpecConstants : Bool := false
  /-- The y component of vertex positions is negated. -/
  invertY : Bool := true
deriving DecidableEq, Repr, Inhabited

/-- The functions that generated code has made use of. -/
structure Helpers where
  modulo : Bool := false
  vectorOr : Bool := false
  vectorAnd : Bool := false
  vectorSelect : Bool := false
  controlFlow : Bool := false
deriving DecidableEq, Repr, Inhabited

/-- What is kept for GLSL in particular. -/
structure Language where
  options : Options := {}
  locations : Interface.Locations := []
  helpers : Helpers := {}
deriving Inhabited

/-- The name of a vector with `n` components, which is a scalar if it has one. -/
def vectorName (base : Base) (n : UInt32) : String :=
  if n = 1 then
    match base with
    | .bool => "bool"
    | .int => "int"
    | .uint => "uint"
    | _ => "float"
  else
    let mark :=
      match base with
      | .bool => "b"
      | .int => "i"
      | .uint => "u"
      | _ => ""
    mark ++ "vec" ++ toString n.toNat

/-- The name of a scalar, vector or matrix type. -/
def numericName (t : Ty) : String :=
  if t.isMatrix then
    if t.rows > 1 then "mat" ++ toString t.rows.toNat ++ "x" ++ toString t.cols.toNat
    else vectorName t.base t.cols
  else vectorName t.base t.rows

/-- Values that have no literal are computed. -/
def specialText (x : Number.Single) : Option String :=
  if x.isNaN then some "(0.0 / 0.0)"
  else if x.isInfinite then some (if x.isNegative then "(-1.0 / 0.0)" else "(1.0 / 0.0)")
  else none

/-- The words for interpolation. -/
def interpolation (t : Ty) : String :=
  interpolationMark "smooth" "noperspective" "centroid" "flat" t

/-- What stands in front of a type. -/
def modifiers : TypeRole → Ty → String
  | .plain, _ => ""
  | .parameter, t => directionMark t
  | .declaration, t | .member, t => preciseMark t

/-- The lines that ask for something in front of a loop or a selection. -/
def attributes (isLoop : Bool) (hint : ControlHint) : Lines :=
  let (on, off) := if isLoop then ("unroll", "dont_unroll") else ("flatten", "dont_flatten")
  let names := (if hint &&& 1 ≠ 0 then [on] else []) ++ (if hint &&& 2 ≠ 0 then [off] else [])
  [.directive "#if GL_EXT_control_flow_attributes", .text 1 ("[[" ++ Text.join ", " names ++ "]]"),
    .directive "#endif"]

instance : Dialect Language where
  target := .glsl
  escape := escapeName
  numericName := numericName
  samplerName := "sampler2D"
  textureName := "texture2D"
  modifiers := modifiers
  semanticSuffix _ := ""
  globalMark := ""
  constantMark _ := "const "
  lineDirective l location := ("#line " ++ toString location.line, l)
  attributes := attributes
  afterAttributes l := { l with helpers := { l.helpers with controlFlow := true } }
  movesBareDeclarations := true

/-- The type in front of the arguments of a constructor. -/
def constructorName (t : Ty) : SourceM Language String := do
  return (← typeName .plain t) ++ arraySuffix t

/-- The literal of a value in which structures and arrays lie at most `depth` deep. The members of a
structure are zero. -/
def literalWithin : (depth : Nat) → Ty → Constant → SourceM Language String
  | 0, _, _ => throw .exhausted
  | depth + 1, t, c => do
    if t.isArray then
      let values ← (← elementsOf t c).mapM (literalWithin depth t.element)
      return callText (← constructorName t) values
    else if t.isStruct then
      let members := ((← get).members? t).getD []
      let values ← members.mapM fun m => literalWithin depth m.type {}
      return callText (← nameOf t.definition) (if values.isEmpty then ["0.0"] else values)
    else return numericLiteral specialText (numericName t) t c

/-- The literal of a value. -/
def literal (t : Ty) (c : Constant) : SourceM Language String := do
  literalWithin (2 * (← get).structs.length + 4) t c

instance : Literals Language := ⟨literal⟩

/-- Notes that a function is made use of. -/
def uses (f : Helpers → Helpers) : SourceM Language Unit :=
  Generator.modifyTarget fun s =>
    { s with dialect := { s.dialect with helpers := f s.dialect.helpers } }

/-- The widths of vectors. -/
def widths : List Nat := [2, 3, 4]

/-- The components of a vector, each as `f` writes it. -/
def componentwise (n : Nat) (f : String → String) : List String :=
  (List.range n).map fun i => f (String.singleton (componentLetter i))

/-- The function that gives what is left by a division, for floats of every shape. -/
def moduloLines : List String :=
  let formula := " \x7b return x - y * trunc(x / y); \x7d"
  let name (type : String) : String := type ++ " fmodHLSL(" ++ type ++ " x, " ++ type ++ " y)"
  let matrixLine (n : Nat) : String :=
    let type := "mat" ++ toString n
    let columns := (List.range n).map fun i => s!"trunc(x[{i}] / y[{i}])"
    name type ++ " \x7b return x - matrixCompMult(y, " ++ callText type columns ++ "); \x7d"
  (name "float" ++ formula) :: widths.map (fun n => name ("vec" ++ toString n) ++ formula)
    ++ widths.map matrixLine

/-- A function that applies an operator to the truth values of two vectors. -/
def logicalLines (name op : String) : List String :=
  widths.map fun n =>
    let type := "bvec" ++ toString n
    type ++ " " ++ name ++ "(" ++ type ++ " a, " ++ type ++ " b) \x7b return "
      ++ callText type (componentwise n fun c => "a." ++ c ++ " " ++ op ++ " b." ++ c) ++ "; \x7d"

/-- The function that selects components of one of two vectors. -/
def selectLines : List String :=
  ["b", "i", "u", ""].flatMap fun mark => widths.map fun n =>
    let type := mark ++ "vec" ++ toString n
    type ++ " compCond(bvec" ++ toString n ++ " cond, " ++ type ++ " a, " ++ type
      ++ " b) \x7b return "
      ++ callText type (componentwise n fun c => "cond." ++ c ++ " ? a." ++ c ++ " : b." ++ c)
      ++ "; \x7d"

/-- What stands in front of the generated code. -/
def preamble (l : Language) : List String :=
  let o := l.options
  let h := l.helpers
  (if o.version.isNone then [] else ["#version " ++ o.version.render])
    ++ (if h.controlFlow then ["#extension GL_EXT_control_flow_attributes : enable"] else [])
    ++ (if o.version.es then
        ["precision highp float;", "precision highp int;", "precision highp sampler2D;"] else [])
    ++ (if h.modulo then moduloLines else [])
    ++ (if h.vectorOr then logicalLines "compOr" "||" else [])
    ++ (if h.vectorAnd then logicalLines "compAnd" "&&" else [])
    ++ (if h.vectorSelect then selectLines else [])

/-- The layout that places a resource. -/
def bindingText (o : Options) (set binding : UInt32) : String :=
  (if o.vulkanSemantics then "set = " ++ toString set.toNat ++ ", " else "")
    ++ "binding = " ++ toString binding.toNat

end ShaderEffect.Glsl
