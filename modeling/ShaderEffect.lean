import ShaderEffect.Basic
import ShaderEffect.Batch
import ShaderEffect.Command.Arguments
import ShaderEffect.Command.Compile
import ShaderEffect.Command.Console
import ShaderEffect.Command.Flags
import ShaderEffect.Command.Preprocess
import ShaderEffect.Compilation
import ShaderEffect.Configuration
import ShaderEffect.Configuration.DefinesFile
import ShaderEffect.Configuration.Load
import ShaderEffect.Constant
import ShaderEffect.Descriptors
import ShaderEffect.Diagnostic
import ShaderEffect.Expression
import ShaderEffect.Files
import ShaderEffect.Generator
import ShaderEffect.Glsl.Access
import ShaderEffect.Glsl.Backend
import ShaderEffect.Glsl.EntryPoint
import ShaderEffect.Glsl.Keyword
import ShaderEffect.Glsl.Language
import ShaderEffect.Glsl.Operation
import ShaderEffect.Glsl.Version
import ShaderEffect.Hlsl.Backend
import ShaderEffect.Hlsl.Language
import ShaderEffect.Hlsl.Operation
import ShaderEffect.Hlsl.ShaderModel
import ShaderEffect.Intrinsic
import ShaderEffect.Layout
import ShaderEffect.Main
import ShaderEffect.Module
import ShaderEffect.Number.Decimal
import ShaderEffect.Number.Single
import ShaderEffect.Operator
import ShaderEffect.Parser.ControlFlow
import ShaderEffect.Parser.Function
import ShaderEffect.Parser.Operation
import ShaderEffect.Parser.Postfix
import ShaderEffect.Parser.Primary
import ShaderEffect.Parser.Resource
import ShaderEffect.Parser.Run
import ShaderEffect.Parser.State
import ShaderEffect.Parser.Statement
import ShaderEffect.Parser.Structure
import ShaderEffect.Parser.Technique
import ShaderEffect.Parser.Type
import ShaderEffect.Parser.Variable
import ShaderEffect.Path
import ShaderEffect.Preprocessor.Condition
import ShaderEffect.Preprocessor.Directive
import ShaderEffect.Preprocessor.Expansion
import ShaderEffect.Preprocessor.Input
import ShaderEffect.Preprocessor.Macro
import ShaderEffect.Preprocessor.Run
import ShaderEffect.Proofs.Computation
import ShaderEffect.Proofs.Conditions.Reading
import ShaderEffect.Proofs.Coverage
import ShaderEffect.Proofs.Evaluation
import ShaderEffect.Proofs.Failures.Compilation
import ShaderEffect.Proofs.Failures.Sources
import ShaderEffect.Proofs.Folding.Accesses
import ShaderEffect.Proofs.Folding.Operators
import ShaderEffect.Proofs.Formulas.Values
import ShaderEffect.Proofs.Layout
import ShaderEffect.Proofs.Literals
import ShaderEffect.Proofs.Numbering.Instructions
import ShaderEffect.Proofs.Numbering.Source
import ShaderEffect.Proofs.Numbering.Spirv
import ShaderEffect.Proofs.Output
import ShaderEffect.Proofs.Parsing.Call
import ShaderEffect.Proofs.Parsing.Function
import ShaderEffect.Proofs.Parsing.Rules
import ShaderEffect.Proofs.Parsing.Source
import ShaderEffect.Proofs.Preprocessing.Ahead
import ShaderEffect.Proofs.Preprocessing.Calls
import ShaderEffect.Proofs.Preprocessing.Directives
import ShaderEffect.Proofs.Preprocessing.Groups
import ShaderEffect.Proofs.Preprocessing.Inclusion
import ShaderEffect.Proofs.Preprocessing.Inputs
import ShaderEffect.Proofs.Preprocessing.Lexing
import ShaderEffect.Proofs.Preprocessing.Lines
import ShaderEffect.Proofs.Preprocessing.Locality
import ShaderEffect.Proofs.Preprocessing.Numerals
import ShaderEffect.Proofs.Preprocessing.Quoting
import ShaderEffect.Proofs.Preprocessing.Selection
import ShaderEffect.Proofs.Preprocessing.Texts
import ShaderEffect.Proofs.Reading.Declarations
import ShaderEffect.Proofs.Reading.Sources
import ShaderEffect.Proofs.Reading.Termination
import ShaderEffect.Proofs.Registry
import ShaderEffect.Proofs.Requests.Uniforms
import ShaderEffect.Proofs.Reuse.Sources
import ShaderEffect.Proofs.Source.Functions
import ShaderEffect.Proofs.Spirv.Accounts
import ShaderEffect.Proofs.Spirv.Codec
import ShaderEffect.Proofs.Spirv.ControlFlow
import ShaderEffect.Proofs.Spirv.Frame
import ShaderEffect.Proofs.Spirv.Ids
import ShaderEffect.Proofs.Spirv.Listing
import ShaderEffect.Proofs.Spirv.SingleAssignment
import ShaderEffect.Proofs.Spirv.Strand
import ShaderEffect.Proofs.Spirv.Structure
import ShaderEffect.Proofs.Spirv.Weaving
import ShaderEffect.Proofs.Splicing.Sources
import ShaderEffect.Proofs.Statement
import ShaderEffect.Proofs.Symbols.Blocks
import ShaderEffect.Proofs.Symbols.Overloads
import ShaderEffect.Proofs.Weave.Code
import ShaderEffect.Proofs.Weave.Scene
import ShaderEffect.Proofs.Weave.Simulation
import ShaderEffect.Registry
import ShaderEffect.Script
import ShaderEffect.Source.ControlFlow
import ShaderEffect.Source.Declaration
import ShaderEffect.Source.Line
import ShaderEffect.Source.State
import ShaderEffect.Spirv.Binary
import ShaderEffect.Spirv.Enumerant
import ShaderEffect.Spirv.Generator.Access
import ShaderEffect.Spirv.Generator.Backend
import ShaderEffect.Spirv.Generator.Block
import ShaderEffect.Spirv.Generator.EntryPoint
import ShaderEffect.Spirv.Generator.Intrinsic
import ShaderEffect.Spirv.Generator.State
import ShaderEffect.Spirv.Generator.Types
import ShaderEffect.Spirv.Instruction
import ShaderEffect.Spirv.Listing
import ShaderEffect.Spirv.Opcode
import ShaderEffect.Symbol
import ShaderEffect.Target
import ShaderEffect.Text
import ShaderEffect.Text.LowerCase
import ShaderEffect.Text.Printable
import ShaderEffect.Text.Quoted
import ShaderEffect.Text.Utf8
import ShaderEffect.Token.Kind
import ShaderEffect.Token.Lexer
import ShaderEffect.Token.Literal
import ShaderEffect.Ty
import ShaderEffect.Yaml.Item
import ShaderEffect.Yaml.Lexer
import ShaderEffect.Yaml.Pending
import ShaderEffect.Yaml.Quotation
import ShaderEffect.Yaml.Scalar
import ShaderEffect.Yaml.Timestamp
import ShaderEffect.Yaml.Token
import ShaderEffect.Yaml.Value
import ShaderEffect.Yaml.Writer
