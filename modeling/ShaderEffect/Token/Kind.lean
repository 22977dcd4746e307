import ShaderEffect.Diagnostic
import ShaderEffect.Number.Decimal

namespace ShaderEffect

namespace Token

/-- What a token is. The order of the constructors is the numbering other tools rely on. -/
inductive Kind where
  | eof | endOfLine | space | unknown
  | exclaim | hash | dollar | percent | ampersand | parenOpen | parenClose | star | plus | comma
  | minus | dot | slash | colon | semicolon | less | equal | greater | question
    | atSign | bracketOpen
  | backslash | bracketClose | caret | braceOpen | pipe | braceClose | tilde
  | exclaimEqual | percentEqual | ampersandAmpersand | ampersandEqual | starEqual | plusPlus
  | plusEqual | minusMinus | minusEqual | arrow | ellipsis | slashEqual | colonColon
  | lessLessEqual | lessLess | lessEqual | equalEqual | greaterGreaterEqual | greaterGreater
  | greaterEqual | caretEqual | pipeEqual | pipePipe
  | identifier | reserved | trueLiteral | falseLiteral | intLiteral | uintLiteral | floatLiteral
  | doubleLiteral | stringLiteral
  | namespaceWord | structWord | techniqueWord | passWord | forWord | whileWord | doWord | ifWord
  | elseWord | switchWord | caseWord | defaultWord | breakWord | continueWord | returnWord
  | discardWord | externWord | staticWord | uniformWord | volatileWord | preciseWord | inWord
  | outWord | inoutWord | constWord | linearWord | noperspectiveWord | centroidWord
  | nointerpolationWord
  | voidType
  | bool1 | bool2 | bool3 | bool4 | bool2x2 | bool3x3 | bool4x4
  | int1 | int2 | int3 | int4 | int2x2 | int3x3 | int4x4
  | uint1 | uint2 | uint3 | uint4 | uint2x2 | uint3x3 | uint4x4
  | float1 | float2 | float3 | float4 | float2x2 | float3x3 | float4x4
  | vectorType | matrixType | stringType | textureType | samplerType
  | hashDefine | hashUndef | hashIf | hashIfdef | hashIfndef | hashElse | hashElif | hashEndif
  | hashError | hashWarning | hashPragma | hashInclude | hashUnknown
deriving DecidableEq, Repr, Inhabited

namespace Kind

/-- The name diagnostics use for a kind. -/
def name : Kind → String
  | eof => "end of file" | endOfLine => "end of line" | space => "space"
  | exclaim => "!" | hash => "#" | dollar => "$" | percent => "%" | ampersand => "&"
  | parenOpen => "(" | parenClose => ")" | star => "*" | plus => "+" | comma => "," | minus => "-"
  | dot => "." | slash => "/" | colon => ":" | semicolon => ";" | less => "<" | equal => "="
  | greater => ">" | question => "?" | atSign => "@" | bracketOpen => "[" | backslash => "\\"
  | bracketClose => "]" | caret => "^" | braceOpen => "\x7b" | pipe => "|" | braceClose => "\x7d"
  | tilde => "~"
  | exclaimEqual => "!=" | percentEqual => "%=" | ampersandAmpersand => "&&"
  | ampersandEqual => "&=" | starEqual => "*=" | plusPlus => "++" | plusEqual => "+="
  | minusMinus => "--" | minusEqual => "-=" | arrow => "->" | ellipsis => "..."
  | slashEqual => "/=" | colonColon => "::" | lessLessEqual => "<<=" | lessLess => "<<"
  | lessEqual => "<=" | equalEqual => "==" | greaterGreaterEqual => ">>=" | greaterGreater => ">>"
  | greaterEqual => ">=" | caretEqual => "^=" | pipeEqual => "|=" | pipePipe => "||"
  | identifier => "identifier" | reserved => "reserved word"
  | trueLiteral => "true" | falseLiteral => "false"
  | intLiteral => "integral literal" | uintLiteral => "integral literal"
  | floatLiteral => "floating point literal" | doubleLiteral => "floating point literal"
  | stringLiteral => "string literal"
  | namespaceWord => "namespace" | structWord => "struct" | techniqueWord => "technique"
  | passWord => "pass" | forWord => "for" | whileWord => "while" | doWord => "do"
  | ifWord => "if" | elseWord => "else" | switchWord => "switch" | caseWord => "case"
  | defaultWord => "default" | breakWord => "break" | continueWord => "continue"
  | returnWord => "return" | discardWord => "discard" | externWord => "extern"
  | staticWord => "static" | uniformWord => "uniform" | volatileWord => "volatile"
  | preciseWord => "precise" | inWord => "in" | outWord => "out" | inoutWord => "inout"
  | constWord => "const" | linearWord => "linear" | noperspectiveWord => "noperspective"
  | centroidWord => "centroid" | nointerpolationWord => "nointerpolation"
  | voidType => "void"
  | bool1 => "bool" | bool2 => "bool2" | bool3 => "bool3" | bool4 => "bool4"
  | bool2x2 => "bool2x2" | bool3x3 => "bool3x3" | bool4x4 => "bool4x4"
  | int1 => "int" | int2 => "int2" | int3 => "int3" | int4 => "int4"
  | int2x2 => "int2x2" | int3x3 => "int3x3" | int4x4 => "int4x4"
  | uint1 => "uint" | uint2 => "uint2" | uint3 => "uint3" | uint4 => "uint4"
  | uint2x2 => "uint2x2" | uint3x3 => "uint3x3" | uint4x4 => "uint4x4"
  | float1 => "float" | float2 => "float2" | float3 => "float3" | float4 => "float4"
  | float2x2 => "float2x2" | float3x3 => "float3x3" | float4x4 => "float4x4"
  | vectorType => "vector" | matrixType => "matrix" | stringType => "string"
  | textureType => "texture" | samplerType => "sampler"
  | unknown | hashDefine | hashUndef | hashIf | hashIfdef | hashIfndef | hashElse | hashElif
  | hashEndif | hashError | hashWarning | hashPragma | hashInclude | hashUnknown => "unknown"

/-- Whether the kind is a numeric or boolean literal. -/
def isLiteral : Kind → Bool
  | trueLiteral | falseLiteral | intLiteral | uintLiteral | floatLiteral | doubleLiteral => true
  | _ => false

/-- The punctuation and operators, longest spelling first. -/
def operators : List Kind :=
  [ellipsis, lessLessEqual, greaterGreaterEqual,
    exclaimEqual, percentEqual, ampersandAmpersand, ampersandEqual, starEqual, plusPlus, plusEqual,
    minusMinus, minusEqual, arrow, slashEqual, colonColon, lessLess, lessEqual, equalEqual,
    greaterGreater, greaterEqual, caretEqual, pipeEqual, pipePipe,
    exclaim, hash, dollar, percent, ampersand, parenOpen, parenClose, star, plus, comma, minus, dot,
    slash, colon, semicolon, less, equal, greater, question, atSign, bracketOpen, backslash,
    bracketClose, caret, braceOpen, pipe, braceClose, tilde]

/-- The operators with their spellings. -/
def operatorSpellings : List (List Char × Kind) :=
  operators.map (fun k => (k.name.toList, k))

/-- The longest operator at the front of a text. -/
def operatorAt? (cs : List Char) : Option Kind :=
  (operatorSpellings.find? (fun p => p.1.isPrefixOf cs)).map (·.2)

end Kind

/-- Words that mean something other than an identifier. -/
def keywords : List (String × Kind) :=
  [("bool", .bool1), ("bool2", .bool2), ("bool2x2", .bool2x2), ("bool3", .bool3),
    ("bool3x3", .bool3x3), ("bool4", .bool4), ("bool4x4", .bool4x4), ("break", .breakWord),
    ("case", .caseWord), ("centroid", .centroidWord), ("const", .constWord),
    ("continue", .continueWord), ("default", .defaultWord), ("discard", .discardWord),
    ("do", .doWord), ("dword", .uint1), ("dword2", .uint2), ("dword2x2", .uint2x2),
    ("dword3", .uint3), ("dword3x3", .uint3x3), ("dword4", .uint4), ("dword4x4", .uint4x4),
    ("else", .elseWord), ("extern", .externWord), ("false", .falseLiteral),
    ("FALSE", .falseLiteral), ("float", .float1), ("float2", .float2), ("float2x2", .float2x2),
    ("float3", .float3), ("float3x3", .float3x3), ("float4", .float4), ("float4x4", .float4x4),
    ("for", .forWord), ("if", .ifWord), ("in", .inWord), ("inout", .inoutWord), ("int", .int1),
    ("int2", .int2), ("int2x2", .int2x2), ("int3", .int3), ("int3x3", .int3x3), ("int4", .int4),
    ("int4x4", .int4x4), ("linear", .linearWord), ("matrix", .matrixType),
    ("namespace", .namespaceWord), ("nointerpolation", .nointerpolationWord),
    ("noperspective", .noperspectiveWord), ("out", .outWord), ("pass", .passWord),
    ("precise", .preciseWord), ("return", .returnWord), ("sampler", .samplerType),
    ("sampler1D", .samplerType), ("sampler2D", .samplerType), ("sampler3D", .samplerType),
    ("static", .staticWord), ("string", .stringType), ("struct", .structWord),
    ("switch", .switchWord), ("technique", .techniqueWord), ("texture", .textureType),
    ("texture1D", .textureType), ("texture2D", .textureType), ("texture3D", .textureType),
    ("true", .trueLiteral), ("TRUE", .trueLiteral), ("uint", .uint1), ("uint2", .uint2),
    ("uint2x2", .uint2x2), ("uint3", .uint3), ("uint3x3", .uint3x3), ("uint4", .uint4),
    ("uint4x4", .uint4x4), ("uniform", .uniformWord), ("vector", .vectorType),
    ("void", .voidType), ("volatile", .volatileWord), ("while", .whileWord)]

/-- Words kept for future use. They are rejected by name. -/
def reservedWords : List String :=
  ["asm", "asm_fragment", "auto", "cast", "catch", "char", "class", "column_major", "compile",
    "const_cast", "delete", "double", "dynamic_cast", "enum", "explicit", "external", "foreach",
    "friend", "globallycoherent", "goto", "groupshared", "half", "half2", "half2x2", "half3",
    "half3x3", "half4", "half4x4", "inline", "interface", "long", "mutable", "new", "noinline",
    "operator", "packed", "packoffset", "private", "protected", "public", "register",
    "reinterpret_cast", "row_major", "sample", "sampler1DArray", "sampler1DArrayShadow",
    "sampler1DShadow", "sampler2DArray", "sampler2DArrayShadow", "sampler2DMS",
    "sampler2DMSArray", "sampler2DShadow", "sampler_state", "samplerCUBE", "samplerRECT",
    "SamplerState", "shared", "short", "signed", "sizeof", "snorm", "static_cast", "template",
    "Texture1D", "Texture1DArray", "Texture2D", "Texture2DArray", "Texture2DMS",
    "Texture2DMSArray", "Texture3D", "textureCUBE", "TextureCube", "TextureCubeArray",
    "textureRECT", "this", "try", "typedef", "union", "unorm", "unsigned", "virtual"]

/-- The kind of an identifier-like word. -/
def wordKind (word : String) : Kind :=
  match keywords.lookup word with
  | some k => k
  | none => if reservedWords.contains word then .reserved else .identifier

/-- The directives that have a meaning of their own. -/
def directives : List (String × Kind) :=
  [("define", .hashDefine), ("undef", .hashUndef), ("if", .hashIf), ("ifdef", .hashIfdef),
    ("ifndef", .hashIfndef), ("else", .hashElse), ("elif", .hashElif), ("endif", .hashEndif),
    ("error", .hashError), ("warning", .hashWarning), ("pragma", .hashPragma),
    ("include", .hashInclude)]

end Token

/-- A token. Integer literals fill `word`; floating point literals fill `single` and `double`.
`text` is the word of an identifier or directive and the decoded text of a string literal. -/
structure Token where
  kind : Token.Kind := .eof
  location : Location := {}
  offset : Nat := 0
  raw : String := ""
  word : UInt32 := 0
  single : Number.Single := ⟨0⟩
  double : UInt64 := 0
  text : String := ""
deriving DecidableEq, Repr, Inhabited

namespace Token

/-- The number of bytes a token covers. -/
def length (t : Token) : Nat :=
  t.raw.length

/-- The value of an integer literal as a signed word. -/
def signed (t : Token) : Int :=
  t.word.toInt32.toInt

end Token

end ShaderEffect
