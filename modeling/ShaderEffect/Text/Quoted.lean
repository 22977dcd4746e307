import ShaderEffect.Text.Printable
import ShaderEffect.Text.Utf8

namespace ShaderEffect.Text

/-- The escape sequence of a character that is not shown as itself. -/
def escapeSequence (code : Nat) : String :=
  match code with
  | 0x07 => "\\a"
  | 0x08 => "\\b"
  | 0x09 => "\\t"
  | 0x0a => "\\n"
  | 0x0b => "\\v"
  | 0x0c => "\\f"
  | 0x0d => "\\r"
  | 0x22 => "\\\""
  | 0x5c => "\\\\"
  | _ =>
    if code < 0x80 then "\\x" ++ hex 2 code
    else if code < 0x10000 then "\\u" ++ hex 4 code
    else "\\U" ++ hex 8 code

/-- Whether a character is written as itself between quotes. -/
def isPlain (code : Nat) : Bool :=
  isPrintable code && code ≠ 0x22 && code ≠ 0x5c

/-- The inside of a quoted text. Bytes that belong to no character are written as such. -/
def quotedBody (cs : List Char) : List Char :=
  match cs with
  | [] => []
  | c :: rest =>
    match firstCharacter? (c :: rest) with
    | some (code, n) =>
      (if isPlain code then (c :: rest).take n else (escapeSequence code).toList)
        ++ quotedBody (rest.drop (n - 1))
    | none => ("\\x" ++ hex 2 c.toNat).toList ++ quotedBody rest
termination_by cs.length
decreasing_by
  all_goals simp only [List.length_cons, List.length_drop]; omega

/-- A text in double quotes. -/
def quoted (s : String) : String :=
  "\"" ++ String.ofList (quotedBody s.toList) ++ "\""

end ShaderEffect.Text
