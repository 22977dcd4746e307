import ShaderEffect.Text
import ShaderEffect.Ty

namespace ShaderEffect.Layout

/-- Rounds a size up to a power of two. -/
def alignUp (size alignment : UInt32) : UInt32 :=
  (size + (alignment - 1)) &&& ~~~(alignment - 1)

/-- The size of `n` elements of which all but the last are padded. -/
def alignUpArray (size alignment n : UInt32) : UInt32 :=
  alignUp size alignment * (n - 1) + size

/-- Size and alignment of a uniform. A matrix is one 16 byte row per row, and each array element
takes a multiple of 16 bytes. -/
def extent (t : Ty) : UInt32 × UInt32 :=
  let (size, alignment) :=
    if t.isMatrix then (t.rows * 16, 16)
    else if t.rows = 2 then (8, 8)
    else if t.rows > 2 then (t.rows * 4, 16)
    else (4, 4)
  if t.isArray && t.arrayLength > 0 then
    (alignUp size 16 * UInt32.ofInt t.arrayLength, 16)
  else (size, alignment)

/-- Where a uniform lies in the block. -/
structure Slot where
  size : UInt32 := 0
  offset : UInt32 := 0
deriving DecidableEq, Repr, Inhabited

/-- The end of a slot. -/
def Slot.stop (s : Slot) : UInt32 :=
  s.offset + s.size

/-- The slot of a uniform behind `total` bytes that are already taken. -/
def place (t : Ty) (total : UInt32) : Slot :=
  let (size, alignment) := extent t
  { size, offset := alignUp total alignment }

/-- The distance between two elements of an array of uniforms. -/
def arrayStride (t : Ty) : UInt32 :=
  alignUp (extent t.element).1 16

end ShaderEffect.Layout

namespace ShaderEffect.Interface

/-- The semantics that have a location; the position in the list is the location. -/
abbrev Locations := List String

/-- A semantic without a trailing digit is the same as its variant 0. -/
def numbered (semantic : String) : String :=
  if (semantic.toList.getLast?.map Text.isDigit).getD false then semantic else semantic ++ "0"

/-- The number of a render target semantic, which is its location. -/
def targetNumber? (semantic : String) : Option Int :=
  ["SV_TARGET", "COLOR"].findSome? fun beginning =>
    (Text.stripBeginning? beginning semantic).bind Text.parseInt?

/-- The location of a semantic, and the table with that location taken. -/
def locate (table : Locations) (semantic : String) : UInt32 × Locations :=
  let semantic := numbered semantic
  match targetNumber? semantic with
  | some n => (UInt32.ofInt n, table)
  | none =>
    match table.findIdx? (· = semantic) with
    | some i => (UInt32.ofNat i, table)
    | none => (UInt32.ofNat table.length, table ++ [semantic])

end ShaderEffect.Interface
