import ShaderEffect.Text

namespace ShaderEffect.Text

/-- Whether a byte lies between two codes, ends included. -/
def isBetween (first last : Nat) (c : Char) : Bool :=
  first ≤ c.toNat && c.toNat ≤ last

/-- The range of the second byte of an encoded character, and the number of bytes after
it, by its first byte. Longer forms than needed, surrogates and codes beyond the last
character are excluded. -/
def leadByte? (c : Char) : Option (Nat × Nat × Nat) :=
  let n := c.toNat
  if 0xc2 ≤ n && n ≤ 0xdf then some (0x80, 0xbf, 0)
  else if n = 0xe0 then some (0xa0, 0xbf, 1)
  else if n = 0xed then some (0x80, 0x9f, 1)
  else if 0xe1 ≤ n && n ≤ 0xef then some (0x80, 0xbf, 1)
  else if n = 0xf0 then some (0x90, 0xbf, 2)
  else if 0xf1 ≤ n && n ≤ 0xf3 then some (0x80, 0xbf, 2)
  else if n = 0xf4 then some (0x80, 0x8f, 2)
  else none

/-- The character whose UTF-8 form stands in front of a byte string, with the
number of its bytes. -/
def firstCharacter? : List Char → Option (Nat × Nat)
  | [] => none
  | lead :: rest =>
    if lead.toNat < 0x80 then some (lead.toNat, 1)
    else do
      let (low, high, more) ← leadByte? lead
      let tail := rest.take (more + 1)
      if tail.length ≤ more then none
      if !(tail.head?.map (isBetween low high)).getD false then none
      if !tail.all (isBetween 0x80 0xbf) then none
      let first := lead.toNat % (1 <<< (5 - more))
      some (tail.foldl (fun v c => v * 64 + c.toNat % 64) first, more + 2)

/-- The UTF-8 form of a character. -/
def utf8 (code : Nat) : List Char :=
  (String.singleton (Char.ofNat code)).toUTF8.toList.map fun b => Char.ofNat b.toNat

/-- The character that stands for bytes that belong to none. -/
def replacement : Nat := 0xfffd

/-- The characters of a byte string. Each byte that belongs to none counts as the replacement. -/
def codes (cs : List Char) : List Nat :=
  match cs with
  | [] => []
  | c :: rest =>
    match firstCharacter? (c :: rest) with
    | some (code, n) => code :: codes (rest.drop (n - 1))
    | none => replacement :: codes rest
termination_by cs.length
decreasing_by
  all_goals simp only [List.length_cons, List.length_drop]; omega

/-- The byte string with every byte that belongs to no character replaced. -/
def wellFormed (cs : List Char) : List Char :=
  (codes cs).flatMap utf8

end ShaderEffect.Text
