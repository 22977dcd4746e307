import ShaderEffect.Proofs.Spirv.Values
import ShaderEffect.Proofs.Weave.Code

namespace ShaderEffect.Spirv

/-- The operations that end a block. -/
def terminators : List Opcode :=
  [Op.branch, Op.branchConditional, Op.switch, Op.kill, Op.ret, Op.returnValue, Op.unreachable]

/-- A block of a function. A merge instruction stands in front of the terminator. -/
structure Block where
  label : Id
  body : List Instruction := []
  merge : Option Instruction := none
  terminator : Option Instruction := none
deriving DecidableEq, Repr, Inhabited

namespace Block

/-- The instructions of a block. -/
def code (b : Block) : List Instruction :=
  { op := Op.label, result := b.label } :: b.body ++ b.merge.toList ++ b.terminator.toList

end Block

/-- Finished blocks, followed by one that code is added to. -/
structure Strand where
  done : List Block := []
  label : Id
  body : List Instruction := []
  terminator : Option Instruction := none
deriving DecidableEq, Repr, Inhabited

namespace Strand

/-- The blocks of a strand, with a merge instruction in the last one if there is one. -/
def close (k : Strand) (merge : Option Instruction := none) : List Block :=
  k.done ++ [{ label := k.label, body := k.body, merge, terminator := k.terminator }]

/-- The labels of the blocks. -/
def labels (k : Strand) : List Id :=
  k.close.map (·.label)

/-- The label of the first block. -/
def entry (k : Strand) : Id :=
  (k.labels.head?).getD k.label

/-- The code of a strand as it is collected in one basic block. -/
def toBasicBlock (k : Strand) : BasicBlock where
  body := k.done.flatMap Block.code ++ { op := Op.label, result := k.label } :: k.body
  terminator := k.terminator

/-- A strand with blocks in front of it. -/
def behind (k : Strand) (blocks : List Block) : Strand :=
  { k with done := blocks ++ k.done }

/-- A strand with some values computed behind it. -/
def append (k : Strand) (values : List Instruction) : Strand :=
  { k with body := k.body ++ values.filter (·.op ∉ structural) }

end Strand

/-- The instruction that ends a block. What a function returns is noted. -/
def terminator (note : List Instruction) : Ending → Instruction
  | .kill => { op := Op.kill }
  | .giveBack _ =>
    (note.find? fun i => i.op = Op.ret ∨ i.op = Op.returnValue).getD { op := Op.ret }
  | .switch selector target => { op := Op.switch, operands := [selector, target] }
  | .branch target _ => { op := Op.branch, operands := [target] }
  | .branchIf condition yes no => { op := Op.branchConditional, operands := [condition, yes, no] }

/-- The instruction that names the block behind a selection. -/
def mergeOf (merge : Id) (hint : ControlHint) : Instruction :=
  { op := Op.selectionMerge, operands := [merge, hint] }

/-- The instruction that names the block behind a loop and the one in front of its next round. -/
def loopMergeOf (merge next : Id) (hint : ControlHint) : Instruction :=
  { op := Op.loopMerge, operands := [merge, next, hint] }

/-- The blocks of the section that has the default label. Where there is none, the switch statement
leads to the block behind it. -/
def defaultEntry (start : Strand) (sections : List (Labels × Strand)) : Id :=
  ((sections.find? (·.1.isDefault)).map (·.2.entry)).getD start.entry

/-- The values of the case labels, each with the entry of its section. -/
def caseTargets (sections : List (Labels × Strand)) : List UInt32 :=
  sections.flatMap fun s => s.1.literals.flatMap fun value => [value, s.2.entry]

/-- The instruction of a switch statement. -/
def switchOf (d : Dispatch (List Instruction)) (start : Strand)
    (sections : List (Labels × Strand)) :
    Instruction :=
  { op := Op.switch, operands := d.selector :: defaultEntry start sections :: caseTargets sections }

/-- The sections that can be reached, in the order of their code. One that has the default label
only comes last, and what stands in front of all labels is left out. -/
def reachable (sections : List (Labels × Strand)) : List (Labels × Strand) :=
  sections.filter (·.1.literals ≠ [])
    ++ sections.filter fun s => s.1.literals = [] ∧ s.1.isDefault

/-- How the binary target puts code together. -/
def weave : Weave (List Instruction) Strand where
  follows := true
  enter id := { label := id }
  add k note := k.append note
  leave k e note := { k.append note with terminator := some (terminator note e) }
  rest k := k
  ifElse s start test yes no :=
    start.behind (test.close (mergeOf s.merge s.hint) ++ yes.close ++ no.close)
  phi merge note start test yes no :=
    (start.behind (test.close (mergeOf merge 0) ++ (yes.map Strand.close).getD []
      ++ (no.map Strand.close).getD [])).append note
  loop l start before header test body next :=
    start.behind (before.close ++ header.close (loopMergeOf l.merge l.next l.hint)
      ++ (test.map Strand.close).getD [] ++ body.close ++ next.close)
  switch d start selector sections :=
    start.behind ({ selector with terminator := some (switchOf d start sections) : Strand }.close
      (mergeOf d.merge d.hint) ++ (reachable sections).flatMap (·.2.close))

end ShaderEffect.Spirv
