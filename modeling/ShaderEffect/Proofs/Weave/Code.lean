import ShaderEffect.Proofs.Statement

namespace ShaderEffect

variable {π κ : Type}

/-- How a block is ended. -/
inductive Ending where
  | kill
  | giveBack (value : Id)
  | switch (selector defaultTarget : Id)
  | branch (target : Id) (flow : Flow)
  | branchIf (condition yes no : Id)

/-- How a target puts code together. `κ` is the code that is collected in a block, and `π` is what
is noted of a request. -/
structure Weave (π κ : Type) where
  /-- Whether a loop finds the code that moved on from the block that its next
  round starts behind. -/
  follows : Bool
  enter : Id → κ
  add : κ → π → κ
  leave : κ → Ending → π → κ
  /-- What is left in a block whose code was put into another. -/
  rest : κ → κ
  ifElse (s : Selection π) (start test yes no : κ) : κ
  /-- A short circuit that ends in the given block. An arm that is no block of its
  own has no code. -/
  phi (merge : Id) (note : π) (start test : κ) (yes no : Option κ) : κ
  loop (l : Looping π) (start before header : κ) (test : Option κ) (body next : κ) : κ
  switch (d : Dispatch π) (start selector : κ) (sections : List (Labels × κ)) : κ

namespace Ending

/-- The end of a block that leads to another. -/
abbrev goOn (target : Id) : Ending :=
  .branch target .plain

end Ending

/-- How a block is left for good. -/
def Exit.ending : Exit π → Ending
  | discard .. => .kill
  | giveBack value .. => .giveBack value
  | jump target _ flow => .branch target flow

/-- What is noted of the end of a block. -/
def Exit.note [Inhabited π] : Exit π → π
  | discard _ note | giveBack _ _ note => note
  | jump .. => default

/-- The block in which an evaluation ends that begins in the given one. -/
def Evaluation.tip (b : Id) : Evaluation π → Id
  | .nothing | .step _ | .folded .. => b
  | .andThen x y => y.tip (x.tip b)
  | .circuit c _ => c.merge
  | .choice c _ _ => c.merge

/-- The block in which a statement ends that begins in the given one. -/
def Statement.tip (b : Id) : Statement π → Id
  | .nothing => b
  | .andThen x y => y.tip (x.tip b)
  | .nested body => body.tip b
  | .evaluate _ value => value.tip b
  | .leave value _ => value.tip b
  | .branch s _ _ _ => s.merge
  | .switch d _ _ => d.merge
  | .forLoop l .. | .whileLoop l .. | .doLoop l .. => l.merge

/-- Whether a statement leaves its block for good. -/
def Statement.ends : Statement π → Bool
  | .leave .. => true
  | .andThen x y => x.ends || y.ends
  | .nested body => body.ends
  | _ => false

/-- Whether nothing was generated for a statement. -/
def Statement.isIdle : Statement π → Bool
  | .nothing => true
  | .andThen x y => x.isIdle && y.isIdle
  | _ => false

theorem Statement.ends_of_isIdle : {t : Statement π} → t.isIdle = true → t.ends = false
  | .nothing, _ => rfl
  | .andThen x y, h => by
    rw [isIdle, Bool.and_eq_true] at h
    rw [ends, ends_of_isIdle h.1, ends_of_isIdle h.2, Bool.or_false]

theorem Statement.tip_of_isIdle (b : Id) : {t : Statement π} → t.isIdle = true → t.tip b = b
  | .nothing, _ => rfl
  | .andThen x y, h => by
    rw [isIdle, Bool.and_eq_true] at h
    rw [tip, tip_of_isIdle b h.1, tip_of_isIdle b h.2]

mutual

/-- Whether nothing was generated behind the parts of a statement that leave their
blocks for good. -/
def Statement.Live : Statement π → Prop
  | .nothing | .evaluate .. | .leave .. => True
  | .andThen x y => x.Live ∧ y.Live ∧ (x.ends = true → y.isIdle = true)
  | .nested body => body.Live
  | .branch _ _ yes no => yes.Live ∧ no.Live
  | .switch _ _ sections => sections.Live
  | .forLoop _ _ _ _ _ body | .whileLoop _ _ _ body | .doLoop _ body _ => body.Live

/-- Whether sections of a switch statement are left in some way, and nothing was
generated behind that. -/
def Sections.Live : Sections π → Prop
  | .last _ _ body => body.Live ∧ body.ends = true
  | .more _ _ body _ rest => body.Live ∧ body.ends = true ∧ rest.Live

end

theorem Statement.live_of_isIdle : {t : Statement π} → t.isIdle = true → t.Live
  | .nothing, _ => trivial
  | .andThen x y, h => by
    rw [isIdle, Bool.and_eq_true] at h
    exact ⟨live_of_isIdle h.1, live_of_isIdle h.2, fun _ => h.2⟩

mutual

/-- The switch statements in a statement. -/
def Statement.switches : Statement π → List (Dispatch π × Sections π)
  | .nothing | .evaluate .. | .leave .. => []
  | .andThen x y => x.switches ++ y.switches
  | .nested body => body.switches
  | .branch _ _ yes no => yes.switches ++ no.switches
  | .switch d _ sections => (d, sections) :: sections.switches
  | .forLoop _ _ _ _ _ body | .whileLoop _ _ _ body | .doLoop _ body _ => body.switches

def Sections.switches : Sections π → List (Dispatch π × Sections π)
  | .last _ _ body => body.switches
  | .more _ _ body _ rest => body.switches ++ rest.switches

end

/-- The switch statements in a part of a source. -/
def Item.switches : Item π → List (Dispatch π × Sections π)
  | .outside .. | .evaluate _ => []
  | .procedure f => f.body.switches

namespace Weave

variable [Inhabited π] (W : Weave π κ)

/-- Code with some steps behind it. -/
def addSteps (k : κ) (steps : List (Step π)) : κ :=
  steps.foldl (fun k s => W.add k s.val.note) k

/-- A block that leads to another. -/
def goOn (k : κ) (target : Id) : κ :=
  W.leave k (.goOn target) default

/-- A block that ends by a condition. -/
def goOnIf (k : κ) (condition yes no : Id) : κ :=
  W.leave k (.branchIf condition yes no) default

/-- The code of the left operand of a short circuit. -/
def circuitTest (c : Circuit π) (k : κ) : κ :=
  W.goOnIf (W.addSteps k c.tests) c.condition c.right c.merge

/-- The code of the condition of a choice. -/
def choiceTest (c : Choice π) (k : κ) : κ :=
  W.goOnIf (W.addSteps k c.tests) c.value c.yes c.no

/-- The code in the block in which an evaluation began, once it has ended. -/
def remainder (k : κ) : Evaluation π → κ
  | .nothing | .folded .. => k
  | .step s => W.add k s.val.note
  | .andThen x y => if x.moves then remainder k x else remainder (remainder k x) y
  | .circuit c _ => W.rest (W.circuitTest c k)
  | .choice c _ _ => W.rest (W.choiceTest c k)

/-- The code of an operand or arm that is read in a block of its own, ended by what is done once all
operands have been read. -/
def operand (t : Evaluation π) (block : Id) (loads : List (Step π)) (merge : Id) : κ :=
  W.goOn (W.addSteps (W.remainder (W.enter block) t) loads) merge

/-- The code in the block in which an evaluation ends. -/
def run (k : κ) : Evaluation π → κ
  | .nothing | .folded .. => k
  | .step s => W.add k s.val.note
  | .andThen x y => run (run k x) y
  | .circuit c t =>
    W.phi c.merge c.note (W.enter c.merge) (W.circuitTest c k)
      (some (W.operand t c.right c.loads c.merge)) none
  | .choice c yes no =>
    W.phi c.merge c.note (W.enter c.merge) (W.choiceTest c k)
      (some (W.operand yes c.yes c.yesLoads c.merge)) (some (W.operand no c.no c.noLoads c.merge))

/-- The code that a loop runs in front of its next round, as far as the loop finds it. -/
def nextCode (t : Evaluation π) (next : Id) (ending : Ending) : κ :=
  if t.moves && !W.follows then W.remainder (W.enter next) t
    else W.leave (W.run (W.enter next) t) ending default

/-- The code in the block of a loop's condition. -/
def testCode (l : Looping π) (first : Id) : Option (Evaluation π) → κ
  | some test => W.goOnIf (W.run (W.enter first) test) l.condition l.body l.merge
  | none => W.goOn (W.enter first) l.body

/-- A block that leads to another unless it was left before. -/
def goOnUnless (ended : Bool) (k : κ) (target : Id) : κ :=
  if ended then k else W.goOn k target

mutual

/-- The code in the block in which a statement ends. -/
def flow (k : κ) : Statement π → κ
  | .nothing => k
  | .andThen x y => flow (flow k x) y
  | .nested body => flow k body
  | .evaluate _ value => W.run k value
  | .leave value exit => W.leave (W.run k value) exit.ending exit.note
  | .branch s test yes no =>
    W.ifElse s (W.enter s.merge) (W.goOnIf (W.run k test) s.condition s.yes s.no)
      (W.goOnUnless yes.ends (flow (W.enter s.yes) yes) s.merge)
      (W.goOnUnless no.ends (flow (W.enter s.no) no) s.merge)
  | .switch d selector sections =>
    W.switch d (W.enter d.merge) (W.run k selector) (sectionCodes (W.enter d.first) sections)
  | .forLoop l first start test step body =>
    W.loop l (W.enter l.merge) (W.goOn (W.run k start) l.header) (W.goOn (W.enter l.header) first)
      (some (W.testCode l first test))
      (W.goOnUnless body.ends (flow (W.enter l.body) body) l.next)
      (W.nextCode step l.next (.goOn l.header))
  | .whileLoop l first test body =>
    W.loop l (W.enter l.merge) (W.goOn k l.header) (W.goOn (W.enter l.header) first)
      (some (W.testCode l first (some test)))
      (W.goOnUnless body.ends (flow (W.enter l.body) body) l.next)
      (W.goOn (W.enter l.next) l.header)
  | .doLoop l body test =>
    W.loop l (W.enter l.merge) (W.goOn k l.header) (W.goOn (W.enter l.header) l.body) none
      (W.goOnUnless body.ends (flow (W.enter l.body) body) l.next)
      (W.nextCode test l.next (.branchIf l.condition l.header l.merge))

/-- The code of the sections of a switch statement, with their labels. -/
def sectionCodes (k : κ) : Sections π → List (Labels × κ)
  | .last l values body => [(l, flow (W.run k values) body)]
  | .more l values body next rest =>
    (l, flow (W.run k values) body) :: sectionCodes (W.enter next) rest

end

theorem flow_of_isIdle (k : κ) : {t : Statement π} → t.isIdle = true → W.flow k t = k
  | .nothing, _ => rfl
  | .andThen x y, h => by
    rw [Statement.isIdle, Bool.and_eq_true] at h
    rw [flow, flow_of_isIdle k h.1, flow_of_isIdle k h.2]

/-- The code of a function. -/
def function (f : Procedure π) : κ :=
  let k := W.flow (W.enter f.entry) f.body
  match f.fallsOut with
  | some (_, note) => W.leave k (.giveBack 0) note
  | none => k

end Weave
end ShaderEffect
