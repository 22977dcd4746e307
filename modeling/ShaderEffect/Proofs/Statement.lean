import ShaderEffect.Proofs.Evaluation

namespace ShaderEffect

variable {π : Type}

/-- How a block is left for good. -/
inductive Exit (π : Type) where
  | discard (ended : Id) (note : π)
  | giveBack (value ended : Id) (note : π)
  | jump (target ended : Id) (flow : Flow)

/-- The blocks of an if statement. -/
structure Selection (π : Type) where
  yes : Id
  no : Id
  merge : Id
  condition : Id
  conditionEnd : Id
  yesEnd : Id
  noEnd : Id
  location : Location
  hint : ControlHint
  note : π

/-- The blocks of a loop, with those in which its parts ended. -/
structure Looping (π : Type) extends Parser.LoopBlocks where
  before : Id
  headerEnd : Id
  condition : Id
  conditionEnd : Id
  bodyEnd : Id
  nextEnd : Id
  location : Location
  hint : ControlHint
  note : π

/-- The blocks of a switch statement apart from those of its sections. -/
structure Dispatch (π : Type) where
  merge : Id
  selector : Id
  selectorEnd : Id
  /-- The block of the first section. -/
  first : Id
  defaultLabel : Id
  location : Location
  hint : ControlHint
  note : π

/-- The labels of a section of a switch statement, and the block in which the section ended. -/
structure Labels where
  literals : List UInt32
  isDefault : Bool
  ended : Id

mutual

/-- What reading a statement, or several, had generated. -/
inductive Statement (π : Type) where
  | nothing
  | andThen (first second : Statement π)
  | nested (body : Statement π)
  | evaluate (inFunction : Bool) (value : Evaluation π)
  | leave (value : Evaluation π) (exit : Exit π)
  | branch (s : Selection π) (test : Evaluation π) (yes no : Statement π)
  | switch (d : Dispatch π) (selector : Evaluation π) (sections : Sections π)
  /-- A loop that is left by its condition, if it has one, in front of each round. -/
  | forLoop (l : Looping π) (first : Id) (start : Evaluation π) (test : Option (Evaluation π))
      (step : Evaluation π) (body : Statement π)
  | whileLoop (l : Looping π) (first : Id) (test : Evaluation π) (body : Statement π)
  | doLoop (l : Looping π) (body : Statement π) (test : Evaluation π)

/-- The sections of a switch statement. Evaluating labels belongs to the section behind them. -/
inductive Sections (π : Type) where
  | last (labels : Labels) (values : Evaluation π) (body : Statement π)
  | more (labels : Labels) (values : Evaluation π) (body : Statement π) (next : Id)
      (rest : Sections π)

end

/-- What reading a function had generated. -/
structure Procedure (π : Type) where
  location : Location
  decl : FunctionDecl
  made : FunctionDecl
  entry : Id
  body : Statement π
  /-- The end of the body, if it is reached: the block that ended there, with the
  note of its return. -/
  fallsOut : Option (Id × π)

/-- Requests that are made between functions only. -/
def Request.isOutside : Request → Bool
  | defineStruct .. | defineTexture .. | defineSampler .. | defineUniform .. => true
  | defineEntryPoint .. | markRenderTarget _ | defineTechnique _ => true
  | defineVariable _ _ _ isGlobal _ => isGlobal
  | _ => false

/-- What reading a part of a source outside of functions had generated, or a function. -/
inductive Item (π : Type) where
  | outside (e : Entry π) (h : e.request.isOutside = true)
  | evaluate (value : Evaluation π)
  | procedure (f : Procedure π)

/-- The values of case labels, with the blocks in which their sections ended. -/
def Labels.cases (ls : List Labels) : List (UInt32 × Id) :=
  ls.flatMap fun l => l.literals.map fun value => (value, l.ended)

/-- The block in which the section of the default label ended. -/
def Labels.default? (ls : List Labels) : Option Id :=
  (ls.find? (·.isDefault)).map (·.ended)

namespace Sections

/-- The labels of the sections, in order. -/
def labels : Sections π → List Labels
  | last l _ _ => [l]
  | more l _ _ _ rest => l :: rest.labels

/-- The values of case labels, with the blocks in which their sections ended. -/
def cases (s : Sections π) : List (UInt32 × Id) :=
  Labels.cases s.labels

end Sections

section Entries

variable [Inhabited π]

def Exit.entry : Exit π → Entry π
  | discard ended note => ⟨.leaveAndKill, ended, note⟩
  | giveBack value ended note => ⟨.leaveAndReturn value, ended, note⟩
  | jump target ended flow => .quiet (.leaveAndBranch target flow) ended

/-- The requests in front of every statement that is neither empty nor a block. -/
def statementStart : List (Entry π) :=
  [.quiet .isInBlock true, .quiet .isInFunction true]

/-- The requests that end a block by leading to another, which is started. -/
def goOn (target ended next : Id) : List (Entry π) :=
  [.quiet (.leaveAndBranch target .plain) ended, .quiet (.enterBlock next) ()]

/-- The requests that end a block by a condition, and start another. -/
def goOnIf (condition yes no ended next : Id) : List (Entry π) :=
  [.quiet (.leaveAndBranchConditional condition yes no) ended, .quiet (.enterBlock next) ()]

/-- The requests that make the blocks of a loop. -/
def Looping.makes (l : Looping π) : List (Entry π) :=
  [.quiet .makeId l.merge, .quiet .makeId l.header, .quiet .makeId l.next, .quiet .makeId l.body]

/-- The requests that enter a loop and lead on to its first block. -/
def Looping.opens (l : Looping π) (first : Id) : List (Entry π) :=
  goOn l.header l.before l.header ++ goOn first l.headerEnd first

/-- The request that generates a loop. -/
def Looping.closes (l : Looping π) (conditionEnd : Id) : Entry π :=
  ⟨.emitLoop l.location l.condition l.before l.header conditionEnd l.bodyEnd l.next l.hint, (),
    l.note⟩

mutual

/-- The requests of a statement, in order. -/
def Statement.entries : Statement π → List (Entry π)
  | .nothing => []
  | .andThen a b => a.entries ++ b.entries
  | .nested body => .quiet .isInBlock true :: body.entries
  | .evaluate inFunction value =>
    .quiet .isInBlock true :: .quiet .isInFunction inFunction :: value.entries
  | .leave value exit => statementStart ++ value.entries ++ [exit.entry]
  | .branch s test yes no =>
    statementStart ++ [.quiet .makeId s.yes, .quiet .makeId s.no, .quiet .makeId s.merge]
      ++ test.entries ++ goOnIf s.condition s.yes s.no s.conditionEnd s.yes ++ yes.entries
      ++ goOn s.merge s.yesEnd s.no ++ no.entries ++ goOn s.merge s.noEnd s.merge
      ++ [⟨.emitIf s.location s.condition s.conditionEnd s.yesEnd s.noEnd s.hint, (), s.note⟩]
  | .switch d selector sections =>
    statementStart ++ [.quiet .makeId d.merge] ++ selector.entries
      ++ [.quiet (.leaveAndSwitch d.selector d.merge) d.selectorEnd, .quiet .makeId d.first,
        .quiet (.enterBlock d.first) ()]
      ++ sections.entries d.merge
      ++ [⟨.emitSwitch d.location d.selector d.selectorEnd d.defaultLabel sections.cases d.hint,
        (), d.note⟩]
  | .forLoop l first start test step body =>
    statementStart ++ start.entries ++ l.makes ++ [.quiet .makeId first] ++ l.opens first
      ++ (match test with
        | some test => test.entries ++ goOnIf l.condition l.body l.merge l.conditionEnd l.next
        | none => goOn l.body l.conditionEnd l.next)
      ++ step.entries ++ goOn l.header l.nextEnd l.body ++ body.entries
      ++ goOn l.next l.bodyEnd l.merge
      ++ [l.closes l.conditionEnd]
  | .whileLoop l first test body =>
    statementStart ++ l.makes ++ [.quiet .makeId first] ++ l.opens first ++ test.entries
      ++ goOnIf l.condition l.body l.merge l.conditionEnd l.body ++ body.entries
      ++ goOn l.next l.bodyEnd l.next ++ goOn l.header l.nextEnd l.merge
      ++ [l.closes l.conditionEnd]
  | .doLoop l body test =>
    statementStart ++ l.makes ++ l.opens l.body ++ body.entries ++ goOn l.next l.bodyEnd l.next
      ++ test.entries ++ goOnIf l.condition l.header l.merge l.nextEnd l.merge ++ [l.closes 0]

/-- The requests of the sections of a switch statement that is followed by the block `merge`. -/
def Sections.entries (merge : Id) : Sections π → List (Entry π)
  | .last l values body =>
    values.entries ++ body.entries ++ .quiet .isInBlock false :: goOn merge l.ended merge
  | .more l values body next rest =>
    values.entries ++ body.entries ++ .quiet .isInBlock false
      :: .quiet .makeId next :: goOn next l.ended next
      ++ rest.entries merge

end

/-- The requests that are made for the body of a function, in order. -/
def Procedure.inside (f : Procedure π) : List (Entry π) :=
  [.quiet .makeId f.entry, .quiet (.enterBlock f.entry) ()] ++ f.body.entries
    ++ .quiet .isInBlock f.fallsOut.isSome
      :: f.fallsOut.toList.map fun (ended, note) => ⟨.leaveAndReturn 0, ended, note⟩

/-- The requests of a function, in order. -/
def Procedure.entries (f : Procedure π) : List (Entry π) :=
  .quiet (.defineFunction f.location f.decl) f.made :: f.inside ++ [.quiet .leaveFunction ()]

def Item.entries : Item π → List (Entry π)
  | outside e _ => [e]
  | evaluate value => value.entries
  | procedure f => f.entries

end Entries

/-- Requests that are made for the body of a function. -/
def Request.isInside : Request → Bool
  | .defineFunction .. | .leaveFunction => false
  | r => !r.isOutside

theorem Request.isInside_of_isPlain {r : Request} (h : r.isPlain = true) : r.isInside = true := by
  cases r with
  | defineVariable _ _ _ isGlobal _ => simpa [isInside, isOutside, isPlain] using h
  | _ => first | rfl | cases h

section Inside

variable [Inhabited π]

/-- Whether some entries are all made for the body of a function. -/
def areInside (es : List (Entry π)) : Bool :=
  es.all (·.request.isInside)

omit [Inhabited π] in
@[simp] theorem areInside_append (es fs : List (Entry π)) :
    areInside (es ++ fs) = (areInside es && areInside fs) :=
  List.all_append

omit [Inhabited π] in
@[simp] theorem areInside_cons (e : Entry π) (es : List (Entry π)) :
    areInside (e :: es) = (e.request.isInside && areInside es) :=
  List.all_cons

omit [Inhabited π] in
@[simp] theorem areInside_nil : areInside ([] : List (Entry π)) = true :=
  rfl

omit [Inhabited π] in
@[simp] theorem areInside_steps (steps : List (Step π)) :
    areInside (Step.entries steps) = true := by
  simp only [areInside, Step.entries, List.all_eq_true, List.mem_map]
  rintro _ ⟨s, -, rfl⟩
  exact Request.isInside_of_isPlain s.property

theorem Evaluation.areInside_entries (t : Evaluation π) : areInside t.entries = true := by
  induction t with
  | nothing => rfl
  | step s => simp [entries, Request.isInside_of_isPlain s.property]
  | andThen x y ihx ihy => simp [entries, ihx, ihy]
  | folded b e t ih =>
    simp [entries, Parser.Branches.opening, ih, Request.isInside, Request.isOutside]
  | circuit c t ih =>
    simp [entries, Parser.Branches.opening, Circuit.closing, ih, Request.isInside,
      Request.isOutside]
  | choice c yes no ihy ihn =>
    simp [entries, Parser.Arms.opening, Choice.between, Choice.closing, ihy, ihn, Request.isInside,
      Request.isOutside]

mutual

theorem Statement.areInside_entries : (t : Statement π) → areInside t.entries = true
  | .nothing => rfl
  | .andThen x y => by simp [Statement.entries, x.areInside_entries, y.areInside_entries]
  | .nested body => by
    simp [Statement.entries, body.areInside_entries, Request.isInside, Request.isOutside]
  | .evaluate _ value => by
    simp [Statement.entries, value.areInside_entries, Request.isInside, Request.isOutside]
  | .leave value exit => by
    cases exit <;> simp [Statement.entries, statementStart, Exit.entry, value.areInside_entries,
      Request.isInside, Request.isOutside]
  | .branch s test yes no => by
    simp [Statement.entries, statementStart, goOn, goOnIf, test.areInside_entries,
      yes.areInside_entries, no.areInside_entries, Request.isInside, Request.isOutside]
  | .switch d selector sections => by
    simp [Statement.entries, statementStart, selector.areInside_entries, sections.areInside_entries,
      Request.isInside, Request.isOutside]
  | .forLoop l first start none step body => by
    simp [Statement.entries, statementStart, goOn, Looping.makes, Looping.opens, Looping.closes,
      start.areInside_entries, step.areInside_entries, body.areInside_entries, Request.isInside,
      Request.isOutside]
  | .forLoop l first start (some test) step body => by
    simp [Statement.entries, statementStart, goOn, goOnIf, Looping.makes, Looping.opens,
      Looping.closes, start.areInside_entries, test.areInside_entries, step.areInside_entries,
      body.areInside_entries, Request.isInside, Request.isOutside]
  | .whileLoop l first test body => by
    simp [Statement.entries, statementStart, goOn, goOnIf, Looping.makes, Looping.opens,
      Looping.closes, test.areInside_entries, body.areInside_entries, Request.isInside,
      Request.isOutside]
  | .doLoop l body test => by
    simp [Statement.entries, statementStart, goOn, goOnIf, Looping.makes, Looping.opens,
      Looping.closes, test.areInside_entries, body.areInside_entries, Request.isInside,
      Request.isOutside]

theorem Sections.areInside_entries {merge : Id} :
    (s : Sections π) → areInside (s.entries merge) = true
  | .last l values body => by
    simp [Sections.entries, goOn, values.areInside_entries, body.areInside_entries,
      Request.isInside, Request.isOutside]
  | .more l values body next rest => by
    simp [Sections.entries, goOn, values.areInside_entries, body.areInside_entries,
      rest.areInside_entries, Request.isInside, Request.isOutside]

end

theorem Procedure.areInside_inside (f : Procedure π) : areInside f.inside = true := by
  cases hfalls : f.fallsOut <;>
    simp [inside, hfalls, f.body.areInside_entries, Request.isInside, Request.isOutside]

end Inside

/-- Whether a jump leads to the innermost of the blocks that it can lead to. -/
def Exit.Scoped (breaks continues : List Id) : Exit π → Prop
  | jump target _ .leaveLoop => breaks.head? = some target
  | jump target _ .nextRound => continues.head? = some target
  | jump _ _ .plain => False
  | discard .. | giveBack .. => True

mutual

/-- Whether all jumps lead to the innermost loop, or out of the innermost switch. -/
def Statement.Scoped (breaks continues : List Id) : Statement π → Prop
  | .nothing | .evaluate .. => True
  | .andThen a b => a.Scoped breaks continues ∧ b.Scoped breaks continues
  | .nested body => body.Scoped breaks continues
  | .leave _ exit => exit.Scoped breaks continues
  | .branch _ _ yes no => yes.Scoped breaks continues ∧ no.Scoped breaks continues
  | .switch d _ sections => sections.Scoped (d.merge :: breaks) continues
  | .forLoop l _ _ _ _ body => body.Scoped (l.merge :: breaks) (l.next :: continues)
  | .whileLoop l _ _ body => body.Scoped (l.merge :: breaks) (l.next :: continues)
  | .doLoop l body _ => body.Scoped (l.merge :: breaks) (l.next :: continues)

def Sections.Scoped (breaks continues : List Id) : Sections π → Prop
  | .last _ _ body => body.Scoped breaks continues
  | .more _ _ body _ rest => body.Scoped breaks continues ∧ rest.Scoped breaks continues

end

/-- Whether the labels of a switch statement that is followed by the block `merge` are different
from each other, and all of its sections behind the first have one. The default label is known by
its block, so that it is right as long as blocks are. -/
structure Labels.Proper (merge defaultLabel : Id) (ls : List Labels) : Prop where
  nodup : (ls.flatMap (·.literals)).Nodup
  labelled : ∀ l ∈ ls.tail, l.literals ≠ [] ∨ l.isDefault = true
  default : merge ≠ 0 → (∀ l ∈ ls, l.ended ≠ 0 ∧ l.ended ≠ merge) →
    (ls.filter (·.isDefault)).length ≤ 1 ∧ defaultLabel = (Labels.default? ls).getD merge

mutual

/-- Whether `test` holds of all evaluations of a statement, and all labels are proper. -/
def Statement.All (test : Evaluation π → Prop) : Statement π → Prop
  | .nothing => True
  | .andThen a b => a.All test ∧ b.All test
  | .nested body => body.All test
  | .evaluate _ value => test value
  | .leave value _ => test value
  | .branch _ condition yes no => test condition ∧ yes.All test ∧ no.All test
  | .switch d selector sections =>
    test selector ∧ Labels.Proper d.merge d.defaultLabel sections.labels ∧ sections.All test
  | .forLoop _ _ start condition step body =>
    test start ∧ (∀ t ∈ condition, test t) ∧ test step ∧ body.All test
  | .whileLoop _ _ condition body => test condition ∧ body.All test
  | .doLoop _ body condition => body.All test ∧ test condition

def Sections.All (test : Evaluation π → Prop) : Sections π → Prop
  | .last _ values body => test values ∧ body.All test
  | .more _ values body _ rest => test values ∧ body.All test ∧ rest.All test

end

mutual

/-- The values that are known behind a statement. -/
def Statement.extend (known : List Fact) : Statement π → List Fact
  | .nothing => known
  | .andThen a b => b.extend (a.extend known)
  | .nested body => body.extend known
  | .evaluate _ value => value.extend known
  | .leave value _ => value.extend known
  | .branch _ test yes no => no.extend (yes.extend (test.extend known))
  | .switch _ selector sections => sections.extend (selector.extend known)
  | .forLoop _ _ start test step body =>
    body.extend (step.extend ((test.elim id fun t known => t.extend known) (start.extend known)))
  | .whileLoop _ _ test body => body.extend (test.extend known)
  | .doLoop _ body test => test.extend (body.extend known)

def Sections.extend (known : List Fact) : Sections π → List Fact
  | .last _ values body => body.extend (values.extend known)
  | .more _ values body _ rest => rest.extend (body.extend (values.extend known))

end

mutual

/-- Whether every condition that is branched on is known where it is used. -/
def Statement.Grounded (known : List Fact) : Statement π → Prop
  | .nothing => True
  | .andThen a b => a.Grounded known ∧ b.Grounded (a.extend known)
  | .nested body => body.Grounded known
  | .evaluate _ value => value.Grounded known
  | .leave value _ => value.Grounded known
  | .branch s test yes no =>
    test.Grounded known ∧ .value s.condition ∈ test.extend known
      ∧ yes.Grounded (test.extend known)
      ∧ no.Grounded (yes.extend (test.extend known))
  | .switch d selector sections =>
    selector.Grounded known ∧ .value d.selector ∈ selector.extend known
      ∧ sections.Grounded (selector.extend known)
  | .forLoop l _ start test step body =>
    let begun := start.extend known
    let tested := (test.elim id fun t known => t.extend known) begun
    start.Grounded known
      ∧ (∀ t ∈ test, t.Grounded begun ∧ .value l.condition ∈ t.extend begun)
      ∧ step.Grounded tested ∧ body.Grounded (step.extend tested)
  | .whileLoop l _ test body =>
    test.Grounded known ∧ .value l.condition ∈ test.extend known
      ∧ body.Grounded (test.extend known)
  | .doLoop l body test =>
    body.Grounded known ∧ test.Grounded (body.extend known)
      ∧ .value l.condition ∈ test.extend (body.extend known)

def Sections.Grounded (known : List Fact) : Sections π → Prop
  | .last _ values body => values.Grounded known ∧ body.Grounded (values.extend known)
  | .more _ values body _ rest =>
    values.Grounded known ∧ body.Grounded (values.extend known)
      ∧ rest.Grounded (body.extend (values.extend known))

end

mutual

theorem Statement.subset_extend :
    (t : Statement π) → (known : List Fact) → known ⊆ t.extend known
  | .nothing, _ => List.Subset.refl _
  | .andThen a b, known => List.Subset.trans (a.subset_extend known) (b.subset_extend _)
  | .nested body, known => body.subset_extend known
  | .evaluate _ value, known => value.subset_extend known
  | .leave value _, known => value.subset_extend known
  | .branch _ test yes no, known =>
    calc known
      _ ⊆ _ := test.subset_extend known
      _ ⊆ _ := yes.subset_extend _
      _ ⊆ _ := no.subset_extend _
  | .switch _ selector sections, known =>
    List.Subset.trans (selector.subset_extend known) (sections.subset_extend _)
  | .forLoop _ _ start none step body, known =>
    calc known
      _ ⊆ _ := start.subset_extend known
      _ ⊆ _ := step.subset_extend _
      _ ⊆ _ := body.subset_extend _
  | .forLoop _ _ start (some test) step body, known =>
    calc known
      _ ⊆ _ := start.subset_extend known
      _ ⊆ _ := test.subset_extend _
      _ ⊆ _ := step.subset_extend _
      _ ⊆ _ := body.subset_extend _
  | .whileLoop _ _ test body, known =>
    List.Subset.trans (test.subset_extend known) (body.subset_extend _)
  | .doLoop _ body test, known =>
    List.Subset.trans (body.subset_extend known) (test.subset_extend _)

theorem Sections.subset_extend :
    (t : Sections π) → (known : List Fact) → known ⊆ t.extend known
  | .last _ values body, known =>
    List.Subset.trans (values.subset_extend known) (body.subset_extend _)
  | .more _ values body _ rest, known =>
    calc known
      _ ⊆ _ := values.subset_extend known
      _ ⊆ _ := body.subset_extend _
      _ ⊆ _ := rest.subset_extend _

end

end ShaderEffect
