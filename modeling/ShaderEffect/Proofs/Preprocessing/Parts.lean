import ShaderEffect.Preprocessor.Run
import ShaderEffect.Proofs.Preprocessing.Directives

/-!
Relations between the states in front of a part of the preprocessor and behind it.

A relation that holds where a message is reported, and where a token is read or a text pushed, holds
across every part that leaves conditional groups alone. It holds across every part if groups may be
replaced, too. Instances of the class `Relates` collect the parts.
-/
namespace ShaderEffect.Preprocessor

variable {α γ δ : Type} {R : Preprocessor → Preprocessor → Prop}

/-- Whether the states in front of a part of the preprocessor and behind it are in a relation. -/
class Relates (R : Preprocessor → Preprocessor → Prop) (x : PreM α) : Prop where
  relates : ∀ {p a p'}, x p = .ok (a, p') → R p p'

/-- Whether two values are the same by looking at how they are made. -/
class Same (a b : α) : Prop where
  eq : a = b

instance {a : α} : Same a a := ⟨rfl⟩

/-- Whether neither messages nor groups nor levels differ. -/
structure Alike (p p' : Preprocessor) : Prop where
  diagnostics : p'.diagnostics = p.diagnostics
  success : p'.success = p.success
  groups : p'.groups = p.groups
  nextLevel : p'.nextLevel = p.nextLevel
  height : p'.stack.length = p.stack.length

/-- What a relation has to hold across in order to hold across all parts that leave groups alone. -/
class Stable (R : Preprocessor → Preprocessor → Prop) :
    Prop extends IsPreorder Preprocessor R where
  alike {p p' : Preprocessor} : p.Alike p' → R p p'
  report {severity : Severity} {location : Location} {message : String} :
    Relates R (report severity location message)
  consume : Relates R consume
  push (p : Preprocessor) (input : Input) :
    R p { p with stack := p.stack ++ [input], nextLevel := p.stack.length, pushed := p.pushed + 1 }
  truncate (p : Preprocessor) : R p { p with stack := p.stack.take (p.nextLevel + 1) }

/-- A relation that groups do not matter to. -/
class Regrouping (R : Preprocessor → Preprocessor → Prop) : Prop extends Stable R where
  regroup (p : Preprocessor) (groups : List Group) : R p { p with groups }

namespace Relates

/-- What is written back was read before. -/
theorem get_of {f : Preprocessor → PreM α} (hf : ∀ p {a p'}, f p p = .ok (a, p') → R p p') :
    Relates R (MonadState.get >>= f : PreM α) where
  relates h := by
    obtain ⟨p, p₁, hget, h⟩ := bind_eq_ok.mp h
    obtain ⟨rfl, rfl⟩ := get_eq_ok.mp hget
    exact hf _ h

section

variable [IsPreorder Preprocessor R]

instance pure {a : α} : Relates R (pure a : PreM α) where
  relates h := (pure_eq_ok.mp h).2 ▸ refl_of R _

instance throw {e : Fault} : Relates R (throw e : PreM α) where
  relates h := (throw_eq_ok.mp h).elim

instance get : Relates R (get : PreM Preprocessor) where
  relates h := (get_eq_ok.mp h).2 ▸ refl_of R _

instance liftM {x : Except Fault α} : Relates R (liftM x : PreM α) where
  relates h := (liftM_eq_ok.mp h).2 ▸ refl_of R _

instance bind {x : PreM γ} {f : γ → PreM α} [hx : Relates R x] [hf : ∀ c, Relates R (f c)] :
    Relates R (x >>= f) where
  relates h := by
    obtain ⟨c, p₁, hc, h⟩ := bind_eq_ok.mp h
    exact trans_of R (hx.relates hc) ((hf c).relates h)

/-- Goes on behind a part. -/
theorem andThen {x : PreM γ} {f : γ → PreM α} [hx : Relates R x]
    (hf : ∀ c, Relates R (f c)) : Relates R (x >>= f) :=
  bind

instance bind_option {x : PreM (Option γ)} {f : Option γ → PreM α} [hx : Relates R x]
    [hsome : ∀ c, Relates R (f (some c))] [hnone : Relates R (f none)] : Relates R (x >>= f) :=
  andThen fun c => c.casesOn hnone hsome

instance bind_sum {x : PreM (γ ⊕ δ)} {f : γ ⊕ δ → PreM α} [hx : Relates R x]
    [hinl : ∀ c, Relates R (f (.inl c))]
    [hinr : ∀ c, Relates R (f (.inr c))] : Relates R (x >>= f) :=
  andThen fun c => c.casesOn hinl hinr

instance ite {c : Prop} [Decidable c] {x y : PreM α} [hx : Relates R x] [hy : Relates R y] :
    Relates R (if c then x else y) := by
  split <;> assumption

instance seqRight {x : PreM γ} {y : PreM α} [hx : Relates R x] [hy : Relates R y] :
    Relates R (x *> y) := by
  rw [seqRight_eq_bind]
  infer_instance

instance foldlM {f : α → γ → PreM α} [hf : ∀ a c, Relates R (f a c)] {l : List γ}
    {a : α} : Relates R (l.foldlM f a) := by
  induction l generalizing a with
  | nil => exact pure
  | cons c l ih =>
    rw [List.foldlM_cons]
    exact andThen fun _ => ih

instance forM {f : γ → PreM PUnit} [hf : ∀ c, Relates R (f c)] {l : List γ} :
    Relates R (l.forM f) := by
  induction l with
  | nil => exact pure
  | cons c l ih => exact andThen fun _ => ih

instance repeatWhile {x : PreM Bool} [hx : Relates R x] {rounds : Nat} :
    Relates R (repeatWhile x rounds) := by
  induction rounds with
  | zero => exact throw
  | succ rounds ih =>
    unfold ShaderEffect.repeatWhile
    infer_instance

instance repeatWith {step : γ → PreM (γ ⊕ α)} [hstep : ∀ c, Relates R (step c)]
    {rounds : Nat} {c : γ} :
    Relates R (repeatWith step rounds c) := by
  induction rounds generalizing c with
  | zero => exact throw
  | succ rounds ih =>
    unfold ShaderEffect.repeatWith
    have : ∀ c, Relates R (ShaderEffect.repeatWith step rounds c) := fun _ => ih
    exact bind_sum

end

/-- A change of something else. -/
instance modify [Stable R] {f : Preprocessor → Preprocessor}
    [hdiagnostics : ∀ p, Same (f p).diagnostics p.diagnostics]
    [hsuccess : ∀ p, Same (f p).success p.success]
    [hgroups : ∀ p, Same (f p).groups p.groups] [hlevel : ∀ p, Same (f p).nextLevel p.nextLevel]
    [hheight : ∀ p, Same (f p).stack.length p.stack.length] :
    Relates R (modify f : PreM Unit) where
  relates h := modify_eq_ok.mp h ▸
    Stable.alike ⟨(hdiagnostics _).eq, (hsuccess _).eq, (hgroups _).eq, (hlevel _).eq,
      (hheight _).eq⟩

end Relates

section

variable [IsPreorder Preprocessor R]

instance peek_relates {kind : Token.Kind} : Relates R (peek kind) := by
  unfold peek
  infer_instance

instance atLineEnd_relates : Relates R atLineEnd := by
  unfold atLineEnd
  infer_instance

end

section

variable [Stable R]

instance report_relates {severity : Severity} {location : Location} {message : String} :
    Relates R (report severity location message) := Stable.report

instance error_relates {location : Location} {message : String} :
    Relates R (error location message) := report_relates
instance warning_relates {location : Location} {message : String} :
    Relates R (warning location message) := report_relates
instance consume_relates : Relates R consume := Stable.consume

instance truncate_relates :
    Relates R (modify fun p => { p with stack := p.stack.take (p.nextLevel + 1) } : PreM Unit) where
  relates h := modify_eq_ok.mp h ▸ Stable.truncate _

instance push_relates {text name : String} {isArgument : Bool} :
    Relates R (push text name isArgument) := by
  unfold push
  refine .get_of fun p a p' h => ?_
  obtain ⟨_, p₁, hset, h⟩ := bind_eq_ok.mp h
  have hstart : R p p₁ := set_eq_ok.mp hset ▸ Stable.push p _
  have hconsume : Relates R (do let _ ← consume) := inferInstance
  exact trans_of R hstart (hconsume.relates h)

instance skipLine_relates {fuel : Nat} : Relates R (skipLine fuel) := by
  unfold skipLine
  infer_instance

instance accept_relates {fuel : Nat} {kind : Token.Kind} : Relates R (accept fuel kind) := by
  unfold accept
  infer_instance

instance consumeUntil_relates {fuel : Nat} {kind : Token.Kind} :
    Relates R (consumeUntil fuel kind) := by
  unfold consumeUntil
  infer_instance

instance expect_relates {fuel : Nat} {kind : Token.Kind} : Relates R (expect fuel kind) := by
  unfold expect
  infer_instance

instance endDirective_relates {fuel : Nat} : Relates R (endDirective fuel) := by
  unfold endDirective
  infer_instance

instance readArgument_relates {a : Arguments} : Relates R (readArgument a) := by
  unfold readArgument
  refine .andThen fun more => .andThen fun p => ?_
  dsimp only
  split
  · infer_instance
  · split <;> infer_instance

instance collectArguments_relates {fuel : Nat} : Relates R (collectArguments fuel) := by
  unfold collectArguments
  infer_instance

instance hide_relates {name : String} : Relates R (hide name) := by
  unfold hide
  refine .get_of fun p a p' h => ?_
  cases hget : p.stack[p.level]? with
  | none =>
    rw [hget] at h
    exact (throw_eq_ok.mp h).elim
  | some input =>
    rw [hget] at h
    exact set_eq_ok.mp h ▸ Stable.alike ⟨rfl, rfl, rfl, rfl, List.length_set⟩

set_option synthInstance.maxSize 65536 in
instance countExpansion_relates {input : Input} {location : Location} :
    Relates R (countExpansion input location) := by
  unfold countExpansion
  infer_instance

section

variable {expand : String → PreM String} [∀ arg, Relates R (expand arg)]

instance replaceArgument_relates {name out : String} {args : List String} {index : Int} :
    Relates R (replaceArgument name args index expand out) := by
  unfold replaceArgument
  infer_instance

instance replacePiece_relates {name : String} {args : List String} {r : Replaced} {piece : Piece} :
    Relates R (replacePiece name args expand r piece) := by
  unfold replacePiece
  split <;> infer_instance

instance replacement_relates {name : String} {m : Macro} {args : List String} :
    Relates R (replacement name m args expand) := by
  unfold replacement
  infer_instance

set_option synthInstance.maxSize 65536 in
instance replaceCall_relates {fuel : Nat} {name : String} {location : Location} {m : Macro} :
    Relates R (replaceCall fuel expand name location m) := by
  unfold replaceCall
  dsimp only
  infer_instance

end

section

variable {expand : PreM Bool} [Relates R expand]

set_option synthInstance.maxSize 65536 in
instance argumentRound_relates {level serial : Nat} {out : String} :
    Relates R (argumentRound expand level serial out) := by
  unfold argumentRound
  infer_instance

instance expandArgument_relates {fuel : Nat} {arg : String} :
    Relates R (expandArgument fuel expand arg) := by
  rw [expandArgument_eq]
  infer_instance

end

instance expandIdentifier_relates {fuel : Nat} : Relates R (expandIdentifier fuel) := by
  induction fuel with
  | zero => exact .throw
  | succ fuel ih =>
    unfold expandIdentifier
    refine .andThen fun p => ?_
    dsimp only
    split
    · infer_instance
    · split <;> infer_instance

instance readPiece_relates {fuel : Nat} {m : Macro} : Relates R (readPiece fuel m) := by
  unfold readPiece
  refine .andThen fun ended => ?_
  split
  · infer_instance
  refine .andThen fun _ => .andThen fun p => ?_
  dsimp only
  split
  · refine .andThen fun doubled => ?_
    split
    · infer_instance
    split
    · refine .andThen fun named => ?_
      split
      · infer_instance
      refine .andThen fun q => ?_
      split <;> infer_instance
    · infer_instance
  · infer_instance
  · split <;> infer_instance
  · infer_instance

instance readParameters_relates {fuel : Nat} : Relates R (readParameters fuel) := by
  unfold readParameters
  dsimp only
  infer_instance

instance calledAtOnce_relates : Relates R calledAtOnce := by
  unfold calledAtOnce
  refine .andThen fun p => ?_
  split <;> infer_instance

set_option synthInstance.maxSize 65536 in
instance readSignature_relates {fuel : Nat} : Relates R (readSignature fuel) := by
  unfold readSignature
  infer_instance

instance readMacroName_relates {fuel : Nat} : Relates R (readMacroName fuel) := by
  unfold readMacroName
  dsimp only
  infer_instance

instance addMacro_relates {name : String} {location : Location} {m : Macro} :
    Relates R (addMacro name location m) := by
  unfold addMacro
  refine .get_of fun p a p' h => ?_
  cases hdefine : p.define? name m with
  | none =>
    rw [hdefine] at h
    exact error_relates.relates h
  | some q =>
    rw [hdefine] at h
    obtain rfl := set_eq_ok.mp h
    exact define?_eq_some hdefine ▸ Stable.alike ⟨rfl, rfl, rfl, rfl, rfl⟩

instance defineAs_relates {fuel : Nat} {name : String} {location : Location} :
    Relates R (defineAs fuel name location) := by
  have hadd (m : Macro) : Relates R (addMacro name location m) := inferInstance
  unfold addMacro at hadd
  unfold defineAs
  infer_instance

instance withMacroName_relates {fuel : Nat} {f : String → Location → PreM Unit}
    [∀ name location, Relates R (f name location)] :
    Relates R (withMacroName fuel f) := by
  unfold withMacroName
  infer_instance

instance parseDefine_relates {fuel : Nat} : Relates R (parseDefine fuel) := by
  rw [parseDefine_eq]
  infer_instance

instance parseUndef_relates {fuel : Nat} : Relates R (parseUndef fuel) := by
  unfold parseUndef undefine
  infer_instance

instance evaluateDefined_relates {fuel : Nat} : Relates R (evaluateDefined fuel) := by
  unfold evaluateDefined
  dsimp only
  infer_instance

instance expandNames_relates {fuel : Nat} : Relates R (expandNames fuel) := by
  unfold expandNames
  infer_instance

set_option synthInstance.maxSize 65536 in
instance evaluateExists_relates {fuel : Nat} : Relates R (evaluateExists fuel) := by
  unfold evaluateExists
  dsimp only
  infer_instance

instance refuse_relates {message : String} : Relates R (refuse message) := by
  unfold refuse
  infer_instance

instance proceed_relates {sorted : Condition.Sorted} : Relates R (proceed sorted) := by
  unfold proceed
  infer_instance

instance conditionItem_relates {fuel : Nat} {s : ConditionState} {op : Option Operator} :
    Relates R (conditionItem fuel s op) := by
  unfold conditionItem
  dsimp only
  refine .andThen fun p => ?_
  split
  · infer_instance
  · split <;> infer_instance
  · refine .andThen fun expanded => ?_
    split
    · infer_instance
    · refine .andThen fun q => ?_
      split <;> infer_instance
  · infer_instance
  · infer_instance
  · split <;> infer_instance

set_option synthInstance.maxSize 65536 in
instance readConditionToken_relates {fuel : Nat} {s : ConditionState} :
    Relates R (readConditionToken fuel s) := by
  rw [readConditionToken_eq]
  dsimp only
  infer_instance

instance evaluateCondition_relates {fuel : Nat} : Relates R (evaluateCondition fuel) := by
  unfold evaluateCondition
  dsimp only
  refine .andThen fun p => .andThen fun read => ?_
  split
  · split
    · infer_instance
    · split <;> infer_instance
  · infer_instance

instance nextBranch_relates {name : String} : Relates R (nextBranch name) := by
  unfold nextBranch
  refine .andThen fun p => ?_
  split <;> infer_instance

instance parseMessage_relates {fuel : Nat} {severity : Severity} :
    Relates R (parseMessage fuel severity) := by
  unfold parseMessage
  dsimp only
  infer_instance

set_option synthInstance.maxSize 65536 in
instance readLine_relates {fuel : Nat} : Relates R (readLine fuel) := by
  unfold readLine
  infer_instance

instance parsePragma_relates {fuel : Nat} : Relates R (parsePragma fuel) := by
  unfold parsePragma
  dsimp only
  refine .andThen fun p => .andThen fun named => ?_
  split
  · infer_instance
  · refine .andThen fun q => .andThen fun rest => ?_
    split <;> infer_instance

instance includedText_relates {path : String} : Relates R (includedText path) := by
  unfold includedText
  refine .get_of fun p a p' h => ?_
  cases hlookup : p.included.lookup path with
  | some content =>
    rw [hlookup] at h
    exact (pure_eq_ok.mp h).2 ▸ refl_of R p
  | none =>
    rw [hlookup] at h
    cases hread : p.files.read path with
    | error e =>
      rw [hread] at h
      exact (pure_eq_ok.mp h).2 ▸ refl_of R p
    | ok content =>
      rw [hread] at h
      obtain ⟨_, p₁, hset, h⟩ := bind_eq_ok.mp h
      rw [← (pure_eq_ok.mp h).2]
      exact set_eq_ok.mp hset ▸ Stable.alike ⟨rfl, rfl, rfl, rfl, rfl⟩

set_option synthInstance.maxSize 65536 in
instance parseInclude_relates {fuel : Nat} : Relates R (parseInclude fuel) := by
  unfold parseInclude
  dsimp only
  infer_instance

instance flushLine_relates {line : String} : Relates R (flushLine line) where
  relates h := by
    obtain rfl := modify_eq_ok.mp h
    split <;> exact Stable.alike ⟨rfl, rfl, rfl, rfl, rfl⟩

theorem directive_relates {fuel : Nat} {kind : Token.Kind} {run : PreM Unit}
    (h : directive? fuel kind = some run) :
    Relates R run := by
  unfold directive? at h
  split at h <;> cases h <;> infer_instance

instance processToken_relates {fuel : Nat} {line : String} :
    Relates R (processToken fuel line) := by
  unfold processToken
  dsimp only
  refine .andThen fun p => ?_
  split
  · have : Relates R _ := directive_relates ‹_›
    infer_instance
  · split <;> infer_instance

end

section

variable [Regrouping R]

instance openGroup_relates {directive : Token} {level : Nat} {holds : Bool} :
    Relates R (openGroup directive level holds) where
  relates h := modify_eq_ok.mp h ▸ Regrouping.regroup _ _

instance parseIf_relates {fuel : Nat} : Relates R (parseIf fuel) := by
  unfold parseIf
  infer_instance

set_option synthInstance.maxSize 65536 in
instance parseIfdef_relates {fuel : Nat} {expected : Bool} :
    Relates R (parseIfdef fuel expected) := by
  unfold parseIfdef
  dsimp only
  infer_instance

instance setGroup_relates {g : Group} : Relates R (setGroup g) where
  relates h := modify_eq_ok.mp h ▸ Regrouping.regroup _ _

instance parseElif_relates {fuel : Nat} : Relates R (parseElif fuel) := by
  unfold parseElif
  dsimp only
  infer_instance

instance parseElse_relates : Relates R parseElse := by
  unfold parseElse
  infer_instance

instance parseEndif_relates : Relates R parseEndif := by
  unfold parseEndif
  refine .get_of fun p a p' h => ?_
  cases hgroups : p.groups with
  | nil =>
    rw [hgroups] at h
    exact error_relates.relates h
  | cons g rest =>
    rw [hgroups] at h
    exact set_eq_ok.mp h ▸ Regrouping.regroup p rest

theorem conditional_relates {fuel : Nat} {kind : Token.Kind} {run : PreM Unit}
    (h : conditional? fuel kind = some run) :
    Relates R run := by
  unfold conditional? at h
  split at h <;> cases h <;> infer_instance

instance processNext_relates {fuel : Nat} {line : String} : Relates R (processNext fuel line) := by
  unfold processNext
  refine .andThen fun more => ?_
  split
  · infer_instance
  · refine .andThen fun _ => .andThen fun p => ?_
    split
    · have : Relates R _ := conditional_relates ‹_›
      infer_instance
    · infer_instance

instance processAll_relates {fuel : Nat} : Relates R (processAll fuel) := by
  unfold processAll
  infer_instance

end
end ShaderEffect.Preprocessor
