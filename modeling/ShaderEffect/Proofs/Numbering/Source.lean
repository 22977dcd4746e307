import ShaderEffect.Proofs.Numbering.Rules
import ShaderEffect.Proofs.Requests.Source

namespace ShaderEffect.Source

open Generator

variable {w : Horizon} {Γ : Prop} {δ : Type}

/-- Text refers to structures by what is read of them. -/
instance : Tended w (State δ) := ⟨fun _ => True⟩

variable [w.Untyped]

/-- Parts that change neither structures nor functions, but may give anything. -/
theorem numbers_of_structs {α : Type} {x : SourceM δ α}
    (h : ∀ {g a g'}, x g = .ok (a, g') → g'.structs = g.structs ∧ g.nextId ≤ g'.nextId) :
    Numbers Onward w Γ Anything x where
  course hx := (h hx).2
  result hx _ _ hg :=
    ⟨⟨(h hx).1 ▸ hg.structs, fun htyped => absurd htyped Horizon.Untyped.not_typed,
      trivial⟩, trivial⟩

theorem numbers_of_stays {α : Type} {x : SourceM δ α} (hx : Steady x) :
    Numbers Onward w Γ Anything x :=
  numbers_of_structs fun h => ⟨(hx.stays h).structs, (hx.stays h).nextId⟩

instance (priority := low) numbers_of_steady {α : Type} {x : SourceM δ α} [hx : Steady x] :
    Numbers Onward w Γ Anything x :=
  numbers_of_stays hx

variable [Dialect δ]

instance declare_numbers {location : Location} {t : Ty} {value : String} :
    Numbers Onward w Γ w.Made (declare location t value : SourceM δ Id) := by
  unfold declare
  infer_instance

instance callValue_numbers {location : Location} {result : Ty} {call : String} :
    Numbers Onward w Γ w.Made (callValue location result call : SourceM δ Id) := by
  unfold callValue
  infer_instance

instance emitCall_numbers {location : Location} {function : Id} {result : Ty}
    {args : List Expression} :
    Numbers Onward w Γ w.Made (emitCall location function result args : SourceM δ Id) := by
  unfold emitCall
  infer_instance

set_option synthInstance.maxSize 65536 in
instance emitPhi_numbers {location : Location}
    {condition conditionBlock trueValue trueBlock falseValue falseBlock : Id}
    {t : Ty} : Numbers Onward w Γ w.Made
      (emitPhi location condition conditionBlock trueValue trueBlock falseValue falseBlock t :
        SourceM δ Id) := by
  unfold emitPhi
  infer_instance

set_option synthInstance.maxSize 65536 in
instance defineVariable_numbers {location : Location} {t : Ty} {name : String}
    {isGlobal : Bool} {init : Id} :
    Numbers Onward w Γ w.Made (defineVariable location t name isGlobal init : SourceM δ Id) := by
  unfold defineVariable
  infer_instance

set_option synthInstance.maxSize 65536 in
instance defineUniform_numbers {asConstant : Location → Id → Uniform → SourceM δ Unit}
    {asMember : Id → Uniform → SourceM δ Unit}
    [∀ {Γ : Prop} location id u, Numbers Onward w Γ Anything (asConstant location id u)]
    [∀ {Γ : Prop} id u, Numbers Onward w Γ Anything (asMember id u)] {location : Location}
    {u : Uniform} :
    Numbers Onward w Γ w.Made (defineUniform asConstant asMember location u) := by
  unfold defineUniform
  infer_instance

/-- A structure has an id of its own, and members as they were given. -/
theorem defineStruct_numbers {location : Location} {decl : StructDecl}
    (h : Γ → Proper w decl.members) :
    Numbers Onward w Γ (fun d => w.Made d.definition)
      (defineStruct location decl : SourceM δ StructDecl) := by
  unfold defineStruct
  refine .andThen w.Made
    fun id => .pass fun _ => .pass fun _ => .pass fun members => .pass fun name => .pass fun _ => ?_
  exact .recordStruct (fun hΓ => ⟨fun _ => hΓ.2, h hΓ.1⟩) And.right

theorem defineParameter_numbers {p : Member} :
    Numbers Onward w (Γ ∧ Proper w p) (fun p' => w.Made p'.1.definition ∧ Proper w p'.1)
      (defineParameter p : SourceM δ (Member × String)) := by
  unfold defineParameter
  exact .andThen w.Made
    fun id => .pass fun _ => .pass fun type => .pass fun name => .of_pure fun h => ⟨h.2, h.1.2⟩

/-- A function and its parameters have ids of their own, and types as they were given. -/
theorem defineFunction_numbers {location : Location} {decl : FunctionDecl}
    (h : Γ → Proper w decl) :
    Numbers Onward w Γ
      (fun d => Proper w d ∧ w.Made d.definition ∧ ∀ p ∈ d.parameters, w.Made p.definition)
      (defineFunction location decl : SourceM δ FunctionDecl) := by
  unfold defineFunction
  refine .andThen w.Made fun id => .pass fun _ => ?_
  refine .of_bind (.mapM_of (fun p => defineParameter_numbers) fun hΓ => (h hΓ.1).2)
    fun parameters => ?_
  refine .pass fun mark => .pass fun result => .pass fun name => .pass fun _ => .pass fun _ => ?_
  have hproper
      (hΓ : (Γ ∧ w.Made id) ∧ ∀ p ∈ parameters, w.Made p.1.definition ∧ Proper w p.1) :
      Proper w ({ decl with definition := id, parameters := parameters.map (·.1) } :
        FunctionDecl) :=
    ⟨(h hΓ.1.1).1, List.forall_mem_map.mpr fun p hp => (hΓ.2 p hp).2⟩
  exact .recordFunction hproper
    fun hΓ => ⟨hproper hΓ, hΓ.1.2, List.forall_mem_map.mpr fun p hp => (hΓ.2 p hp).1⟩

instance defineFunction_yields {location : Location} {decl : FunctionDecl} :
    Yields FunctionDecl.IsRecorded (defineFunction location decl : SourceM δ FunctionDecl) := by
  unfold defineFunction
  infer_instance

section

variable [Literals δ] [∀ t c, Steady (Literals.literal t c : SourceM δ String)]

instance constantId_numbers {t : Ty} {c : Constant} :
    Numbers Onward w Γ w.Made (constantId t c : SourceM δ Id) := by
  unfold constantId
  infer_instance

instance loadValue_numbers {access : Expression → SourceM δ String} [∀ e, Steady (access e)]
    {e : Expression} {forceNew : Bool} [Entails Γ (Proper w e)] :
    Numbers Onward w Γ (Proper w) (loadValue access e forceNew) := by
  unfold loadValue
  infer_instance

end

end ShaderEffect.Source

namespace ShaderEffect.Glsl

open Source Generator

variable {w : Horizon} {Γ : Prop} [w.Untyped]

instance emitUnary_numbers {location : Location} {op : UnaryOp} {t : Ty} {value : Id} :
    Numbers Onward w Γ w.Made (emitUnary location op t value) := by
  unfold emitUnary
  infer_instance

instance emitBinary_numbers {location : Location} {op : BinaryOp} {result operands : Ty}
    {left right : Id} :
    Numbers Onward w Γ w.Made (emitBinary location op result operands left right) := by
  unfold emitBinary
  refine .pass fun l => .pass fun r => ?_
  split <;> infer_instance

instance emitSelect_numbers {location : Location} {t : Ty} {condition yes no : Id} :
    Numbers Onward w Γ w.Made (emitSelect location t condition yes no) := by
  unfold emitSelect
  infer_instance

instance emitConstruct_numbers {location : Location} {t : Ty} {args : List Expression} :
    Numbers Onward w Γ w.Made (emitConstruct location t args) := by
  unfold emitConstruct
  infer_instance

instance emitFrexp_numbers {location : Location} {result : Ty} {args : List Expression}
    {names : List String} :
    Numbers Onward w Γ w.Made (emitFrexp location result args names) := by
  unfold emitFrexp
  infer_instance

instance emitIntrinsic_numbers {location : Location} {i : Intrinsic} {result : Ty}
    {args : List Expression} :
    Numbers Onward w Γ w.Made (emitIntrinsic location i result args) := by
  unfold emitIntrinsic
  infer_instance

omit [w.Untyped] in
theorem defineTexture_numbers {t : Texture} :
    Numbers Onward w Γ (fun t => w.Made t.id) (defineTexture t) := by
  unfold defineTexture
  exact .andThen w.Made fun id => .pass fun _ => .of_pure And.right

theorem defineTexture_yields {t : Texture} : Yields Texture.IsRecorded (defineTexture t) := by
  unfold defineTexture
  have {t : Texture} : Yields Texture.IsRecorded (modifyResult
      (fun m => { m with textures := m.textures ++ [t] })
      >>= fun _ => pure t : SourceM Language Texture) :=
    .texture fun _ => rfl
  infer_instance

theorem defineSampler_numbers {location : Location} {s : Sampler} :
    Numbers Onward w Γ (fun s => w.Made s.id) (defineSampler location s) := by
  unfold defineSampler
  refine .andThen w.Made
    fun id => .pass fun g => .pass fun _ => .pass fun _ => .pass fun o => .pass fun name => ?_
  exact .pass fun _ => .pass fun _ => .of_pure fun h => h.2

instance uniformMember_numbers {id : Id} {u : Uniform} :
    Numbers Onward w Γ Anything (uniformMember id u) :=
  numbers_of_structs fun {g _ _} h =>
    have hkeeps := ((uniformMember_answers id u g).result h).1
    ⟨hkeeps.structs, hkeeps.nextId⟩

/-- Whatever is asked for, ids are handed out or were given. -/
theorem handle_numbers (q : Request) :
    Numbers Onward w (q.Fits w) (q.Gives w) (q.handle : GenM (State Language) q.Answer) := by
  cases q with
  | load e forceNew =>
    exact (inferInstance : Numbers Onward w (Proper w e) (Proper w)
      (loadValue accessText e forceNew))
  | emitPhi => exact emitPhi_numbers.mono fun _ _ h => .inl h
  | constant => exact constantId_numbers.mono fun _ _ h => .inl h
  | unary => exact emitUnary_numbers.mono fun _ _ h => .inl h
  | binary location op result operands left right =>
    exact (inferInstance : Numbers Onward w _ (Proper w)
      (emitBinary location op result operands left right))
  | select => exact emitSelect_numbers.mono fun _ _ h => .inl h
  | call => exact emitCall_numbers.mono fun _ _ h => .inl h
  | callIntrinsic => exact emitIntrinsic_numbers.mono fun _ _ h => .inl h
  | construct => exact emitConstruct_numbers.mono fun _ _ h => .inl h
  | defineUniform => exact defineUniform_numbers.mono fun _ _ h => .inl h
  | defineVariable => exact defineVariable_numbers.mono fun _ _ h => .inl h
  | defineStruct => exact defineStruct_numbers id
  | defineTexture => exact defineTexture_numbers
  | defineSampler => exact defineSampler_numbers
  | defineFunction => exact defineFunction_numbers id
  | findStruct => exact .of_bind .get fun g => .of_pure fun h => h.2.findStruct
  | findFunction => exact .of_bind .get fun g => .of_pure fun h htyped => h.2.findFunction htyped
  | _ => exact numbers_of_stays (handle_steady rfl rfl)

theorem handle_yields (q : Request) :
    Yields (fun a g' => q.Records g' a) (q.handle : GenM (State Language) q.Answer) := by
  cases q with
  | defineTexture => exact defineTexture_yields
  | defineFunction => exact defineFunction_yields
  | _ => exact ⟨fun _ => trivial⟩

instance : Backend.Numbering w (State Language) :=
  .of_numbers w Onward Backend.Answering.grows handle_numbers handle_yields

end ShaderEffect.Glsl

namespace ShaderEffect.Hlsl

open Source Generator

variable {w : Horizon} {Γ : Prop} [w.Untyped]

instance emitUnary_numbers {location : Location} {op : UnaryOp} {t : Ty} {value : Id} :
    Numbers Onward w Γ w.Made (emitUnary location op t value) := by
  unfold emitUnary
  infer_instance

instance emitBinary_numbers {location : Location} {op : BinaryOp} {result operands : Ty}
    {left right : Id} :
    Numbers Onward w Γ w.Made (emitBinary location op result operands left right) := by
  unfold emitBinary
  infer_instance

instance emitSelect_numbers {location : Location} {t : Ty} {condition yes no : Id} :
    Numbers Onward w Γ w.Made (emitSelect location t condition yes no) := by
  unfold emitSelect
  infer_instance

instance emitConstruct_numbers {location : Location} {t : Ty} {args : List Expression} :
    Numbers Onward w Γ w.Made (emitConstruct location t args) := by
  unfold emitConstruct
  infer_instance

instance emitTextureSize_numbers {location : Location} {result : Ty} {sampler : String}
    {level : Option String} :
    Numbers Onward w Γ w.Made (emitTextureSize location result sampler level) := by
  unfold emitTextureSize
  cases level <;> infer_instance

instance emitIntrinsic_numbers {location : Location} {i : Intrinsic} {result : Ty}
    {args : List Expression} :
    Numbers Onward w Γ w.Made (emitIntrinsic location i result args) := by
  unfold emitIntrinsic
  refine .pass fun names => ?_
  split <;> infer_instance

theorem defineTexture_numbers {location : Location} {t : Texture} :
    Numbers Onward w Γ (fun t => w.Made t.id) (defineTexture location t) := by
  unfold defineTexture
  refine .andThen w.Made
    fun id => .pass fun g => .pass fun _ => .pass fun name => .pass fun _ => .pass fun _ => ?_
  exact .pass fun _ => .of_pure And.right

theorem defineTexture_yields {location : Location} {t : Texture} :
    Yields Texture.IsRecorded (defineTexture location t) := by
  unfold defineTexture
  have {t : Texture} : Yields Texture.IsRecorded (modifyResult
      (fun m => { m with textureBindings := m.textureBindings + 2, textures := m.textures ++ [t] })
      >>= fun _ => pure t :
        SourceM Language Texture) := .texture fun _ => rfl
  infer_instance

theorem defineSampler_numbers {location : Location} {s : Sampler} :
    Numbers Onward w Γ (fun s => w.Made s.id) (defineSampler location s) := by
  unfold defineSampler
  refine .andThen w.Made fun id => .pass fun _ => .pass fun g => ?_
  split
  · infer_instance
  · refine .pass fun _ =>
      .pass fun register => .pass fun name => .pass fun name => .pass fun _ => ?_
    exact .pass fun _ => .of_pure And.right

instance uniformMember_numbers {id : Id} {u : Uniform} :
    Numbers Onward w Γ Anything (uniformMember id u) :=
  numbers_of_structs fun {g _ _} h =>
    have hkeeps := ((uniformMember_answers id u g).result h).1
    ⟨hkeeps.structs, hkeeps.nextId⟩

/-- Whatever is asked for, ids are handed out or were given. -/
theorem handle_numbers (q : Request) :
    Numbers Onward w (q.Fits w) (q.Gives w) (q.handle : GenM (State Language) q.Answer) := by
  cases q with
  | load e forceNew =>
    exact (inferInstance : Numbers Onward w (Proper w e) (Proper w)
      (loadValue accessText e forceNew))
  | emitPhi => exact emitPhi_numbers.mono fun _ _ h => .inl h
  | constant => exact constantId_numbers.mono fun _ _ h => .inl h
  | unary => exact emitUnary_numbers.mono fun _ _ h => .inl h
  | binary location op result operands left right =>
    exact (inferInstance : Numbers Onward w _ (Proper w)
      (emitBinary location op result operands left right))
  | select => exact emitSelect_numbers.mono fun _ _ h => .inl h
  | call => exact emitCall_numbers.mono fun _ _ h => .inl h
  | callIntrinsic => exact emitIntrinsic_numbers.mono fun _ _ h => .inl h
  | construct => exact emitConstruct_numbers.mono fun _ _ h => .inl h
  | defineUniform => exact defineUniform_numbers.mono fun _ _ h => .inl h
  | defineVariable => exact defineVariable_numbers.mono fun _ _ h => .inl h
  | defineStruct => exact defineStruct_numbers id
  | defineTexture => exact defineTexture_numbers
  | defineSampler => exact defineSampler_numbers
  | defineFunction => exact defineFunction_numbers id
  | findStruct => exact .of_bind .get fun g => .of_pure fun h => h.2.findStruct
  | findFunction => exact .of_bind .get fun g => .of_pure fun h htyped => h.2.findFunction htyped
  | _ => exact numbers_of_stays (handle_steady rfl rfl)

theorem handle_yields (q : Request) :
    Yields (fun a g' => q.Records g' a) (q.handle : GenM (State Language) q.Answer) := by
  cases q with
  | defineTexture => exact defineTexture_yields
  | defineFunction => exact defineFunction_yields
  | _ => exact ⟨fun _ => trivial⟩

instance : Backend.Numbering w (State Language) :=
  .of_numbers w Onward Backend.Answering.grows handle_numbers handle_yields

end ShaderEffect.Hlsl
