import ShaderEffect.Proofs.Requests.Source
import ShaderEffect.Proofs.Requests.Spirv

namespace ShaderEffect

open Layout

/-- Makes some requests in turn, whatever the answers are. -/
def Script.ofList : List Request → Script Unit
  | [] => done ()
  | r :: rs => ask r fun _ => ofList rs

/-- The uniforms that requests define, without those that become constants. -/
def blockUniforms (specConstants : Bool) (requests : List Request) : List Uniform :=
  (requests.filterMap Request.uniform?).filter fun u => !u.isConstant specConstants

/-- What is known of a uniform block into which some uniforms were put: they are there in their
order, they are laid out exactly, and there are lines for each of them. -/
structure UniformBlock.Holds (IsMember : Uniform → List Source.Line → Prop) (us : List Uniform)
    (b : UniformBlock) :
    Prop where
  shape : ∀ u ∈ b.uniforms, IsShape u.type
  recorded : List.Forall₂ (fun u v => v = { u with slot := v.slot }) us b.uniforms
  laidOut : LaidOut b.uniforms b.size
  total : b.size.toNat = exactTotal us
  lines : ∃ groups, List.Forall₂ IsMember b.uniforms groups ∧ b.lines = groups.flatten

namespace UniformBlock

variable {IsMember : Uniform → List Source.Line → Prop} {us : List Uniform} {u : Uniform}
  {b b' : UniformBlock}

theorem Takes.specConstants (h : Takes IsMember u b b') : b'.specConstants = b.specConstants := by
  unfold Takes at h
  split at h
  · rw [h]
  · obtain ⟨_, _, rfl⟩ := h
    rfl

theorem Holds.takes (hb : b.Holds IsMember us) (h : Takes IsMember u b b')
    (hu : u.isConstant b.specConstants = false →
      IsShape u.type ∧ exactTotal (us ++ [u]) < 2 ^ 32) :
    b'.Holds IsMember (us ++ [u].filter fun u => !u.isConstant b.specConstants) := by
  unfold Takes at h
  cases hconstant : u.isConstant b.specConstants with
  | true =>
    rw [if_pos hconstant] at h
    rw [List.filter_cons_of_neg (by simp [hconstant]), List.filter_nil, List.append_nil, h]
    exact hb
  | false =>
    rw [if_neg (by simp [hconstant])] at h
    rw [List.filter_cons_of_pos (by simp [hconstant]), List.filter_nil]
    obtain ⟨hshape, htotal⟩ := hu hconstant
    obtain ⟨lines, hlines, rfl⟩ := h
    obtain ⟨groups, hgroups, hflat⟩ := hb.lines
    rw [exactTotal_concat, ← hb.total] at htotal
    constructor
    case shape =>
      exact List.forall_mem_append.mpr ⟨hb.shape, List.forall_mem_singleton.mpr hshape⟩
    case recorded => exact List.rel_append hb.recorded (.cons rfl .nil)
    case laidOut => exact hb.laidOut.place hshape htotal
    case total =>
      rw [exactTotal_concat, ← hb.total]
      exact (place_exact hshape htotal).2.2
    case lines =>
      refine ⟨groups ++ [lines], List.rel_append hgroups (.cons hlines .nil), ?_⟩
      rw [List.flatten_append, hflat, List.flatten_singleton]

end UniformBlock

theorem blockUniforms_cons (specConstants : Bool) (r : Request) (rs : List Request) :
    blockUniforms specConstants (r :: rs) = blockUniforms specConstants [r]
      ++ blockUniforms specConstants rs := by
  rw [blockUniforms, ← List.singleton_append, List.filterMap_append, List.filter_append]
  rfl

variable {β : Type} [Backend β] [HasUniformBlock β]
  {IsMember : Uniform → List Source.Line → Prop} [hβ : Backend.Answering β IsMember]

include hβ in
/-- A request keeps a uniform block laid out, and adds the uniform that it defines. -/
theorem holds_of_handle {r : Request} {us : List Uniform} {g g' : Generator β} {a : r.Answer}
    (hg : g.uniformBlock.Holds IsMember us) (h : r.handle g = .ok (a, g'))
    (hshape : ∀ u ∈ blockUniforms g.uniformBlock.specConstants [r], IsShape u.type)
    (htotal : exactTotal (us ++ blockUniforms g.uniformBlock.specConstants [r]) < 2 ^ 32) :
    g'.uniformBlock.specConstants = g.uniformBlock.specConstants
      ∧ g'.uniformBlock.Holds IsMember
        (us ++ blockUniforms g.uniformBlock.specConstants [r]) := by
  -- Only the definition of a uniform puts something into the block.
  cases huniform : r.uniform? with
  | none =>
    have hnone : blockUniforms g.uniformBlock.specConstants [r] = [] := by
      rw [blockUniforms, List.filterMap_cons_none huniform]
      rfl
    rw [hnone, List.append_nil, hβ.uniformBlock_eq huniform h]
    exact ⟨rfl, hg⟩
  | some u =>
    have hsome : blockUniforms g.uniformBlock.specConstants [r]
        = [u].filter fun u => !u.isConstant g.uniformBlock.specConstants := by
      rw [blockUniforms, List.filterMap_cons_some huniform]
      rfl
    have htakes : UniformBlock.Takes IsMember u g.uniformBlock g'.uniformBlock := by
      cases r with
      | defineUniform location v =>
        obtain rfl := Option.some.inj huniform
        exact ((hβ.defineUniform location v g).result h).2
      | _ => cases huniform
    rw [hsome] at hshape htotal ⊢
    refine ⟨htakes.specConstants, hg.takes htakes fun hconstant => ?_⟩
    rw [List.filter_cons_of_pos (by simp [hconstant]), List.filter_nil] at hshape htotal
    exact ⟨hshape u List.mem_cons_self, htotal⟩

include hβ in
/-- A run keeps a uniform block laid out, and adds the uniforms that it defines. -/
theorem holds_of_run {requests : List Request} {us : List Uniform} {g g' : Generator β}
    (hg : g.uniformBlock.Holds IsMember us) (hrun : (Script.ofList requests).run g = .ok ((), g'))
    (hshape : ∀ u ∈ blockUniforms g.uniformBlock.specConstants requests, IsShape u.type)
    (htotal : exactTotal (us ++ blockUniforms g.uniformBlock.specConstants requests) < 2 ^ 32) :
    g'.uniformBlock.Holds IsMember (us ++ blockUniforms g.uniformBlock.specConstants requests) := by
  induction requests generalizing us g with
  | nil =>
    obtain ⟨-, rfl⟩ := pure_eq_ok.mp hrun
    exact (List.append_nil us).symm ▸ hg
  | cons r rs ih =>
    obtain ⟨a, g₁, hr, hrun⟩ := bind_eq_ok.mp hrun
    rw [blockUniforms_cons] at hshape htotal ⊢
    rw [← List.append_assoc] at htotal ⊢
    obtain ⟨hfirst, hrest⟩ := List.forall_mem_append.mp hshape
    have hsmaller :=
      exactTotal_le_append (us ++ blockUniforms g.uniformBlock.specConstants [r]) hrest
    obtain ⟨hconstants, hg₁⟩ :=
      holds_of_handle hg hr hfirst (Nat.lt_of_le_of_lt hsmaller htotal)
    rw [← hconstants] at hrest htotal hg₁ ⊢
    exact ih hg₁ hrun hrest htotal

/-- Whether uniforms are scalars, vectors, matrices or arrays of these, and fit into a block. -/
structure Fits (us : List Uniform) : Prop where
  shape : ∀ u ∈ us, IsShape u.type
  total : exactTotal us < 2 ^ 32

/-- Whether a module has some uniforms in their order, laid out exactly. -/
structure Module.LaysOut (m : Module) (us : List Uniform) : Prop where
  recorded : List.Forall₂ (fun u v => v = { u with slot := v.slot }) us m.uniforms
  laidOut : LaidOut m.uniforms m.uniformSize

include hβ in
theorem holds_of_start {requests : List Request} {g g' : Generator β} {specConstants : Bool}
    (hg : g.uniformBlock = ⟨[], 0, specConstants, []⟩)
    (hrun : (Script.ofList requests).run g = .ok ((), g'))
    (hfits : Fits (blockUniforms specConstants requests)) :
    g'.uniformBlock.Holds IsMember (blockUniforms specConstants requests) := by
  have hstart : g.uniformBlock.Holds IsMember [] := by
    rw [hg]
    exact ⟨List.forall_mem_nil _, .nil, .nil, rfl, [], .nil, rfl⟩
  have hconstants : g.uniformBlock.specConstants = specConstants := by rw [hg]
  have hrest := holds_of_run hstart hrun (hconstants ▸ hfits.shape) (hconstants ▸ hfits.total)
  rwa [hconstants] at hrest

omit [Backend β] hβ in
theorem UniformBlock.Holds.laysOut {us : List Uniform} {g : Generator β}
    (h : g.uniformBlock.Holds IsMember us) :
    g.result.LaysOut us :=
  ⟨h.recorded, h.laidOut⟩

namespace Hlsl

open Source

/-- The text of a component of a constant register. -/
def registerText (register component : Nat) : String :=
  "c" ++ toString register
    ++ (if component = 0 then "" else "." ++ String.singleton (componentLetter component))

/-- Whether a line declares a member of the uniform block at a byte offset, given as a
component of a register. -/
def DeclaresAt (offset : Nat) (line : Line) : Prop :=
  ∃ (front : String) (register component : Nat),
    component < 4 ∧ 16 * register + 4 * component = offset
    ∧ line = .text 1 (front ++ " : packoffset(" ++ registerText register component ++ ");")

/-- A multiple of four bytes is the beginning of a component. -/
theorem IsMemberLine.declaresAt {u : Uniform} {lines : List Line} (h : IsMemberLine u lines)
    (haligned : 4 ∣ u.slot.offset.toNat) :
    ∃ line, lines = [line] ∧ DeclaresAt u.slot.offset.toNat line := by
  obtain ⟨front, rfl⟩ := h
  refine ⟨_, rfl, front, u.slot.offset.toNat / 16, u.slot.offset.toNat % 16 / 4, ?_, ?_, rfl⟩
  · omega
  · omega

/-- Every member is declared where it lies. -/
theorem declaresAt_of_lines {us : List Uniform} {groups : List Lines}
    (h : List.Forall₂ IsMemberLine us groups)
    (haligned : ∀ u ∈ us, 4 ∣ u.slot.offset.toNat) :
    List.Forall₂ (fun u line => DeclaresAt u.slot.offset.toNat line) us groups.flatten := by
  induction h with
  | nil => exact .nil
  | cons hmember _ ih =>
    obtain ⟨line, rfl, hline⟩ := hmember.declaresAt (haligned _ List.mem_cons_self)
    exact .cons hline (ih fun u hu => haligned u (List.mem_cons_of_mem _ hu))

/-- The members of the uniform block are written one behind the other. -/
theorem finish_eq (g : Generator (State Language)) : ∃ front back : Lines,
    Backend.finish g
      = .ok (.text (Lines.render (front ++ g.target.uniforms.toList ++ back)), g) := by
  have hfinish : Backend.finish g = .ok (Code.text (Lines.render
      (Line.text 0 "struct __sampler2D \x7b Texture2D t; SamplerState s; \x7d;"
        :: (if g.target.uniforms.isEmpty then []
          else
            [Line.text 0 "cbuffer _Globals : register(b0)", Line.text 0 "\x7b"]
              ++ g.target.uniforms.toList
              ++ [Line.text 0 "\x7d;"])
        ++ g.target.globals.toList)), g) := rfl
  rw [hfinish]
  split
  next hempty =>
    have hnone : g.target.uniforms.toList = [] := by simpa using hempty
    have hsplit (first : Line) (rest : Lines) : [first] ++ rest = [first] ++ [] ++ rest := rfl
    exact ⟨_, _, by rw [hnone, hsplit]⟩
  next =>
    have hsplit (first : Line) (before members after rest : Lines) :
        first :: (before ++ members ++ after) ++ rest
          = (first :: before) ++ members ++ (after ++ rest) := by
      simp only [List.append_assoc, List.cons_append]
    exact ⟨_, _, by rw [hsplit]⟩

end Hlsl

/-- Uniforms that are handed to a generator one after the other, in whatever place among other
requests, lie in the block in that order, each at a multiple of its alignment and behind the one
before it, as long as the exact end of the block is a word. In HLSL, each is declared at the
register and the component where it lies. -/
theorem uniforms_laid_out (requests : List Request) :
    (∀ (o : Spirv.Options) (g : Generator Spirv.State),
      (Script.ofList requests).run (Spirv.generator o) = .ok ((), g) →
      Fits (blockUniforms o.uniformsToSpecConstants requests) →
        g.result.LaysOut (blockUniforms o.uniformsToSpecConstants requests))
    ∧ (∀ (o : Glsl.Options) (g : Generator (Source.State Glsl.Language)),
      (Script.ofList requests).run (Glsl.generator o) = .ok ((), g) →
      Fits (blockUniforms o.uniformsToSpecConstants requests) →
        g.result.LaysOut (blockUniforms o.uniformsToSpecConstants requests))
    ∧ ∀ (o : Hlsl.Options) (g : Generator (Source.State Hlsl.Language)),
      (Script.ofList requests).run (Hlsl.generator o) = .ok ((), g) →
      Fits (blockUniforms o.uniformsToSpecConstants requests) →
        g.result.LaysOut (blockUniforms o.uniformsToSpecConstants requests)
          ∧ ∃ front members back : Source.Lines,
            Backend.finish g = .ok (.text (Source.Lines.render (front ++ members ++ back)), g)
              ∧ List.Forall₂ (fun u line => Hlsl.DeclaresAt u.slot.offset.toNat line)
                g.result.uniforms members := by
  refine ⟨fun o g hrun hfits => ?_, fun o g hrun hfits => ?_, fun o g hrun hfits => ?_⟩
  · exact (holds_of_start rfl hrun hfits).laysOut
  · exact (holds_of_start rfl hrun hfits).laysOut
  · have hholds := holds_of_start rfl hrun hfits
    obtain ⟨groups, hgroups, hflat⟩ := hholds.lines
    obtain ⟨front, back, hfinish⟩ := Hlsl.finish_eq g
    refine ⟨hholds.laysOut, front, g.target.uniforms.toList, back, hfinish, ?_⟩
    rw [show g.target.uniforms.toList = groups.flatten from hflat]
    refine Hlsl.declaresAt_of_lines hgroups fun u hu => ?_
    exact (four_dvd_alignment (hholds.shape u hu)).trans (hholds.laidOut.aligned u hu)

omit [HasUniformBlock β] in
/-- A run that does not fail leaves a generator behind. -/
theorem exists_of_isSome {s : Script Unit} {g : Generator β}
    (h : (s.run g).toOption.isSome = true) :
    ∃ g', s.run g = .ok ((), g') := by
  cases hrun : s.run g with
  | error e => simp [hrun, Except.toOption] at h
  | ok result => exact ⟨result.2, rfl⟩

/-- A scalar, a vector that does not fit behind it, and an array. -/
private def sample : List Request :=
  [.defineUniform {} { name := "a", type := .scalar .float },
    .defineUniform {} { name := "b", type := .vector .float 4 },
    .defineUniform {} { name := "c", type := { Ty.matrix .int 2 2 with arrayLength := 3 } }]

/-- The hypotheses hold of these three. -/
theorem uniforms_laid_out_of_three :
    Fits (blockUniforms false sample)
      ∧ (∃ g, (Script.ofList sample).run (Spirv.generator {}) = .ok ((), g)
        ∧ g.result.LaysOut (blockUniforms false sample))
      ∧ (∃ g, (Script.ofList sample).run (Glsl.generator {}) = .ok ((), g)
        ∧ g.result.LaysOut (blockUniforms false sample))
      ∧ ∃ g, (Script.ofList sample).run (Hlsl.generator {}) = .ok ((), g)
        ∧ g.result.LaysOut (blockUniforms false sample)
        ∧ ∃ front members back : Source.Lines,
          Backend.finish g = .ok (.text (Source.Lines.render (front ++ members ++ back)), g)
            ∧ List.Forall₂ (fun u line => Hlsl.DeclaresAt u.slot.offset.toNat line)
              g.result.uniforms members := by
  have hfits : Fits (blockUniforms false sample) := ⟨by decide, by decide⟩
  obtain ⟨hspirv, hglsl, hhlsl⟩ := uniforms_laid_out sample
  refine ⟨hfits, ?_, ?_, ?_⟩
  · obtain ⟨g, hg⟩ :=
      exists_of_isSome (s := Script.ofList sample) (g := Spirv.generator {}) (by decide +kernel)
    exact ⟨g, hg, hspirv {} g hg hfits⟩
  · obtain ⟨g, hg⟩ :=
      exists_of_isSome (s := Script.ofList sample) (g := Glsl.generator {}) (by decide +kernel)
    exact ⟨g, hg, hglsl {} g hg hfits⟩
  · obtain ⟨g, hg⟩ :=
      exists_of_isSome (s := Script.ofList sample) (g := Hlsl.generator {}) (by decide +kernel)
    exact ⟨g, hg, hhlsl {} g hg hfits⟩

end ShaderEffect
