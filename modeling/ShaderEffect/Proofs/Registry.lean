import Mathlib.Data.List.Nodup
import ShaderEffect.Registry

/-!
What a registry holds after any sequence of merges.

A merge only ever sees the lists that earlier merges left behind. They are described by the
declarations seen so far, each with its effect: the first declaration of a name gives the
entry, all of them give its effects, and a declaration that differs from the first one of its
name is warned about.
-/
namespace ShaderEffect

section Shared

variable {α : Type} (name : α → String)

/-- What is listed of declarations that came one after the other, each with its effect. -/
structure FirstWins (seen : List (String × α)) (listed : List (Shared α)) : Prop where
  /-- Every name is listed once. -/
  nodup : (listed.map (name ·.info)).Nodup
  /-- The names stand in the order of their first declarations. -/
  names : listed.map (name ·.info) = (seen.map (name ·.2)).eraseDups
  /-- The first declaration of a name is the one that is listed. -/
  info : ∀ s ∈ listed, (seen.find? (name ·.2 = name s.info)).map (·.2) = some s.info
  /-- Every declaration of a name leaves its effect. -/
  effects : ∀ s ∈ listed, s.effects = (seen.filter (name ·.2 = name s.info)).map (·.1)

namespace Shared

variable {name} {effect : String} {x : α} {listed : List (Shared α)}

/-- The entry of the same name is looked up before anything changes. -/
theorem declare_known (name : α → String) (effect : String) (x : α)
    (listed : List (Shared α)) :
    (declare name effect x listed).2 = listed.find? (name ·.info = name x) := by
  induction listed with
  | nil => rfl
  | cons s rest ih =>
    unfold declare
    split
    · next hsame => simp [hsame]
    · next hother => simpa [hother] using ih

/-- A new name is added at the end. -/
theorem declare_new (hnew : name x ∉ listed.map (name ·.info)) :
    (declare name effect x listed).1 = listed ++ [⟨x, [effect]⟩] := by
  induction listed with
  | nil => rfl
  | cons s rest ih =>
    have hs : name s.info ≠ name x := fun h => hnew (by simp [h])
    have hrest : name x ∉ rest.map (name ·.info) := fun h => hnew (List.mem_cons_of_mem _ h)
    simp [declare, hs, ih hrest]

/-- What a further declaration does to the entry of its name. -/
def extend (name : α → String) (effect : String) (x : α) (s : Shared α) : Shared α :=
  if name s.info = name x then { s with effects := s.effects ++ [effect] } else s

@[simp] theorem extend_info (s : Shared α) : (extend name effect x s).info = s.info := by
  unfold extend
  split <;> rfl

/-- A name that is listed gets one more effect, and no other entry changes. -/
theorem declare_again (hnodup : (listed.map (name ·.info)).Nodup)
    (hold : name x ∈ listed.map (name ·.info)) :
    (declare name effect x listed).1 = listed.map (extend name effect x) := by
  induction listed with
  | nil => cases hold
  | cons s rest ih =>
    obtain ⟨hs, hrest⟩ := List.nodup_cons.mp hnodup
    unfold declare
    split
    · next hsame =>
      -- The name is listed once, so that nothing behind the entry is extended.
      have hothers : rest.map (extend name effect x) = rest := by
        refine (List.map_congr_left fun t ht => ?_).trans (List.map_id rest)
        exact if_neg fun h => hs (List.mem_map.mpr ⟨t, ht, h.trans hsame.symm⟩)
      simp [extend, hsame, hothers]
    · next hother =>
      have hold' : name x ∈ rest.map (name ·.info) :=
        (List.mem_cons.mp hold).resolve_left fun h => hother h.symm
      simp [extend, hother, ih hrest hold']

end Shared

namespace FirstWins

variable {name} {seen : List (String × α)} {listed : List (Shared α)} {effect : String} {x : α}

theorem nil : FirstWins name [] [] :=
  ⟨.nil, rfl, by simp, by simp⟩

/-- A name is listed if it was declared. -/
theorem mem_names (h : FirstWins name seen listed) {n : String} :
    n ∈ listed.map (name ·.info) ↔ n ∈ seen.map (name ·.2) := by
  rw [h.names, List.mem_eraseDups]

/-- The entry of a name carries the first declaration of that name and the effect it came from. -/
theorem find? (h : FirstWins name seen listed) (n : String) :
    (listed.find? (name ·.info = n)).map (fun s => (s.first, s.info))
      = seen.find? (name ·.2 = n) := by
  cases hfind : listed.find? (name ·.info = n) with
  | none =>
    have hunlisted : n ∉ listed.map (name ·.info) := by
      rintro hn
      obtain ⟨s, hs, hsame⟩ := List.mem_map.mp hn
      exact List.find?_eq_none.mp hfind s hs (decide_eq_true hsame)
    have hunseen : n ∉ seen.map (name ·.2) := fun hn => hunlisted (h.mem_names.mpr hn)
    refine (List.find?_eq_none.mpr fun a ha => ?_).symm
    exact fun hsame => hunseen (of_decide_eq_true hsame ▸ List.mem_map_of_mem ha)
  | some s =>
    have hs : s ∈ listed := List.mem_of_find?_eq_some hfind
    obtain rfl : name s.info = n := by simpa using List.find?_some hfind
    obtain ⟨a, ha, hinfo⟩ := Option.map_eq_some_iff.mp (h.info s hs)
    have hfirst : s.first = a.1 := by
      rw [Shared.first, h.effects s hs, List.headD_eq_head?_getD, List.head?_map,
        List.head?_filter, ha]
      rfl
    rw [ha, Option.map_some, hfirst, ← hinfo]

/-- A further declaration of a name only leaves its effect. -/
theorem again (h : FirstWins name seen listed) (hold : name x ∈ listed.map (name ·.info)) :
    FirstWins name (seen ++ [(effect, x)]) (listed.map (Shared.extend name effect x)) := by
  have hseen : name x ∈ seen.map (name ·.2) := h.mem_names.mp hold
  have hnames : (listed.map (Shared.extend name effect x)).map (name ·.info)
      = listed.map (name ·.info) := by
    simp [Function.comp_def]
  refine ⟨hnames ▸ h.nodup, ?_, ?_, ?_⟩
  · rw [hnames, h.names, List.map_append, List.eraseDups_append]
    simp [List.removeAll, hseen]
  · intro t ht
    obtain ⟨s, hs, rfl⟩ := List.mem_map.mp ht
    obtain ⟨a, ha, hinfo⟩ := Option.map_eq_some_iff.mp (h.info s hs)
    rw [Shared.extend_info, List.find?_append, ha, Option.some_or, Option.map_some, hinfo]
  · intro t ht
    obtain ⟨s, hs, rfl⟩ := List.mem_map.mp ht
    rw [Shared.extend_info, List.filter_append, List.map_append, ← h.effects s hs]
    by_cases hsame : name s.info = name x
    · simp [Shared.extend, hsame]
    · simp [Shared.extend, hsame, Ne.symm hsame]

/-- The first declaration of a name is listed behind all others. -/
theorem fresh (h : FirstWins name seen listed) (hnew : name x ∉ listed.map (name ·.info)) :
    FirstWins name (seen ++ [(effect, x)]) (listed ++ [⟨x, [effect]⟩]) := by
  have hseen : ∀ a ∈ seen, ¬ name a.2 = name x := fun a ha hsame =>
    hnew (h.mem_names.mpr (List.mem_map.mpr ⟨a, ha, hsame⟩))
  have hseen' : name x ∉ seen.map (name ·.2) := fun hx => hnew (h.mem_names.mpr hx)
  refine ⟨?_, ?_, ?_, ?_⟩
  · rw [List.map_append]
    exact h.nodup.append (List.nodup_singleton _) (by simpa using hnew)
  · rw [List.map_append, h.names, List.map_append, List.eraseDups_append]
    simp [List.removeAll, hseen', List.eraseDups_cons]
  · intro s hs
    rw [List.find?_append]
    rcases List.mem_append.mp hs with hs | hs
    · obtain ⟨a, ha, hinfo⟩ := Option.map_eq_some_iff.mp (h.info s hs)
      rw [ha, Option.some_or, Option.map_some, hinfo]
    · obtain rfl := List.mem_singleton.mp hs
      have hnone : seen.find? (name ·.2 = name x) = none := by simpa using hseen
      simp [hnone]
  · intro s hs
    rw [List.filter_append, List.map_append]
    rcases List.mem_append.mp hs with hs | hs
    · have hother : name s.info ≠ name x := fun hsame => hnew (hsame ▸ List.mem_map_of_mem hs)
      simp [h.effects s hs, Ne.symm hother]
    · obtain rfl := List.mem_singleton.mp hs
      have hnone : seen.filter (name ·.2 = name x) = [] := by simpa using hseen
      simp [hnone]

/-- What a further declaration changes in a list, whether its name is new or not. -/
theorem declare (h : FirstWins name seen listed) :
    FirstWins name (seen ++ [(effect, x)]) (Shared.declare name effect x listed).1 := by
  by_cases hold : name x ∈ listed.map (name ·.info)
  · rw [Shared.declare_again h.nodup hold]
    exact h.again hold
  · rw [Shared.declare_new hold]
    exact h.fresh hold

end FirstWins
end Shared

/-- The declarations that are warned about, each with the first one of its name: those that differ
from it. Declarations count as seen when they stand in front. -/
def conflicts {α : Type} (name : α → String) (differ : α → α → Bool)
    (seen : List (String × α)) :
    List (String × α) → List ((String × α) × String × α)
  | [] => []
  | x :: rest =>
    let conflict := (seen.find? (name ·.2 = name x.2)).filter (differ ·.2 x.2)
    conflict.toList.map (·, x) ++ conflicts name differ (seen ++ [x]) rest

theorem conflicts_append {α : Type} {name : α → String} {differ : α → α → Bool}
    (seen xs ys : List (String × α)) :
    conflicts name differ seen (xs ++ ys) =
      conflicts name differ seen xs ++ conflicts name differ (seen ++ xs) ys := by
  induction xs generalizing seen with
  | nil => simp [conflicts]
  | cons x rest ih => simp [conflicts, ih]

/-- The first declaration of a name, which is compared with later ones, is the one
that is listed. -/
theorem FirstWins.conflicts {α : Type} {name : α → String} {seen : List (String × α)}
    {listed : List (Shared α)}
    (h : FirstWins name seen listed) (differ : α → α → Bool) (effect : String) (x : α) :
    conflicts name differ seen [(effect, x)] =
      ((listed.find? (name ·.info = name x)).filter (differ ·.info x)).toList.map
        fun s => ((s.first, s.info), (effect, x)) := by
  unfold ShaderEffect.conflicts
  rw [← h.find? (name x)]
  cases listed.find? (name ·.info = name x) with
  | none => rfl
  | some s =>
    cases hdiffer : differ s.info x <;> simp [ShaderEffect.conflicts, hdiffer, Option.filter]

/-- Whether textures of one name disagree. -/
def Texture.differs (first later : Texture) : Bool :=
  (first.width, first.height, first.levels, first.format)
    ≠ (later.width, later.height, later.levels, later.format)

/-- Whether uniforms of one name disagree. -/
def Uniform.differs (first later : Uniform) : Bool :=
  (first.type.base, first.type.rows, first.type.cols, first.type.arrayLength)
    ≠ (later.type.base, later.type.rows, later.type.cols, later.type.arrayLength)

namespace Registry

/-- A warning about an effect. -/
def warning (effect message : String) : Diagnostic :=
  { severity := .warning, stage := .registry, location := { source := effect }, message }

/-- What is said about a texture that differs from the first one of its name. -/
def textureWarning : (String × Texture) × String × Texture → Diagnostic
  | (first, later) =>
    warning later.1 <| "texture " ++ named later.2.uniqueName ++ " "
      ++ (textureConflict? first.2 later.2).getD "" ++ " in " ++ named first.1

/-- What is said about a uniform that differs from the first one of its name. -/
def uniformWarning : (String × Uniform) × String × Uniform → Diagnostic
  | (first, later) =>
    warning later.1 <|
      "uniform " ++ named later.2.name ++ " is declared as "
        ++ later.2.type.description ++ " but as "
        ++ first.2.type.description ++ " in " ++ named first.1

/-- What is said about a technique whose name was taken. -/
def techniqueWarning : (String × Technique) × String × Technique → Diagnostic
  | (first, later) =>
    warning later.1 ("technique " ++ named later.2.name ++ " is also declared in " ++ named first.1)

/-- A module that was generated from an effect. -/
abbrev Merge := String × Module

/-- The textures of an effect that are tracked. -/
def Merge.textures : Merge → List (String × Texture)
  | (effect, m) => (m.textures.filter (!·.isBackBuffer)).map (effect, ·)

def Merge.uniforms : Merge → List (String × Uniform)
  | (effect, m) => (m.uniforms ++ m.specConstants).map (effect, ·)

def Merge.techniques : Merge → List (String × Technique)
  | (effect, m) => m.techniques.map (effect, ·)

/-- The textures that are warned about. -/
def textureConflicts := conflicts Texture.uniqueName Texture.differs

def uniformConflicts := conflicts Uniform.name Uniform.differs

/-- A technique is warned about wherever its name is taken, whatever it consists of. -/
def techniqueConflicts := conflicts Technique.name fun _ _ => true

/-- What is reported about the merges behind others, one merge after the other. -/
def warnings (before : List Merge) : List Merge → Diagnostics
  | [] => []
  | m :: rest =>
    (textureConflicts (before.flatMap Merge.textures) m.textures).map textureWarning
      ++ (uniformConflicts (before.flatMap Merge.uniforms) m.uniforms).map uniformWarning
      ++ (techniqueConflicts (before.flatMap Merge.techniques) m.techniques).map techniqueWarning
      ++ warnings (before ++ [m]) rest

variable {r : Registry} {effect : String}

/-- The declarations that a registry was made from. -/
structure Holds (textures : List (String × Texture)) (uniforms : List (String × Uniform))
    (techniques : List (String × Technique)) (r : Registry) : Prop where
  textures : FirstWins Texture.uniqueName textures r.textures
  uniforms : FirstWins Uniform.name uniforms r.uniforms
  techniques : r.techniques = techniques

section

variable {textures : List (String × Texture)} {uniforms : List (String × Uniform)}
  {techniques : List (String × Technique)}

/-- There is something to say about a texture if it differs. -/
theorem textureConflict?_isSome (first later : Texture) :
    (textureConflict? first later).isSome = first.differs later := by
  unfold textureConflict? Texture.differs
  by_cases hwidth : first.width = later.width
  · by_cases hheight : first.height = later.height
    · by_cases hlevels : first.levels = later.levels
      · by_cases hformat : first.format = later.format <;> simp [hwidth, hheight, hlevels, hformat]
      · simp [hwidth, hheight, hlevels]
    · simp [hwidth, hheight]
  · simp [hwidth]

theorem sameShape_eq (first later : Uniform) :
    sameShape first.type later.type = !first.differs later := by
  simp [sameShape, Uniform.differs, Bool.and_assoc]

theorem addTexture_eq {t : Texture} (ht : t.isBackBuffer = false) :
    addTexture effect r t =
      { r with
        textures := (Shared.declare Texture.uniqueName effect t r.textures).1
        diagnostics := r.diagnostics ++
          ((r.textures.find? (·.info.uniqueName = t.uniqueName)).filter
            (·.info.differs t)).toList.map
            fun s => textureWarning ((s.first, s.info), (effect, t)) } := by
  have hknown := Shared.declare_known Texture.uniqueName effect t r.textures
  unfold addTexture
  simp only [ht, Bool.false_eq_true, if_false, hknown]
  cases r.textures.find? (·.info.uniqueName = t.uniqueName) with
  | none => simp
  | some s =>
    have hconflict := textureConflict?_isSome s.info t
    cases htext : textureConflict? s.info t with
    | none => simp_all [Option.filter]
    | some text => simp_all [Option.filter, warn, textureWarning, warning]

theorem addUniform_eq {u : Uniform} :
    addUniform effect r u =
      { r with
        uniforms := (Shared.declare Uniform.name effect u r.uniforms).1
        diagnostics := r.diagnostics ++
          ((r.uniforms.find? (·.info.name = u.name)).filter (·.info.differs u)).toList.map
            fun s => uniformWarning ((s.first, s.info), (effect, u)) } := by
  have hknown := Shared.declare_known Uniform.name effect u r.uniforms
  unfold addUniform
  simp only [hknown]
  cases r.uniforms.find? (·.info.name = u.name) with
  | none => simp
  | some s =>
    cases hdiffers : s.info.differs u
      <;> simp [Option.filter, sameShape_eq, hdiffers, warn, uniformWarning, warning]

theorem addTechnique_eq {t : Technique} :
    addTechnique effect r t =
      { r with
        techniques := r.techniques ++ [(effect, t)]
        diagnostics := r.diagnostics
          ++ (techniqueConflicts r.techniques [(effect, t)]).map techniqueWarning } := by
  unfold addTechnique techniqueConflicts conflicts
  cases r.techniques.find? (·.2.name = t.name) with
  | none => simp [conflicts]
  | some first => simp [Option.filter, conflicts, warn, techniqueWarning, warning]

/-- A texture that is tracked is listed, and compared with the first one of its name. -/
theorem addTexture_holds (h : Holds textures uniforms techniques r) {t : Texture}
    (ht : t.isBackBuffer = false) :
    Holds (textures ++ [(effect, t)]) uniforms techniques (addTexture effect r t) ∧
      (addTexture effect r t).diagnostics =
        r.diagnostics ++ (textureConflicts textures [(effect, t)]).map textureWarning := by
  rw [addTexture_eq ht]
  refine ⟨⟨h.textures.declare, h.uniforms, h.techniques⟩, ?_⟩
  rw [textureConflicts, h.textures.conflicts, List.map_map]
  rfl

theorem addUniform_holds (h : Holds textures uniforms techniques r) (u : Uniform) :
    Holds textures (uniforms ++ [(effect, u)]) techniques (addUniform effect r u) ∧
      (addUniform effect r u).diagnostics =
        r.diagnostics ++ (uniformConflicts uniforms [(effect, u)]).map uniformWarning := by
  rw [addUniform_eq]
  refine ⟨⟨h.textures, h.uniforms.declare, h.techniques⟩, ?_⟩
  rw [uniformConflicts, h.uniforms.conflicts, List.map_map]
  rfl

theorem addTechnique_holds (h : Holds textures uniforms techniques r) (t : Technique) :
    Holds textures uniforms (techniques ++ [(effect, t)]) (addTechnique effect r t) ∧
      (addTechnique effect r t).diagnostics =
        r.diagnostics ++ (techniqueConflicts techniques [(effect, t)]).map techniqueWarning := by
  rw [addTechnique_eq, h.techniques]
  exact ⟨⟨h.textures, h.uniforms, rfl⟩, rfl⟩

/-- What holds of each declaration of one kind holds of all declarations of that kind, one
after the other. -/
theorem foldl_holds {α : Type} {H : List (String × α) → Registry → Prop}
    {add : Registry → α → Registry} {name : α → String} {differ : α → α → Bool}
    {report : (String × α) × String × α → Diagnostic} {xs : List α}
    (hadd : ∀ seen r, ∀ x ∈ xs,
      H seen r → H (seen ++ [(effect, x)]) (add r x)
        ∧ (add r x).diagnostics
          = r.diagnostics ++ (conflicts name differ seen [(effect, x)]).map report)
    {seen : List (String × α)} (h : H seen r) :
    H (seen ++ xs.map (effect, ·)) (xs.foldl add r) ∧
      (xs.foldl add r).diagnostics =
        r.diagnostics ++ (conflicts name differ seen (xs.map (effect, ·))).map report := by
  induction xs generalizing r seen with
  | nil => simpa [conflicts] using h
  | cons x rest ih =>
    obtain ⟨hx, hreport⟩ := hadd seen r x List.mem_cons_self h
    obtain ⟨hrest, hreports⟩ :=
      ih (fun seen r y hy => hadd seen r y (List.mem_cons_of_mem x hy)) hx
    rw [List.foldl_cons, List.map_cons, ← List.singleton_append, conflicts_append,
      List.map_append, ← List.append_assoc, ← List.append_assoc, ← hreport]
    exact ⟨hrest, hreports⟩

/-- Textures that are not tracked change nothing. -/
theorem foldl_addTexture (ts : List Texture) :
    ts.foldl (addTexture effect) r
      = (ts.filter (!·.isBackBuffer)).foldl (addTexture effect) r := by
  rw [List.foldl_filter]
  congr 1
  funext r t
  cases ht : t.isBackBuffer <;> simp [addTexture, ht]

theorem addTextures_hold (effect : String) (h : Holds textures uniforms techniques r)
    (ts : List Texture) :
    Holds (textures ++ (ts.filter (!·.isBackBuffer)).map (effect, ·)) uniforms techniques
      (ts.foldl (addTexture effect) r) ∧ (ts.foldl (addTexture effect) r).diagnostics
        = r.diagnostics
          ++ (textureConflicts textures ((ts.filter (!·.isBackBuffer)).map (effect, ·))).map
            textureWarning := by
  rw [foldl_addTexture]
  refine foldl_holds (H := (Holds · uniforms techniques))
    (fun seen r t ht h => addTexture_holds h ?_) h
  simpa using (List.mem_filter.mp ht).2

theorem addUniforms_hold (effect : String) (h : Holds textures uniforms techniques r)
    (us : List Uniform) :
    Holds textures (uniforms ++ us.map (effect, ·)) techniques (us.foldl (addUniform effect) r) ∧
      (us.foldl (addUniform effect) r).diagnostics =
        r.diagnostics ++ (uniformConflicts uniforms (us.map (effect, ·))).map uniformWarning :=
  foldl_holds (H := (Holds textures · techniques)) (fun _ _ u _ h => addUniform_holds h u) h

theorem addTechniques_hold (effect : String) (h : Holds textures uniforms techniques r)
    (ts : List Technique) :
    Holds textures uniforms (techniques ++ ts.map (effect, ·)) (ts.foldl (addTechnique effect) r)
      ∧ (ts.foldl (addTechnique effect) r).diagnostics = r.diagnostics
        ++ (techniqueConflicts techniques (ts.map (effect, ·))).map techniqueWarning :=
  foldl_holds (H := (Holds textures uniforms ·)) (fun _ _ t _ h => addTechnique_holds h t) h

/-- One merge: what its module declares is added to what was seen, and compared with it. -/
theorem merge_holds (h : Holds textures uniforms techniques r) (effect : String) (m : Module) :
    Holds (textures ++ Merge.textures (effect, m)) (uniforms ++ Merge.uniforms (effect, m))
        (techniques ++ Merge.techniques (effect, m)) (r.merge effect m) ∧
      (r.merge effect m).diagnostics = r.diagnostics
        ++ (textureConflicts textures (Merge.textures (effect, m))).map textureWarning
        ++ (uniformConflicts uniforms (Merge.uniforms (effect, m))).map uniformWarning
        ++ (techniqueConflicts techniques (Merge.techniques (effect, m))).map techniqueWarning := by
  obtain ⟨htextures, hreport₁⟩ := addTextures_hold effect h m.textures
  obtain ⟨huniforms, hreport₂⟩ :=
    addUniforms_hold effect htextures (m.uniforms ++ m.specConstants)
  obtain ⟨htechniques, hreport₃⟩ := addTechniques_hold effect huniforms m.techniques
  refine ⟨htechniques, ?_⟩
  rw [hreport₂, hreport₁] at hreport₃
  exact hreport₃

end

/-- The registry after a sequence of merges. -/
def mergeAll (merges : List Merge) : Registry :=
  merges.foldl (fun r (effect, m) => r.merge effect m) {}

/-- From any registry on, merges add what they declare, and are reported one after the other. -/
theorem foldl_merge_holds (before merges : List Merge)
    (h : Holds (before.flatMap Merge.textures) (before.flatMap Merge.uniforms)
      (before.flatMap Merge.techniques) r) :
    Holds ((before ++ merges).flatMap Merge.textures) ((before ++ merges).flatMap Merge.uniforms)
        ((before ++ merges).flatMap Merge.techniques)
      (merges.foldl (fun r (effect, m) => r.merge effect m) r) ∧
      (merges.foldl (fun r (effect, m) => r.merge effect m) r).diagnostics =
        r.diagnostics ++ warnings before merges := by
  induction merges generalizing r before with
  | nil => simpa [warnings] using h
  | cons m rest ih =>
    obtain ⟨hmerged, hreport⟩ := merge_holds h m.1 m.2
    have hseen :
        Holds ((before ++ [m]).flatMap Merge.textures) ((before ++ [m]).flatMap Merge.uniforms)
        ((before ++ [m]).flatMap Merge.techniques) (r.merge m.1 m.2) := by
      simpa [List.flatMap_append] using hmerged
    obtain ⟨hrest, hreports⟩ := ih (before ++ [m]) hseen
    rw [List.append_cons]
    refine ⟨hrest, ?_⟩
    rw [List.foldl_cons, hreports, hreport, warnings]
    simp only [List.append_assoc]

/-- Apart from their order, the reports are those about all textures, about all uniforms and about
all techniques. -/
theorem warnings_perm (before merges : List Merge) :
    (warnings before merges).Perm
      ((textureConflicts (before.flatMap Merge.textures) (merges.flatMap Merge.textures)).map
        textureWarning
        ++ (uniformConflicts (before.flatMap Merge.uniforms) (merges.flatMap Merge.uniforms)).map
          uniformWarning
        ++ (techniqueConflicts (before.flatMap Merge.techniques)
          (merges.flatMap Merge.techniques)).map techniqueWarning) := by
  induction merges generalizing before with
  | nil => exact .refl _
  | cons m rest ih =>
    rw [List.perm_iff_count]
    intro d
    have hrest := (ih (before ++ [m])).count_eq d
    simp only [warnings, textureConflicts, uniformConflicts, techniqueConflicts,
      List.flatMap_append, List.flatMap_cons, List.flatMap_nil, List.append_nil, conflicts_append,
      List.map_append, List.count_append] at hrest ⊢
    omega

/-- Nothing but warnings is reported. -/
theorem warnings_severity (before merges : List Merge) :
    ∀ d ∈ warnings before merges, d.severity = .warning := by
  intro d hd
  rcases List.mem_append.mp ((warnings_perm before merges).mem_iff.mp hd) with hd | hd
  · rcases List.mem_append.mp hd with hd | hd <;> obtain ⟨c, -, rfl⟩ :=
      List.mem_map.mp hd <;> rfl
  · obtain ⟨c, -, rfl⟩ := List.mem_map.mp hd
    rfl

/-- A registry is the union of what was merged in which the first declaration of a name wins.
Later declarations are reported where they differ from the first one, and techniques where their
names are taken. -/
theorem mergeAll_union (merges : List Merge) :
    FirstWins Texture.uniqueName (merges.flatMap Merge.textures) (mergeAll merges).textures ∧
      FirstWins Uniform.name (merges.flatMap Merge.uniforms) (mergeAll merges).uniforms ∧
      (mergeAll merges).techniques = merges.flatMap Merge.techniques ∧
      (∀ d ∈ (mergeAll merges).diagnostics, d.severity = .warning) ∧
      (mergeAll merges).diagnostics.Perm
        ((textureConflicts [] (merges.flatMap Merge.textures)).map textureWarning
          ++ (uniformConflicts [] (merges.flatMap Merge.uniforms)).map uniformWarning
          ++ (techniqueConflicts [] (merges.flatMap Merge.techniques)).map techniqueWarning) := by
  have hnew : Holds [] [] [] {} := ⟨.nil, .nil, rfl⟩
  obtain ⟨hholds, hreports⟩ := foldl_merge_holds [] merges hnew
  have hdiagnostics : (mergeAll merges).diagnostics = warnings [] merges := hreports
  rw [hdiagnostics]
  exact ⟨hholds.textures, hholds.uniforms, hholds.techniques, warnings_severity [] merges,
    warnings_perm [] merges⟩

end Registry
end ShaderEffect
