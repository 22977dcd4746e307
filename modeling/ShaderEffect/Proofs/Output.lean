import ShaderEffect.Command.Compile
import ShaderEffect.Proofs.Computation
import ShaderEffect.Proofs.Table

/-!
What a compilation leaves behind.

Its results are written one after the other, so that a file holds the last content that was written
to it (`Compile.run_stores`). Results of different effects can meet in one file, and a result can
meet the effect it was made of: their files are found from the names of the effects alone. Nothing
is lost where the places of all files are different (`Compile.run_keeps`).
-/
namespace ShaderEffect

/-- The last piece of a text goes up to its end. -/
theorem Text.splitChars_append {separator : Char} {e : List Char} (he : separator ∉ e)
    (cs : List Char) :
    ∃ front last, splitChars separator (cs ++ e) = front ++ [last ++ e] := by
  induction cs with
  | nil =>
    refine ⟨[], [], ?_⟩
    induction e with
    | nil => rfl
    | cons x e ih =>
      obtain ⟨hx, hrest⟩ := List.ne_and_not_mem_of_not_mem_cons he
      have hsplit := ih hrest
      simp only [List.nil_append] at hsplit ⊢
      rw [splitChars, if_neg hx.symm, hsplit]
  | cons x cs ih =>
    obtain ⟨front, last, hsplit⟩ := ih
    rw [List.cons_append, splitChars, hsplit]
    split
    · exact ⟨[] :: front, last, rfl⟩
    · cases front with
      | nil => exact ⟨[], x :: last, rfl⟩
      | cons first front => exact ⟨(x :: first) :: front, last, rfl⟩

namespace Path

theorem ne_empty_of_suffix {e : List Char} (hlong : 2 < e.length) {s : String}
    (h : e <:+ s.toList) : s ≠ "" := by
  rintro rfl
  exact absurd hlong (Nat.not_lt.mpr (h.length_le.trans (Nat.zero_le 2)))

/-- A cleaned path ends as the path does, where the end is part of a name. -/
theorem suffix_clean {e : List Char} (he : '/' ∉ e) (hlong : 2 < e.length) {path : String}
    (h : e <:+ path.toList) :
    e <:+ (clean path).toList := by
  obtain ⟨cs, hcs⟩ := h
  obtain ⟨front, last, hsplit⟩ := Text.splitChars_append he cs
  have hlength : 2 < (String.ofList (last ++ e)).length := by
    rw [String.length_ofList, List.length_append]
    omega
  -- The last name holds the end of the path and is too long to be one of the names that
  -- cleaning drops.
  have hkept (rooted : Bool) (names : List String) : step rooted names (String.ofList (last ++ e)) =
      String.ofList (last ++ e) :: names := by
    have hne (s : String) (hs : s.length ≤ 2) : String.ofList (last ++ e) ≠ s := fun h => by
      rw [h] at hlength
      omega
    have hnamed :
        ¬ (decide (String.ofList (last ++ e) = "") || decide (String.ofList (last ++ e) = "."))
          = true := by
      simp only [Bool.or_eq_true, decide_eq_true_eq, not_or]
      exact ⟨hne "" (by decide), hne "." (by decide)⟩
    unfold step
    rw [if_neg hnamed, if_neg (hne ".." (by decide))]
  have hbody (names : List String) :
      e <:+ (Text.join "/" (names ++ [String.ofList (last ++ e)])).toList := by
    rw [Text.join]
    induction names with
    | nil =>
      rw [List.nil_append, String.intercalate_singleton, String.toList_ofList]
      exact List.suffix_append last e
    | cons name names ih =>
      rw [List.cons_append, String.intercalate_cons_of_ne_nil (by simp), String.toList_append]
      exact ih.trans (List.suffix_append _ _)
  unfold clean
  simp only [Text.split, ← hcs, hsplit, List.map_append, List.map_singleton, List.foldl_append,
    List.foldl_cons, List.foldl_nil, hkept, List.reverse_cons]
  split
  · rw [String.toList_append]
    exact (hbody _).trans (List.suffix_append _ _)
  · split
    · exact absurd ‹_› (ne_empty_of_suffix hlong (hbody _))
    · exact hbody _

/-- A file in a directory has the end of its name. -/
theorem suffix_join {e : List Char} (he : '/' ∉ e) (hlong : 2 < e.length) (dir : String)
    {name : String} (h : e <:+ name.toList) : e <:+ (join [dir, name]).toList := by
  have hname := ne_empty_of_suffix hlong h
  unfold join
  by_cases hdir : dir = ""
  · simp only [hdir, List.dropWhile_cons, decide_true, if_true, hname, decide_false,
      Bool.false_eq_true, if_false]
    refine suffix_clean he hlong ?_
    rwa [Text.join, String.intercalate_singleton]
  · simp only [hdir, List.dropWhile_cons, decide_false, Bool.false_eq_true, if_false]
    refine suffix_clean he hlong ?_
    rw [Text.join, String.intercalate_cons_cons, String.intercalate_singleton, String.toList_append]
    exact h.trans (List.suffix_append _ _)

end Path

namespace Files

variable {f f' f'' : Files} {names other place parts : List String} {path content text : String}
  {ws ws' : List (String × String)}

/-- The names that the parts of a path lead along from a place on, where they can be followed. -/
def walk (place : List String) : List String → List String
  | [] => place
  | part :: rest =>
    if part = "" || part = "." then walk place rest
    else if part = ".." then walk (parent place) rest
    else walk (place ++ [part]) rest

/-- The names that a path leads along, where it can be followed. -/
def destination (path : String) : List String :=
  walk (if Text.startsWith "/" path then [""] else []) (Text.split '/' path)

/-- Where a path leads to does not depend on the files, only whether it can be followed. -/
theorem follow_eq (h : f.follow place parts = .ok names) : names = walk place parts := by
  fun_induction follow f place parts with
  | case1 place => exact (Except.ok.inj h).symm
  | case2 place part rest hnode => cases h
  | case3 place part rest content hnode => cases h
  | case4 place part rest hnode hsame ih =>
    rw [walk, if_pos hsame]
    exact ih h
  | case5 place rest hnode hsame ih =>
    rw [walk, if_neg hsame, if_pos rfl]
    exact ih h
  | case6 place part rest hnode hsame hup hlong => cases h
  | case7 place part rest hnode hsame hup hlong ih =>
    rw [walk, if_neg hsame, if_neg hup]
    exact ih h

theorem locate_eq (h : f.locate path = .ok names) : names = destination path := by
  unfold locate at h
  split at h
  · cases h
  · split at h
    · cases h
    · split at h
      · cases h
      · exact follow_eq h

theorem put_eq_set (names : List String) (content : String)
    (entries : List (List String × String)) :
    put names content entries = Table.set names content entries := by
  induction entries with
  | nil => rfl
  | cons e rest ih =>
    obtain ⟨other, old⟩ := e
    rw [put, Table.set, ih]
    by_cases h : other = names
    · simp [h]
    · simp [h]

theorem lookup_put (names other : List String) (content : String)
    (entries : List (List String × String)) :
    (put names content entries).lookup other = if other = names then some content
      else entries.lookup other := by
  have h := Table.get?_set entries names other content
  simp only [Table.get?, beq_iff_eq] at h
  rw [put_eq_set, h]

/-- No file disappears from a directory. -/
theorem any_put {p : List String → Bool} {entries : List (List String × String)}
    (h : entries.any (fun e => p e.1) = true) :
    (put names content entries).any (fun e => p e.1) = true := by
  induction entries with
  | nil => cases h
  | cons e rest ih =>
    obtain ⟨other, old⟩ := e
    rw [put]
    split
    · rename_i hother
      simpa [hother] using h
    · rw [List.any_cons, Bool.or_eq_true] at h ⊢
      exact h.imp_right ih

theorem node?_eq_directory : f.node? names = some .directory ↔ f.entries.lookup names = none ∧
    (alwaysExists names || f.entries.any (fun e => names.isPrefixOf e.1)
      || f.directories.any names.isPrefixOf) = true := by
  unfold node?
  split
  · rename_i content hcontent
    simp [hcontent]
  · rename_i hnone
    rw [ite_eq_left_iff]
    simp only [hnone, true_and, reduceCtorEq, imp_false, not_not]

theorem node?_eq_file :
    f.node? names = some (.file content) ↔ f.entries.lookup names = some content := by
  unfold node?
  split
  · rename_i content' hcontent
    rw [hcontent, Option.some.injEq, Option.some.injEq, Node.file.injEq]
  · rename_i hnone
    rw [hnone, ite_eq_iff]
    simp only [Option.some.injEq, reduceCtorEq, and_false, or_self]

theorem get_eq_ok {n : Node} :
    f.get path = .ok n ↔ ∃ names, f.locate path = .ok names ∧ f.node? names = some n := by
  unfold get
  rw [except_bind_eq_ok]
  refine exists_congr fun names => and_congr_right fun _ => ?_
  cases f.node? names with
  | none => exact ⟨nofun, nofun⟩
  | some m => exact except_pure_eq_ok.trans (Option.some.injEq m n).symm.to_iff

theorem read_eq_ok : f.read path = .ok content ↔
    ∃ names, f.locate path = .ok names ∧ f.entries.lookup names = some content := by
  have hget : f.read path = .ok content ↔ f.get path = .ok (.file content) := by
    unfold read
    split
    · rename_i content' hget
      rw [hget, except_pure_eq_ok, Except.ok.injEq, Node.file.injEq]
    · rename_i hget
      rw [hget]
      exact ⟨nofun, nofun⟩
    · rename_i e hget
      rw [hget]
      exact ⟨nofun, nofun⟩
  rw [hget, get_eq_ok]
  simp only [node?_eq_file]

/-- What is known of files after contents were written to paths one after the other. -/
structure Stores (f : Files) (ws : List (String × String)) (f' : Files) : Prop where
  /-- Directories stay. -/
  directories : ∀ names, f.node? names = some .directory → f'.node? names = some .directory
  /-- The last content that was written to a place counts. -/
  contents : ∀ names, f'.entries.lookup names =
    ((ws.map fun w => (destination w.1, w.2)).reverse.lookup names).or (f.entries.lookup names)
  located : ∀ w ∈ ws, f'.locate w.1 = .ok (destination w.1)

/-- Paths that can be followed stay so when directories stay. -/
theorem follow_mono
    (hdirectories : ∀ names, f.node? names = some .directory → f'.node? names = some .directory)
    (h : f.follow place parts = .ok names) : f'.follow place parts = .ok names := by
  fun_induction follow f place parts with
  | case1 place => exact h
  | case2 place part rest hnode => cases h
  | case3 place part rest content hnode => cases h
  | case4 place part rest hnode hsame ih =>
    rw [follow, hdirectories _ hnode]
    simp only [hsame, if_true]
    exact ih h
  | case5 place rest hnode hsame ih =>
    rw [follow, hdirectories _ hnode]
    simp only [hsame, if_true]
    exact ih h
  | case6 place part rest hnode hsame hup hlong => cases h
  | case7 place part rest hnode hsame hup hlong ih =>
    rw [follow, hdirectories _ hnode]
    simp only [hsame, hup, hlong, if_false]
    exact ih h

theorem locate_mono
    (hdirectories : ∀ names, f.node? names = some .directory → f'.node? names = some .directory)
    (h : f.locate path = .ok names) : f'.locate path = .ok names := by
  unfold locate at h ⊢
  split at h
  · cases h
  · split at h
    · cases h
    · split at h
      · cases h
      · rename_i hzero hempty hlong
        rw [if_neg hzero, if_neg hempty, if_neg hlong]
        exact follow_mono hdirectories h

theorem lookup_written (h : ∀ w ∈ ws, destination w.1 ≠ names) :
    (ws.map fun w => (destination w.1, w.2)).reverse.lookup names = none := by
  rw [List.lookup_eq_none_iff]
  intro e he
  obtain ⟨w, hw, rfl⟩ := List.mem_map.mp (List.mem_reverse.mp he)
  simpa using (h w hw).symm

namespace Stores

theorem refl (f : Files) : f.Stores [] f where
  directories := fun _ h => h
  contents := fun _ => rfl
  located := List.forall_mem_nil _

theorem trans (h : f.Stores ws f') (h' : f'.Stores ws' f'') : f.Stores (ws ++ ws') f'' where
  directories := fun names hnames => h'.directories names (h.directories names hnames)
  contents := fun names => by
    rw [h'.contents, h.contents, List.map_append, List.reverse_append, List.lookup_append,
      Option.or_assoc]
  located := List.forall_mem_append.mpr
    ⟨fun w hw => locate_mono h'.directories (h.located w hw), h'.located⟩

/-- The content that was last written to a place. -/
theorem read_last {before after : List (String × String)}
    (h : f.Stores (before ++ (path, content) :: after) f')
    (hlast : ∀ w ∈ after, destination w.1 ≠ destination path) :
    f'.read path = .ok content := by
  refine read_eq_ok.mpr ⟨_, h.located _ (List.mem_append_right before List.mem_cons_self), ?_⟩
  rw [h.contents, List.map_append, List.map_cons, List.reverse_append, List.reverse_cons,
    List.lookup_append, List.lookup_append, lookup_written hlast, List.lookup_cons_self]
  rfl

/-- Contents that were written to different places can all be read back. -/
theorem read_written (h : f.Stores ws f') (hplaces : (ws.map fun w => destination w.1).Nodup) :
    ∀ w ∈ ws, f'.read w.1 = .ok w.2 := by
  intro w hw
  obtain ⟨before, after, rfl⟩ := List.append_of_mem hw
  -- Nothing behind it goes to its place.
  refine h.read_last fun w' hw' heq => ?_
  rw [List.map_append, List.map_cons] at hplaces
  exact (List.nodup_cons.mp (List.nodup_append.mp hplaces).2.1).1 (heq ▸ List.mem_map_of_mem hw')

/-- Where nothing was written, nothing changes. -/
theorem read_kept (h : f.Stores ws f') (hread : f.read path = .ok content)
    (hother : ∀ w ∈ ws, destination w.1 ≠ destination path) : f'.read path = .ok content := by
  obtain ⟨names, hlocate, hcontent⟩ := read_eq_ok.mp hread
  refine read_eq_ok.mpr ⟨names, locate_mono h.directories hlocate, ?_⟩
  rw [h.contents, locate_eq hlocate, lookup_written hother, ← locate_eq hlocate, hcontent]
  rfl

theorem of_makeDirectory (h : f.makeDirectory path = .ok f') : f.Stores [] f' := by
  unfold makeDirectory at h
  split at h
  · cases h
  · split at h
    · exact Except.ok.inj h ▸ refl f
    · cases h
    · obtain rfl := Except.ok.inj h
      refine ⟨fun names hnames => ?_, fun _ => rfl, List.forall_mem_nil _⟩
      obtain ⟨hfile, habove⟩ := node?_eq_directory.mp hnames
      refine node?_eq_directory.mpr ⟨hfile, ?_⟩
      simp only [List.any_append, ← Bool.or_assoc, habove, Bool.true_or]

theorem of_makeDirectories (h : f.makeDirectories path = .ok f') : f.Stores [] f' := by
  unfold makeDirectories at h
  generalize ancestors path = paths at h
  induction paths generalizing f with
  | nil => exact Except.ok.inj h ▸ refl f
  | cons above rest ih =>
    rw [List.foldlM_cons] at h
    obtain ⟨f₁, hmake, hrest⟩ := except_bind_eq_ok.mp h
    exact (of_makeDirectory hmake).trans (ih hrest)

theorem of_write (h : f.write path content = .ok f') : f.Stores [(path, content)] f' := by
  unfold write at h
  split at h
  · cases h
  · rename_i names hlocate
    split at h
    · cases h
    · rename_i hplace
      split at h
      · cases h
      · obtain rfl := Except.ok.inj h
        -- A file is not written in place of a directory, and directories above files stay above
        -- them.
        have hdirectories : ∀ other, f.node? other = some .directory →
            node? { f with entries := put names content f.entries } other = some .directory := by
          intro other hother
          have hne : other ≠ names := fun heq => hplace (heq ▸ hother)
          obtain ⟨hfile, habove⟩ := node?_eq_directory.mp hother
          refine node?_eq_directory.mpr ⟨by rw [lookup_put, if_neg hne, hfile], ?_⟩
          simp only [Bool.or_eq_true] at habove ⊢
          exact habove.imp_left fun h => h.imp_right any_put
        refine ⟨hdirectories, fun other => ?_, ?_⟩
        · rw [lookup_put, List.map_singleton, List.reverse_singleton, ← locate_eq hlocate]
          by_cases hother : other = names
          · simp [hother]
          · rw [if_neg hother, List.lookup_cons, beq_eq_false_iff_ne.mpr hother]
            rfl
        · rw [List.forall_mem_singleton, ← locate_eq hlocate]
          exact locate_mono hdirectories hlocate

end Stores

end Files

namespace Batch

variable {o : Options} {files : Files} {paths : List String} {b b' : Batch}

theorem foldlM_entries (h : paths.foldlM (add o files) b = .ok b') :
    ∃ es, b'.entries = b.entries ++ es ∧
    List.Forall₂ (fun path e => ∃ outcome,
      compileFile o files path = .ok outcome ∧ e = ⟨path, some outcome⟩) paths es := by
  induction paths generalizing b with
  | nil =>
    obtain rfl := Except.ok.inj h
    exact ⟨[], (List.append_nil _).symm, .nil⟩
  | cons path paths ih =>
    rw [List.foldlM_cons] at h
    obtain ⟨b₁, hadd, h⟩ := except_bind_eq_ok.mp h
    obtain ⟨outcome, houtcome, hadd⟩ := except_bind_eq_ok.mp hadd
    obtain rfl := Except.ok.inj hadd
    obtain ⟨es, hes, hrest⟩ := ih h
    exact ⟨⟨path, some outcome⟩ :: es, by rw [hes, List.append_assoc]; rfl,
      .cons ⟨outcome, houtcome, rfl⟩ hrest⟩

/-- A batch has an entry for each file. -/
theorem compile_entries (h : compile o files paths = .ok b) :
    List.Forall₂ (fun path e => ∃ outcome,
      compileFile o files path = .ok outcome ∧ e = ⟨path, some outcome⟩) paths b.entries := by
  obtain ⟨es, hes, hall⟩ := foldlM_entries h
  rw [hes]
  exact hall

end Batch

namespace Command

variable {α β : Type} {c c' : Console} {cmd : Compile}
  {outputDir input path content : String} {r : Result}

theorem run_bind_eq_ok {x : CommandM α} {f : α → CommandM β} {r : Except Failure β} :
    (x >>= f).run c = .ok (r, c') ↔
      (∃ a c₁, x.run c = .ok (.ok a, c₁) ∧ (f a).run c₁ = .ok (r, c')) ∨
        ∃ e, x.run c = .ok (.error e, c') ∧ r = .error e := by
  rw [ExceptT.run_bind, bind_eq_ok]
  constructor
  · rintro ⟨o, c₁, hx, hf⟩
    cases o with
    | ok a => exact .inl ⟨a, c₁, hx, hf⟩
    | error e =>
      obtain ⟨rfl, rfl⟩ := pure_eq_ok.mp hf
      exact .inr ⟨e, hx, rfl⟩
  · rintro (⟨a, c₁, hx, hf⟩ | ⟨e, hx, rfl⟩)
    · exact ⟨_, c₁, hx, hf⟩
    · exact ⟨_, c', hx, pure_eq_ok.mpr ⟨rfl, rfl⟩⟩

/-- A command that ends well is one whose parts do. -/
theorem run_bind_done {x : CommandM α} {f : α → CommandM β} {b : β} :
    (x >>= f).run c = .ok (.ok b, c')
      ↔ ∃ a c₁, x.run c = .ok (.ok a, c₁) ∧ (f a).run c₁ = .ok (.ok b, c') := by
  rw [run_bind_eq_ok]
  exact or_iff_left fun ⟨e, _, he⟩ => nomatch he

theorem run_get_done {a : Console} :
    (get : CommandM Console).run c = .ok (.ok a, c') ↔ c = a ∧ c = c' := by
  show Except.ok (Except.ok c, c) = _ ↔ _
  simp only [Except.ok.injEq, Prod.mk.injEq]

theorem run_modify_done {f : Console → Console} :
    (modify f : CommandM PUnit).run c = .ok (.ok ⟨⟩, c') ↔ f c = c' := by
  show Except.ok (Except.ok PUnit.unit, f c) = _ ↔ _
  simp only [Except.ok.injEq, Prod.mk.injEq, true_and]

theorem run_ofExcept_done {x : Except Failure α} {a : α} :
    (liftM x : CommandM α).run c = .ok (.ok a, c') ↔ x = .ok a ∧ c = c' := by
  show Except.ok (x, c) = _ ↔ _
  simp only [Except.ok.injEq, Prod.mk.injEq]

theorem run_ofFault_done {x : Except Fault α} {a : α} :
    (liftM x : CommandM α).run c = .ok (.ok a, c') ↔ x = .ok a ∧ c = c' := by
  cases x with
  | error e => exact ⟨nofun, nofun⟩
  | ok b =>
    show Except.ok (Except.ok b, c) = _ ↔ _
    simp only [Except.ok.injEq, Prod.mk.injEq]

theorem mapError_eq_ok {ε δ : Type} {x : Except ε α} {f : ε → δ} {a : α} :
    x.mapError f = .ok a ↔ x = .ok a := by
  cases x with
  | error e => exact ⟨nofun, nofun⟩
  | ok b => simp only [Except.mapError, Except.ok.injEq]

/-- Whether a command leaves the files as they are, however it ends. -/
class KeepsFiles (x : CommandM α) : Prop where
  files_eq : ∀ {c r c'}, x.run c = .ok (r, c') → c'.files = c.files

namespace KeepsFiles

instance pure {a : α} : KeepsFiles (pure a) := ⟨fun h => (pure_eq_ok.mp h).2 ▸ rfl⟩

instance bind {x : CommandM α} {f : α → CommandM β} [hx : KeepsFiles x]
    [hf : ∀ a, KeepsFiles (f a)] :
    KeepsFiles (x >>= f) where
  files_eq h := by
    obtain ⟨a, c₁, hrun, hrest⟩ | ⟨e, hrun, -⟩ := run_bind_eq_ok.mp h
    · rw [(hf a).files_eq hrest, hx.files_eq hrun]
    · exact hx.files_eq hrun

instance get :
    KeepsFiles (get : CommandM Console) := ⟨fun h => (Prod.mk.inj (Except.ok.inj h)).2 ▸ rfl⟩

instance ite {p : Prop} [Decidable p] {x y : CommandM α} [hx : KeepsFiles x] [hy : KeepsFiles y] :
    KeepsFiles (if p then x else y) := by
  split <;> assumption

instance ofExcept {x : Except Failure α} : KeepsFiles (liftM x : CommandM α) :=
  ⟨fun h => (Prod.mk.inj (Except.ok.inj h)).2 ▸ rfl⟩

instance print {text : String} : KeepsFiles (print text) :=
  ⟨fun h => (Prod.mk.inj (Except.ok.inj h)).2 ▸ rfl⟩

instance printError {text : String} : KeepsFiles (printError text) :=
  ⟨fun h => (Prod.mk.inj (Except.ok.inj h)).2 ▸ rfl⟩

instance painted {code text : String} : KeepsFiles (painted code text) := by
  unfold Command.painted
  infer_instance

instance step {text : String} : KeepsFiles (step text) := by
  unfold Command.step
  infer_instance

instance done {text : String} : KeepsFiles (done text) := by
  unfold Command.done
  infer_instance

instance report {ds : Diagnostics} : KeepsFiles (report ds) := by
  unfold Command.report
  infer_instance

instance settings {flags : Flags} {config : String} : KeepsFiles (flags.settings config) := by
  unfold Flags.settings
  infer_instance

end KeepsFiles

theorem writeFile_stores (h : (writeFile path content).run c = .ok (.ok (), c')) :
    c.files.Stores [(path, content)] c'.files := by
  unfold writeFile at h
  obtain ⟨_, _, hget, h⟩ := run_bind_done.mp h
  obtain ⟨rfl, rfl⟩ := run_get_done.mp hget
  simp only at h
  split at h
  · cases h
  · rename_i files hmake
    obtain ⟨_, c₁, hmodify, h⟩ := run_bind_done.mp h
    obtain rfl := run_modify_done.mp hmodify
    split at h
    · cases h
    · rename_i files' hwrite
      obtain ⟨_, c₂, hmodify, h⟩ := run_bind_done.mp h
      obtain rfl := run_modify_done.mp hmodify
      rw [KeepsFiles.files_eq h]
      exact (Files.Stores.of_makeDirectories hmake).trans (.of_write hwrite)

namespace Compile

/-- The paths of the files of a result, with the contents that are written to them. -/
def written (cmd : Compile) (outputDir input : String) (r : Result) (content : String) :
    List (String × String) :=
  let dir := if outputDir = "" then Path.dir input else outputDir
  (Path.join [dir, cmd.stem input ++ r.target.extension], content)
    :: if cmd.descriptors then
      [(Path.join [dir, cmd.stem input ++ ".yaml"], (Descriptors.ofModule r.output).render)] else []

/-- The file of a result is not mistaken for the terminal. -/
theorem join_ne_dash (dir stem : String) (t : Target) :
    Path.join [dir, stem ++ t.extension] ≠ "-" := by
  intro h
  have hextension : '/' ∉ t.extension.toList ∧ 2 < t.extension.toList.length := by
    cases t <;> decide
  have hsuffix := Path.suffix_join hextension.1 hextension.2 dir
    (String.toList_append ▸ List.suffix_append stem.toList t.extension.toList)
  rw [h] at hsuffix
  exact absurd (hextension.2.trans_le hsuffix.length_le) (by decide)

theorem write_stores (houtput : cmd.output = "")
    (h : (cmd.write outputDir input r).run c = .ok (.ok (), c')) :
    ∃ content, cmd.content r = .ok content
      ∧ c.files.Stores (cmd.written outputDir input r content) c'.files := by
  unfold write at h
  obtain ⟨content, _, hlift, h⟩ := run_bind_done.mp h
  obtain ⟨hcontent, rfl⟩ := run_ofExcept_done.mp hlift
  simp only [houtput, if_true, join_ne_dash, if_false] at h
  obtain ⟨_, c₁, hfile, h⟩ := run_bind_done.mp h
  obtain ⟨_, c₂, hdone, h⟩ := run_bind_done.mp h
  have hstores := writeFile_stores hfile
  -- The message in between does not touch the files.
  rw [← KeepsFiles.files_eq hdone] at hstores
  refine ⟨content, mapError_eq_ok.mp hcontent, ?_⟩
  cases hdescriptors : cmd.descriptors with
  | true =>
    simp only [written, hdescriptors, if_true] at h ⊢
    exact hstores.trans (writeFile_stores h)
  | false =>
    simp only [written, hdescriptors, Bool.false_eq_true, if_false] at h ⊢
    obtain ⟨-, rfl⟩ := pure_eq_ok.mp h
    exact hstores

/-- Whether contents are those of an effect whose turn came: its result was written. -/
def Settles (cmd : Compile) (outputDir : String) (e : Batch.Entry) (ws : List (String × String)) :
    Prop :=
  ∀ outcome, e.outcome = some outcome →
    ∃ r content, outcome = .ok r ∧ r.success = true ∧ cmd.content r = .ok content ∧
      ws = cmd.written outputDir e.path r content

theorem handle_stores (houtput : cmd.output = "") {e : Batch.Entry}
    (h : (cmd.handle outputDir e).run c = .ok (.ok false, c')) :
    ∃ ws, cmd.Settles outputDir e ws ∧ c.files.Stores ws c'.files := by
  unfold handle at h
  split at h
  · rename_i hnone
    obtain ⟨-, rfl⟩ := pure_eq_ok.mp h
    exact ⟨[], fun _ hsome => absurd (hnone.symm.trans hsome) nofun, .refl _⟩
  · obtain ⟨_, c₁, -, h⟩ := run_bind_done.mp h
    cases (pure_eq_ok.mp h).1
  · rename_i r hresult
    obtain ⟨_, c₁, hreport, h⟩ := run_bind_done.mp h
    rw [← KeepsFiles.files_eq hreport]
    split at h
    · rename_i hsuccess
      obtain ⟨_, c₂, hwrite, h⟩ := run_bind_done.mp h
      obtain ⟨-, rfl⟩ := pure_eq_ok.mp h
      obtain ⟨content, hcontent, hstores⟩ := write_stores houtput hwrite
      refine ⟨_, fun outcome houtcome => ?_, hstores⟩
      exact ⟨r, content, Option.some.inj (houtcome.symm.trans hresult), hsuccess, hcontent, rfl⟩
    · obtain ⟨_, c₂, -, h⟩ := run_bind_done.mp h
      cases (pure_eq_ok.mp h).1

/-- Effects that are handled without a failure are written in turn. -/
theorem handleAll_stores (houtput : cmd.output = "") {es failed : List Batch.Entry}
    (h : (es.filterAuxM (cmd.handle outputDir) failed).run c = .ok (.ok [], c')) :
    failed = [] ∧ ∃ wss, List.Forall₂ (cmd.Settles outputDir) es wss
      ∧ c.files.Stores wss.flatten c'.files := by
  -- The failures so far are never taken back, so that there are none at the end only if no effect
  -- failed.
  induction es generalizing c failed with
  | nil =>
    obtain ⟨hfailed, rfl⟩ := pure_eq_ok.mp h
    exact ⟨Except.ok.inj hfailed, [], .nil, .refl _⟩
  | cons e es ih =>
    obtain ⟨isFailure, c₁, hfirst, h⟩ := run_bind_done.mp h
    obtain ⟨hfailed, wss, hsettles, hstores⟩ := ih h
    cases isFailure with
    | true => cases hfailed
    | false =>
      obtain ⟨ws, hws, hfirst⟩ := handle_stores houtput hfirst
      exact ⟨hfailed, ws :: wss, .cons hws hsettles, hfirst.trans hstores⟩

end Compile

theorem handleBatch_stores (houtput : cmd.output = "") {b : Batch}
    (h : (handleBatch b (cmd.handle outputDir)).run c = .ok (.ok (), c')) :
    ∃ wss, List.Forall₂ (cmd.Settles outputDir) b.entries wss
      ∧ c.files.Stores wss.flatten c'.files := by
  unfold handleBatch List.filterM at h
  obtain ⟨failed, c₁, hall, h⟩ := run_bind_done.mp h
  obtain ⟨_, c₂, hreport, h⟩ := run_bind_done.mp h
  split at h
  · cases h
  · rename_i hnone
    obtain ⟨-, rfl⟩ := pure_eq_ok.mp h
    obtain ⟨reversed, c₃, hall, hreverse⟩ := run_bind_done.mp hall
    obtain ⟨hreversed, rfl⟩ := pure_eq_ok.mp hreverse
    obtain rfl : reversed = [] := by
      rw [← Except.ok.inj hreversed] at hnone
      simpa using hnone
    rw [KeepsFiles.files_eq hreport]
    exact (Compile.handleAll_stores houtput hall).2

/-- Whether contents are written for an effect: its module, restricted to the entry point that was
asked for, and the description of it if that was asked for. -/
def Compile.Writes (cmd : Compile) (o : Options) (files : Files) (outputDir input : String)
    (ws : List (String × String)) : Prop :=
  ∃ r content, compileFile o files input = .ok (.ok r) ∧ r.success = true
    ∧ cmd.content r = .ok content ∧ ws = cmd.written outputDir input r content

/-- A run without an error writes the results of all effects, in their order. A content can be read
back unless a later one was written to its place, and nothing else changes. -/
theorem Compile.run_stores (houtput : cmd.output = "") (h : cmd.run.run c = .ok (.ok (), c')) :
    ∃ o outputDir wss, List.Forall₂ (cmd.Writes o c.files outputDir) cmd.inputs wss ∧
      c.files.Stores wss.flatten c'.files := by
  unfold Compile.run at h
  simp only [houtput, ne_eq, not_true_eq_false, decide_false, Bool.false_and, Bool.false_eq_true,
    if_false] at h
  obtain ⟨⟨o, config⟩, c₁, hsettings, h⟩ := run_bind_done.mp h
  obtain ⟨_, c₂, hstep, h⟩ := run_bind_done.mp h
  obtain ⟨_, _, hget, h⟩ := run_bind_done.mp h
  obtain ⟨rfl, rfl⟩ := run_get_done.mp hget
  obtain ⟨b, _, hlift, h⟩ := run_bind_done.mp h
  obtain ⟨hcompile, rfl⟩ := run_ofFault_done.mp hlift
  obtain ⟨wss, hsettles, hstores⟩ := handleBatch_stores houtput h
  rw [KeepsFiles.files_eq hstep, KeepsFiles.files_eq hsettings] at hcompile hstores
  refine ⟨o, if cmd.outputDir = "" then config.outputDir else cmd.outputDir, wss, ?_, hstores⟩
  -- Every effect has an outcome in the batch, which was written.
  have hentries := Batch.compile_entries hcompile
  generalize b.entries = es at hentries hsettles
  generalize cmd.inputs = inputs at hentries
  clear hstores
  induction hentries generalizing wss with
  | nil =>
    cases hsettles
    exact .nil
  | cons hentry _ ih =>
    obtain ⟨outcome, hcompiled, rfl⟩ := hentry
    cases hsettles with
    | cons hfirst hrest =>
      obtain ⟨r, content, rfl, hsuccess, hcontent, rfl⟩ := hfirst outcome rfl
      exact .cons ⟨r, content, hcompiled, hsuccess, hcontent, rfl⟩ (ih _ hrest)

/-- Where all places are different, nothing is lost: each result is in its files, and the effects
are as they were. -/
theorem Compile.run_keeps (houtput : cmd.output = "") (h : cmd.run.run c = .ok (.ok (), c')) :
    ∃ o outputDir wss, List.Forall₂ (cmd.Writes o c.files outputDir) cmd.inputs wss ∧
      ((wss.flatten.map fun w => Files.destination w.1).Nodup →
        ∀ w ∈ wss.flatten, c'.files.read w.1 = .ok w.2) ∧
      ∀ path content, c.files.read path = .ok content →
        Files.destination path ∉ wss.flatten.map (Files.destination ·.1) →
        c'.files.read path = .ok content := by
  obtain ⟨o, outputDir, wss, hwrites, hstores⟩ := run_stores houtput h
  refine ⟨o, outputDir, wss, hwrites, hstores.read_written, fun path content hread hplace => ?_⟩
  exact hstores.read_kept hread fun w hw heq => hplace (heq ▸ List.mem_map_of_mem hw)

/-- Effects of one name in different directories meet in the output directory. -/
example : Path.join ["out", ({} : Compile).stem "a/x.fx" ++ Target.glsl.extension] =
    Path.join ["out", ({} : Compile).stem "b/x.fx" ++ Target.glsl.extension] := by
  decide +kernel

end Command

end ShaderEffect
