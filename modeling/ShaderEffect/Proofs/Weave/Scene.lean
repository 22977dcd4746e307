import Mathlib
import ShaderEffect.Proofs.Weave.Code

namespace ShaderEffect

variable {β π κ : Type}

namespace Ending

/-- Ends the current block. Gives the block that ended. -/
def handle [Backend β] : Ending → GenM β Id
  | kill => Backend.leaveAndKill
  | giveBack value => Backend.leaveAndReturn value
  | switch selector defaultTarget => Backend.leaveAndSwitch selector defaultTarget
  | branch target flow => Backend.leaveAndBranch target flow
  | branchIf condition yes no => Backend.leaveAndBranchConditional condition yes no

def request : Ending → Request
  | kill => .leaveAndKill
  | giveBack value => .leaveAndReturn value
  | switch selector defaultTarget => .leaveAndSwitch selector defaultTarget
  | branch target flow => .leaveAndBranch target flow
  | branchIf condition yes no => .leaveAndBranchConditional condition yes no

end Ending

/-- How code is found in the state of a target. -/
structure Loom (β κ : Type) where
  holds : β → Id → κ → Prop
  /-- Whether a block was never entered. -/
  vacant : β → Id → Prop
  /-- The block that the code of a block moved to, as far as that can be told. -/
  find : β → Id → Option Id

/-- Whether the code of blocks outside of a list is kept. -/
def Loom.Keeps (L : Loom β κ) (changed : List Id) (t t' : β) : Prop :=
  ∀ b ∉ changed, (∀ k, L.holds t b k → L.holds t' b k) ∧ (L.vacant t b → L.vacant t' b)

section Models

variable [Backend β] [Inhabited π]

/-- Whether nothing but code has changed. -/
structure Adds (L : Loom β κ) (g g' : Generator β) : Prop where
  current : g'.currentBlock = g.currentBlock
  find : L.find g'.target = L.find g.target

/-- Whether code was moved from a block to the current one. -/
structure Moves (W : Weave π κ) (L : Loom β κ) (entered : Id) (g g' : Generator β) : Prop where
  current : g'.currentBlock = g.currentBlock
  find : W.follows = true → entered ≠ g.currentBlock →
    L.find g.target entered = some entered →
    L.find g.target g.currentBlock = some g.currentBlock →
      ∀ b home, L.find g.target b = some home →
      L.find g'.target b = some (if home = entered then g.currentBlock else home)

/-- Whether a target puts code together as described. -/
structure Weave.Models (W : Weave π κ) (L : Loom β κ)
    (observe : Request → Generator β → Generator β → π) :
    Prop where
  nextId_le {r : Request} {g g' : Generator β} {answer : r.Answer}
    (h : r.handle g = .ok (answer, g')) :
    g.nextId ≤ g'.nextId
  plain {r : Request} {g g' : Generator β} {answer : r.Answer} (h : r.handle g = .ok (answer, g'))
    (hr : r.isPlain = true) (hg : g.currentBlock ≠ 0) :
    Adds L g g' ∧ L.Keeps [g.currentBlock] g.target g'.target
      ∧ ∀ k, L.holds g.target g.currentBlock k →
        L.holds g'.target g.currentBlock (W.add k (noteOf observe r g g'))
  enter {id : Id} {g g' : Generator β} {u : Unit} (h : Backend.enterBlock id g = .ok (u, g')) :
    g'.currentBlock = id ∧ g'.lastBlock = g.currentBlock ∧ g'.nextId = g.nextId
      ∧ L.find g'.target = L.find g.target ∧ L.Keeps [id] g.target g'.target
      ∧ (L.vacant g.target id → L.holds g'.target id (W.enter id))
  leave {e : Ending} {g g' : Generator β} {ended : Id} (h : e.handle g = .ok (ended, g'))
    (hg : g.currentBlock ≠ 0) :
    ended = g.currentBlock ∧ g'.currentBlock = 0 ∧ g'.lastBlock = g.currentBlock
      ∧ L.find g'.target = L.find g.target ∧ L.Keeps [g.currentBlock] g.target g'.target
      ∧ ∀ k, L.holds g.target g.currentBlock k →
        L.holds g'.target g.currentBlock (W.leave k e (noteOf observe e.request g g'))
  stay {target : Id} {flow : Flow} {g g' : Generator β} {ended : Id}
    (h : Backend.leaveAndBranch target flow g = .ok (ended, g')) (hg : g.currentBlock = 0) :
    ended = g.lastBlock ∧ g' = g
  ifElse {s : Selection π} {g g' : Generator β} {u : Unit} {start test yes no : κ}
    (h : Backend.emitIf s.location s.condition s.conditionEnd s.yesEnd s.noEnd s.hint g
      = .ok (u, g'))
    (hnote : s.note = observe
      (.emitIf s.location s.condition s.conditionEnd s.yesEnd s.noEnd s.hint) g g')
    (hmerge : g.currentBlock = s.merge) (hne : [s.merge, s.noEnd, s.yesEnd, s.conditionEnd].Nodup)
    (hstart : L.holds g.target s.merge start) (htest : L.holds g.target s.conditionEnd test)
    (hyes : L.holds g.target s.yesEnd yes) (hno : L.holds g.target s.noEnd no) :
    Moves W L s.conditionEnd g g'
      ∧ L.Keeps [s.merge, s.noEnd, s.yesEnd, s.conditionEnd] g.target g'.target
      ∧ L.holds g'.target s.merge (W.ifElse s start test yes no)
  circuit {location : Location} {condition left right leftValue rightValue merge id : Id} {t : Ty}
    {g g' : Generator β} {start test yes : κ}
    (h : Backend.emitPhi location condition left rightValue right leftValue left t g = .ok (id, g'))
    (hmerge : g.currentBlock = merge) (hne : [merge, right, left].Nodup)
    (hstart : L.holds g.target merge start) (htest : L.holds g.target left test)
    (hyes : L.holds g.target right yes) :
    Moves W L left g g' ∧ L.Keeps [merge, right, left] g.target g'.target
      ∧ L.holds g'.target merge
        (W.phi merge (observe (.emitPhi location condition left rightValue right leftValue left t) g
          g') start test (some yes) none) ∧ L.holds g'.target left (W.rest test)
  choice {location : Location}
    {condition conditionBlock yesValue yesEnd noValue noEnd merge id : Id} {t : Ty}
    {g g' : Generator β} {start test yes no : κ}
    (h : Backend.emitPhi location condition conditionBlock yesValue yesEnd noValue noEnd t g
      = .ok (id, g')) (hmerge : g.currentBlock = merge)
    (hne : [merge, noEnd, yesEnd, conditionBlock].Nodup) (hstart : L.holds g.target merge start)
    (htest : L.holds g.target conditionBlock test) (hyes : L.holds g.target yesEnd yes)
    (hno : L.holds g.target noEnd no) :
    Moves W L conditionBlock g g'
      ∧ L.Keeps [merge, noEnd, yesEnd, conditionBlock] g.target g'.target
      ∧ L.holds g'.target merge
        (W.phi merge
          (observe (.emitPhi location condition conditionBlock yesValue yesEnd noValue noEnd t) g
            g') start test (some yes) (some no)) ∧ L.holds g'.target conditionBlock (W.rest test)
  whileLoop {l : Looping π} {nextBlock : Id} {g g' : Generator β} {u : Unit}
    {start before header test body next : κ}
    (h : Backend.emitLoop l.location l.condition l.before l.header l.conditionEnd l.bodyEnd l.next
      l.hint g = .ok (u, g')) (hnote : l.note = observe (l.closes l.conditionEnd).request g g')
    (hmerge : g.currentBlock = l.merge)
    (hne : [l.merge, l.bodyEnd, nextBlock, l.conditionEnd, l.header, l.before].Nodup)
    (htest' : l.conditionEnd ≠ 0)
    (hfound : if W.follows = true then L.find g.target l.next = some nextBlock
      else nextBlock = l.next) (hstart : L.holds g.target l.merge start)
    (hbefore : L.holds g.target l.before before) (hheader : L.holds g.target l.header header)
    (htest : L.holds g.target l.conditionEnd test) (hbody : L.holds g.target l.bodyEnd body)
    (hnext : L.holds g.target nextBlock next) :
    Moves W L l.before g g'
      ∧ L.Keeps [l.merge, l.bodyEnd, nextBlock, l.conditionEnd, l.header, l.before] g.target
        g'.target ∧ L.holds g'.target l.merge (W.loop l start before header (some test) body next)
  doLoop {l : Looping π} {nextBlock : Id} {g g' : Generator β} {u : Unit}
    {start before header body next : κ}
    (h : Backend.emitLoop l.location l.condition l.before l.header 0 l.bodyEnd l.next l.hint g
      = .ok (u, g')) (hnote : l.note = observe (l.closes 0).request g g')
    (hmerge : g.currentBlock = l.merge)
    (hne : [l.merge, nextBlock, l.bodyEnd, l.header, l.before].Nodup)
    (hfound : if W.follows = true then L.find g.target l.next = some nextBlock
      else nextBlock = l.next) (hstart : L.holds g.target l.merge start)
    (hbefore : L.holds g.target l.before before) (hheader : L.holds g.target l.header header)
    (hbody : L.holds g.target l.bodyEnd body) (hnext : L.holds g.target nextBlock next) :
    Moves W L l.before g g'
      ∧ L.Keeps [l.merge, nextBlock, l.bodyEnd, l.header, l.before] g.target g'.target
      ∧ L.holds g'.target l.merge (W.loop l start before header none body next)
  switch {d : Dispatch π} {g g' : Generator β} {u : Unit} {start selector : κ}
    {sections : List (Labels × κ)}
    (h : Backend.emitSwitch d.location d.selector d.selectorEnd d.defaultLabel
      (Labels.cases (sections.map (·.1))) d.hint g = .ok (u, g'))
    (hnote : d.note = observe (.emitSwitch d.location d.selector d.selectorEnd d.defaultLabel
      (Labels.cases (sections.map (·.1))) d.hint) g g')
    (hmerge : g.currentBlock = d.merge)
    (hne : (d.merge :: d.selectorEnd :: sections.map (·.1.ended)).Nodup)
    (hne' : d.merge ≠ 0 ∧ ∀ s ∈ sections, s.1.ended ≠ 0)
    (hlabels : Labels.Proper d.merge d.defaultLabel (sections.map (·.1)))
    (hstart : L.holds g.target d.merge start)
    (hselector : L.holds g.target d.selectorEnd
      (W.leave selector (.switch d.selector d.merge) default))
    (hsections : ∀ s ∈ sections, L.holds g.target s.1.ended s.2) :
    Moves W L d.selectorEnd g g'
      ∧ L.Keeps (d.merge :: d.selectorEnd :: sections.map (·.1.ended)) g.target g'.target
      ∧ L.holds g'.target d.merge (W.switch d start selector sections)

end Models

/-- Whether the sections of a switch statement end in blocks of their own, none of which is the one
behind it, and its default label goes with them. -/
structure Labels.AreApart (merge defaultLabel : Id) (sections : List (Labels × κ)) : Prop where
  merge_ne : merge ≠ 0
  ended_ne : ∀ s ∈ sections, s.1.ended ≠ 0
  apart : (merge :: sections.map (·.1.ended)).Nodup
  proper : Labels.Proper merge defaultLabel (sections.map (·.1))

/-- The block of the selector is another one. -/
theorem Labels.areApart {merge defaultLabel selectorBlock : Id} {sections : List (Labels × κ)}
    (hne : (merge :: selectorBlock :: sections.map (·.1.ended)).Nodup)
    (hne' : merge ≠ 0 ∧ ∀ s ∈ sections, s.1.ended ≠ 0)
    (hlabels : Labels.Proper merge defaultLabel (sections.map (·.1))) :
    Labels.AreApart merge defaultLabel sections
      ∧ selectorBlock ∉ merge :: sections.map (·.1.ended) := by
  have hswap := List.nodup_cons.mp ((List.Perm.swap _ _ _).nodup hne)
  exact ⟨⟨hne'.1, hne'.2, hswap.2, hlabels⟩, hswap.1⟩

/-- Of the sections without case labels only that of the default label is reached. -/
theorem Labels.filter_bareDefault (sections : List (Labels × κ)) :
    sections.filter (fun s => s.1.literals = [] ∧ s.1.isDefault)
      = (sections.filter (·.1.isDefault)).filter (·.1.literals = []) := by
  simp only [List.filter_filter, Bool.decide_and, Bool.decide_eq_true]

namespace Labels.AreApart

variable {merge defaultLabel : Id} {sections : List (Labels × κ)} {s c : Labels × κ}

theorem nodup (h : AreApart merge defaultLabel sections) : (sections.map (·.1.ended)).Nodup :=
  (List.nodup_cons.mp h.apart).2

theorem ended_ne_merge (h : AreApart merge defaultLabel sections) (hs : s ∈ sections) :
    s.1.ended ≠ merge :=
  fun heq => (List.nodup_cons.mp h.apart).1 (List.mem_map.mpr ⟨s, hs, heq⟩)

theorem eq_of_ended (h : AreApart merge defaultLabel sections) (hs : s ∈ sections)
    (hc : c ∈ sections) (heq : s.1.ended = c.1.ended) : s = c :=
  List.inj_on_of_nodup_map h.nodup hs hc heq

/-- The block of a section is one of those that case labels lead to if the section has
such labels itself. -/
theorem ended_mem_labelled (h : AreApart merge defaultLabel sections) (hs : s ∈ sections) :
    s.1.ended ∈ (sections.filter (·.1.literals ≠ [])).map (·.1.ended)
      ↔ s.1.literals ≠ [] := by
  simp only [List.mem_map, List.mem_filter, decide_eq_true_eq]
  refine ⟨?_, fun hliterals => ⟨s, ⟨hs, hliterals⟩, rfl⟩⟩
  rintro ⟨c, ⟨hc, hliterals⟩, heq⟩
  rwa [h.eq_of_ended hc hs heq] at hliterals

/-- A switch statement leads to the section of its default label, or else to the block behind it. -/
theorem default_cases (h : AreApart merge defaultLabel sections) :
    (sections.filter (·.1.isDefault) = [] ∧ defaultLabel = merge)
      ∨ ∃ s, sections.filter (·.1.isDefault) = [s] ∧ defaultLabel = s.1.ended := by
  obtain ⟨hone, hdefault⟩ := h.proper.default h.merge_ne fun l hl => by
    obtain ⟨s, hs, rfl⟩ := List.mem_map.mp hl
    exact ⟨h.ended_ne s hs, h.ended_ne_merge hs⟩
  rw [List.filter_map, List.length_map] at hone
  rw [Labels.default?, List.find?_map, ← List.head?_filter] at hdefault
  change (sections.filter (·.1.isDefault)).length ≤ 1 at hone
  change defaultLabel
    = (((sections.filter (·.1.isDefault)).head?.map _).map _).getD merge at hdefault
  cases hfilter : sections.filter (·.1.isDefault) with
  | nil =>
    rw [hfilter] at hdefault
    exact .inl ⟨rfl, hdefault⟩
  | cons s rest =>
    rw [hfilter] at hone hdefault
    obtain rfl : rest = [] := List.eq_nil_of_length_eq_zero (by simpa using hone)
    exact .inr ⟨s, rfl, hdefault⟩

/-- The default label is known by the block of its section. -/
theorem ended_eq_default (h : AreApart merge defaultLabel sections) (hs : s ∈ sections) :
    s.1.ended = defaultLabel ↔ s.1.isDefault = true := by
  obtain ⟨hnone, rfl⟩ | ⟨c, hone, rfl⟩ := h.default_cases
  · exact iff_of_false (h.ended_ne_merge hs) (List.filter_eq_nil_iff.mp hnone s hs)
  · have hc : c ∈ sections ∧ c.1.isDefault = true :=
      List.mem_filter.mp (hone ▸ List.mem_singleton.mpr rfl)
    refine ⟨fun heq => h.eq_of_ended hs hc.1 heq ▸ hc.2, fun hdefault => ?_⟩
    have hs : s ∈ [c] := hone ▸ List.mem_filter.mpr ⟨hs, hdefault⟩
    rw [List.mem_singleton.mp hs]

end Labels.AreApart

/-- A block with its code, and the blocks whose code has moved to it. -/
structure Cell (κ : Type) where
  block : Id
  code : κ
  names : List Id

/-- Whether some blocks hold some code, and others are still unused. All of them are different. -/
structure Scene (W : Weave π κ) (L : Loom β κ) (g : Generator β) (cells : List (Cell κ))
    (spare : List Id) :
    Prop where
  positive : 0 < g.nextId
  distinct : (cells.map (·.block) ++ spare).Nodup
  used : ∀ b ∈ cells.map (·.block) ++ spare, b ≠ 0 ∧ b.toNat < g.nextId
  holds : ∀ c ∈ cells, L.holds g.target c.block c.code
  named : W.follows = true → ∀ c ∈ cells, ∀ n ∈ c.names, L.find g.target n = some c.block
  vacant : ∀ b ∈ spare, L.vacant g.target b
  unmoved : W.follows = true → ∀ b ∈ spare, L.find g.target b = some b
  fresh : ∀ b :
    Id, g.nextId ≤ b.toNat →
      L.vacant g.target b ∧ (W.follows = true → L.find g.target b = some b)

namespace Scene

variable {W : Weave π κ} {L : Loom β κ} {g g' : Generator β} {cells old new : List (Cell κ)}
  {c d : Cell κ} {spare pre post : List Id}

/-- The blocks of a scene in another order. -/
theorem perm (h : Scene W L g old spare) (hcells : new.Perm old) : Scene W L g new spare where
  positive := h.positive
  distinct := ((hcells.map _).append_right spare).nodup_iff.mpr h.distinct
  used b hb := h.used b (((hcells.map _).append_right spare).subset hb)
  holds c hc := h.holds c (hcells.subset hc)
  named hW c hc := h.named hW c (hcells.subset hc)
  vacant := h.vacant
  unmoved := h.unmoved
  fresh := h.fresh

/-- Some of the blocks of a scene. -/
theorem sublist (h : Scene W L g old spare) (hcells : new.Sublist old) : Scene W L g new spare where
  positive := h.positive
  distinct := h.distinct.sublist ((hcells.map _).append_right spare)
  used b hb := h.used b (((hcells.map _).append_right spare).subset hb)
  holds c hc := h.holds c (hcells.subset hc)
  named hW c hc := h.named hW c (hcells.subset hc)
  vacant := h.vacant
  unmoved := h.unmoved
  fresh := h.fresh

/-- An unused block is forgotten. -/
theorem forget {b : Id} (h : Scene W L g cells (b :: spare)) : Scene W L g cells spare where
  positive := h.positive
  distinct := h.distinct.sublist ((List.sublist_cons_self _ _).append_left _)
  used v hv := h.used v (((List.sublist_cons_self _ _).append_left _).subset hv)
  holds := h.holds
  named := h.named
  vacant v hv := h.vacant v (List.mem_cons_of_mem _ hv)
  unmoved hW v hv := h.unmoved hW v (List.mem_cons_of_mem _ hv)
  fresh := h.fresh

/-- The block behind some others comes first. -/
theorem bring (front : List (Cell κ)) (h : Scene W L g (front ++ c :: cells) spare) :
    Scene W L g (c :: (front ++ cells)) spare :=
  h.perm List.perm_middle.symm

/-- The block behind some others is left out. -/
theorem drop (front : List (Cell κ)) (h : Scene W L g (front ++ c :: cells) spare) :
    Scene W L g (front ++ cells) spare :=
  h.sublist ((List.sublist_cons_self c cells).append_left front)

/-- Names are forgotten. -/
theorem rename {names : List Id} (h : Scene W L g (c :: cells) spare) (hnames : names ⊆ c.names) :
    Scene W L g ({ c with names } :: cells) spare where
  positive := h.positive
  distinct := h.distinct
  used := h.used
  holds d hd := by
    rcases List.mem_cons.mp hd with rfl | hd
    · exact h.holds c List.mem_cons_self
    · exact h.holds d (List.mem_cons_of_mem _ hd)
  named hW d hd n hn := by
    rcases List.mem_cons.mp hd with rfl | hd
    · exact h.named hW c List.mem_cons_self n (hnames hn)
    · exact h.named hW d (List.mem_cons_of_mem _ hd) n hn
  vacant := h.vacant
  unmoved := h.unmoved
  fresh := h.fresh

/-- Some blocks change their code or are left out. -/
theorem update {changed : List Id} (old new : List (Cell κ)) (h : Scene W L g (old ++ cells) spare)
    (hkeeps : L.Keeps changed g.target g'.target) (hchanged : changed ⊆ old.map (·.block))
    (hnext : g.nextId ≤ g'.nextId) (hblocks : (new.map (·.block)).Sublist (old.map (·.block)))
    (hholds : ∀ c ∈ new, L.holds g'.target c.block c.code)
    (hnamed : W.follows = true →
      ∀ c ∈ new, ∀ n ∈ c.names, L.find g'.target n = some c.block)
    (hfind : W.follows = true →
      ∀ b home, L.find g.target b = some home → home ∉ old.map (·.block) →
      L.find g'.target b = some home) :
    Scene W L g' (new ++ cells) spare := by
  have hdistinct := h.distinct
  simp only [List.map_append, List.append_assoc, List.nodup_append, List.mem_append] at hdistinct
  obtain ⟨-, ⟨-, -, -⟩, hold⟩ := hdistinct
  have hsub : ((new ++ cells).map (·.block) ++ spare).Sublist ((old ++ cells).map (·.block)
      ++ spare) := by
    simp only [List.map_append, List.append_assoc]
    exact hblocks.append_right _
  -- Nothing changes outside of the old blocks: those of the other cells, the spare ones and
  -- those that are not made yet are different from them.
  have hcells (c : Cell κ) (hc : c ∈ cells) : c.block ∉ old.map (·.block) :=
    fun hmem => hold _ hmem _ (.inl (List.mem_map_of_mem hc)) rfl
  have hspare (b : Id) (hb : b ∈ spare) : b ∉ old.map (·.block) :=
    fun hmem => hold _ hmem _ (.inr hb) rfl
  have hfresh (b : Id) (hb : g.nextId ≤ b.toNat) : b ∉ old.map (·.block) := by
    intro hmem
    have hmem : b ∈ (old ++ cells).map (·.block) ++ spare := by
      simp only [List.map_append, List.mem_append, hmem, true_or]
    exact absurd (h.used b hmem).2 (by omega)
  refine ⟨Nat.lt_of_lt_of_le h.positive hnext, h.distinct.sublist hsub, fun b hb => ?_, ?_,
    ?_, ?_, ?_, ?_⟩
  · obtain ⟨hzero, hlt⟩ := h.used b (hsub.subset hb)
    exact ⟨hzero, Nat.lt_of_lt_of_le hlt hnext⟩
  · intro c hc
    rcases List.mem_append.mp hc with hc | hc
    · exact hholds c hc
    · exact (hkeeps c.block fun hmem => hcells c hc (hchanged hmem)).1 _
        (h.holds c (List.mem_append_right _ hc))
  · intro hW c hc n hn
    rcases List.mem_append.mp hc with hc | hc
    · exact hnamed hW c hc n hn
    · have hname := h.named hW c (List.mem_append_right _ hc) n hn
      exact hfind hW n _ hname (hcells c hc)
  · exact fun b hb => (hkeeps b fun hmem => hspare b hb (hchanged hmem)).2 (h.vacant b hb)
  · intro hW b hb
    have hname := h.unmoved hW b hb
    exact hfind hW b _ hname (hspare b hb)
  · intro b hb
    have hb := Nat.le_trans hnext hb
    obtain ⟨hvacant, hname⟩ := h.fresh b hb
    refine ⟨(hkeeps b fun hmem => hfresh b hb (hchanged hmem)).2 hvacant, fun hW => ?_⟩
    exact hfind hW b _ (hname hW) (hfresh b hb)

/-- A scene depends on nothing but the code and the ids in use. -/
theorem congr (h : Scene W L g cells spare) (htarget : g'.target = g.target)
    (hnext : g'.nextId = g.nextId) :
    Scene W L g' cells spare := by
  obtain ⟨positive, distinct, used, holds, named, vacant, unmoved, fresh⟩ := h
  rw [← htarget] at holds named vacant unmoved fresh
  rw [← hnext] at positive used fresh
  exact ⟨positive, distinct, used, holds, named, vacant, unmoved, fresh⟩

theorem setBlock {id ended : Id} (h : Scene W L g cells spare)
    (hrun : Generator.setBlock id g = .ok (ended, g')) :
    ended = g.currentBlock ∧ g'.currentBlock = id ∧ g'.lastBlock = g.currentBlock
      ∧ Scene W L g' cells spare := by
  simp only [Generator.setBlock, bind_eq_ok, get_eq_ok, set_eq_ok, pure_eq_ok] at hrun
  obtain ⟨_, _, ⟨rfl, rfl⟩, _, _, rfl, rfl, rfl⟩ := hrun
  exact ⟨rfl, rfl, rfl, h.congr rfl rfl⟩

theorem makeId {id : Id} (h : Scene W L g cells spare) (hrun : Generator.makeId g = .ok (id, g'))
    (hid : g'.nextId ≤ 2 ^ 32) :
    g'.currentBlock = g.currentBlock ∧ g'.lastBlock = g.lastBlock
      ∧ Scene W L g' cells (id :: spare) := by
  simp only [Generator.makeId, bind_eq_ok, get_eq_ok, set_eq_ok, pure_eq_ok] at hrun
  obtain ⟨_, _, ⟨rfl, rfl⟩, _, _, rfl, rfl, rfl⟩ := hrun
  have hid : (UInt32.ofNat g.nextId).toNat = g.nextId := UInt32.toNat_ofNat_of_lt' hid
  have hnew : UInt32.ofNat g.nextId ∉ cells.map (·.block) ++ spare := by
    intro hmem
    have hlt := (h.used _ hmem).2
    omega
  obtain ⟨hvacant, hfind⟩ := h.fresh (UInt32.ofNat g.nextId) (Nat.le_of_eq hid.symm)
  refine ⟨rfl, rfl, Nat.succ_pos _, ?_, ?_, h.holds, h.named, ?_, ?_,
    fun b hb => h.fresh b (Nat.le_of_succ_le hb)⟩
  · exact List.nodup_middle.mpr (List.nodup_cons.mpr ⟨hnew, h.distinct⟩)
  · intro b hb
    rcases List.mem_cons.mp (List.perm_middle.subset hb) with rfl | hb
    · refine ⟨fun hzero => ?_, Nat.lt_succ_of_le (Nat.le_of_eq hid)⟩
      have hpositive := h.positive
      rw [hzero] at hid
      exact absurd hid.symm (Nat.pos_iff_ne_zero.mp hpositive)
    · obtain ⟨hzero, hlt⟩ := h.used b hb
      exact ⟨hzero, Nat.lt_succ_of_lt hlt⟩
  · intro b hb
    rcases List.mem_cons.mp hb with rfl | hb
    · exact hvacant
    · exact h.vacant b hb
  · intro hW b hb
    rcases List.mem_cons.mp hb with rfl | hb
    · exact hfind hW
    · exact h.unmoved hW b hb

/-- Some blocks change their code, or are left out, and no code moves. -/
theorem adds {changed : List Id} (old new : List (Cell κ)) (h : Scene W L g (old ++ cells) spare)
    (hfind : L.find g'.target = L.find g.target) (hkeeps : L.Keeps changed g.target g'.target)
    (hchanged : changed ⊆ old.map (·.block)) (hnext : g.nextId ≤ g'.nextId)
    (hblocks : (new.map (·.block)).Sublist (old.map (·.block)))
    (hholds : ∀ c ∈ new, L.holds g'.target c.block c.code)
    (hnamed : W.follows = true →
      ∀ c ∈ new, ∀ n ∈ c.names, L.find g.target n = some c.block) :
    Scene W L g' (new ++ cells) spare :=
  h.update old new hkeeps hchanged hnext hblocks hholds (hfind ▸ hnamed)
    fun _ b _ hb _ => (congrFun hfind b).trans hb

/-- The first block changes its code. -/
theorem recode {b : Id} {k k' : κ} {names : List Id}
    (h : Scene W L g (⟨b, k, names⟩ :: cells) spare)
    (hfind : L.find g'.target = L.find g.target) (hkeeps : L.Keeps [b] g.target g'.target)
    (hnext : g.nextId ≤ g'.nextId) (hholds : L.holds g'.target b k') :
    Scene W L g' (⟨b, k', names⟩ :: cells) spare := by
  refine h.adds [⟨b, k, names⟩] [⟨b, k', names⟩] hfind hkeeps (List.Subset.refl _) hnext
    (List.Sublist.refl _) ?_ ?_
  · intro c hc
    obtain rfl := List.mem_singleton.mp hc
    exact hholds
  · intro hW c hc
    obtain rfl := List.mem_singleton.mp hc
    exact h.named hW ⟨b, k, names⟩ List.mem_cons_self

section Steps

variable [Backend β] [Inhabited π] {observe : Request → Generator β → Generator β → π}
  {b : Id} {k : κ} {names : List Id}

theorem plain (hm : W.Models L observe) {e : Entry π}
    (h : Scene W L g (⟨b, k, names⟩ :: cells) spare) (hg : g.currentBlock = b)
    (hplain : e.request.isPlain = true) (hrun : e.request.handle g = .ok (e.answer, g'))
    (hnote : e.note = noteOf observe e.request g g') :
    g'.currentBlock = b ∧ Scene W L g' (⟨b, W.add k e.note, names⟩ :: cells) spare := by
  subst hg
  obtain ⟨hadds, hkeeps, hholds⟩ :=
    hm.plain hrun hplain (h.used g.currentBlock List.mem_cons_self).1
  refine ⟨hadds.current, h.recode hadds.find hkeeps (hm.nextId_le hrun) ?_⟩
  rw [hnote]
  exact hholds k (h.holds _ List.mem_cons_self)

theorem leave (hm : W.Models L observe) {e : Ending} {ended : Id}
    (h : Scene W L g (⟨b, k, names⟩ :: cells) spare) (hg : g.currentBlock = b)
    (hrun : e.handle g = .ok (ended, g')) :
    ended = b ∧ g'.currentBlock = 0 ∧ g'.lastBlock = b
      ∧ Scene W L g' (⟨b, W.leave k e (noteOf observe e.request g g'), names⟩
        :: cells) spare := by
  subst hg
  obtain ⟨rfl, hcurrent, hlast, hfind, hkeeps, hholds⟩ :=
    hm.leave hrun (h.used g.currentBlock List.mem_cons_self).1
  have hnext : g.nextId ≤ g'.nextId := by
    cases e with
    | kill => exact hm.nextId_le (r := .leaveAndKill) hrun
    | giveBack value => exact hm.nextId_le (r := .leaveAndReturn value) hrun
    | switch selector target => exact hm.nextId_le (r := .leaveAndSwitch selector target) hrun
    | branch target flow => exact hm.nextId_le (r := .leaveAndBranch target flow) hrun
    | branchIf condition yes no =>
      exact hm.nextId_le (r := .leaveAndBranchConditional condition yes no) hrun
  exact ⟨rfl, hcurrent, hlast,
    h.recode hfind hkeeps hnext (hholds k (h.holds _ List.mem_cons_self))⟩

theorem enter (hm : W.Models L observe) {id : Id} {u : Unit} (front : List Id)
    (h : Scene W L g cells (front ++ id :: spare)) (hrun : Backend.enterBlock id g = .ok (u, g')) :
    g'.currentBlock = id
      ∧ Scene W L g' (⟨id, W.enter id, [id]⟩ :: cells) (front ++ spare) := by
  obtain ⟨hcurrent, -, hnext, hfind, hkeeps, hholds⟩ := hm.enter hrun
  -- The block moves from the spare ones to the cells, so that the same ids are in use as
  -- before.
  have hspare : (cells.map (·.block) ++ (front ++ id :: spare)).Perm
      (id :: (cells.map (·.block) ++ (front ++ spare))) :=
    (List.perm_middle.append_left _).trans List.perm_middle
  have hdistinct := hspare.nodup_iff.mp h.distinct
  obtain ⟨hnew, hdistinct'⟩ := List.nodup_cons.mp hdistinct
  have hid : id ∈ front ++ id :: spare := List.mem_append_right _ List.mem_cons_self
  have hothers {v : Id} (hv : v ∈ front ++ spare) : v ≠ id ∧ v ∈ front ++ id :: spare := by
    refine ⟨fun heq => hnew (heq ▸ List.mem_append_right _ hv), ?_⟩
    exact List.perm_middle.symm.subset (List.mem_cons_of_mem _ hv)
  refine ⟨hcurrent, hnext ▸ h.positive, hdistinct, fun b hb => ?_, ?_, ?_, ?_, ?_,
    fun b hb => ?_⟩
  · rw [hnext]
    exact h.used b (hspare.symm.subset hb)
  · intro c hc
    rcases List.mem_cons.mp hc with rfl | hc
    · exact hholds (h.vacant id hid)
    · refine (hkeeps c.block fun hmem => ?_).1 _ (h.holds c hc)
      exact hnew (List.mem_append_left _ (List.mem_singleton.mp hmem ▸ List.mem_map_of_mem hc))
  · rw [hfind]
    intro hW c hc n hn
    rcases List.mem_cons.mp hc with rfl | hc
    · obtain rfl := List.mem_singleton.mp hn
      exact h.unmoved hW n hid
    · exact h.named hW c hc n hn
  · intro b hb
    obtain ⟨hne, hb⟩ := hothers hb
    exact (hkeeps b fun hmem => hne (List.mem_singleton.mp hmem)).2 (h.vacant b hb)
  · rw [hfind]
    exact fun hW b hb => h.unmoved hW b (hothers hb).2
  · rw [hnext] at hb
    obtain ⟨hvacant, hname⟩ := h.fresh b hb
    refine ⟨(hkeeps b fun hmem => ?_).2 hvacant, hfind ▸ hname⟩
    have hlt := (h.used id (List.mem_append_right _ hid)).2
    rw [← List.mem_singleton.mp hmem] at hlt
    omega

omit [Backend β] [Inhabited π] in
/-- The code of a construct moves to the current block. Something may be left in the block that it
was entered from. -/
theorem moved {merge : Id} {start k : κ} {names₀ changed : List Id} (old left : List (Cell κ))
    (entered : Cell κ) (h : Scene W L g (⟨merge, start, names₀⟩ :: old ++ cells) spare)
    (hmoves : Moves W L entered.block g g') (hg : g.currentBlock = merge)
    (hmerge : merge ∈ names₀) (hold : entered ∈ old)
    (hentered : entered.block ∈ entered.names) (hkeeps : L.Keeps changed g.target g'.target)
    (hchanged : changed ⊆ merge :: old.map (·.block)) (hnext : g.nextId ≤ g'.nextId)
    (hholds : L.holds g'.target merge k)
    (hleft : (left.map (·.block)).Sublist (old.map (·.block)))
    (hleft' : ∀ c ∈ left, c.names = [] ∧ L.holds g'.target c.block c.code) :
    g'.currentBlock = merge
      ∧ Scene W L g' (⟨merge, k, entered.names ++ names₀⟩ :: left ++ cells) spare := by
  subst hg
  have hstart : ⟨g.currentBlock, start, names₀⟩
      ∈ ⟨g.currentBlock, start, names₀⟩ :: old ++ cells :=
    List.mem_append_left _ List.mem_cons_self
  have hold' : entered ∈ ⟨g.currentBlock, start, names₀⟩ :: old ++ cells :=
    List.mem_append_left _ (List.mem_cons_of_mem _ hold)
  have hne : g.currentBlock ≠ entered.block := by
    have hdistinct := h.distinct
    simp only [List.map_append, List.map_cons, List.append_assoc, List.cons_append,
      List.nodup_cons] at hdistinct
    exact fun heq => hdistinct.1 (List.mem_append_left _ (heq ▸ List.mem_map_of_mem hold))
  -- What led to the block of the construct now leads to the current one, and everything else to
  -- where it led.
  have hfind (hW : W.follows = true) {b home : Id} (hb : L.find g.target b = some home) :
      L.find g'.target b = some (if home = entered.block then g.currentBlock else home) :=
    hmoves.find hW hne.symm (h.named hW _ hold' _ hentered) (h.named hW _ hstart _ hmerge) b home hb
  refine ⟨hmoves.current, h.update (⟨g.currentBlock, start, names₀⟩ :: old)
    (⟨g.currentBlock, k, entered.names ++ names₀⟩ :: left) hkeeps hchanged hnext
    (hleft.cons_cons _) ?_ ?_ ?_⟩
  · intro c hc
    rcases List.mem_cons.mp hc with rfl | hc
    · exact hholds
    · exact (hleft' c hc).2
  · intro hW c hc n hn
    rcases List.mem_cons.mp hc with rfl | hc
    · rcases List.mem_append.mp hn with hn | hn
      · rw [hfind hW (h.named hW _ hold' n hn), if_pos rfl]
      · rw [hfind hW (h.named hW _ hstart n hn), if_neg hne]
    · rw [(hleft' c hc).1] at hn
      exact absurd hn List.not_mem_nil
  · intro hW b home hb hhome
    rw [hfind hW hb, if_neg]
    exact fun heq => hhome (heq ▸ List.mem_cons_of_mem _ (List.mem_map_of_mem hold))

omit [Backend β] [Inhabited π] in
/-- The blocks of a scene are different. -/
theorem nodup (old : List (Cell κ)) (h : Scene W L g (old ++ cells) spare) :
    (old.map (·.block)).Nodup := by
  have hdistinct := h.distinct
  rw [List.map_append, List.append_assoc] at hdistinct
  exact (List.nodup_append.mp hdistinct).1

theorem ifElse (hm : W.Models L observe) {s : Selection π} {u : Unit} {start test yes no : κ}
    {names₀ names₁ names₂ names : List Id}
    (h : Scene W L g (⟨s.merge, start, names₀⟩
      :: ⟨s.noEnd, no, names₁⟩ :: ⟨s.yesEnd, yes, names₂⟩
      :: ⟨s.conditionEnd, test, names⟩ :: cells) spare)
    (hg : g.currentBlock = s.merge) (hmerge : s.merge ∈ names₀)
    (htest : s.conditionEnd ∈ names)
    (hrun : Backend.emitIf s.location s.condition s.conditionEnd s.yesEnd s.noEnd s.hint g
      = .ok (u, g'))
    (hnote : s.note = observe
      (.emitIf s.location s.condition s.conditionEnd s.yesEnd s.noEnd s.hint) g g') :
    g'.currentBlock = s.merge
      ∧ Scene W L g' (⟨s.merge, W.ifElse s start test yes no, names ++ names₀⟩
        :: cells) spare := by
  let old : List (Cell κ) :=
    [⟨s.noEnd, no, names₁⟩, ⟨s.yesEnd, yes, names₂⟩, ⟨s.conditionEnd, test, names⟩]
  have hne : [s.merge, s.noEnd, s.yesEnd, s.conditionEnd].Nodup :=
    h.nodup (⟨s.merge, start, names₀⟩ :: old)
  obtain ⟨hmoves, hkeeps, hholds⟩ :=
    hm.ifElse hrun hnote hg hne (h.holds ⟨s.merge, start, names₀⟩ (by simp))
      (h.holds ⟨s.conditionEnd, test, names⟩ (by simp))
      (h.holds ⟨s.yesEnd, yes, names₂⟩ (by simp))
      (h.holds ⟨s.noEnd, no, names₁⟩ (by simp))
  have hnext :=
    hm.nextId_le (r := .emitIf s.location s.condition s.conditionEnd s.yesEnd s.noEnd s.hint) hrun
  exact h.moved old [] ⟨s.conditionEnd, test, names⟩ hmoves hg hmerge (by simp [old]) htest
    hkeeps (List.Subset.refl _) hnext hholds (List.nil_sublist _) nofun

theorem circuit (hm : W.Models L observe) {location : Location}
    {condition left right leftValue rightValue merge id : Id} {t : Ty} {start test yes : κ}
    {names₀ names₁ names : List Id}
    (h : Scene W L g (⟨merge, start, names₀⟩
      :: ⟨right, yes, names₁⟩ :: ⟨left, test, names⟩ :: cells) spare)
    (hg : g.currentBlock = merge) (hmerge : merge ∈ names₀) (htest : left ∈ names)
    (hrun : Backend.emitPhi location condition left rightValue right leftValue left t g
      = .ok (id, g')) :
    let note := observe (.emitPhi location condition left rightValue right leftValue left t) g g'
    g'.currentBlock = merge
      ∧ Scene W L g' (⟨merge, W.phi merge note start test (some yes) none, names ++ names₀⟩
        :: ⟨left, W.rest test, []⟩ :: cells) spare := by
  let old : List (Cell κ) := [⟨right, yes, names₁⟩, ⟨left, test, names⟩]
  obtain ⟨hmoves, hkeeps, hholds, hleft⟩ :=
    hm.circuit hrun hg (h.nodup (⟨merge, start, names₀⟩ :: old))
      (h.holds ⟨merge, start, names₀⟩ (by simp)) (h.holds ⟨left, test, names⟩ (by simp))
      (h.holds ⟨right, yes, names₁⟩ (by simp))
  have hnext :=
    hm.nextId_le (r := .emitPhi location condition left rightValue right leftValue left t) hrun
  refine h.moved old [⟨left, W.rest test, []⟩] ⟨left, test, names⟩ hmoves hg hmerge
    (by simp [old]) htest hkeeps (List.Subset.refl _) hnext hholds (List.sublist_cons_self _ _) ?_
  exact fun c hc => by rw [List.mem_singleton.mp hc]; exact ⟨rfl, hleft⟩

theorem choice (hm : W.Models L observe) {location : Location}
    {condition conditionBlock yesValue yesEnd noValue noEnd merge id : Id} {t : Ty}
    {start test yes no : κ} {names₀ names₁ names₂ names : List Id}
    (h : Scene W L g (⟨merge, start, names₀⟩
      :: ⟨noEnd, no, names₁⟩ :: ⟨yesEnd, yes, names₂⟩
      :: ⟨conditionBlock, test, names⟩ :: cells) spare) (hg : g.currentBlock = merge)
    (hmerge : merge ∈ names₀) (htest : conditionBlock ∈ names)
    (hrun : Backend.emitPhi location condition conditionBlock yesValue yesEnd noValue noEnd t g
      = .ok (id, g')) :
    let note :=
  observe (.emitPhi location condition conditionBlock yesValue yesEnd noValue noEnd t) g g'
    g'.currentBlock = merge
      ∧ Scene W L g' (⟨merge, W.phi merge note start test (some yes) (some no),
        names ++ names₀⟩ :: ⟨conditionBlock, W.rest test, []⟩ :: cells) spare := by
  let old : List (Cell κ) :=
    [⟨noEnd, no, names₁⟩, ⟨yesEnd, yes, names₂⟩, ⟨conditionBlock, test, names⟩]
  obtain ⟨hmoves, hkeeps, hholds, hleft⟩ :=
    hm.choice hrun hg (h.nodup (⟨merge, start, names₀⟩ :: old))
      (h.holds ⟨merge, start, names₀⟩ (by simp))
      (h.holds ⟨conditionBlock, test, names⟩ (by simp))
      (h.holds ⟨yesEnd, yes, names₂⟩ (by simp)) (h.holds ⟨noEnd, no, names₁⟩ (by simp))
  have hnext :=
    hm.nextId_le (r := .emitPhi location condition conditionBlock yesValue yesEnd noValue noEnd t)
      hrun
  refine h.moved old [⟨conditionBlock, W.rest test, []⟩] ⟨conditionBlock, test, names⟩
    hmoves hg hmerge (by simp [old]) htest hkeeps (List.Subset.refl _) hnext hholds ?_ ?_
  · exact (List.sublist_cons_self _ _).trans (List.sublist_cons_self _ _)
  · exact fun c hc => by rw [List.mem_singleton.mp hc]; exact ⟨rfl, hleft⟩

omit [Backend β] [Inhabited π] in
/-- The code that a loop finds for its next round. -/
theorem found {nextBlock : Id} {l : Looping π} (next : κ) (h : Scene W L g cells spare)
    (hnext : ⟨nextBlock, next, names⟩ ∈ cells)
    (hfound : if W.follows = true then l.next ∈ names else nextBlock = l.next) :
    if W.follows = true then L.find g.target l.next = some nextBlock else nextBlock = l.next := by
  by_cases hW : W.follows = true
  · rw [if_pos hW] at hfound ⊢
    exact h.named hW _ hnext _ hfound
  · rw [if_neg hW] at hfound ⊢
    exact hfound

theorem whileLoop (hm : W.Models L observe) {l : Looping π} {nextBlock : Id} {u : Unit}
    {start before header test body next : κ}
    {names₀ names₁ names₂ names₃ names₄ names : List Id}
    (h : Scene W L g (⟨l.merge, start, names₀⟩
      :: ⟨l.bodyEnd, body, names₁⟩ :: ⟨nextBlock, next, names₂⟩
      :: ⟨l.conditionEnd, test, names₃⟩
      :: ⟨l.header, header, names₄⟩ :: ⟨l.before, before, names⟩ :: cells) spare)
    (hg : g.currentBlock = l.merge) (hmerge : l.merge ∈ names₀) (hbefore : l.before ∈ names)
    (hfound : if W.follows = true then l.next ∈ names₂ else nextBlock = l.next)
    (hrun : Backend.emitLoop l.location l.condition l.before l.header l.conditionEnd l.bodyEnd
      l.next l.hint g = .ok (u, g'))
    (hnote : l.note = observe (l.closes l.conditionEnd).request g g') :
    g'.currentBlock = l.merge ∧ Scene W L g'
      (⟨l.merge, W.loop l start before header (some test) body next, names ++ names₀⟩
        :: cells) spare := by
  let old : List (Cell κ) :=
    [⟨l.bodyEnd, body, names₁⟩, ⟨nextBlock, next, names₂⟩,
      ⟨l.conditionEnd, test, names₃⟩,
    ⟨l.header, header, names₄⟩, ⟨l.before, before, names⟩]
  have hused : l.conditionEnd ≠ 0 := (h.used _ (by simp)).1
  obtain ⟨hmoves, hkeeps, hholds⟩ :=
    hm.whileLoop hrun hnote hg (h.nodup (⟨l.merge, start, names₀⟩ :: old)) hused
      (h.found next (by simp) hfound) (h.holds ⟨l.merge, start, names₀⟩ (by simp))
      (h.holds ⟨l.before, before, names⟩ (by simp))
      (h.holds ⟨l.header, header, names₄⟩ (by simp))
      (h.holds ⟨l.conditionEnd, test, names₃⟩ (by simp))
      (h.holds ⟨l.bodyEnd, body, names₁⟩ (by simp))
      (h.holds ⟨nextBlock, next, names₂⟩ (by simp))
  have hnext := hm.nextId_le (r := (l.closes l.conditionEnd).request) hrun
  exact h.moved old [] ⟨l.before, before, names⟩ hmoves hg hmerge (by simp [old]) hbefore hkeeps
    (List.Subset.refl _) hnext hholds (List.nil_sublist _) nofun

theorem doLoop (hm : W.Models L observe) {l : Looping π} {nextBlock : Id} {u : Unit}
    {start before header body next : κ} {names₀ names₁ names₂ names₃ names : List Id}
    (h : Scene W L g (⟨l.merge, start, names₀⟩
      :: ⟨nextBlock, next, names₁⟩ :: ⟨l.bodyEnd, body, names₂⟩
      :: ⟨l.header, header, names₃⟩ :: ⟨l.before, before, names⟩ :: cells) spare)
    (hg : g.currentBlock = l.merge) (hmerge : l.merge ∈ names₀) (hbefore : l.before ∈ names)
    (hfound : if W.follows = true then l.next ∈ names₁ else nextBlock = l.next)
    (hrun : Backend.emitLoop l.location l.condition l.before l.header 0 l.bodyEnd l.next l.hint g
      = .ok (u, g')) (hnote : l.note = observe (l.closes 0).request g g') :
    g'.currentBlock = l.merge ∧ Scene W L g'
      (⟨l.merge, W.loop l start before header none body next, names ++ names₀⟩
        :: cells) spare := by
  let old : List (Cell κ) :=
    [⟨nextBlock, next, names₁⟩, ⟨l.bodyEnd, body, names₂⟩,
      ⟨l.header, header, names₃⟩, ⟨l.before, before, names⟩]
  obtain ⟨hmoves, hkeeps, hholds⟩ :=
    hm.doLoop hrun hnote hg (h.nodup (⟨l.merge, start, names₀⟩ :: old))
      (h.found next (by simp) hfound) (h.holds ⟨l.merge, start, names₀⟩ (by simp))
      (h.holds ⟨l.before, before, names⟩ (by simp))
      (h.holds ⟨l.header, header, names₃⟩ (by simp))
      (h.holds ⟨l.bodyEnd, body, names₂⟩ (by simp))
      (h.holds ⟨nextBlock, next, names₁⟩ (by simp))
  have hnext := hm.nextId_le (r := (l.closes 0).request) hrun
  exact h.moved old [] ⟨l.before, before, names⟩ hmoves hg hmerge (by simp [old]) hbefore hkeeps
    (List.Subset.refl _) hnext hholds (List.nil_sublist _) nofun

/-- The blocks of the sections of a switch statement. -/
def sections (ss : List (Labels × κ)) : List (Cell κ) :=
  ss.map fun s => ⟨s.1.ended, s.2, []⟩

omit [Backend β] [Inhabited π] in
theorem sections_blocks (ss : List (Labels × κ)) :
    (sections ss).map (·.block) = ss.map (·.1.ended) := by
  simp only [sections, List.map_map, Function.comp_def]

theorem switch (hm : W.Models L observe) {d : Dispatch π} {u : Unit} {start selector : κ}
    {ss : List (Labels × κ)} {names₀ names : List Id}
    (h : Scene W L g (⟨d.merge, start, names₀⟩
      :: ⟨d.selectorEnd, W.leave selector (.switch d.selector d.merge) default, names⟩
      :: sections ss ++ cells) spare)
    (hg : g.currentBlock = d.merge) (hmerge : d.merge ∈ names₀)
    (hselector : d.selectorEnd ∈ names)
    (hlabels : Labels.Proper d.merge d.defaultLabel (ss.map (·.1)))
    (hrun : Backend.emitSwitch d.location d.selector d.selectorEnd d.defaultLabel
      (Labels.cases (ss.map (·.1))) d.hint g = .ok (u, g'))
    (hnote : d.note = observe (.emitSwitch d.location d.selector d.selectorEnd d.defaultLabel
      (Labels.cases (ss.map (·.1))) d.hint) g g') :
    g'.currentBlock = d.merge
      ∧ Scene W L g' (⟨d.merge, W.switch d start selector ss, names ++ names₀⟩
        :: cells) spare := by
  let entered : Cell κ :=
    ⟨d.selectorEnd, W.leave selector (.switch d.selector d.merge) default, names⟩
  have hblocks :
      ((⟨d.merge, start, names₀⟩ :: entered :: sections ss : List (Cell κ)).map (·.block))
      = d.merge :: d.selectorEnd :: ss.map (·.1.ended) := by
    simp only [List.map_cons, sections_blocks, entered]
  have hcell {s : Labels × κ} (hs : s ∈ ss) :
      (⟨s.1.ended, s.2, []⟩ : Cell κ) ∈ sections ss :=
    List.mem_map_of_mem (f := fun s => (⟨s.1.ended, s.2, []⟩ : Cell κ)) hs
  have hin {c : Cell κ} (hc : c ∈ sections ss) :
      c ∈ ⟨d.merge, start, names₀⟩ :: entered :: sections ss ++ cells :=
    List.mem_append_left _ (List.mem_cons_of_mem _ (List.mem_cons_of_mem _ hc))
  have hne' : d.merge ≠ 0 ∧ ∀ s ∈ ss, s.1.ended ≠ 0 := by
    refine ⟨(h.used _ (by simp)).1, fun s hs => (h.used _ ?_).1⟩
    exact List.mem_append_left _ (List.mem_map_of_mem (f := Cell.block) (hin (hcell hs)))
  obtain ⟨hmoves, hkeeps, hholds⟩ := hm.switch hrun hnote hg
    (hblocks ▸ h.nodup (⟨d.merge, start, names₀⟩ :: entered :: sections ss)) hne' hlabels
    (h.holds ⟨d.merge, start, names₀⟩ (by simp)) (h.holds entered (by simp [entered]))
    fun s hs => h.holds _ (hin (hcell hs))
  let cases := Labels.cases (ss.map (·.1))
  have hnext := hm.nextId_le
    (r := .emitSwitch d.location d.selector d.selectorEnd d.defaultLabel cases d.hint) hrun
  refine h.moved (entered :: sections ss) [] entered hmoves hg hmerge List.mem_cons_self hselector
    hkeeps ?_ hnext hholds (List.nil_sublist _) nofun
  simp only [List.map_cons, sections_blocks, entered]
  exact List.Subset.refl _

end Steps

end Scene

end ShaderEffect
