import Montage.Proofs.Compile.Lengths
import Montage.Proofs.Graph.Expansion

/-!
# The order of the clips

The stages that join the clips of a program in closed form, boundary by boundary. Whatever happens
at each of them, the joined stream is made of every clip once and in order.
-/

namespace Montage

open Montage.Numeric (Binary64)
open Montage.Graph

/-! ### What joins -/

/-- Whether the stage makes one stream of several. -/
def Graph.Stage.joins (stage : Stage) : Bool := stage.uses "concat" || stage.uses "xfade"

/-- Whether the stage is an effect at the edge of a stream. -/
def Graph.Stage.transformsEdge (stage : Stage) : Bool := stage.uses "rotate" || stage.uses "eq"

namespace Graph.Program

def joinStages (program : Program) : List Stage := program.stages.filter (·.joins)

def edgeStages (program : Program) : List Stage := program.stages.filter (·.transformsEdge)

/-- The stages that join the clips, with the effects at their edges. -/
def joining (program : Program) : List Stage :=
  program.stages.filter fun stage ↦ stage.joins || stage.transformsEdge

/-- What the last join writes. A clip on its own is not joined. -/
def joinedStream (program : Program) : Label :=
  (program.joinStages.getLast?.bind (·.outputs.head?)).getD (.numbered .placed 0)

end Graph.Program

/-- The joined stream is made of every clip once and in order. Cuts are one concatenation. Otherwise
each boundary has a join of its own, which concatenates two streams or blends them, and an effect
is at both of their edges or at neither. -/
structure Composition.JoinsInOrder (composition : Composition) (program : Program) : Prop where
  expand_eq : expand program.joining [program.joinedStream] =
    (List.range composition.clips.length).map (.numbered .placed)
  alone : composition.clips.length = 1 → program.joining = []
  cut : Transition.ofSetting composition.transition = .cut → 2 ≤ composition.clips.length →
    program.joining =
      [⟨(List.range composition.clips.length).map (.numbered .placed),
        [⟨"concat", [opt "n" (toString composition.clips.length), opt "v" "1", opt "a" "0"]⟩],
        [.numbered .join 0]⟩]
  boundaries : Transition.ofSetting composition.transition ≠ .cut →
    program.joinStages.length = composition.clips.length - 1
  boundary : Transition.ofSetting composition.transition ≠ .cut →
    ∀ index stage, program.joinStages[index]? = some stage →
      ∃ left right, stage.inputs = [left, right] ∧ stage.outputs = [.numbered .join index] ∧
        (composition.blendDuration index ≤ 0 ∧ stage.filters = [Transition.concat 2] ∨
          ¬ composition.blendDuration index ≤ 0 ∧ ∃ name, stage.filters =
            [Transition.blendFilter name (composition.blendDuration index)
              (composition.blendOffset index)]) ∧
        (left ∈ written program.edgeStages ↔ right ∈ written program.edgeStages)
  edge : ∀ stage ∈ program.edgeStages, ∃ input output, stage.inputs = [input] ∧
    stage.outputs = [output] ∧ ∃ join ∈ program.joinStages, output ∈ join.inputs

/-! ### The stages of a boundary -/

namespace Transition.Join

/-- The filter that joins. -/
def filter : Join → Filter
  | .concat => Transition.concat 2
  | .blend name duration offset => blendFilter name duration offset
  | .edges _ duration offset => blendFilter "fade" duration offset

/-- The effects of a join at a boundary. -/
def effects (join : Join) (boundary : Nat) (left right : Label) : List Stage :=
  match join with
  | .edges effect duration offset =>
    [.chain left [trailingEdge effect duration offset] (.numbered .edge (boundary * 2)),
      .chain right [leadingEdge effect duration] (.numbered .edge (boundary * 2 + 1))]
  | _ => []

/-- What the filter of a join reads at a boundary. -/
def streams (join : Join) (boundary : Nat) (left right : Label) : List Label :=
  match join with
  | .edges .. => [.numbered .edge (boundary * 2), .numbered .edge (boundary * 2 + 1)]
  | _ => [left, right]

/-- The stage that joins at a boundary. -/
def stage (join : Join) (boundary : Nat) (left right : Label) : Stage :=
  ⟨join.streams boundary left right, [join.filter], [.numbered .join boundary]⟩

end Transition.Join

private theorem JoinDrawn.eq {boundary : Nat} {left right : Label} {join : Transition.Join}
    {fragment : Fragment} (h : JoinDrawn boundary left right join fragment) :
    fragment = ⟨join.effects boundary left right ++ [join.stage boundary left right],
      .numbered .join boundary⟩ := by
  cases h with
  | concat => rfl
  | blend => rfl
  | edges => rfl

namespace Composition

/-- What stands before a boundary. -/
def before : Nat → Label
  | 0 => .numbered .placed 0
  | boundary + 1 => .numbered .join boundary

def boundaryEffects (composition : Composition) (boundary : Nat) : List Stage :=
  (composition.joinAfter boundary).effects boundary (before boundary)
    (.numbered .placed (boundary + 1))

def boundaryJoin (composition : Composition) (boundary : Nat) : Stage :=
  (composition.joinAfter boundary).stage boundary (before boundary)
    (.numbered .placed (boundary + 1))

/-- The stages of a boundary: the effects, then the join. -/
def boundaryStages (composition : Composition) (boundary : Nat) : List Stage :=
  composition.boundaryEffects boundary ++ [composition.boundaryJoin boundary]

variable {composition : Composition} {boundary : Nat} {fragment : Fragment}

private theorem stages_of_threads {rest : List Clip}
    (h : Fragment.Threads (fun index right left ↦
      JoinDrawn index left right (composition.joinAfter index)) boundary
        (placedLabels (boundary + 1) rest) (before boundary) fragment) :
    fragment = ⟨(List.range' boundary rest.length).flatMap composition.boundaryStages,
      before (boundary + rest.length)⟩ := by
  induction rest generalizing boundary fragment with
  | nil =>
    cases h with
    | nil => rfl
  | cons clip rest ih =>
    rw [placedLabels_cons] at h
    cases h with
    | cons hfirst hothers =>
      obtain rfl := hfirst.eq
      rw [ih hothers, List.length_cons, List.range'_succ, List.flatMap_cons, Nat.add_assoc,
        Nat.add_comm 1]
      rfl

/-! ### Expanding a boundary -/

private theorem expand_boundaryStages (composition : Composition) (boundary : Nat) :
    expand (composition.boundaryStages boundary) [.numbered .join boundary] =
      [before boundary, .numbered .placed (boundary + 1)] := by
  unfold boundaryStages boundaryEffects boundaryJoin
  cases composition.joinAfter boundary <;>
    simp [expand, Stage.sources, Transition.Join.effects, Transition.Join.stage,
      Transition.Join.streams, Stage.chain, Label.numbered]

private theorem notMem_written_boundaryStages (composition : Composition) (boundary index : Nat) :
    Label.numbered .placed index ∉ written (composition.boundaryStages boundary) := by
  unfold boundaryStages boundaryEffects boundaryJoin
  cases composition.joinAfter boundary <;>
    simp [written, Transition.Join.effects, Transition.Join.stage, Stage.chain, Label.numbered]

/-- What stands before a boundary is made of the clips up to there. -/
private theorem expand_before (composition : Composition) (boundary : Nat) :
    expand ((List.range boundary).flatMap composition.boundaryStages) [before boundary] =
      (List.range (boundary + 1)).map (.numbered .placed) := by
  induction boundary with
  | zero => rfl
  | succ boundary ih =>
    have hplaced : Label.numbered .placed (boundary + 1) ∉
        written ((List.range boundary).flatMap composition.boundaryStages) := by
      intro hm
      obtain ⟨stage, hs, ho⟩ := List.mem_flatMap.mp hm
      obtain ⟨index, -, hs⟩ := List.mem_flatMap.mp hs
      exact composition.notMem_written_boundaryStages index (boundary + 1)
        (List.mem_flatMap.mpr ⟨stage, hs, ho⟩)
    rw [List.range_succ, List.flatMap_append, List.flatMap_singleton, expand_append]
    show expand _ (expand _ [.numbered .join boundary]) = _
    rw [expand_boundaryStages, ← List.singleton_append, expand_append_labels, ih,
      expand_eq_self (List.forall_mem_singleton.mpr hplaced), List.range_succ (n := boundary + 1),
      List.map_append]
    rfl

/-! ### Which stages join -/

private theorem joins_boundaryJoin (composition : Composition) (boundary : Nat) :
    (composition.boundaryJoin boundary).joins = true ∧
      (composition.boundaryJoin boundary).transformsEdge = false := by
  unfold boundaryJoin
  cases composition.joinAfter boundary with
  | concat => exact ⟨rfl, rfl⟩
  | blend => exact ⟨rfl, rfl⟩
  | edges => exact ⟨rfl, rfl⟩

private theorem transformsEdge_of_mem_boundaryEffects (composition : Composition) (boundary : Nat) :
    ∀ stage ∈ composition.boundaryEffects boundary,
      stage.joins = false ∧ stage.transformsEdge = true := by
  unfold boundaryEffects
  cases composition.joinAfter boundary with
  | concat => exact List.forall_mem_nil _
  | blend => exact List.forall_mem_nil _
  | edges effect =>
    cases effect with
    | spin => exact List.forall_mem_cons.mpr ⟨⟨rfl, rfl⟩, List.forall_mem_singleton.mpr ⟨rfl, rfl⟩⟩
    | flash => exact List.forall_mem_cons.mpr ⟨⟨rfl, rfl⟩, List.forall_mem_singleton.mpr ⟨rfl, rfl⟩⟩

private theorem written_boundaryEffects (composition : Composition) (boundary : Nat) {l : Label}
    (h : l ∈ written (composition.boundaryEffects boundary)) :
    ∃ index, l = .numbered .edge index := by
  unfold boundaryEffects at h
  cases hj : composition.joinAfter boundary with
  | concat =>
    rw [hj] at h
    cases h
  | blend =>
    rw [hj] at h
    cases h
  | edges =>
    rw [hj] at h
    rcases List.mem_cons.mp h with rfl | h
    · exact ⟨_, rfl⟩
    · exact ⟨_, List.mem_singleton.mp h⟩

/-- What happens at a boundary whose clips are not cut. -/
theorem joinAfter_cases (ht : Transition.ofSetting composition.transition ≠ .cut)
    (boundary : Nat) :
    (composition.blendDuration boundary ≤ 0 ∧ composition.joinAfter boundary = .concat) ∨
      (¬ composition.blendDuration boundary ≤ 0 ∧
        ((∃ name, composition.joinAfter boundary =
            .blend name (composition.blendDuration boundary) (composition.blendOffset boundary)) ∨
          ∃ effect, composition.joinAfter boundary =
            .edges effect (composition.blendDuration boundary)
              (composition.blendOffset boundary))) := by
  rw [joinAfter_eq]
  unfold Transition.join
  by_cases hd : composition.blendDuration boundary ≤ 0
  · exact Or.inl ⟨hd, if_pos hd⟩
  · refine Or.inr ⟨hd, ?_⟩
    rw [if_neg hd]
    cases hk : Transition.ofSetting composition.transition with
    | cut => exact absurd hk ht
    | blend name => exact Or.inl ⟨name, rfl⟩
    | custom effect => exact Or.inr ⟨effect, rfl⟩

/-- The fragment that joins the clips in closed form. -/
theorem joined_cases (hn : composition.clips ≠ [])
    (h : ClipsJoined composition.transition composition.timeline (.numbered .placed 0)
      (placedLabels 1 composition.clips.tail) fragment) :
    (composition.clips.length = 1 ∧ fragment = .passthrough (.numbered .placed 0)) ∨
      (2 ≤ composition.clips.length ∧
        Transition.ofSetting composition.transition = .cut ∧
        fragment = .single ⟨(List.range composition.clips.length).map (.numbered .placed),
          [Transition.concat composition.clips.length], [.numbered .join 0]⟩ (.numbered .join 0)) ∨
      (2 ≤ composition.clips.length ∧
        Transition.ofSetting composition.transition ≠ .cut ∧
        fragment = ⟨(List.range (composition.clips.length - 1)).flatMap composition.boundaryStages,
          before (composition.clips.length - 1)⟩) := by
  obtain ⟨clip, rest, hclips⟩ := List.exists_cons_of_ne_nil hn
  have hlength : composition.clips.length = rest.length + 1 := congrArg List.length hclips
  rw [hclips, List.tail_cons] at h
  generalize hothers : placedLabels 1 rest = others at h
  have hsize : others.length = rest.length := by
    rw [← hothers, placedLabels, List.length_map, List.length_range']
  have hnext : others ≠ [] → 2 ≤ composition.clips.length := by
    intro hne
    have hpos := List.length_pos_iff.mpr hne
    omega
  cases h with
  | alone =>
    have hzero : rest.length = 0 := hsize.symm
    exact Or.inl ⟨by omega, rfl⟩
  | cut hne ht =>
    refine Or.inr (Or.inl ⟨hnext hne, ht, ?_⟩)
    rw [← hothers, hlength, List.range_eq_range', List.range'_succ, placedLabels, List.length_map,
      List.length_range']
    rfl
  | folded hne ht hthreads =>
    rw [← hothers] at hthreads
    refine Or.inr (Or.inr ⟨hnext hne, ht, ?_⟩)
    rw [stages_of_threads hthreads, hlength, Nat.add_sub_cancel, Nat.zero_add,
      List.range_eq_range']

/-! ### What a program joins -/

private theorem joins_eq_false {stage : Stage} (h : stage.JoinsNothing) :
    stage.joins = false ∧ stage.transformsEdge = false := by
  have huses : ∀ name ∈ ["concat", "xfade", "rotate", "eq"], stage.uses name = false := by
    intro name hn
    rw [Stage.uses, List.any_eq_false]
    intro filter hf hname
    exact h filter hf (eq_of_beq hname ▸ hn)
  constructor
  · rw [Stage.joins, huses "concat" (by decide), huses "xfade" (by decide)]
    rfl
  · rw [Stage.transformsEdge, huses "rotate" (by decide), huses "eq" (by decide)]
    rfl

private theorem joinStages_eq (program : Program) :
    program.joinStages = program.joining.filter (·.joins) := by
  rw [Program.joinStages, Program.joining, List.filter_filter]
  congr 1
  funext stage
  cases stage.joins <;> rfl

private theorem edgeStages_eq (program : Program) :
    program.edgeStages = program.joining.filter (·.transformsEdge) := by
  rw [Program.edgeStages, Program.joining, List.filter_filter]
  congr 1
  funext stage
  cases stage.transformsEdge <;> simp

end Composition

/-- The stages that join the clips are those of the joined fragment. -/
theorem Parts.Fit.joining_eq {fonts : FontResolver} {composition : Composition} {parts : Parts}
    (h : parts.Fit fonts composition) (hn : composition.clips ≠ []) :
    (parts.program composition).joining = parts.joined.stages := by
  have hnothing : ∀ stages : List Stage, (∀ stage ∈ stages, stage.JoinsNothing) →
      stages.filter (fun stage ↦ stage.joins || stage.transformsEdge) = [] := by
    intro stages hs
    rw [List.filter_eq_nil_iff]
    intro stage hm
    obtain ⟨hj, he⟩ := Composition.joins_eq_false (hs stage hm)
    rw [hj, he]
    exact Bool.false_ne_true
  obtain ⟨before, after, hsplit, hbefore, hafter⟩ := h.exists_split
  rw [Program.joining, hsplit, List.filter_append, List.filter_append, hnothing before hbefore,
    hnothing after hafter, List.nil_append, List.append_nil, List.filter_eq_self]
  rcases Composition.joined_cases hn h.joined with ⟨-, hj⟩ | ⟨-, -, hj⟩ | ⟨-, -, hj⟩
  · rw [hj]
    exact List.forall_mem_nil _
  · rw [hj]
    exact List.forall_mem_singleton.mpr rfl
  · rw [hj]
    intro stage hs
    obtain ⟨boundary, -, hs⟩ := List.mem_flatMap.mp hs
    rcases List.mem_append.mp hs with hs | hs
    · rw [(composition.transformsEdge_of_mem_boundaryEffects boundary stage hs).2, Bool.or_true]
    · rw [List.mem_singleton.mp hs, (composition.joins_boundaryJoin boundary).1, Bool.true_or]

namespace Composition

variable {composition : Composition} {boundary : Nat} {program : Program}

/-- Of the stages of boundaries one joins at each. -/
private theorem joinStages_of_joining {count : Nat}
    (h : program.joining = (List.range count).flatMap composition.boundaryStages) :
    program.joinStages = (List.range count).map composition.boundaryJoin ∧
      program.edgeStages = (List.range count).flatMap composition.boundaryEffects := by
  rw [joinStages_eq, edgeStages_eq, h, List.filter_flatMap, List.filter_flatMap,
    List.map_eq_flatMap]
  constructor
  · refine List.flatMap_congr fun boundary _ ↦ ?_
    have heffects : (composition.boundaryEffects boundary).filter (·.joins) = [] := by
      rw [List.filter_eq_nil_iff]
      intro stage hs
      rw [(composition.transformsEdge_of_mem_boundaryEffects boundary stage hs).1]
      exact Bool.false_ne_true
    rw [boundaryStages, List.filter_append, heffects, List.nil_append,
      List.filter_eq_self.mpr (List.forall_mem_singleton.mpr
        (composition.joins_boundaryJoin boundary).1)]
  · refine List.flatMap_congr fun boundary _ ↦ ?_
    have hjoin : [composition.boundaryJoin boundary].filter (·.transformsEdge) = [] := by
      rw [List.filter_eq_nil_iff]
      refine List.forall_mem_singleton.mpr ?_
      rw [(composition.joins_boundaryJoin boundary).2]
      exact Bool.false_ne_true
    rw [boundaryStages, List.filter_append, hjoin, List.append_nil, List.filter_eq_self]
    exact fun stage hs ↦ (composition.transformsEdge_of_mem_boundaryEffects boundary stage hs).2

/-- The last boundary writes the joined stream. -/
private theorem joinedStream_of_joining {count : Nat} (hc : count ≠ 0)
    (h : program.joining = (List.range count).flatMap composition.boundaryStages) :
    program.joinedStream = before count := by
  obtain ⟨last, rfl⟩ := Nat.exists_eq_succ_of_ne_zero hc
  rw [Program.joinedStream, (joinStages_of_joining h).1, List.range_succ, List.map_append,
    List.map_singleton, List.getLast?_concat]
  rfl

/-! ### Boundaries -/

private theorem before_ne_edge (boundary index : Nat) :
    before boundary ≠ .numbered .edge index := by
  cases boundary <;> simp [before, Label.numbered]

/-- Only effects write edges. -/
private theorem notMem_written_effects (composition : Composition) (count : Nat) {l : Label}
    (h : ∀ index, l ≠ .numbered .edge index) :
    l ∉ written ((List.range count).flatMap composition.boundaryEffects) := by
  intro hm
  obtain ⟨stage, hs, ho⟩ := List.mem_flatMap.mp hm
  obtain ⟨boundary, -, hs⟩ := List.mem_flatMap.mp hs
  obtain ⟨index, hl⟩ := composition.written_boundaryEffects boundary
    (List.mem_flatMap.mpr ⟨stage, hs, ho⟩)
  exact h index hl

/-- The join of a boundary reads two streams, of which both or neither are results of effects. -/
private theorem boundaryJoin_reads (ht : Transition.ofSetting composition.transition ≠ .cut)
    {count : Nat} (hb : boundary < count) :
    ∃ left right, (composition.boundaryJoin boundary).inputs = [left, right] ∧
      (composition.boundaryJoin boundary).outputs = [.numbered .join boundary] ∧
      (composition.blendDuration boundary ≤ 0 ∧
          (composition.boundaryJoin boundary).filters = [Transition.concat 2] ∨
        ¬ composition.blendDuration boundary ≤ 0 ∧
          ∃ name, (composition.boundaryJoin boundary).filters =
            [Transition.blendFilter name (composition.blendDuration boundary)
              (composition.blendOffset boundary)]) ∧
      (left ∈ written ((List.range count).flatMap composition.boundaryEffects) ↔
        right ∈ written ((List.range count).flatMap composition.boundaryEffects)) := by
  have hplaced : ∀ index, Label.numbered .placed (boundary + 1) ≠ .numbered .edge index := by
    simp [Label.numbered]
  have hleft := composition.notMem_written_effects count (before_ne_edge boundary)
  have hright := composition.notMem_written_effects count hplaced
  unfold boundaryJoin
  rcases joinAfter_cases ht boundary with ⟨hd, hj⟩ | ⟨hd, ⟨name, hj⟩ | ⟨effect, hj⟩⟩
  · rw [hj]
    exact ⟨_, _, rfl, rfl, Or.inl ⟨hd, rfl⟩, iff_of_false hleft hright⟩
  · rw [hj]
    exact ⟨_, _, rfl, rfl, Or.inr ⟨hd, name, rfl⟩, iff_of_false hleft hright⟩
  · have hwritten : ∀ stage ∈ composition.boundaryEffects boundary, ∀ l ∈ stage.outputs,
        l ∈ written ((List.range count).flatMap composition.boundaryEffects) := by
      intro stage hs l hl
      exact List.mem_flatMap.mpr
        ⟨stage, List.mem_flatMap.mpr ⟨boundary, List.mem_range.mpr hb, hs⟩, hl⟩
    unfold boundaryEffects at hwritten
    rw [hj] at hwritten ⊢
    refine ⟨_, _, rfl, rfl, Or.inr ⟨hd, "fade", rfl⟩, iff_of_true ?_ ?_⟩
    · exact hwritten _ List.mem_cons_self _ List.mem_cons_self
    · exact hwritten _ (List.mem_cons_of_mem _ List.mem_cons_self) _ List.mem_cons_self

/-- An effect passes one stream on to the join of its boundary. -/
private theorem effect_is_read (composition : Composition) (boundary : Nat) :
    ∀ stage ∈ composition.boundaryEffects boundary, ∃ input output, stage.inputs = [input] ∧
      stage.outputs = [output] ∧ output ∈ (composition.boundaryJoin boundary).inputs := by
  unfold boundaryEffects boundaryJoin
  cases composition.joinAfter boundary with
  | concat => exact List.forall_mem_nil _
  | blend => exact List.forall_mem_nil _
  | edges =>
    exact List.forall_mem_cons.mpr ⟨⟨_, _, rfl, rfl, List.mem_cons_self⟩,
      List.forall_mem_singleton.mpr
        ⟨_, _, rfl, rfl, List.mem_cons_of_mem _ List.mem_cons_self⟩⟩

end Composition

/-- The joined stream of a program is that of its parts. -/
theorem Parts.Fit.joinedStream_eq {fonts : FontResolver} {composition : Composition} {parts : Parts}
    (h : parts.Fit fonts composition) (hn : composition.clips ≠ []) :
    (parts.program composition).joinedStream = parts.joined.output := by
  have hjoining := h.joining_eq hn
  rcases Composition.joined_cases hn h.joined with ⟨-, hj⟩ | ⟨-, -, hj⟩ | ⟨h2, -, hj⟩
  · rw [hj] at hjoining ⊢
    rw [Program.joinedStream, Composition.joinStages_eq, hjoining]
    rfl
  · rw [hj] at hjoining ⊢
    rw [Program.joinedStream, Composition.joinStages_eq, hjoining]
    rfl
  · rw [hj] at hjoining ⊢
    exact Composition.joinedStream_of_joining (by omega) hjoining

theorem Parts.Fit.isPad_joinedStream {fonts : FontResolver} {composition : Composition}
    {parts : Parts} (h : parts.Fit fonts composition) (hn : composition.clips ≠ []) :
    (parts.program composition).joinedStream.isPad = false := by
  rw [h.joinedStream_eq hn]
  rcases Composition.joined_cases hn h.joined with ⟨-, hj⟩ | ⟨-, -, hj⟩ | ⟨-, -, hj⟩
  · rw [hj]
    rfl
  · rw [hj]
    rfl
  · rw [hj]
    cases composition.clips.length - 1 <;> rfl

namespace Composition

variable {composition : Composition} {program : Program}

private theorem joinsInOrder_alone (h1 : composition.clips.length = 1) (hj : program.joining = []) :
    composition.JoinsInOrder program := by
  have hs : program.joinStages = [] := by
    rw [joinStages_eq, hj]
    rfl
  have he : program.edgeStages = [] := by
    rw [edgeStages_eq, hj]
    rfl
  constructor
  · rw [hj, Program.joinedStream, hs, h1]
    rfl
  · exact fun _ ↦ hj
  · exact fun _ h2 ↦ absurd h2 (by omega)
  · intro _
    rw [hs, h1]
    rfl
  · intro _ index stage hi
    rw [hs] at hi
    cases hi
  · rw [he]
    exact List.forall_mem_nil _

private theorem joinsInOrder_cut (h2 : 2 ≤ composition.clips.length)
    (ht : Transition.ofSetting composition.transition = .cut)
    (hj : program.joining = [⟨(List.range composition.clips.length).map (.numbered .placed),
      [Transition.concat composition.clips.length], [.numbered .join 0]⟩]) :
    composition.JoinsInOrder program := by
  have hs : program.joinStages = program.joining := by
    rw [joinStages_eq, hj]
    rfl
  have he : program.edgeStages = [] := by
    rw [edgeStages_eq, hj]
    rfl
  constructor
  · rw [Program.joinedStream, hs, hj, expand_cons]
    show [Label.numbered .join 0].flatMap _ = _
    rw [List.flatMap_singleton]
    exact if_pos List.mem_cons_self
  · exact fun h1 ↦ absurd h2 (by omega)
  · exact fun _ _ ↦ hj
  · exact fun hne ↦ absurd ht hne
  · exact fun hne ↦ absurd ht hne
  · rw [he]
    exact List.forall_mem_nil _

private theorem joinsInOrder_folded (h2 : 2 ≤ composition.clips.length)
    (ht : Transition.ofSetting composition.transition ≠ .cut)
    (hj : program.joining =
      (List.range (composition.clips.length - 1)).flatMap composition.boundaryStages) :
    composition.JoinsInOrder program := by
  obtain ⟨hs, he⟩ := joinStages_of_joining hj
  constructor
  · have hlength : composition.clips.length - 1 + 1 = composition.clips.length := by omega
    rw [joinedStream_of_joining (by omega) hj, hj, expand_before, hlength]
  · exact fun h1 ↦ absurd h2 (by omega)
  · exact fun hc ↦ absurd hc ht
  · intro _
    rw [hs, List.length_map, List.length_range]
  · intro _ index stage hi
    rw [hs, List.getElem?_map] at hi
    obtain ⟨boundary, hb, rfl⟩ := Option.map_eq_some_iff.mp hi
    obtain ⟨hlt, rfl⟩ := List.getElem?_eq_some_iff.mp hb
    rw [List.length_range] at hlt
    rw [he, List.getElem_range]
    exact boundaryJoin_reads ht hlt
  · rw [he, hs]
    intro stage hm
    obtain ⟨boundary, hb, hm⟩ := List.mem_flatMap.mp hm
    obtain ⟨input, output, hi, ho, hr⟩ := composition.effect_is_read boundary stage hm
    exact ⟨input, output, hi, ho, _, List.mem_map_of_mem hb, hr⟩

end Composition

/-- Every compiled program joins its clips each once and in order. -/
theorem compile_joinsInOrder {fonts : FontResolver} {composition : Composition} {program : Program}
    (h : composition.compile fonts = .ok program) : composition.JoinsInOrder program := by
  obtain ⟨ha, parts, hfit, rfl⟩ := Composition.exists_parts_of_compile h
  have hjoining := hfit.joining_eq ha.clips_ne_nil
  rcases Composition.joined_cases ha.clips_ne_nil hfit.joined with
    ⟨h1, hj⟩ | ⟨h2, ht, hj⟩ | ⟨h2, ht, hj⟩
  · exact Composition.joinsInOrder_alone h1 (hjoining.trans (congrArg Fragment.stages hj))
  · exact Composition.joinsInOrder_cut h2 ht (hjoining.trans (congrArg Fragment.stages hj))
  · exact Composition.joinsInOrder_folded h2 ht (hjoining.trans (congrArg Fragment.stages hj))

/-- Two boundaries with effects, each of which joins two transformed streams. -/
theorem compile_joinsInOrder_flash :
    ∃ composition program, composition = { threeClips with transition := some ⟨"flash", 0.5⟩ } ∧
      composition.compile (fun _ _ ↦ none) = .ok program ∧ composition.JoinsInOrder program ∧
      program.joinStages.map (·.inputs) =
        [[.numbered .edge 0, .numbered .edge 1], [.numbered .edge 2, .numbered .edge 3]] := by
  have ha : Composition.Accepted { threeClips with transition := some ⟨"flash", 0.5⟩ } :=
    Composition.accepted_of_toOption (by decide +kernel)
  obtain ⟨parts, -, hp⟩ := ha.compile_eq_ok (by decide) fun _ _ ↦ none
  refine ⟨_, _, rfl, hp, compile_joinsInOrder hp, ?_⟩
  have hany : ((Composition.compile (fun _ _ ↦ none)
      { threeClips with transition := some ⟨"flash", 0.5⟩ }).toOption.any fun program ↦
        program.joinStages.map (·.inputs) =
          [[.numbered .edge 0, .numbered .edge 1], [.numbered .edge 2, .numbered .edge 3]]) =
      true := by
    decide +kernel
  rw [hp] at hany
  exact of_decide_eq_true hany

end Montage
