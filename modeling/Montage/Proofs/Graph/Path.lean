import Montage.Proofs.Graph.Linear

/-!
# Paths through a graph

A stream goes from stage to stage. In a wired program what a stage writes is read by one other
stage, so from a label there is one way only.
-/

namespace Montage.Graph

/-- The stages lead from a label to another: each writes one label, which is the first that the next
one reads. -/
inductive Leads : Label → List Stage → Label → Prop
  | nil (label : Label) : Leads label [] label
  | cons {start next stop : Label} {stage : Stage} {rest : List Stage} :
      stage.inputs.head? = some start → stage.outputs = [next] → Leads next rest stop →
      Leads start (stage :: rest) stop

/-- The path goes from a label to another through stages of the graph, each of which reads
something that the one before it writes. -/
inductive Path (stages : List Stage) : Label → List Stage → Label → Prop
  | nil (label : Label) : Path stages label [] label
  | cons {start next stop : Label} {stage : Stage} {rest : List Stage} :
      stage ∈ stages → start ∈ stage.inputs → next ∈ stage.outputs →
      Path stages next rest stop → Path stages start (stage :: rest) stop

variable {start middle stop : Label} {xs ys : List Stage}

theorem Leads.append (hx : Leads start xs middle) (hy : Leads middle ys stop) :
    Leads start (xs ++ ys) stop := by
  induction hx with
  | nil => exact hy
  | cons hi ho _ ih => exact .cons hi ho (ih hy)

theorem Leads.single {stage : Stage} (hi : stage.inputs.head? = some start)
    (ho : stage.outputs = [stop]) : Leads start [stage] stop := .cons hi ho (.nil stop)

theorem Leads.path {stages : List Stage} (h : Leads start xs stop)
    (hx : ∀ stage ∈ xs, stage ∈ stages) : Path stages start xs stop := by
  induction h with
  | nil label => exact .nil label
  | cons hi ho _ ih =>
    obtain ⟨hstage, hrest⟩ := List.forall_mem_cons.mp hx
    exact .cons hstage (List.mem_of_head? hi) (ho ▸ List.mem_cons_self) (ih hrest)

/-- Where stages of a wired program lead from a signal to an output there is no other path. -/
theorem Leads.eq_of_path {program : Program} (hw : program.Wiring) (h : Leads start xs stop)
    (hx : ∀ stage ∈ xs, stage ∈ program.stages) (hs : start.isPad = false)
    (ho : stop ∈ program.outs) (hp : Path program.stages start ys stop) : ys = xs := by
  have hsignal : ∀ {stage : Stage} {l : Label}, l.isPad = false → l ∈ stage.inputs →
      l ∈ stage.signals := by
    intro stage l hl hm
    exact List.mem_filter.mpr ⟨hm, by rw [hl]; rfl⟩
  induction h generalizing ys with
  | nil =>
    cases hp with
    | nil => rfl
    | cons hm hi _ _ => exact absurd (hsignal hs hi) (hw.notMem_signals_of_mem_outs hm ho)
  | @cons start next stop stage rest hi hout _ ih =>
    obtain ⟨hstage, hrest⟩ := List.forall_mem_cons.mp hx
    have hread := hsignal hs (List.mem_of_head? hi)
    cases hp with
    | nil => exact absurd hread (hw.notMem_signals_of_mem_outs hstage ho)
    | cons hm hi' hn hothers =>
      obtain rfl := hw.eq_of_mem_signals hm hstage (hsignal hs hi') hread
      have hnext := hw.written_signal _ (List.mem_flatMap.mpr ⟨_, hstage, hn⟩)
      rw [hout, List.mem_singleton] at hn
      rw [hn] at hothers hnext
      rw [ih hrest hnext ho hothers]

end Montage.Graph
