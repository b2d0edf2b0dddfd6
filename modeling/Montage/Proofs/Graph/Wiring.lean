import Mathlib.Data.List.Perm.Basic
import Montage.Graph.Basic

/-!
# Wirings

At any point of a graph some labels are open: written and not yet read. A wiring follows the open
labels through a list of stages. Each stage reads labels that are open and opens those it writes;
pads are always there and are never open.
-/

namespace Montage.Graph

namespace Stage

/-- The signals a stage reads. -/
def signals (stage : Stage) : List Label := stage.inputs.filter fun l ↦ !l.isPad

/-- The pads a stage reads. -/
def pads (stage : Stage) : List Label := stage.inputs.filter fun l ↦ l.isPad

end Stage

/-- The labels that stages write, in order. -/
def written (stages : List Stage) : List Label := stages.flatMap fun stage ↦ stage.outputs

/-- The signals that stages read, in order. -/
def signalsRead (stages : List Stage) : List Label := stages.flatMap fun stage ↦ stage.signals

/-- The pads that stages read, in order. -/
def padsRead (stages : List Stage) : List Label := stages.flatMap fun stage ↦ stage.pads

/-- The stages take the labels `before`, all open, to the open labels `after`. -/
inductive Wired : List Label → List Stage → List Label → Prop
  | nil {before after : List Label} : before.Perm after → Wired before [] after
  | cons {before rest after : List Label} {stage : Stage} {stages : List Stage} :
      before.Perm (stage.signals ++ rest) → Wired (stage.outputs ++ rest) stages after →
      Wired before (stage :: stages) after

namespace Wired

variable {before middle after : List Label} {stages xs ys : List Stage}

theorem refl (open' : List Label) : Wired open' [] open' := .nil (.refl _)

/-- One stage reads its signals and opens its outputs. -/
theorem single (stage : Stage) : Wired stage.signals [stage] stage.outputs := by
  have hr : stage.signals.Perm (stage.signals ++ []) := by rw [List.append_nil]
  refine .cons hr (.nil ?_)
  rw [List.append_nil]

theorem perm_left {other : List Label} (hp : before.Perm other) (h : Wired other stages after) :
    Wired before stages after := by
  cases h with
  | nil h => exact .nil (hp.trans h)
  | cons h hs => exact .cons (hp.trans h) hs

theorem perm_right {other : List Label} (h : Wired before stages after) (hp : after.Perm other) :
    Wired before stages other := by
  induction h with
  | nil h => exact .nil (h.trans hp)
  | cons h _ ih => exact .cons h (ih hp)

/-- Wirings follow each other. -/
theorem append (hx : Wired before xs middle) (hy : Wired middle ys after) :
    Wired before (xs ++ ys) after := by
  induction hx with
  | nil h => exact perm_left h hy
  | cons h _ ih => exact .cons h (ih hy)

/-- Labels that no stage of the list reads stay open. -/
theorem frame (h : Wired before stages after) (others : List Label) :
    Wired (before ++ others) stages (after ++ others) := by
  induction h with
  | nil h => exact .nil (h.append_right others)
  | @cons before rest after stage stages h _ ih =>
    have hr : (before ++ others).Perm (stage.signals ++ (rest ++ others)) := by
      rw [← List.append_assoc]
      exact h.append_right others
    refine .cons hr ?_
    rw [← List.append_assoc]
    exact ih

/-- The same with the other labels in front. -/
theorem frame_left (h : Wired before stages after) (others : List Label) :
    Wired (others ++ before) stages (others ++ after) :=
  ((h.frame others).perm_left List.perm_append_comm).perm_right List.perm_append_comm

/-- What is read or stays open is what was open or is written. -/
theorem perm (h : Wired before stages after) :
    (signalsRead stages ++ after).Perm (before ++ written stages) := by
  induction h with
  | nil h => simpa [signalsRead, written] using h.symm
  | @cons before rest after stage stages h _ ih =>
    simp only [signalsRead, written, List.flatMap_cons, List.append_assoc] at ih ⊢
    have hstage := List.Perm.append_left stage.signals ih
    have hswap : (stage.signals ++ (stage.outputs ++ (rest ++ written stages))).Perm
        (stage.signals ++ rest ++ (stage.outputs ++ written stages)) := by
      rw [List.append_assoc]
      refine List.Perm.append_left _ ?_
      rw [← List.append_assoc, ← List.append_assoc]
      exact List.perm_append_comm.append_right _
    exact (hstage.trans hswap).trans (h.symm.append_right _)

/-- The signals of a stage were open at the start or written by the stages before it. -/
theorem mem_of_mem_signals {stage : Stage} (h : Wired before (xs ++ stage :: ys) after)
    {l : Label} (hl : l ∈ stage.signals) : l ∈ before ++ written xs := by
  induction xs generalizing before with
  | nil =>
    cases h with
    | cons h _ => simpa [written] using h.mem_iff.mpr (List.mem_append_left _ hl)
  | cons x xs ih =>
    cases h with
    | @cons _ rest _ _ _ h hs =>
      have hm := ih hs
      simp only [written, List.flatMap_cons, List.mem_append] at hm ⊢
      rcases hm with (ho | hr) | hw
      · exact Or.inr (Or.inl ho)
      · exact Or.inl (h.mem_iff.mpr (List.mem_append_right _ hr))
      · exact Or.inr (Or.inr hw)

end Wired

/-- The labels that leave a program. -/
def Program.outs (program : Program) : List Label :=
  program.videoOut :: program.audioOut.toList

/-- A program whose stages are wired from nothing to its outputs, over labels written once. -/
structure Program.Wiring (program : Program) : Prop where
  wired : Wired [] program.stages program.outs
  written_nodup : (written program.stages).Nodup
  written_signal : ∀ l ∈ written program.stages, l.isPad = false
  pads_declared : ∀ l ∈ padsRead program.stages, ∀ i, l.input? = some i → i < program.inputs.length
  filters : ∀ stage ∈ program.stages, stage.filters ≠ []

end Montage.Graph
