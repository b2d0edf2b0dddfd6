import Montage.Proofs.Graph.Building
import Montage.Proofs.Graph.Wiring

/-!
# Expanding labels

A label is expanded by what the stage that writes it reads, and so on through the stages from the
last to the first. What remains are labels that no stage writes, in the order in which they are
read.
-/

namespace Montage.Graph

/-- What a label stands for before the stage: the inputs of the stage if it writes the label. -/
def Stage.sources (stage : Stage) (label : Label) : List Label :=
  if label ∈ stage.outputs then stage.inputs else [label]

/-- What the labels stand for before the stages. -/
def expand (stages : List Stage) (labels : List Label) : List Label :=
  stages.foldr (fun stage labels ↦ labels.flatMap stage.sources) labels

variable {stages : List Stage} {labels : List Label}

theorem expand_cons (stage : Stage) (stages : List Stage) (labels : List Label) :
    expand (stage :: stages) labels = (expand stages labels).flatMap stage.sources := rfl

theorem expand_append (xs ys : List Stage) (labels : List Label) :
    expand (xs ++ ys) labels = expand xs (expand ys labels) := List.foldr_append

/-- Labels are expanded one by one. -/
theorem expand_append_labels (stages : List Stage) (xs ys : List Label) :
    expand stages (xs ++ ys) = expand stages xs ++ expand stages ys := by
  induction stages with
  | nil => rfl
  | cons stage rest ih => rw [expand_cons, ih, List.flatMap_append, expand_cons, expand_cons]

/-- Labels that no stage writes stand for themselves. -/
theorem expand_eq_self (h : ∀ l ∈ labels, l ∉ written stages) : expand stages labels = labels := by
  induction stages with
  | nil => rfl
  | cons stage rest ih =>
    have hrest : ∀ l ∈ labels, l ∉ written rest := by
      intro l hl hw
      exact h l hl (List.mem_append_right _ hw)
    have hsources : ∀ l ∈ labels, stage.sources l = [l] := by
      intro l hl
      exact if_neg fun ho ↦ h l hl (List.mem_append_left _ ho)
    rw [expand_cons, ih hrest, List.flatMap_congr hsources]
    exact List.flatMap_singleton' labels

end Montage.Graph
