import Montage.CompileError
import Montage.Halt

/-!
# Building graphs

Builders take labels from a pool and may stop. A stream is decorated by threading its label through
a list of items, each of which adds its stages and hands on its own label.
-/

namespace Montage.Graph

/-- A computation that takes labels and may stop. -/
abbrev Builder := StateT LabelPool (Except (Halt CompileError))

/-- A label for the signal of a role with this number (`LabelAllocator.allocate`). -/
def numbered (role : Role) (index : Nat) : Builder Label :=
  modifyGet (·.take ⟨role, some index⟩)

/-- A label for the only signal of a role (`LabelAllocator.allocate_named`). -/
def named (role : Role) : Builder Label := modifyGet (·.take ⟨role, none⟩)

namespace Fragment

/-- Threads a stream through the items in order, numbered from `index`. Without items the stream is
passed on. -/
def thread {α : Type} (step : Nat → α → Label → Builder Fragment) :
    Nat → List α → Label → Builder Fragment
  | _, [], input => return passthrough input
  | index, item :: rest, input => do
    let first ← step index item input
    let others ← thread step (index + 1) rest first.output
    return ⟨first.stages ++ others.stages, others.output⟩

end Fragment

end Montage.Graph
