import Mathlib.Data.List.Nodup
import Mathlib.Data.List.Pairwise
import Montage.Proofs.Graph.LabelText
import Montage.Proofs.Graph.Wiring

/-!
# Linear programs

In a linear program every stream goes to one place: what a stage writes is read once, later, or
leaves the program. The check of a program does not ask for this, since it lets a label be
forgotten; a wiring does.
-/

namespace Montage.Graph

/-- The labels that stages read, in order. -/
def labelsRead (stages : List Stage) : List Label := stages.flatMap fun stage ↦ stage.inputs

/-- Whether a stage reads a stream of an input file. -/
def Stage.readsFile (file : Nat) (stage : Stage) : Bool :=
  stage.inputs.any fun l ↦ l.input? == some file

/-- No stream of the program dangles. -/
structure Program.Linear (program : Program) : Prop where
  /-- No name is written twice. -/
  names_nodup : ((written program.stages).map Label.text).Nodup
  /-- What is written is read at one place, unless it leaves the program. -/
  read_once : ∀ l ∈ written program.stages, l ∉ program.outs →
    (labelsRead program.stages).count l = 1
  /-- A label is read by stages after the one that writes it. -/
  read_later : ∀ (l : Label) (i j : Nat) (writer reader : Stage),
    program.stages[i]? = some writer → program.stages[j]? = some reader →
    l ∈ writer.outputs → l ∈ reader.inputs → i < j
  /-- What is read is a pad or was written. -/
  read_source : ∀ l ∈ labelsRead program.stages, l.isPad = true ∨ l ∈ written program.stages
  /-- What leaves the program was written, and no stage reads it. -/
  outs_written : ∀ l ∈ program.outs, l ∈ written program.stages
  outs_unread : ∀ l ∈ program.outs, l ∉ labelsRead program.stages
  outs_nodup : program.outs.Nodup
  /-- No pad is read twice. -/
  pads_once : ∀ l : Label, l.isPad = true → (labelsRead program.stages).count l ≤ 1

variable {stages : List Stage} {l : Label}

theorem signalsRead_eq_filter (stages : List Stage) :
    signalsRead stages = (labelsRead stages).filter fun l ↦ !l.isPad := by
  rw [labelsRead, List.filter_flatMap]
  rfl

theorem padsRead_eq_filter (stages : List Stage) :
    padsRead stages = (labelsRead stages).filter fun l ↦ l.isPad := by
  rw [labelsRead, List.filter_flatMap]
  rfl

theorem count_labelsRead_of_signal (h : l.isPad = false) :
    (labelsRead stages).count l = (signalsRead stages).count l := by
  rw [signalsRead_eq_filter, List.count_filter (by simp [h])]

private theorem count_labelsRead_of_pad (h : l.isPad = true) :
    (labelsRead stages).count l = (padsRead stages).count l := by
  rw [padsRead_eq_filter, List.count_filter (by simp [h])]

/-- If one label of the stages has a property, one stage reads a label with it. -/
theorem countP_any_inputs_of_countP {p : Label → Bool} (h : (labelsRead stages).countP p = 1) :
    stages.countP (fun stage ↦ stage.inputs.any p) = 1 := by
  induction stages with
  | nil => cases h
  | cons stage rest ih =>
    rw [labelsRead, List.flatMap_cons, List.countP_append] at h
    rw [List.countP_cons]
    by_cases ha : stage.inputs.any p = true
    · have hpos : 0 < stage.inputs.countP p := List.countP_pos_iff.mpr (List.any_eq_true.mp ha)
      have hzero : (labelsRead rest).countP p = 0 := by
        rw [labelsRead]
        omega
      have hrest : rest.countP (fun stage ↦ stage.inputs.any p) = 0 := by
        rw [List.countP_eq_zero] at hzero ⊢
        intro other hm hany
        obtain ⟨l, hl, hp⟩ := List.any_eq_true.mp hany
        exact hzero l (List.mem_flatMap.mpr ⟨other, hm, hl⟩) hp
      rw [hrest, if_pos ha]
    · have hzero : stage.inputs.countP p = 0 := by
        rw [List.countP_eq_zero]
        intro l hl hp
        exact ha (List.any_eq_true.mpr ⟨l, hl, hp⟩)
      rw [hzero, Nat.zero_add] at h
      rw [ih h, if_neg ha]

namespace Program.Wiring

variable {program : Program}

private theorem perm_outs (h : program.Wiring) :
    (signalsRead program.stages ++ program.outs).Perm (written program.stages) := by
  simpa using h.wired.perm

private theorem nodup_reads (h : program.Wiring) :
    (signalsRead program.stages ++ program.outs).Nodup :=
  h.perm_outs.nodup_iff.mpr h.written_nodup

/-- Two stages that read the same signal are one. -/
theorem eq_of_mem_signals (h : program.Wiring) {stage other : Stage}
    (hs : stage ∈ program.stages) (ho : other ∈ program.stages) (hl : l ∈ stage.signals)
    (hm : l ∈ other.signals) : stage = other := by
  have hn : (signalsRead program.stages).Nodup := List.Nodup.of_append_left h.nodup_reads
  obtain ⟨-, hdisjoint⟩ := List.nodup_flatMap.mp hn
  have hsymm : Std.Symm (Function.onFun List.Disjoint fun stage : Stage ↦ stage.signals) :=
    ⟨fun _ _ hd _ hx hy ↦ hd hy hx⟩
  by_contra hne
  exact hdisjoint.forall hs ho hne hl hm

/-- No stage reads what leaves the program. -/
theorem notMem_signals_of_mem_outs (h : program.Wiring) {stage : Stage}
    (hs : stage ∈ program.stages) (hl : l ∈ program.outs) : l ∉ stage.signals := by
  intro hm
  exact List.disjoint_of_nodup_append h.nodup_reads (List.mem_flatMap.mpr ⟨stage, hs, hm⟩) hl

/-- What a stage reads was written before it, and it is not written again. -/
private theorem lt_of_mem_inputs (h : program.Wiring) {i j : Nat} {writer reader : Stage}
    (hw : program.stages[i]? = some writer) (hr : program.stages[j]? = some reader)
    (ho : l ∈ writer.outputs) (hi : l ∈ reader.inputs) : i < j := by
  obtain ⟨hj, rfl⟩ := List.getElem?_eq_some_iff.mp hr
  have hsplit : program.stages.take j ++ program.stages[j] :: program.stages.drop (j + 1) =
      program.stages := by
    rw [← List.drop_eq_getElem_cons hj, List.take_append_drop]
  have hwritten : l ∈ written program.stages :=
    List.mem_flatMap.mpr ⟨writer, List.mem_of_getElem? hw, ho⟩
  have hsignal : l ∈ program.stages[j].signals :=
    List.mem_filter.mpr ⟨hi, by simp [h.written_signal l hwritten]⟩
  have hwired := h.wired
  rw [← hsplit] at hwired
  have hbefore : l ∈ written (program.stages.take j) := by
    simpa using hwired.mem_of_mem_signals hsignal
  by_contra hij
  -- the writer stands at or after the reader, so the label would be written twice
  have hafter : l ∈ written (program.stages.drop j) := by
    refine List.mem_flatMap.mpr ⟨writer, ?_, ho⟩
    have hd : (program.stages.drop j)[i - j]? = some writer := by
      rw [List.getElem?_drop, Nat.add_sub_cancel' (Nat.le_of_not_lt hij)]
      exact hw
    exact List.mem_of_getElem? hd
  have hn := h.written_nodup
  rw [← List.take_append_drop j program.stages, written, List.flatMap_append] at hn
  exact List.disjoint_of_nodup_append hn hbefore hafter

/-- A wired program that reads no pad twice is linear. -/
theorem linear (h : program.Wiring) (hp : (padsRead program.stages).Nodup) : program.Linear where
  names_nodup := h.written_nodup.map Label.text_injective
  read_once l hl hn := by
    have hm := List.mem_append.mp (h.perm_outs.mem_iff.mpr hl)
    have hr : l ∈ signalsRead program.stages := hm.resolve_right hn
    rw [count_labelsRead_of_signal (h.written_signal l hl)]
    exact List.count_eq_one_of_mem (List.Nodup.of_append_left h.nodup_reads) hr
  read_later l i j writer reader := h.lt_of_mem_inputs
  read_source l hl := by
    cases hpad : l.isPad with
    | true => exact Or.inl rfl
    | false =>
      have hr : l ∈ signalsRead program.stages := by
        rw [signalsRead_eq_filter]
        exact List.mem_filter.mpr ⟨hl, by simp [hpad]⟩
      exact Or.inr (h.perm_outs.mem_iff.mp (List.mem_append_left _ hr))
  outs_written l hl := h.perm_outs.mem_iff.mp (List.mem_append_right _ hl)
  outs_unread l hl hr := by
    have hw := h.perm_outs.mem_iff.mp (List.mem_append_right _ hl)
    have hs : l ∈ signalsRead program.stages := by
      rw [signalsRead_eq_filter]
      exact List.mem_filter.mpr ⟨hr, by simp [h.written_signal l hw]⟩
    exact List.disjoint_of_nodup_append h.nodup_reads hs hl
  outs_nodup := List.Nodup.of_append_right h.nodup_reads
  pads_once l hl := by
    rw [count_labelsRead_of_pad hl]
    exact List.nodup_iff_count_le_one.mp hp l

end Program.Wiring

end Montage.Graph
