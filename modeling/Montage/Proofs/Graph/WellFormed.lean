import Mathlib.Tactic.Tauto
import Montage.Attempt
import Montage.Graph.Check
import Montage.Proofs.Graph.Linear

/-!
# Well-formed programs

What the check of a program stands for, said of the program as a whole: which labels its stages may
read and write, and where. The check itself goes through the stages once and keeps the labels
written and read so far. The invariant is that these are the labels of the stages it has passed. A
program that is wired from nothing to its outputs passes its check.
-/

namespace Montage.Graph

/-- A program whose labels all lead somewhere. -/
structure Program.WellFormed (program : Program) : Prop where
  /-- Every stage has a filter. -/
  filters : ∀ stage ∈ program.stages, stage.filters ≠ []
  /-- A pad that is read belongs to a file of the program. -/
  pads_declared : ∀ (input : Nat) (track : Track),
    Label.pad input track ∈ labelsRead program.stages → input < program.inputs.length
  /-- Any other label that a stage reads is an output of a strictly earlier stage. -/
  read_later : ∀ (j : Nat) (reader : Stage), program.stages[j]? = some reader →
    ∀ l ∈ reader.inputs, l.isPad = false →
      ∃ i, i < j ∧ ∃ writer, program.stages[i]? = some writer ∧ l ∈ writer.outputs
  /-- It is read at one place of the whole program. -/
  read_once : ∀ l ∈ labelsRead program.stages, l.isPad = false →
    (labelsRead program.stages).count l = 1
  /-- No stage writes a pad. -/
  written_signal : ∀ l ∈ written program.stages, l.isPad = false
  /-- No label is written twice. -/
  written_once : (written program.stages).Nodup
  /-- What leaves the program is written by a stage and read by none. -/
  outs_written : ∀ l ∈ program.outs, l ∈ written program.stages
  outs_unread : ∀ l ∈ program.outs, l ∉ labelsRead program.stages

namespace Usage

variable {inputCount index : Nat} {usage after : Usage} {stage : Stage} {stages : List Stage}

/-- What has been written and read once these stages have run. -/
def passed (usage : Usage) (stages : List Stage) : Usage where
  written := (Graph.written stages).reverse ++ usage.written
  read := (signalsRead stages).reverse ++ usage.read

/-- A stage may run after what has been written and read. -/
structure Admits (inputCount : Nat) (usage : Usage) (stage : Stage) : Prop where
  filters : stage.filters ≠ []
  pads_declared : ∀ (input : Nat) (track : Track), Label.pad input track ∈ stage.inputs →
    input < inputCount
  read_written : ∀ l ∈ stage.signals, l ∈ usage.written
  read_nodup : stage.signals.Nodup
  read_new : ∀ l ∈ stage.signals, l ∉ usage.read
  written_signal : ∀ l ∈ stage.outputs, l.isPad = false
  written_nodup : stage.outputs.Nodup
  written_new : ∀ l ∈ stage.outputs, l ∉ usage.written

/-- Stages may run one after the other after what has been written and read. -/
structure AdmitsAll (inputCount : Nat) (usage : Usage) (stages : List Stage) : Prop where
  filters : ∀ stage ∈ stages, stage.filters ≠ []
  pads_declared : ∀ (input : Nat) (track : Track),
    Label.pad input track ∈ labelsRead stages → input < inputCount
  read_later : ∀ (j : Nat) (reader : Stage), stages[j]? = some reader →
    ∀ l ∈ reader.signals, l ∈ usage.written ∨ l ∈ Graph.written (stages.take j)
  read_nodup : (signalsRead stages).Nodup
  read_new : ∀ l ∈ signalsRead stages, l ∉ usage.read
  written_signal : ∀ l ∈ Graph.written stages, l.isPad = false
  written_nodup : (Graph.written stages).Nodup
  written_new : ∀ l ∈ Graph.written stages, l ∉ usage.written

theorem readLabel_pad_eq_ok {input : Nat} {track : Track} :
    readLabel inputCount index usage (.pad input track) = .ok after ↔
      input < inputCount ∧ after = usage := by
  by_cases h : input < inputCount <;> simp [readLabel, h, eq_comm]

theorem readLabel_signal_eq_ok {request : LabelRequest} {copy : Nat} :
    readLabel inputCount index usage (.signal request copy) = .ok after ↔
      .signal request copy ∈ usage.written ∧ .signal request copy ∉ usage.read ∧
        after = { usage with read := .signal request copy :: usage.read } := by
  by_cases hw : .signal request copy ∈ usage.written <;>
    by_cases hr : .signal request copy ∈ usage.read <;> simp [readLabel, hw, hr, eq_comm]

theorem writeLabel_eq_ok {l : Label} :
    writeLabel index usage l = .ok after ↔
      l.isPad = false ∧ l ∉ usage.written ∧
        after = { usage with written := l :: usage.written } := by
  by_cases hp : l.isPad <;> by_cases hw : l ∈ usage.written <;>
    simp [writeLabel, hp, hw, eq_comm]

/-- Reading goes through declared pads, and through other labels that are written and unread. -/
theorem foldlM_readLabel_eq_ok (inputs : List Label) :
    inputs.foldlM (readLabel inputCount index) usage = .ok after ↔
      (∀ (input : Nat) (track : Track), Label.pad input track ∈ inputs → input < inputCount) ∧
        (∀ l ∈ inputs.filter (fun l ↦ !l.isPad), l ∈ usage.written) ∧
        (inputs.filter (fun l ↦ !l.isPad)).Nodup ∧
        (∀ l ∈ inputs.filter (fun l ↦ !l.isPad), l ∉ usage.read) ∧
        after = ⟨usage.written, (inputs.filter (fun l ↦ !l.isPad)).reverse ++ usage.read⟩ := by
  induction inputs generalizing usage with
  | nil =>
    simp only [List.foldlM_nil, pure, Except.pure, Except.ok.injEq]
    simpa using eq_comm
  | cons l rest ih =>
    rw [List.foldlM_cons, bind_eq_ok_iff]
    cases l with
    | pad input track =>
      have hskip : (Label.pad input track :: rest).filter (fun l ↦ !l.isPad) =
          rest.filter fun l ↦ !l.isPad := rfl
      rw [hskip]
      simp only [readLabel_pad_eq_ok, and_assoc, exists_and_left, exists_eq_left, ih]
      constructor
      · rintro ⟨hi, hp, h⟩
        refine ⟨fun i t hm ↦ ?_, h⟩
        rcases List.mem_cons.mp hm with he | hm
        · exact (Label.pad.inj he).1 ▸ hi
        · exact hp i t hm
      · rintro ⟨hp, h⟩
        exact ⟨hp input track List.mem_cons_self,
          fun i t hm ↦ hp i t (List.mem_cons_of_mem _ hm), h⟩
    | signal request copy =>
      have htake : (Label.signal request copy :: rest).filter (fun l ↦ !l.isPad) =
          .signal request copy :: rest.filter fun l ↦ !l.isPad := rfl
      rw [htake]
      simp only [readLabel_signal_eq_ok, and_assoc, exists_and_left, exists_eq_left, ih,
        List.forall_mem_cons, List.nodup_cons, List.reverse_cons, List.append_assoc,
        List.singleton_append]
      constructor
      · rintro ⟨hw, hr, hp, hws, hn, hnew, rfl⟩
        refine ⟨fun i t hm ↦ ?_, hw, hws, fun hm ↦ hnew _ hm List.mem_cons_self, hn, hr,
          fun m hm hread ↦ hnew m hm (List.mem_cons_of_mem _ hread), rfl⟩
        exact hp i t (List.mem_of_ne_of_mem Label.noConfusion hm)
      · rintro ⟨hp, hw, hws, hm, hn, hr, hnew, rfl⟩
        refine ⟨hw, hr, fun i t hp' ↦ hp i t (List.mem_cons_of_mem _ hp'), hws, hn,
          fun m hmem hread ↦ ?_, rfl⟩
        rcases List.mem_cons.mp hread with rfl | hread
        · exact hm hmem
        · exact hnew m hmem hread

/-- Writing goes through new labels that are no pads. -/
theorem foldlM_writeLabel_eq_ok (outputs : List Label) :
    outputs.foldlM (writeLabel index) usage = .ok after ↔
      (∀ l ∈ outputs, l.isPad = false) ∧ outputs.Nodup ∧ (∀ l ∈ outputs, l ∉ usage.written) ∧
        after = ⟨outputs.reverse ++ usage.written, usage.read⟩ := by
  induction outputs generalizing usage with
  | nil =>
    simp only [List.foldlM_nil, pure, Except.pure, Except.ok.injEq]
    simpa using eq_comm
  | cons l rest ih =>
    rw [List.foldlM_cons, bind_eq_ok_iff]
    simp only [writeLabel_eq_ok, and_assoc, exists_and_left, exists_eq_left, ih,
      List.forall_mem_cons, List.nodup_cons, List.reverse_cons, List.append_assoc,
      List.singleton_append]
    constructor
    · rintro ⟨hp, hw, hps, hn, hnew, rfl⟩
      exact ⟨hp, hps, fun hm ↦ hnew _ hm List.mem_cons_self, hn, hw,
        fun m hm hwritten ↦ hnew m hm (List.mem_cons_of_mem _ hwritten), rfl⟩
    · rintro ⟨hp, hps, hm, hn, hw, hnew, rfl⟩
      refine ⟨hp, hw, hps, hn, fun m hmem hwritten ↦ ?_, rfl⟩
      rcases List.mem_cons.mp hwritten with rfl | hwritten
      · exact hm hmem
      · exact hnew m hmem hwritten

/-- One stage runs if it is admitted, and then its labels are written and read. -/
theorem runStage_eq_ok : usage.runStage inputCount index stage = .ok after ↔
    Admits inputCount usage stage ∧ after = usage.passed [stage] := by
  have hpassed : usage.passed [stage] =
      ⟨stage.outputs.reverse ++ usage.written, stage.signals.reverse ++ usage.read⟩ := by
    simp [passed, Graph.written, signalsRead]
  rw [hpassed]
  unfold runStage
  by_cases hf : stage.filters = []
  · simp only [hf, List.isEmpty_nil, if_true]
    exact iff_of_false (fun h ↦ by cases h) fun h ↦ h.1.filters hf
  · simp only [List.isEmpty_iff, hf, if_false]
    rw [bind_eq_ok_iff]
    simp only [foldlM_readLabel_eq_ok, foldlM_writeLabel_eq_ok, and_assoc, exists_and_left,
      exists_eq_left]
    constructor
    · rintro ⟨hp, hw, hn, hr, hs, hwn, hww, rfl⟩
      exact ⟨⟨hf, hp, hw, hn, hr, hs, hwn, hww⟩, rfl⟩
    · rintro ⟨h, rfl⟩
      exact ⟨h.pads_declared, h.read_written, h.read_nodup, h.read_new, h.written_signal,
        h.written_nodup, h.written_new, rfl⟩

theorem passed_cons (usage : Usage) (stage : Stage) (stages : List Stage) :
    usage.passed (stage :: stages) = (usage.passed [stage]).passed stages := by
  simp [passed, Graph.written, signalsRead]

theorem mem_written_passed {l : Label} :
    l ∈ (usage.passed [stage]).written ↔ l ∈ stage.outputs ∨ l ∈ usage.written := by
  simp [passed, Graph.written]

theorem mem_read_passed {l : Label} :
    l ∈ (usage.passed [stage]).read ↔ l ∈ stage.signals ∨ l ∈ usage.read := by
  simp [passed, signalsRead]

theorem admitsAll_nil : AdmitsAll inputCount usage [] := by
  constructor <;> simp [Graph.written, signalsRead, labelsRead]

/-- Where the first of several stages is admitted, so is each stage after it. -/
theorem AdmitsAll.tail (h : AdmitsAll inputCount usage (stage :: stages)) :
    AdmitsAll inputCount (usage.passed [stage]) stages where
  filters s hs := h.filters s (List.mem_cons_of_mem _ hs)
  pads_declared i t hm := h.pads_declared i t (List.mem_append_right _ hm)
  read_later j reader hj l hl := by
    have hbefore : l ∈ usage.written ∨ l ∈ stage.outputs ++ Graph.written (stages.take j) :=
      h.read_later (j + 1) reader hj l hl
    rw [List.mem_append] at hbefore
    rw [mem_written_passed]
    tauto
  read_nodup := List.Nodup.of_append_right h.read_nodup
  read_new l hl hr := by
    rcases mem_read_passed.mp hr with hs | hr
    · exact List.disjoint_of_nodup_append h.read_nodup hs hl
    · exact h.read_new l (List.mem_append_right _ hl) hr
  written_signal l hl := h.written_signal l (List.mem_append_right _ hl)
  written_nodup := List.Nodup.of_append_right h.written_nodup
  written_new l hl hw := by
    rcases mem_written_passed.mp hw with hs | hw
    · exact List.disjoint_of_nodup_append h.written_nodup hs hl
    · exact h.written_new l (List.mem_append_right _ hl) hw

theorem AdmitsAll.head (h : AdmitsAll inputCount usage (stage :: stages)) :
    Admits inputCount usage stage where
  filters := h.filters stage List.mem_cons_self
  pads_declared i t hm := h.pads_declared i t (List.mem_append_left _ hm)
  read_written := by simpa [Graph.written] using h.read_later 0 stage rfl
  read_nodup := List.Nodup.of_append_left h.read_nodup
  read_new l hl := h.read_new l (List.mem_append_left _ hl)
  written_signal l hl := h.written_signal l (List.mem_append_left _ hl)
  written_nodup := List.Nodup.of_append_left h.written_nodup
  written_new l hl := h.written_new l (List.mem_append_left _ hl)

theorem Admits.cons (h : Admits inputCount usage stage)
    (hs : AdmitsAll inputCount (usage.passed [stage]) stages) :
    AdmitsAll inputCount usage (stage :: stages) where
  filters := List.forall_mem_cons.mpr ⟨h.filters, hs.filters⟩
  pads_declared i t hm := by
    rcases List.mem_append.mp hm with hm | hm
    · exact h.pads_declared i t hm
    · exact hs.pads_declared i t hm
  read_later j reader hj l hl := by
    cases j with
    | zero =>
      obtain rfl : stage = reader := Option.some.inj hj
      exact Or.inl (h.read_written l hl)
    | succ j =>
      have hbefore := hs.read_later j reader hj l hl
      rw [mem_written_passed] at hbefore
      show l ∈ usage.written ∨ l ∈ stage.outputs ++ Graph.written (stages.take j)
      rw [List.mem_append]
      tauto
  read_nodup := List.Nodup.append h.read_nodup hs.read_nodup fun l hl hr ↦
    hs.read_new l hr (mem_read_passed.mpr (Or.inl hl))
  read_new l hl hr := by
    rcases List.mem_append.mp hl with hl | hl
    · exact h.read_new l hl hr
    · exact hs.read_new l hl (mem_read_passed.mpr (Or.inr hr))
  written_signal := List.forall_mem_append.mpr ⟨h.written_signal, hs.written_signal⟩
  written_nodup := List.Nodup.append h.written_nodup hs.written_nodup fun l hl hw ↦
    hs.written_new l hw (mem_written_passed.mpr (Or.inl hl))
  written_new l hl hw := by
    rcases List.mem_append.mp hl with hl | hl
    · exact h.written_new l hl hw
    · exact hs.written_new l hl (mem_written_passed.mpr (Or.inr hw))

/-- Stages are admitted in sequence. -/
theorem admitsAll_cons : AdmitsAll inputCount usage (stage :: stages) ↔
    Admits inputCount usage stage ∧ AdmitsAll inputCount (usage.passed [stage]) stages :=
  ⟨fun h ↦ ⟨h.head, h.tail⟩, fun h ↦ h.1.cons h.2⟩

/-- All stages run if they are admitted, and then all their labels are written and read. -/
theorem runStages_eq_ok : usage.runStages inputCount index stages = .ok after ↔
    AdmitsAll inputCount usage stages ∧ after = usage.passed stages := by
  induction stages generalizing usage index with
  | nil =>
    have hsame : usage.passed [] = usage := rfl
    simp [runStages, hsame, admitsAll_nil, eq_comm]
  | cons stage rest ih =>
    rw [runStages, bind_eq_ok_iff, admitsAll_cons, passed_cons usage stage rest]
    simp only [runStage_eq_ok, ih, and_assoc, exists_and_left, exists_eq_left]

theorem checkOutput_eq_ok {l : Label} :
    usage.checkOutput l = .ok () ↔ l ∈ usage.written ∧ l ∉ usage.read := by
  by_cases hw : l ∈ usage.written <;> by_cases hr : l ∈ usage.read <;>
    simp [checkOutput, hw, hr]

end Usage

namespace Program

variable {program : Program}

/-- The check passes if the stages are admitted on nothing and the outputs are left by them. -/
theorem check_eq_ok_iff_admitsAll : program.check = .ok () ↔
    Usage.AdmitsAll program.inputs.length {} program.stages ∧
      ∀ l ∈ program.outs, l ∈ written program.stages ∧ l ∉ signalsRead program.stages := by
  have houts : ∀ l, Usage.checkOutput (Usage.passed {} program.stages) l = .ok () ↔
      l ∈ written program.stages ∧ l ∉ signalsRead program.stages := by
    intro l
    simp [Usage.checkOutput_eq_ok, Usage.passed]
  unfold check
  rw [bind_eq_ok_iff]
  simp only [Usage.runStages_eq_ok, and_assoc, exists_and_left, exists_eq_left]
  rw [bind_eq_ok, forM_eq_ok]
  simp only [houts, outs, List.forall_mem_cons, Option.mem_toList, Option.mem_def]

/-- A label is written by the stages before this place if one of them writes it. -/
private theorem mem_written_take {stages : List Stage} {j : Nat} {l : Label} :
    l ∈ written (stages.take j) ↔
      ∃ i, i < j ∧ ∃ writer, stages[i]? = some writer ∧ l ∈ writer.outputs := by
  rw [written, List.mem_flatMap]
  constructor
  · rintro ⟨writer, hm, hl⟩
    obtain ⟨i, hi⟩ := List.mem_iff_getElem?.mp hm
    rw [List.getElem?_take] at hi
    split at hi
    · next hij => exact ⟨i, hij, writer, hi, hl⟩
    · cases hi
  · rintro ⟨i, hij, writer, hi, hl⟩
    refine ⟨writer, List.mem_iff_getElem?.mpr ⟨i, ?_⟩, hl⟩
    rw [List.getElem?_take, if_pos hij, hi]

private theorem mem_signals_iff {stage : Stage} {l : Label} :
    l ∈ stage.signals ↔ l ∈ stage.inputs ∧ l.isPad = false := by
  simp [Stage.signals]

private theorem mem_signalsRead_iff {stages : List Stage} {l : Label} :
    l ∈ signalsRead stages ↔ l ∈ labelsRead stages ∧ l.isPad = false := by
  simp [signalsRead_eq_filter]

/-- Stages that are admitted on nothing, with outputs they leave, make a well-formed program. -/
theorem wellFormed_of_admitsAll
    (h : Usage.AdmitsAll program.inputs.length {} program.stages)
    (houts : ∀ l ∈ program.outs, l ∈ written program.stages ∧ l ∉ signalsRead program.stages) :
    program.WellFormed where
  filters := h.filters
  pads_declared := h.pads_declared
  read_later j reader hj l hl hp := by
    apply mem_written_take.mp
    have hbefore := h.read_later j reader hj l (mem_signals_iff.mpr ⟨hl, hp⟩)
    simpa using hbefore
  read_once l hl hp := by
    rw [count_labelsRead_of_signal hp]
    exact List.count_eq_one_of_mem h.read_nodup (mem_signalsRead_iff.mpr ⟨hl, hp⟩)
  written_signal := h.written_signal
  written_once := h.written_nodup
  outs_written l hl := (houts l hl).1
  outs_unread l hl hr := by
    have hp := h.written_signal l (houts l hl).1
    exact (houts l hl).2 (mem_signalsRead_iff.mpr ⟨hr, hp⟩)

/-- The stages of a well-formed program are admitted on nothing. -/
theorem WellFormed.admitsAll (h : program.WellFormed) :
    Usage.AdmitsAll program.inputs.length {} program.stages where
  filters := h.filters
  pads_declared := h.pads_declared
  read_later j reader hj l hl := by
    obtain ⟨hi, hp⟩ := mem_signals_iff.mp hl
    exact Or.inr (mem_written_take.mpr (h.read_later j reader hj l hi hp))
  read_nodup := by
    rw [List.nodup_iff_count_le_one]
    intro l
    by_cases hl : l ∈ signalsRead program.stages
    · obtain ⟨hr, hp⟩ := mem_signalsRead_iff.mp hl
      exact Nat.le_of_eq (count_labelsRead_of_signal hp ▸ h.read_once l hr hp)
    · rw [List.count_eq_zero_of_not_mem hl]
      omega
  read_new := by simp
  written_signal := h.written_signal
  written_nodup := h.written_once
  written_new := by simp

/-- The stages of a wired program are admitted on nothing: what they read was open before. -/
theorem Wiring.admitsAll (h : program.Wiring) :
    Usage.AdmitsAll program.inputs.length {} program.stages where
  filters := h.filters
  pads_declared input track hm := by
    obtain ⟨stage, hs, hl⟩ := List.mem_flatMap.mp hm
    have hread : Label.pad input track ∈ padsRead program.stages :=
      List.mem_flatMap.mpr ⟨stage, hs, List.mem_filter.mpr ⟨hl, rfl⟩⟩
    exact h.pads_declared _ hread input rfl
  read_later j reader hj l hl := by
    obtain ⟨hlt, rfl⟩ := List.getElem?_eq_some_iff.mp hj
    have hsplit : program.stages =
        program.stages.take j ++ program.stages[j] :: program.stages.drop (j + 1) := by
      rw [← List.drop_eq_getElem_cons hlt, List.take_append_drop]
    have hwired := h.wired
    rw [hsplit] at hwired
    exact Or.inr (hwired.mem_of_mem_signals hl)
  read_nodup := (h.wired.perm.nodup_iff.mpr h.written_nodup).of_append_left
  read_new := by simp
  written_signal := h.written_signal
  written_nodup := h.written_nodup
  written_new := by simp

/-- A wired program passes its check. -/
theorem Wiring.check_eq_ok (h : program.Wiring) : program.check = .ok () := by
  have hnodup := h.wired.perm.nodup_iff.mpr h.written_nodup
  refine check_eq_ok_iff_admitsAll.mpr ⟨h.admitsAll, fun l hl ↦ ⟨?_, fun hr ↦ ?_⟩⟩
  · exact h.wired.perm.mem_iff.mp (List.mem_append_right _ hl)
  · exact List.disjoint_of_nodup_append hnodup hr hl

end Program

/-- The check accepts the well-formed programs and no others. -/
theorem Program.check_accepts_iff (program : Program) :
    program.check = .ok () ↔ program.WellFormed := by
  rw [check_eq_ok_iff_admitsAll]
  constructor
  · rintro ⟨h, houts⟩
    exact wellFormed_of_admitsAll h houts
  · intro h
    refine ⟨h.admitsAll, fun l hl ↦ ⟨h.outs_written l hl, fun hr ↦ ?_⟩⟩
    exact h.outs_unread l hl (mem_signalsRead_iff.mp hr).1

end Montage.Graph
