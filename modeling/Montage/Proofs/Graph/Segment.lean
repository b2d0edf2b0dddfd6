import Mathlib.Data.List.Nodup
import Montage.Proofs.Graph.Building
import Montage.Proofs.Graph.Wiring

/-!
# Segments

A segment is a run of stages between open labels that writes first labels of known requests and
reads known pads. Segments without a common request can be laid end to end, so a whole program is
wired by looking at one of its parts at a time.
-/

namespace Montage.Graph

/-- The stages take the open labels `before` to `after`. They write first labels of the requests,
each label once, and read the pads in order. -/
structure Segment (requests : Set LabelRequest) (pads before : List Label) (stages : List Stage)
    (after : List Label) : Prop where
  wired : Wired before stages after
  nodup : (written stages).Nodup
  issued : ∀ l ∈ written stages, ∃ r ∈ requests, l = .signal r 0
  pads_eq : padsRead stages = pads
  filters : ∀ stage ∈ stages, stage.filters ≠ []

namespace Segment

variable {S T : Set LabelRequest} {pads more before middle after others : List Label}
  {xs ys stages : List Stage}

/-- No stages. -/
theorem nil (S : Set LabelRequest) (before : List Label) : Segment S [] before [] before where
  wired := .refl before
  nodup := .nil
  issued _ hl := absurd hl List.not_mem_nil
  pads_eq := rfl
  filters _ hs := absurd hs List.not_mem_nil

theorem mono (h : Segment S pads before stages after) (hs : S ⊆ T) :
    Segment T pads before stages after where
  wired := h.wired
  nodup := h.nodup
  issued l hl := by
    obtain ⟨r, hr, he⟩ := h.issued l hl
    exact ⟨r, hs hr, he⟩
  pads_eq := h.pads_eq
  filters := h.filters

/-- One stage with one output. -/
theorem single {stage : Stage} {r : LabelRequest} (ho : stage.outputs = [.signal r 0])
    (hf : stage.filters ≠ []) :
    Segment {r} stage.pads stage.signals [stage] [.signal r 0] where
  wired := by
    rw [← ho]
    exact .single stage
  nodup := by
    simp [written, ho]
  issued l hl := by
    refine ⟨r, rfl, ?_⟩
    simpa [written, ho] using hl
  pads_eq := by
    simp [padsRead]
  filters s hs := by
    rw [List.mem_singleton.mp hs]
    exact hf

/-- One stage that reads no pad. -/
theorem single_of_signals {inputs : List Label} {filters : List Filter} (r : LabelRequest)
    (hi : ∀ l ∈ inputs, l.isPad = false) (hf : filters ≠ []) :
    Segment {r} [] inputs [⟨inputs, filters, [.signal r 0]⟩] [.signal r 0] := by
  have h : Segment {r} _ _ [⟨inputs, filters, [.signal r 0]⟩] _ := single rfl hf
  have hp : inputs.filter (fun l ↦ l.isPad) = [] := by
    rw [List.filter_eq_nil_iff]
    intro l hl
    simp [hi l hl]
  have hs : inputs.filter (fun l ↦ !l.isPad) = inputs := by
    rw [List.filter_eq_self]
    intro l hl
    simp [hi l hl]
  rw [Stage.pads, Stage.signals, hp, hs] at h
  exact h

/-- Labels of requests apart are different. -/
private theorem disjoint_written (hx : ∀ l ∈ written xs, ∃ r ∈ S, l = Label.signal r 0)
    (hy : ∀ l ∈ written ys, ∃ r ∈ T, l = Label.signal r 0) (hd : Disjoint S T) :
    List.Disjoint (written xs) (written ys) := by
  intro l hlx hly
  obtain ⟨r, hr, rfl⟩ := hx l hlx
  obtain ⟨s, hs, he⟩ := hy _ hly
  injection he with he
  exact Set.disjoint_left.mp hd hr (he ▸ hs)

/-- Segments without a common request follow each other. -/
theorem append (hx : Segment S pads before xs middle) (hy : Segment T more middle ys after)
    (hd : Disjoint S T) : Segment (S ∪ T) (pads ++ more) before (xs ++ ys) after where
  wired := hx.wired.append hy.wired
  nodup := by
    rw [written, List.flatMap_append]
    exact List.Nodup.append hx.nodup hy.nodup (disjoint_written hx.issued hy.issued hd)
  issued l hl := by
    rw [written, List.flatMap_append] at hl
    rcases List.mem_append.mp hl with hl | hl
    · obtain ⟨r, hr, he⟩ := hx.issued l hl
      exact ⟨r, Or.inl hr, he⟩
    · obtain ⟨r, hr, he⟩ := hy.issued l hl
      exact ⟨r, Or.inr hr, he⟩
  pads_eq := by
    rw [padsRead, List.flatMap_append, ← hx.pads_eq, ← hy.pads_eq]
    rfl
  filters s hs := by
    rcases List.mem_append.mp hs with hs | hs
    · exact hx.filters s hs
    · exact hy.filters s hs

/-- Segments for different roles follow each other. -/
theorem append_roles {roles more' : List Role}
    (hx : Segment (requestsFor roles) pads before xs middle)
    (hy : Segment (requestsFor more') more middle ys after)
    (hd : ∀ role ∈ roles, role ∉ more') :
    Segment (requestsFor (roles ++ more')) (pads ++ more) before (xs ++ ys) after := by
  rw [requestsFor_append]
  exact hx.append hy (disjoint_requestsFor hd)

/-- Other open labels stay open. -/
theorem frame (h : Segment S pads before stages after) (others : List Label) :
    Segment S pads (before ++ others) stages (after ++ others) :=
  { h with wired := h.wired.frame others }

theorem frame_left (h : Segment S pads before stages after) (others : List Label) :
    Segment S pads (others ++ before) stages (others ++ after) :=
  { h with wired := h.wired.frame_left others }

/-- A segment leaves no pad open that was not. -/
theorem isPad_of_mem_after (h : Segment S pads before stages after)
    (hb : ∀ l ∈ before, l.isPad = false) {l : Label} (hl : l ∈ after) : l.isPad = false := by
  have hm : l ∈ before ++ written stages :=
    h.wired.perm.mem_iff.mp (List.mem_append_right _ hl)
  rcases List.mem_append.mp hm with hm | hm
  · exact hb l hm
  · obtain ⟨r, -, rfl⟩ := h.issued l hm
    rfl

/-- A program made of one segment is wired. -/
theorem wiring {program : Program} (h : Segment S pads [] program.stages program.outs)
    (hp : ∀ l ∈ pads, ∀ i, l.input? = some i → i < program.inputs.length) : program.Wiring where
  wired := h.wired
  written_nodup := h.nodup
  written_signal l hl := by
    obtain ⟨r, -, rfl⟩ := h.issued l hl
    rfl
  pads_declared := by
    rw [h.pads_eq]
    exact hp
  filters := h.filters

end Segment

namespace Fragment.Threads

variable {α : Type} {shape : Nat → α → Label → Fragment → Prop}
  {requests : Nat → Set LabelRequest} {side : α → List Label}

/-- Fragments end to end are a segment if each fragment is one. An item may bring open labels of
its own, which its fragment closes. -/
theorem segment (hd : ∀ i j, i < j → Disjoint (requests i) (requests j))
    (hs : ∀ {index item input fragment}, input.isPad = false →
      (∀ l ∈ side item, l.isPad = false) → shape index item input fragment →
      Segment (requests index) [] (input :: side item) fragment.stages [fragment.output])
    {index : Nat} {items : List α} {input : Label} {fragment : Fragment}
    (hi : input.isPad = false) (hside : ∀ item ∈ items, ∀ l ∈ side item, l.isPad = false)
    (h : Threads shape index items input fragment) :
    Segment (requestsFrom requests index) [] (input :: items.flatMap side) fragment.stages
      [fragment.output] := by
  induction h with
  | nil => exact .nil _ _
  | @cons index item rest input first others hf _ ih =>
    have hitem : ∀ l ∈ side item, l.isPad = false := hside item List.mem_cons_self
    have hfirst := hs hi hitem hf
    have hopen : ∀ l ∈ input :: side item, l.isPad = false :=
      List.forall_mem_cons.mpr ⟨hi, hitem⟩
    have hout : first.output.isPad = false :=
      hfirst.isPad_of_mem_after hopen List.mem_cons_self
    have hrest := ih hout fun a ha ↦ hside a (List.mem_cons_of_mem _ ha)
    exact ((hfirst.frame (rest.flatMap side)).append hrest (disjoint_requestsFrom hd index)).mono
      (union_requestsFrom_subset requests index)

end Fragment.Threads

end Montage.Graph
