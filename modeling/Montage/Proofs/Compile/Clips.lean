import Montage.Compile
import Montage.Proofs.Graph.Segment

/-!
# What becomes of the clips

The fragments that place the clips, and the fragment that joins them. Placing opens one label for
each clip, and joining closes them all for one.
-/

namespace Montage

open Montage.Numeric (Binary64)
open Montage.Graph

/-! ### Placed clips -/

/-- The fragment that places a clip, with the labels that the pool gives it. -/
def placedFragment (canvas : Canvas) (index : Nat) (clip : Clip) : Fragment :=
  ⟨placedStages canvas index clip (.numbered .clip index) (.numbered .canvas index)
    (.numbered .placed index), .numbered .placed index⟩

/-- The fragments that place the clips, numbered from `index`. -/
def placedFragments (canvas : Canvas) (index : Nat) (clips : List Clip) : List Fragment :=
  (clips.zipIdx index).map fun p ↦ placedFragment canvas p.2 p.1

/-- The labels of placed clips, numbered from `index`. -/
def placedLabels (index : Nat) (clips : List Clip) : List Label :=
  (List.range' index clips.length).map (.numbered .placed)

theorem placedFragments_cons (canvas : Canvas) (index : Nat) (clip : Clip) (rest : List Clip) :
    placedFragments canvas index (clip :: rest) =
      placedFragment canvas index clip :: placedFragments canvas (index + 1) rest := rfl

theorem placedLabels_cons (index : Nat) (clip : Clip) (rest : List Clip) :
    placedLabels index (clip :: rest) = .numbered .placed index :: placedLabels (index + 1) rest :=
  rfl

/-- The fragments of placed clips end in the labels of placed clips. -/
theorem map_output_placedFragments (canvas : Canvas) (index : Nat) (clips : List Clip) :
    (placedFragments canvas index clips).map (·.output) = placedLabels index clips := by
  induction clips generalizing index with
  | nil => rfl
  | cons clip rest ih =>
    rw [placedFragments_cons, placedLabels_cons, List.map_cons, ih]
    rfl

private theorem placeClip_yields (canvas : Canvas) (index : Nat) (clip : Clip) :
    (placeClip canvas index clip).Yields (requestsOf [.clip, .canvas, .placed] index)
      (placedFragment canvas index clip) := by
  unfold placeClip
  refine .mono (.numbered_bind (.numbered_bind (.numbered_bind (Builder.yields_pure _ ∅) ?_)
    ?_) ?_) ?_
  · simp
  · simp
  · simp
  · rintro r (rfl | rfl | rfl | hr)
    · simp [requestsOf]
    · simp [requestsOf]
    · simp [requestsOf]
    · exact absurd hr (Set.notMem_empty r)

/-- The clips are placed one after the other. -/
theorem placeClips_yields (canvas : Canvas) (index : Nat) (clips : List Clip) :
    (placeClips canvas index clips).Yields
      (requestsFrom (requestsOf [.clip, .canvas, .placed]) index)
      (placedFragments canvas index clips) := by
  induction clips generalizing index with
  | nil => exact Builder.yields_pure _ _
  | cons clip rest ih =>
    have hrest := (ih (index + 1)).bind_pure (placedFragment canvas index clip :: ·)
    exact .mono ((placeClip_yields canvas index clip).bind hrest
      (disjoint_requestsFrom (fun _ _ ↦ disjoint_requestsOf _) index))
      (union_requestsFrom_subset _ index)

private theorem placedFragment_segment (canvas : Canvas) (index : Nat) (clip : Clip) :
    Segment (requestsOf [.clip, .canvas, .placed] index) [.ofVideo index] []
      (placedFragment canvas index clip).stages [.numbered .placed index] where
  wired := by
    refine .cons (.refl []) (.cons (.refl _) (.cons ?_ (.refl _)))
    simp [Stage.signals, Stage.generator]
  nodup := by
    simp [placedFragment, placedStages, written, Stage.generator, Stage.chain, Label.numbered]
  issued := by
    simp [placedFragment, placedStages, written, Stage.generator, Stage.chain, Label.numbered,
      requestsOf]
  pads_eq := by
    simp [placedFragment, placedStages, padsRead, Stage.pads, Stage.generator, Stage.chain]
  filters := by
    simp [placedFragment, placedStages, Stage.generator, Stage.chain, trimFilters]

/-- Placing the clips opens their labels and reads the video of each input file in order. -/
theorem placedFragments_segment (canvas : Canvas) (index : Nat) (clips : List Clip) :
    Segment (requestsFrom (requestsOf [.clip, .canvas, .placed]) index)
      ((List.range' index clips.length).map .ofVideo) []
      ((placedFragments canvas index clips).flatMap (·.stages)) (placedLabels index clips) := by
  induction clips generalizing index with
  | nil => exact .nil _ _
  | cons clip rest ih =>
    have hfirst := placedFragment_segment canvas index clip
    have hrest := (ih (index + 1)).frame_left [.numbered .placed index]
    exact (hfirst.append hrest (disjoint_requestsFrom (fun _ _ ↦ disjoint_requestsOf _) index)).mono
      (union_requestsFrom_subset _ index)

/-! ### Joined clips -/

/-- The fragment of a join, with the labels that the pool gives it. -/
inductive JoinDrawn (pair : Nat) (left right : Label) : Transition.Join → Fragment → Prop
  | concat :
      JoinDrawn pair left right .concat
        (.single (Transition.joinStage (Transition.concat 2) left right (.numbered .join pair))
          (.numbered .join pair))
  | blend {name : String} {duration offset : Binary64} :
      JoinDrawn pair left right (.blend name duration offset)
        (.single (Transition.joinStage (Transition.blendFilter name duration offset) left right
          (.numbered .join pair)) (.numbered .join pair))
  | edges {effect : CustomEffect} {duration offset : Binary64} :
      JoinDrawn pair left right (.edges effect duration offset)
        ⟨Transition.edgeStages effect duration offset left right (.numbered .edge (pair * 2))
          (.numbered .edge (pair * 2 + 1)) (.numbered .join pair), .numbered .join pair⟩

/-- The join of the boundary after the clip with this number. -/
def joinAt (transition : Transition) (requested : Binary64) (timeline : Timeline) (index : Nat) :
    Transition.Join :=
  let left := (timeline.duration? index).getD 0
  let right := (timeline.duration? (index + 1)).getD 0
  transition.join (Transition.clampDuration requested left right) left

/-- The fragment that joins the clips. -/
inductive ClipsJoined (setting : Option TransitionSetting) (timeline : Timeline) (first : Label) :
    List Label → Fragment → Prop
  | alone : ClipsJoined setting timeline first [] (.passthrough first)
  | cut {others : List Label} :
      others ≠ [] →
      Transition.ofSetting setting = .cut →
      ClipsJoined setting timeline first others
        (.single ⟨first :: others, [Transition.concat (others.length + 1)], [.numbered .join 0]⟩
          (.numbered .join 0))
  | folded {others : List Label} {fragment : Fragment} :
      others ≠ [] →
      Transition.ofSetting setting ≠ .cut →
      Fragment.Threads (fun index right left ↦ JoinDrawn index left right
        (joinAt (Transition.ofSetting setting) ((setting.map (·.duration)).getD 0) timeline index))
        0 others first fragment →
      ClipsJoined setting timeline first others fragment

/-- The requests that a join may make. -/
def joinRequests (pair : Nat) : Set LabelRequest :=
  {⟨.join, some pair⟩, ⟨.edge, some (pair * 2)⟩, ⟨.edge, some (pair * 2 + 1)⟩}

private theorem mem_joinRequests {pair : Nat} {r : LabelRequest} :
    r ∈ joinRequests pair ↔
      r = ⟨.join, some pair⟩ ∨ r = ⟨.edge, some (pair * 2)⟩ ∨ r = ⟨.edge, some (pair * 2 + 1)⟩ :=
  Iff.rfl

private theorem disjoint_joinRequests {i j : Nat} (h : i < j) :
    Disjoint (joinRequests i) (joinRequests j) := by
  rw [Set.disjoint_left]
  intro r hi hj
  rw [mem_joinRequests] at hi hj
  rcases hi with rfl | rfl | rfl <;>
    simp only [LabelRequest.mk.injEq, Option.some.injEq, reduceCtorEq, true_and, false_and,
      false_or, or_false] at hj <;> omega

private theorem joinRequests_subset (pair : Nat) :
    joinRequests pair ⊆ requestsFor [.join, .edge] := by
  intro r hr
  rcases mem_joinRequests.mp hr with rfl | rfl | rfl
  · exact List.mem_cons_self
  · exact List.mem_cons_of_mem _ List.mem_cons_self
  · exact List.mem_cons_of_mem _ List.mem_cons_self

variable {pair : Nat} {left right : Label} {join : Transition.Join} {fragment : Fragment}

/-- Every join yields its fragment. -/
theorem join_yields (join : Transition.Join) (pair : Nat) (left right : Label) :
    ∃ fragment, (join.fragment pair left right).Yields (joinRequests pair) fragment ∧
      JoinDrawn pair left right join fragment := by
  cases join with
  | concat =>
    refine ⟨_, ?_, .concat⟩
    refine .mono (.numbered_bind (Builder.yields_pure _ ∅) (Set.notMem_empty _)) ?_
    rintro r (rfl | hr)
    · exact mem_joinRequests.mpr (Or.inl rfl)
    · exact absurd hr (Set.notMem_empty r)
  | blend name duration offset =>
    refine ⟨_, ?_, .blend⟩
    refine .mono (.numbered_bind (Builder.yields_pure _ ∅) (Set.notMem_empty _)) ?_
    rintro r (rfl | hr)
    · exact mem_joinRequests.mpr (Or.inl rfl)
    · exact absurd hr (Set.notMem_empty r)
  | edges effect duration offset =>
    refine ⟨_, ?_, .edges⟩
    refine .mono (.numbered_bind (.numbered_bind (.numbered_bind (Builder.yields_pure _ ∅) ?_)
      ?_) ?_) ?_
    · simp
    · simp
    · simp
    · rintro r (rfl | rfl | rfl | hr)
      · exact mem_joinRequests.mpr (Or.inl rfl)
      · exact mem_joinRequests.mpr (Or.inr (Or.inl rfl))
      · exact mem_joinRequests.mpr (Or.inr (Or.inr rfl))
      · exact absurd hr (Set.notMem_empty r)

private theorem joinStage_segment (filter : Filter) (pair : Nat) (hl : left.isPad = false)
    (hr : right.isPad = false) :
    Segment (joinRequests pair) [] [left, right]
      [Transition.joinStage filter left right (.numbered .join pair)] [.numbered .join pair] := by
  have hinputs : ∀ l ∈ [left, right], l.isPad = false := by
    simp [hl, hr]
  refine (Segment.single_of_signals ⟨.join, some pair⟩ hinputs (List.cons_ne_nil _ _)).mono ?_
  rintro r rfl
  exact mem_joinRequests.mpr (Or.inl rfl)

private theorem edgeStages_segment (effect : CustomEffect) (duration offset : Binary64)
    (pair : Nat) (hl : left.isPad = false) (hr : right.isPad = false) :
    Segment (joinRequests pair) [] [left, right]
      (Transition.edgeStages effect duration offset left right (.numbered .edge (pair * 2))
        (.numbered .edge (pair * 2 + 1)) (.numbered .join pair)) [.numbered .join pair] where
  wired := by
    have hleft : [left, right].Perm
        ((Stage.chain left [Transition.trailingEdge effect duration offset]
          (.numbered .edge (pair * 2))).signals ++ [right]) := by
      simp [Stage.signals, Stage.chain, hl]
    have hright : [.numbered .edge (pair * 2), right].Perm
        ((Stage.chain right [Transition.leadingEdge effect duration]
          (.numbered .edge (pair * 2 + 1))).signals ++ [.numbered .edge (pair * 2)]) := by
      simpa [Stage.signals, Stage.chain, hr] using List.Perm.swap _ _ []
    refine .cons hleft (.cons hright (.cons (List.Perm.swap _ _ []) (.refl _)))
  nodup := by
    simp [Transition.edgeStages, Transition.joinStage, written, Stage.chain, Label.numbered]
  issued := by
    simp [Transition.edgeStages, Transition.joinStage, written, Stage.chain, Label.numbered,
      mem_joinRequests]
  pads_eq := by
    simp [Transition.edgeStages, Transition.joinStage, padsRead, Stage.pads, Stage.chain, hl, hr]
  filters := by
    simp [Transition.edgeStages, Transition.joinStage, Stage.chain]

/-- A join closes both of its streams. -/
theorem JoinDrawn.segment (hl : left.isPad = false) (hr : right.isPad = false)
    (h : JoinDrawn pair left right join fragment) :
    Segment (joinRequests pair) [] [left, right] fragment.stages [fragment.output] := by
  cases h with
  | concat => exact joinStage_segment _ pair hl hr
  | blend => exact joinStage_segment _ pair hl hr
  | edges => exact edgeStages_segment _ _ _ pair hl hr

/-- The clips of every composition are joined. -/
theorem joinClips_yields (setting : Option TransitionSetting) (timeline : Timeline)
    (first : Label) (others : List Label) :
    ∃ fragment, (joinClips setting timeline first others).Yields (requestsFor [.join, .edge])
      fragment ∧ ClipsJoined setting timeline first others fragment := by
  cases others with
  | nil => exact ⟨_, Builder.yields_pure _ _, .alone⟩
  | cons next rest =>
    by_cases hc : Transition.ofSetting setting = .cut
    · refine ⟨_, ?_, .cut (List.cons_ne_nil _ _) hc⟩
      simp only [joinClips, hc]
      refine .mono (.numbered_bind (Builder.yields_pure _ ∅) (Set.notMem_empty _)) ?_
      rintro r (rfl | hr)
      · exact List.mem_cons_self
      · exact absurd hr (Set.notMem_empty r)
    · have hstep := fun (index : Nat) (right : Label) (_ : right ∈ next :: rest) left ↦
        join_yields (joinAt (Transition.ofSetting setting) ((setting.map (·.duration)).getD 0)
          timeline index) index left right
      obtain ⟨fragment, hy, ht⟩ := Fragment.thread_yields (fun _ _ ↦ disjoint_joinRequests)
        (next :: rest) hstep 0 first
      refine ⟨fragment, ?_, .folded (List.cons_ne_nil _ _) hc ht⟩
      simp only [joinClips]
      exact hy.mono (requestsFrom_subset joinRequests_subset 0)

/-- Joining closes the labels of all clips for one. -/
theorem ClipsJoined.segment {setting : Option TransitionSetting} {timeline : Timeline}
    {first : Label} {others : List Label} (hf : first.isPad = false)
    (ho : ∀ l ∈ others, l.isPad = false)
    (h : ClipsJoined setting timeline first others fragment) :
    Segment (requestsFor [.join, .edge]) [] (first :: others) fragment.stages
      [fragment.output] := by
  cases h with
  | alone => exact .nil _ _
  | cut =>
    have hinputs : ∀ l ∈ first :: others, l.isPad = false :=
      List.forall_mem_cons.mpr ⟨hf, ho⟩
    refine (Segment.single_of_signals ⟨.join, some 0⟩ hinputs (List.cons_ne_nil _ _)).mono ?_
    rintro r rfl
    exact List.mem_cons_self
  | folded _ _ ht =>
    have hside : ∀ right ∈ others, ∀ l ∈ [right], l.isPad = false := by
      intro right hr l hl
      rw [List.mem_singleton.mp hl]
      exact ho right hr
    have hseg := Fragment.Threads.segment (fun _ _ ↦ disjoint_joinRequests)
      (fun hl hr hj ↦ JoinDrawn.segment hl (hr _ List.mem_cons_self) hj) hf hside ht
    rw [List.flatMap_singleton' others] at hseg
    exact hseg.mono (requestsFrom_subset joinRequests_subset 0)

end Montage
