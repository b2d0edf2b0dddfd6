import Montage.Proofs.Compile.DrawingOrder
import Montage.Proofs.Decoration.Spelling

/-!
# How programs are spelled

What the numbers, lengths, windows and sizes of a composition have to be for all options of its
program to be spelled in a vocabulary. A property of everything that is written into a program is
proved by choosing the vocabulary.
-/

namespace Montage

open Montage.Numeric (Binary64 num)
open Montage.Graph
open Montage.Decoration (Layer RampIn)

variable {v : Vocabulary}

/-! ### Clips and music -/

private theorem spelled_trimFilters {clip : Clip} (hs : v.number clip.trimStart)
    (hn : v.number clip.duration) (hl : v.length clip.duration) :
    ∀ f ∈ trimFilters clip, f.SpelledIn v := by
  have htrim : (Graph.Filter.mk "trim"
      [opt "start" (num clip.trimStart), opt "duration" (num clip.duration)]).SpelledIn v :=
    spelled_filter (by decide) <| spelled_cons (.number (by decide) hs) <|
      spelled_cons (.length (by decide) hn hl) spelled_nil
  have hsetpts : (Graph.Filter.mk "setpts" [pos "PTS-STARTPTS"]).SpelledIn v :=
    spelled_filter (by decide) <|
      spelled_cons (.atom (by decide) (by decide +kernel)) spelled_nil
  exact List.forall_mem_cons.mpr ⟨htrim, List.forall_mem_singleton.mpr hsetpts⟩

/-- A place in the middle of the space that is left. -/
private def middle (outer inner : String) : Expression :=
  .div (.group (.sub (.name outer) (.name inner))) (.whole 2)

private theorem spelled_middle (outer inner : String) {text : String}
    (hrender : (middle outer inner).render = text)
    (hn : ∀ n ∈ [outer, inner], n ∈ Expression.engineNames) (ht : text ≠ "") :
    (pos text).SpelledIn v := by
  rw [← hrender] at ht ⊢
  exact .placement ht rfl
    ⟨hn, List.forall_mem_nil _, List.forall_mem_singleton.mpr (by decide : (0 : Int) < 2)⟩

private theorem spelled_fitFilters (width height : Nat) {background : String}
    (hb : IsWord background) : ∀ f ∈ fitFilters width height background, f.SpelledIn v := by
  have hnat : ∀ n : Nat, (pos (toString n)).SpelledIn v :=
    fun n ↦ .atom (toString_nat_ne_empty n) (isWord_toString_nat n)
  have hscale : (Graph.Filter.mk "scale"
      [pos (toString width), pos (toString height),
       opt "force_original_aspect_ratio" "decrease"]).SpelledIn v :=
    spelled_filter (by decide) <| spelled_cons (hnat width) <|
      spelled_cons (hnat height) <|
      spelled_cons (.word (by decide) (by decide +kernel)) spelled_nil
  have hpad : (Graph.Filter.mk "pad"
      [pos (toString width), pos (toString height), pos "(ow-iw)/2", pos "(oh-ih)/2",
       opt "color" background]).SpelledIn v :=
    spelled_filter (by decide) <| spelled_cons (hnat width) <|
      spelled_cons (hnat height) <|
      spelled_cons (spelled_middle "ow" "iw" (by decide) (by decide)
        (by decide)) <|
      spelled_cons (spelled_middle "oh" "ih" (by decide) (by decide)
        (by decide)) <|
      spelled_cons (.word (by decide) hb) spelled_nil
  have hsetsar : (Graph.Filter.mk "setsar" [pos "1"]).SpelledIn v :=
    spelled_filter (by decide) <|
      spelled_cons (.atom (by decide) (by decide +kernel)) spelled_nil
  have hfps : (Graph.Filter.mk "fps" [pos "30"]).SpelledIn v :=
    spelled_filter (by decide) <|
      spelled_cons (.atom (by decide) (by decide +kernel)) spelled_nil
  exact List.forall_mem_cons.mpr ⟨hscale, List.forall_mem_cons.mpr ⟨hpad,
    List.forall_mem_cons.mpr ⟨hsetsar, List.forall_mem_singleton.mpr hfps⟩⟩⟩

/-- The start and the length of a clip may be written. -/
structure ClipIn (v : Vocabulary) (clip : Clip) : Prop where
  start : v.number clip.trimStart
  number : v.number clip.duration
  length : v.length clip.duration

private theorem spelled_placedStages {canvas : Canvas} (hb : IsWord canvas.background)
    {clip : Clip} (hc : ClipIn v clip) (index : Nat) (clipLabel canvasLabel placed : Label) :
    ∀ stage ∈ placedStages canvas index clip clipLabel canvasLabel placed,
      stage.SpelledIn v := by
  have hclip : ∀ f ∈ trimFilters clip ++
      fitFilters canvas.width canvas.area.height canvas.background, f.SpelledIn v :=
    List.forall_mem_append.mpr
      ⟨spelled_trimFilters hc.start hc.number hc.length, spelled_fitFilters _ _ hb⟩
  have hcanvas : (canvasFilter canvas clip.duration).SpelledIn v :=
    spelled_colorSource hb (isWord_size (isWord_toString_nat _) (isWord_toString_nat _))
      hc.number hc.length
  have hplace : (Graph.Filter.mk "overlay"
      [pos "0", pos (toString canvas.area.y), opt "shortest" "1"]).SpelledIn v :=
    spelled_filter (by decide) <| spelled_cons (.atom (by decide) (by decide +kernel)) <|
      spelled_cons (.atom (toString_nat_ne_empty _) (isWord_toString_nat _)) <|
      spelled_cons (.word (by decide) (by decide +kernel)) spelled_nil
  exact List.forall_mem_cons.mpr ⟨spelled_chain (by simp [trimFilters]) hclip,
    List.forall_mem_cons.mpr ⟨spelled_single hcanvas,
      List.forall_mem_singleton.mpr (spelled_single hplace)⟩⟩

/-- The volume of the music may be written, and so may its length, that of its fades and where the
last one begins. -/
structure MusicIn (v : Vocabulary) (music : Music) (total : Binary64) : Prop where
  volume : v.number music.volume
  number : v.number total
  length : v.length total
  fadeIn : v.number Soundtrack.fadeLength ∧ v.length Soundtrack.fadeLength
  fadeOut : v.number (Soundtrack.fadeLength.min total) ∧ v.length (Soundtrack.fadeLength.min total)
  fadeStart : v.number ((total - Soundtrack.fadeLength.min total).max 0)

private theorem spelled_musicStage {music : Music} {total : Binary64} (h : MusicIn v music total)
    (input : Nat) (output : Label) :
    (Soundtrack.musicStage music input total output).SpelledIn v := by
  have hvolume : (Soundtrack.volume music.volume).SpelledIn v :=
    spelled_filter (by decide) <| spelled_cons (.amount h.volume) spelled_nil
  have hin : ∀ f ∈ Soundtrack.fadeIn music, f.SpelledIn v := by
    unfold Soundtrack.fadeIn
    split
    · exact List.forall_mem_singleton.mpr (spelled_filter (by decide) <|
        spelled_cons (.word (by decide) (by decide +kernel)) <|
        spelled_cons (.word (by decide) (by decide +kernel)) <|
        spelled_cons (.length (by decide) h.fadeIn.1 h.fadeIn.2) spelled_nil)
    · exact List.forall_mem_nil _
  have hout : ∀ f ∈ Soundtrack.fadeOut music total, f.SpelledIn v := by
    unfold Soundtrack.fadeOut
    dsimp only
    split
    · exact List.forall_mem_singleton.mpr (spelled_filter (by decide) <|
        spelled_cons (.word (by decide) (by decide +kernel)) <|
        spelled_cons (.number (by decide) h.fadeStart) <|
        spelled_cons (.length (by decide) h.fadeOut.1 h.fadeOut.2) spelled_nil)
    · exact List.forall_mem_nil _
  have hatrim : (Graph.Filter.mk "atrim" [opt "duration" (num total)]).SpelledIn v :=
    spelled_filter (by decide) <|
      spelled_cons (.length (by decide) h.number h.length) spelled_nil
  have hasetpts : (Graph.Filter.mk "asetpts" [pos "PTS-STARTPTS"]).SpelledIn v :=
    spelled_filter (by decide) <|
      spelled_cons (.atom (by decide) (by decide +kernel)) spelled_nil
  refine spelled_chain (by simp) ?_
  exact List.forall_mem_append.mpr ⟨List.forall_mem_append.mpr ⟨List.forall_mem_append.mpr
    ⟨List.forall_mem_singleton.mpr hvolume, hin⟩, hout⟩,
    List.forall_mem_cons.mpr ⟨hatrim, List.forall_mem_singleton.mpr hasetpts⟩⟩

/-! ### Joins -/

/-- The length of a blend may be written, also as a divisor, and so may its offset. -/
structure BlendIn (v : Vocabulary) (duration offset : Binary64) : Prop where
  number : v.number duration
  length : v.length duration
  divisor : v.divisor duration
  offset : v.number offset

private theorem spelled_concat (count : Nat) : (Transition.concat count).SpelledIn v :=
  spelled_filter (by decide) <| spelled_cons (.word (by decide) (isWord_toString_nat _)) <|
    spelled_cons (.word (by decide) (by decide +kernel)) <|
    spelled_cons (.word (by decide) (by decide +kernel)) spelled_nil

variable {duration offset : Binary64}

private theorem spelled_blendFilter {name : String} (hn : name ∈ Transition.blends)
    (h : BlendIn v duration offset) :
    (Transition.blendFilter name duration offset).SpelledIn v := by
  have hwords : ∀ name ∈ Transition.blends, IsWord name := by decide +kernel
  exact spelled_filter (by decide) <| spelled_cons (.word (by decide) (hwords name hn)) <|
    spelled_cons (.length (by decide) h.number h.length) <|
    spelled_cons (.number (by decide) h.offset) spelled_nil

/-- Expressions need no protection, so that quotes around them are enough. -/
private theorem spelled_bare {key : String} {e : Expression} (hk : IsFree key)
    (he : e.SpelledIn v) : (opt key (Transition.bare e)).SpelledIn v := by
  have hbare : Transition.bare e = quoted e.render := he.harmless.quoted_eq.symm
  rw [hbare]
  exact .expression hk he

/-- The filter of an effect divides its progress by its length. -/
private theorem spelled_effectFilter {effect : CustomEffect} {gate progress : Expression}
    (hg : gate.SpelledIn v) (hp : progress.SpelledIn v) (hn : v.number duration)
    (hd : v.divisor duration) :
    (Transition.effectFilter effect gate progress duration).SpelledIn v := by
  have hramp : ∀ scaled : Expression, scaled.SpelledIn v →
      (Expression.ifElse gate (.div scaled (.decimal duration)) (.whole 0)).SpelledIn v := by
    intro scaled hs
    constructor
    · have hif : "if" ∈ Expression.engineNames := by decide
      simp only [Expression.ifElse, Expression.names, List.append_nil, List.forall_mem_cons,
        List.forall_mem_append]
      exact ⟨hif, hg.names, hs.names⟩
    · simp only [Expression.ifElse, Expression.decimals, List.append_nil, List.forall_mem_append,
        List.forall_mem_singleton]
      exact ⟨hg.decimals, hs.decimals, hn⟩
    · simp only [Expression.ifElse, Expression.divisors, List.append_nil, List.forall_mem_append,
        List.forall_mem_cons]
      exact ⟨hg.divisors, hd, hs.divisors⟩
  cases effect with
  | spin =>
    have hpi : (Expression.mul (.name "PI") progress).SpelledIn v := by
      refine ⟨?_, hp.decimals, hp.divisors⟩
      exact List.forall_mem_cons.mpr ⟨by decide, hp.names⟩
    exact spelled_filter (by decide) <| spelled_cons (spelled_bare (by decide) (hramp _ hpi)) <|
      spelled_cons (.word (by decide) (by decide +kernel)) spelled_nil
  | flash =>
    exact spelled_filter (by decide) <|
      spelled_cons (spelled_bare (by decide) (hramp _ hp)) <|
      spelled_cons (.word (by decide) (by decide +kernel)) spelled_nil

private theorem spelled_trailingEdge (effect : CustomEffect) (h : BlendIn v duration offset) :
    (Transition.trailingEdge effect duration offset).SpelledIn v := by
  refine spelled_effectFilter ⟨?_, ?_, List.forall_mem_nil _⟩ ⟨?_, ?_, List.forall_mem_nil _⟩
    h.number h.divisor
  · show ∀ n ∈ ["gte", "t"], n ∈ Expression.engineNames
    decide
  · exact List.forall_mem_singleton.mpr h.offset
  · show ∀ n ∈ ["t"], n ∈ Expression.engineNames
    decide
  · exact List.forall_mem_singleton.mpr h.offset

private theorem spelled_leadingEdge (effect : CustomEffect) (h : BlendIn v duration offset) :
    (Transition.leadingEdge effect duration).SpelledIn v := by
  refine spelled_effectFilter ⟨?_, ?_, List.forall_mem_nil _⟩ ⟨?_, ?_, List.forall_mem_nil _⟩
    h.number h.divisor
  · show ∀ n ∈ ["lt", "t"], n ∈ Expression.engineNames
    decide
  · exact List.forall_mem_singleton.mpr h.number
  · show ∀ n ∈ ["t"], n ∈ Expression.engineNames
    decide
  · exact List.forall_mem_singleton.mpr h.number

namespace Composition

variable {composition : Composition}

/-- The name of a blend at a boundary is one that the engine knows. -/
theorem mem_blends_of_joinAfter {boundary : Nat} {name : String}
    (h : composition.joinAfter boundary = .blend name duration offset) :
    name ∈ Transition.blends := by
  rw [joinAfter_eq] at h
  unfold Transition.join at h
  split at h
  · cases h
  · split at h
    · cases h
    · next hs =>
      obtain ⟨rfl, -, -⟩ := Transition.Join.blend.inj h
      unfold Transition.ofSetting at hs
      split at hs
      · exact Transition.blend_mem_blends hs
      · cases hs
    · cases h

/-- What a composition has its program written with is in the vocabulary. -/
structure SpelledIn (v : Vocabulary) (fonts : FontResolver) (composition : Composition) :
    Prop where
  ramp : RampIn v
  clips : ∀ clip ∈ composition.clips, ClipIn v clip
  blends : Transition.ofSetting composition.transition ≠ .cut →
    ∀ boundary, boundary + 1 < composition.clips.length →
      ¬ composition.blendDuration boundary ≤ 0 →
      BlendIn v (composition.blendDuration boundary) (composition.blendOffset boundary)
  layers : ∀ layer ∈ composition.layers, layer.SpelledIn v (composition.scene fonts)
  music : ∀ music ∈ composition.music, MusicIn v music composition.timeline.totalDuration

/-- When only sizes are restricted, they have to be those of the layers. -/
theorem spelledIn_ofSizes {P : Int → Prop} {fonts : FontResolver}
    (h : ∀ layer ∈ composition.layers, ∀ size ∈ layer.sizes (composition.scene fonts), P size) :
    composition.SpelledIn (.ofSizes P) fonts where
  ramp := ⟨trivial, trivial⟩
  clips _ _ := ⟨trivial, trivial, trivial⟩
  blends _ _ _ _ := ⟨trivial, trivial, trivial, trivial⟩
  layers layer hl :=
    ⟨fun _ _ ↦ ⟨trivial, trivial, trivial⟩, h layer hl, fun _ ↦ ⟨trivial, trivial, trivial⟩⟩
  music _ _ := ⟨trivial, trivial, trivial, ⟨trivial, trivial⟩, ⟨trivial, trivial⟩, trivial⟩

private theorem spelled_boundaryStages
    (ht : Transition.ofSetting composition.transition ≠ .cut) {boundary : Nat}
    (h : ¬ composition.blendDuration boundary ≤ 0 →
      BlendIn v (composition.blendDuration boundary) (composition.blendOffset boundary)) :
    ∀ stage ∈ composition.boundaryStages boundary, stage.SpelledIn v := by
  unfold boundaryStages boundaryEffects boundaryJoin
  rcases joinAfter_cases ht boundary with ⟨-, hj⟩ | ⟨hd, ⟨name, hj⟩ | ⟨effect, hj⟩⟩
  · rw [hj]
    exact List.forall_mem_singleton.mpr (spelled_single (spelled_concat 2))
  · have hname := mem_blends_of_joinAfter hj
    rw [hj]
    exact List.forall_mem_singleton.mpr (spelled_single (spelled_blendFilter hname (h hd)))
  · have hfade : "fade" ∈ Transition.blends := by decide
    rw [hj]
    exact List.forall_mem_cons.mpr ⟨spelled_single (spelled_trailingEdge effect (h hd)),
      List.forall_mem_cons.mpr ⟨spelled_single (spelled_leadingEdge effect (h hd)),
        List.forall_mem_singleton.mpr (spelled_single (spelled_blendFilter hfade (h hd)))⟩⟩

end Composition

/-! ### Programs -/

namespace Parts.Fit

variable {fonts : FontResolver} {composition : Composition} {parts : Parts}

private theorem spelled_joining (h : parts.Fit fonts composition) (hn : composition.clips ≠ [])
    (hs : composition.SpelledIn v fonts) :
    ∀ stage ∈ (parts.program composition).joining, stage.SpelledIn v := by
  rw [h.joining_eq hn]
  rcases Composition.joined_cases hn h.joined with ⟨-, hj⟩ | ⟨-, -, hj⟩ | ⟨-, ht, hj⟩
  · rw [hj]
    exact List.forall_mem_nil _
  · rw [hj]
    exact List.forall_mem_singleton.mpr (spelled_single (spelled_concat _))
  · rw [hj]
    refine List.forall_mem_flatMap.mpr fun boundary hb ↦ ?_
    have hlt := List.mem_range.mp hb
    exact Composition.spelled_boundaryStages ht (hs.blends ht boundary (by omega))

private theorem spelled_decorated (h : parts.Fit fonts composition)
    (hs : composition.SpelledIn v fonts) :
    ∀ stage ∈ parts.decorated.stages, stage.SpelledIn v := by
  obtain ⟨drawn, hdrawn, hstages, -⟩ := h.draws
  rw [hstages]
  refine List.forall_mem_flatMap.mpr fun drawing hd ↦ ?_
  obtain ⟨layer, hl, hlayer⟩ := Layer.exists_drawnBy hdrawn drawing hd
  exact hlayer.spelled hs.ramp (hs.layers layer hl)

/-- Every stage of the program of a composition is spelled in its vocabulary. -/
theorem spelled (h : parts.Fit fonts composition) (hn : composition.clips ≠ [])
    (hs : composition.SpelledIn v fonts) :
    ∀ stage ∈ (parts.program composition).stages, stage.SpelledIn v := by
  have hclips : ∀ stage ∈ composition.clipStages parts.background, stage.SpelledIn v := by
    refine List.forall_mem_flatMap.mpr fun p hp ↦ ?_
    exact spelled_placedStages (isWord_engineColor h.background)
      (hs.clips p.1 (List.fst_mem_of_mem_zipIdx hp)) _ _ _ _
  have hmusic : ∀ stage ∈ composition.musicStages, stage.SpelledIn v := by
    intro stage hm
    obtain ⟨music, hsome, rfl⟩ := Option.map_eq_some_iff.mp (Option.mem_toList.mp hm)
    exact spelled_musicStage (hs.music music hsome) _ _
  have hformat : pixelFormatFilter.SpelledIn v :=
    spelled_filter (by decide) <|
      spelled_cons (.atom (by decide) (by decide +kernel)) spelled_nil
  rw [h.stages_eq hn]
  simp only [List.forall_mem_append, List.forall_mem_singleton]
  exact ⟨⟨⟨⟨hclips, h.spelled_joining hn hs⟩, h.spelled_decorated hs⟩, hmusic⟩,
    spelled_single hformat⟩

end Parts.Fit

end Montage
