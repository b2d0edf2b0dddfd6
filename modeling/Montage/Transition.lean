import Montage.Graph.Builder
import Montage.Text.Blank

/-!
# Transitions

What happens between adjacent clips: a hard cut, a blend the engine knows, or a custom effect that
transforms the trailing edge of the left stream and the leading edge of the right stream before
they are blended.
-/

namespace Montage

open Montage.Numeric (Binary64 num)
open Montage.Graph

/-- An effect that the engine does not know. -/
inductive CustomEffect where
  | spin
  | flash
deriving DecidableEq

/-- What happens at a boundary (`TransitionKind`). A blend carries the engine's name for it. -/
inductive Transition where
  | cut
  | blend (name : String)
  | custom (effect : CustomEffect)
deriving DecidableEq

namespace Transition

/-- The blends that the engine knows (`NATIVE_XFADE`). -/
def blends : List String :=
  ["fade", "fadeblack", "fadewhite", "fadegrays", "dissolve", "wipeleft", "wiperight", "wipeup",
   "wipedown", "slideleft", "slideright", "slideup", "slidedown", "smoothleft", "smoothright",
   "smoothup", "smoothdown", "circleopen", "circleclose", "circlecrop", "rectcrop", "radial",
   "pixelize", "distance", "diagtl", "diagtr", "hblur", "zoomin", "squeezeh", "squeezev"]

private def plainName (name : String) : String :=
  String.ofList (((Text.trim name).map Char.toLower).toList.filter fun c =>
    c ≠ '-' && c ≠ '_' && c ≠ ' ')

/-- The names with a meaning of their own. -/
def named : List (String × Transition) :=
  [("none", cut), ("cut", cut), ("crossfade", blend "fade"), ("wipe", blend "wipeleft"),
   ("slide", blend "slideleft"), ("zoom", blend "zoomin"), ("spin", custom .spin),
   ("flash", custom .flash)]

/-- The transition of a name, whatever its case, hyphens, underscores and spaces
(`TransitionKind.parse`). Any other name is that of a blend; a blend that the engine does not know
is a fade. -/
def ofName (name : String) : Transition :=
  let plain := plainName name
  match named.lookup plain with
  | some transition => transition
  | none => if plain ∈ blends then blend plain else blend "fade"

/-- The transition of a composition; without a setting the clips are cut
(`TransitionKind.from_config`). -/
def ofSetting : Option TransitionSetting → Transition
  | some setting => ofName setting.name
  | none => cut

/-- The longest transition in seconds (`MAX_TRANSITION_SECS`). -/
def longest : Binary64 := 2

/-- The duration used for a boundary (`clamp_duration`): brought into `[0, 2]`, then to half the
shorter neighbor. -/
def clampDuration (requested left right : Binary64) : Binary64 :=
  let wanted :=
    if !requested.isFinite then 0
    else if requested < 0 then 0
    else if longest < requested then longest
    else requested
  let limit := (left.min right / 2).max 0
  wanted.min limit

/-- Concatenation of video segments. -/
def concat (count : Nat) : Filter :=
  ⟨"concat", [opt "n" (toString count), opt "v" "1", opt "a" "0"]⟩

/-- A blend of two streams (`xfade`). -/
def blendFilter (name : String) (duration offset : Binary64) : Filter :=
  ⟨"xfade", [opt "transition" name, opt "duration" (num duration), opt "offset" (num offset)]⟩

/-- A quoted expression as it stands; expressions hold nothing that needs protection. -/
def bare (e : Expression) : String := "'" ++ e.render ++ "'"

/-- The filter of an effect whose progress is `progress / duration` while the gate is open
(`effect_filter`). -/
def effectFilter (effect : CustomEffect) (gate progress : Expression)
    (duration : Binary64) : Filter :=
  let ramp (scaled : Expression) : String :=
    bare (.ifElse gate (.div scaled (.decimal duration)) (.whole 0))
  match effect with
  | .spin =>
    ⟨"rotate", [opt "a" (ramp (.mul (.name "PI") progress)), opt "fillcolor" "black"]⟩
  | .flash => ⟨"eq", [opt "brightness" (ramp progress), opt "eval" "frame"]⟩

/-- The transform of the left stream from `offset` on; its progress rises from 0 to 1
(`trailing_edge`). -/
def trailingEdge (effect : CustomEffect) (duration offset : Binary64) : Filter :=
  effectFilter effect (.atLeast .time (.decimal offset))
    (.group (.sub .time (.decimal offset))) duration

/-- The transform of the right stream up to `duration`; its progress falls from 1 to 0
(`leading_edge`). -/
def leadingEdge (effect : CustomEffect) (duration : Binary64) : Filter :=
  effectFilter effect (.lessThan .time (.decimal duration))
    (.group (.sub (.decimal duration) .time)) duration

/-- How two streams become one: back to back, or blended for `duration` seconds from `offset` on in
the left stream, their edges transformed before or not. -/
inductive Join where
  | concat
  | blend (name : String) (duration offset : Binary64)
  | edges (effect : CustomEffect) (duration offset : Binary64)
deriving DecidableEq

/-- The join of a boundary after a clip of length `leftLength`. A cut or an empty transition
concatenates. -/
def join (transition : Transition) (duration leftLength : Binary64) : Join :=
  if duration ≤ 0 then .concat
  else match transition with
    | .cut => .concat
    | .blend name => .blend name duration (leftLength - duration)
    | .custom effect => .edges effect duration (leftLength - duration)

/-- One filter that turns two streams into one. -/
def joinStage (filter : Filter) (left right output : Label) : Stage :=
  ⟨[left, right], [filter], [output]⟩

/-- Both edges transformed, then blended by a fade. -/
def edgeStages (effect : CustomEffect) (duration offset : Binary64)
    (left right leftEdge rightEdge output : Label) : List Stage :=
  [.chain left [trailingEdge effect duration offset] leftEdge,
   .chain right [leadingEdge effect duration] rightEdge,
   joinStage (blendFilter "fade" duration offset) leftEdge rightEdge output]

/-- The stages of a join of two streams at the boundary with number `pair`. -/
def Join.fragment (join : Join) (pair : Nat) (left right : Label) : Builder Fragment := do
  let output ← numbered .join pair
  match join with
  | .concat => return .single (joinStage (Transition.concat 2) left right output) output
  | .blend name duration offset =>
    return .single (joinStage (blendFilter name duration offset) left right output) output
  | .edges effect duration offset =>
    let leftEdge ← numbered .edge (pair * 2)
    let rightEdge ← numbered .edge (pair * 2 + 1)
    return ⟨edgeStages effect duration offset left right leftEdge rightEdge output, output⟩

/-- Joins two streams at the boundary with number `pair`, after a clip of length `leftLength`
(`join_pair`). -/
def joinPair (transition : Transition) (duration leftLength : Binary64) (pair : Nat)
    (left right : Label) : Builder Fragment :=
  (transition.join duration leftLength).fragment pair left right

private theorem mem_blends_of_mem_named :
    ∀ entry ∈ named, ∀ name, entry.2 = blend name → name ∈ blends := by
  intro entry hm name hn
  simp only [named, List.mem_cons, List.not_mem_nil, or_false] at hm
  rcases hm with rfl | rfl | rfl | rfl | rfl | rfl | rfl | rfl <;>
    simp only [reduceCtorEq, blend.injEq] at hn <;> subst hn <;> decide

/-- Every blend is one that the engine knows. -/
theorem blend_mem_blends {name text : String} (h : ofName text = blend name) : name ∈ blends := by
  simp only [ofName] at h
  split at h
  · rename_i transition hl
    obtain ⟨_, _, heq, _⟩ := List.lookup_eq_some_iff.mp hl
    have hm : (plainName text, transition) ∈ named := by simp [heq]
    exact mem_blends_of_mem_named _ hm name h
  · split at h
    · rename_i hm
      injection h with h
      exact h ▸ hm
    · injection h with h
      exact h ▸ by decide

end Transition

end Montage
