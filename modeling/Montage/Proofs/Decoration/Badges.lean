import Montage.Decoration.Badge
import Montage.Proofs.Composition.Acceptance
import Montage.Proofs.Geometry

/-!
# How far badges reach

The place of a badge is computed with 64-bit words: what its edge leaves of the width of the frame,
and what its padding leaves of that. A badge that reaches further than a word behind the left edge
of the frame has no place, in whatever corner it is meant to stand. For each tier there is a least
authored size from which on badges reach that far.
-/

namespace Montage

open Montage.Numeric (Binary64 twoTo)
open Montage.Geometry (BadgePlacement badgePlacement roundHalfUp scaleToWidth)

namespace Geometry

/-- The padding of a badge with this edge. -/
def badgePadding (edge : ℤ) : ℤ := roundHalfUp (Binary64.ofInt edge * 0.2)

/-- What an edge leaves of the width of a frame, and what its padding leaves of that. -/
def badgeDifferences (width edge : ℤ) : List ℤ := [width - edge, width - edge - badgePadding edge]

theorem badgePadding_mono {a b : ℤ} (h : a ≤ b) : badgePadding a ≤ badgePadding b :=
  roundHalfUp_mono (Binary64.mul_le_mul_right (by decide +kernel) (by decide +kernel)
    (Binary64.ofInt_le_ofInt h))

theorem difference?_eq_some_iff {a b d : ℤ} :
    difference? a b = some d ↔ IsWord (a - b) ∧ a - b = d := by
  unfold difference?
  split
  · next h => simp [h]
  · next h => simp [h]

variable {corner : BadgeCorner} {size : Binary64} {width height : ℕ} {badge : BadgePlacement}

/-- A badge has a place exactly if both differences are words, whatever its corner. -/
theorem exists_badgePlacement_iff :
    (∃ badge, badgePlacement corner size width height = some badge) ↔
      ∀ n ∈ badgeDifferences width (scaleToWidth size width), IsWord n := by
  unfold badgePlacement badgeDifferences badgePadding
  simp only [List.forall_mem_cons, List.not_mem_nil, false_imp_iff, implies_true, and_true,
    Option.bind_eq_bind, Option.bind_eq_some_iff, difference?_eq_some_iff, Option.pure_def,
    Option.some.injEq]
  constructor
  · rintro ⟨badge, rest, ⟨hrest, rfl⟩, right, ⟨hright, rfl⟩, -⟩
    exact ⟨hrest, hright⟩
  · rintro ⟨hrest, hright⟩
    exact ⟨_, _, ⟨hrest, rfl⟩, _, ⟨hright, rfl⟩, rfl⟩

/-- The size and the padding of a badge do not depend on its corner, and in the right corners the
badge with its padding ends at the right edge of the frame. -/
theorem of_badgePlacement (h : badgePlacement corner size width height = some badge) :
    badge.size = scaleToWidth size width ∧ badge.padding = badgePadding badge.size ∧
      (corner = .topRight ∨ corner = .bottomRight →
        badge.x = width - badge.size - badge.padding) := by
  unfold badgePlacement at h
  unfold badgePadding
  simp only [Option.bind_eq_bind, Option.bind_eq_some_iff, difference?_eq_some_iff,
    Option.pure_def, Option.some.injEq] at h
  obtain ⟨rest, ⟨-, rfl⟩, right, ⟨-, rfl⟩, rfl⟩ := h
  dsimp only
  refine ⟨rfl, rfl, ?_⟩
  rintro (rfl | rfl) <;> rfl

end Geometry

/-! ### The least size that reaches too far -/

namespace Quality

/-- The least authored size of a badge that has no place in the frame of a tier. -/
def leastOverflowingSize : Quality → Binary64
  | p720 => 11529215046068471808
  | p1080 => 7686143364045647872
  | k4 => 3843071682022824448

/-- The greatest authored size of a badge that has a place. -/
private def greatestPlacedSize : Quality → Binary64
  | p720 => 11529215046068469760
  | p1080 => 7686143364045646848
  | k4 => 3843071682022823936

/-- How far a badge reaches from the right edge of the frame. -/
private def reach (quality : Quality) (size : Binary64) : ℤ :=
  scaleToWidth size quality.encoding.width +
    Geometry.badgePadding (scaleToWidth size quality.encoding.width)

variable (quality : Quality) {size : Binary64}

private theorem reach_mono {x y : Binary64} (h : x ≤ y) : quality.reach x ≤ quality.reach y :=
  add_le_add (Geometry.scaleToWidth_mono quality h)
    (Geometry.badgePadding_mono (Geometry.scaleToWidth_mono quality h))

/-- From its least size on a badge reaches too far. -/
private theorem lt_reach_iff (hx : size.isNaN = false) :
    quality.encoding.width + twoTo 63 < quality.reach size ↔
      quality.leastOverflowingSize ≤ size := by
  have hfollows : quality.leastOverflowingSize.Follows quality.greatestPlacedSize := by
    cases quality <;> decide +kernel
  have hplaced :
      quality.reach quality.greatestPlacedSize - (quality.encoding.width + twoTo 63) < 1 := by
    cases quality <;> decide +kernel
  have hleast :
      1 ≤ quality.reach quality.leastOverflowingSize - (quality.encoding.width + twoTo 63) := by
    cases quality <;> decide +kernel
  rw [← hfollows.one_le_iff (f := fun x ↦ quality.reach x - (quality.encoding.width + twoTo 63))
    (fun x y h ↦ sub_le_sub_right (quality.reach_mono h) _) hplaced hleast hx]
  omega

/-- A badge with a size has an edge and a padding that are not negative. -/
private theorem edge_nonneg (hpos : 0 < size) :
    0 ≤ scaleToWidth size quality.encoding.width ∧
      0 ≤ Geometry.badgePadding (scaleToWidth size quality.encoding.width) := by
  have hzero : scaleToWidth 0 quality.encoding.width = 0 ∧ Geometry.badgePadding 0 = 0 := by
    cases quality <;> decide +kernel
  have hedge := Geometry.scaleToWidth_mono quality (Binary64.le_of_lt hpos)
  rw [hzero.1] at hedge
  have hpadding := Geometry.badgePadding_mono hedge
  rw [hzero.2] at hpadding
  exact ⟨hedge, hpadding⟩

private theorem isWord_width : 0 ≤ (quality.encoding.width : ℤ) ∧
    Geometry.IsWord quality.encoding.width := by
  cases quality <;> decide +kernel

/-- The differences for a badge with a size are words exactly below the least size that reaches too
far. -/
theorem isWord_differences_iff (hfinite : size.isFinite = true) (hpos : 0 < size) :
    (∀ n ∈ Geometry.badgeDifferences quality.encoding.width
        (scaleToWidth size quality.encoding.width), Geometry.IsWord n) ↔
      size < quality.leastOverflowingSize := by
  have hnumber := Binary64.isNaN_of_isFinite hfinite
  have hleast : quality.leastOverflowingSize.isNaN = false := by
    cases quality <;> decide +kernel
  have hreach := quality.lt_reach_iff hnumber
  have hsize : size < quality.leastOverflowingSize ↔ ¬ quality.leastOverflowingSize ≤ size :=
    ⟨Binary64.not_le_of_lt, Binary64.lt_of_not_le hnumber hleast⟩
  obtain ⟨hedge, hpadding⟩ := quality.edge_nonneg hpos
  have hedgeWord : Geometry.IsWord (scaleToWidth size quality.encoding.width) :=
    Geometry.isWord_roundHalfUp _
  have hpaddingWord : Geometry.IsWord
      (Geometry.badgePadding (scaleToWidth size quality.encoding.width)) :=
    Geometry.isWord_roundHalfUp _
  obtain ⟨hwidth, hwidthWord⟩ := quality.isWord_width
  rw [reach] at hreach
  rw [hsize, ← hreach, Geometry.badgeDifferences]
  unfold Geometry.IsWord at *
  simp only [List.forall_mem_cons, List.not_mem_nil, false_imp_iff, implies_true, and_true]
  omega

end Quality

/-- The badge of a ranking in the frame of a tier, if it has a place there. -/
def Ranking.badge? (ranking : Ranking) (quality : Quality) : Option BadgePlacement :=
  badgePlacement ranking.position ranking.size quality.encoding.width quality.encoding.height

/-- The badges of an accepted ranking have a place exactly below the least size that reaches too
far. -/
theorem Ranking.Accepted.exists_badge_iff {ranking : Ranking} (h : ranking.Accepted)
    (quality : Quality) :
    (∃ badge, ranking.badge? quality = some badge) ↔
      ranking.size < quality.leastOverflowingSize := by
  obtain ⟨hfinite, hpos⟩ := Composition.isPositive_iff.mp h.size
  exact Geometry.exists_badgePlacement_iff.trans (quality.isWord_differences_iff hfinite hpos)

/-- The badges of the composition are drawn, if at all, with a size that has a place. -/
def Composition.BadgesInRange (composition : Composition) : Prop :=
  ∀ ranking ∈ composition.ranking, ranking.enabled = true →
    ranking.size < composition.quality.leastOverflowingSize

instance (composition : Composition) : Decidable composition.BadgesInRange :=
  inferInstanceAs (Decidable (∀ ranking ∈ composition.ranking, ranking.enabled = true →
    ranking.size < composition.quality.leastOverflowingSize))

/-- In an accepted composition the differences for a badge are words exactly if its size is below
the least one of its tier that reaches too far. Exactly then the badge has a place, and in the right
corners the badge with its padding ends at the right edge of the frame. -/
theorem badge_inRange_iff {composition : Composition} (h : composition.check = .ok ())
    {ranking : Ranking} (hr : ranking ∈ composition.ranking) :
    let quality := composition.quality
    let width := quality.encoding.width
    let edge := scaleToWidth ranking.size width
    ((∀ n ∈ Geometry.badgeDifferences width edge, Geometry.IsWord n) ↔
        ranking.size < quality.leastOverflowingSize) ∧
      ((∃ badge, ranking.badge? quality = some badge) ↔
        ranking.size < quality.leastOverflowingSize) ∧
      ∀ badge, ranking.badge? quality = some badge →
        badge.size = edge ∧ badge.padding = Geometry.badgePadding edge ∧
          (ranking.position = .topRight ∨ ranking.position = .bottomRight →
            badge.x = width - badge.size - badge.padding ∧
              badge.x + badge.size + badge.padding = width) := by
  intro quality width edge
  have haccepted := ((Composition.check_eq_ok_iff _).mp h).ranking ranking hr
  obtain ⟨hfinite, hpos⟩ := Composition.isPositive_iff.mp haccepted.size
  refine ⟨quality.isWord_differences_iff hfinite hpos, haccepted.exists_badge_iff quality, ?_⟩
  intro badge hbadge
  obtain ⟨hsize, hpadding, hx⟩ := Geometry.of_badgePlacement hbadge
  rw [hsize] at hpadding
  refine ⟨hsize, hpadding, fun hright ↦ ⟨hx hright, ?_⟩⟩
  rw [hx hright]
  omega

/-- A clip with a badge in one of the corners. -/
def cornerBadge (position : BadgeCorner) (size : Binary64) : Composition where
  clips := [⟨⟨"a.mp4"⟩, 0, 4⟩]
  ranking := some { position, size }

/-- The greatest badge that has a place at 1080p. -/
theorem badge_inRange_greatest :
    (cornerBadge .topRight 7686143364045646848).check = .ok () ∧
      ∃ ranking ∈ (cornerBadge .topRight 7686143364045646848).ranking,
        ∃ badge, ranking.badge? .p1080 = some badge ∧ badge.x = 1080 - badge.size - badge.padding ∧
          badge.x + badge.size + badge.padding = 1080 := by
  have h : (cornerBadge .topRight 7686143364045646848).check = .ok () :=
    (Composition.check_eq_ok_iff _).mpr (Composition.accepted_of_toOption (by decide +kernel))
  have hlt : (7686143364045646848 : Binary64) < Quality.leastOverflowingSize .p1080 := by
    decide +kernel
  obtain ⟨-, hplace, hright⟩ := badge_inRange_iff h rfl
  obtain ⟨badge, hbadge⟩ := hplace.mpr hlt
  exact ⟨h, _, rfl, badge, hbadge, (hright badge hbadge).2.2 (.inl rfl)⟩

/-- The composition is accepted, but its badge has no place in any corner: what the padding would
leave of the frame is no word. -/
theorem not_inRange_cornerBadge :
    (∀ position, (cornerBadge position 1e19).check = .ok ()) ∧
      Geometry.badgeDifferences 1080 (scaleToWidth 1e19 1080) =
        [-9223372036854774727, -11068046444225729991] ∧
      ¬ Geometry.IsWord (-11068046444225729991) ∧
      ∀ position, ∀ ranking ∈ (cornerBadge position 1e19).ranking,
        ranking.badge? .p1080 = none := by
  refine ⟨fun position ↦ (Composition.check_eq_ok_iff _).mpr ?_, by decide +kernel,
    by decide +kernel, ?_⟩
  · apply Composition.accepted_of_toOption
    cases position <;> decide +kernel
  · intro position ranking hr
    obtain rfl : _ = ranking := Option.some.inj hr
    cases position <;> decide +kernel

end Montage
