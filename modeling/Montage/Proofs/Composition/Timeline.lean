import Montage.Proofs.Numeric.Order
import Montage.Timeline

/-!
# Windows

The windows of a timeline in closed form. Clips with a length never fail to have one.
-/

namespace Montage.Timeline

open Montage.Numeric (Binary64)

/-- The windows of clips of these lengths, one after the other. -/
def windowsOf (start : Binary64) : List Binary64 → List TimeWindow
  | [] => []
  | duration :: rest => ⟨start, start + duration⟩ :: windowsOf (start + duration) rest

theorem length_windowsOf (start : Binary64) (durations : List Binary64) :
    (windowsOf start durations).length = durations.length := by
  induction durations generalizing start with
  | nil => rfl
  | cons duration rest ih => rw [windowsOf, List.length_cons, ih, List.length_cons]

theorem windowsFrom_eq_ok (index : Nat) (start : Binary64) {durations : List Binary64}
    (h : ∀ duration ∈ durations, Composition.isNonNegative duration = true) :
    windowsFrom index start durations = .ok (windowsOf start durations) := by
  induction durations generalizing index start with
  | nil => rfl
  | cons duration rest ih =>
    have hd := h duration List.mem_cons_self
    have hrest := ih (index + 1) (start + duration) fun d hm ↦ h d (List.mem_cons_of_mem _ hm)
    simp only [windowsFrom, hd, hrest]
    rfl

/-- Lengths that are not negative have a timeline. -/
theorem ofDurations_eq_ok {durations : List Binary64}
    (h : ∀ duration ∈ durations, Composition.isNonNegative duration = true) :
    ofDurations durations = .ok ⟨windowsOf 0 durations⟩ := by
  rw [ofDurations, windowsFrom_eq_ok 0 0 h]
  rfl

/-- The total is the running sum of the lengths. -/
theorem totalDuration_windowsOf (durations : List Binary64) :
    (Timeline.mk (windowsOf 0 durations)).totalDuration = durations.foldl (· + ·) 0 := by
  have hlast : ∀ start : Binary64,
      ((windowsOf start durations).getLast?.map (·.stop)).getD start =
        durations.foldl (· + ·) start := by
    induction durations with
    | nil => exact fun _ ↦ rfl
    | cons duration rest ih =>
      intro start
      rw [windowsOf, List.foldl_cons, ← ih, List.getLast?_cons]
      cases (windowsOf (start + duration) rest).getLast? <;> rfl
  exact hlast 0

/-- Once a sum of lengths is infinite the windows have no length any more. -/
theorem isNaN_duration_succ {start : Binary64} {durations : List Binary64}
    (hs : start.isNaN = false) (hd : ∀ duration ∈ durations, duration.isFinite = true) {index : Nat}
    {window next : TimeWindow} (hw : (windowsOf start durations)[index]? = some window)
    (hn : (windowsOf start durations)[index + 1]? = some next)
    (h : window.duration.isNaN = true) : next.duration.isNaN = true := by
  induction durations generalizing start index with
  | nil => cases hw
  | cons duration rest ih =>
    obtain ⟨hfirst, hrest⟩ := List.forall_mem_cons.mp hd
    have hstop := Binary64.isNaN_add_of_isFinite hs hfirst
    cases index with
    | succ index => exact ih hstop hrest hw hn
    | zero =>
      obtain rfl := Option.some.inj hw
      cases rest with
      | nil => cases hn
      | cons following others =>
        obtain rfl := Option.some.inj hn
        have hinf : start.isFinite = false := by
          rw [Bool.eq_false_iff]
          intro hfinite
          have hnumber := Binary64.isNaN_add_of_isFinite hstop
            ((Binary64.isFinite_neg start).trans hfinite)
          exact absurd (hnumber.symm.trans h) Bool.false_ne_true
        have hsum := Binary64.add_eq_self_of_infinite hs hinf hfirst
        show (start + duration + following - (start + duration)).isNaN = true
        rw [hsum, Binary64.add_eq_self_of_infinite hs hinf (List.forall_mem_cons.mp hrest).1]
        exact Binary64.sub_self_of_infinite hinf

end Montage.Timeline
