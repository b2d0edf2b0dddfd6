import Mathlib.Data.Finset.Card
import Mathlib.Data.List.Induction
import Mathlib.Data.List.Nodup
import Montage.TempFiles

/-!
# Tracked paths

How often each path of a set is removed. Tracking a path that is tracked already changes nothing,
but the paths that a set begins with are taken as they are given, with their repetitions.
-/

namespace Montage

namespace FilePath

/-- What all spellings of a path have in common. -/
def place (path : FilePath) : Bool × List String := (path.isAbsolute, path.components)

theorem same_iff {a b : FilePath} : a.same b = true ↔ a.place = b.place := by
  simp [same, place]

/-- How many paths there are when every spelling of a path counts as that path. -/
def distinct (paths : List FilePath) : Nat := (paths.map place).toFinset.card

theorem countP_same (paths : List FilePath) (path : FilePath) :
    paths.countP (·.same path) = (paths.map place).count path.place := by
  rw [List.count, List.countP_map]
  refine congrArg (List.countP · paths) (funext fun other ↦ ?_)
  rw [Function.comp_apply, Bool.eq_iff_iff, beq_iff_eq, same_iff]

theorem pairwise_same_iff {paths : List FilePath} :
    (paths.Pairwise fun a b ↦ a.same b = false) ↔ (paths.map place).Nodup := by
  rw [List.Nodup, List.pairwise_map]
  refine List.Pairwise.iff fun a b ↦ ?_
  rw [Ne, ← same_iff, Bool.not_eq_true]

end FilePath

namespace Cleanup

/-- How many attempts were made to remove a path. -/
def attemptsAt (cleanup : Cleanup) (path : FilePath) : Nat :=
  cleanup.attempts.countP (·.1.same path)

theorem attemptsAt_eq_count {cleanup : Cleanup} {paths : List FilePath}
    (h : cleanup.attempts.map (·.1) = paths) (path : FilePath) :
    cleanup.attemptsAt path = (paths.map FilePath.place).count path.place := by
  rw [← FilePath.countP_same, ← h, List.countP_map]
  rfl

/-- Each of the paths is attempted once, and no more attempts are reported than there are paths. -/
structure Once (cleanup : Cleanup) (paths : List FilePath) : Prop where
  once : ∀ path ∈ paths, cleanup.attemptsAt path = 1
  attempted : cleanup.report.attempted = FilePath.distinct paths

/-- Every attempt is reported, either as a success or as a failure. -/
theorem attempted_report (cleanup : Cleanup) :
    cleanup.report.attempted = cleanup.report.removed + cleanup.report.failed := by
  have hsplit := List.length_eq_countP_add_countP (fun a : FilePath × Option FileFault ↦ a.2.isNone)
    (l := cleanup.attempts)
  refine hsplit.trans (congrArg (_ + ·) (congrArg (List.countP · cleanup.attempts) ?_))
  funext attempt
  cases attempt.2 <;> rfl

end Cleanup

namespace TempFiles

/-- A set that begins with some paths and then tracks others. -/
def tracking (initial tracked : List FilePath) : TempFiles := tracked.foldl track ⟨initial⟩

/-- The places of the tracked paths. -/
def places (set : TempFiles) : List (Bool × List String) := set.paths.map FilePath.place

theorem places_track (set : TempFiles) (path : FilePath) :
    (set.track path).places =
      if path.place ∈ set.places then set.places else set.places ++ [path.place] := by
  have htracked : set.paths.any (·.same path) = true ↔ path.place ∈ set.places := by
    simp only [List.any_eq_true, FilePath.same_iff, places, List.mem_map]
  unfold track
  by_cases h : path.place ∈ set.places
  · rw [if_pos h, if_pos (htracked.mpr h)]
  · rw [if_neg h, if_neg (mt htracked.mp h), places, List.map_append]
    rfl

/-- Tracking keeps what is there and adds only new places, each once. -/
theorem exists_places_tracking (initial tracked : List FilePath) :
    ∃ added : List (Bool × List String),
      (tracking initial tracked).places = initial.map FilePath.place ++ added ∧ added.Nodup ∧
      List.Disjoint (initial.map FilePath.place) added ∧
      ∀ place, place ∈ (tracking initial tracked).places ↔
        place ∈ (initial ++ tracked).map FilePath.place := by
  induction tracked using List.reverseRecOn with
  | nil =>
    refine ⟨[], (List.append_nil _).symm, .nil, List.disjoint_nil_right _, fun place ↦ ?_⟩
    rw [List.append_nil]
    rfl
  | append_singleton tracked path ih =>
    obtain ⟨added, hplaces, hnodup, hdisjoint, hmem⟩ := ih
    have hstep : tracking initial (tracked ++ [path]) = (tracking initial tracked).track path :=
      List.foldl_concat ..
    have hall : ∀ place, place ∈ (initial ++ (tracked ++ [path])).map FilePath.place ↔
        place ∈ (tracking initial tracked).places ∨ place = path.place := by
      intro place
      rw [hmem, ← List.append_assoc, List.map_append, List.mem_append, List.map_singleton,
        List.mem_singleton]
    simp only [hstep, places_track, hall]
    by_cases h : path.place ∈ (tracking initial tracked).places
    · refine ⟨added, by rw [if_pos h, hplaces], hnodup, hdisjoint, fun place ↦ ?_⟩
      rw [if_pos h, or_iff_left_of_imp]
      rintro rfl
      exact h
    · rw [hplaces, List.mem_append, not_or] at h
      refine ⟨added ++ [path.place], ?_, ?_, ?_, fun place ↦ ?_⟩
      · rw [hplaces, if_neg (by rw [List.mem_append, not_or]; exact h), List.append_assoc]
      · exact hnodup.append (List.nodup_singleton _) (List.disjoint_singleton.mpr h.2)
      · exact List.disjoint_append_right.mpr ⟨hdisjoint, List.disjoint_singleton.mpr h.1⟩
      · rw [hplaces, if_neg (by rw [List.mem_append, not_or]; exact h), List.mem_append,
          List.mem_singleton]

/-- A set repeats a path only if it began with the repetition. -/
theorem nodup_places_tracking (initial tracked : List FilePath) :
    (tracking initial tracked).places.Nodup ↔ (initial.map FilePath.place).Nodup := by
  obtain ⟨added, hplaces, hnodup, hdisjoint, -⟩ := exists_places_tracking initial tracked
  rw [hplaces]
  exact ⟨List.Nodup.of_append_left, fun h ↦ h.append hnodup hdisjoint⟩

theorem mem_places_tracking {initial tracked : List FilePath} {path : FilePath}
    (h : path ∈ initial ++ tracked) : path.place ∈ (tracking initial tracked).places := by
  obtain ⟨-, -, -, -, hmem⟩ := exists_places_tracking initial tracked
  exact (hmem path.place).mpr (List.mem_map_of_mem h)

variable (set : TempFiles) (remover : Remover) (files : FileSystem)

theorem attemptsAt_cleanup (path : FilePath) :
    (set.cleanup remover files).attemptsAt path = set.places.count path.place :=
  Cleanup.attemptsAt_eq_count (set.attempts_cleanup remover files) path

theorem attempted_cleanup : (set.cleanup remover files).report.attempted = set.places.length := by
  rw [places, List.length_map, ← set.attempts_cleanup remover files, List.length_map]
  rfl

/-- However a set came to its paths, cleaning it up and dropping it both try to remove each of them,
and every attempt is reported. No path is tried twice, and so there are as many attempts as paths,
exactly if the set did not begin with a repetition. -/
theorem cleanup_once_iff (initial tracked : List FilePath) :
    (tracking initial tracked).drop false remover files =
        (tracking initial tracked).cleanup remover files ∧
      (∀ path ∈ initial ++ tracked,
        0 < ((tracking initial tracked).cleanup remover files).attemptsAt path) ∧
      ((tracking initial tracked).cleanup remover files).report.attempted =
        ((tracking initial tracked).cleanup remover files).report.removed +
          ((tracking initial tracked).cleanup remover files).report.failed ∧
      (((tracking initial tracked).cleanup remover files).Once (initial ++ tracked) ↔
        initial.Pairwise fun a b ↦ a.same b = false) := by
  refine ⟨drop_false _ remover files, fun path hp ↦ ?_, Cleanup.attempted_report _, ?_⟩
  · rw [attemptsAt_cleanup]
    exact List.count_pos_iff.mpr (mem_places_tracking hp)
  rw [FilePath.pairwise_same_iff, ← nodup_places_tracking initial tracked]
  obtain ⟨-, -, -, -, hmem⟩ := exists_places_tracking initial tracked
  constructor
  · intro h
    rw [List.nodup_iff_count_eq_one]
    intro place hp
    obtain ⟨path, hpath, rfl⟩ := List.mem_map.mp ((hmem place).mp hp)
    rw [← attemptsAt_cleanup _ remover files]
    exact h.once path hpath
  · intro h
    constructor
    · intro path hp
      rw [attemptsAt_cleanup]
      exact List.count_eq_one_of_mem h (mem_places_tracking hp)
    · rw [attempted_cleanup, FilePath.distinct, ← List.toFinset_card_of_nodup h]
      congr 1
      ext place
      rw [List.mem_toFinset, List.mem_toFinset, hmem]

/-- One upload that is given for two clips is tried twice. -/
theorem cleanup_repeats_repeated_upload :
    ((tracking [⟨"a.mp4"⟩, ⟨"a.mp4"⟩] []).cleanup FileSystem.remover
        ⟨[(["a.mp4"], .file [] false)]⟩).attemptsAt ⟨"a.mp4"⟩ = 2 ∧
      ((tracking [⟨"a.mp4"⟩, ⟨"a.mp4"⟩] []).cleanup FileSystem.remover
        ⟨[(["a.mp4"], .file [] false)]⟩).report.attempted = 2 ∧
      FilePath.distinct [⟨"a.mp4"⟩, ⟨"a.mp4"⟩] = 1 := by
  refine ⟨(attemptsAt_cleanup ..).trans ?_, attempted_cleanup .., ?_⟩ <;> decide +kernel

end TempFiles

end Montage
