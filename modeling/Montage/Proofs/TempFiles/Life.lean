import Montage.Proofs.TempFiles.Tracking
import Montage.TempFiles.Life

/-!
# Attempts over the life of a set

What a set has tried to remove at the time it is gone, over every course of events. The mark of a
cleaned set is made when a cleanup begins, so that dropping the set during the cleanup does not make
up for the attempts that were still to come.
-/

namespace Montage.TempFiles

namespace Life

/-- What was done so far. -/
def outcome (life : Life) : Cleanup := ⟨life.attempts, life.files⟩

/-- The paths that a course of events comes to: those that a cleanup takes step by step once it has
begun, and all of them otherwise. -/
def reached (set : TempFiles) (events : List Event) : List FilePath :=
  if .cleanUp ∈ events then set.paths.take (events.count .remove) else set.paths

variable {set : TempFiles} {remover : Remover} {files : FileSystem} {events : List Event}
  {life next : Life} {event : Event}

/-- What holds of a set at every moment, after the events so far. A cleanup that is on its way has
done what a cleanup of the first paths does; so has a set that is gone, with the paths reached. -/
inductive Account (set : TempFiles) (remover : Remover) (files : FileSystem) :
    List Event → Life → Prop
  | kept : Account set remover files [] { set, files }
  | cleaning {events : List Event} {life : Life} {pending : List FilePath}
      (hcleaned : life.cleaned = true) (hbegun : .cleanUp ∈ events)
      (hstanding : life.standing = .cleaning pending)
      (hpending : set.paths.drop (events.count .remove) = pending)
      (hdone : life.outcome = cleanup ⟨set.paths.take (events.count .remove)⟩ remover files) :
      Account set remover files events life
  | dropped {events : List Event} {life : Life} (hstanding : life.standing = .dropped)
      (hdone : life.outcome = cleanup ⟨reached set events⟩ remover files) :
      Account set remover files events life

theorem outcome_make (life : Life) (cleanup : Cleanup) :
    (life.make cleanup).outcome = ⟨life.outcome.attempts ++ cleanup.attempts, cleanup.files⟩ := rfl

/-- One attempt more. -/
theorem outcome_make_next {done : List FilePath} {path : FilePath}
    (h : life.outcome = cleanup ⟨done⟩ remover files) :
    (life.make (cleanup ⟨[path]⟩ remover life.files)).outcome =
      cleanup ⟨done ++ [path]⟩ remover files := by
  have hfiles : life.files = (cleanup ⟨done⟩ remover files).files := congrArg Cleanup.files h
  rw [outcome_make, h, cleanup_append, hfiles]

theorem Account.advance (h : Account set remover files events life)
    (hstep : life.advance remover event = some next) :
    Account set remover files (events ++ [event]) next := by
  cases h with
  | kept =>
    cases event with
    | cleanUp =>
      obtain rfl := Option.some.inj hstep
      exact .cleaning rfl List.mem_cons_self rfl rfl rfl
    | remove => cases hstep
    | drop =>
      obtain rfl := Option.some.inj hstep
      refine .dropped rfl ?_
      change Cleanup.mk ([] ++ (set.drop false remover files).attempts)
        (set.drop false remover files).files = _
      rw [drop_false]
      rfl
  | @cleaning _ _ pending hcleaned hbegun hstanding hpending hdone =>
    cases event with
    | cleanUp => simp only [Life.advance, hstanding, reduceCtorEq] at hstep
    | remove =>
      cases pending with
      | nil => simp only [Life.advance, hstanding, reduceCtorEq] at hstep
      | cons path rest =>
        simp only [Life.advance, hstanding, Option.some.injEq] at hstep
        subst hstep
        have hcount : (events ++ [Event.remove]).count .remove = events.count .remove + 1 := by
          rw [List.count_append, List.count_singleton_self]
        have hnext : set.paths[events.count .remove]? = some path := by
          rw [← List.head?_drop, hpending, List.head?_cons]
        refine .cleaning hcleaned (List.mem_append_left _ hbegun) rfl ?_ ?_
        · rw [hcount, ← List.drop_drop, hpending, List.drop_one, List.tail_cons]
        · rw [hcount, List.take_add_one, hnext]
          exact outcome_make_next hdone
    | drop =>
      -- the mark stands since the cleanup began, so nothing more is attempted
      simp only [Life.advance, hstanding, Option.some.injEq, hcleaned, drop_true] at hstep
      subst hstep
      refine .dropped rfl ?_
      change Cleanup.mk (life.attempts ++ []) life.files = _
      rw [List.append_nil, reached, if_pos (List.mem_append_left _ hbegun), List.count_append]
      exact hdone
  | dropped hstanding hdone =>
    cases event <;> simp only [Life.advance, hstanding, reduceCtorEq] at hstep

theorem account_of_run (hrun : run remover { set, files } events = some life) :
    Account set remover files events life := by
  induction events using List.reverseRecOn generalizing life with
  | nil =>
    obtain rfl := Option.some.inj hrun
    exact .kept
  | append_singleton events event ih =>
    rw [run, List.foldlM_append] at hrun
    obtain ⟨before, hbefore, hstep⟩ := Option.bind_eq_some_iff.mp hrun
    rw [List.foldlM_cons] at hstep
    obtain ⟨after, hafter, hnil⟩ := Option.bind_eq_some_iff.mp hstep
    obtain rfl := Option.some.inj hnil
    exact (ih hbefore).advance hafter

/-- When a set is gone, what was done is what a cleanup of the paths reached does. -/
theorem outcome_of_dropped (hrun : run remover { set, files } events = some life)
    (hgone : life.standing = .dropped) :
    life.outcome = cleanup ⟨reached set events⟩ remover files := by
  cases account_of_run hrun with
  | kept => cases hgone
  | cleaning _ _ hstanding => rw [hstanding] at hgone; cases hgone
  | dropped _ hdone => exact hdone

theorem run_append (life : Life) (first second : List Event) :
    run remover life (first ++ second) = (run remover life first).bind (run remover · second) :=
  List.foldlM_append ..

/-- A cleanup makes as many attempts, one after the other, as it is given time for. -/
theorem exists_run_remove {pending : List FilePath} (hstanding : life.standing = .cleaning pending)
    {attempts : ℕ} (h : attempts ≤ pending.length) :
    ∃ next, run remover life (List.replicate attempts .remove) = some next ∧
      next.standing = .cleaning (pending.drop attempts) := by
  induction attempts generalizing life pending with
  | zero => exact ⟨life, rfl, hstanding⟩
  | succ attempts ih =>
    obtain ⟨path, rest, rfl⟩ := List.exists_cons_of_length_pos (Nat.zero_lt_of_lt h)
    let after : Life :=
      { life.make (cleanup ⟨[path]⟩ remover life.files) with standing := .cleaning rest }
    have hstep : life.advance remover .remove = some after := by
      rw [Life.advance, hstanding]
    have hstanding' : after.standing = .cleaning rest := rfl
    obtain ⟨next, hrun, hnext⟩ := ih hstanding' (Nat.le_of_succ_le_succ h)
    refine ⟨next, ?_, hnext⟩
    rw [List.replicate_succ, run, List.foldlM_cons, hstep]
    exact hrun

/-- A cleanup begins, makes some attempts and is given up. -/
def givenUpAfter (attempts : ℕ) : List Event :=
  .cleanUp :: (List.replicate attempts .remove ++ [.drop])

/-- A cleanup can be given up at any time. It has then done what a cleanup of the first paths does,
which is all there is to do if it has come to its end. -/
theorem exists_run_givenUpAfter (set : TempFiles) (remover : Remover) (files : FileSystem)
    (attempts : ℕ) (h : attempts ≤ set.size) :
    ∃ life, run remover { set, files } (givenUpAfter attempts) = some life ∧
      life.standing = .dropped ∧
      life.outcome = cleanup ⟨set.paths.take attempts⟩ remover files := by
  let begun : Life := { set, files, cleaned := true, standing := .cleaning set.paths }
  obtain ⟨last, hlast, hstanding⟩ :
      ∃ last, run remover begun (List.replicate attempts .remove) = some last ∧
        last.standing = .cleaning (set.paths.drop attempts) :=
    exists_run_remove rfl h
  obtain ⟨life, hlife, hgone⟩ :
      ∃ life, run remover last [.drop] = some life ∧ life.standing = .dropped := by
    rw [run, List.foldlM_cons, Life.advance, hstanding]
    exact ⟨_, rfl, rfl⟩
  have hrun : run remover { set, files } (givenUpAfter attempts) = some life := by
    change run remover begun (List.replicate attempts .remove ++ [.drop]) = some life
    rw [run_append, hlast]
    exact hlife
  have hbegun : Event.cleanUp ∈ givenUpAfter attempts := List.mem_cons_self
  have hcount : (givenUpAfter attempts).count .remove = attempts := by
    simp [givenUpAfter]
  refine ⟨life, hrun, hgone, ?_⟩
  rw [outcome_of_dropped hrun hgone, reached, if_pos hbegun, hcount]

/-- Everything is reached unless a cleanup is given up. -/
theorem reached_eq_paths (h : .cleanUp ∈ events → set.size ≤ events.count .remove) :
    reached set events = set.paths := by
  unfold reached
  split
  · next hbegun => exact List.take_of_length_le (h hbegun)
  · rfl

/-- A set that goes without a cleanup, or after a whole one, has been cleaned up. -/
theorem outcome_eq_cleanup (hrun : run remover { set, files } events = some life)
    (hgone : life.standing = .dropped)
    (h : .cleanUp ∈ events → set.size ≤ events.count .remove) :
    life.outcome = set.cleanup remover files := by
  rw [outcome_of_dropped hrun hgone, reached_eq_paths h]

/-- A path that is reached is tried as often as it is repeated among those reached. -/
theorem attemptsAt_of_dropped (hrun : run remover { set, files } events = some life)
    (hgone : life.standing = .dropped) (path : FilePath) :
    life.outcome.attemptsAt path = (places ⟨reached set events⟩).count path.place := by
  rw [outcome_of_dropped hrun hgone, attemptsAt_cleanup]

/-- A path that comes later is not among the first ones. -/
theorem count_places_take (hnodup : set.places.Nodup) {attempts : ℕ} {path : FilePath}
    (h : path ∈ set.paths.drop attempts) :
    (places ⟨set.paths.take attempts⟩).count path.place = 0 := by
  rw [places, ← List.take_append_drop attempts set.paths, List.map_append] at hnodup
  rw [List.count_eq_zero]
  exact fun hm ↦ List.disjoint_of_nodup_append hnodup hm (List.mem_map_of_mem h)

/-- No path is tried twice, whenever the set goes. Each is tried once exactly if the cleanup, if one
began, came to its end. -/
theorem attempted_once_iff (hdistinct : set.paths.Pairwise fun a b ↦ a.same b = false)
    (hrun : run remover { set, files } events = some life) (hgone : life.standing = .dropped) :
    (∀ path ∈ set.paths, life.outcome.attemptsAt path ≤ 1) ∧
      ((∀ path ∈ set.paths, life.outcome.attemptsAt path = 1) ↔
        (.cleanUp ∈ events → set.size ≤ events.count .remove)) := by
  have hnodup : set.places.Nodup := FilePath.pairwise_same_iff.mp hdistinct
  refine ⟨fun path hp ↦ ?_, fun honce hbegun ↦ ?_, fun hended path hp ↦ ?_⟩
  · have hsub : (reached set events).Sublist set.paths := by
      unfold reached
      split
      · exact List.take_sublist ..
      · exact .refl _
    rw [attemptsAt_of_dropped hrun hgone]
    exact List.nodup_iff_count_le_one.mp (hnodup.sublist (hsub.map _)) _
  · by_contra! hlt
    -- a path that the cleanup had not come to is not among those reached
    have hrest : 0 < (set.paths.drop (events.count .remove)).length :=
      List.length_drop ▸ Nat.sub_pos_of_lt hlt
    obtain ⟨path, hmissed⟩ := List.exists_mem_of_length_pos hrest
    have hattempts := honce path (List.mem_of_mem_drop hmissed)
    rw [attemptsAt_of_dropped hrun hgone, reached, if_pos hbegun, count_places_take hnodup hmissed]
      at hattempts
    cases hattempts
  · rw [outcome_eq_cleanup hrun hgone hended, attemptsAt_cleanup]
    exact List.count_eq_one_of_mem hnodup (List.mem_map_of_mem hp)

theorem attempted_once_iff_twoUploads :
    ∃ life, run FileSystem.remover { set := ⟨[⟨"a.mp4"⟩, ⟨"b.mp4"⟩]⟩, files := ⟨[]⟩ }
        (givenUpAfter 1) = some life ∧
      life.standing = .dropped ∧
      ([⟨"a.mp4"⟩, ⟨"b.mp4"⟩] : List FilePath).Pairwise (fun a b ↦ a.same b = false) ∧
      (∀ path ∈ ([⟨"a.mp4"⟩, ⟨"b.mp4"⟩] : List FilePath), life.outcome.attemptsAt path ≤ 1) ∧
      ((∀ path ∈ ([⟨"a.mp4"⟩, ⟨"b.mp4"⟩] : List FilePath), life.outcome.attemptsAt path = 1) ↔
        (.cleanUp ∈ givenUpAfter 1 → 2 ≤ (givenUpAfter 1).count .remove)) := by
  have hdistinct : ([⟨"a.mp4"⟩, ⟨"b.mp4"⟩] : List FilePath).Pairwise
      (fun a b ↦ a.same b = false) := by
    decide +kernel
  obtain ⟨life, hrun, hgone, -⟩ := exists_run_givenUpAfter ⟨[⟨"a.mp4"⟩, ⟨"b.mp4"⟩]⟩
    FileSystem.remover ⟨[]⟩ 1 (by decide)
  exact ⟨life, hrun, hgone, hdistinct, attempted_once_iff hdistinct hrun hgone⟩

/-- A cleanup of two uploads that is given up after the first of them leaves the second alone. -/
theorem cleanup_misses_upload_givenUp :
    ∃ life, run FileSystem.remover { set := ⟨[⟨"a.mp4"⟩, ⟨"b.mp4"⟩]⟩, files := ⟨[]⟩ }
        [.cleanUp, .remove, .drop] = some life ∧
      life.standing = .dropped ∧
      life.outcome.attemptsAt ⟨"a.mp4"⟩ = 1 ∧
      life.outcome.attemptsAt ⟨"b.mp4"⟩ = 0 := by
  obtain ⟨life, hrun, hgone, -⟩ := exists_run_givenUpAfter ⟨[⟨"a.mp4"⟩, ⟨"b.mp4"⟩]⟩
    FileSystem.remover ⟨[]⟩ 1 (by decide)
  refine ⟨life, hrun, hgone, (attemptsAt_of_dropped hrun hgone _).trans ?_,
    (attemptsAt_of_dropped hrun hgone _).trans ?_⟩ <;> decide +kernel

end Life

end Montage.TempFiles
