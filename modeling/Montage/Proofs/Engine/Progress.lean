import Mathlib.Data.List.Induction
import Montage.Proofs.Engine.Process

/-!
# Progress never falls back

A tracker answers a call exactly if the percentage of the call exceeds those of all calls before it:
what it keeps is their maximum. An engine that runs a process tells one tracker about the
diagnostics while it reads them and about the end when the process succeeded, so its caller sees
increasing percentages, the last of them 100 after a success.
-/

namespace Montage.Engine

open Montage.Numeric (Binary64)

/-- A percentage is at most 100, whatever the position and the length. -/
theorem percentOf_le (seconds total : Binary64) : percentOf seconds total ≤ 100 := by
  have hwithin : ∀ x : Binary64, x.toIntWithin 0 100 ≤ 100 := by
    intro x
    cases x with
    | nan => decide
    | signed negative place =>
      by_cases hinf : place.val = Numeric.infinitePlace
      · cases negative <;> simp [Binary64.toIntWithin, hinf]
      · simp only [Binary64.toIntWithin, if_neg hinf]
        omega
  have hle := hwithin ((seconds / total) * 100)
  unfold percentOf
  split
  · omega
  · omega

namespace Tracker

/-- What a tracker is told. -/
inductive Call where
  | seconds (position : Binary64)
  | text (diagnostics : List Char)
  | finish

/-- The percentage that a call comes to, whatever was reported before. -/
def Call.percent? (total : Binary64) : Call → Option Nat
  | .seconds position => some (percentOf position total)
  | .text diagnostics => (latestTime? diagnostics).map (percentOf · total)
  | .finish => some 100

/-- The percentages of calls in order. -/
def percents (total : Binary64) (calls : List Call) : List Nat :=
  calls.filterMap (Call.percent? total)

/-- Answers a call. -/
def answer (tracker : Tracker) : Call → Option Nat × Tracker
  | .seconds position => tracker.observeSeconds position
  | .text diagnostics => tracker.observeText diagnostics
  | .finish => tracker.finish

/-- Answers calls in order. -/
def answerAll (tracker : Tracker) : List Call → List (Option Nat) × Tracker
  | [] => ([], tracker)
  | call :: rest =>
    let (first, tracker) := tracker.answer call
    let (others, tracker) := tracker.answerAll rest
    (first :: others, tracker)

/-- The percentages that are reported. -/
def reported (tracker : Tracker) (calls : List Call) : List Nat :=
  (tracker.answerAll calls).1.filterMap id

variable {tracker : Tracker} {total : Binary64} {calls : List Call}

theorem percent?_le {call : Call} {p : Nat} (h : call.percent? total = some p) : p ≤ 100 := by
  cases call with
  | seconds position =>
    obtain rfl := Option.some.inj h
    exact percentOf_le position total
  | text diagnostics =>
    obtain ⟨seconds, -, rfl⟩ := Option.map_eq_some_iff.mp h
    exact percentOf_le seconds total
  | finish =>
    obtain rfl := Option.some.inj h
    exact Nat.le_refl 100

/-- A call without a percentage changes nothing; any other is weighed against the last report. -/
theorem answer_eq (tracker : Tracker) (call : Call) :
    tracker.answer call =
      match call.percent? tracker.total with
      | some p => tracker.advance p
      | none => (none, tracker) := by
  cases call with
  | seconds position => rfl
  | text diagnostics =>
    simp only [answer, observeText, Call.percent?]
    cases latestTime? diagnostics <;> rfl
  | finish => rfl

theorem answerAll_append (tracker : Tracker) (xs ys : List Call) :
    tracker.answerAll (xs ++ ys) =
      ((tracker.answerAll xs).1 ++ ((tracker.answerAll xs).2.answerAll ys).1,
        ((tracker.answerAll xs).2.answerAll ys).2) := by
  induction xs generalizing tracker with
  | nil => rfl
  | cons call rest ih => simp [answerAll, ih]

/-- The maximum of percentages with one more behind them. -/
private theorem max?_concat (ps : List Nat) (p : Nat) :
    (ps ++ [p]).max? = if ps.max?.all (· < p) then some p else ps.max? := by
  cases hm : ps.max? with
  | none =>
    rw [List.max?_eq_none_iff.mp hm]
    simp
  | some m =>
    obtain ⟨hmem, hle⟩ := List.max?_eq_some_iff.mp hm
    simp only [Option.all_some, decide_eq_true_eq]
    split
    · next hlt =>
      refine List.max?_eq_some_iff.mpr ⟨by simp, fun q hq ↦ ?_⟩
      rcases List.mem_append.mp hq with hq | hq
      · exact Nat.le_trans (hle q hq) (Nat.le_of_lt hlt)
      · exact Nat.le_of_eq (List.mem_singleton.mp hq)
    · next hge =>
      refine List.max?_eq_some_iff.mpr ⟨List.mem_append_left _ hmem, fun q hq ↦ ?_⟩
      rcases List.mem_append.mp hq with hq | hq
      · exact hle q hq
      · rw [List.mem_singleton.mp hq]
        omega

/-- A tracker at the maximum goes on to the next maximum. -/
private theorem answer_max? (total : Binary64) (ps : List Nat) (call : Call) :
    answer ⟨total, ps.max?⟩ call =
      ((call.percent? total).filter fun p ↦ ps.max?.all (· < p),
        ⟨total, (ps ++ (call.percent? total).toList).max?⟩) := by
  rw [answer_eq]
  dsimp only
  cases call.percent? total with
  | none => simp
  | some p =>
    simp only [advance, Option.toList_some, max?_concat, Option.filter_some]
    split <;> rfl

theorem percents_concat (total : Binary64) (calls : List Call) (call : Call) :
    percents total (calls ++ [call]) = percents total calls ++ (call.percent? total).toList := by
  rw [percents, List.filterMap_append, percents]
  cases h : call.percent? total <;> simp [h]

/-- What a tracker keeps: its length and the maximum of all percentages so far. -/
theorem answerAll_snd (total : Binary64) (calls : List Call) :
    (answerAll { total } calls).2 = ⟨total, (percents total calls).max?⟩ := by
  induction calls using List.reverseRecOn with
  | nil => rfl
  | append_singleton calls call ih =>
    rw [answerAll_append, ih, percents_concat]
    simp only [answerAll, answer_max?]

theorem reported_cons (tracker : Tracker) (call : Call) (rest : List Call) :
    tracker.reported (call :: rest) =
      (tracker.answer call).1.toList ++ (tracker.answer call).2.reported rest := by
  simp only [reported, answerAll]
  cases (tracker.answer call).1 <;> rfl

theorem length_answerAll (tracker : Tracker) (calls : List Call) :
    (tracker.answerAll calls).1.length = calls.length := by
  induction calls generalizing tracker with
  | nil => rfl
  | cons call rest ih => simp [answerAll, ih]

/-- An answer depends on what was kept from the calls before. -/
theorem getElem?_answerAll (tracker : Tracker) (calls : List Call) (i : Nat) :
    (tracker.answerAll calls).1[i]? =
      calls[i]?.map fun call ↦ ((tracker.answerAll (calls.take i)).2.answer call).1 := by
  induction calls generalizing tracker i with
  | nil => rfl
  | cons call rest ih =>
    cases i with
    | zero => rfl
    | succ i => simp [answerAll, ih]

/-- A maximum is below a number if all are. -/
private theorem all_max?_lt (ps : List Nat) (p : Nat) :
    ps.max?.all (· < p) = ps.all (· < p) := by
  cases hm : ps.max? with
  | none =>
    rw [List.max?_eq_none_iff.mp hm]
    rfl
  | some m =>
    obtain ⟨hmem, hle⟩ := List.max?_eq_some_iff.mp hm
    rw [Bool.eq_iff_iff]
    simp only [Option.all_some, decide_eq_true_eq, List.all_eq_true]
    exact ⟨fun hlt q hq ↦ Nat.lt_of_le_of_lt (hle q hq) hlt, fun hall ↦ hall m hmem⟩

/-- A call is answered if its percentage exceeds those of all calls before it. -/
theorem answer_of_getElem? {i : Nat} {call : Call} (h : calls[i]? = some call) :
    (answerAll { total } calls).1[i]? =
      some ((call.percent? total).filter fun p ↦ (percents total (calls.take i)).all (· < p)) := by
  rw [getElem?_answerAll, h, answerAll_snd]
  simp only [Option.map_some, answer_max?, all_max?_lt]

/-- A last call is answered from what was kept of the others. -/
theorem reported_append_singleton (tracker : Tracker) (calls : List Call) (call : Call) :
    tracker.reported (calls ++ [call]) =
      tracker.reported calls ++ ((tracker.answerAll calls).2.answer call).1.toList := by
  rw [reported, answerAll_append, List.filterMap_append, reported]
  simp only [answerAll]
  cases ((tracker.answerAll calls).2.answer call).1 <;> rfl

/-- The last of several calls is reported if its percentage exceeds all others. -/
theorem reported_concat (total : Binary64) (calls : List Call) (call : Call) :
    reported { total } (calls ++ [call]) = reported { total } calls ++
      ((call.percent? total).filter fun p ↦ (percents total calls).all (· < p)).toList := by
  rw [reported_append_singleton, answerAll_snd]
  simp only [answer_max?, all_max?_lt]

theorem mem_percents_of_mem_reported {p : Nat} (h : p ∈ reported { total } calls) :
    p ∈ percents total calls := by
  induction calls using List.reverseRecOn with
  | nil => cases h
  | append_singleton calls call ih =>
    rw [reported_concat, List.mem_append] at h
    rw [percents_concat, List.mem_append]
    rcases h with h | h
    · exact Or.inl (ih h)
    · exact Or.inr (Option.mem_toList.mpr (Option.mem_filter_iff.mp (Option.mem_toList.mp h)).1)

/-- Reports increase. -/
theorem pairwise_reported (total : Binary64) (calls : List Call) :
    (reported { total } calls).Pairwise (· < ·) := by
  induction calls using List.reverseRecOn with
  | nil => exact .nil
  | append_singleton calls call ih =>
    rw [reported_concat, List.pairwise_append]
    refine ⟨ih, ?_, fun q hq p hp ↦ ?_⟩
    · cases (call.percent? total).filter fun p ↦ (percents total calls).all (· < p) <;> simp
    · obtain ⟨-, hall⟩ := Option.mem_filter_iff.mp (Option.mem_toList.mp hp)
      simpa using List.all_eq_true.mp hall q (mem_percents_of_mem_reported hq)

/-- The last report is the maximum of all percentages. -/
theorem getLast?_reported (total : Binary64) (calls : List Call) :
    (reported { total } calls).getLast? = (percents total calls).max? := by
  induction calls using List.reverseRecOn with
  | nil => rfl
  | append_singleton calls call ih =>
    rw [reported_concat, percents_concat]
    cases h : call.percent? total with
    | none => simpa using ih
    | some p =>
      rw [Option.filter_some, Option.toList_some, max?_concat, all_max?_lt]
      split
      · simp
      · simpa using ih

theorem percents_le {p : Nat} (h : p ∈ percents total calls) : p ≤ 100 := by
  obtain ⟨call, -, hp⟩ := List.mem_filterMap.mp h
  exact percent?_le hp

/-- Once the end was told the maximum is 100. -/
theorem max?_percents_of_finish (h : Call.finish ∈ calls) :
    (percents total calls).max? = some 100 :=
  List.max?_eq_some_iff.mpr ⟨List.mem_filterMap.mpr ⟨_, h, rfl⟩, fun _ ↦ percents_le⟩

/-- Once the end was told nothing is reported. -/
theorem answer_eq_none_of_finish {i : Nat} {call : Call} (hi : calls[i]? = some call)
    (h : Call.finish ∈ calls.take i) : (answerAll { total } calls).1[i]? = some none := by
  rw [answer_of_getElem? hi, Option.some.injEq, Option.filter_eq_none_iff]
  intro p hp hall
  have hlt := List.all_eq_true.mp hall 100 (List.mem_filterMap.mpr ⟨_, h, rfl⟩)
  have hle := percent?_le hp
  simp only [decide_eq_true_eq] at hlt
  omega

/-- How a tracker of this length answers calls. -/
structure Increases (total : Binary64) (calls : List Call) : Prop where
  /-- Each call is answered, by its percentage exactly if that exceeds the percentages of all calls
  before it. -/
  length : (answerAll { total } calls).1.length = calls.length
  answered : ∀ (i : Nat) (call : Call), calls[i]? = some call → ∀ p,
    (answerAll { total } calls).1[i]? = some (some p) ↔
      call.percent? total = some p ∧ ∀ q ∈ percents total (calls.take i), q < p
  increasing : (reported { total } calls).Pairwise (· < ·)
  within : ∀ p ∈ percents total calls, p ≤ 100
  /-- What is kept is the maximum. -/
  last : (answerAll { total } calls).2.last = (percents total calls).max?
  /-- After the end nothing is reported. -/
  finished : ∀ (i : Nat) (call : Call), calls[i]? = some call → Call.finish ∈ calls.take i →
    (answerAll { total } calls).1[i]? = some none

theorem increases (total : Binary64) (calls : List Call) : Increases total calls where
  length := length_answerAll _ calls
  answered i call hi p := by
    rw [answer_of_getElem? hi, Option.some.injEq, Option.filter_eq_some_iff]
    simp
  increasing := pairwise_reported total calls
  within _ := percents_le
  last := by rw [answerAll_snd]
  finished _ _ := answer_eq_none_of_finish

end Tracker

namespace Monitor

/-- What a monitor tells its tracker while it takes reads. -/
def calls (monitor : Monitor) : List (List UInt8) → List Tracker.Call
  | [] => []
  | bytes :: rest => .text (monitor.read bytes).tail.text :: calls (monitor.read bytes) rest

/-- Taking reads is answering calls. -/
theorem readAll_eq (monitor : Monitor) (reads : List (List UInt8)) :
    (monitor.readAll reads).tracker = (monitor.tracker.answerAll (monitor.calls reads)).2 ∧
      (monitor.readAll reads).reported =
        monitor.reported ++ monitor.tracker.reported (monitor.calls reads) := by
  induction reads generalizing monitor with
  | nil => simp [readAll, calls, Tracker.answerAll, Tracker.reported]
  | cons bytes rest ih =>
    obtain ⟨htracker, hreported⟩ := ih (monitor.read bytes)
    refine ⟨htracker, hreported.trans ?_⟩
    rw [calls, Tracker.reported_cons, ← List.append_assoc]
    rfl

/-- The calls of a fresh monitor. -/
def callsOf (total : Binary64) (reads : List (List UInt8)) : List Tracker.Call :=
  (ofTotal total).calls reads

theorem reported_readAll (total : Binary64) (reads : List (List UInt8)) :
    ((ofTotal total).readAll reads).reported = Tracker.reported { total } (callsOf total reads) :=
  (readAll_eq (ofTotal total) reads).2

end Monitor

namespace Run

variable {result : Except MediaError Unit} {files : FileSystem}

theorem progress_append (xs ys : List Event) :
    (Run.mk (xs ++ ys) result files).progress =
      (Run.mk xs result files).progress ++ (Run.mk ys result files).progress :=
  List.filterMap_append

theorem progress_map (ps : List Nat) :
    (Run.mk (ps.map Event.progress) result files).progress = ps := by
  rw [Run.progress, List.filterMap_map]
  exact List.filterMap_some

/-- Progress as a caller sees it: it increases up to 100, which a success reaches. -/
structure Increases (run : Run) : Prop where
  increasing : run.progress.Pairwise (· < ·)
  within : ∀ p ∈ run.progress, p ≤ 100
  completes : run.result = .ok () → run.progress.getLast? = some 100

end Run

open Tracker in
/-- What is reported of a process that ended: what its diagnostics told, and after a success the
end. -/
theorem progress_ofExit (total : Binary64) (reads : List (List UInt8)) (status : ExitStatus)
    (files : FileSystem) :
    (ofExit total reads status files).progress = reported { total }
      (Monitor.callsOf total reads ++ if status.isSuccess then [.finish] else []) := by
  obtain ⟨htracker, hreported⟩ := Monitor.readAll_eq (.ofTotal total) reads
  unfold ofExit
  dsimp only
  cases status.isSuccess with
  | true =>
    rw [if_pos rfl, if_pos rfl, Run.progress_append, Run.progress_map, Run.progress_map,
      reported_append_singleton, hreported, htracker]
    rfl
  | false =>
    rw [if_neg Bool.false_ne_true, if_neg Bool.false_ne_true, Run.progress_append,
      Run.progress_map, List.append_nil, hreported]
    exact List.append_nil _

/-- After a success the last report is 100. -/
theorem getLast?_progress_ofExit {total : Binary64} {reads : List (List UInt8)}
    {status : ExitStatus} {files : FileSystem} (h : status.isSuccess = true) :
    (ofExit total reads status files).progress.getLast? = some 100 := by
  rw [progress_ofExit, Tracker.getLast?_reported, if_pos h]
  exact Tracker.max?_percents_of_finish (by simp)

theorem ofExit_increases (total : Binary64) (reads : List (List UInt8)) (status : ExitStatus)
    (files : FileSystem) : (ofExit total reads status files).Increases where
  increasing := by
    rw [progress_ofExit]
    exact Tracker.pairwise_reported total _
  within p hp := by
    rw [progress_ofExit] at hp
    exact Tracker.percents_le (Tracker.mem_percents_of_mem_reported hp)
  completes hok := by
    cases hs : status.isSuccess with
    | true => exact getLast?_progress_ofExit hs
    | false =>
      simp only [ofExit, hs] at hok
      cases hok

/-- Whatever course a process takes, its progress increases. -/
theorem Course.increases {machine : Machine} {binary : String} {request : Request}
    {files : FileSystem} {run : Run} (h : Course machine binary request files run) :
    run.Increases := by
  cases h with
  | notFound => exact ⟨.nil, by simp [Run.progress], nofun⟩
  | notStarted => exact ⟨.nil, by simp [Run.progress], nofun⟩
  | exited => exact ofExit_increases _ _ _ _
  | @killed program execute reads before after left _ _ _ hreported =>
    have hprogress : Run.progress ⟨before.map Event.progress ++
        .log (.info "FFmpeg cancelled, killing process") :: after.map Event.progress,
        .error .cancelled, left⟩ =
          Tracker.reported { total := request.totalDuration }
            (Monitor.callsOf request.totalDuration reads) := by
      rw [← Monitor.reported_readAll, hreported, Run.progress_append, Run.progress_map]
      show before ++ (Run.mk (after.map Event.progress) (.error .cancelled) left).progress = _
      rw [Run.progress_map]
    refine ⟨?_, fun p hp ↦ ?_, nofun⟩
    · rw [hprogress]
      exact Tracker.pairwise_reported _ _
    · rw [hprogress] at hp
      exact Tracker.percents_le (Tracker.mem_percents_of_mem_reported hp)

/-- A tracker of any length reports the strict maxima of what it is told, from the left. So the
progress of a process increases however its diagnostics are cut into reads and however it ends: up
to 100 if it succeeds, and if it fails nothing is reported after its diagnostics ended. -/
theorem progress_increases :
    (∀ (total : Binary64) (calls : List Tracker.Call), Tracker.Increases total calls) ∧
      (∀ (total : Binary64) (reads : List (List UInt8)) (status : ExitStatus)
        (files : FileSystem), (ofExit total reads status files).Increases ∧
          if status.isSuccess then
            (ofExit total reads status files).progress.getLast? = some 100
          else
            (ofExit total reads status files).progress =
              ((Monitor.ofTotal total).readAll reads).reported) ∧
      (∀ (machine : Machine) (binary : String) (request : Request) (files : FileSystem)
        (run : Run), Course machine binary request files run → run.Increases) ∧
      ∀ (machine : Machine) (binary : String) (signalRaised : Bool) (request : Request)
        (files : FileSystem), (ofProcess machine binary signalRaised request files).Increases := by
  refine ⟨Tracker.increases, fun total reads status files ↦ ?_,
    fun _ _ _ _ _ h ↦ h.increases, fun machine binary signalRaised request files ↦ ?_⟩
  · refine ⟨ofExit_increases total reads status files, ?_⟩
    split
    · next hs => exact getLast?_progress_ofExit hs
    · next hs =>
      rw [progress_ofExit, if_neg hs, List.append_nil, Monitor.reported_readAll]
  · exact (ofProcess_course machine binary signalRaised request files).increases

/-- The bytes of a text without other characters than those of ASCII. -/
def asciiBytes (text : String) : List UInt8 := text.toList.map fun c ↦ c.toNat.toUInt8

/-- A program that reports five seconds and succeeds. -/
def halfwayProgram : Executable :=
  fun _ files ↦ ⟨some (.exited 0), [], asciiBytes "time=00:00:05.00", files⟩

/-- A machine with this program. -/
def halfwayMachine : Machine := ⟨"/w", "/bin", [("ffmpeg", halfwayProgram)]⟩

/-- A request for ten seconds. -/
def tenSeconds : Request := ⟨[], ⟨"o"⟩, 10⟩

/-- A report in two reads. -/
def halfwayReads : List (List UInt8) := [asciiBytes "time=00:00:", asciiBytes "05.00"]

/-- The run of the machine for the request if the report arrives like that. -/
def halfwayRun : Run := ofExit tenSeconds.totalDuration halfwayReads (.exited 0) ⟨[]⟩

/-- A position of four seconds is not reported after one of nine; a report that two reads share is
one, and the end comes after it. -/
theorem progress_increases_halfway :
    (∀ p, (Tracker.answerAll { total := 10 } [.seconds 9, .seconds 4, .finish]).1[1]? ≠
      some (some p)) ∧
      Course halfwayMachine "ffmpeg" tenSeconds ⟨[]⟩ halfwayRun ∧
      halfwayRun.progress = [50, 100] ∧ halfwayRun.progress.Pairwise (· < ·) := by
  obtain ⟨htracker, -, hcourse, -⟩ := progress_increases
  have hrun : Course halfwayMachine "ffmpeg" tenSeconds ⟨[]⟩ halfwayRun :=
    @Course.exited halfwayMachine "ffmpeg" tenSeconds ⟨[]⟩ _ halfwayProgram _ halfwayReads rfl rfl
      rfl (by decide)
  refine ⟨fun p hp ↦ ?_, hrun, by decide +kernel, (hcourse _ _ _ _ _ hrun).increasing⟩
  have h := ((htracker 10 [.seconds 9, .seconds 4, .finish]).answered 1 (.seconds 4) rfl p).mp hp
  have hfour : Tracker.Call.percent? 10 (.seconds 4) = some 40 := by decide +kernel
  have hnine : 90 ∈ Tracker.percents 10 [.seconds 9] := by decide +kernel
  obtain rfl := Option.some.inj (hfour.symm.trans h.1)
  exact absurd (h.2 90 hnine) (by decide)

end Montage.Engine
