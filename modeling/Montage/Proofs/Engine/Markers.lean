import Montage.Proofs.Engine.Progress

/-!
# Progress from a bounded tail

A monitor tells its tracker the tail of the diagnostics after each read; a scanner tells its tracker
all that was read. Both find the same marker unless the last one begins in front of the tail: then
the monitor finds none. So the monitor is never ahead, and it falls behind exactly if some read
leaves more characters behind the last marker than the tail holds, and this marker stands for more
than was reported.
-/

namespace Montage.Engine

open Montage.Numeric (Binary64)

/-! ### Markers at the end of a text -/

/-- No marker begins among the last characters. -/
def NoMarkerWithin (limit : Nat) (text : List Char) : Prop :=
  ∀ ending, ending <:+ text → ending.length ≤ limit → markerHere? ending = none

variable {limit : Nat} {text : List Char}

theorem lastMarker?_eq_none_iff :
    lastMarker? text = none ↔ ∀ ending, ending <:+ text → markerHere? ending = none := by
  induction text with
  | nil => simp [lastMarker?, markerHere?]
  | cons c rest ih =>
    rw [lastMarker?, Option.orElse_eq_orElse, Option.orElse_eq_or, Option.or_eq_none_iff, ih]
    constructor
    · rintro ⟨hrest, hhere⟩ ending hending
      rcases List.suffix_cons_iff.mp hending with rfl | hending
      · exact hhere
      · exact hrest ending hending
    · intro h
      exact ⟨fun ending hending ↦ h ending (hending.trans (List.suffix_cons c rest)),
        h _ List.suffix_rfl⟩

/-- The last marker of an end of a text is that of the text. -/
theorem lastMarker?_append {part marker : List Char} (front : List Char)
    (h : lastMarker? part = some marker) : lastMarker? (front ++ part) = some marker := by
  induction front with
  | nil => exact h
  | cons c front ih => simp [lastMarker?, ih]

theorem lastMarker?_rtake_eq_none_iff :
    lastMarker? (text.rtake limit) = none ↔ NoMarkerWithin limit text := by
  rw [lastMarker?_eq_none_iff]
  constructor
  · intro h ending hending hlength
    exact h ending (Text.suffix_rtake_of_suffix hending hlength)
  · intro h ending hending
    apply h ending (hending.trans (List.drop_suffix _ _))
    apply hending.length_le.trans
    rw [List.rtake, List.length_drop]
    omega

theorem latestTime?_rtake_of_noMarkerWithin (h : NoMarkerWithin limit text) :
    latestTime? (text.rtake limit) = none := by
  rw [latestTime?, lastMarker?_rtake_eq_none_iff.mpr h, Option.bind_none]

/-- A tail with a marker has the last marker. -/
theorem latestTime?_rtake (h : ¬ NoMarkerWithin limit text) :
    latestTime? (text.rtake limit) = latestTime? text := by
  rw [← lastMarker?_rtake_eq_none_iff] at h
  obtain ⟨marker, hmarker⟩ := Option.ne_none_iff_exists'.mp h
  have hwhole := lastMarker?_append (text.take (text.length - limit)) hmarker
  rw [List.rtake, List.take_append_drop] at hwhole
  rw [latestTime?, latestTime?, hmarker, hwhole]

/-! ### A tracker that is told everything -/

/-- All that was read, and a tracker that is told all of it after each read. -/
structure Scanner where
  text : List Char
  tracker : Tracker

namespace Scanner

def ofTotal (total : Binary64) : Scanner := ⟨[], { total }⟩

/-- Takes one read and searches the whole text for the latest marker. -/
def read (scanner : Scanner) (bytes : List UInt8) : Scanner :=
  let text := scanner.text ++ Text.decodeLossy bytes
  ⟨text, (scanner.tracker.observeText text).2⟩

/-- Takes reads in order. -/
def readAll (scanner : Scanner) (reads : List (List UInt8)) : Scanner := reads.foldl read scanner

theorem readAll_concat (scanner : Scanner) (reads : List (List UInt8)) (bytes : List UInt8) :
    scanner.readAll (reads ++ [bytes]) = (scanner.readAll reads).read bytes := by
  rw [readAll, List.foldl_concat, readAll]

theorem text_readAll (total : Binary64) (reads : List (List UInt8)) :
    ((ofTotal total).readAll reads).text = decodedReads reads := by
  induction reads using List.reverseRecOn with
  | nil => rfl
  | append_singleton reads bytes ih =>
    rw [readAll_concat, read, ih]
    simp [decodedReads]

end Scanner

/-! ### What a tracker keeps -/

namespace Tracker

/-- A tracker has reported at least `percent`. -/
def HasReached (tracker : Tracker) (percent : Nat) : Prop :=
  ∃ last, tracker.last = some last ∧ percent ≤ last

theorem advance_snd_total (tracker : Tracker) (percent : Nat) :
    (tracker.advance percent).2.total = tracker.total := by
  unfold advance
  split <;> rfl

/-- The last report of a tracker is the greatest so far. -/
theorem advance_snd_last (tracker : Tracker) (percent : Nat) :
    (tracker.advance percent).2.last = some (tracker.last.elim percent (max percent)) := by
  unfold advance
  cases hlast : tracker.last with
  | none => rfl
  | some last =>
    by_cases h : last < percent
    · simp [h, h.le]
    · simp [h, hlast, Nat.le_of_not_lt h]

theorem advance_snd_last_eq_iff (tracker : Tracker) (percent : Nat) :
    (tracker.advance percent).2.last = tracker.last ↔ tracker.HasReached percent := by
  rw [advance_snd_last, HasReached]
  cases tracker.last with
  | none => simp
  | some last =>
    simp only [Option.elim_some, Option.some.injEq, exists_eq_left']
    omega

/-- A text without a marker changes nothing; any other is weighed against the last report. -/
theorem observeText_snd (tracker : Tracker) (text : List Char) :
    (tracker.observeText text).2 =
      match (Call.text text).percent? tracker.total with
      | some percent => (tracker.advance percent).2
      | none => tracker := by
  have h := congrArg Prod.snd (answer_eq tracker (.text text))
  cases hp : (Call.text text).percent? tracker.total <;> rw [hp] at h <;> exact h

theorem observeText_snd_total (tracker : Tracker) (text : List Char) :
    (tracker.observeText text).2.total = tracker.total := by
  rw [observeText_snd]
  split
  · exact advance_snd_total tracker _
  · rfl

/-- A tracker keeps its last report if the latest marker stands for no more. -/
theorem observeText_snd_last_eq_iff (tracker : Tracker) (text : List Char) :
    (tracker.observeText text).2.last = tracker.last ↔
      ∀ percent, (Call.text text).percent? tracker.total = some percent →
        tracker.HasReached percent := by
  rw [observeText_snd]
  cases (Call.text text).percent? tracker.total with
  | none => simp
  | some percent => simp [advance_snd_last_eq_iff]

theorem hasReached_advance_iff (tracker : Tracker) (percent reached : Nat) :
    (tracker.advance percent).2.HasReached reached ↔
      tracker.HasReached reached ∨ reached ≤ percent := by
  rw [HasReached, HasReached, advance_snd_last]
  cases tracker.last with
  | none => simp
  | some last =>
    simp only [Option.elim_some, Option.some.injEq, exists_eq_left']
    omega

/-- A tracker has reached what it had reached before and what the latest marker stands for. -/
theorem hasReached_observeText_iff (tracker : Tracker) (text : List Char) (reached : Nat) :
    (tracker.observeText text).2.HasReached reached ↔ tracker.HasReached reached ∨
      ∃ percent, (Call.text text).percent? tracker.total = some percent ∧ reached ≤ percent := by
  rw [observeText_snd]
  cases (Call.text text).percent? tracker.total with
  | none => simp
  | some percent => simp [hasReached_advance_iff]

/-- Of a tail without a marker a tracker learns nothing. -/
theorem observeText_rtake_of_noMarkerWithin (tracker : Tracker) (h : NoMarkerWithin limit text) :
    (tracker.observeText (text.rtake limit)).2 = tracker := by
  rw [observeText, latestTime?_rtake_of_noMarkerWithin h]

/-- Of a tail with a marker a tracker learns what it learns of the whole. -/
theorem observeText_rtake (tracker : Tracker) (h : ¬ NoMarkerWithin limit text) :
    tracker.observeText (text.rtake limit) = tracker.observeText text := by
  rw [observeText, observeText, latestTime?_rtake h]

end Tracker

/-! ### Monitor and scanner -/

/-- The monitor and the scanner have reported the same after each read. -/
def SameProgress (total : Binary64) (reads : List (List UInt8)) : Prop :=
  ∀ seen, seen <+: reads →
    ((Monitor.ofTotal total).readAll seen).tracker.last =
      ((Scanner.ofTotal total).readAll seen).tracker.last

/-- A marker that a read leaves in front of the tail stands for no more than was reported before. -/
def MissesNothing (total : Binary64) (reads : List (List UInt8)) : Prop :=
  ∀ seen read, seen ++ [read] <+: reads →
    NoMarkerWithin tailLimit (decodedReads (seen ++ [read])) →
    ∀ percent, (Tracker.Call.text (decodedReads (seen ++ [read]))).percent? total = some percent →
      ((Scanner.ofTotal total).readAll seen).tracker.HasReached percent

variable {total : Binary64} {reads : List (List UInt8)}

theorem Monitor.tracker_readAll_concat (total : Binary64) (reads : List (List UInt8))
    (bytes : List UInt8) :
    ((ofTotal total).readAll (reads ++ [bytes])).tracker =
      (((ofTotal total).readAll reads).tracker.observeText
        ((decodedReads (reads ++ [bytes])).rtake tailLimit)).2 := by
  rw [← text_tail_readAll total, readAll, List.foldl_concat]
  rfl

theorem Scanner.tracker_readAll_concat (total : Binary64) (reads : List (List UInt8))
    (bytes : List UInt8) :
    ((ofTotal total).readAll (reads ++ [bytes])).tracker =
      (((ofTotal total).readAll reads).tracker.observeText
        (decodedReads (reads ++ [bytes]))).2 := by
  rw [← text_readAll total, readAll_concat]
  rfl

theorem Monitor.total_tracker_readAll (total : Binary64) (reads : List (List UInt8)) :
    ((ofTotal total).readAll reads).tracker.total = total := by
  induction reads using List.reverseRecOn with
  | nil => rfl
  | append_singleton reads bytes ih =>
    rw [tracker_readAll_concat, Tracker.observeText_snd_total, ih]

theorem Scanner.total_tracker_readAll (total : Binary64) (reads : List (List UInt8)) :
    ((ofTotal total).readAll reads).tracker.total = total := by
  induction reads using List.reverseRecOn with
  | nil => rfl
  | append_singleton reads bytes ih =>
    rw [tracker_readAll_concat, Tracker.observeText_snd_total, ih]

theorem tracker_eq_of_last_eq {seen : List (List UInt8)}
    (h : ((Monitor.ofTotal total).readAll seen).tracker.last =
      ((Scanner.ofTotal total).readAll seen).tracker.last) :
    ((Monitor.ofTotal total).readAll seen).tracker =
      ((Scanner.ofTotal total).readAll seen).tracker := by
  have htotal := (Monitor.total_tracker_readAll total seen).trans
    (Scanner.total_tracker_readAll total seen).symm
  cases hm : ((Monitor.ofTotal total).readAll seen).tracker
  cases hs : ((Scanner.ofTotal total).readAll seen).tracker
  simp_all

/-- One more read keeps monitor and scanner together, unless the monitor misses its marker. -/
theorem last_readAll_concat_eq_iff {seen : List (List UInt8)} {bytes : List UInt8}
    (h : ((Monitor.ofTotal total).readAll seen).tracker.last =
      ((Scanner.ofTotal total).readAll seen).tracker.last) :
    ((Monitor.ofTotal total).readAll (seen ++ [bytes])).tracker.last =
        ((Scanner.ofTotal total).readAll (seen ++ [bytes])).tracker.last ↔
      (NoMarkerWithin tailLimit (decodedReads (seen ++ [bytes])) →
        ∀ percent,
          (Tracker.Call.text (decodedReads (seen ++ [bytes]))).percent? total = some percent →
            ((Scanner.ofTotal total).readAll seen).tracker.HasReached percent) := by
  rw [Monitor.tracker_readAll_concat, Scanner.tracker_readAll_concat, tracker_eq_of_last_eq h]
  by_cases hmarker : NoMarkerWithin tailLimit (decodedReads (seen ++ [bytes]))
  · rw [Tracker.observeText_rtake_of_noMarkerWithin _ hmarker, eq_comm,
      Tracker.observeText_snd_last_eq_iff, Scanner.total_tracker_readAll]
    simp [hmarker]
  · rw [Tracker.observeText_rtake _ hmarker]
    simp [hmarker]

/-- Looking for markers in the tail only loses no progress exactly if no read leaves a marker in
front of the tail that stands for more than was reported before. -/
theorem sameProgress_iff (total : Binary64) (reads : List (List UInt8)) :
    SameProgress total reads ↔ MissesNothing total reads := by
  constructor
  · intro h seen bytes hseen
    apply (last_readAll_concat_eq_iff (h seen ((List.prefix_append _ _).trans hseen))).mp
    exact h _ hseen
  · intro h seen hseen
    induction seen using List.reverseRecOn with
    | nil => rfl
    | append_singleton seen bytes ih =>
      apply (last_readAll_concat_eq_iff (ih ((List.prefix_append _ _).trans hseen))).mpr
      exact h seen bytes hseen

/-- Whatever the reads, the monitor is never ahead of the scanner. -/
theorem Monitor.hasReached_scanner (total : Binary64) (reads : List (List UInt8)) {percent : Nat}
    (h : ((Monitor.ofTotal total).readAll reads).tracker.HasReached percent) :
    ((Scanner.ofTotal total).readAll reads).tracker.HasReached percent := by
  induction reads using List.reverseRecOn with
  | nil => exact h
  | append_singleton reads bytes ih =>
    rw [Scanner.tracker_readAll_concat, Tracker.hasReached_observeText_iff,
      Scanner.total_tracker_readAll]
    rw [Monitor.tracker_readAll_concat] at h
    by_cases hmarker : NoMarkerWithin tailLimit (decodedReads (reads ++ [bytes]))
    · rw [Tracker.observeText_rtake_of_noMarkerWithin _ hmarker] at h
      exact Or.inl (ih h)
    · rw [Tracker.observeText_rtake _ hmarker, Tracker.hasReached_observeText_iff,
        Monitor.total_tracker_readAll] at h
      exact h.imp_left ih

/-- One read with a marker and more characters behind it than the tail holds. -/
def crowdedRead : List UInt8 :=
  "time=00:00:05.00".toList.map (fun c ↦ c.toNat.toUInt8) ++ List.replicate 2000 0x61

/-- The monitor has reported nothing where the scanner has reported half of the length. -/
theorem not_sameProgress_crowdedRead : ¬ ∀ (total : Binary64) (reads : List (List UInt8)),
    (∀ read ∈ reads, 1 ≤ read.length ∧ read.length ≤ 4096 ∧ ∀ b ∈ read, b < 0x80) →
      SameProgress total reads := by
  intro h
  have hascii : crowdedRead.all (fun b ↦ decide (b < 0x80)) = true := by decide +kernel
  have hread : ∀ read ∈ [crowdedRead], 1 ≤ read.length ∧ read.length ≤ 4096 ∧
      ∀ b ∈ read, b < 0x80 := by
    intro read hmem
    obtain rfl := List.mem_singleton.mp hmem
    refine ⟨by decide +kernel, by decide +kernel, fun b hb ↦ ?_⟩
    exact of_decide_eq_true (List.all_eq_true.mp hascii b hb)
  have hsame := h 10 [crowdedRead] hread [crowdedRead] List.prefix_rfl
  revert hsame
  decide +kernel

end Montage.Engine
