import Montage.Proofs.Engine.Clocks
import Montage.Proofs.Engine.Markers

/-!
# The latest marker

The engine writes its position again and again. Which of these markers counts is said in three ways
that agree: by a search with a pattern that goes from left to right and continues behind each match,
by a reader that goes from right to left, and by the place of the marker, which is the greatest one.
The markers in front of it make no difference.
-/

namespace Montage.Engine

open Montage.Text (Found Pattern Search Split isBlank isDigit isDigit_of_isBlank)

/-! ### Searching with a pattern -/

/-- The pattern for a colon, two digits and what follows. -/
def twoDigitsThen (next : Pattern) : Pattern :=
  .word [':'] ++ (.one isDigit ++ (.one isDigit ++ next))

/-- The pattern for a fraction. -/
def fractionPattern : Pattern :=
  .optional (.word ['.'] ++ (.one isDigit ++ .many isDigit))

/-- The search of the engine's diagnostics, which is `time=\s*(\d+:\d{2}:\d{2}(?:\.\d+)?)`. -/
def markerSearch : Search where
  lead := .word "time=".toList ++ .many isBlank
  group := .one isDigit ++ (.many isDigit ++ twoDigitsThen (twoDigitsThen fractionPattern))

theorem first?_fractionPattern (text : List Char) :
    (fractionPattern.first? text).map (·.1) = some (fraction text) := by
  rw [fractionPattern, Pattern.first?_optional]
  by_cases hdot : ∃ rest, text = '.' :: rest
  · obtain ⟨rest, rfl⟩ := hdot
    have hdots : '.' :: rest = ['.'] ++ rest := rfl
    rw [fraction_dot, hdots, Pattern.first?_word_append]
    cases rest with
    | nil => rfl
    | cons c others =>
      rw [Pattern.first?_one_append_cons]
      cases hc : isDigit c with
      | true => simp [Pattern.first?, Pattern.splits, Text.head?_runs, Split.prepend, hc]
      | false => simp [hc]
  · have hstart : ¬ ['.'] <+: text := by
      rintro ⟨rest, rfl⟩
      exact hdot ⟨rest, rfl⟩
    rw [Pattern.first?_word_append_of_absent hstart,
      fraction_of_ne_dot (not_exists.mp hdot)]
    rfl

theorem first?_twoDigitsThen (next : Pattern) (text : List Char) :
    (twoDigitsThen next).first? text = (twoDigits? text).bind fun pair ↦
      (next.first? pair.2).map (Split.prepend pair.1) := by
  rw [twoDigitsThen]
  by_cases hcolon : [':'] <+: text
  · obtain ⟨rest, rfl⟩ := hcolon
    rw [Pattern.first?_word_append]
    match rest with
    | [] => rfl
    | [a] =>
      rw [Pattern.first?_one_append_cons, Pattern.first?_one_append_nil]
      simp [twoDigits?]
    | a :: b :: rest =>
      rw [Pattern.first?_one_append_cons, Pattern.first?_one_append_cons]
      have htwo : twoDigits? ([':'] ++ a :: b :: rest) =
        if isDigit a && isDigit b then some ([':', a, b], rest) else none := rfl
      rw [htwo]
      cases isDigit a with
      | false => rfl
      | true =>
        cases isDigit b with
        | false => rfl
        | true => cases hnext : next.first? rest <;> simp [hnext, Split.prepend]
  · rw [Pattern.first?_word_append_of_absent hcolon]
    have hnone : twoDigits? text = none := by
      unfold twoDigits?
      split
      · exact absurd (List.prefix_append [':'] _) hcolon
      · rfl
    rw [hnone, Option.bind_none]

/-- The search takes the clock that is read. -/
theorem first?_group (text : List Char) :
    (markerSearch.group.first? text).map (·.1) = clockHere? text := by
  have hstop : ∀ next c rest, isDigit c = true →
      (twoDigitsThen next).first? (c :: rest) = none := by
    intro next c rest hc
    have hcolon : ¬ [':'] <+: c :: rest := by
      rintro ⟨others, heq⟩
      obtain ⟨rfl, -⟩ := List.cons.inj heq
      exact absurd hc (by decide)
    exact Pattern.first?_word_append_of_absent hcolon
  cases text with
  | nil => rfl
  | cons c rest =>
    rw [markerSearch, Pattern.first?_one_append_cons, Pattern.first?_many_append (hstop _)]
    cases hc : isDigit c with
    | false =>
      rw [clockHere?_of_nil (List.takeWhile_cons_of_neg (by simp [hc]))]
      rfl
    | true =>
      rw [clockHere?_of_ne_nil (by simp [hc]), if_pos rfl, first?_twoDigitsThen,
        List.takeWhile_cons_of_pos hc, List.dropWhile_cons_of_pos hc]
      cases twoDigits? (rest.dropWhile isDigit) with
      | none => rfl
      | some minutes =>
        rw [Option.bind_some, Option.bind_some, first?_twoDigitsThen]
        cases twoDigits? minutes.2 with
        | none => rfl
        | some seconds =>
          obtain ⟨last, hlast, hfraction⟩ :=
            Option.map_eq_some_iff.mp (first?_fractionPattern seconds.2)
          simp [hlast, Split.prepend, ← hfraction]

/-- At each place the search finds the marker that is read there. -/
theorem here?_markerSearch (text : List Char) :
    (markerSearch.here? text).map (·.group) = markerHere? text := by
  by_cases hword : "time=".toList <+: text
  · obtain ⟨rest, rfl⟩ := hword
    rw [Search.here?, markerSearch, Pattern.splits_word_append, List.findSome?_map,
      Pattern.splits, Text.findSome?_runs]
    · rw [markerHere?_append, ← first?_group, Function.comp_apply, Option.map_map]
      rfl
    · -- Behind white space that is given back there is white space, and no clock.
      intro front c others hc
      have hgroup : markerSearch.group.first? (c :: others) = none := by
        rw [markerSearch, Pattern.first?_one_append_cons, isDigit_of_isBlank hc]
        rfl
      exact congrArg (Option.map _) hgroup
  · rw [Search.here?, markerSearch, Pattern.splits_word_append_of_absent hword,
      markerHere?_of_absent hword]
    rfl

/-- What the search takes begins with the first letter of `time=`, which does not occur again. -/
theorem exists_of_here?_markerSearch {text : List Char} {found : Found}
    (h : markerSearch.here? text = some found) :
    ∃ body, text = 't' :: body ++ found.rest ∧ 't' :: body = found.lead ++ found.group ∧
      't' ∉ body := by
  obtain ⟨htext, hlead, hgroup⟩ := Search.of_here?_eq_some h
  obtain ⟨word, blanks, hsplit, rfl, hblanks⟩ := hlead
  have hword : found.lead ++ found.group = 't' :: ("ime=".toList ++ blanks ++ found.group) := by
    rw [hsplit]
    rfl
  refine ⟨"ime=".toList ++ blanks ++ found.group, by rw [htext, hword], hword.symm, ?_⟩
  have hblank : 't' ∉ blanks := hblanks.not_mem (by decide)
  have hclock : 't' ∉ found.group := hgroup.not_mem (by decide)
  simp [hblank, hclock]

/-- The last marker that a search finds behind characters at which none begins is the last one of
the text. -/
theorem getLast?_scan {skip : Nat} {text : List Char} (h : 't' ∉ text.take skip) :
    (markerSearch.scan skip text).getLast? = lastMarker? text := by
  induction text generalizing skip with
  | nil => cases skip <;> rfl
  | cons c rest ih =>
    rw [lastMarker?, Option.orElse_eq_orElse, Option.orElse_eq_or, ← here?_markerSearch]
    cases skip with
    | succ skip =>
      rw [List.take_succ_cons, List.mem_cons, not_or] at h
      have hnone : markerSearch.here? (c :: rest) = none := by
        cases hhere : markerSearch.here? (c :: rest) with
        | none => rfl
        | some found =>
          obtain ⟨body, htext, -, -⟩ := exists_of_here?_markerSearch hhere
          exact absurd (List.cons.inj htext).1.symm h.1
      rw [hnone, Option.map_none, Option.or_none]
      exact ih h.2
    | zero =>
      unfold Search.scan
      cases hhere : markerSearch.here? (c :: rest) with
      | none =>
        rw [Option.map_none, Option.or_none]
        exact ih (by simp)
      | some found =>
        obtain ⟨body, htext, htaken, hbody⟩ := exists_of_here?_markerSearch hhere
        obtain ⟨-, rfl⟩ := List.cons.inj htext
        have hskip : (found.lead ++ found.group).length - 1 = body.length := by
          rw [← htaken, List.length_cons, Nat.add_sub_cancel]
        rw [List.append_eq] at ih ⊢
        have hrest : (markerSearch.scan body.length (body ++ found.rest)).getLast? =
            lastMarker? (body ++ found.rest) := ih (by rwa [List.take_left])
        dsimp only
        rw [hskip, List.getLast?_cons, hrest, Option.map_some, Option.or_some]

/-- The last marker that the search finds from left to right is the one that is read from right to
left. -/
theorem getLast?_captures (text : List Char) :
    (markerSearch.captures text).getLast? = lastMarker? text := getLast?_scan (by simp)

/-! ### The place of the last marker -/

/-- A marker begins at a place of a text. -/
def MarkerAt (text : List Char) (place : Nat) (clock : List Char) : Prop :=
  Marker (text.drop place) clock

/-- A marker begins at a place of a text, and none begins behind this place. -/
structure LastMarkerAt (text : List Char) (place : Nat) (clock : List Char) : Prop where
  here : MarkerAt text place clock
  last : ∀ later other, MarkerAt text later other → later ≤ place

theorem lastMarker?_eq_none_iff_forall {text : List Char} :
    lastMarker? text = none ↔ ∀ place clock, ¬ MarkerAt text place clock := by
  rw [lastMarker?_eq_none_iff]
  constructor
  · intro h place clock hmarker
    have hhere := markerHere?_eq_some_iff.mpr hmarker
    rw [h _ (List.drop_suffix place text)] at hhere
    contradiction
  · rintro h ending ⟨front, rfl⟩
    cases hhere : markerHere? ending with
    | none => rfl
    | some clock =>
      refine absurd ?_ (h front.length clock)
      rw [MarkerAt, List.drop_left]
      exact markerHere?_eq_some_iff.mp hhere

theorem exists_lastMarkerAt {text clock : List Char} (h : lastMarker? text = some clock) :
    ∃ place, LastMarkerAt text place clock := by
  induction text with
  | nil => contradiction
  | cons c rest ih =>
    rw [lastMarker?, Option.orElse_eq_orElse, Option.orElse_eq_or] at h
    cases hrest : lastMarker? rest with
    | some other =>
      rw [hrest, Option.some_or] at h
      obtain rfl := Option.some.inj h
      obtain ⟨place, hhere, hlast⟩ := ih hrest
      refine ⟨place + 1, hhere, fun later other hmarker ↦ ?_⟩
      cases later with
      | zero => exact Nat.zero_le _
      | succ later => exact Nat.succ_le_succ (hlast later other hmarker)
    | none =>
      rw [hrest, Option.none_or, markerHere?_eq_some_iff] at h
      refine ⟨0, h, fun later other hmarker ↦ ?_⟩
      cases later with
      | zero => exact Nat.le_refl 0
      | succ later => exact absurd hmarker (lastMarker?_eq_none_iff_forall.mp hrest later other)

/-- The reader finds a marker exactly if no other begins behind its place. -/
theorem lastMarker?_eq_some_iff {text clock : List Char} :
    lastMarker? text = some clock ↔ ∃ place, LastMarkerAt text place clock := by
  refine ⟨exists_lastMarkerAt, ?_⟩
  rintro ⟨place, hhere, hlast⟩
  cases hfound : lastMarker? text with
  | none => exact absurd hhere (lastMarker?_eq_none_iff_forall.mp hfound place clock)
  | some other =>
    obtain ⟨there, hthere, hlast'⟩ := exists_lastMarkerAt hfound
    obtain rfl := Nat.le_antisymm (hlast there other hthere) (hlast' place clock hhere)
    exact (markerHere?_eq_some_iff.mpr hthere).symm.trans (markerHere?_eq_some_iff.mpr hhere)

/-- What stands before the last marker makes no difference. -/
theorem LastMarkerAt.lastMarker?_append {text clock : List Char} {place : Nat}
    (h : LastMarkerAt text place clock) (front : List Char) :
    lastMarker? (front ++ text.drop place) = some clock := by
  apply Engine.lastMarker?_append
  rw [lastMarker?_eq_some_iff]
  refine ⟨0, h.here, fun later other hmarker ↦ ?_⟩
  rw [MarkerAt, List.drop_drop] at hmarker
  have hle := h.last (place + later) other hmarker
  omega

/-! ### The latest time -/

theorem latestTime?_of_lastMarkerAt {text clock : List Char} {place : Nat}
    (h : LastMarkerAt text place clock) :
    latestTime? text = (Timestamp.parse (String.ofList clock)).toOption := by
  rw [latestTime?, lastMarker?_eq_some_iff.mpr ⟨place, h⟩, Option.bind_some]

private theorem toOption_eq_some_iff {ε α : Type} {result : Except ε α} {value : α} :
    result.toOption = some value ↔ result = .ok value := by
  cases result <;> simp [Except.toOption]

/-- The latest time is that of the marker with the greatest place, if there is a marker and its
digits are those of ASCII. -/
theorem latestTime?_eq_none_iff {text : List Char} : latestTime? text = none ↔
    (∀ place clock, ¬ MarkerAt text place clock) ∨
      ∃ place clock, LastMarkerAt text place clock ∧
        ∃ c ∈ clock, isDigit c = true ∧ 128 ≤ c.toNat := by
  cases hlast : lastMarker? text with
  | none =>
    rw [latestTime?, hlast]
    exact iff_of_true rfl (Or.inl (lastMarker?_eq_none_iff_forall.mp hlast))
  | some clock =>
    obtain ⟨place, hplace⟩ := lastMarker?_eq_some_iff.mp hlast
    obtain ⟨blanks, rest, -, -, hclock⟩ := hplace.here
    have hnone : latestTime? text = none ↔ ∃ c ∈ clock, isDigit c = true ∧ 128 ≤ c.toNat := by
      rw [latestTime?_of_lastMarkerAt hplace, Option.eq_none_iff_forall_ne_some, ← not_exists]
      simp only [toOption_eq_some_iff]
      rw [hclock.exists_parse_iff]
      push Not
      rfl
    rw [hnone]
    constructor
    · exact fun hdigit ↦ Or.inr ⟨place, clock, hplace, hdigit⟩
    · rintro (hno | ⟨there, other, hthere, hdigit⟩)
      · exact absurd hplace.here (hno place clock)
      · have hother := lastMarker?_eq_some_iff.mpr ⟨there, hthere⟩
        obtain rfl := Option.some.inj (hlast.symm.trans hother)
        exact hdigit

/-- The latest time is that of the last clock that the search finds. It is the time of the marker
with the greatest place; none if there is no marker, or one with a digit of another script. Nothing
in front of this marker makes a difference. -/
theorem latestTime?_rightmost (text : List Char) :
    latestTime? text = (markerSearch.captures text).getLast?.bind
        (fun clock ↦ (Timestamp.parse (String.ofList clock)).toOption) ∧
      (∀ time, latestTime? text = some time ↔ ∃ place clock, LastMarkerAt text place clock ∧
        Timestamp.parse (String.ofList clock) = .ok time) ∧
      (latestTime? text = none ↔ (∀ place clock, ¬ MarkerAt text place clock) ∨
        ∃ place clock, LastMarkerAt text place clock ∧
          ∃ c ∈ clock, isDigit c = true ∧ 128 ≤ c.toNat) ∧
      ∀ place clock, LastMarkerAt text place clock →
        ∀ front, latestTime? (front ++ text.drop place) = latestTime? text := by
  refine ⟨?_, fun time ↦ ?_, latestTime?_eq_none_iff, fun place clock h front ↦ ?_⟩
  · rw [latestTime?, getLast?_captures]
  · rw [latestTime?, Option.bind_eq_some_iff]
    simp only [lastMarker?_eq_some_iff, toOption_eq_some_iff]
    constructor
    · rintro ⟨clock, ⟨place, h⟩, hparse⟩
      exact ⟨place, clock, h, hparse⟩
    · rintro ⟨place, clock, h, hparse⟩
      exact ⟨clock, ⟨place, h⟩, hparse⟩
  · rw [latestTime?_of_lastMarkerAt h, latestTime?, h.lastMarker?_append, Option.bind_some]

/-- Of two markers the second one counts, although it stands for less. -/
theorem latestTime?_rightmost_twice : ∃ place clock,
    LastMarkerAt "time=00:00:09.50 q=28.0 time=00:00:05.12 speed=2.0x".toList place clock ∧
      Timestamp.parse (String.ofList clock) = .ok 5.12 := by
  obtain ⟨-, htime, -, -⟩ :=
    latestTime?_rightmost "time=00:00:09.50 q=28.0 time=00:00:05.12 speed=2.0x".toList
  exact (htime 5.12).mp (by decide +kernel)

end Montage.Engine
