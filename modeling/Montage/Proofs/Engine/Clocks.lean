import Montage.Engine.Progress
import Montage.Proofs.Numeric.Order
import Montage.Proofs.Text.Patterns

/-!
# Marked clocks

A marker is `time=` before the clock of the engine's position. What a marker is, is said here by the
parts of a text, and the reader finds just these. Its clock is a timestamp unless it has a digit of
another script: such digits are marked as well, but there are no numerals of them.
-/

namespace Montage.Engine

open Montage.Numeric (Binary64 numeral?)
open Montage.Text (isBlank isDigit isDigit_of_isBlank trim_ofList)

/-! ### Markers -/

/-- The fraction of the seconds, and what is behind it. There is one if a dot and a digit follow;
then it takes all digits. -/
inductive Fraction : List Char → List Char → Prop
  | absent {behind : List Char} :
      (∀ c rest, behind = '.' :: c :: rest → isDigit c = false) → Fraction [] behind
  | digits {digits behind : List Char} :
      digits ≠ [] → (∀ c ∈ digits, isDigit c = true) → (∀ c ∈ behind.head?, isDigit c = false) →
      Fraction ('.' :: digits) behind

/-- A text begins with a clock: one or more digits, two times a colon with two digits, and a
fraction. -/
inductive Clock (text clock : List Char) : Prop
  | intro (hours fraction behind : List Char) (m m' s s' : Char) :
      text = clock ++ behind → clock = hours ++ [':', m, m'] ++ [':', s, s'] ++ fraction →
      hours ≠ [] → (∀ c ∈ hours, isDigit c = true) → (∀ c ∈ [m, m', s, s'], isDigit c = true) →
      Fraction fraction behind → Clock text clock

/-- A text begins with a marker: `time=`, white space, and the clock that is marked. -/
inductive Marker (text clock : List Char) : Prop
  | intro (blanks rest : List Char) :
      text = "time=".toList ++ blanks ++ rest → (∀ c ∈ blanks, isBlank c = true) →
      Clock rest clock → Marker text clock

/-! ### Reading a marker -/

theorem fraction_dot (rest : List Char) : fraction ('.' :: rest) =
    if rest.takeWhile isDigit = [] then [] else '.' :: rest.takeWhile isDigit := by
  rw [fraction]
  cases rest.takeWhile isDigit <;> rfl

theorem fraction_of_ne_dot {text : List Char} (h : ∀ rest, text ≠ '.' :: rest) :
    fraction text = [] := by
  unfold fraction
  split
  · exact absurd rfl (h _)
  · rfl

theorem Fraction.fraction_eq {digits behind : List Char} (h : Fraction digits behind) :
    fraction (digits ++ behind) = digits := by
  cases h with
  | absent hbehind =>
    by_cases hdot : ∃ rest, behind = '.' :: rest
    · obtain ⟨rest, rfl⟩ := hdot
      rw [List.nil_append, fraction_dot, if_pos]
      rw [Text.takeWhile_eq_nil_iff]
      intro c hc
      obtain ⟨others, rfl⟩ := List.head?_eq_some_iff.mp hc
      exact hbehind c others rfl
    · exact fraction_of_ne_dot (not_exists.mp hdot)
  | digits hne hdigits hbehind =>
    rw [List.cons_append, fraction_dot,
      (Text.takeWhile_append_stop hdigits _ (Text.takeWhile_eq_nil_iff.mpr hbehind)).1, if_neg hne]

theorem fraction_fraction (text : List Char) :
    ∃ behind, text = fraction text ++ behind ∧ Fraction (fraction text) behind := by
  by_cases hdot : ∃ rest, text = '.' :: rest
  · obtain ⟨rest, rfl⟩ := hdot
    rw [fraction_dot]
    split
    · next hnone =>
      refine ⟨_, rfl, .absent ?_⟩
      rintro c others heq
      obtain rfl := (List.cons.inj heq).2
      exact Text.takeWhile_eq_nil_iff.mp hnone c rfl
    · next hsome =>
      refine ⟨rest.dropWhile isDigit, ?_, .digits hsome (fun c ↦ List.mem_takeWhile_imp) ?_⟩
      · rw [List.cons_append, List.takeWhile_append_dropWhile]
      · intro c hc
        have hstop := List.head?_dropWhile_not isDigit rest
        rwa [hc] at hstop
  · rw [fraction_of_ne_dot (not_exists.mp hdot)]
    exact ⟨text, rfl, .absent fun c rest heq ↦ absurd ⟨_, heq⟩ hdot⟩

theorem twoDigits?_append {a b : Char} (ha : isDigit a = true) (hb : isDigit b = true)
    (rest : List Char) : twoDigits? ([':', a, b] ++ rest) = some ([':', a, b], rest) := by
  simp [twoDigits?, ha, hb]

theorem twoDigits?_eq_some_iff {text pair rest : List Char} :
    twoDigits? text = some (pair, rest) ↔ ∃ a b, isDigit a = true ∧ isDigit b = true ∧
      pair = [':', a, b] ∧ text = [':', a, b] ++ rest := by
  unfold twoDigits?
  split
  · next a b others =>
    simp only [Option.ite_none_right_eq_some, Bool.and_eq_true, Option.some.injEq, Prod.mk.injEq]
    constructor
    · rintro ⟨⟨ha, hb⟩, rfl, rfl⟩
      exact ⟨a, b, ha, hb, rfl, rfl⟩
    · rintro ⟨a', b', ha, hb, rfl, heq⟩
      obtain ⟨⟩ := heq
      exact ⟨⟨ha, hb⟩, rfl, rfl⟩
  · next hother =>
    refine iff_of_false nofun ?_
    rintro ⟨a, b, -, -, -, rfl⟩
    exact hother a b rest rfl

/-- The clock that a text begins with. -/
def clockHere? (text : List Char) : Option (List Char) :=
  match text.takeWhile isDigit with
  | [] => none
  | hours => do
    let (minutes, rest) ← twoDigits? (text.dropWhile isDigit)
    let (seconds, rest) ← twoDigits? rest
    return hours ++ minutes ++ seconds ++ fraction rest

theorem clockHere?_of_nil {text : List Char} (h : text.takeWhile isDigit = []) :
    clockHere? text = none := by
  rw [clockHere?, h]

theorem clockHere?_of_ne_nil {text : List Char} (h : text.takeWhile isDigit ≠ []) :
    clockHere? text = (twoDigits? (text.dropWhile isDigit)).bind fun minutes ↦
      (twoDigits? minutes.2).bind fun seconds ↦
        some (text.takeWhile isDigit ++ minutes.1 ++ seconds.1 ++ fraction seconds.2) := by
  unfold clockHere?
  split
  · contradiction
  · rfl

/-- A marker is read as a clock behind white space. -/
theorem markerHere?_append (rest : List Char) :
    markerHere? ("time=".toList ++ rest) = clockHere? (rest.dropWhile isBlank) := rfl

theorem markerHere?_of_absent {text : List Char} (h : ¬ "time=".toList <+: text) :
    markerHere? text = none := by
  unfold markerHere?
  split
  · exact absurd (List.prefix_append "time=".toList _) h
  · rfl

theorem clockHere?_eq_some_iff {text clock : List Char} :
    clockHere? text = some clock ↔ Clock text clock := by
  constructor
  · intro h
    by_cases hne : text.takeWhile isDigit = []
    · rw [clockHere?_of_nil hne] at h
      contradiction
    · rw [clockHere?_of_ne_nil hne] at h
      obtain ⟨⟨minutes, middle⟩, hminutes, h⟩ := Option.bind_eq_some_iff.mp h
      obtain ⟨⟨seconds, last⟩, hseconds, h⟩ := Option.bind_eq_some_iff.mp h
      obtain rfl := Option.some.inj h
      obtain ⟨m, m', hm, hm', rfl, hmiddle⟩ := twoDigits?_eq_some_iff.mp hminutes
      obtain ⟨s, s', hs, hs', rfl, rfl⟩ := twoDigits?_eq_some_iff.mp hseconds
      obtain ⟨behind, hlast, hfraction⟩ := fraction_fraction last
      refine .intro _ _ behind m m' s s' ?_ rfl hne (fun c ↦ List.mem_takeWhile_imp)
        (by simp [hm, hm', hs, hs']) hfraction
      calc text
        _ = text.takeWhile isDigit ++ text.dropWhile isDigit :=
          List.takeWhile_append_dropWhile.symm
        _ = text.takeWhile isDigit ++
            ([':', m, m'] ++ ([':', s, s'] ++ (fraction last ++ behind))) := by
          rw [hmiddle, ← hlast]
        _ = _ := by simp
  · rintro ⟨hours, fraction', behind, m, m', s, s', rfl, rfl, hne, hhours, hpairs, hfraction⟩
    obtain ⟨hm, hm', hs, hs'⟩ : isDigit m = true ∧ isDigit m' = true ∧ isDigit s = true ∧
      isDigit s' = true := by simpa using hpairs
    obtain ⟨htake, hdrop⟩ := Text.takeWhile_append_stop hhours
      ([':', m, m'] ++ ([':', s, s'] ++ (fraction' ++ behind))) rfl
    simp only [List.append_assoc]
    rw [clockHere?_of_ne_nil (by rwa [htake]), htake, hdrop, twoDigits?_append hm hm',
      Option.bind_some, twoDigits?_append hs hs', Option.bind_some, hfraction.fraction_eq]
    simp

/-- No white space begins a clock. -/
theorem Clock.takeWhile_isBlank {text clock : List Char} (h : Clock text clock) :
    text.takeWhile isBlank = [] := by
  obtain ⟨hours, fraction', behind, m, m', s, s', rfl, rfl, hne, hhours, -, -⟩ := h
  obtain ⟨first, others, rfl⟩ := List.exists_cons_of_ne_nil hne
  rw [Text.takeWhile_eq_nil_iff]
  intro c hc
  obtain rfl : first = c := by simpa using hc
  have hdigit := hhours first List.mem_cons_self
  exact Bool.eq_false_iff.mpr fun hb ↦ by simp [isDigit_of_isBlank hb] at hdigit

/-- A text begins with at most one marker, and the reader finds it. -/
theorem markerHere?_eq_some_iff {text clock : List Char} :
    markerHere? text = some clock ↔ Marker text clock := by
  constructor
  · intro h
    by_cases hlead : "time=".toList <+: text
    · obtain ⟨rest, rfl⟩ := hlead
      rw [markerHere?_append, clockHere?_eq_some_iff] at h
      refine .intro (rest.takeWhile isBlank) _ ?_ (fun c ↦ List.mem_takeWhile_imp) h
      rw [List.append_assoc, List.takeWhile_append_dropWhile]
    · rw [markerHere?_of_absent hlead] at h
      contradiction
  · rintro ⟨blanks, rest, rfl, hblanks, hclock⟩
    rw [List.append_assoc, markerHere?_append,
      (Text.takeWhile_append_stop hblanks _ hclock.takeWhile_isBlank).2]
    exact clockHere?_eq_some_iff.mpr hclock

/-! ### The time of a clock -/

/-- ASCII has no digits but those of numerals. -/
private theorem isDigit_ascii {c : Char} (h : isDigit c = true) (hc : c.toNat < 128) :
    c.isDigit = true := by
  simp only [isDigit, Bool.or_eq_true, Bool.and_eq_true, decide_eq_true_eq] at h
  rcases h with h | ⟨hle, -⟩
  · exact h
  · omega

/-- Digits with a fraction are a number of a timestamp exactly if they are written in ASCII. -/
theorem exists_numeral?_iff {whole fraction behind : List Char} (hne : whole ≠ [])
    (hw : ∀ c ∈ whole, isDigit c = true) (hf : Fraction fraction behind) :
    (∃ value, numeral? (whole ++ fraction) = some value ∧ ¬ value < 0) ↔
      ∀ c ∈ whole ++ fraction, c.toNat < 128 := by
  constructor
  · rintro ⟨value, hvalue, -⟩ c hc
    by_contra hn
    rw [Numeric.numeral?_eq_none hc (Nat.le_of_not_lt hn)] at hvalue
    contradiction
  · intro hascii
    obtain ⟨hwhole, hfraction⟩ := List.forall_mem_append.mp hascii
    have hpoint : fraction = [] ∨
        ∃ digits, fraction = '.' :: digits ∧ ∀ c ∈ digits, c.isDigit = true := by
      cases hf with
      | absent => exact Or.inl rfl
      | digits _ hdigits _ =>
        refine Or.inr ⟨_, rfl, fun c hc ↦ ?_⟩
        exact isDigit_ascii (hdigits c hc) (hfraction c (List.mem_cons_of_mem _ hc))
    obtain ⟨digits, exponent, hnumeral⟩ := Numeric.exists_numeral?_eq_some hne
      (fun c hc ↦ isDigit_ascii (hw c hc) (hwhole c hc)) hpoint
    exact ⟨_, hnumeral, Binary64.not_ofDecimal_lt_zero digits exponent⟩

theorem Fraction.kinds {fraction behind : List Char} (h : Fraction fraction behind) :
    ∀ c ∈ fraction, isDigit c = true ∨ c = '.' := by
  cases h with
  | absent => exact List.forall_mem_nil _
  | digits _ hdigits _ =>
    exact List.forall_mem_cons.mpr ⟨Or.inr rfl, fun c hc ↦ Or.inl (hdigits c hc)⟩

/-- Neither digits nor a dot are a colon or white space. -/
private theorem kinds_ne {c : Char} (h : isDigit c = true ∨ c = '.') :
    c ≠ ':' ∧ isBlank c = false := by
  rcases h with h | rfl
  · refine ⟨?_, Bool.eq_false_iff.mpr fun hb ↦ by simp [isDigit_of_isBlank hb] at h⟩
    rintro rfl
    exact absurd h (by decide)
  · exact ⟨by decide, by decide⟩

/-- A text of three parts is a timestamp exactly if each part is a number. -/
private theorem exists_parse_join_iff {h m s : List Char}
    (hparts : ∀ part ∈ [h, m, s], ∀ c ∈ part, c ≠ ':' ∧ isBlank c = false) :
    (∃ seconds, Timestamp.parse (String.ofList (h ++ ':' :: (m ++ ':' :: s))) = .ok seconds) ↔
      ∀ part ∈ [h, m, s], ∃ value, numeral? part = some value ∧ ¬ value < 0 := by
  have hcolon : ∀ part ∈ [h, m, s], ':' ∉ part := fun part hp hc ↦ (hparts part hp _ hc).1 rfl
  have hblank : ∀ c ∈ h ++ ':' :: (m ++ ':' :: s), isBlank c = false := by
    have hsign : isBlank ':' = false := by decide
    have hh := hparts h (by simp)
    have hm := hparts m (by simp)
    have hs := hparts s (by simp)
    simp only [List.forall_mem_append, List.forall_mem_cons]
    exact ⟨fun c hc ↦ (hh c hc).2, hsign, fun c hc ↦ (hm c hc).2, hsign, fun c hc ↦ (hs c hc).2⟩
  apply Timestamp.exists_parse_eq_ok_iff
  rw [trim_ofList hblank, String.toList_ofList, Timestamp.parts_append_colon (hcolon h (by simp)),
    Timestamp.parts_append_colon (hcolon m (by simp)),
    Timestamp.parts_eq_singleton (hcolon s (by simp))]

private theorem exists_parse_digits_iff {hours minutes seconds fraction behind : List Char}
    (hh : hours ≠ [] ∧ ∀ c ∈ hours, isDigit c = true)
    (hm : minutes ≠ [] ∧ ∀ c ∈ minutes, isDigit c = true)
    (hs : seconds ≠ [] ∧ ∀ c ∈ seconds, isDigit c = true) (hf : Fraction fraction behind) :
    (∃ time, Timestamp.parse (String.ofList
      (hours ++ ':' :: (minutes ++ ':' :: (seconds ++ fraction)))) = .ok time) ↔
        ∀ c ∈ hours ++ ':' :: (minutes ++ ':' :: (seconds ++ fraction)), c.toNat < 128 := by
  have hwhole : Fraction [] [] := .absent nofun
  have hhours := exists_numeral?_iff hh.1 hh.2 hwhole
  have hminutes := exists_numeral?_iff hm.1 hm.2 hwhole
  have hseconds := exists_numeral?_iff hs.1 hs.2 hf
  rw [List.append_nil] at hhours hminutes
  rw [exists_parse_join_iff]
  · have hsign : Char.toNat ':' < 128 := by decide
    simp only [List.forall_mem_append, List.forall_mem_cons, hsign, true_and] at hseconds ⊢
    simp [hhours, hminutes, hseconds]
  · simp only [List.forall_mem_cons, List.forall_mem_append]
    exact ⟨fun c hc ↦ kinds_ne (Or.inl (hh.2 c hc)), fun c hc ↦ kinds_ne (Or.inl (hm.2 c hc)),
      ⟨fun c hc ↦ kinds_ne (Or.inl (hs.2 c hc)), fun c hc ↦ kinds_ne (hf.kinds c hc)⟩,
      List.forall_mem_nil _⟩

/-- A clock is a timestamp unless it has a digit of another script. -/
theorem Clock.exists_parse_iff {text clock : List Char} (h : Clock text clock) :
    (∃ time, Timestamp.parse (String.ofList clock) = .ok time) ↔
      ∀ c ∈ clock, isDigit c = true → c.toNat < 128 := by
  obtain ⟨hours, fraction', behind, m, m', s, s', -, rfl, hne, hhours, hpairs, hfraction⟩ := h
  obtain ⟨hm, hm', hs, hs'⟩ : isDigit m = true ∧ isDigit m' = true ∧ isDigit s = true ∧
    isDigit s' = true := by simpa using hpairs
  have hclock : hours ++ [':', m, m'] ++ [':', s, s'] ++ fraction' =
      hours ++ ':' :: ([m, m'] ++ ':' :: ([s, s'] ++ fraction')) := by simp
  rw [hclock, exists_parse_digits_iff ⟨hne, hhours⟩ ⟨by simp, by simp [hm, hm']⟩
    ⟨by simp, by simp [hs, hs']⟩ hfraction]
  have hkinds : ∀ c ∈ hours ++ ':' :: ([m, m'] ++ ':' :: ([s, s'] ++ fraction')),
      isDigit c = true ∨ c.toNat < 128 := by
    simp only [List.forall_mem_append, List.forall_mem_cons]
    refine ⟨fun c hc ↦ Or.inl (hhours c hc), Or.inr (by decide),
      ⟨Or.inl hm, Or.inl hm', List.forall_mem_nil _⟩, Or.inr (by decide),
      ⟨Or.inl hs, Or.inl hs', List.forall_mem_nil _⟩, fun c hc ↦ ?_⟩
    rcases hfraction.kinds c hc with hdigit | rfl
    · exact Or.inl hdigit
    · exact Or.inr (by decide)
  refine forall₂_congr fun c hc ↦ ⟨fun hascii _ ↦ hascii, fun h ↦ ?_⟩
  exact (hkinds c hc).elim h id

end Montage.Engine
