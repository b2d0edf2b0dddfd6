import Montage.Attempt
import Montage.Numeric.Decimal
import Montage.Numeric.Numeral
import Montage.Text.Blank

/-!
# Clock timestamps

Reading `HH:MM:SS`, `MM:SS` and `SS` as seconds, and writing seconds as `HH:MM:SS` with three
decimals where they matter. The engine reports its position in this notation.
-/

namespace Montage.Timestamp

open Montage.Numeric

/-- The place of a number in a timestamp. -/
inductive Unit where
  | hours
  | minutes
  | seconds
deriving DecidableEq

/-- Why a text is no timestamp (`TimestampError`). -/
inductive Fault where
  | empty
  | negative
  | invalidValue (unit : Unit) (text : String)
  | invalidFormat (text : String)
deriving DecidableEq

def Unit.name : Unit → String
  | hours => "hours"
  | minutes => "minutes"
  | seconds => "seconds"

def Fault.message : Fault → String
  | empty => "Timestamp cannot be empty"
  | negative => "Timestamp cannot be negative"
  | invalidValue unit text => "Invalid " ++ unit.name ++ " value: " ++ text
  | invalidFormat text =>
    "Invalid timestamp format '" ++ text ++ "'. Use HH:MM:SS, MM:SS or SS"

/-- The parts between the colons. -/
def parts : List Char → List (List Char)
  | [] => [[]]
  | ':' :: rest => [] :: parts rest
  | c :: rest =>
    match parts rest with
    | part :: others => (c :: part) :: others
    | [] => [[c]]

private theorem parts_cons {c : Char} (hc : c ≠ ':') (rest : List Char) :
    parts (c :: rest) = match parts rest with
      | part :: others => (c :: part) :: others
      | [] => [[c]] := by
  rw [parts]
  exact hc

theorem parts_eq_singleton {part : List Char} (h : ':' ∉ part) : parts part = [part] := by
  induction part with
  | nil => rfl
  | cons c rest ih =>
    have hc : c ≠ ':' := fun hc => h (hc ▸ List.mem_cons_self)
    rw [parts_cons hc, ih fun hr => h (List.mem_cons_of_mem c hr)]

theorem parts_append_colon {part : List Char} (h : ':' ∉ part) (rest : List Char) :
    parts (part ++ ':' :: rest) = part :: parts rest := by
  induction part with
  | nil => rfl
  | cons c front ih =>
    have hc : c ≠ ':' := fun hc => h (hc ▸ List.mem_cons_self)
    rw [List.cons_append, parts_cons hc, ih fun hf => h (List.mem_cons_of_mem c hf)]

private def addPart (total : Binary64) (unit : Unit) (part : List Char) : Except Fault Binary64 :=
  match numeral? part with
  | none => .error (.invalidValue unit (String.ofList part))
  | some value => if value < 0 then .error .negative else .ok (total * 60 + value)

/-- Reads a timestamp (`parse_timestamp`). Each part counts sixty times the part after it. -/
def parse (text : String) : Except Fault Binary64 :=
  let trimmed := Text.trim text
  match parts trimmed.toList with
  | [[]] => .error .empty
  | [s] => addPart 0 .seconds s
  | [m, s] => do addPart (← addPart 0 .minutes m) .seconds s
  | [h, m, s] => do addPart (← addPart (← addPart 0 .hours h) .minutes m) .seconds s
  | _ => .error (.invalidFormat trimmed)

private theorem addPart_eq_ok_iff {total : Binary64} {unit : Unit} {part : List Char}
    {sum : Binary64} : addPart total unit part = .ok sum ↔
      ∃ value, numeral? part = some value ∧ ¬ value < 0 ∧ sum = total * 60 + value := by
  unfold addPart
  cases numeral? part with
  | none => simp
  | some value => by_cases hn : value < 0 <;> simp [hn, eq_comm]

/-- The seconds that the numbers of a timestamp stand for. -/
def inSeconds (values : List Binary64) : Binary64 :=
  values.foldl (fun total value => total * 60 + value) 0

/-- Parts are added up if they are numerals that are not negative. -/
private theorem addParts_eq_ok_iff {pieces : List (Unit × List Char)} {total seconds : Binary64} :
    pieces.foldlM (fun total piece => addPart total piece.1 piece.2) total = .ok seconds ↔
      ∃ values : List Binary64, pieces.map (fun piece => numeral? piece.2) = values.map some ∧
        (∀ value ∈ values, ¬ value < 0) ∧
          seconds = values.foldl (fun total value => total * 60 + value) total := by
  induction pieces generalizing total with
  | nil =>
    constructor
    · intro h
      exact ⟨[], rfl, List.forall_mem_nil _, (Except.ok.inj h).symm⟩
    · rintro ⟨values, hmap, -, rfl⟩
      rw [List.map_eq_nil_iff.mp hmap.symm]
      rfl
  | cons piece pieces ih =>
    rw [List.foldlM_cons, bind_eq_ok_iff]
    constructor
    · rintro ⟨sum, hsum, hrest⟩
      obtain ⟨value, hvalue, hn, rfl⟩ := addPart_eq_ok_iff.mp hsum
      obtain ⟨values, hmap, hnonneg, rfl⟩ := ih.mp hrest
      refine ⟨value :: values, ?_, List.forall_mem_cons.mpr ⟨hn, hnonneg⟩, rfl⟩
      rw [List.map_cons, List.map_cons, hvalue, hmap]
    · rintro ⟨values, hmap, hnonneg, rfl⟩
      cases values with
      | nil => cases hmap
      | cons value values =>
        obtain ⟨hvalue, hmap⟩ := List.cons.inj hmap
        obtain ⟨hn, hnonneg⟩ := List.forall_mem_cons.mp hnonneg
        exact ⟨_, addPart_eq_ok_iff.mpr ⟨value, hvalue, hn, rfl⟩,
          ih.mpr ⟨values, hmap, hnonneg, rfl⟩⟩

/-- One to three numerals that are not negative are read as their seconds. -/
theorem parse_eq_ok_iff {text : String} {seconds : Binary64} :
    parse text = .ok seconds ↔
      (parts (Text.trim text).toList).length ∈ [1, 2, 3] ∧
        ∃ values, (parts (Text.trim text).toList).map numeral? = values.map some ∧
          (∀ value ∈ values, ¬ value < 0) ∧ seconds = inSeconds values := by
  have hadd := fun pieces => @addParts_eq_ok_iff pieces 0 seconds
  unfold parse inSeconds
  dsimp only
  split
  · next hparts =>
    rw [hparts]
    refine ⟨fun h => (nomatch h), ?_⟩
    rintro ⟨-, values, hmap, -⟩
    cases values with
    | nil => cases hmap
    | cons => cases hmap
  · next s _ hparts =>
    have hone := hadd [(.seconds, s)]
    simp only [List.foldlM_cons, List.foldlM_nil, bind_pure] at hone
    rw [hparts, hone]
    simp
  · next m s hparts =>
    have htwo := hadd [(.minutes, m), (.seconds, s)]
    simp only [List.foldlM_cons, List.foldlM_nil, bind_pure] at htwo
    rw [hparts, htwo]
    simp
  · next h m s hparts =>
    have hthree := hadd [(.hours, h), (.minutes, m), (.seconds, s)]
    simp only [List.foldlM_cons, List.foldlM_nil, bind_pure] at hthree
    rw [hparts, hthree]
    simp
  · next hnone hone htwo hthree =>
    generalize parts (Text.trim text).toList = pieces at *
    match pieces with
    | [] => simp
    | [s] => exact absurd rfl (hone s)
    | [m, s] => exact absurd rfl (htwo m s)
    | [h, m, s] => exact absurd rfl (hthree h m s)
    | _ :: _ :: _ :: _ :: _ => simp

/-- A text with two colons is a timestamp if each part is a numeral that is not negative. -/
theorem exists_parse_eq_ok_iff {text : String} {h m s : List Char}
    (hparts : parts (Text.trim text).toList = [h, m, s]) :
    (∃ seconds, parse text = .ok seconds) ↔
      ∀ part ∈ [h, m, s], ∃ value, numeral? part = some value ∧ ¬ value < 0 := by
  simp only [parse_eq_ok_iff, hparts]
  constructor
  · rintro ⟨-, -, values, hmap, hnonneg, -⟩ part hpart
    have hmem := List.mem_map_of_mem hpart (f := numeral?)
    rw [hmap] at hmem
    obtain ⟨value, hvalue, hpart⟩ := List.mem_map.mp hmem
    exact ⟨value, hpart.symm, hnonneg value hvalue⟩
  · intro hall
    obtain ⟨x, hx, hxn⟩ := hall h (by simp)
    obtain ⟨y, hy, hyn⟩ := hall m (by simp)
    obtain ⟨z, hz, hzn⟩ := hall s (by simp)
    exact ⟨inSeconds [x, y, z], by simp, [x, y, z], by simp [hx, hy, hz],
      by simp [hxn, hyn, hzn], rfl⟩

def word (x : Binary64) : Nat := (x.toIntWithin 0 (twoTo 32 - 1)).toNat

def twoDigits (n : Nat) : String := zeroPadded 2 (toString n)

def secondsWithMillis (seconds : Binary64) : String :=
  if seconds.isNegative then "-" ++ zeroPadded 5 (seconds.abs.fixed 3)
  else zeroPadded 6 (seconds.fixed 3)

/-- The text of a number of seconds (`format_seconds`). Decimals are written when the seconds are
more than a ten-thousandth away from a whole number below them. -/
def format (total : Binary64) : String :=
  let hours := word (total / 3600).floor
  let minutes := word ((total % 3600) / 60).floor
  let seconds := total % 60
  let clock := twoDigits hours ++ ":" ++ twoDigits minutes ++ ":"
  if 0.0001 < (seconds - seconds.floor).abs then clock ++ secondsWithMillis seconds
  else clock ++ twoDigits (word seconds.floor)

end Montage.Timestamp
