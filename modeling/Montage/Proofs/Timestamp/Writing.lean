import Montage.Proofs.Timestamp.Reading

/-!
# Writing timestamps

A number of seconds is split into hours, minutes and seconds without an error, and only the seconds
are rounded, to thousandths. So what is written is read back, but seconds just below sixty are
rounded to sixty, and nothing is carried to the minutes.
-/

namespace Montage.Timestamp

open Montage.Numeric
open Binary64

/-! ### Clocks -/

/-- A field of a clock: so many digits, and the number they stand for. -/
structure IsField (width number : ℕ) (field : List Char) : Prop where
  length : field.length = width
  digits : ∀ c ∈ field, c.isDigit = true
  value : Nat.ofDigitChars 10 field 0 = number

/-- What may stand behind the seconds: nothing, or a point and thousandths. -/
def IsFraction (thousandths : ℕ) (fraction : List Char) : Prop :=
  fraction = [] ∧ thousandths = 0 ∨ ∃ field, fraction = '.' :: field ∧ IsField 3 thousandths field

/-- A text `HH:MM:SS` or `HH:MM:SS.mmm` with these numbers. The hours have two digits or more. -/
def ShowsClock (text : List Char) (h m s f : ℕ) : Prop :=
  ∃ hours minutes seconds fraction,
    text = hours ++ ':' :: (minutes ++ ':' :: (seconds ++ fraction)) ∧
      2 ≤ hours.length ∧ IsField hours.length h hours ∧ IsField 2 m minutes ∧
        IsField 2 s seconds ∧ IsFraction f fraction

/-- A valid clock: minutes and seconds are below sixty. -/
def IsClock (text : List Char) : Prop :=
  ∃ h m s f, ShowsClock text h m s f ∧ m < 60 ∧ s < 60

private theorem not_mem_of_digits {field : List Char} (h : ∀ c ∈ field, c.isDigit = true) :
    ':' ∉ field :=
  fun hmem ↦ absurd (h _ hmem) (by decide)

private theorem IsFraction.not_mem {f : ℕ} {fraction : List Char} (h : IsFraction f fraction) :
    ':' ∉ fraction := by
  rcases h with ⟨rfl, -⟩ | ⟨field, rfl, hfield⟩
  · exact List.not_mem_nil
  · rw [List.mem_cons, not_or]
    exact ⟨by decide, not_mem_of_digits hfield.digits⟩

private theorem IsFraction.unique {f f' : ℕ} {fraction : List Char} (h : IsFraction f fraction)
    (h' : IsFraction f' fraction) : f = f' := by
  rcases h with ⟨rfl, rfl⟩ | ⟨field, rfl, hfield⟩
  · rcases h' with ⟨-, rfl⟩ | ⟨field, hnil, -⟩
    · rfl
    · cases hnil
  · rcases h' with ⟨hnil, -⟩ | ⟨field', heq, hfield'⟩
    · cases hnil
    · obtain rfl := (List.cons.inj heq).2
      exact hfield.value.symm.trans hfield'.value

private theorem parts_clock {hours minutes seconds : List Char} (hh : ':' ∉ hours)
    (hm : ':' ∉ minutes) (hs : ':' ∉ seconds) :
    parts (hours ++ ':' :: (minutes ++ ':' :: seconds)) = [hours, minutes, seconds] := by
  rw [parts_append_colon hh, parts_append_colon hm, parts_eq_singleton hs]

/-- A clock shows one time only. -/
theorem ShowsClock.unique {text : List Char} {h m s f h' m' s' f' : ℕ}
    (hc : ShowsClock text h m s f) (hc' : ShowsClock text h' m' s' f') :
    h = h' ∧ m = m' ∧ s = s' ∧ f = f' := by
  obtain ⟨hours, minutes, seconds, fraction, rfl, -, hhours, hminutes, hseconds, hfraction⟩ := hc
  obtain ⟨hours', minutes', seconds', fraction', heq, -, hhours', hminutes', hseconds',
    hfraction'⟩ := hc'
  have hparts := congrArg parts heq
  have hlast : ∀ {seconds fraction : List Char} {s f : ℕ}, IsField 2 s seconds →
      IsFraction f fraction → ':' ∉ seconds ++ fraction := by
    intro seconds fraction s f hs hf hmem
    exact (List.mem_append.mp hmem).elim (not_mem_of_digits hs.digits) hf.not_mem
  rw [parts_clock (not_mem_of_digits hhours.digits) (not_mem_of_digits hminutes.digits)
      (hlast hseconds hfraction),
    parts_clock (not_mem_of_digits hhours'.digits) (not_mem_of_digits hminutes'.digits)
      (hlast hseconds' hfraction')] at hparts
  clear heq
  obtain ⟨rfl, hbehind⟩ := List.cons.inj hparts
  obtain ⟨rfl, hlast⟩ := List.cons.inj hbehind
  obtain ⟨rfl, rfl⟩ := List.append_inj (List.cons.inj hlast).1
    (hseconds.length.trans hseconds'.length.symm)
  exact ⟨hhours.value.symm.trans hhours'.value, hminutes.value.symm.trans hminutes'.value,
    hseconds.value.symm.trans hseconds'.value, hfraction.unique hfraction'⟩

theorem ShowsClock.isClock_iff {text : List Char} {h m s f : ℕ} (hc : ShowsClock text h m s f) :
    IsClock text ↔ m < 60 ∧ s < 60 := by
  constructor
  · rintro ⟨h', m', s', f', hc', hm, hs⟩
    obtain ⟨-, rfl, rfl, -⟩ := hc.unique hc'
    exact ⟨hm, hs⟩
  · rintro ⟨hm, hs⟩
    exact ⟨h, m, s, f, hc, hm, hs⟩

/-! ### What is written -/

private theorem isField_zeroPadded {width n : ℕ} (hw : 0 < width) (h : n < 10 ^ width) :
    IsField width n (zeroPadded width (toString n)).toList := by
  obtain ⟨-, hlength, hdigits, hvalue⟩ := zeroPadded_digits n hw
  exact ⟨hlength h, List.all_eq_true.mp hdigits, hvalue⟩

private theorem showsClock_of_fields {h m s f : ℕ} {seconds : String} {field fraction : List Char}
    (hm : m < 100) (hs : IsField 2 s field) (hf : IsFraction f fraction)
    (hseconds : seconds.toList = field ++ fraction) :
    ShowsClock (twoDigits h ++ ":" ++ twoDigits m ++ ":" ++ seconds).toList h m s f := by
  obtain ⟨hwidth, -, hdigits, hvalue⟩ := zeroPadded_digits h two_pos
  have hcolon : ":".toList = [':'] := rfl
  refine ⟨_, _, field, fraction, ?_, hwidth, ⟨rfl, List.all_eq_true.mp hdigits, hvalue⟩,
    isField_zeroPadded two_pos hm, hs, hf⟩
  simp only [String.toList_append, hcolon, hseconds, List.append_assoc, List.cons_append,
    List.nil_append]
  rfl

private theorem showsClock_whole (h : ℕ) {m s : ℕ} (hm : m < 100) (hs : s < 100) :
    ShowsClock (twoDigits h ++ ":" ++ twoDigits m ++ ":" ++ twoDigits s).toList h m s 0 :=
  showsClock_of_fields hm (isField_zeroPadded two_pos hs) (.inl ⟨rfl, rfl⟩)
    (List.append_nil _).symm

private theorem showsClock_millis (h : ℕ) {m scaled : ℕ} (hm : m < 100) (hs : scaled < 100000) :
    ShowsClock
      (twoDigits h ++ ":" ++ twoDigits m ++ ":" ++ zeroPadded 6 (fixedDigits 3 scaled)).toList
      h m (scaled / 1000) (scaled % 1000) := by
  have hfield : IsField 2 (scaled / 1000) (twoDigits (scaled / 1000)).toList :=
    isField_zeroPadded two_pos (by omega)
  have hmillis : IsField 3 (scaled % 1000) (zeroPadded 3 (toString (scaled % 1000))).toList :=
    isField_zeroPadded three_pos (Nat.mod_lt _ (by decide))
  refine showsClock_of_fields hm hfield (.inr ⟨_, rfl, hmillis⟩) ?_
  have hpoint : ".".toList = ['.'] := rfl
  have hthousand : tenTo 3 = 1000 := rfl
  have hlength : (fixedDigits 3 scaled).length = (toString (scaled / 1000)).length + 4 := by
    rw [← String.length_toList, fixedDigits, hthousand, String.toList_append, String.toList_append,
      List.length_append, List.length_append, hmillis.length, hpoint, String.length_toList]
    rfl
  have hzeros : 6 - (fixedDigits 3 scaled).length = 2 - (toString (scaled / 1000)).length := by
    omega
  rw [zeroPadded, hzeros, fixedDigits, hthousand, twoDigits]
  simp only [zeroPadded, String.toList_append, hpoint, List.append_assoc, List.cons_append,
    List.nil_append]

/-! ### Splitting a number of seconds -/

variable {x y : Binary64}

private theorem word_floor {n : ℕ} (hy : y.isFinite = true) (hn : ⌊y.value⌋ = n)
    (hb : n < 2 ^ 32) : word y.floor = n := by
  have htwo : ((twoTo 32 : ℕ) : ℤ) = 2 ^ 32 := by norm_num [twoTo]
  rw [word, toIntWithin_floor hy, hn, htwo]
  omega

/-- Hours and minutes are exact. -/
private theorem exists_hours_minutes (hx : x.isFinite = true) (h0 : 0 ≤ x.value)
    (hb : x.value < 3600 * 2 ^ 32) :
    ∃ h m : ℕ, word (x / 3600).floor = h ∧ word ((x % 3600) / 60).floor = m ∧ m < 60 ∧
      ⌊x.value / 60⌋ = (h * 60 + m : ℕ) := by
  obtain ⟨hhf, hhours⟩ := floor_div (n := 3600) hx h0 (by norm_num) (by push_cast; linarith)
  obtain ⟨hrf, hrest⟩ := value_rem (n := 3600) hx h0 (by norm_num) (by norm_num)
  have hlow := Int.floor_le (x.value / (3600 : ℕ))
  have hhigh := Int.lt_floor_add_one (x.value / (3600 : ℕ))
  obtain ⟨h, hh⟩ := Int.eq_ofNat_of_zero_le
    (Int.floor_nonneg.mpr (div_nonneg h0 (Nat.cast_nonneg 3600)))
  rw [hh] at hhours hrest hlow hhigh
  push_cast at hrest hlow hhigh
  have hr0 : 0 ≤ (x % ofNat 3600).value := by rw [hrest]; linarith
  have hr : (x % ofNat 3600).value < 3600 := by rw [hrest]; linarith
  obtain ⟨hmf, hminutes⟩ := floor_div (n := 60) hrf hr0 (by norm_num) (by push_cast; linarith)
  have hsplit : ⌊x.value / 60⌋ = (h * 60 : ℕ) + ⌊(x % ofNat 3600).value / (60 : ℕ)⌋ := by
    have hquotient : x.value / 60 = ((h * 60 : ℕ) : ℤ) + (x % ofNat 3600).value / (60 : ℕ) := by
      rw [hrest]
      push_cast
      ring
    rw [hquotient, Int.floor_intCast_add]
  have hm0 : 0 ≤ ⌊(x % ofNat 3600).value / (60 : ℕ)⌋ :=
    Int.floor_nonneg.mpr (div_nonneg hr0 (Nat.cast_nonneg 60))
  have hm : ⌊(x % ofNat 3600).value / (60 : ℕ)⌋ < 60 := by
    rw [Int.floor_lt]
    push_cast
    linarith
  obtain ⟨m, hm'⟩ := Int.eq_ofNat_of_zero_le hm0
  rw [hm'] at hminutes hsplit hm
  have hhb : h < 2 ^ 32 := by
    have hlt : (h : ℚ) < (2 ^ 32 : ℕ) := by push_cast; linarith
    exact_mod_cast hlt
  exact ⟨h, m, word_floor hhf hhours hhb, word_floor hmf hminutes (by omega), by omega,
    by rw [hsplit]; push_cast; rfl⟩

/-! ### Rounding the seconds -/

/-- Milliseconds are written if the seconds are far enough from whole ones, and only if they are not
zero. -/
private theorem millis_written (hy : y.isFinite = true) :
    (1 / 2048 ≤ y.value - ⌊y.value⌋ → 0.0001 < (y - y.floor).abs) ∧
      (y.value = 0 → ¬ 0.0001 < (y - y.floor).abs) := by
  obtain ⟨hff, hfloor⟩ := value_floor hy
  have hround := sub_rounds hy hff
  have hleast : (0.0001 : Binary64).isNaN = false ∧ 0 < (0.0001 : Binary64).value ∧
      (0.0001 : Binary64).value < 1 / 2048 := by
    have hunits : 0 < (0.0001 : Binary64).units ∧
        (0.0001 : Binary64).units * 2048 < unitsPerOne := by decide +kernel
    refine ⟨by decide +kernel, value_pos_of_units_pos hunits.1, ?_⟩
    rw [value, div_lt_iff₀ unitsPerOne_cast_pos, one_div_mul_eq_div, lt_div_iff₀ (by norm_num)]
    exact_mod_cast hunits.2
  have hnumber : (y - y.floor).abs.isNaN = false := by
    obtain ⟨negative, num, den, -, heq, -⟩ := hround
    rw [heq]
    rfl
  rw [hfloor] at hround
  rw [lt_iff_value_lt hleast.1 hnumber, value_abs]
  constructor
  · intro hle
    obtain ⟨r, hr, hvalue⟩ := exists_value_eq (m := 1) (e := -11) (by norm_num) (by decide)
      (by decide)
    have hr' : r.value = 1 / 2048 := by rw [hvalue]; norm_num
    rw [← hr'] at hle
    have hge := hround.le_value hr hle
    rw [hr'] at hge
    exact hleast.2.2.trans_le (hge.trans (le_abs_self _))
  · intro hzero
    rw [hzero, Int.floor_zero, Int.cast_zero, sub_zero, ← value_zero] at hround
    rw [(hround.eq_value isFinite_zero).2, value_zero, abs_zero]
    exact not_lt.mpr hleast.2.1.le

/-- Seconds are rounded to sixty from less than a thousandth below. -/
private theorem scaledAt_lt_iff (place : ℕ) :
    scaledAt 3 place < 60000 ↔ (unitsAt place : ℚ) / unitsPerOne < 119999 / 2000 := by
  have hone := unitsPerOne_cast_pos
  have hthousand : tenTo 3 = 1000 := rfl
  rw [div_lt_iff₀ hone, scaledAt, hthousand]
  constructor
  · intro hlt
    by_contra hge
    have hge' : 119999 * unitsPerOne ≤ unitsAt place * 1000 * 2 := by
      exact_mod_cast (by linarith : (119999 : ℚ) * unitsPerOne ≤ unitsAt place * 1000 * 2)
    have hround := roundHalfEven_mono two_pos unitsPerOne_pos hge'
    have hhalf : roundHalfEven 119999 2 = 60000 := by decide
    omega
  · intro hlt
    have hnear := (roundHalfEven_near (unitsAt place * 1000) unitsPerOne unitsPerOne_pos).1
    have hnear' : 2 * ((roundHalfEven (unitsAt place * 1000) unitsPerOne : ℚ) * unitsPerOne) ≤
        2 * (unitsAt place * 1000) + unitsPerOne := by exact_mod_cast hnear
    have hscaled : (roundHalfEven (unitsAt place * 1000) unitsPerOne : ℚ) * unitsPerOne <
        60000 * unitsPerOne := by linarith
    exact_mod_cast (mul_lt_mul_iff_left₀ hone).mp hscaled

/-- These seconds and thousandths are rounded from the number, to sixty from `59.9995` on. -/
private structure IsRounded (y : Binary64) (s f : ℕ) : Prop where
  near : |(s + f / 1000 : ℚ) - y.value| ≤ 1 / 2000
  most : (s + f / 1000 : ℚ) ≤ 60
  lt_iff : s < 60 ↔ y.value < 119999 / 2000

private theorem IsRounded.of_scaled {place : Fin (infinitePlace + 1)}
    (hy : (signed false place).isFinite = true) (hb : (signed false place).value < 60) :
    scaledAt 3 place ≤ 60000 ∧
      IsRounded (signed false place) (scaledAt 3 place / 1000) (scaledAt 3 place % 1000) := by
  have hnear := abs_thousandths_sub_le hy
  have hround := scaledAt_lt_iff place
  have hthousandths : (signed false place).thousandths = (scaledAt 3 place : ℤ) := rfl
  have hvalue : (signed false place).value = unitsAt place / unitsPerOne := value_signed _ _
  rw [hthousandths, Int.cast_natCast] at hnear
  rw [← hvalue] at hround
  generalize scaledAt 3 place = scaled at hnear hround
  have hscaled : ((scaled / 1000 : ℕ) : ℚ) + (scaled % 1000 : ℕ) / 1000 = scaled / 1000 := by
    have hsplit : ((scaled / 1000 : ℕ) : ℚ) * 1000 + (scaled % 1000 : ℕ) = scaled := by
      exact_mod_cast Nat.div_add_mod' scaled 1000
    linarith
  have hmost : scaled ≤ 60000 := by
    have hlt : (scaled : ℚ) < (60001 : ℕ) := by
      have hle := (abs_le.mp hnear).2
      push_cast
      linarith
    exact Nat.le_of_lt_succ (by exact_mod_cast hlt)
  have hmost' : (scaled : ℚ) ≤ 60000 := by exact_mod_cast hmost
  refine ⟨hmost, by rwa [hscaled], ?_, ?_⟩
  · rw [hscaled]
    linarith
  · rw [← hround]
    omega

/-- Seconds that are not zero have no sign, and are written with their thousandths. -/
private theorem exists_seconds_millis (hy : y.isFinite = true) (h0 : 0 ≤ y.value)
    (hne : y.value ≠ 0) (hb : y.value < 60) {h m : ℕ} (hm : m < 100) :
    ∃ s f, ShowsClock (twoDigits h ++ ":" ++ twoDigits m ++ ":" ++ secondsWithMillis y).toList
      h m s f ∧ IsRounded y s f := by
  obtain ⟨negative, place, rfl, hplace⟩ := exists_signed_of_isFinite hy
  cases negative with
  | true =>
    have hratio := abs_nonneg (signed true place).value
    rw [abs_value_signed] at hratio
    rw [value_signed] at h0 hne
    exact absurd (le_antisymm (neg_nonpos.mpr hratio) h0) hne
  | false =>
    obtain ⟨hmost, hrounded⟩ := IsRounded.of_scaled hy hb
    have htext : secondsWithMillis (signed false place) =
        zeroPadded 6 (fixedDigits 3 (scaledAt 3 place)) := by
      rw [secondsWithMillis, isNegative, if_neg Bool.false_ne_true, fixed, if_neg hplace]
      exact congrArg (zeroPadded 6) (String.empty_append)
    rw [htext]
    exact ⟨_, _, showsClock_millis h hm (by omega), hrounded⟩

/-- Seconds next to whole ones are written as those. -/
private theorem exists_seconds_whole (hy : y.isFinite = true) (h0 : 0 ≤ y.value) (hb : y.value < 60)
    (hnear : y.value - ⌊y.value⌋ < 1 / 2048) {h m : ℕ} (hm : m < 100) :
    ∃ s f, ShowsClock (twoDigits h ++ ":" ++ twoDigits m ++ ":" ++ twoDigits (word y.floor)).toList
      h m s f ∧ IsRounded y s f := by
  have hlow := Int.floor_le y.value
  obtain ⟨s, hs⟩ := Int.eq_ofNat_of_zero_le (Int.floor_nonneg.mpr h0)
  rw [hs] at hlow hnear
  push_cast at hlow hnear
  have hs60 : s < 60 := by exact_mod_cast hlow.trans_lt hb
  have hs59 : (s : ℚ) ≤ 59 := by exact_mod_cast Nat.le_of_lt_succ hs60
  rw [word_floor hy hs (hs60.trans (by norm_num))]
  refine ⟨s, 0, showsClock_whole h hm (by omega), ?_, ?_, ?_⟩
  · rw [abs_le]
    constructor <;> push_cast <;> linarith
  · push_cast
    linarith
  · exact ⟨fun _ ↦ by linarith, fun _ ↦ hs60⟩

/-- The seconds of a number between zero and sixty are written to half a thousandth. -/
private theorem exists_seconds (hy : y.isFinite = true) (h0 : 0 ≤ y.value) (hb : y.value < 60)
    {h m : ℕ} (hm : m < 100) :
    ∃ s f, ShowsClock
        (if 0.0001 < (y - y.floor).abs
          then twoDigits h ++ ":" ++ twoDigits m ++ ":" ++ secondsWithMillis y
          else twoDigits h ++ ":" ++ twoDigits m ++ ":" ++ twoDigits (word y.floor)).toList
        h m s f ∧ IsRounded y s f := by
  obtain ⟨hlarge, hzero⟩ := millis_written hy
  split
  · next hmillis => exact exists_seconds_millis hy h0 (fun heq ↦ hzero heq hmillis) hb hm
  · next hwhole => exact exists_seconds_whole hy h0 hb (not_le.mp (mt hlarge hwhole)) hm

/-! ### Reading back -/

private theorem isBlank_of_isDigit {c : Char} (h : c.isDigit = true) : Text.isBlank c = false := by
  rw [← Bool.not_eq_true]
  intro hblank
  have hnone := Text.isDigit_of_isBlank hblank
  rw [Text.isDigit, h, Bool.true_or] at hnone
  contradiction

/-- A clock holds no white space. -/
private theorem ShowsClock.trim_eq {text : String} {h m s f : ℕ}
    (hc : ShowsClock text.toList h m s f) : Text.trim text = text := by
  obtain ⟨hours, minutes, seconds, fraction, htext, -, hhours, hminutes, hseconds, hfraction⟩ := hc
  have hdigits : ∀ {field : List Char}, (∀ c ∈ field, c.isDigit = true) →
      ∀ c ∈ field, Text.isBlank c = false := fun hfield c hmem ↦ isBlank_of_isDigit (hfield c hmem)
  have hbehind : ∀ c ∈ fraction, Text.isBlank c = false := by
    rcases hfraction with ⟨rfl, -⟩ | ⟨field, rfl, hfield⟩
    · exact List.forall_mem_nil _
    · exact List.forall_mem_cons.mpr ⟨by decide, hdigits hfield.digits⟩
  rw [← String.ofList_toList (s := text)]
  refine Text.trim_ofList ?_
  rw [htext]
  simp only [List.forall_mem_append, List.forall_mem_cons]
  exact ⟨hdigits hhours.digits, by decide, hdigits hminutes.digits, by decide,
    hdigits hseconds.digits, hbehind⟩

private theorem IsField.isDigits {width n : ℕ} {field : List Char} (h : IsField width n field)
    (hw : 0 < width) : IsDigits field :=
  ⟨List.ne_nil_of_length_pos (h.length ▸ hw), h.digits⟩

private theorem exists_isNumeral_seconds {s f : ℕ} {seconds fraction : List Char}
    (hs : IsField 2 s seconds) (hf : IsFraction f fraction) :
    ∃ z, IsNumeral (seconds ++ fraction) z ∧ z.Rounds (s + f / 1000) := by
  have hdigits := hs.isDigits two_pos
  rcases hf with ⟨rfl, rfl⟩ | ⟨field, rfl, hfield⟩
  · obtain ⟨z, hz, hround⟩ := numeral?_digits hdigits
    rw [hs.value] at hround
    rw [List.append_nil, Nat.cast_zero, zero_div, add_zero]
    exact ⟨z, numeral?_eq_some_iff.mp hz, hround⟩
  · have hall : IsDigits (seconds ++ field) := ⟨List.append_ne_nil_of_left_ne_nil hdigits.1 _,
      List.forall_mem_append.mpr ⟨hdigits.2, hfield.digits⟩⟩
    obtain ⟨z, hz, hround⟩ := numeral?_pointed hall
    rw [hs.value, hfield.value, hfield.length] at hround
    norm_num at hround
    exact ⟨z, numeral?_eq_some_iff.mp hz, hround⟩

/-- A clock is read as its hours, minutes and seconds. -/
private theorem ShowsClock.parse {text : String} {h m s f : ℕ}
    (hc : ShowsClock text.toList h m s f) :
    ∃ a b z, parse text = .ok (inSeconds [a, b, z]) ∧ a.Rounds h ∧ b.Rounds m ∧
      z.Rounds (s + f / 1000) := by
  have htrim := hc.trim_eq
  obtain ⟨hours, minutes, seconds, fraction, htext, hlong, hhours, hminutes, hseconds,
    hfraction⟩ := hc
  obtain ⟨a, ha, hround⟩ := numeral?_digits (hhours.isDigits (by omega))
  obtain ⟨b, hb, hround'⟩ := numeral?_digits (hminutes.isDigits two_pos)
  obtain ⟨z, hz, hround''⟩ := exists_isNumeral_seconds hseconds hfraction
  rw [hhours.value] at hround
  rw [hminutes.value] at hround'
  have hnonneg : ∀ value ∈ [a, b, z], ¬ value < 0 := by
    have hz0 : (0 : ℚ) ≤ s + f / 1000 := by positivity
    simp only [List.forall_mem_cons]
    exact ⟨fun hlt ↦ not_le_of_lt hlt (hround.nonneg h.cast_nonneg),
      fun hlt ↦ not_le_of_lt hlt (hround'.nonneg m.cast_nonneg),
      fun hlt ↦ not_le_of_lt hlt (hround''.nonneg hz0), List.forall_mem_nil _⟩
  refine ⟨a, b, z, parse_eq_ok_iff_reads.mpr ⟨[a, b, z], ⟨by simp, hnonneg,
    [hours, minutes, seconds ++ fraction], ?_, ?_⟩, rfl⟩, hround, hround', hround''⟩
  · rw [htrim, htext]
    simp [List.intercalate]
  · exact .cons (numeral?_eq_some_iff.mp ha) (.cons (numeral?_eq_some_iff.mp hb) (.cons hz .nil))

private theorem abs_cast_le {n : ℕ} (h : n ≤ 2 ^ 53) : |(n : ℤ)| ≤ 2 ^ 53 := by
  rw [Nat.abs_cast]
  exact_mod_cast h

/-- Small integers are multiplied and added up without an error. -/
private theorem whole_mul_sixty {total : Binary64} {n : ℕ}
    (ht : total.isFinite = true ∧ total.value = n) (hn : n * 60 ≤ 2 ^ 53) :
    (total * 60).isFinite = true ∧ (total * 60).value = (n * 60 : ℕ) := by
  have hround := mul_rounds ht.1 value_sixty.1
  have hwhole : total.value * (60 : Binary64).value = ((n * 60 : ℕ) : ℤ) := by
    rw [ht.2, value_sixty.2]
    push_cast
    rfl
  rw [hwhole] at hround
  exact hround.eq_of_whole (abs_cast_le hn)

private theorem whole_add_part {total value : Binary64} {n k : ℕ}
    (ht : total.isFinite = true ∧ total.value = n) (hv : value.isFinite = true ∧ value.value = k)
    (hb : n * 60 + k ≤ 2 ^ 53) :
    (total * 60 + value).isFinite = true ∧ (total * 60 + value).value = (n * 60 + k : ℕ) := by
  obtain ⟨hfinite, hproduct⟩ := whole_mul_sixty ht (by omega)
  have hround := add_rounds hfinite hv.1
  have hwhole : (total * 60).value + value.value = ((n * 60 + k : ℕ) : ℤ) := by
    rw [hproduct, hv.2]
    push_cast
    rfl
  rw [hwhole] at hround
  exact hround.eq_of_whole (abs_cast_le hb)

/-- A number far below the greatest one is rounded to a finite one, by at most a small part. -/
private theorem rounds_near {value : Binary64} {exact : ℚ} (h : value.Rounds exact)
    (h0 : 0 ≤ exact) (hb : exact ≤ 2 ^ 53) :
    value.isFinite = true ∧ |value.value - exact| ≤ (exact + 1) / 2 ^ 53 := by
  have hbig : (2 : ℚ) ^ 53 ≤ 2 ^ 1023 := pow_le_pow_right₀ one_le_two (by decide)
  have hfinite := h.isFinite_of_le (by rw [abs_of_nonneg h0]; exact hb.trans hbig)
  have hnear := h.near_add_one hfinite
  rw [abs_of_nonneg h0] at hnear
  exact ⟨hfinite, hnear⟩

/-- Adding seconds to whole minutes keeps them to a thousandth and half a step. -/
private theorem minutes_add_seconds {total value : Binary64} {n : ℕ} {seconds exact : ℚ}
    (ht : total.isFinite = true ∧ total.value = n) (hn : n * 60 ≤ 2 ^ 52)
    (hv : value.Rounds seconds) (h0 : 0 ≤ seconds) (hs : seconds ≤ 60)
    (hnear : |n * 60 + seconds - exact| ≤ 1 / 2000) :
    (total * 60 + value).isFinite = true ∧
      |(total * 60 + value).value - exact| ≤ 1 / 1000 + |exact| / 2 ^ 53 := by
  obtain ⟨hvf, hvnear⟩ := rounds_near hv h0 (by linarith)
  obtain ⟨hpf, hpv⟩ := whole_mul_sixty ht (by omega)
  have hround := add_rounds hpf hvf
  have hn' : ((n * 60 : ℕ) : ℚ) ≤ 2 ^ 52 := by exact_mod_cast hn
  have hn0 : (0 : ℚ) ≤ (n * 60 : ℕ) := Nat.cast_nonneg _
  have hv0 := (nonneg_iff.mp (hv.nonneg h0)).2
  rw [hpv] at hround
  obtain ⟨hvlow, hvhigh⟩ := abs_le.mp hvnear
  obtain ⟨hsf, hsnear⟩ := rounds_near hround (by linarith) (by linarith)
  have hle := le_abs_self exact
  push_cast at hsnear hn' hn0
  rw [abs_le] at hnear hsnear ⊢
  refine ⟨hsf, ?_, ?_⟩ <;> linarith

/-- Hours and minutes are counted together without an error. -/
private theorem value_minutes {a b : Binary64} {h m : ℕ} (ha : a.Rounds h) (hb : b.Rounds m)
    (hsum : (h * 60 + m) * 60 ≤ 2 ^ 52) :
    ((0 * 60 + a) * 60 + b).isFinite = true ∧ ((0 * 60 + a) * 60 + b).value = (h * 60 + m : ℕ) := by
  rw [← Int.cast_natCast] at ha hb
  obtain ⟨haf, hav⟩ := ha.eq_of_whole (abs_cast_le (by omega))
  obtain ⟨hbf, hbv⟩ := hb.eq_of_whole (abs_cast_le (by omega))
  have hzero : (0 : Binary64).value = (0 : ℕ) := by rw [value_zero, Nat.cast_zero]
  have hhours := whole_add_part ⟨isFinite_zero, hzero⟩ ⟨haf, hav⟩ (by omega)
  rw [Nat.zero_mul, Nat.zero_add] at hhours
  exact whole_add_part hhours ⟨hbf, hbv⟩ (by omega)

/-! ### Writing and reading back -/

/-- The fields of what is written: hours and minutes are exact, the seconds are rounded. -/
private theorem exists_showsClock_format (hx : x.isFinite = true) (h0 : 0 ≤ x.value)
    (hb : x.value < 3600 * 2 ^ 32) :
    ∃ h m s f, ShowsClock (format x).toList h m s f ∧ m < 60 ∧
      ⌊x.value / 60⌋ = (h * 60 + m : ℕ) ∧ (x % ofNat 60).value = x.value - 60 * ⌊x.value / 60⌋ ∧
      IsRounded (x % ofNat 60) s f := by
  obtain ⟨h, m, hhours, hminutes, hm, hfloor⟩ := exists_hours_minutes hx h0 hb
  obtain ⟨hyf, hy⟩ := value_rem (n := 60) hx h0 (by norm_num) (by norm_num)
  have hlow := Int.floor_le (x.value / 60)
  have hhigh := Int.lt_floor_add_one (x.value / 60)
  push_cast at hy
  obtain ⟨s, f, hclock, hrounded⟩ := exists_seconds (y := x % ofNat 60) (h := h) (m := m)
    hyf (by rw [hy]; linarith) (by rw [hy]; linarith) (by omega)
  refine ⟨h, m, s, f, ?_, hm, hfloor, hy, hrounded⟩
  rw [format, hhours, hminutes]
  exact hclock

/-- A number of seconds is written as hours, minutes and seconds, which are read back to a
thousandth. But the seconds are a clock's only up to `59.9995`: above, they are rounded to sixty. -/
theorem format_isClock_iff (hx : x.isFinite = true) (h0 : 0 ≤ x.value)
    (hb : x.value < 3600 * 2 ^ 32) :
    (IsClock (format x).toList ↔ x.value - 60 * ⌊x.value / 60⌋ < 119999 / 2000) ∧
      (∃ h m s f, ShowsClock (format x).toList h m s f ∧ m < 60 ∧ s ≤ 60) ∧
      ∃ time, parse (format x) = .ok time ∧ time.isFinite = true ∧
        |time.value - x.value| ≤ 1 / 1000 + ulp x := by
  obtain ⟨h, m, s, f, hclock, hm, hfloor, hy, hnear, hmost, hiff⟩ :=
    exists_showsClock_format hx h0 hb
  rw [hy] at hnear hiff
  refine ⟨?_, ⟨h, m, s, f, hclock, hm, ?_⟩, ?_⟩
  · rw [hclock.isClock_iff, ← hiff]
    exact ⟨And.right, fun hs ↦ ⟨hm, hs⟩⟩
  · have hf : (0 : ℚ) ≤ f / 1000 := by positivity
    exact_mod_cast (by linarith : (s : ℚ) ≤ 60)
  · obtain ⟨a, b, z, hparse, ha, hb', hz⟩ := hclock.parse
    have hlow := Int.floor_le (x.value / 60)
    rw [hfloor, Int.cast_natCast] at hlow hnear
    have hminutes : (h * 60 + m) * 60 ≤ 2 ^ 52 := by
      exact_mod_cast (by push_cast at hlow; linarith : ((h : ℚ) * 60 + m) * 60 ≤ 2 ^ 52)
    have hnear' : |((h * 60 + m : ℕ) : ℚ) * 60 + (s + f / 1000) - x.value| ≤ 1 / 2000 := by
      convert hnear using 2
      ring
    obtain ⟨hfinite, hread⟩ := minutes_add_seconds (value_minutes ha hb' hminutes) hminutes hz
      (by positivity) hmost hnear'
    exact ⟨_, hparse, hfinite, hread.trans (add_le_add_right (abs_value_le_ulp hx) _)⟩

/-- The last whole second of an hour is written as a clock. -/
theorem format_isClock_iff_lastSecond :
    (3599 : Binary64).isFinite = true ∧ IsClock (format 3599).toList ∧
      ∃ time, parse (format 3599) = .ok time ∧ time.isFinite = true ∧
        |time.value - 3599| ≤ 1 / 1000 + ulp 3599 := by
  obtain ⟨hfinite, hvalue⟩ := value_ofNat (n := 3599) (by norm_num)
  have hnumber : (3599 : Binary64).value = 3599 := hvalue.trans (by norm_num)
  obtain ⟨hiff, -, hread⟩ := format_isClock_iff (x := 3599) hfinite (by rw [hnumber]; norm_num)
    (by rw [hnumber]; norm_num)
  have hfloor : ⌊(3599 : ℚ) / 60⌋ = 59 := by
    rw [Int.floor_eq_iff]
    norm_num
  rw [hnumber, hfloor] at hiff
  rw [hnumber] at hread
  exact ⟨hfinite, hiff.mpr (by norm_num), hread⟩

/-- Just below a minute the seconds are written as sixty. -/
theorem format_belowMinute :
    (59.9996 : Binary64).isFinite = true ∧ 0 ≤ (59.9996 : Binary64) ∧ (59.9996 : Binary64) < 60 ∧
      format 59.9996 = "00:00:60.000" ∧ ¬ IsClock (format 59.9996).toList := by
  have htext : format 59.9996 = "00:00:60.000" := by decide +kernel
  have hclock : ShowsClock (format 59.9996).toList 0 0 60 0 := by
    rw [htext]
    refine ⟨['0', '0'], ['0', '0'], ['6', '0'], ['.', '0', '0', '0'], by decide, by decide,
      ⟨rfl, List.all_eq_true.mp rfl, rfl⟩, ⟨rfl, List.all_eq_true.mp rfl, rfl⟩,
      ⟨rfl, List.all_eq_true.mp rfl, rfl⟩, .inr ⟨_, rfl, rfl, List.all_eq_true.mp rfl, rfl⟩⟩
  refine ⟨by decide +kernel, by decide +kernel, by decide +kernel, htext, ?_⟩
  rw [hclock.isClock_iff]
  exact fun hbelow ↦ absurd hbelow.2 (by decide)

end Montage.Timestamp
