import Mathlib.Data.List.DropRight
import Montage.Proofs.Numeric.Monotone
import Montage.Proofs.Numeric.Numerals

/-!
# Canonical numerals

Of the numerals for one number of thousandths one is canonical: it has no zero that could be left
out, no point without decimals and no minus before a zero. The numeral of a double in a filter
graph is the canonical one of the nearest multiple of a thousandth.
-/

namespace Montage.Numeric

/-! ### The form of a canonical numeral -/

/-- The digits of a whole number, with a zero in front only alone. -/
structure IsWhole (cs : List Char) : Prop where
  nonempty : cs ≠ []
  digits : ∀ c ∈ cs, c.isDigit = true
  leading : cs.head? = some '0' → cs = ['0']

/-- At most three decimals, of which the last is not zero. -/
structure IsDecimals (cs : List Char) : Prop where
  digits : ∀ c ∈ cs, c.isDigit = true
  length : cs.length ≤ 3
  trailing : cs.getLast? ≠ some '0'

/-- A canonical numeral without a sign. -/
inductive IsUnsignedNumeral : List Char → Prop
  | intro {whole decimals : List Char} :
      IsWhole whole → IsDecimals decimals → IsUnsignedNumeral (whole ++ pointed decimals)

/-- A canonical numeral. Zero has no minus. -/
inductive IsCanonical : List Char → Prop
  | plain {cs : List Char} : IsUnsignedNumeral cs → IsCanonical cs
  | minus {cs : List Char} : IsUnsignedNumeral cs → cs ≠ ['0'] → IsCanonical ('-' :: cs)

/-! ### Digits and the number they stand for -/

section Digits

variable {cs ds : List Char}

private theorem ofDigitChars_concat (cs : List Char) (c : Char) :
    Nat.ofDigitChars 10 (cs ++ [c]) 0 = 10 * Nat.ofDigitChars 10 cs 0 + (c.toNat - '0'.toNat) := by
  rw [Nat.ofDigitChars_append, Nat.ofDigitChars_cons, Nat.ofDigitChars_nil]

private theorem toNat_of_isDigit {c : Char} (h : c.isDigit = true) :
    '0'.toNat ≤ c.toNat ∧ c.toNat ≤ '0'.toNat + 9 := by
  simp only [Char.isDigit, Bool.and_eq_true, decide_eq_true_eq, UInt32.le_iff_toNat_le] at h
  exact h

/-- Equally many digits that stand for the same number are the same digits. -/
theorem digits_injective (hc : ∀ c ∈ cs, c.isDigit = true) (hd : ∀ c ∈ ds, c.isDigit = true)
    (hl : cs.length = ds.length)
    (h : Nat.ofDigitChars 10 cs 0 = Nat.ofDigitChars 10 ds 0) : cs = ds := by
  induction cs using List.reverseRecOn generalizing ds with
  | nil => exact (List.length_eq_zero_iff.mp hl.symm).symm
  | append_singleton cs c ih =>
    cases ds using List.reverseRecOn with
    | nil => simp at hl
    | append_singleton ds d =>
      have hcc := toNat_of_isDigit (hc c (by simp))
      have hdd := toNat_of_isDigit (hd d (by simp))
      rw [ofDigitChars_concat, ofDigitChars_concat] at h
      have hfront : cs = ds := by
        apply ih (fun b hb ↦ hc b (by simp [hb])) (fun b hb ↦ hd b (by simp [hb]))
        · simpa using hl
        · omega
      have hcode : c.toNat = d.toNat := by
        omega
      have hlast : c = d := Char.toNat_inj.mp hcode
      rw [hfront, hlast]

theorem ofDigitChars_lt (h : ∀ c ∈ cs, c.isDigit = true) :
    Nat.ofDigitChars 10 cs 0 < 10 ^ cs.length := by
  induction cs using List.reverseRecOn with
  | nil => exact Nat.one_pos
  | append_singleton cs c ih =>
    have hc := toNat_of_isDigit (h c (by simp))
    have hcs := ih (fun b hb ↦ h b (by simp [hb]))
    rw [ofDigitChars_concat, List.length_append, List.length_singleton, Nat.pow_succ]
    omega

/-- Zeros behind digits multiply the number. -/
theorem ofDigitChars_append_zeros (cs : List Char) (n : ℕ) :
    Nat.ofDigitChars 10 (cs ++ List.replicate n '0') 0 = Nat.ofDigitChars 10 cs 0 * 10 ^ n := by
  rw [Nat.ofDigitChars_append, Nat.ofDigitChars_replicate_zero, Nat.mul_comm]

private theorem isDigit_of_mem_replicate {n : ℕ} {c : Char} (h : c ∈ List.replicate n '0') :
    c.isDigit = true := by
  rw [List.eq_of_mem_replicate h]
  rfl

end Digits

/-! ### One numeral for one number -/

section Unique

variable {cs ds : List Char}

private theorem IsWhole.eq_of_length_le (hc : IsWhole cs) (hd : IsWhole ds)
    (hle : cs.length ≤ ds.length)
    (h : Nat.ofDigitChars 10 cs 0 = Nat.ofDigitChars 10 ds 0) : cs = ds := by
  -- The shorter number, filled with zeros in front, is the longer one, which begins with none.
  have hfilled : List.replicate (ds.length - cs.length) '0' ++ cs = ds := by
    apply digits_injective _ hd.digits
    · rw [List.length_append, List.length_replicate]
      omega
    · rw [Nat.ofDigitChars_append, Nat.ofDigitChars_replicate_zero, Nat.mul_zero, h]
    · intro c hm
      rcases List.mem_append.mp hm with hm | hm
      · exact isDigit_of_mem_replicate hm
      · exact hc.digits c hm
  cases hn : ds.length - cs.length with
  | zero => rwa [hn] at hfilled
  | succ n =>
    rw [hn] at hfilled
    have hds : ds = ['0'] := hd.leading (by rw [← hfilled]; rfl)
    have hpos := List.length_pos_iff.mpr hc.nonempty
    rw [hds, List.length_singleton] at hn
    omega

theorem IsWhole.eq (hc : IsWhole cs) (hd : IsWhole ds)
    (h : Nat.ofDigitChars 10 cs 0 = Nat.ofDigitChars 10 ds 0) : cs = ds := by
  rcases Nat.le_total cs.length ds.length with hle | hle
  · exact hc.eq_of_length_le hd hle h
  · exact (hd.eq_of_length_le hc hle h.symm).symm

private theorem IsDecimals.eq_of_length_le (hc : IsDecimals cs) (hd : IsDecimals ds)
    (hle : cs.length ≤ ds.length)
    (h : Nat.ofDigitChars 10 cs 0 * 10 ^ ds.length = Nat.ofDigitChars 10 ds 0 * 10 ^ cs.length) :
    cs = ds := by
  obtain ⟨n, hn⟩ := Nat.exists_eq_add_of_le hle
  have hfilled : cs ++ List.replicate n '0' = ds := by
    apply digits_injective _ hd.digits
    · rw [List.length_append, List.length_replicate, hn]
    · rw [ofDigitChars_append_zeros]
      apply Nat.eq_of_mul_eq_mul_right (Nat.pow_pos (by decide : 0 < 10) : 0 < 10 ^ cs.length)
      rw [← h, hn, Nat.pow_add, Nat.mul_assoc, Nat.mul_comm (10 ^ n)]
    · intro c hm
      rcases List.mem_append.mp hm with hm | hm
      · exact hc.digits c hm
      · exact isDigit_of_mem_replicate hm
  cases n with
  | zero => rwa [List.replicate_zero, List.append_nil] at hfilled
  | succ n =>
    rw [List.replicate_succ', ← List.append_assoc] at hfilled
    exact absurd (by rw [← hfilled, List.getLast?_concat]) hd.trailing

theorem IsDecimals.eq (hc : IsDecimals cs) (hd : IsDecimals ds)
    (h : Nat.ofDigitChars 10 cs 0 * 10 ^ ds.length = Nat.ofDigitChars 10 ds 0 * 10 ^ cs.length) :
    cs = ds := by
  rcases Nat.le_total cs.length ds.length with hle | hle
  · exact hc.eq_of_length_le hd hle h
  · exact (hd.eq_of_length_le hc hle h.symm).symm

/-- Decimals are a part of one. -/
private theorem decimals_lt_one (h : ∀ c ∈ cs, c.isDigit = true) :
    (0 : ℚ) ≤ Nat.ofDigitChars 10 cs 0 / 10 ^ cs.length ∧
      (Nat.ofDigitChars 10 cs 0 : ℚ) / 10 ^ cs.length < 1 := by
  refine ⟨by positivity, ?_⟩
  rw [div_lt_one (by positivity)]
  exact_mod_cast ofDigitChars_lt h

theorem IsUnsignedNumeral.eq (hc : IsUnsignedNumeral cs) (hd : IsUnsignedNumeral ds)
    (h : unsignedValue? cs = unsignedValue? ds) : cs = ds := by
  obtain @⟨whole, decimals, hw, hf⟩ := hc
  obtain @⟨whole', decimals', hw', hf'⟩ := hd
  rw [unsignedValue?_pointed hw.nonempty hw.digits hf.digits,
    unsignedValue?_pointed hw'.nonempty hw'.digits hf'.digits] at h
  have hsum := Option.some.inj h
  obtain ⟨hlow, hhigh⟩ := decimals_lt_one hf.digits
  obtain ⟨hlow', hhigh'⟩ := decimals_lt_one hf'.digits
  have hwhole : Nat.ofDigitChars 10 whole 0 = Nat.ofDigitChars 10 whole' 0 := by
    apply Nat.le_antisymm
    · apply Nat.le_of_lt_succ
      have : (Nat.ofDigitChars 10 whole 0 : ℚ) < Nat.ofDigitChars 10 whole' 0 + 1 := by linarith
      exact_mod_cast this
    · apply Nat.le_of_lt_succ
      have : (Nat.ofDigitChars 10 whole' 0 : ℚ) < Nat.ofDigitChars 10 whole 0 + 1 := by linarith
      exact_mod_cast this
  rw [hwhole] at hsum
  have hfraction := add_left_cancel hsum
  rw [div_eq_div_iff (by positivity) (by positivity)] at hfraction
  rw [hw.eq hw' hwhole, hf.eq hf' (by exact_mod_cast hfraction)]

theorem isUnsignedNumeral_zero : IsUnsignedNumeral ['0'] := by
  have hwhole : IsWhole ['0'] :=
    ⟨List.cons_ne_nil _ _, List.forall_mem_singleton.mpr rfl, fun _ ↦ rfl⟩
  have hdecimals : IsDecimals [] := ⟨List.forall_mem_nil _, Nat.zero_le 3, nofun⟩
  exact .intro hwhole hdecimals

theorem IsUnsignedNumeral.exists_digit (h : IsUnsignedNumeral cs) :
    ∃ c rest, cs = c :: rest ∧ c.isDigit = true := by
  obtain @⟨whole, decimals, hw, -⟩ := h
  obtain ⟨c, rest, rfl⟩ := List.exists_cons_of_ne_nil hw.nonempty
  exact ⟨c, rest ++ pointed decimals, rfl, hw.digits c List.mem_cons_self⟩

/-- A canonical numeral without a sign stands for a number that is not negative. -/
theorem IsUnsignedNumeral.signedValue? (h : IsUnsignedNumeral cs) :
    Numeric.signedValue? cs = unsignedValue? cs ∧ ∃ q, 0 ≤ q ∧ unsignedValue? cs = some q := by
  constructor
  · obtain ⟨c, rest, rfl, hc⟩ := h.exists_digit
    unfold Numeric.signedValue?
    split
    · next heq =>
      rw [(List.cons.inj heq).1] at hc
      exact absurd hc (by decide)
    · rfl
  · obtain @⟨whole, decimals, hw, hf⟩ := h
    refine ⟨_, ?_, unsignedValue?_pointed hw.nonempty hw.digits hf.digits⟩
    positivity

/-- A number with a minus and one without are the same only if they are zero. -/
private theorem IsUnsignedNumeral.ne_minus (hc : IsUnsignedNumeral cs)
    (hd : IsUnsignedNumeral ds) (hz : ds ≠ ['0']) :
    Numeric.signedValue? cs ≠ Numeric.signedValue? ('-' :: ds) := by
  obtain ⟨hvalue, q, hq, hread⟩ := hc.signedValue?
  obtain ⟨-, r, hr, hread'⟩ := hd.signedValue?
  rw [hvalue, hread, Numeric.signedValue?, hread', Option.map_some]
  intro h
  have hneg : q = -r := Option.some.inj h
  have hzero : r = 0 := by linarith
  apply hz
  apply hd.eq isUnsignedNumeral_zero
  rw [hread', hzero]
  rfl

/-- Two canonical numerals for the same number are the same. -/
theorem IsCanonical.eq (hc : IsCanonical cs) (hd : IsCanonical ds)
    (h : signedValue? cs = signedValue? ds) : cs = ds := by
  cases hc with
  | plain hc =>
    cases hd with
    | plain hd =>
      rw [hc.signedValue?.1, hd.signedValue?.1] at h
      exact hc.eq hd h
    | minus hd hz => exact absurd h (hc.ne_minus hd hz)
  | minus hc hz =>
    cases hd with
    | plain hd => exact absurd h.symm (hd.ne_minus hc hz)
    | minus hd _ =>
      rw [signedValue?, signedValue?] at h
      rw [hc.eq hd (Option.map_injective neg_injective h)]

end Unique

/-! ### The numeral of a number of thousandths -/

theorem isWhole_toString (n : ℕ) : IsWhole (toString n).toList := by
  obtain ⟨hne, hdigits, hvalue⟩ := toList_toString_digits n
  refine ⟨hne, hdigits, fun hzero ↦ ?_⟩
  obtain ⟨rest, hcs⟩ := List.head?_eq_some_iff.mp hzero
  rw [hcs] at hdigits hvalue ⊢
  by_cases hrest : rest = []
  · rw [hrest]
  · -- Without the zero in front the digits still stand for `n`, so it has fewer than there are.
    have hlt : n < 10 ^ rest.length := by
      rw [← hvalue]
      exact ofDigitChars_lt fun c hc ↦ hdigits c (List.mem_cons_of_mem _ hc)
    have hshort := (Nat.length_toDigits_le_iff (by decide) (List.length_pos_iff.mpr hrest)).mpr hlt
    rw [← Nat.toList_repr, ← Nat.toString_eq_repr, hcs, List.length_cons] at hshort
    omega

theorem isUnsignedNumeral_thousandths (n : ℕ) :
    IsUnsignedNumeral ((toString (n / 1000)).toList ++ (fractionText (n % 1000)).toList) := by
  obtain ⟨decimals, htext, hdigits, hlength, htrailing, -⟩ :=
    fractionText_digits (Nat.mod_lt n (by decide))
  rw [htext]
  exact .intro (isWhole_toString _) ⟨hdigits, hlength, htrailing⟩

theorem isCanonical_thousandthsText (n : ℤ) : IsCanonical (thousandthsText n).toList := by
  have hunsigned := isUnsignedNumeral_thousandths n.natAbs
  have hvalue := unsignedValue?_thousandths n.natAbs
  unfold thousandthsText
  by_cases hn : n < 0
  · have hminus : "-".toList = ['-'] := rfl
    rw [if_pos hn, String.append_assoc, String.toList_append, String.toList_append, hminus,
      List.singleton_append]
    refine .minus hunsigned fun hzero ↦ ?_
    rw [hzero] at hvalue
    have hnone : (0 : ℚ) = (n.natAbs : ℚ) / 1000 := Option.some.inj hvalue
    have hpos : (0 : ℚ) < n.natAbs := by
      exact_mod_cast Int.natAbs_pos.mpr hn.ne
    linarith
  · rw [if_neg hn, String.empty_append, String.toList_append]
    exact .plain hunsigned

/-- A text is the numeral of a number of thousandths if and only if it is canonical and stands for
that number. -/
theorem eq_thousandthsText_iff (text : String) (n : ℤ) :
    text = thousandthsText n ↔
      IsCanonical text.toList ∧ decimalValue? text = some ((n : ℚ) / 1000) := by
  constructor
  · rintro rfl
    exact ⟨isCanonical_thousandthsText n, decimalValue?_thousandthsText n⟩
  · rintro ⟨hform, hvalue⟩
    rw [← decimalValue?_thousandthsText] at hvalue
    exact String.toList_inj.mp (hform.eq (isCanonical_thousandthsText n) hvalue)

/-! ### Dropping zeros -/

/-- A text without the zeros at its end and then without the points. What is left of a zero loses
its minus. -/
def zeroTrimmed (text : String) : String :=
  let short := (text.toList.rdropWhile (· == '0')).rdropWhile (· == '.')
  if short = ['-', '0'] ∨ short = [] then "0" else String.ofList short

section ZeroTrimmed

variable {front decimals : List Char}

/-- Zeros are dropped up to the point at most. -/
private theorem rdropWhile_zero (front decimals : List Char) :
    (front ++ '.' :: decimals).rdropWhile (· == '0') =
      front ++ '.' :: decimals.rdropWhile (· == '0') := by
  induction decimals using List.reverseRecOn with
  | nil => rw [List.rdropWhile_concat_neg _ _ _ (by decide), List.rdropWhile_nil]
  | append_singleton decimals c ih =>
    have hconcat : front ++ '.' :: (decimals ++ [c]) = front ++ '.' :: decimals ++ [c] := by
      rw [List.append_assoc, List.cons_append]
    rw [hconcat]
    by_cases hc : (c == '0') = true
    · rw [List.rdropWhile_concat_pos (· == '0') _ _ hc, ih,
        List.rdropWhile_concat_pos (· == '0') _ _ hc]
    · rw [List.rdropWhile_concat_neg (· == '0') _ _ hc,
        List.rdropWhile_concat_neg (· == '0') _ _ hc, hconcat]

private theorem rdropWhile_point_of_digits (hne : decimals ≠ [])
    (hd : ∀ c ∈ decimals, c.isDigit = true) (front : List Char) :
    (front ++ decimals).rdropWhile (· == '.') = front ++ decimals := by
  obtain ⟨digits, c, rfl⟩ := (List.eq_nil_or_concat decimals).resolve_left hne
  have hc : ¬ (c == '.') = true := by
    intro hpoint
    have hdigit := hd c (by simp)
    rw [beq_iff_eq.mp hpoint] at hdigit
    exact absurd hdigit (by decide)
  rw [List.concat_eq_append, ← List.append_assoc, List.rdropWhile_concat_neg (· == '.') _ _ hc]

/-- The point is dropped only without decimals. -/
private theorem rdropWhile_point {whole : List Char} (hw : IsWhole whole)
    (hd : ∀ c ∈ decimals, c.isDigit = true) (front : List Char) :
    (front ++ whole ++ '.' :: decimals).rdropWhile (· == '.') =
      front ++ whole ++ pointed decimals := by
  cases decimals with
  | nil =>
    rw [List.rdropWhile_concat_pos _ _ _ (by decide),
      rdropWhile_point_of_digits hw.nonempty hw.digits, pointed, List.append_nil]
  | cons c decimals =>
    have hconcat : front ++ whole ++ '.' :: c :: decimals =
        front ++ whole ++ ['.'] ++ c :: decimals := by
      rw [List.append_assoc _ ['.'], List.singleton_append]
    rw [hconcat, rdropWhile_point_of_digits (List.cons_ne_nil c decimals) hd, ← hconcat, pointed]
    exact List.cons_ne_nil c decimals

/-- Digits are those that are left and zeros. -/
private theorem exists_zeros (decimals : List Char) :
    ∃ n, decimals = decimals.rdropWhile (· == '0') ++ List.replicate n '0' := by
  have hzeros : ∀ c ∈ decimals.rtakeWhile (· == '0'), c = '0' := by
    intro c hc
    have hzero : (c == '0') = true := @List.mem_rtakeWhile_imp _ (· == '0') _ _ hc
    exact beq_iff_eq.mp hzero
  refine ⟨(decimals.rtakeWhile (· == '0')).length, ?_⟩
  rw [← List.eq_replicate_of_mem hzeros, List.rdropWhile_append_rtakeWhile]

/-- Three decimals without the zeros at their end stand for the same number. -/
private theorem isUnsignedNumeral_rdropWhile {whole : List Char} (hw : IsWhole whole)
    (hd : ∀ c ∈ decimals, c.isDigit = true) (hl : decimals.length ≤ 3) :
    IsUnsignedNumeral (whole ++ pointed (decimals.rdropWhile (· == '0'))) ∧
      unsignedValue? (whole ++ pointed (decimals.rdropWhile (· == '0'))) =
        unsignedValue? (whole ++ pointed decimals) := by
  have hlast : (decimals.rdropWhile (· == '0')).getLast? ≠ some '0' := by
    intro hzero
    have hne : decimals.rdropWhile (· == '0') ≠ [] := by
      intro hnil
      rw [hnil] at hzero
      cases hzero
    rw [List.getLast?_eq_some_getLast hne] at hzero
    exact List.rdropWhile_last_not (· == '0') decimals hne (beq_iff_eq.mpr (Option.some.inj hzero))
  obtain ⟨n, hn⟩ := exists_zeros decimals
  generalize decimals.rdropWhile (· == '0') = short at hn hlast ⊢
  subst hn
  have hshort : ∀ c ∈ short, c.isDigit = true := fun c hc ↦ hd c (List.mem_append_left _ hc)
  rw [List.length_append] at hl
  refine ⟨.intro hw ⟨hshort, by omega, hlast⟩, ?_⟩
  rw [unsignedValue?_pointed hw.nonempty hw.digits hshort,
    unsignedValue?_pointed hw.nonempty hw.digits hd, ofDigitChars_append_zeros, List.length_append,
    List.length_replicate, pow_add, Nat.cast_mul, Nat.cast_pow, Nat.cast_ofNat,
    mul_div_mul_right _ _ (by positivity)]

private theorem toList_fixedDigits (n : ℕ) : (Binary64.fixedDigits 3 n).toList =
    (toString (n / 1000)).toList ++ '.' :: (zeroPadded 3 (toString (n % 1000))).toList := by
  have hthousand : tenTo 3 = 1000 := rfl
  have hpoint : ".".toList = ['.'] := rfl
  rw [Binary64.fixedDigits, hthousand, String.toList_append, String.toList_append, hpoint,
    List.append_assoc, List.singleton_append]

/-- What is left of a text with three places, behind any sign. -/
private theorem exists_zeroTrimmed (n : ℕ) :
    ∃ cs, IsUnsignedNumeral cs ∧ unsignedValue? cs = some ((n : ℚ) / 1000) ∧ ∀ sign : List Char,
      ((sign ++ (Binary64.fixedDigits 3 n).toList).rdropWhile (· == '0')).rdropWhile (· == '.') =
        sign ++ cs := by
  have hw := isWhole_toString (n / 1000)
  have hwhole := (toList_toString_digits (n / 1000)).2.2
  obtain ⟨-, hlength, hall, hvalue⟩ := zeroPadded_digits (n % 1000) (by decide : 0 < 3)
  have hlength := hlength (Nat.mod_lt n (by decide))
  have hd := List.all_eq_true.mp hall
  rw [toList_fixedDigits]
  generalize (toString (n / 1000)).toList = whole at hw hwhole ⊢
  generalize (zeroPadded 3 (toString (n % 1000))).toList = decimals at hlength hd hvalue ⊢
  obtain ⟨hunsigned, hread⟩ := isUnsignedNumeral_rdropWhile hw hd hlength.le
  refine ⟨_, hunsigned, ?_, fun sign ↦ ?_⟩
  · have hsplit : (n : ℚ) = (n / 1000 : Nat) * 1000 + (n % 1000 : Nat) := by
      exact_mod_cast (Nat.div_add_mod' n 1000).symm
    have hvalue' : ((n / 1000 : Nat) : ℚ) + (n % 1000 : Nat) / 10 ^ 3 = (n : ℚ) / 1000 := by
      rw [hsplit]
      ring
    rw [hread, unsignedValue?_pointed hw.nonempty hw.digits hd, hvalue, hlength, hwhole, hvalue']
  · have hshort : ∀ c ∈ decimals.rdropWhile (· == '0'), c.isDigit = true :=
      fun c hc ↦ hd c ((List.rdropWhile_prefix _ _).subset hc)
    rw [← List.append_assoc, rdropWhile_zero, rdropWhile_point hw hshort, List.append_assoc]

/-- Three places without superfluous zeros are the numeral of the thousandths. -/
theorem zeroTrimmed_fixedDigits (negative : Bool) (n : ℕ) :
    zeroTrimmed (Binary64.signText negative ++ Binary64.fixedDigits 3 n) =
      thousandthsText (if negative then -(n : ℤ) else n) := by
  obtain ⟨cs, hcs, hvalue, hshort⟩ := exists_zeroTrimmed n
  obtain ⟨hsigned, -⟩ := hcs.signedValue?
  rw [eq_thousandthsText_iff, zeroTrimmed, String.toList_append, hshort]
  cases negative with
  | false =>
    have hsign : (Binary64.signText false).toList = [] := rfl
    have hkept : ¬ (cs = ['-', '0'] ∨ cs = []) := by
      obtain ⟨c, rest, rfl, hc⟩ := hcs.exists_digit
      rintro (h | h)
      · rw [(List.cons.inj h).1] at hc
        exact absurd hc (by decide)
      · exact absurd h (List.cons_ne_nil c rest)
    rw [hsign, List.nil_append, if_neg hkept, if_neg Bool.false_ne_true, decimalValue?,
      String.toList_ofList, hsigned, hvalue, Int.cast_natCast]
    exact ⟨.plain hcs, rfl⟩
  | true =>
    have hsign : (Binary64.signText true).toList = ['-'] := rfl
    rw [hsign, List.singleton_append, if_pos rfl, Int.cast_neg, Int.cast_natCast, neg_div]
    by_cases hzero : cs = ['0']
    · -- What is left of a negative zero.
      rw [hzero] at hvalue
      have hvalue : (0 : ℚ) = (n : ℚ) / 1000 := Option.some.inj hvalue
      rw [hzero, if_pos (Or.inl rfl), ← hvalue, neg_zero]
      exact ⟨.plain isUnsignedNumeral_zero, rfl⟩
    · have hkept : ¬ ('-' :: cs = ['-', '0'] ∨ '-' :: cs = []) := by
        simpa using hzero
      rw [if_neg hkept, decimalValue?, String.toList_ofList, signedValue?, hvalue]
      exact ⟨.minus hcs hzero, rfl⟩

end ZeroTrimmed

/-! ### Numerals of doubles -/

/-- The numeral of a double is its text with three places without the superfluous zeros. -/
theorem num_eq_zeroTrimmed (x : Binary64) : num x = zeroTrimmed (x.fixed 3) := by
  cases x with
  | nan => rfl
  | signed negative place =>
    by_cases hplace : place.val = infinitePlace
    · have hinfinite : (Binary64.signed negative place).isFinite = false :=
        decide_eq_false (by omega)
      rw [num, if_neg (by rw [hinfinite]; exact Bool.false_ne_true), Binary64.toText,
        Binary64.write, Binary64.fixed, if_pos hplace, if_pos hplace]
      cases negative <;> rfl
    · have hfinite : (Binary64.signed negative place).isFinite = true :=
        decide_eq_true (by omega)
      rw [num, if_pos hfinite, Binary64.fixed, if_neg hplace, zeroTrimmed_fixedDigits]
      rfl

namespace Binary64

variable {x y : Binary64}

/-- No other multiple of a thousandth is nearer to a finite double than its thousandths. -/
theorem thousandths_nearest (hx : x.isFinite = true) (n : ℤ) :
    |(x.thousandths : ℚ) / 1000 - x.value| ≤ |(n : ℚ) / 1000 - x.value| := by
  have hnear := abs_thousandths_sub_le hx
  by_cases hn : n = x.thousandths
  · rw [hn]
  · -- Another multiple is a thousandth away, of which the half is left.
    have hstep : (1 : ℚ) ≤ |(n : ℚ) - x.thousandths| := by
      exact_mod_cast Int.one_le_abs (sub_ne_zero.mpr hn)
    have hsplit : (n : ℚ) - x.thousandths =
        1000 * ((n : ℚ) / 1000 - x.value - (x.thousandths / 1000 - x.value)) := by
      ring
    have htriangle := abs_sub ((n : ℚ) / 1000 - x.value) (x.thousandths / 1000 - x.value)
    rw [hsplit, abs_mul, abs_of_pos (by norm_num : (0 : ℚ) < 1000)] at hstep
    linarith

end Binary64

open Binary64 in
/-- The numeral of a finite double is its text with three places without the superfluous zeros. Of
all texts it is the canonical one of the nearest multiple of a thousandth, which is at most half a
thousandth away. Doubles in order have numerals in order, and the same text is written for the same
thousandths. -/
theorem num_canonical {x : Binary64} (hx : x.isFinite = true) :
    num x = zeroTrimmed (x.fixed 3) ∧
    (∀ text, text = num x ↔ IsCanonical text.toList ∧
      decimalValue? text = some ((x.thousandths : ℚ) / 1000)) ∧
    (∀ n : ℤ, |(x.thousandths : ℚ) / 1000 - x.value| ≤ |(n : ℚ) / 1000 - x.value|) ∧
    |(x.thousandths : ℚ) / 1000 - x.value| ≤ 1 / 2000 ∧
    ∀ y : Binary64, y.isFinite = true →
      (x ≤ y → x.thousandths ≤ y.thousandths) ∧
      (x.thousandths = y.thousandths ↔ num x = num y) := by
  refine ⟨num_eq_zeroTrimmed x, fun text ↦ ?_, thousandths_nearest hx, abs_thousandths_sub_le hx,
    fun y hy ↦ ⟨fun h ↦ thousandths_mono (units_le_units h), fun h ↦ ?_, fun h ↦ ?_⟩⟩
  · rw [num, if_pos hx, eq_thousandthsText_iff]
  · rw [num, num, if_pos hx, if_pos hy, h]
  · have hvalue := decimalValue?_num hx
    rw [h, decimalValue?_num hy] at hvalue
    have hequal := Option.some.inj hvalue
    rw [div_left_inj' (by norm_num)] at hequal
    exact (Int.cast_inj.mp hequal).symm

/-- Just below ten, and just below zero: the zeros of the whole part stay, the minus goes. -/
theorem num_canonical_below_ten :
    (9.9996 : Binary64).isFinite = true ∧ (0.0004 : Binary64).neg.isFinite = true ∧
      (9.9996 : Binary64).fixed 3 = "10.000" ∧ (0.0004 : Binary64).neg.fixed 3 = "-0.000" ∧
      zeroTrimmed "10.000" = "10" ∧ zeroTrimmed "-0.000" = "0" ∧
      IsCanonical "10".toList ∧ IsCanonical "0".toList ∧ num 9.9996 = num 10 ∧
      |((9.9996 : Binary64).thousandths : ℚ) / 1000 - (9.9996 : Binary64).value| ≤
        |(9999 : ℤ) / 1000 - (9.9996 : Binary64).value| := by
  have hten : (9.9996 : Binary64).isFinite = true := by decide +kernel
  have hzero : (0.0004 : Binary64).neg.isFinite = true := by decide +kernel
  have hfixed : (9.9996 : Binary64).fixed 3 = "10.000" := by decide +kernel
  have hfixed' : (0.0004 : Binary64).neg.fixed 3 = "-0.000" := by decide +kernel
  have htrimmed : zeroTrimmed "10.000" = "10" := by decide +kernel
  have htrimmed' : zeroTrimmed "-0.000" = "0" := by decide +kernel
  obtain ⟨htext, hform, hnearest, -, hsame⟩ := num_canonical hten
  obtain ⟨htext', hform', -⟩ := num_canonical hzero
  rw [hfixed, htrimmed] at htext
  rw [hfixed', htrimmed'] at htext'
  refine ⟨hten, hzero, hfixed, hfixed', htrimmed, htrimmed', ((hform _).mp htext.symm).1,
    ((hform' _).mp htext'.symm).1, ?_, hnearest 9999⟩
  exact (hsame 10 (by decide +kernel)).2.mp (by decide +kernel)

end Montage.Numeric
