import Montage.Numeric.Binary64

/-!
# Reading numerals

Decimal numerals as engines and users write them: an optional sign, digits with an optional point
on either side of them, an optional exponent; or infinity or not-a-number by name in any case.
-/

namespace Montage.Numeric

private def digitsValue (digits : List Char) : Nat :=
  digits.foldl (fun n c => 10 * n + (c.toNat - '0'.toNat)) 0

private def exponent? : List Char → Option Int
  | [] => some 0
  | mark :: rest =>
    if mark = 'e' ∨ mark = 'E' then
      match rest with
      | '-' :: digits => (fun (n : Nat) => -(n : Int)) <$> power? digits
      | '+' :: digits => Int.ofNat <$> power? digits
      | digits => Int.ofNat <$> power? digits
    else none
where
  power? (digits : List Char) : Option Nat :=
    if digits ≠ [] ∧ digits.all Char.isDigit then some (digitsValue digits) else none

private def positional? (negative : Bool) (cs : List Char) : Option Binary64 :=
  let whole := cs.takeWhile Char.isDigit
  let (fraction, rest) := match cs.dropWhile Char.isDigit with
    | '.' :: rest => (rest.takeWhile Char.isDigit, rest.dropWhile Char.isDigit)
    | rest => ([], rest)
  if whole = [] ∧ fraction = [] then none
  else (exponent? rest).map fun exponent =>
    .ofDecimal negative (digitsValue (whole ++ fraction)) (exponent - (fraction.length : Int))

private def unsigned? (negative : Bool) (cs : List Char) : Option Binary64 :=
  match String.ofList (cs.map Char.toLower) with
  | "inf" | "infinity" => some (.infinity negative)
  | "nan" => some .nan
  | _ => positional? negative cs

/-- The double nearest to a numeral; none if the text is not a numeral. -/
def numeral? (text : List Char) : Option Binary64 :=
  match text with
  | '-' :: rest => unsigned? true rest
  | '+' :: rest => unsigned? false rest
  | rest => unsigned? false rest

/-! ### The grammar of numerals -/

/-- A run of digits that is not empty. -/
def IsDigits (cs : List Char) : Prop := cs ≠ [] ∧ ∀ c ∈ cs, c.isDigit = true

/-- The end of a numeral: nothing, or an exponent. -/
inductive IsExponent : List Char → Int → Prop where
  | absent : IsExponent [] 0
  | unsigned {mark : Char} {digits : List Char} (hm : mark = 'e' ∨ mark = 'E')
      (hd : IsDigits digits) : IsExponent (mark :: digits) (Nat.ofDigitChars 10 digits 0 : Nat)
  | plus {mark : Char} {digits : List Char} (hm : mark = 'e' ∨ mark = 'E')
      (hd : IsDigits digits) :
      IsExponent (mark :: '+' :: digits) (Nat.ofDigitChars 10 digits 0 : Nat)
  | minus {mark : Char} {digits : List Char} (hm : mark = 'e' ∨ mark = 'E')
      (hd : IsDigits digits) :
      IsExponent (mark :: '-' :: digits) (-(Nat.ofDigitChars 10 digits 0 : Nat))

/-- A numeral behind its sign: a word in any case, or digits with at most one point. -/
inductive IsMagnitude (negative : Bool) : List Char → Binary64 → Prop where
  | infinity {word : List Char} (h : String.ofList (word.map Char.toLower) ∈ ["inf", "infinity"]) :
      IsMagnitude negative word (.infinity negative)
  | nan {word : List Char} (h : String.ofList (word.map Char.toLower) = "nan") :
      IsMagnitude negative word .nan
  | whole {digits tail : List Char} {exponent : Int} (hd : IsDigits digits)
      (he : IsExponent tail exponent) :
      IsMagnitude negative (digits ++ tail)
        (.ofDecimal negative (Nat.ofDigitChars 10 digits 0) exponent)
  | pointed {whole fraction tail : List Char} {exponent : Int} (hd : IsDigits (whole ++ fraction))
      (he : IsExponent tail exponent) :
      IsMagnitude negative (whole ++ '.' :: (fraction ++ tail))
        (.ofDecimal negative (Nat.ofDigitChars 10 (whole ++ fraction) 0)
          (exponent - (fraction.length : Int)))

/-- A numeral and the double it is read as. -/
inductive IsNumeral : List Char → Binary64 → Prop where
  | unsigned {text : List Char} {x : Binary64} (h : IsMagnitude false text x) : IsNumeral text x
  | plus {text : List Char} {x : Binary64} (h : IsMagnitude false text x) :
      IsNumeral ('+' :: text) x
  | minus {text : List Char} {x : Binary64} (h : IsMagnitude true text x) :
      IsNumeral ('-' :: text) x

private theorem power?_eq_some_iff {digits : List Char} {n : Nat} :
    exponent?.power? digits = some n ↔ IsDigits digits ∧ Nat.ofDigitChars 10 digits 0 = n := by
  unfold exponent?.power? IsDigits
  rw [← List.all_eq_true]
  split
  · next h => exact ⟨fun heq => ⟨h, Option.some.inj heq⟩, fun heq => congrArg some heq.2⟩
  · next h => exact ⟨fun heq => (nomatch heq), fun heq => absurd heq.1 h⟩

private theorem exponent?_eq_some {cs : List Char} {exponent : Int}
    (h : exponent? cs = some exponent) : IsExponent cs exponent := by
  unfold exponent? at h
  split at h
  · obtain rfl := Option.some.inj h
    exact .absent
  · next mark rest =>
    split at h
    · next hmark =>
      split at h
      all_goals
        obtain ⟨n, hn, rfl⟩ := Option.map_eq_some_iff.mp h
        obtain ⟨hdigits, rfl⟩ := power?_eq_some_iff.mp hn
      · exact .minus hmark hdigits
      · exact .plus hmark hdigits
      · exact .unsigned hmark hdigits
    · contradiction

private theorem IsExponent.eq_some {cs : List Char} {exponent : Int} (h : IsExponent cs exponent) :
    exponent? cs = some exponent := by
  cases h with
  | absent => rfl
  | @unsigned mark digits hm hd =>
    have hhead : ∀ c rest, c.isDigit = false → digits ≠ c :: rest := by
      intro c rest hc heq
      rw [hd.2 c (heq ▸ List.mem_cons_self)] at hc
      contradiction
    simp only [exponent?, if_pos hm]
    split
    · exact absurd rfl (hhead '-' _ rfl)
    · exact absurd rfl (hhead '+' _ rfl)
    · rw [power?_eq_some_iff.mpr ⟨hd, rfl⟩]
      rfl
  | plus hm hd =>
    simp only [exponent?, if_pos hm, power?_eq_some_iff.mpr ⟨hd, rfl⟩]
    rfl
  | minus hm hd =>
    simp only [exponent?, if_pos hm, power?_eq_some_iff.mpr ⟨hd, rfl⟩]
    rfl

/-- No digits and no point begin an exponent. -/
private theorem IsExponent.stop {cs : List Char} {exponent : Int} (h : IsExponent cs exponent) :
    cs.takeWhile Char.isDigit = [] ∧ cs.dropWhile Char.isDigit = cs ∧ ∀ rest, cs ≠ '.' :: rest := by
  have hmark : ∀ mark rest, mark = 'e' ∨ mark = 'E' → cs = mark :: rest →
      cs.takeWhile Char.isDigit = [] ∧ cs.dropWhile Char.isDigit = cs ∧
        ∀ rest, cs ≠ '.' :: rest := by
    rintro mark rest (rfl | rfl) rfl <;> exact ⟨rfl, rfl, by simp⟩
  cases h with
  | absent => exact ⟨rfl, rfl, fun _ heq => nomatch heq⟩
  | unsigned hm hd => exact hmark _ _ hm rfl
  | plus hm hd => exact hmark _ _ hm rfl
  | minus hm hd => exact hmark _ _ hm rfl

private theorem isDigit_of_mem_takeWhile (text : List Char) :
    ∀ c ∈ text.takeWhile Char.isDigit, c.isDigit = true :=
  List.all_eq_true.mp List.all_takeWhile

private theorem positional?_eq_some {negative : Bool} {cs : List Char} {x : Binary64}
    (h : positional? negative cs = some x) : IsMagnitude negative cs x := by
  have hcs := List.takeWhile_append_dropWhile (p := Char.isDigit) (l := cs)
  have hwhole := isDigit_of_mem_takeWhile cs
  unfold positional? at h
  generalize cs.takeWhile Char.isDigit = whole at h hcs hwhole
  split at h
  next fraction tail hsplit =>
  dsimp only at h
  split at h
  · contradiction
  · next hne =>
    obtain ⟨exponent, he, rfl⟩ := Option.map_eq_some_iff.mp h
    have htail := exponent?_eq_some he
    split at hsplit
    · next rest hrest =>
      obtain ⟨rfl, rfl⟩ := Prod.mk.inj hsplit
      have htext : cs = whole ++ '.' :: (rest.takeWhile Char.isDigit ++
          rest.dropWhile Char.isDigit) := by
        rw [List.takeWhile_append_dropWhile, ← hrest, hcs]
      rw [htext]
      refine .pointed ⟨by simpa using hne, fun c hc => ?_⟩ htail
      rcases List.mem_append.mp hc with hc | hc
      · exact hwhole c hc
      · exact isDigit_of_mem_takeWhile rest c hc
    · obtain ⟨rfl, rfl⟩ := Prod.mk.inj hsplit
      rw [List.append_nil, List.length_nil, Int.natCast_zero, Int.sub_zero, ← hcs]
      exact .whole ⟨by simpa using hne, hwhole⟩ htail

private theorem positional?_whole (negative : Bool) {digits tail : List Char} {exponent : Int}
    (hd : IsDigits digits) (he : IsExponent tail exponent) :
    positional? negative (digits ++ tail) =
      some (.ofDecimal negative (Nat.ofDigitChars 10 digits 0) exponent) := by
  obtain ⟨htake, hdrop, hpoint⟩ := he.stop
  unfold positional?
  rw [List.takeWhile_append_of_pos hd.2, List.dropWhile_append_of_pos hd.2, htake, hdrop,
    List.append_nil]
  split
  next fraction rest hsplit =>
  split at hsplit
  · exact absurd rfl (hpoint _)
  · obtain ⟨rfl, rfl⟩ := Prod.mk.inj hsplit
    dsimp only
    rw [if_neg fun h => hd.1 h.1, he.eq_some, List.append_nil, List.length_nil, Int.natCast_zero]
    simp only [Option.map_some, Int.sub_zero]
    rfl

private theorem positional?_pointed (negative : Bool) {whole fraction tail : List Char}
    {exponent : Int} (hd : IsDigits (whole ++ fraction)) (he : IsExponent tail exponent) :
    positional? negative (whole ++ '.' :: (fraction ++ tail)) =
      some (.ofDecimal negative (Nat.ofDigitChars 10 (whole ++ fraction) 0)
        (exponent - (fraction.length : Int))) := by
  obtain ⟨htake, hdrop, -⟩ := he.stop
  have hwhole : ∀ c ∈ whole, c.isDigit = true :=
    fun c hc => hd.2 c (List.mem_append_left _ hc)
  have hfraction : ∀ c ∈ fraction, c.isDigit = true :=
    fun c hc => hd.2 c (List.mem_append_right _ hc)
  have hpoint : ∀ rest, ('.' :: rest).takeWhile Char.isDigit = [] ∧
      ('.' :: rest).dropWhile Char.isDigit = '.' :: rest := fun _ => ⟨rfl, rfl⟩
  unfold positional?
  rw [List.takeWhile_append_of_pos hwhole, List.dropWhile_append_of_pos hwhole, (hpoint _).1,
    (hpoint _).2, List.append_nil]
  simp only [List.takeWhile_append_of_pos hfraction, List.dropWhile_append_of_pos hfraction, htake,
    hdrop, List.append_nil]
  rw [if_neg fun h => hd.1 (by rw [h.1, h.2]; rfl), he.eq_some]
  rfl

private theorem toLower_eq_of_isDigit {c : Char} (h : c.isDigit = true) : c.toLower = c := by
  unfold Char.toLower
  split
  · next hupper =>
    simp only [Char.isDigit, Bool.and_eq_true, decide_eq_true_eq] at h
    exact absurd (Nat.le_trans hupper.1 h.2) (by decide)
  · rfl

/-- The words are written without digits. -/
private theorem unsigned?_of_isDigit (negative : Bool) {cs : List Char} {c : Char} (hc : c ∈ cs)
    (hd : c.isDigit = true) : unsigned? negative cs = positional? negative cs := by
  have hword : ∀ word : String, word.toList.all (fun c => !c.isDigit) = true →
      String.ofList (cs.map Char.toLower) ≠ word := by
    rintro word hdigits rfl
    rw [String.toList_ofList, List.all_eq_true] at hdigits
    have hlower := hdigits _ (List.mem_map_of_mem hc)
    rw [toLower_eq_of_isDigit hd, hd] at hlower
    contradiction
  unfold unsigned?
  split
  · next heq => exact absurd heq (hword _ rfl)
  · next heq => exact absurd heq (hword _ rfl)
  · next heq => exact absurd heq (hword _ rfl)
  · rfl

private theorem IsDigits.exists_mem {cs : List Char} (h : IsDigits cs) :
    ∃ c ∈ cs, c.isDigit = true :=
  (List.exists_mem_of_ne_nil cs h.1).imp fun c hc => ⟨hc, h.2 c hc⟩

private theorem unsigned?_eq_some_iff {negative : Bool} {cs : List Char} {x : Binary64} :
    unsigned? negative cs = some x ↔ IsMagnitude negative cs x := by
  constructor
  · intro h
    unfold unsigned? at h
    split at h
    · next heq =>
      obtain rfl := Option.some.inj h
      exact .infinity (heq ▸ List.mem_cons_self)
    · next heq =>
      obtain rfl := Option.some.inj h
      exact .infinity (heq ▸ List.mem_cons_of_mem _ List.mem_cons_self)
    · next heq =>
      obtain rfl := Option.some.inj h
      exact .nan heq
    · exact positional?_eq_some h
  · intro h
    cases h with
    | infinity h =>
      rcases List.mem_cons.mp h with heq | heq
      · simp only [unsigned?, heq]
      · simp only [unsigned?, List.mem_singleton.mp heq]
    | nan h => simp only [unsigned?, h]
    | whole hd he =>
      obtain ⟨c, hc, hdigit⟩ := hd.exists_mem
      rw [unsigned?_of_isDigit negative (List.mem_append_left _ hc) hdigit]
      exact positional?_whole negative hd he
    | @pointed whole fraction tail _ hd he =>
      obtain ⟨c, hc, hdigit⟩ := hd.exists_mem
      have hmem : c ∈ whole ++ '.' :: (fraction ++ tail) := by
        rcases List.mem_append.mp hc with hc | hc
        · exact List.mem_append_left _ hc
        · exact List.mem_append_right _ (List.mem_cons_of_mem _ (List.mem_append_left _ hc))
      rw [unsigned?_of_isDigit negative hmem hdigit]
      exact positional?_pointed negative hd he

/-- Behind its sign a numeral begins with a digit, a point or a letter. -/
private theorem IsMagnitude.ne_sign {negative : Bool} {cs : List Char} {x : Binary64}
    (h : IsMagnitude negative cs x) {sign : Char} (hs : sign = '-' ∨ sign = '+') :
    ∀ rest, cs ≠ sign :: rest := by
  rintro rest rfl
  have hhead : ∀ word, String.ofList ((sign :: rest).map Char.toLower) = word →
      word.toList.head? = some sign.toLower := by
    rintro word rfl
    rw [String.toList_ofList]
    rfl
  have hnone : unsigned? negative (sign :: rest) = none := by
    unfold unsigned?
    split
    · next heq => rcases hs with rfl | rfl <;> exact absurd (hhead _ heq) (by decide)
    · next heq => rcases hs with rfl | rfl <;> exact absurd (hhead _ heq) (by decide)
    · next heq => rcases hs with rfl | rfl <;> exact absurd (hhead _ heq) (by decide)
    · rcases hs with rfl | rfl <;> rfl
  rw [unsigned?_eq_some_iff.mpr h] at hnone
  contradiction

/-- A text is read as a double if it is a numeral for it. -/
theorem numeral?_eq_some_iff {text : List Char} {x : Binary64} :
    numeral? text = some x ↔ IsNumeral text x := by
  constructor
  · intro h
    unfold numeral? at h
    split at h
    · exact .minus (unsigned?_eq_some_iff.mp h)
    · exact .plus (unsigned?_eq_some_iff.mp h)
    · exact .unsigned (unsigned?_eq_some_iff.mp h)
  · intro h
    cases h with
    | unsigned h =>
      unfold numeral?
      split
      · exact absurd rfl (h.ne_sign (.inl rfl) _)
      · exact absurd rfl (h.ne_sign (.inr rfl) _)
      · exact unsigned?_eq_some_iff.mpr h
    | plus h => exact unsigned?_eq_some_iff.mpr h
    | minus h => exact unsigned?_eq_some_iff.mpr h

/-! ### Letters of numerals -/

/-- The characters of numerals. -/
def isNumeralLetter (c : Char) : Bool := c.isAlphanum || c == '+' || c == '-' || c == '.'

private theorem ascii_of_isNumeralLetter {c : Char} (h : isNumeralLetter c = true) :
    c.toNat < 128 := by
  delta isNumeralLetter Char.isAlphanum Char.isAlpha Char.isUpper Char.isLower Char.isDigit at h
  simp only [Bool.or_eq_true, Bool.and_eq_true, decide_eq_true_eq, beq_iff_eq] at h
  rcases h with (((((h | h) | h) | rfl) | rfl) | rfl)
  · exact Nat.lt_of_le_of_lt h.2 (by decide)
  · exact Nat.lt_of_le_of_lt h.2 (by decide)
  · exact Nat.lt_of_le_of_lt h.2 (by decide)
  all_goals decide

private theorem isNumeralLetter_of_isDigit {c : Char} (h : c.isDigit = true) :
    isNumeralLetter c = true := by
  simp only [isNumeralLetter, Char.isAlphanum, h, Bool.or_true, Bool.true_or]

private theorem isNumeralLetter_of_toLower {c : Char} (h : c.toLower.isLower = true) :
    isNumeralLetter c = true := by
  have halpha : c.isAlpha = true := by
    show (c.isUpper || c.isLower) = true
    unfold Char.toLower at h
    split at h
    · next hupper =>
      have hc : c.isUpper = true := decide_eq_true hupper
      rw [hc, Bool.true_or]
    · rw [h, Bool.or_true]
  simp only [isNumeralLetter, Char.isAlphanum, halpha, Bool.true_or]

private theorem IsDigits.letters {cs : List Char} (h : IsDigits cs) :
    ∀ c ∈ cs, isNumeralLetter c = true :=
  fun c hc => isNumeralLetter_of_isDigit (h.2 c hc)

private theorem IsExponent.letters {cs : List Char} {exponent : Int} (h : IsExponent cs exponent) :
    ∀ c ∈ cs, isNumeralLetter c = true := by
  have hmark : ∀ mark : Char, mark = 'e' ∨ mark = 'E' → isNumeralLetter mark = true := by
    rintro mark (rfl | rfl) <;> decide
  cases h with
  | absent => exact List.forall_mem_nil _
  | unsigned hm hd => exact List.forall_mem_cons.mpr ⟨hmark _ hm, hd.letters⟩
  | plus hm hd =>
    exact List.forall_mem_cons.mpr ⟨hmark _ hm, List.forall_mem_cons.mpr ⟨by decide, hd.letters⟩⟩
  | minus hm hd =>
    exact List.forall_mem_cons.mpr ⟨hmark _ hm, List.forall_mem_cons.mpr ⟨by decide, hd.letters⟩⟩

private theorem IsMagnitude.letters {negative : Bool} {cs : List Char} {x : Binary64}
    (h : IsMagnitude negative cs x) : ∀ c ∈ cs, isNumeralLetter c = true := by
  have hword : ∀ word : String, word.toList.all Char.isLower = true →
      String.ofList (cs.map Char.toLower) = word → ∀ c ∈ cs, isNumeralLetter c = true := by
    rintro word hlower rfl c hc
    rw [String.toList_ofList] at hlower
    exact isNumeralLetter_of_toLower (List.all_eq_true.mp hlower _ (List.mem_map_of_mem hc))
  cases h with
  | infinity h =>
    rcases List.mem_cons.mp h with heq | heq
    · exact hword _ rfl heq
    · exact hword _ rfl (List.mem_singleton.mp heq)
  | nan h => exact hword _ rfl h
  | whole hd he => exact List.forall_mem_append.mpr ⟨hd.letters, he.letters⟩
  | pointed hd he =>
    obtain ⟨hwhole, hfraction⟩ := List.forall_mem_append.mp hd.letters
    exact List.forall_mem_append.mpr ⟨hwhole, List.forall_mem_cons.mpr
      ⟨by decide, List.forall_mem_append.mpr ⟨hfraction, he.letters⟩⟩⟩

/-- Numerals are written with digits, letters, signs and points. -/
theorem IsNumeral.letters {text : List Char} {x : Binary64} (h : IsNumeral text x) :
    ∀ c ∈ text, isNumeralLetter c = true := by
  cases h with
  | unsigned h => exact h.letters
  | plus h => exact List.forall_mem_cons.mpr ⟨by decide, h.letters⟩
  | minus h => exact List.forall_mem_cons.mpr ⟨by decide, h.letters⟩

/-- Numerals are written in ASCII; the digits of other scripts are none. -/
theorem numeral?_eq_none {text : List Char} {c : Char} (hc : c ∈ text) (hn : 128 ≤ c.toNat) :
    numeral? text = none := by
  cases h : numeral? text with
  | none => rfl
  | some x =>
    have hletter := (numeral?_eq_some_iff.mp h).letters c hc
    exact absurd (ascii_of_isNumeralLetter hletter) (Nat.not_lt.mpr hn)

/-- Digits, and digits with a point behind the first of them, are a numeral without a sign. -/
theorem exists_numeral?_eq_some {whole fraction : List Char} (hne : whole ≠ [])
    (hw : ∀ c ∈ whole, c.isDigit = true)
    (hf : fraction = [] ∨
      ∃ digits, fraction = '.' :: digits ∧ ∀ c ∈ digits, c.isDigit = true) :
    ∃ digits exponent, numeral? (whole ++ fraction) = some (.ofDecimal false digits exponent) := by
  rcases hf with rfl | ⟨digits, rfl, hd⟩
  · exact ⟨_, _, numeral?_eq_some_iff.mpr (.unsigned (.whole ⟨hne, hw⟩ .absent))⟩
  · have hdigits : IsDigits (whole ++ digits) :=
      ⟨by simp [hne], List.forall_mem_append.mpr ⟨hw, hd⟩⟩
    have hmagnitude : IsMagnitude false (whole ++ '.' :: (digits ++ [])) _ :=
      .pointed hdigits .absent
    rw [List.append_nil] at hmagnitude
    exact ⟨_, _, numeral?_eq_some_iff.mpr (.unsigned hmagnitude)⟩

end Montage.Numeric
