import Montage.Graph.Expression
import Montage.Proofs.Graph.Escaping
import Montage.Proofs.Graph.ReadBack
import Montage.Proofs.Numeric.Numerals

/-!
# What protects values

Escaped texts and paths are protected, rendered expressions need no protection between quotes, and
numbers need none at all.
-/

namespace Montage.Graph

open Montage.Numeric (Binary64 num)
open Reader

/-! ### Escaped text -/

/-- The specials of the option level are among these characters, and white space is not. -/
structure Guarding (specials : List Char) : Prop where
  backslash : '\\' ∈ specials
  quote : '\'' ∈ specials
  colon : ':' ∈ specials
  solid : ∀ c ∈ specials, isSpace c = false

theorem Escaper.guarding (escaper : Escaper) : Guarding escaper.specials := by
  cases escaper with
  | text =>
    exact ⟨by decide, by decide, by decide, by simp [Escaper.specials, textSpecials, isSpace]⟩
  | title =>
    exact ⟨by decide, by decide, by decide, by simp [Escaper.specials, titleSpecials, isSpace]⟩

theorem guarding_pathSpecials : Guarding pathSpecials :=
  ⟨by decide, by decide, by decide, by simp [pathSpecials, isSpace]⟩

/-- Well-escaped text is protected. -/
theorem WellEscaped.guarded {specials text : List Char} (hs : Guarding specials)
    (h : WellEscaped specials text) : Protected text := by
  induction h using WellEscaped.induction with
  | nil => exact .nil
  | pair c rest _ _ _ ih => exact .pair ih
  | single c rest hn _ _ ih =>
    exact .plain (ne_of_mem_of_not_mem hs.backslash hn).symm
      (ne_of_mem_of_not_mem hs.quote hn).symm (ne_of_mem_of_not_mem hs.colon hn).symm ih

theorem protected_escapeText (text : String) : Protected (escapeText text).toList :=
  (Escaper.text.wellEscaped_escape text).guarded Escaper.text.guarding

theorem protected_escapeTitle (text : String) : Protected (escapeTitle text).toList :=
  (Escaper.title.wellEscaped_escape text).guarded Escaper.title.guarding

theorem protected_escapePath (path : String) : Protected (escapePath path).toList :=
  (wellEscaped_escapePath path).guarded guarding_pathSpecials

/-! ### Expressions -/

/-- A text without the specials of the option level. -/
def Harmless (text : String) : Prop := ∀ c ∈ text.toList, c ∉ ['\\', '\'', ':']

instance (text : String) : Decidable (Harmless text) :=
  List.decidableBAll (fun c ↦ c ∉ ['\\', '\'', ':']) text.toList

private theorem protected_of_forall {cs : List Char} (h : ∀ c ∈ cs, c ∉ ['\\', '\'', ':']) :
    Protected cs := by
  induction cs with
  | nil => exact .nil
  | cons c cs ih =>
    obtain ⟨hc, hcs⟩ := List.forall_mem_cons.mp h
    exact .plain (fun he ↦ hc (by simp [he])) (fun he ↦ hc (by simp [he]))
      (fun he ↦ hc (by simp [he])) (ih hcs)

theorem Harmless.guarded {text : String} (h : Harmless text) : Protected text.toList :=
  protected_of_forall h

/-- What holds of the characters of two texts holds of those of both together. -/
private theorem forall_mem_toList_append {P : Char → Prop} {a b : String}
    (ha : ∀ c ∈ a.toList, P c) (hb : ∀ c ∈ b.toList, P c) : ∀ c ∈ (a ++ b).toList, P c := by
  rw [String.toList_append]
  exact List.forall_mem_append.mpr ⟨ha, hb⟩

theorem Harmless.append {a b : String} (ha : Harmless a) (hb : Harmless b) : Harmless (a ++ b) :=
  forall_mem_toList_append ha hb

theorem Bare.append {a b : String} (ha : Bare a) (hb : Bare b) : Bare (a ++ b) :=
  forall_mem_toList_append ha hb

theorem Bare.harmless {text : String} (h : Bare text) : Harmless text := by
  intro c hc hm
  have hn := (isBareChar_iff.mp (h c hc)).2
  simp only [List.mem_cons, List.not_mem_nil, or_false] at hm
  rcases hm with rfl | rfl | rfl <;> exact hn (by decide)

private theorem quoteChars_of_harmless {cs : List Char} (h : ∀ c ∈ cs, c ∉ ['\\', '\'', ':']) :
    quoteChars cs = cs := by
  induction cs with
  | nil => rfl
  | cons c cs ih =>
    obtain ⟨hc, hcs⟩ := List.forall_mem_cons.mp h
    have hb : c ≠ '\\' := fun he ↦ hc (by simp [he])
    have hq : c ≠ '\'' := fun he ↦ hc (by simp [he])
    rw [quoteChars.eq_def]
    split <;> simp_all

/-- Harmless text stands between quotes as it is. -/
theorem Harmless.quoted_eq {text : String} (h : Harmless text) :
    quoted text = "'" ++ text ++ "'" := by
  apply String.toList_injective
  rw [quoted, quoteChars_of_harmless h, String.toList_ofList]
  simp [String.toList_append]

/-! ### Numbers -/

/-- A character of a numeral behind its sign. -/
def isNumeralChar (c : Char) : Bool := c.isDigit || c == '.'

/-- A text of digits and points. -/
def IsUnsigned (text : String) : Prop := ∀ c ∈ text.toList, isNumeralChar c = true

instance (text : String) : Decidable (IsUnsigned text) :=
  List.decidableBAll (fun c ↦ isNumeralChar c = true) text.toList

/-- A text of digits and points, with a minus in front of it or not. -/
def IsNumeral (text : String) : Prop :=
  ∃ sign ∈ ["", "-"], ∃ digits, IsUnsigned digits ∧ text = sign ++ digits

theorem IsUnsigned.append {a b : String} (ha : IsUnsigned a) (hb : IsUnsigned b) :
    IsUnsigned (a ++ b) :=
  forall_mem_toList_append ha hb

theorem IsUnsigned.isNumeral {text : String} (h : IsUnsigned text) : IsNumeral text :=
  ⟨"", List.mem_cons_self, text, h, String.empty_append.symm⟩

theorem IsNumeral.forall_mem {text : String} (h : IsNumeral text) :
    ∀ c ∈ text.toList, c = '-' ∨ c = '.' ∨ c.isDigit = true := by
  obtain ⟨sign, hs, digits, hd, rfl⟩ := h
  have hsigns : ∀ sign ∈ ["", "-"], ∀ c ∈ sign.toList, c = '-' := by simp
  intro c hc
  rw [String.toList_append] at hc
  rcases List.mem_append.mp hc with hc | hc
  · exact .inl (hsigns sign hs c hc)
  · have hnumeral := hd c hc
    simp only [isNumeralChar, Bool.or_eq_true, beq_iff_eq] at hnumeral
    exact .inr hnumeral.symm

theorem IsNumeral.bare {text : String} (h : IsNumeral text) : Bare text := by
  intro c hc
  rcases h.forall_mem c hc with rfl | rfl | hdigit
  · decide
  · decide
  · refine isBareChar_of_isKeyChar ?_
    rw [isKeyChar, Char.isAlphanum, hdigit, Bool.or_true]
    rfl

theorem unsigned_toString (n : Nat) : IsUnsigned (toString n) := by
  intro c hc
  rw [Nat.toString_eq_repr, Nat.toList_repr] at hc
  have hdigit := Nat.isDigit_of_mem_toDigits (by decide) (by decide) hc
  rw [isNumeralChar, hdigit, Bool.true_or]

theorem numeral_toString_int (n : Int) : IsNumeral (toString n) := by
  cases n with
  | ofNat n => exact (unsigned_toString n).isNumeral
  | negSucc n => exact ⟨"-", by decide, toString (n + 1), unsigned_toString _, rfl⟩

private theorem unsigned_zeroPadded {text : String} (width : Nat) (h : IsUnsigned text) :
    IsUnsigned (Numeric.zeroPadded width text) := by
  refine IsUnsigned.append ?_ h
  intro c hc
  rw [String.toList_ofList] at hc
  rw [List.eq_of_mem_replicate hc]
  decide

private theorem unsigned_fractionText (thousandths : Nat) :
    IsUnsigned (Numeric.fractionText thousandths) := by
  have hpoint : IsUnsigned "." := by decide
  unfold Numeric.fractionText
  split
  · decide
  · split
    · exact hpoint.append (unsigned_toString _)
    · split
      · exact hpoint.append (unsigned_zeroPadded 2 (unsigned_toString _))
      · exact hpoint.append (unsigned_zeroPadded 3 (unsigned_toString _))

/-- A finite number is written as a numeral. -/
theorem numeral_num {x : Binary64} (h : x.isFinite = true) : IsNumeral (num x) := by
  rw [num, if_pos h, Numeric.thousandthsText]
  refine ⟨if x.thousandths < 0 then "-" else "", ?_, _,
    (unsigned_toString _).append (unsigned_fractionText _), String.append_assoc ..⟩
  split <;> decide

/-- A finite number that is not rounded below zero is written without a minus. -/
theorem unsigned_num {x : Binary64} (h : x.isFinite = true) (hn : 0 ≤ x.thousandths) :
    IsUnsigned (num x) := by
  have hsign : ¬ x.thousandths < 0 := Int.not_lt.mpr hn
  rw [num, if_pos h, Numeric.thousandthsText, if_neg hsign, String.empty_append]
  exact (unsigned_toString _).append (unsigned_fractionText _)

private theorem signText_mem (negative : Bool) : Binary64.signText negative ∈ ["", "-"] := by
  cases negative <;> decide

theorem numeral_fixed (places : Nat) {x : Binary64} (h : x.isFinite = true) :
    IsNumeral (x.fixed places) := by
  obtain ⟨negative, place, rfl, hplace⟩ := Binary64.exists_signed_of_isFinite h
  have hpoint : IsUnsigned "." := by decide
  rw [Binary64.fixed, if_neg hplace]
  exact ⟨_, signText_mem negative, _, ((unsigned_toString _).append hpoint).append
    (unsigned_zeroPadded _ (unsigned_toString _)), rfl⟩

theorem bare_toString_nat (n : Nat) : Bare (toString n) := (unsigned_toString n).isNumeral.bare

theorem bare_toString_int (n : Int) : Bare (toString n) := (numeral_toString_int n).bare

/-- A number is written as a numeral or, if it is not finite, as a word. -/
theorem num_cases (x : Binary64) :
    IsNumeral (num x) ∨ num x ∈ ["NaN", "inf", "-inf"] := by
  cases hf : x.isFinite with
  | false => exact .inr (Numeric.num_mem_of_not_finite hf)
  | true => exact .inl (numeral_num hf)

/-- Numbers of a graph are bare, not-a-number and infinities among them. -/
theorem bare_num (x : Binary64) : Bare (num x) := by
  have hwords : ∀ word ∈ ["NaN", "inf", "-inf"], Bare word := by decide
  exact (num_cases x).elim IsNumeral.bare (hwords _)

theorem toString_nat_ne_empty (n : Nat) : toString n ≠ "" := by
  intro h
  have hl := congrArg String.toList h
  rw [Nat.toString_eq_repr, Nat.toList_repr] at hl
  exact Nat.toDigits_ne_nil hl

theorem num_ne_empty (x : Binary64) : num x ≠ "" := by
  cases hf : x.isFinite with
  | false =>
    have hwords : ∀ word ∈ ["NaN", "inf", "-inf"], word ≠ "" := by decide
    exact hwords _ (Numeric.num_mem_of_not_finite hf)
  | true =>
    rw [num, if_pos hf, Numeric.thousandthsText]
    intro h
    have hdigits := (String.append_eq_empty_iff.mp (String.append_eq_empty_iff.mp h).1).2
    exact toString_nat_ne_empty _ hdigits

/-! ### Rendered expressions -/

/-- The names and functions of an expression. -/
def Expression.names : Expression → List String
  | .name text => [text]
  | .decimal _ | .whole _ => []
  | .neg a | .group a => a.names
  | .add a b | .sub a b | .mul a b | .div a b => a.names ++ b.names
  | .call1 function a => function :: a.names
  | .call2 function a b => function :: (a.names ++ b.names)
  | .call3 function a b c => function :: (a.names ++ b.names ++ c.names)

/-- An expression is as harmless as its names. -/
theorem harmless_render {e : Expression} (h : ∀ n ∈ e.names, Harmless n) : Harmless e.render := by
  induction e with
  | name text => exact h text List.mem_cons_self
  | decimal value => exact (bare_num value).harmless
  | whole value => exact (bare_toString_int value).harmless
  | neg a ih => exact Harmless.append (by decide) (ih h)
  | add a b iha ihb | sub a b iha ihb | mul a b iha ihb | div a b iha ihb =>
    obtain ⟨ha, hb⟩ := List.forall_mem_append.mp h
    exact ((iha ha).append (by decide)).append (ihb hb)
  | group a ih =>
    have hopen : Harmless "(" := by decide
    exact (hopen.append (ih h)).append (by decide)
  | call1 f a ih =>
    obtain ⟨hf, ha⟩ := List.forall_mem_cons.mp h
    exact ((hf.append (by decide)).append (ih ha)).append (by decide)
  | call2 f a b iha ihb =>
    obtain ⟨hf, hab⟩ := List.forall_mem_cons.mp h
    obtain ⟨ha, hb⟩ := List.forall_mem_append.mp hab
    exact ((((hf.append (by decide)).append (iha ha)).append (by decide)).append (ihb hb)).append
      (by decide)
  | call3 f a b c iha ihb ihc =>
    obtain ⟨hf, habc⟩ := List.forall_mem_cons.mp h
    obtain ⟨hab, hc⟩ := List.forall_mem_append.mp habc
    obtain ⟨ha, hb⟩ := List.forall_mem_append.mp hab
    exact ((((((hf.append (by decide)).append (iha ha)).append (by decide)).append
      (ihb hb)).append (by decide)).append (ihc hc)).append (by decide)

/-- The expression has no function calls, so no commas. -/
def Expression.isArithmetic : Expression → Bool
  | .name _ | .decimal _ | .whole _ => true
  | .neg a | .group a => a.isArithmetic
  | .add a b | .sub a b | .mul a b | .div a b => a.isArithmetic && b.isArithmetic
  | .call1 .. | .call2 .. | .call3 .. => false

/-- Without function calls an expression needs no quotes if its names need none. -/
theorem bare_render {e : Expression} (he : e.isArithmetic = true) (h : ∀ n ∈ e.names, Bare n) :
    Bare e.render := by
  induction e with
  | name text => exact h text List.mem_cons_self
  | decimal value => exact bare_num value
  | whole value => exact bare_toString_int value
  | neg a ih => exact Bare.append (by decide) (ih he h)
  | add a b iha ihb | sub a b iha ihb | mul a b iha ihb | div a b iha ihb =>
    obtain ⟨hea, heb⟩ := Bool.and_eq_true_iff.mp he
    obtain ⟨ha, hb⟩ := List.forall_mem_append.mp h
    exact ((iha hea ha).append (by decide)).append (ihb heb hb)
  | group a ih =>
    have hopen : Bare "(" := by decide
    exact (hopen.append (ih he h)).append (by decide)
  | call1 => cases he
  | call2 => cases he
  | call3 => cases he

/-! ### Options -/

/-- A bare value is readable behind a key. -/
theorem readable_opt {key value : String} (hk : IsKey key) (hv : Bare value) :
    (opt key value).Readable :=
  .keyed hk hv.valueOf

/-- A protected text is readable between quotes. -/
theorem readable_quoted {key value : String} (hk : IsKey key)
    (hv : Reader.Protected value.toList) : (opt key (quoted value)).Readable :=
  .keyed hk (valueOf_quoted hv)

/-- A bare value is readable by position. -/
theorem readable_pos {value : String} (hv : value ≠ "" ∧ Bare value) : (pos value).Readable :=
  .positional hv.1 hv.2

theorem readable_num (x : Binary64) : (pos (num x)).Readable :=
  .positional (num_ne_empty x) (bare_num x)

/-- A filter is readable with its options. -/
theorem readable_filter {name : String} {options : List FilterOption}
    (hn : name ≠ "" ∧ Bare name) (ho : ∀ o ∈ options, o.Readable) :
    (Filter.mk name options).Readable :=
  ⟨hn.1, hn.2, ho⟩

end Montage.Graph
