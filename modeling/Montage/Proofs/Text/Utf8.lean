import Mathlib.Tactic.ByContra
import Montage.Text.Utf8

/-!
# Characters among bytes

What a byte begins with the bytes behind it. A character whose bytes are all there does not depend
on what comes later, and the bytes that go on with a character begin none on their own.
-/

namespace Montage.Text

/-- The first bytes, so many of them, go on with a character that began before. -/
structure Continues (count : Nat) (bytes : List UInt8) : Prop where
  le : count ≤ bytes.length
  continuation : ∀ b ∈ bytes.take count, isContinuation b = true

theorem continues_zero (bytes : List UInt8) : Continues 0 bytes where
  le := Nat.zero_le _
  continuation := by simp

theorem continues_cons_iff {count : Nat} {b : UInt8} {rest : List UInt8} :
    Continues (count + 1) (b :: rest) ↔ isContinuation b = true ∧ Continues count rest := by
  constructor
  · intro h
    refine ⟨h.continuation b (by simp), ⟨Nat.le_of_succ_le_succ h.le, fun c hc ↦ ?_⟩⟩
    exact h.continuation c (by simp [hc])
  · rintro ⟨hb, h⟩
    refine ⟨Nat.succ_le_succ h.le, fun c hc ↦ ?_⟩
    rw [List.take_succ_cons, List.mem_cons] at hc
    rcases hc with rfl | hc
    · exact hb
    · exact h.continuation c hc

/-- What may follow the first byte goes on with a character. -/
theorem mayFollow_eq_false (first : UInt8) {b : UInt8} (h : isContinuation b = false) :
    mayFollow first b = false := by
  simp only [isContinuation, between, Bool.and_eq_false_iff, decide_eq_false_iff_not,
    UInt8.not_le, UInt8.lt_iff_toNat_lt] at h
  simp only [mayFollow, isContinuation, between, UInt8.le_iff_toNat_le]
  simp only [UInt8.reduceToNat] at h ⊢
  repeat' split
  all_goals
    rw [Bool.and_eq_false_iff, decide_eq_false_iff_not, decide_eq_false_iff_not]
    omega

theorem isContinuation_of_mayFollow {first b : UInt8} (h : mayFollow first b = true) :
    isContinuation b = true := by
  by_contra hn
  rw [Bool.not_eq_true] at hn
  rw [mayFollow_eq_false first hn] at h
  cases h

/-- The bytes that belong to a character are there. -/
theorem tail_used_le (first : UInt8) (rest : List UInt8) : (tail first rest).2 ≤ rest.length := by
  unfold tail
  repeat' split
  all_goals simp

theorem continues_tail (first : UInt8) (rest : List UInt8) :
    Continues (tail first rest).2 rest := by
  have hf := @isContinuation_of_mayFollow first
  constructor
  · exact tail_used_le first rest
  · unfold tail
    repeat' split
    all_goals simp_all

/-- A character whose bytes are all there does not depend on what comes later. -/
theorem tail_append_of_le {first : UInt8} {rest more : List UInt8}
    (h : (tail first (rest ++ more)).2 ≤ rest.length) :
    tail first rest = tail first (rest ++ more) := by
  -- A character has at most three bytes after the first: so many of `rest ++ more` matter.
  rcases rest with _ | ⟨b, _ | ⟨c, _ | ⟨d, rest⟩⟩⟩
  · rcases more with _ | ⟨b, _ | ⟨c, _ | ⟨d, more⟩⟩⟩ <;> grind [tail]
  · rcases more with _ | ⟨c, _ | ⟨d, more⟩⟩ <;> grind [tail]
  · rcases more with _ | ⟨d, more⟩ <;> grind [tail]
  · rfl

/-- What the first byte begins, with how many of the bytes behind it belong to it. -/
def character (first : UInt8) (rest : List UInt8) : Char × Nat :=
  if first < 0x80 then (Char.ofNat first.toNat, 0) else tail first rest

theorem decodeFrom_zero_cons (first : UInt8) (rest : List UInt8) :
    decodeFrom 0 (first :: rest) =
      (character first rest).1 :: decodeFrom (character first rest).2 rest := by
  rw [decodeFrom, character]
  split <;> rfl

theorem continues_character (first : UInt8) (rest : List UInt8) :
    Continues (character first rest).2 rest := by
  rw [character]
  split
  · exact continues_zero rest
  · exact continues_tail first rest

theorem character_append_of_le {first : UInt8} {rest more : List UInt8}
    (h : (character first (rest ++ more)).2 ≤ rest.length) :
    character first rest = character first (rest ++ more) := by
  unfold character at h ⊢
  split
  · rfl
  · next hfirst =>
    rw [if_neg hfirst] at h
    exact tail_append_of_le h

/-- A byte that goes on with a character begins none. -/
theorem decodeFrom_zero_of_isContinuation {b : UInt8} (h : isContinuation b = true)
    (rest : List UInt8) : decodeFrom 0 (b :: rest) = replacement :: decodeFrom 0 rest := by
  simp only [isContinuation, between, Bool.and_eq_true, decide_eq_true_eq,
    UInt8.le_iff_toNat_le, UInt8.reduceToNat] at h
  have hbegins : ¬ b < 0x80 ∧ between 0xC2 0xDF b = false ∧ between 0xE0 0xEF b = false ∧
      between 0xF0 0xF4 b = false := by
    simp only [between, Bool.and_eq_false_iff, decide_eq_false_iff_not, UInt8.le_iff_toNat_le,
      UInt8.lt_iff_toNat_lt, UInt8.reduceToNat]
    omega
  obtain ⟨hplain, htwo, hthree, hfour⟩ := hbegins
  rw [decodeFrom, if_neg hplain]
  simp [tail, htwo, hthree, hfour]

/-- Read on their own, bytes that go on with a character are replaced one by one. -/
theorem Continues.decodeLossy_eq {count : Nat} {bytes : List UInt8} (h : Continues count bytes) :
    decodeLossy bytes = List.replicate count replacement ++ decodeFrom count bytes := by
  unfold decodeLossy
  induction count generalizing bytes with
  | zero => rfl
  | succ count ih =>
    cases bytes with
    | nil => exact absurd h.le (Nat.not_succ_le_zero count)
    | cons b rest =>
      obtain ⟨hb, hrest⟩ := continues_cons_iff.mp h
      rw [decodeFrom_zero_of_isContinuation hb, ih hrest, List.replicate_succ, List.cons_append,
        decodeFrom]

/-- Plain bytes are characters of their own. -/
theorem decodeLossy_of_ascii {bytes : List UInt8} (h : ∀ b ∈ bytes, b < 0x80) :
    decodeLossy bytes = bytes.map fun b ↦ Char.ofNat b.toNat := by
  unfold decodeLossy
  induction bytes with
  | nil => rfl
  | cons b rest ih =>
    simp only [decodeFrom]
    rw [if_pos (h b List.mem_cons_self), ih fun b hb ↦ h b (List.mem_cons_of_mem _ hb),
      List.map_cons]

theorem decodeLossy_letters (letters : Nat) :
    decodeLossy (List.replicate letters 0x61) = List.replicate letters 'a' := by
  have hascii : ∀ b ∈ List.replicate letters (0x61 : UInt8), b < 0x80 := by
    intro b hb
    rw [List.eq_of_mem_replicate hb]
    decide
  rw [decodeLossy_of_ascii hascii, List.map_replicate]
  rfl

end Montage.Text
