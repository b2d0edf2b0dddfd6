import Mathlib.Data.List.DropRight
import Montage.Proofs.Text.Utf8

/-!
# Cuts inside a character

Bytes that are decoded piece by piece lose what stands at a cut inside a character: its start
becomes one replacement character, and so does each of its bytes behind the cut. What comes after
these bytes is decoded as it is in the whole, up to the next such cut. So the end of the text
survives exactly as far as it lies behind the last cut inside a character.
-/

namespace Montage.Text

/-! ### One cut -/

/-- How many of the bytes behind a cut still belong to the character that the cut falls into. The
first `skip` bytes before it belong to an earlier character. -/
def overhang : Nat → List UInt8 → List UInt8 → Nat
  | skip, [], _ => skip
  | skip + 1, _ :: rest, after => overhang skip rest after
  | 0, first :: rest, after => overhang (character first (rest ++ after)).2 rest after

/-- The text behind a cut, from the first character that begins there. -/
def behind (before after : List UInt8) : List Char := decodeFrom (overhang 0 before after) after

variable {skip : Nat} {before after : List UInt8}

theorem overhang_append (skip : Nat) (before middle after : List UInt8) :
    overhang skip (before ++ middle) after =
      overhang (overhang skip before (middle ++ after)) middle after := by
  induction before generalizing skip with
  | nil => cases skip <;> rfl
  | cons first rest ih =>
    cases skip with
    | zero => simp only [List.cons_append, overhang, List.append_assoc, ih]
    | succ skip => simp only [List.cons_append, overhang, ih]

theorem overhang_of_length_le (h : before.length ≤ skip) :
    overhang skip before after = skip - before.length := by
  induction before generalizing skip with
  | nil => simp [overhang]
  | cons first rest ih =>
    cases skip with
    | zero => simp at h
    | succ skip =>
      rw [overhang, ih (Nat.le_of_succ_le_succ h), List.length_cons, Nat.add_sub_add_right]

theorem continues_overhang (h : Continues skip (before ++ after)) :
    Continues (overhang skip before after) after := by
  induction before generalizing skip with
  | nil => simpa [overhang] using h
  | cons first rest ih =>
    cases skip with
    | zero => exact ih (continues_character first (rest ++ after))
    | succ skip => exact ih (continues_cons_iff.mp h).2

/-- A character does not go beyond a cut between two characters. -/
theorem Continues.of_overhang (h : Continues skip (before ++ after))
    (hnone : overhang skip before after = 0) : Continues skip before := by
  have hle : skip ≤ before.length := by
    by_contra hn
    rw [overhang_of_length_le (by omega)] at hnone
    omega
  have htake : (before ++ after).take skip = before.take skip := List.take_append_of_le_length hle
  exact ⟨hle, htake ▸ h.continuation⟩

/-- What is decoded behind a cut is the end of the whole. -/
theorem decodeFrom_overhang_suffix (skip : Nat) (before after : List UInt8) :
    decodeFrom (overhang skip before after) after <:+ decodeFrom skip (before ++ after) := by
  induction before generalizing skip with
  | nil => simp [overhang]
  | cons first rest ih =>
    cases skip with
    | zero =>
      rw [List.cons_append, decodeFrom_zero_cons, overhang]
      exact (ih _).trans (List.suffix_cons _ _)
    | succ skip =>
      rw [List.cons_append, decodeFrom, overhang]
      exact ih skip

theorem behind_suffix (before after : List UInt8) :
    behind before after <:+ decodeLossy (before ++ after) :=
  decodeFrom_overhang_suffix 0 before after

/-- Nothing is lost at a cut between two characters. -/
theorem decodeFrom_append_of_overhang (h : overhang skip before after = 0)
    (hs : skip ≤ before.length) :
    decodeFrom skip (before ++ after) = decodeFrom skip before ++ decodeFrom 0 after := by
  induction before generalizing skip with
  | nil =>
    obtain rfl := Nat.le_zero.mp hs
    rfl
  | cons first rest ih =>
    cases skip with
    | succ skip => exact ih h (Nat.le_of_succ_le_succ hs)
    | zero =>
      rw [overhang] at h
      have hused : (character first (rest ++ after)).2 ≤ rest.length := by
        by_contra hn
        rw [overhang_of_length_le (by omega)] at h
        omega
      rw [List.cons_append, decodeFrom_zero_cons, decodeFrom_zero_cons,
        character_append_of_le hused, ih h hused, List.cons_append]

/-! ### The last cut inside a character -/

/-- The pieces behind the last cut inside a character, or all pieces if there is no such cut. The
first `skip` bytes belong to an earlier character. -/
structure LastCut (skip : Nat) (pieces before after : List (List UInt8)) : Prop where
  cut : pieces = before ++ after
  inside : before = [] ∨ 0 < overhang skip before.flatten after.flatten
  last : ∀ others rest, pieces = others ++ rest →
    0 < overhang skip others.flatten rest.flatten → others.length ≤ before.length
  /-- Behind the cut only the bytes that go on with the character are lost. -/
  decoded : after.flatMap decodeLossy =
    List.replicate (overhang skip before.flatten after.flatten) replacement ++
      decodeFrom (overhang skip before.flatten after.flatten) after.flatten

section Pieces

variable {piece : List UInt8} {pieces rest front back : List (List UInt8)}

private theorem overhang_flatten_cons (h : rest = front ++ back) :
    overhang skip (piece :: front).flatten back.flatten =
      overhang (overhang skip piece rest.flatten) front.flatten back.flatten := by
  subst h
  rw [List.flatten_cons, overhang_append, List.flatten_append]

/-- A cut in the rest of the pieces, or the one in front of the rest, is the last. -/
theorem LastCut.cons (h : LastCut (overhang skip piece rest.flatten) rest front back)
    (hin : front ≠ [] ∨ 0 < overhang skip piece rest.flatten) :
    LastCut skip (piece :: rest) (piece :: front) back := by
  have hcut : overhang skip (piece :: front).flatten back.flatten =
      overhang (overhang skip piece rest.flatten) front.flatten back.flatten :=
    overhang_flatten_cons h.cut
  constructor
  · rw [h.cut, List.cons_append]
  · right
    rw [hcut]
    by_cases hfront : front = []
    · subst hfront
      simpa [overhang] using hin
    · exact h.inside.resolve_left hfront
  · intro others others' heq hothers
    cases others with
    | nil => exact Nat.zero_le _
    | cons other others =>
      obtain ⟨rfl, hrest⟩ := List.cons.inj heq
      rw [overhang_flatten_cons hrest] at hothers
      exact Nat.succ_le_succ (h.last others others' hrest hothers)
  · rw [hcut]
    exact h.decoded

/-- If no cut falls inside a character, the pieces are decoded as the whole. -/
theorem LastCut.cons_none (h : LastCut 0 rest [] back) (hbytes : Continues skip piece)
    (hnone : overhang skip piece rest.flatten = 0) :
    LastCut skip (piece :: rest) [] (piece :: rest) := by
  obtain rfl : rest = back := h.cut
  constructor
  · rfl
  · exact Or.inl rfl
  · intro others others' heq hothers
    cases others with
    | nil => exact Nat.le_refl 0
    | cons other others =>
      obtain ⟨rfl, hrest⟩ := List.cons.inj heq
      rw [overhang_flatten_cons hrest, hnone] at hothers
      have hnil := h.last others others' hrest hothers
      rw [List.length_nil, Nat.le_zero, List.length_eq_zero_iff] at hnil
      subst hnil
      exact absurd hothers (Nat.lt_irrefl 0)
  · have hrest : rest.flatMap decodeLossy = decodeFrom 0 rest.flatten := h.decoded
    have hwhole := decodeFrom_append_of_overhang hnone hbytes.le
    rw [List.flatMap_cons, hrest, hbytes.decodeLossy_eq, List.append_assoc, ← hwhole]
    rfl

end Pieces

theorem exists_lastCut {pieces : List (List UInt8)} (h : Continues skip pieces.flatten) :
    ∃ before after, LastCut skip pieces before after := by
  induction pieces generalizing skip with
  | nil =>
    obtain rfl := Nat.le_zero.mp h.le
    refine ⟨[], [], rfl, Or.inl rfl, ?_, rfl⟩
    simp
  | cons piece rest ih =>
    obtain ⟨front, back, hlast⟩ := ih (continues_overhang h)
    by_cases hin : front ≠ [] ∨ 0 < overhang skip piece rest.flatten
    · exact ⟨piece :: front, back, hlast.cons hin⟩
    · obtain ⟨rfl, hnone⟩ : front = [] ∧ overhang skip piece rest.flatten = 0 := by
        simpa using hin
      rw [hnone] at hlast
      exact ⟨[], piece :: rest, hlast.cons_none (h.of_overhang hnone) hnone⟩

/-! ### The end of the text -/

/-- Behind every cut inside a character come so many characters that begin there. -/
def CutsBefore (count : Nat) (pieces : List (List UInt8)) : Prop :=
  ∀ before after, pieces = before ++ after → 0 < overhang 0 before.flatten after.flatten →
    count ≤ (behind before.flatten after.flatten).length

variable {limit : Nat} {pieces : List (List UInt8)}

theorem rtake_of_suffix {all part : List Char} (h : part <:+ all) (hlimit : limit ≤ part.length) :
    all.rtake limit = part.rtake limit := by
  obtain ⟨front, rfl⟩ := h
  have hdrop : (front ++ part).length - limit = front.length + (part.length - limit) := by
    rw [List.length_append]
    omega
  rw [List.rtake, hdrop, List.drop_length_add_append, List.rtake]

theorem suffix_rtake_of_suffix {all part : List Char} (h : part <:+ all)
    (hlimit : part.length ≤ limit) : part <:+ all.rtake limit := by
  obtain ⟨front, rfl⟩ := h
  have hdrop : (front ++ part).length - limit ≤ front.length := by
    rw [List.length_append]
    omega
  rw [List.rtake, List.drop_append_of_le_length hdrop]
  exact List.suffix_append _ _

/-- What the pieces are decoded to, around the last cut inside a character. -/
theorem LastCut.flatMap_eq {before after : List (List UInt8)} (h : LastCut 0 pieces before after) :
    pieces.flatMap decodeLossy = before.flatMap decodeLossy ++
      (List.replicate (overhang 0 before.flatten after.flatten) replacement ++
        behind before.flatten after.flatten) := by
  rw [h.cut, List.flatMap_append, h.decoded, behind]

theorem behind_length_le (before middle after : List UInt8) :
    (behind (before ++ middle) after).length ≤ (behind before (middle ++ after)).length := by
  rw [behind, overhang_append]
  exact (decodeFrom_overhang_suffix _ middle after).length_le

/-- The end of the decoded pieces is the end of the whole if it lies behind all cuts inside a
character. -/
theorem CutsBefore.rtake_eq (h : CutsBefore limit pieces) :
    (pieces.flatMap decodeLossy).rtake limit = (decodeLossy pieces.flatten).rtake limit := by
  obtain ⟨before, after, hlast⟩ := exists_lastCut (continues_zero pieces.flatten)
  by_cases hbefore : before = []
  · subst hbefore
    rw [hlast.flatMap_eq, hlast.cut]
    rfl
  · have hlimit := h before after hlast.cut (hlast.inside.resolve_left hbefore)
    have hwhole : behind before.flatten after.flatten <:+ decodeLossy pieces.flatten := by
      rw [hlast.cut, List.flatten_append]
      exact behind_suffix _ _
    rw [rtake_of_suffix hwhole hlimit, hlast.flatMap_eq, ← List.append_assoc]
    exact rtake_of_suffix (List.suffix_append _ _) hlimit

/-- Only then, if no character at the end of the whole is a replacement character. -/
theorem cutsBefore_of_rtake_eq (hclean : replacement ∉ (decodeLossy pieces.flatten).rtake limit)
    (h : (pieces.flatMap decodeLossy).rtake limit = (decodeLossy pieces.flatten).rtake limit) :
    CutsBefore limit pieces := by
  obtain ⟨before, after, hlast⟩ := exists_lastCut (continues_zero pieces.flatten)
  intro others rest hcut hothers
  have hle := hlast.last others rest hcut hothers
  obtain ⟨middle, rfl, rfl⟩ : ∃ middle, before = others ++ middle ∧ rest = middle ++ after := by
    rcases List.append_eq_append_iff.mp (hlast.cut.symm.trans hcut) with
      ⟨middle, rfl, rfl⟩ | ⟨middle, rfl, rfl⟩
    · rw [List.length_append] at hle
      obtain rfl := List.length_eq_zero_iff.mp (by omega : middle.length = 0)
      exact ⟨[], by simp, by simp⟩
    · exact ⟨middle, rfl, rfl⟩
  have hinside : 0 < overhang 0 (others ++ middle).flatten after.flatten := by
    rcases hlast.inside with hnil | hinside
    · obtain ⟨rfl, -⟩ := List.append_eq_nil_iff.mp hnil
      exact absurd hothers (Nat.lt_irrefl 0)
    · exact hinside
  by_contra hlimit
  apply hclean
  -- The replacement character in front of what both share is among the last ones.
  have hlength := behind_length_le others.flatten middle.flatten after.flatten
  rw [← List.flatten_append, ← List.flatten_append] at hlength
  have hreplaced : replacement :: behind (others ++ middle).flatten after.flatten <:+
      pieces.flatMap decodeLossy := by
    obtain ⟨count, hcount⟩ := Nat.exists_eq_succ_of_ne_zero hinside.ne'
    rw [hlast.flatMap_eq, hcount, List.replicate_succ', List.append_assoc, ← List.append_assoc]
    exact List.suffix_append _ _
  rw [← h]
  apply (suffix_rtake_of_suffix hreplaced ?_).mem List.mem_cons_self
  rw [List.length_cons]
  omega

/-! ### Pieces that start no character in the middle -/

/-- The bytes do not start in the middle of a character. -/
def StartsCharacter (bytes : List UInt8) : Prop := ∀ b ∈ bytes.head?, isContinuation b = false

theorem Continues.eq_zero {count : Nat} {bytes : List UInt8} (h : Continues count bytes)
    (hstart : StartsCharacter bytes) : count = 0 := by
  cases count with
  | zero => rfl
  | succ count =>
    cases bytes with
    | nil => exact absurd h.le (Nat.not_succ_le_zero count)
    | cons b rest =>
      have hb := (continues_cons_iff.mp h).1
      rw [hstart b rfl] at hb
      cases hb

theorem startsCharacter_flatten {pieces : List (List UInt8)}
    (h : ∀ piece ∈ pieces, StartsCharacter piece) : StartsCharacter pieces.flatten := by
  induction pieces with
  | nil =>
    intro b hb
    cases hb
  | cons piece rest ih =>
    cases piece with
    | nil => exact ih fun piece hp ↦ h piece (List.mem_cons_of_mem _ hp)
    | cons b piece => exact h (b :: piece) List.mem_cons_self

/-- Pieces that start no character in the middle decode to the text of the whole. -/
theorem flatMap_decodeLossy (h : ∀ piece ∈ pieces.tail, StartsCharacter piece) :
    pieces.flatMap decodeLossy = decodeLossy pieces.flatten := by
  have hwhole := continues_zero pieces.flatten
  obtain ⟨before, after, hlast⟩ := exists_lastCut hwhole
  have hbefore : before = [] := by
    by_contra hne
    have hstart : StartsCharacter after.flatten := by
      apply startsCharacter_flatten
      intro piece hpiece
      apply h piece
      rw [hlast.cut, List.tail_append_of_ne_nil hne]
      exact List.mem_append_right _ hpiece
    rw [hlast.cut, List.flatten_append] at hwhole
    exact (hlast.inside.resolve_left hne).ne' ((continues_overhang hwhole).eq_zero hstart)
  subst hbefore
  rw [hlast.flatMap_eq, hlast.cut]
  rfl

end Montage.Text
