import Montage.Proofs.Engine.Process

/-!
# Reads that cut characters

How the system splits the diagnostics of a process into reads is not in the hands of the engine, and
each read is decoded on its own. The tail is the end of the whole as long as enough characters come
behind the last read that ends inside a character.
-/

namespace Montage.Engine.Monitor

open Montage.Numeric (Binary64)
open Montage.Text (CutsBefore decodeLossy replacement)

/-- The tail that is kept of the reads is the end of the text that they add up to. -/
def KeepsWhole (total : Binary64) (reads : List (List UInt8)) : Prop :=
  ((ofTotal total).readAll reads).tail.text = (decodeLossy reads.flatten).rtake tailLimit

/-- The tail is the end of the whole if, behind every read that ends inside a character, it is
filled by the characters that begin there. Only then, unless the end of the whole has replacement
characters of its own. -/
theorem keepsWhole_of_cutsBefore (total : Binary64) (reads : List (List UInt8)) :
    (CutsBefore tailLimit reads → KeepsWhole total reads) ∧
      (replacement ∉ (decodeLossy reads.flatten).rtake tailLimit → KeepsWhole total reads →
        CutsBefore tailLimit reads) := by
  unfold KeepsWhole
  rw [text_tail_readAll, decodedReads]
  constructor
  · intro h
    exact h.rtake_eq
  · intro hclean h
    exact Text.cutsBefore_of_rtake_eq hclean h

/-- The letter ö in two reads, the second of them with so many letters behind it. -/
def umlautReads (letters : Nat) : List (List UInt8) :=
  [[0xC3], 0xB6 :: List.replicate letters 0x61]

private theorem decodeLossy_umlautReads (letters : Nat) :
    decodeLossy (umlautReads letters).flatten = 'ö' :: List.replicate letters 'a' := by
  rw [← Text.decodeLossy_letters, umlautReads, List.flatten_cons, List.flatten_cons,
    List.flatten_nil, List.append_nil]
  rfl

private theorem cutsBefore_umlautReads {limit letters : Nat} (h : limit ≤ letters) :
    CutsBefore limit (umlautReads letters) := by
  rintro before after hcut hinside
  rcases before with _ | ⟨first, _ | ⟨second, before⟩⟩
  · exact absurd hinside (Nat.lt_irrefl 0)
  · obtain ⟨rfl, rfl⟩ := List.cons.inj hcut
    have hbehind : Text.behind [0xC3] (0xB6 :: List.replicate letters 0x61) =
        decodeLossy (List.replicate letters 0x61) := rfl
    simpa [hbehind, Text.decodeLossy_letters] using h
  · simp only [umlautReads, List.cons_append, List.cons.injEq, List.nil_eq, List.append_eq_nil_iff]
      at hcut
    obtain ⟨-, -, -, rfl⟩ := hcut
    have hend := Text.continues_overhang
      (Text.continues_zero ((first :: second :: before).flatten ++ []))
    exact absurd hend.le (Nat.not_le_of_lt hinside)

/-- A read ends inside a character, and the tail holds the letters behind it. -/
theorem keepsWhole_of_cutsBefore_umlaut :
    ∃ first second, 0 < Text.overhang 0 first second ∧ CutsBefore tailLimit [first, second] ∧
      replacement ∉ (decodeLossy [first, second].flatten).rtake tailLimit ∧
      KeepsWhole 10 [first, second] := by
  have hinside : 0 < Text.overhang 0 [0xC3] (0xB6 :: List.replicate 2000 0x61) := Nat.zero_lt_one
  have hcuts : CutsBefore tailLimit (umlautReads 2000) := cutsBefore_umlautReads (Nat.le_refl _)
  have hclean : replacement ∉ (decodeLossy (umlautReads 2000).flatten).rtake tailLimit := by
    intro hmem
    rw [decodeLossy_umlautReads] at hmem
    rcases List.mem_cons.mp (List.mem_of_mem_drop hmem) with h | h
    · exact absurd h (by decide)
    · exact absurd (List.eq_of_mem_replicate h) (by decide)
  obtain ⟨hwhole, hconverse⟩ := keepsWhole_of_cutsBefore 10 (umlautReads 2000)
  exact ⟨_, _, hinside, hconverse hclean (hwhole hcuts), hclean, hwhole hcuts⟩

/-- The tail of a character whose bytes are read one by one is not the character. -/
theorem not_keepsWhole_umlaut : ¬ ∀ (total : Binary64) (reads : List (List UInt8)),
    (∀ read ∈ reads, 1 ≤ read.length ∧ read.length ≤ 4096) → KeepsWhole total reads := by
  intro h
  have hkeeps := h 10 (umlautReads 0) (by decide)
  revert hkeeps
  unfold KeepsWhole
  decide +kernel

end Montage.Engine.Monitor
