import Mathlib.Data.List.DropRight
import Mathlib.Data.List.Induction
import Montage.Engine.Tail
import Montage.Text.Utf8

/-!
# The end of a stream

A tail holds the end of all that was appended to it, however the text was cut into pieces. Its text
is kept as bytes: characters are counted by their first bytes, and the oldest are cut off where the
first one to stay begins. What is left are the bytes of the same end.
-/

namespace Montage

/-! ### Characters among bytes -/

namespace Text

/-- The bytes of a text. -/
def encode (text : List Char) : List UInt8 := text.flatMap String.utf8EncodeChar

/-- Where the characters of a text begin among its bytes. -/
def offsets (bytes : List UInt8) : List Nat := bytes.findIdxs fun b ↦ !isContinuation b

/-- The bytes of the last `limit` characters. -/
def keepEnd (limit : Nat) (bytes : List UInt8) : List UInt8 :=
  let excess := (offsets bytes).length - limit
  if 0 < excess then bytes.drop ((offsets bytes)[excess]?.getD bytes.length) else bytes

theorem encode_append (a b : List Char) : encode (a ++ b) = encode a ++ encode b :=
  List.flatMap_append

private theorem isContinuation_ofNat {n : Nat} (h : n < 256) :
    isContinuation (UInt8.ofNat n) = (decide (0x80 ≤ n) && decide (n ≤ 0xBF)) := by
  have hn : (UInt8.ofNat n).toNat = n := by
    rw [UInt8.toNat_ofNat', Nat.mod_eq_of_lt h]
  simp only [isContinuation, between, UInt8.le_iff_toNat_le, hn]
  rfl

/-- Of the bytes of a character all but the first go on with it. -/
theorem exists_utf8EncodeChar_eq (c : Char) : ∃ first rest,
    String.utf8EncodeChar c = first :: rest ∧ isContinuation first = false ∧
      ∀ b ∈ rest, isContinuation b = true := by
  have hfirst : ∀ n < 256, n < 0x80 ∨ 0xBF < n → isContinuation (UInt8.ofNat n) = false := by
    intro n hn hout
    rw [isContinuation_ofNat hn, Bool.and_eq_false_iff, decide_eq_false_iff_not,
      decide_eq_false_iff_not]
    omega
  have hrest : ∀ n, isContinuation (UInt8.ofNat (n % 0x40 + 0x80)) = true := by
    intro n
    rw [isContinuation_ofNat (by omega), Bool.and_eq_true, decide_eq_true_eq, decide_eq_true_eq]
    omega
  unfold String.utf8EncodeChar
  dsimp only
  split
  · exact ⟨_, _, rfl, hfirst _ (by omega) (by omega), List.forall_mem_nil _⟩
  · split
    · exact ⟨_, _, rfl, hfirst _ (by omega) (by omega), List.forall_mem_singleton.mpr (hrest _)⟩
    · split
      · exact ⟨_, _, rfl, hfirst _ (by omega) (by omega),
          List.forall_mem_cons.mpr ⟨hrest _, List.forall_mem_singleton.mpr (hrest _)⟩⟩
      · exact ⟨_, _, rfl, hfirst _ (by omega) (by omega),
          List.forall_mem_cons.mpr ⟨hrest _, List.forall_mem_cons.mpr
            ⟨hrest _, List.forall_mem_singleton.mpr (hrest _)⟩⟩⟩

theorem offsets_encode_cons (c : Char) (text : List Char) :
    offsets (encode (c :: text)) =
      0 :: (offsets (encode text)).map (· + (String.utf8EncodeChar c).length) := by
  obtain ⟨first, rest, hc, hfirst, hrest⟩ := exists_utf8EncodeChar_eq c
  have hnone : rest.findIdxs (fun b ↦ !isContinuation b) 1 = [] :=
    List.findIdxs_eq_nil_iff.mpr fun b hb ↦ by rw [hrest b hb, Bool.not_true]
  rw [encode, List.flatMap_cons, offsets, hc, List.findIdxs_append, List.findIdxs_cons, hfirst,
    Bool.not_false, if_pos rfl, hnone, List.findIdxs_start, Nat.zero_add]
  rfl

theorem length_offsets_encode (text : List Char) :
    (offsets (encode text)).length = text.length := by
  induction text with
  | nil => rfl
  | cons c text ih =>
    rw [offsets_encode_cons, List.length_cons, List.length_map, ih, List.length_cons]

/-- A character begins behind the bytes of all characters before it. -/
theorem getD_offsets_encode (text : List Char) (n : Nat) :
    (offsets (encode text))[n]?.getD (encode text).length = (encode (text.take n)).length := by
  induction text generalizing n with
  | nil =>
    rw [List.take_nil]
    rfl
  | cons c text ih =>
    cases n with
    | zero =>
      rw [offsets_encode_cons]
      rfl
    | succ n =>
      have hlength : ∀ rest : List Char, (encode (c :: rest)).length =
          (encode rest).length + (String.utf8EncodeChar c).length := by
        intro rest
        rw [encode, List.flatMap_cons, List.length_append, Nat.add_comm]
        rfl
      rw [offsets_encode_cons, List.getElem?_cons_succ, List.getElem?_map, List.take_succ_cons,
        hlength, hlength, ← ih n]
      cases (offsets (encode text))[n]? <;> rfl

/-- Cutting bytes where a character begins is dropping the characters before it. -/
theorem keepEnd_encode (limit : Nat) (text : List Char) :
    keepEnd limit (encode text) = encode (text.rtake limit) := by
  have hdrop : ∀ n, (encode text).drop (encode (text.take n)).length = encode (text.drop n) := by
    intro n
    have hsplit := encode_append (text.take n) (text.drop n)
    rw [List.take_append_drop] at hsplit
    rw [hsplit, List.drop_left]
  simp only [keepEnd, length_offsets_encode, getD_offsets_encode, hdrop, List.rtake]
  split
  · rfl
  · next h => rw [Nat.eq_zero_of_not_pos h, List.drop_zero]

end Text

namespace Engine.Tail

/-! ### Pieces of a stream -/

/-- Appending piece by piece keeps the end of the whole. -/
theorem foldl_push (limit : Nat) (pieces : List (List Char)) :
    pieces.foldl push { limit } = ⟨limit, pieces.flatten.rtake limit⟩ := by
  induction pieces using List.reverseRecOn with
  | nil => simp
  | append_singleton pieces piece ih =>
    rw [List.foldl_append, ih]
    simp only [List.foldl_cons, List.foldl_nil, push, List.flatten_append, List.flatten_singleton,
      List.rtake]
    generalize pieces.flatten = whole
    congr 1
    by_cases h : whole.length ≤ limit
    · rw [Nat.sub_eq_zero_of_le h, List.drop_zero]
    · have hkept : (whole.drop (whole.length - limit)).length = limit := by
        rw [List.length_drop]
        omega
      have hdrop : whole.length + piece.length - limit =
          whole.length - limit + piece.length := by omega
      rw [List.length_append, hkept, List.length_append, hdrop, ← List.drop_drop,
        List.drop_append_of_le_length (Nat.sub_le _ _), Nat.add_sub_cancel_left]

/-- The bytes that a tail of `limit` characters is kept as, once a piece is appended. -/
def pushBytes (limit : Nat) (bytes : List UInt8) (piece : List Char) : List UInt8 :=
  Text.keepEnd limit (bytes ++ Text.encode piece)

theorem pushBytes_encode (tail : Tail) (piece : List Char) :
    pushBytes tail.limit (Text.encode tail.text) piece = Text.encode (tail.push piece).text := by
  rw [pushBytes, ← Text.encode_append, Text.keepEnd_encode]
  rfl

/-- The bytes that are kept are those of the tail. -/
theorem foldl_pushBytes (limit : Nat) (pieces : List (List Char)) :
    pieces.foldl (pushBytes limit) [] = Text.encode (pieces.foldl push { limit }).text := by
  induction pieces using List.reverseRecOn with
  | nil => rfl
  | append_singleton pieces piece ih =>
    have hlimit : (pieces.foldl push { limit }).limit = limit := by
      rw [foldl_push]
    have hpush := pushBytes_encode (pieces.foldl push { limit }) piece
    rw [hlimit] at hpush
    rw [List.foldl_append, List.foldl_append, ih]
    exact hpush

/-- What a tail holds once pieces were appended to it. -/
structure Holds (limit : Nat) (pieces : List (List Char)) : Prop where
  suffix : (pieces.foldl push { limit }).text <:+ pieces.flatten
  length : (pieces.foldl push { limit }).text.length = min limit pieces.flatten.length
  bytes : pieces.foldl (pushBytes limit) [] = Text.encode (pieces.foldl push { limit }).text

theorem holds (limit : Nat) (pieces : List (List Char)) : Holds limit pieces where
  suffix := by
    rw [foldl_push]
    exact List.drop_suffix _ _
  length := by
    simp only [foldl_push, List.rtake, List.length_drop]
    omega
  bytes := foldl_pushBytes limit pieces

/-- A tail holds exactly the last characters of all that was appended to it. So it is the same for
two ways of cutting a text, whenever the same part of the text was appended. -/
theorem holds_end (limit : Nat) (pieces : List (List Char)) :
    Holds limit pieces ∧
      ∀ (others : List (List Char)) (i j : Nat),
        (pieces.take i).flatten = (others.take j).flatten →
        (pieces.take i).foldl push { limit } = (others.take j).foldl push { limit } := by
  refine ⟨holds limit pieces, fun others i j h ↦ ?_⟩
  rw [foldl_push, foldl_push, h]

/-- A text in two pieces, and the same text cut before and behind a character of two bytes, which is
the first one to stay. -/
theorem holds_end_umlaut :
    ∃ pieces others : List (List Char), pieces.flatten = others.flatten ∧
      (pieces.foldl push { limit := 13 }).text = "örld and more".toList ∧
      (pieces.foldl (pushBytes 13) []).length = 14 ∧
      pieces.foldl push { limit := 13 } = others.foldl push { limit := 13 } := by
  let pieces := ["hello ".toList, "wörld and more".toList]
  let others := ["hello w".toList, "ö".toList, "rld and more".toList]
  obtain ⟨hholds, hsame⟩ := holds_end 13 pieces
  have htext : (pieces.foldl push { limit := 13 }).text = "örld and more".toList := by
    decide +kernel
  refine ⟨pieces, others, by decide +kernel, htext, ?_, hsame others 2 3 (by decide +kernel)⟩
  rw [hholds.bytes, htext]
  decide +kernel

end Engine.Tail

end Montage
