import Mathlib.Data.List.DropRight
import Montage.Proofs.Graph.Tokens

/-!
# What is read of a quoted value

A quoted value is read by the graph level as the text it was made from, with a backslash before
each quote that had none of its own. Whatever stands in the text, and whatever stands behind the
value, reading goes on there outside of quotes.
-/

namespace Montage.Graph.Reader

/-! ### Backslashes and quotes in a text -/

/-- Whether the character behind this text belongs to a backslash. Backslashes pair up from the
left, so that the last of an odd number of them is still without a partner. -/
def EndsOpen (front : List Char) : Prop := (front.rtakeWhile (· == '\\')).length % 2 = 1

instance : DecidablePred EndsOpen := fun front ↦
  inferInstanceAs (Decidable ((front.rtakeWhile (· == '\\')).length % 2 = 1))

/-- A text that stands behind `front`, with a backslash before each quote that has none of its
own. -/
def protectQuotes (front : List Char) : List Char → List Char
  | [] => []
  | c :: rest =>
    let others := protectQuotes (front ++ [c]) rest
    if c = '\'' ∧ ¬ EndsOpen front then '\\' :: c :: others else c :: others

theorem endsOpen_concat_backslash (front : List Char) :
    EndsOpen (front ++ ['\\']) ↔ ¬ EndsOpen front := by
  unfold EndsOpen
  rw [List.rtakeWhile_concat_pos _ _ _ (by decide), List.length_append, List.length_singleton]
  omega

theorem not_endsOpen_concat {c : Char} (hc : c ≠ '\\') (front : List Char) :
    ¬ EndsOpen (front ++ [c]) := by
  unfold EndsOpen
  rw [List.rtakeWhile_concat_neg _ _ _ (by simpa using hc)]
  exact Nat.zero_ne_one

/-- A character behind a backslash completes a pair, whatever it is. -/
theorem not_endsOpen_pair {front : List Char} (h : ¬ EndsOpen front) (c : Char) :
    ¬ EndsOpen (front ++ ['\\'] ++ [c]) := by
  by_cases hc : c = '\\'
  · rw [hc, endsOpen_concat_backslash, endsOpen_concat_backslash, not_not]
    exact h
  · exact not_endsOpen_concat hc _

/-- Cut into pairs from the left or seen from each quote, the same quotes lack a backslash. -/
theorem protectQuotes_eq_quoteText {front : List Char} (h : ¬ EndsOpen front) (text : List Char) :
    protectQuotes front text = quoteText text := by
  fun_induction quoteText text generalizing front with
  | case1 => rfl
  | case2 c rest ih =>
    have hopen : EndsOpen (front ++ ['\\']) := (endsOpen_concat_backslash front).mpr h
    rw [protectQuotes, if_neg (fun hc ↦ absurd hc.1 (by decide)), protectQuotes,
      if_neg (fun hc ↦ hc.2 hopen)]
    exact congrArg _ (congrArg _ (ih (not_endsOpen_pair h c)))
  | case3 rest ih =>
    rw [protectQuotes, if_pos ⟨rfl, h⟩, ih (not_endsOpen_concat (by decide : '\'' ≠ '\\') front)]
  | case4 c rest hpair hquote ih =>
    rw [protectQuotes, if_neg (fun hc ↦ hquote hc.1)]
    cases rest with
    | nil => rfl
    | cons d others =>
      have hc : c ≠ '\\' := fun hc ↦ hpair d others hc rfl
      rw [ih (not_endsOpen_concat hc front)]

/-! ### Quoted values -/

variable {stops : List Char}

/-- A token that begins with a quoted value goes on as what stands behind the value is read
outside of quotes. -/
theorem token_quoted (hq : '\'' ∉ stops) (hb : '\\' ∉ stops) (value : String)
    (rest : List Char) :
    token stops ((quoted value).toList ++ rest) =
      (protectQuotes [] value.toList ++ (scan stops false [] [] rest).1,
        (scan stops false [] [] rest).2) := by
  have hspace : ((quoted value).toList ++ rest).dropWhile isSpace =
      (quoted value).toList ++ rest := by
    rw [quoted, String.toList_ofList]
    rfl
  have hkept := @scan_append_kept stops false (protectQuotes [] value.toList) [] [] rest
  rw [List.append_nil] at hkept
  rw [token, hspace, scan_quoted hq hb, ← protectQuotes_eq_quoteText (by decide : ¬ EndsOpen []),
    List.nil_append, List.nil_append, hkept]

/-- A stop or the end of the text ends the token there. -/
theorem scan_at_stop {rest : List Char} (h : ∀ c ∈ rest.head?, c ∈ stops) :
    scan stops false [] [] rest = ([], rest) := by
  cases rest with
  | nil => rfl
  | cons c rest => exact scan_stop (h c rfl) [] [] rest

/-- The stops of names and of options are neither quotes nor backslashes. -/
theorem notMem_stops (h : stops = nameStops ∨ stops = optionStops) :
    '\'' ∉ stops ∧ '\\' ∉ stops := by
  rcases h with rfl | rfl <;> decide

/-- The graph level reads a quoted value, at any point of a token that is outside of quotes, as its
text with the quotes protected, and goes on behind it outside of quotes, whatever the text holds and
whatever follows. In front of a stop or of nothing, the token is that text. -/
theorem token_quoted_of_graph (h : stops = nameStops ∨ stops = optionStops) (value : String)
    (rest : List Char) :
    (∀ kept tail, scan stops false kept tail ((quoted value).toList ++ rest) =
      scan stops false (kept ++ tail ++ protectQuotes [] value.toList) [] rest) ∧
    token stops ((quoted value).toList ++ rest) =
      (protectQuotes [] value.toList ++ (scan stops false [] [] rest).1,
        (scan stops false [] [] rest).2) ∧
    ((∀ c ∈ rest.head?, c ∈ stops) →
      token stops ((quoted value).toList ++ rest) = (protectQuotes [] value.toList, rest)) := by
  obtain ⟨hq, hb⟩ := notMem_stops h
  have htoken := token_quoted hq hb value rest
  refine ⟨fun kept tail ↦ ?_, htoken, fun hr ↦ ?_⟩
  · rw [scan_quoted hq hb, protectQuotes_eq_quoteText (by decide)]
  · rw [htoken, scan_at_stop hr, List.append_nil]

/-- A quote without a backslash, one with its own, one behind a pair of backslashes, and a last
backslash without a partner, with a further option and with the end of the filter behind them. -/
theorem token_quoted_mixed :
    token optionStops ((quoted "it's \\' \\\\' \\").toList ++ ":x='y',null".toList) =
        ("it\\'s \\' \\\\\\' \\:x=y".toList, ",null".toList) ∧
      (∀ c ∈ ",null".toList.head?, c ∈ optionStops) ∧
      token optionStops ((quoted "it's \\' \\\\' \\").toList ++ ",null".toList) =
        ("it\\'s \\' \\\\\\' \\".toList, ",null".toList) := by
  have hstop : ∀ c ∈ ",null".toList.head?, c ∈ optionStops := by
    intro c hc
    have hcomma : c = ',' := (Option.some.inj hc).symm
    simp [optionStops, hcomma]
  refine ⟨?_, hstop, ?_⟩
  · rw [(token_quoted_of_graph (Or.inr rfl) _ _).2.1]
    decide +kernel
  · rw [(token_quoted_of_graph (Or.inr rfl) _ _).2.2 hstop]
    decide +kernel

end Montage.Graph.Reader
