import Montage.Graph.Escaping
import Montage.Proofs.Graph.Reader

/-!
# What the tokens of a graph are

What the reader makes of text between quotes, of text that needs no quotes, and of text whose
specials are protected by backslashes, whatever stands behind it.
-/

namespace Montage.Graph.Reader

variable {stops : List Char} {c : Char}

/-! ### One character at a time -/

theorem scan_close (kept tail rest : List Char) :
    scan stops true kept tail ('\'' :: rest) = scan stops false (kept ++ tail) [] rest := by
  rw [scan, if_pos rfl]

theorem scan_inside (hc : c ≠ '\'') (kept tail rest : List Char) :
    scan stops true kept tail (c :: rest) = scan stops true kept (tail ++ [c]) rest := by
  rw [scan, if_neg hc]

theorem scan_stop (hc : c ∈ stops) (kept tail rest : List Char) :
    scan stops false kept tail (c :: rest) = (kept ++ trimEnd tail, c :: rest) := by
  rw [scan.eq_def]
  exact if_pos hc

theorem scan_open (hq : '\'' ∉ stops) (kept tail rest : List Char) :
    scan stops false kept tail ('\'' :: rest) = scan stops true kept tail rest := by
  rw [scan.eq_def]
  simp only [if_neg hq, if_true]

theorem scan_backslash (hb : '\\' ∉ stops) (c : Char) (kept tail rest : List Char) :
    scan stops false kept tail ('\\' :: c :: rest) =
      scan stops false (kept ++ tail ++ [c]) [] rest := by
  rw [scan.eq_def]
  simp [hb]

theorem scan_plain (hs : c ∉ stops) (hq : c ≠ '\'') (hb : c ≠ '\\')
    (kept tail rest : List Char) :
    scan stops false kept tail (c :: rest) = scan stops false kept (tail ++ [c]) rest := by
  rw [scan.eq_def]
  simp only [if_neg hs, if_neg hq, if_neg hb]

theorem scan_last_backslash (hb : '\\' ∉ stops) (kept tail : List Char) :
    scan stops false kept tail ['\\'] = (kept ++ trimEnd (tail ++ ['\\']), []) := by
  rw [scan.eq_def]
  simp [hb]

/-- What has been kept stands in front of the token. -/
theorem scan_append_kept (quoted : Bool) (front kept tail input : List Char) :
    scan stops quoted (front ++ kept) tail input =
      (front ++ (scan stops quoted kept tail input).1, (scan stops quoted kept tail input).2) := by
  fun_induction scan stops quoted kept tail input with
  | case1 => rw [scan, List.append_assoc]
  | case2 kept tail rest ih => rw [scan_close, List.append_assoc, ih]
  | case3 kept tail c rest hc ih => rw [scan_inside hc, ih]
  | case4 kept tail c rest hc => rw [scan_stop hc, List.append_assoc]
  | case5 kept tail rest hq ih => rw [scan_open hq, ih]
  | case6 kept tail hb => rw [scan_last_backslash hb, List.append_assoc]
  | case7 kept tail next others hb _ ih =>
    rw [scan_backslash hb, ← ih, List.append_assoc, List.append_assoc, List.append_assoc]
  | case8 kept tail c rest hs hq hb ih => rw [scan_plain hs hq hb, ih]

/-! ### Quoted text at the graph level -/

/-- What the graph level makes of a quoted text: a quote without a backslash of its own gets one. -/
def quoteText : List Char → List Char
  | [] => []
  | '\\' :: c :: rest => '\\' :: c :: quoteText rest
  | '\'' :: rest => '\\' :: '\'' :: quoteText rest
  | c :: rest => c :: quoteText rest

/-- A quote in quotes: the quotes are left for two protected characters and opened again. -/
private theorem scan_quoteInQuotes (hq : '\'' ∉ stops) (hb : '\\' ∉ stops)
    (kept tail rest : List Char) :
    scan stops true kept tail (quoteInQuotes ++ rest) =
      scan stops true (kept ++ tail ++ ['\\', '\'']) [] rest := by
  rw [quoteInQuotes, List.cons_append, scan_close, List.cons_append, List.cons_append,
    scan_backslash hb, List.cons_append, List.cons_append, scan_backslash hb, List.cons_append,
    scan_open hq]
  simp

/-- The inside of quotes is read as `quoteText` says, and reading goes on behind them. -/
theorem scan_quoteChars (hq : '\'' ∉ stops) (hb : '\\' ∉ stops) (text kept tail rest : List Char) :
    scan stops true kept tail (quoteChars text ++ '\'' :: rest) =
      scan stops false (kept ++ tail ++ quoteText text) [] rest := by
  fun_induction quoteChars text generalizing kept tail with
  | case1 => rw [List.nil_append, scan_close, quoteText, List.append_nil]
  | case2 text ih =>
    rw [List.append_assoc, scan_quoteInQuotes hq hb, ih]
    simp [quoteText]
  | case3 c text hc ih =>
    rw [List.cons_append, List.cons_append, scan_inside (by decide), scan_inside hc, ih]
    simp [quoteText]
  | case4 text ih =>
    rw [List.append_assoc, scan_quoteInQuotes hq hb, ih]
    simp [quoteText]
  | case5 c text hpair hquote hb ih =>
    rw [List.cons_append, scan_inside hb, ih, quoteText]
    · simp
    · exact hquote
    · exact hb

/-- A quoted text adds its characters to what is kept, and reading goes on behind it outside of
quotes. -/
theorem scan_quoted (hq : '\'' ∉ stops) (hb : '\\' ∉ stops) (value : String)
    (kept tail rest : List Char) :
    scan stops false kept tail ((quoted value).toList ++ rest) =
      scan stops false (kept ++ tail ++ quoteText value.toList) [] rest := by
  rw [quoted, String.toList_ofList, List.append_assoc, List.cons_append, scan_open hq]
  exact scan_quoteChars hq hb value.toList kept tail rest

/-! ### Text without white space of its own -/

theorem dropWhile_of_head {cs : List Char} (h : ∀ c ∈ cs.head?, isSpace c = false) :
    cs.dropWhile isSpace = cs := by
  cases cs with
  | nil => rfl
  | cons c cs =>
    rw [List.dropWhile_cons, h c rfl]
    rfl

theorem trimEnd_of_forall {cs : List Char} (h : ∀ c ∈ cs, isSpace c = false) : trimEnd cs = cs := by
  have hhead : ∀ c ∈ cs.reverse.head?, isSpace c = false :=
    fun c hc ↦ h c (List.mem_reverse.mp (List.mem_of_mem_head? hc))
  rw [trimEnd, dropWhile_of_head hhead, List.reverse_reverse]

/-- White space is dropped only behind the last character that is none. -/
theorem trimEnd_append_cons (hw : isSpace c = false) (xs ys : List Char) :
    trimEnd (xs ++ c :: ys) = xs ++ c :: trimEnd ys := by
  rw [trimEnd, trimEnd, List.reverse_append, List.reverse_cons, List.append_assoc,
    List.dropWhile_append]
  split
  · next h => simp [List.isEmpty_iff.mp h, hw]
  · simp

/-- A character that is no white space keeps the tail up to itself. -/
private theorem scan_append_tail (hw : isSpace c = false) (quoted : Bool)
    (kept front tail input : List Char) :
    scan stops quoted kept (front ++ c :: tail) input =
      scan stops quoted (kept ++ front ++ [c]) tail input := by
  generalize hk : kept ++ front ++ [c] = kept'
  have htail : ∀ more, kept ++ (front ++ c :: more) = kept' ++ more := by
    intro more
    simp [← hk]
  have htrim : ∀ more, kept ++ trimEnd (front ++ c :: more) = kept' ++ trimEnd more := by
    intro more
    rw [trimEnd_append_cons hw, htail]
  fun_induction scan stops quoted kept' tail input with
  | case1 _ kept' tail => rw [scan, htrim]
  | case2 kept' tail rest _ => rw [scan_close, htail]
  | case3 kept' tail d rest hd ih =>
    rw [scan_inside hd, ← ih hk htail htrim, List.append_assoc, List.cons_append]
  | case4 kept' tail d rest hd => rw [scan_stop hd, htrim]
  | case5 kept' tail rest hq ih => rw [scan_open hq, ih hk htail htrim]
  | case6 kept' tail hb =>
    rw [scan_last_backslash hb, List.append_assoc, List.cons_append, htrim]
  | case7 kept' tail next others hb _ _ => rw [scan_backslash hb, htail]
  | case8 kept' tail d rest hs hq hb ih =>
    rw [scan_plain hs hq hb, ← ih hk htail htrim, List.append_assoc, List.cons_append]

/-- Read outside quotes, `text` adds `out` to the token, and no white space that could be
dropped. -/
def Reads (stops text out : List Char) : Prop :=
  ∀ kept tail, (∀ c ∈ tail, isSpace c = false) → ∃ kept' tail',
    kept' ++ tail' = kept ++ tail ++ out ∧ (∀ c ∈ tail', isSpace c = false) ∧
      ∀ rest, scan stops false kept tail (text ++ rest) = scan stops false kept' tail' rest

variable {text more out others rest : List Char}

theorem Reads.nil : Reads stops [] [] :=
  fun kept tail ht ↦ ⟨kept, tail, (List.append_nil _).symm, ht, fun _ ↦ rfl⟩

theorem Reads.append (h : Reads stops text out) (hm : Reads stops more others) :
    Reads stops (text ++ more) (out ++ others) := by
  intro kept tail ht
  obtain ⟨kept', tail', heq, ht', hs⟩ := h kept tail ht
  obtain ⟨kept'', tail'', heq', ht'', hs'⟩ := hm kept' tail' ht'
  refine ⟨kept'', tail'', ?_, ht'', fun rest ↦ ?_⟩
  · rw [heq', heq, List.append_assoc _ out]
  · rw [List.append_assoc, hs, hs']

/-- A character that means nothing stands for itself. -/
theorem reads_singleton (hs : c ∉ stops) (hq : c ≠ '\'') (hb : c ≠ '\\')
    (hw : isSpace c = false) : Reads stops [c] [c] := by
  intro kept tail ht
  refine ⟨kept, tail ++ [c], by simp, ?_, fun rest ↦ scan_plain hs hq hb kept tail rest⟩
  intro d hd
  rcases List.mem_append.mp hd with hd | hd
  · exact ht d hd
  · rw [List.mem_singleton.mp hd]
    exact hw

/-- Quoted text is kept as it is. -/
theorem reads_quoted (hq : '\'' ∉ stops) (hb : '\\' ∉ stops) (value : String) :
    Reads stops (quoted value).toList (quoteText value.toList) := by
  intro kept tail _
  exact ⟨kept ++ tail ++ quoteText value.toList, [], by simp, by simp,
    scan_quoted hq hb value kept tail⟩

/-- A token ends at the first stop behind what is read. -/
theorem token_of_reads (h : Reads stops text out)
    (hs : ∀ c ∈ (text ++ rest).head?, isSpace c = false)
    (hr : ∀ c ∈ rest.head?, c ∈ stops) : token stops (text ++ rest) = (out, rest) := by
  obtain ⟨kept, tail, heq, htail, hscan⟩ := h [] [] (fun c hc ↦ absurd hc List.not_mem_nil)
  rw [token, dropWhile_of_head hs, hscan]
  cases rest with
  | nil =>
    rw [scan, trimEnd_of_forall htail, heq]
    rfl
  | cons c cs =>
    rw [scan_stop (hr c rfl), trimEnd_of_forall htail, heq]
    rfl

/-- A token goes on behind a character that means nothing as if it had begun there, but for white
space. -/
theorem token_append_cons (h : Reads stops text out) (hs : c ∉ stops) (hq : c ≠ '\'')
    (hb : c ≠ '\\') (hw : isSpace c = false)
    (hhead : ∀ d ∈ (text ++ c :: rest).head?, isSpace d = false) :
    token stops (text ++ c :: rest) =
      (out ++ c :: (scan stops false [] [] rest).1, (scan stops false [] [] rest).2) := by
  obtain ⟨kept, tail, heq, -, hscan⟩ := h [] [] (fun c hc ↦ absurd hc List.not_mem_nil)
  have hkept := @scan_append_kept stops false (kept ++ tail ++ [c]) [] [] rest
  rw [List.append_nil] at hkept
  rw [token, dropWhile_of_head hhead, hscan, scan_plain hs hq hb, scan_append_tail hw, hkept, heq]
  simp

/-! ### Protected text at the option level -/

/-- Every backslash protects the character behind it, and no other special stands unprotected. -/
inductive Protected : List Char → Prop
  | nil : Protected []
  | pair {c : Char} {rest : List Char} : Protected rest → Protected ('\\' :: c :: rest)
  | plain {c : Char} {rest : List Char} :
      c ≠ '\\' → c ≠ '\'' → c ≠ ':' → Protected rest → Protected (c :: rest)

/-- The graph level hands protected text on as it is. -/
theorem Protected.quoteText_eq (h : Protected text) : quoteText text = text := by
  induction h with
  | nil => rfl
  | pair _ ih => rw [quoteText, ih]
  | @plain c rest hb hq _ _ ih =>
    rw [quoteText.eq_def]
    split <;> simp_all

private theorem Protected.dropWhile (h : Protected text) : Protected (text.dropWhile isSpace) := by
  induction h with
  | nil => exact .nil
  | pair hp _ => exact .pair hp
  | @plain c rest hb hq hc hp ih =>
    rw [List.dropWhile_cons]
    split
    · exact ih
    · exact .plain hb hq hc hp

/-- The value of an option that is given as protected text. -/
def optionValue (text : List Char) : List Char := (token [':'] text).1

private theorem scan_protected (h : Protected text) (hr : ∀ c ∈ rest.head?, c = ':')
    (kept tail : List Char) :
    scan [':'] false kept tail (text ++ rest) = ((scan [':'] false kept tail text).1, rest) := by
  induction h generalizing kept tail with
  | nil =>
    cases rest with
    | nil => rfl
    | cons c cs =>
      obtain rfl := hr c rfl
      exact scan_stop (List.mem_singleton.mpr rfl) kept tail cs
  | pair _ ih =>
    rw [List.cons_append, List.cons_append, scan_backslash (by decide), scan_backslash (by decide),
      ih]
  | plain hb hq hc _ ih =>
    have hs := fun hm ↦ hc (List.mem_singleton.mp hm)
    rw [List.cons_append, scan_plain hs hq hb, scan_plain hs hq hb, ih]

/-- An option given as protected text ends with that text. -/
theorem token_protected (h : Protected text) (hr : ∀ c ∈ rest.head?, c = ':') :
    token [':'] (text ++ rest) = (optionValue text, rest) := by
  have hd : (text ++ rest).dropWhile isSpace = text.dropWhile isSpace ++ rest := by
    rw [List.dropWhile_append]
    split
    · next hn =>
      rw [List.isEmpty_iff.mp hn]
      cases rest with
      | nil => rfl
      | cons c cs =>
        obtain rfl := hr c rfl
        rfl
    · rfl
  rw [token, hd, scan_protected h.dropWhile hr]
  rfl

end Montage.Graph.Reader
