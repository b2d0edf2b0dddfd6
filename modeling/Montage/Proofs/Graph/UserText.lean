import Mathlib.Data.List.DropRight
import Montage.Proofs.Graph.Protection

/-!
# What is read of user text

Texts and paths are escaped for the level of options and put between quotes for the level of the
graph. Read through both levels they come back as they were meant, but for the white space at
their ends.
-/

namespace Montage.Graph

open Reader

/-! ### White space at the ends -/

/-- A text without the white space at its ends. -/
def Reader.trimmed (text : List Char) : List Char := trimEnd (text.dropWhile isSpace)

private theorem head_of_dropWhile_eq {text : List Char} (h : text.dropWhile isSpace = text) :
    ∀ c ∈ text.head?, isSpace c = false := by
  intro c hc
  obtain ⟨rest, rfl⟩ := List.head?_eq_some_iff.mp hc
  rw [List.dropWhile_eq_self_iff] at h
  simpa using h (Nat.zero_lt_succ _)

/-- No white space stands at the ends of the text. -/
def Reader.Tight (text : List Char) : Prop :=
  (∀ c ∈ text.head?, isSpace c = false) ∧ ∀ c ∈ text.getLast?, isSpace c = false

/-- Exactly the texts without white space at their ends stay as they are. -/
theorem trimmed_eq_self_iff (text : List Char) : trimmed text = text ↔ Tight text := by
  constructor
  · intro h
    have hfront : text.dropWhile isSpace <:+ text := List.dropWhile_suffix isSpace
    have hback : trimmed text <+: text.dropWhile isSpace := List.rdropWhile_prefix isSpace _
    -- neither end can have lost a character, since the length is kept
    have hdrop : text.dropWhile isSpace = text := by
      refine hfront.eq_of_length (Nat.le_antisymm hfront.length_le ?_)
      rw [h] at hback
      exact hback.length_le
    have hlast : text.reverse.dropWhile isSpace = text.reverse := by
      rw [trimmed, hdrop, trimEnd, List.reverse_eq_iff] at h
      exact h
    refine ⟨head_of_dropWhile_eq hdrop, fun c hc ↦ head_of_dropWhile_eq hlast c ?_⟩
    rwa [List.head?_reverse]
  · rintro ⟨hhead, hlast⟩
    rw [trimmed, dropWhile_of_head hhead, trimEnd, dropWhile_of_head, List.reverse_reverse]
    rwa [List.head?_reverse]

/-! ### Well-escaped text at the option level -/

section

variable {specials text : List Char}

private theorem WellEscaped.dropWhile (h : WellEscaped specials text) :
    WellEscaped specials (text.dropWhile isSpace) := by
  induction h using WellEscaped.induction with
  | nil => exact wellEscaped_nil specials
  | pair c rest _ _ h' _ => exact h'
  | single c rest _ _ h' ih =>
    rw [List.dropWhile_cons]
    split
    · exact ih
    · exact h'

private theorem WellEscaped.plainChars_dropWhile (hs : Guarding specials)
    (h : WellEscaped specials text) :
    plainChars (text.dropWhile isSpace) = (plainChars text).dropWhile isSpace := by
  induction h using WellEscaped.induction with
  | nil => rfl
  | pair c rest hc _ _ _ =>
    have hsolid : ¬ isSpace c = true := by simp [hs.solid c hc]
    rw [plainChars_pair, List.dropWhile_cons_of_neg hsolid]
    rfl
  | single c rest hn _ _ ih =>
    have hne : c ≠ '\\' := (ne_of_mem_of_not_mem hs.backslash hn).symm
    rw [plainChars_single hne, List.dropWhile_cons, List.dropWhile_cons]
    split
    · exact ih
    · exact plainChars_single hne rest

/-- Backslashes are taken off from the pieces, and white space at the end is dropped. -/
private theorem WellEscaped.scan_eq (hs : Guarding specials) (h : WellEscaped specials text)
    (kept tail : List Char) :
    (scan [':'] false kept tail text).1 = kept ++ trimEnd (tail ++ plainChars text) := by
  induction h using WellEscaped.induction generalizing kept tail with
  | nil => simp [scan, plainChars, cut]
  | pair c rest hc _ _ ih =>
    rw [scan_backslash (by decide), ih, plainChars_pair, trimEnd_append_cons (hs.solid c hc)]
    simp
  | single c rest hn _ _ ih =>
    have hne : ∀ {d}, d ∈ specials → c ≠ d := fun hd ↦ (ne_of_mem_of_not_mem hd hn).symm
    rw [scan_plain (mt List.mem_singleton.mp (hne hs.colon)) (hne hs.quote) (hne hs.backslash), ih,
      plainChars_single (hne hs.backslash), List.append_assoc, List.singleton_append]

/-- The value of well-escaped text is what it stands for, without the white space at its ends. -/
theorem WellEscaped.optionValue_eq (hs : Guarding specials) (h : WellEscaped specials text) :
    optionValue text = trimmed (plainChars text) := by
  rw [optionValue, token, h.dropWhile.scan_eq hs, h.plainChars_dropWhile hs]
  rfl

end

/-! ### Options that hold user text -/

/-- What is read of a text that an escaper has protected. -/
def Escaper.shown (escaper : Escaper) (text : String) : String :=
  String.ofList (trimmed (meantChars escaper.specials text.toList))

/-- Without backslashes a text is read as it is, but for the white space at its ends. -/
theorem Escaper.shown_of_notMem (escaper : Escaper) {text : String} (h : '\\' ∉ text.toList) :
    escaper.shown text = String.ofList (trimmed text.toList) := by
  rw [shown, meantChars_eq_self _ h]

/-- What is read of a protected path. -/
def shownPath (path : String) : String := String.ofList (trimmed path.toList)

/-- A quoted value is read as what it stands for. -/
private theorem found_quoted {specials : List Char} (hs : Guarding specials) {key value : String}
    (hk : IsKey key) (hv : WellEscaped specials value.toList) :
    (opt key (quoted value)).found =
      [(some key, String.ofList (trimmed (plainChars value.toList)))] := by
  rw [FilterOption.found, (optionsOf_keyed hk (valueOf_quoted (hv.guarded hs))).eq_options_token,
    hv.optionValue_eq hs]

theorem Escaper.found_opt (escaper : Escaper) {key : String} (hk : IsKey key) (text : String) :
    (opt key (quoted (escaper.escape text))).found = [(some key, escaper.shown text)] := by
  rw [found_quoted escaper.guarding hk (escaper.wellEscaped_escape text),
    escaper.plainChars_escape, shown]

theorem found_opt_escapePath {key : String} (hk : IsKey key) (path : String) :
    (opt key (quoted (escapePath path))).found = [(some key, shownPath path)] := by
  rw [found_quoted guarding_pathSpecials hk (wellEscaped_escapePath path),
    plainChars_escapePath, shownPath]

/-- A quoted value that needs no protection is read as it is. -/
theorem found_quoted_of_harmless {key value : String} (hk : IsKey key) (h : Harmless value)
    (ht : Tight value.toList) : (opt key (quoted value)).found = [(some key, value)] := by
  have hescape : escapePath value = value := by
    have hplain : ∀ c ∈ value.toList,
        (if c = '\\' ∨ c = '\'' ∨ c = ':' then ['\\', c] else [c]) = [c] := by
      intro c hc
      apply if_neg
      simpa using h c hc
    rw [escapePath, List.flatMap_congr hplain, List.flatMap_singleton', String.ofList_toList]
  have hfound := found_opt_escapePath hk value
  rwa [hescape, shownPath, (trimmed_eq_self_iff _).mpr ht, String.ofList_toList] at hfound

theorem Escaper.readable_opt (escaper : Escaper) {key : String} (hk : IsKey key) (text : String) :
    (opt key (quoted (escaper.escape text))).Readable :=
  readable_quoted hk ((escaper.wellEscaped_escape text).guarded escaper.guarding)

/-! ### In front of further options -/

/-- What the graph level reads behind a colon, up to the next stop, and what stands behind it. -/
def Reader.further (text : List Char) : List Char × List Char := scan optionStops false [] [] text

/-- In front of further options, a filter is read with its own options and with those. -/
theorem Filter.Readable.exists_options_eq {f : Filter} (h : f.Readable) (ho : f.options ≠ [])
    (next : List Char) :
    ∃ text, filter (f.render.toList ++ ':' :: next) = (⟨f.name, text⟩, (further next).2) ∧
      Reader.options text.toList =
        f.options.flatMap (·.found) ++ Reader.options (further next).1 := by
  obtain ⟨text, ht⟩ := exists_optionsOf_intercalate ho h.options
  have htoken : token optionStops (f.optionsText ++ ':' :: next) =
      (text ++ ':' :: (further next).1, (further next).2) :=
    token_append_cons ht.reads (by decide) (by decide) (by decide) (by decide)
      (ht.isSpace_head (':' :: next))
  refine ⟨String.ofList (text ++ ':' :: (further next).1), ?_, ?_⟩
  · rw [h.filter_eq ho, htoken]
  · rw [String.toList_ofList, ht.options_eq _ (by simp), List.drop_succ_cons, List.drop_zero]

/-- As the last option that a filter has so far, the option is read as `read` whatever is added:
the options before it are read as they are alone, and what is added as it is behind a colon. -/
def FilterOption.ReadAs (option : FilterOption) (name : String) (before : List FilterOption)
    (read : Option String × String) : Prop :=
  ∀ next, ∃ text,
    filter ((Filter.mk name (before ++ [option])).render.toList ++ ':' :: next) =
        (⟨name, text⟩, (further next).2) ∧
      Reader.options text.toList =
        before.flatMap (·.found) ++ read :: Reader.options (further next).1

private theorem readAs_of_found {name key value read : String} {before : List FilterOption}
    (hn : name ≠ "" ∧ Bare name) (hb : ∀ o ∈ before, o.Readable)
    (ho : (opt key value).Readable) (hf : (opt key value).found = [(some key, read)]) :
    (opt key value).ReadAs name before (some key, read) := by
  intro next
  have hfilter : (Filter.mk name (before ++ [opt key value])).Readable :=
    readable_filter hn (List.forall_mem_append.mpr ⟨hb, List.forall_mem_singleton.mpr ho⟩)
  obtain ⟨text, ht, hread⟩ := hfilter.exists_options_eq (by simp) next
  refine ⟨text, ht, ?_⟩
  rw [hread, List.flatMap_append, List.flatMap_singleton, hf, List.append_assoc,
    List.singleton_append]

/-- Escaping and quoting are undone by reading: a text is read as it was meant, and a path as it
is, but for the white space at their ends, and the options around it are read as ever. -/
theorem readAs_userText {name key : String} {before : List FilterOption}
    (hn : name ≠ "" ∧ Bare name) (hk : IsKey key) (hb : ∀ o ∈ before, o.Readable) :
    (∀ (escaper : Escaper) (text : String),
      (opt key (quoted (escaper.escape text))).ReadAs name before (some key, escaper.shown text)) ∧
    ∀ path : String,
      (opt key (quoted (escapePath path))).ReadAs name before (some key, shownPath path) := by
  constructor
  · intro escaper text
    exact readAs_of_found hn hb (escaper.readable_opt hk text) (escaper.found_opt hk text)
  · intro path
    exact readAs_of_found hn hb (readable_quoted hk (protected_escapePath path))
      (found_opt_escapePath hk path)

/-- A font file on a drive, then a text with a quote, a backslash and brackets in it. -/
theorem readAs_drawtext :
    (opt "text" (quoted (escapeText " it's: \\[x\\d] "))).ReadAs "drawtext"
      [opt "fontfile" (quoted (escapePath "C:\\it's.ttf"))] (some "text", "it's: [x\\d]") := by
  have hbefore : ∀ o ∈ [opt "fontfile" (quoted (escapePath "C:\\it's.ttf"))], o.Readable :=
    List.forall_mem_singleton.mpr (readable_quoted (by decide) (protected_escapePath _))
  have hshown : Escaper.text.shown " it's: \\[x\\d] " = "it's: [x\\d]" := by decide
  rw [← hshown]
  exact (readAs_userText (by decide) (by decide) hbefore).1 .text _

end Montage.Graph
