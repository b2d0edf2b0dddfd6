import Montage.Graph.Escaping

/-!
# Well-escaped text

Escaping brings text into a normal form: cut from the left into pairs of a backslash and a
character and into single characters, every pair holds a special and no single character is one.
Text in this form is left as it is, and the normal form of a text stands for what the text stands
for.
-/

namespace Montage.Graph

/-! ### The pieces of a text -/

/-- A piece of a text: a backslash with the character behind it, or a character on its own. -/
inductive Piece where
  | pair (c : Char)
  | single (c : Char)
deriving DecidableEq

/-- Cuts a text into pieces from the left. -/
def cut : List Char → List Piece
  | [] => []
  | '\\' :: c :: rest => .pair c :: cut rest
  | c :: rest => .single c :: cut rest

/-- The character that a piece stands for. -/
def Piece.char : Piece → Char
  | pair c => c
  | single c => c

/-- Whether a piece may stand in escaped text: its special is protected, or it is none. -/
def Piece.IsEscaped (specials : List Char) : Piece → Prop
  | pair c => c ∈ specials
  | single c => c ∉ specials

instance (specials : List Char) : DecidablePred (Piece.IsEscaped specials)
  | .pair c => inferInstanceAs (Decidable (c ∈ specials))
  | .single c => inferInstanceAs (Decidable (c ∉ specials))

/-- Every special is protected by a backslash, and nothing else is. -/
def WellEscaped (specials text : List Char) : Prop :=
  ∀ piece ∈ cut text, piece.IsEscaped specials

instance (specials text : List Char) : Decidable (WellEscaped specials text) :=
  List.decidableBAll (Piece.IsEscaped specials) (cut text)

/-- What a text stands for: its pieces without the backslashes of the pairs. -/
def plainChars (text : List Char) : List Char := (cut text).map (·.char)

/-- What the writer of a text means: a backslash directly before a special protects it already and
is no part of the text. -/
def meantChars (specials : List Char) : List Char → List Char
  | [] => []
  | '\\' :: c :: rest =>
    if c ∈ specials then c :: meantChars specials rest
    else '\\' :: meantChars specials (c :: rest)
  | c :: rest => c :: meantChars specials rest

theorem cut_single {c : Char} (h : c ≠ '\\') (rest : List Char) :
    cut (c :: rest) = .single c :: cut rest := by
  rw [cut.eq_def]
  split <;> simp_all

theorem plainChars_pair (c : Char) (rest : List Char) :
    plainChars ('\\' :: c :: rest) = c :: plainChars rest := rfl

theorem plainChars_single {c : Char} (h : c ≠ '\\') (rest : List Char) :
    plainChars (c :: rest) = c :: plainChars rest := by
  rw [plainChars, cut_single h]
  rfl

theorem wellEscaped_nil (specials : List Char) : WellEscaped specials [] :=
  List.forall_mem_nil _

theorem wellEscaped_pair {specials : List Char} {c : Char} {rest : List Char} :
    WellEscaped specials ('\\' :: c :: rest) ↔ c ∈ specials ∧ WellEscaped specials rest :=
  List.forall_mem_cons

theorem wellEscaped_single {specials : List Char} {c : Char} (h : c ≠ '\\') {rest : List Char} :
    WellEscaped specials (c :: rest) ↔ c ∉ specials ∧ WellEscaped specials rest := by
  rw [WellEscaped, cut_single h]
  exact List.forall_mem_cons

/-- Induction over the pieces of well-escaped text. -/
theorem WellEscaped.induction {specials : List Char}
    {motive : (text : List Char) → WellEscaped specials text → Prop}
    (nil : motive [] (wellEscaped_nil specials))
    (pair : ∀ c rest, c ∈ specials → ∀ h h', motive rest h → motive ('\\' :: c :: rest) h')
    (single : ∀ c rest, c ∉ specials → ∀ h h', motive rest h → motive (c :: rest) h')
    {text : List Char} (h : WellEscaped specials text) : motive text h := by
  induction text using cut.induct with
  | case1 => exact nil
  | case2 c rest ih =>
    obtain ⟨hc, hrest⟩ := wellEscaped_pair.mp h
    exact pair c rest hc hrest h (ih hrest)
  | case3 c rest hlone ih =>
    have hcut : cut (c :: rest) = .single c :: cut rest := cut.eq_3 c rest hlone
    have hpieces := h
    rw [WellEscaped, hcut] at hpieces
    obtain ⟨hc, hrest⟩ := List.forall_mem_cons.mp hpieces
    exact single c rest hc hrest h (ih hrest)

/-- Text without specials is well escaped. -/
theorem wellEscaped_of_forall {specials text : List Char} (hb : '\\' ∈ specials)
    (h : ∀ c ∈ text, c ∉ specials) : WellEscaped specials text := by
  induction text with
  | nil => exact wellEscaped_nil specials
  | cons c text ih =>
    obtain ⟨hc, htext⟩ := List.forall_mem_cons.mp h
    exact (wellEscaped_single (ne_of_mem_of_not_mem hb hc).symm).mpr ⟨hc, ih htext⟩

/-- Text without backslashes is meant as it is. -/
theorem meantChars_eq_self (specials : List Char) {text : List Char} (h : '\\' ∉ text) :
    meantChars specials text = text := by
  induction text with
  | nil => rfl
  | cons c text ih =>
    obtain ⟨hc, htext⟩ := not_or.mp (mt List.mem_cons.mpr h)
    rw [meantChars.eq_3 specials c text fun _ _ he _ ↦ hc he.symm, ih htext]

/-! ### Escaping as a normal form -/

section

variable {specials : List Char}

/-- Escaped text is well escaped. -/
theorem wellEscaped_escapeChars (hb : '\\' ∈ specials) (text : List Char) :
    WellEscaped specials (escapeChars specials text) := by
  fun_induction escapeChars specials text with
  | case1 => exact wellEscaped_nil specials
  | case2 c rest hc ih => exact wellEscaped_pair.mpr ⟨hc, ih⟩
  | case3 c rest _ ih => exact wellEscaped_pair.mpr ⟨hb, ih⟩
  | case4 c rest _ hc ih =>
    refine wellEscaped_pair.mpr ⟨?_, ih⟩
    rcases hc with rfl | hc
    · exact hb
    · exact hc
  | case5 c rest _ hc ih =>
    obtain ⟨hne, hn⟩ := not_or.mp hc
    exact (wellEscaped_single hne).mpr ⟨hn, ih⟩

/-- Well-escaped text is left as it is. -/
theorem escapeChars_of_wellEscaped (hb : '\\' ∈ specials) {text : List Char}
    (h : WellEscaped specials text) : escapeChars specials text = text := by
  fun_induction escapeChars specials text with
  | case1 => rfl
  | case2 c rest _ ih => rw [ih (wellEscaped_pair.mp h).2]
  | case3 c rest hc _ => exact absurd (wellEscaped_pair.mp h).1 hc
  | case4 c rest hlone hc _ =>
    -- a backslash in front of nothing, or a special without a backslash
    by_cases hne : c = '\\'
    · subst hne
      cases rest with
      | nil => exact absurd hb (h (.single '\\') List.mem_cons_self)
      | cons d rest => exact absurd rfl (hlone d rest rfl)
    · exact absurd (hc.resolve_left hne) ((wellEscaped_single hne).mp h).1
  | case5 c rest _ hc ih =>
    rw [ih ((wellEscaped_single (not_or.mp hc).1).mp h).2]

/-- Escaping keeps what the text stands for. -/
theorem plainChars_escapeChars (text : List Char) :
    plainChars (escapeChars specials text) = meantChars specials text := by
  fun_induction escapeChars specials text with
  | case1 => rfl
  | case2 c rest hc ih => rw [plainChars_pair, meantChars, if_pos hc, ih]
  | case3 c rest hc ih => rw [plainChars_pair, meantChars, if_neg hc, ih]
  | case4 c rest hlone _ ih => rw [plainChars_pair, meantChars.eq_3 _ _ _ hlone, ih]
  | case5 c rest hlone hc ih =>
    rw [plainChars_single (not_or.mp hc).1, meantChars.eq_3 _ _ _ hlone, ih]

end

/-! ### Paths -/

/-- The characters protected in paths. -/
def pathSpecials : List Char := ['\\', '\'', ':']

/-- A protected path is well escaped. -/
theorem wellEscaped_escapePath (path : String) :
    WellEscaped pathSpecials (escapePath path).toList := by
  rw [escapePath, String.toList_ofList]
  induction path.toList with
  | nil => exact wellEscaped_nil pathSpecials
  | cons c cs ih =>
    rw [List.flatMap_cons]
    split
    · next hc => exact wellEscaped_pair.mpr ⟨by simpa [pathSpecials] using hc, ih⟩
    · next hc =>
      exact (wellEscaped_single (not_or.mp hc).1).mpr ⟨by simpa [pathSpecials] using hc, ih⟩

/-- A protected path stands for the path. -/
theorem plainChars_escapePath (path : String) :
    plainChars (escapePath path).toList = path.toList := by
  rw [escapePath, String.toList_ofList]
  induction path.toList with
  | nil => rfl
  | cons c cs ih =>
    rw [List.flatMap_cons]
    split
    · exact congrArg (c :: ·) ih
    · next hc => rw [List.singleton_append, plainChars_single (not_or.mp hc).1, ih]

/-! ### Texts and titles -/

/-- The two ways of escaping text that is drawn. -/
inductive Escaper where
  | text
  | title
deriving DecidableEq

namespace Escaper

/-- The characters that an escaper protects. -/
def specials : Escaper → List Char
  | text => textSpecials
  | title => titleSpecials

def escape : Escaper → String → String
  | text => escapeText
  | title => escapeTitle

theorem toList_escape (escaper : Escaper) (s : String) :
    (escaper.escape s).toList = escapeChars escaper.specials s.toList := by
  cases escaper <;> exact String.toList_ofList

theorem backslash_mem_specials (escaper : Escaper) : '\\' ∈ escaper.specials := by
  cases escaper <;> decide

/-- What an escaper returns is well escaped. -/
theorem wellEscaped_escape (escaper : Escaper) (s : String) :
    WellEscaped escaper.specials (escaper.escape s).toList := by
  rw [toList_escape]
  exact wellEscaped_escapeChars escaper.backslash_mem_specials _

/-- What an escaper leaves as it is, is well escaped, and it leaves all of that. -/
theorem escape_eq_self_iff (escaper : Escaper) (s : String) :
    escaper.escape s = s ↔ WellEscaped escaper.specials s.toList := by
  constructor
  · intro h
    rw [← h]
    exact escaper.wellEscaped_escape s
  · intro h
    rw [← String.toList_inj, toList_escape]
    exact escapeChars_of_wellEscaped escaper.backslash_mem_specials h

/-- What an escaper returns stands for what was meant. -/
theorem plainChars_escape (escaper : Escaper) (s : String) :
    plainChars (escaper.escape s).toList = meantChars escaper.specials s.toList := by
  rw [toList_escape]
  exact plainChars_escapeChars _

/-- Escaping is idempotent. Its results are the well-escaped texts, which it leaves as they are,
and they stand for what was meant. -/
theorem escape_normalForm (escaper : Escaper) (s : String) :
    escaper.escape (escaper.escape s) = escaper.escape s ∧
      WellEscaped escaper.specials (escaper.escape s).toList ∧
      (escaper.escape s = s ↔ WellEscaped escaper.specials s.toList) ∧
      plainChars (escaper.escape s).toList = meantChars escaper.specials s.toList :=
  have hform := escaper.wellEscaped_escape s
  ⟨(escaper.escape_eq_self_iff _).mpr hform, hform, escaper.escape_eq_self_iff s,
    escaper.plainChars_escape s⟩

/-- A backslash before a special protects it already, another one is doubled. -/
example : escapeText "it\\'s C\\D" = "it\\'s C\\\\D" := by decide

end Escaper

end Montage.Graph
