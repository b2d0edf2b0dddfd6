import Mathlib.Data.List.TakeWhile

/-!
# Patterns

Searching texts with patterns, as regular expressions do. A pattern takes a part from the start of a
text. Where it may take more than one, the parts are tried in order: a repetition takes as much as
it can, and then gives back character by character. A search goes through a text from left to right
and goes on behind what it found.
-/

namespace Montage.Text

/-- What a pattern takes: a given word, one character of a kind, any number of them, another pattern
if it takes anything, or two patterns in a row. -/
inductive Pattern where
  | word (letters : List Char)
  | one (kind : Char → Bool)
  | many (kind : Char → Bool)
  | optional (inner : Pattern)
  | append (first second : Pattern)

instance : Append Pattern := ⟨.append⟩

/-- What a pattern took from a text, and what is left. -/
abbrev Split := List Char × List Char

/-- A split with more in front of it. -/
def Split.prepend (front : List Char) (split : Split) : Split := (front ++ split.1, split.2)

/-- The splits behind characters of a kind, with the most characters first. -/
def runs (kind : Char → Bool) : List Char → List Split
  | [] => [([], [])]
  | c :: rest =>
    if kind c then (runs kind rest).map (Split.prepend [c]) ++ [([], c :: rest)]
    else [([], c :: rest)]

namespace Pattern

/-- The ways to take the pattern from the start of a text, in the order in which they are tried. -/
def splits : Pattern → List Char → List Split
  | word letters, text =>
    if letters <+: text then [(letters, text.drop letters.length)] else []
  | one _, [] => []
  | one kind, c :: rest => if kind c then [([c], rest)] else []
  | many kind, text => runs kind text
  | optional inner, text => inner.splits text ++ [([], text)]
  | append first second, text =>
    (first.splits text).flatMap fun split ↦ (second.splits split.2).map (Split.prepend split.1)

/-- The way that is preferred. -/
def first? (pattern : Pattern) (text : List Char) : Option Split := (pattern.splits text).head?

/-- What the pattern can take, whatever follows. -/
def Takes : Pattern → List Char → Prop
  | word letters, taken => taken = letters
  | one kind, taken => ∃ c, kind c = true ∧ taken = [c]
  | many kind, taken => ∀ c ∈ taken, kind c = true
  | optional inner, taken => inner.Takes taken ∨ taken = []
  | append first second, taken =>
    ∃ front back, taken = front ++ back ∧ first.Takes front ∧ second.Takes back

/-- Whether a character never occurs in what the pattern takes. -/
def avoids (c : Char) : Pattern → Bool
  | word letters => !letters.contains c
  | one kind => !kind c
  | many kind => !kind c
  | optional inner => inner.avoids c
  | append first second => first.avoids c && second.avoids c

end Pattern

/-! ### Runs -/

variable {kind : Char → Bool}

theorem takeWhile_eq_nil_iff {text : List Char} :
    text.takeWhile kind = [] ↔ ∀ c ∈ text.head?, kind c = false := by
  cases text with
  | nil => simp
  | cons c rest => cases hc : kind c <;> simp [hc]

/-- A run ends where something else begins. -/
theorem takeWhile_append_stop {run : List Char} (hrun : ∀ c ∈ run, kind c = true)
    (rest : List Char) (hrest : rest.takeWhile kind = []) :
    (run ++ rest).takeWhile kind = run ∧ (run ++ rest).dropWhile kind = rest := by
  have hdrop : rest.dropWhile kind = rest := by
    have hsplit := List.takeWhile_append_dropWhile (p := kind) (l := rest)
    rwa [hrest, List.nil_append] at hsplit
  rw [List.takeWhile_append_of_pos hrun, List.dropWhile_append_of_pos hrun, hrest, hdrop,
    List.append_nil]
  exact ⟨rfl, rfl⟩

theorem head?_runs (text : List Char) :
    (runs kind text).head? = some (text.takeWhile kind, text.dropWhile kind) := by
  induction text with
  | nil => rfl
  | cons c rest ih =>
    cases hc : kind c with
    | true => simp [runs, hc, ih, Split.prepend]
    | false => simp [runs, hc]

/-- If nothing can follow that begins with a character of the kind, only the longest run is left. -/
theorem findSome?_runs {β : Type} {next : Split → Option β}
    (h : ∀ front c rest, kind c = true → next (front, c :: rest) = none) (text : List Char) :
    (runs kind text).findSome? next = next (text.takeWhile kind, text.dropWhile kind) := by
  induction text generalizing next with
  | nil => simp [runs]
  | cons c rest ih =>
    cases hc : kind c with
    | true =>
      have hrest : (runs kind rest).findSome? (next ∘ Split.prepend [c]) =
          next (c :: rest.takeWhile kind, rest.dropWhile kind) :=
        ih fun front d others hd ↦ h (c :: front) d others hd
      rw [runs, if_pos hc, List.findSome?_append, List.findSome?_map, hrest]
      simp [hc, h [] c rest hc]
    | false => simp [runs, hc]

private theorem nil_mem_runs {text rest : List Char} :
    ([], rest) ∈ runs kind text ↔ text = rest := by
  cases text with
  | nil => simp [runs, eq_comm]
  | cons c text =>
    rw [eq_comm]
    cases hc : kind c <;> simp [runs, hc, Split.prepend]

private theorem cons_mem_runs {c d : Char} {front rest text : List Char} :
    (d :: front, rest) ∈ runs kind (c :: text) ↔
      kind c = true ∧ c = d ∧ (front, rest) ∈ runs kind text := by
  rw [runs]
  cases hc : kind c with
  | true =>
    rw [if_pos rfl, List.mem_append, List.mem_map]
    constructor
    · rintro (⟨split, hsplit, heq⟩ | h)
      · obtain ⟨hcons, rfl⟩ := Prod.mk.inj heq
        obtain ⟨hd, rfl⟩ := List.cons.inj hcons
        exact ⟨rfl, hd, hsplit⟩
      · simp at h
    · rintro ⟨-, rfl, hsplit⟩
      exact Or.inl ⟨_, hsplit, rfl⟩
  | false => simp

theorem mem_runs_iff {front rest text : List Char} :
    (front, rest) ∈ runs kind text ↔ text = front ++ rest ∧ ∀ c ∈ front, kind c = true := by
  induction text generalizing front with
  | nil =>
    cases front with
    | nil => simp [nil_mem_runs]
    | cons d front => simp [runs]
  | cons c text ih =>
    cases front with
    | nil => simp [nil_mem_runs]
    | cons d front =>
      rw [cons_mem_runs, ih, List.cons_append, List.cons.injEq, List.forall_mem_cons]
      constructor
      · rintro ⟨hc, rfl, htext, hfront⟩
        exact ⟨⟨rfl, htext⟩, hc, hfront⟩
      · rintro ⟨⟨rfl, htext⟩, hc, hfront⟩
        exact ⟨hc, rfl, htext, hfront⟩

namespace Pattern

variable {pattern second : Pattern}

/-- The splits of a text are those at which the pattern can take what is in front. -/
theorem mem_splits_iff {text front rest : List Char} :
    (front, rest) ∈ pattern.splits text ↔ text = front ++ rest ∧ pattern.Takes front := by
  induction pattern generalizing text front rest with
  | word letters =>
    by_cases hstart : letters <+: text
    · obtain ⟨behind, rfl⟩ := hstart
      rw [splits, if_pos (List.prefix_append ..), List.mem_singleton, List.drop_left,
        Prod.mk.injEq, and_comm]
      refine and_congr_left fun hfront ↦ ?_
      rw [hfront, List.append_cancel_left_eq, eq_comm]
    · rw [splits, if_neg hstart]
      refine iff_of_false List.not_mem_nil ?_
      rintro ⟨rfl, rfl⟩
      exact hstart (List.prefix_append ..)
  | one kind =>
    constructor
    · intro h
      cases text with
      | nil => cases h
      | cons c behind =>
        unfold splits at h
        split at h
        · next hc =>
          obtain ⟨rfl, rfl⟩ := Prod.mk.inj (List.mem_singleton.mp h)
          exact ⟨rfl, c, hc, rfl⟩
        · cases h
    · rintro ⟨rfl, c, hc, rfl⟩
      simp [splits, hc]
  | many kind => exact mem_runs_iff
  | optional inner ih =>
    rw [splits, List.mem_append, ih, List.mem_singleton, Prod.mk.injEq, Takes, and_or_left]
    refine or_congr_right ⟨?_, ?_⟩
    · rintro ⟨rfl, rfl⟩
      exact ⟨rfl, rfl⟩
    · rintro ⟨rfl, rfl⟩
      exact ⟨rfl, rfl⟩
  | append first second ihf ihs =>
    simp only [splits, List.mem_flatMap, List.mem_map, Prod.exists, ihf, ihs, Split.prepend,
      Prod.mk.injEq, Takes]
    constructor
    · rintro ⟨left, middle, ⟨rfl, hleft⟩, right, behind, ⟨rfl, hright⟩, rfl, rfl⟩
      exact ⟨(List.append_assoc ..).symm, left, right, rfl, hleft, hright⟩
    · rintro ⟨rfl, left, right, rfl, hleft, hright⟩
      exact ⟨left, right ++ rest, ⟨List.append_assoc .., hleft⟩, right, rest, ⟨rfl, hright⟩,
        rfl, rfl⟩

theorem Takes.not_mem {taken : List Char} {c : Char} (h : pattern.Takes taken)
    (hc : pattern.avoids c = true) : c ∉ taken := by
  induction pattern generalizing taken with
  | word letters =>
    rw [Takes] at h
    simpa [h, avoids] using hc
  | one kind =>
    obtain ⟨d, hd, rfl⟩ := h
    rw [List.mem_singleton]
    rintro rfl
    simp [avoids, hd] at hc
  | many kind =>
    intro hm
    simp [avoids, h c hm] at hc
  | optional inner ih =>
    rcases h with h | rfl
    · exact ih h hc
    · exact List.not_mem_nil
  | append first second ihf ihs =>
    obtain ⟨front, back, rfl, hfront, hback⟩ := h
    obtain ⟨hcf, hcs⟩ := Bool.and_eq_true_iff.mp hc
    rw [List.mem_append, not_or]
    exact ⟨ihf hfront hcf, ihs hback hcs⟩

/-! ### What is preferred -/

theorem first?_append (text : List Char) : (pattern ++ second).first? text =
    (pattern.splits text).findSome? fun split ↦
      (second.first? split.2).map (Split.prepend split.1) := by
  show (List.flatMap _ _).head? = _
  rw [List.head?_flatMap]
  simp only [List.head?_map, first?]

theorem splits_word_append (letters text : List Char) :
    (word letters ++ second).splits (letters ++ text) =
      (second.splits text).map (Split.prepend letters) := by
  show List.flatMap _ (splits (word letters) (letters ++ text)) = _
  rw [splits, if_pos (List.prefix_append ..)]
  simp

theorem splits_word_append_of_absent {letters text : List Char} (h : ¬ letters <+: text) :
    (word letters ++ second).splits text = [] := by
  show List.flatMap _ (splits (word letters) text) = _
  rw [splits, if_neg h, List.flatMap_nil]

theorem first?_word_append (letters text : List Char) :
    (word letters ++ second).first? (letters ++ text) =
      (second.first? text).map (Split.prepend letters) := by
  rw [first?, splits_word_append, List.head?_map, first?]

theorem first?_word_append_of_absent {letters text : List Char} (h : ¬ letters <+: text) :
    (word letters ++ second).first? text = none := by
  rw [first?, splits_word_append_of_absent h, List.head?_nil]

theorem first?_one_append_nil : (one kind ++ second).first? [] = none := rfl

theorem first?_one_append_cons (c : Char) (rest : List Char) :
    (one kind ++ second).first? (c :: rest) =
      if kind c then (second.first? rest).map (Split.prepend [c]) else none := by
  rw [first?_append, splits]
  cases kind c <;> simp

/-- If what follows cannot begin with a character of the kind, the longest run is taken. -/
theorem first?_many_append (h : ∀ c rest, kind c = true → second.first? (c :: rest) = none)
    (text : List Char) : (many kind ++ second).first? text =
      (second.first? (text.dropWhile kind)).map (Split.prepend (text.takeWhile kind)) := by
  rw [first?_append, splits, findSome?_runs]
  intro front c rest hc
  rw [h c rest hc, Option.map_none]

theorem first?_optional (text : List Char) :
    (optional pattern).first? text = (pattern.first? text).or (some ([], text)) := by
  rw [first?, splits, List.head?_append]
  rfl

end Pattern

/-! ### Searching -/

/-- A search for a group of characters behind others. -/
structure Search where
  lead : Pattern
  group : Pattern

/-- What a search found: a group, what was taken before it, and what is left. -/
structure Found where
  lead : List Char
  group : List Char
  rest : List Char

namespace Search

/-- What is found at the start of a text. Of the ways to take the lead, the first one counts behind
which there is a group. -/
def here? (search : Search) (text : List Char) : Option Found :=
  (search.lead.splits text).findSome? fun lead ↦
    (search.group.first? lead.2).map fun group ↦ ⟨lead.1, group.1, group.2⟩

/-- The groups that are found behind the first `skip` characters. -/
def scan (search : Search) : Nat → List Char → List (List Char)
  | _, [] => []
  | skip + 1, _ :: rest => search.scan skip rest
  | 0, c :: rest =>
    match search.here? (c :: rest) with
    | none => search.scan 0 rest
    | some found =>
      found.group :: search.scan ((found.lead ++ found.group).length - 1) rest

/-- The groups that a search finds in a text, in order. A search that may take nothing at all is not
meant here; it would be tried at the end of the text as well. -/
def captures (search : Search) (text : List Char) : List (List Char) := search.scan 0 text

theorem of_here?_eq_some {search : Search} {text : List Char} {found : Found}
    (h : search.here? text = some found) : text = found.lead ++ found.group ++ found.rest ∧
      search.lead.Takes found.lead ∧ search.group.Takes found.group := by
  obtain ⟨lead, hlead, h⟩ := List.exists_of_findSome?_eq_some h
  obtain ⟨group, hgroup, rfl⟩ := Option.map_eq_some_iff.mp h
  obtain ⟨htext, htakesLead⟩ := Pattern.mem_splits_iff.mp hlead
  obtain ⟨hrest, htakesGroup⟩ := Pattern.mem_splits_iff.mp (List.mem_of_head? hgroup)
  refine ⟨?_, htakesLead, htakesGroup⟩
  rw [htext, hrest, List.append_assoc]

end Search

end Montage.Text
