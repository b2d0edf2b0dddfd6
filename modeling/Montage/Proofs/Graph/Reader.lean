import Mathlib.Data.List.TakeDrop
import Montage.Graph.Basic
import Montage.Text.Blank

/-!
# Reading graphs

How the engine reads the text of a graph. It is read twice: the graph level splits stages, labels,
filters and the text of their options, then the option level splits that text into options. Both
take their tokens in one way: quotes protect what stands between them, a backslash protects the
next character, and white space around a token is dropped unless it was protected.
-/

namespace Montage.Graph.Reader

/-- The white space around tokens and labels. -/
def isSpace (c : Char) : Bool := c == ' ' || c == '\n' || c == '\t' || c == '\r'

/-- A text without the white space at its end. -/
def trimEnd (cs : List Char) : List Char := (cs.reverse.dropWhile isSpace).reverse

/-- Reads up to a stop that is not protected and returns the token and the rest. What was protected
is kept and what follows it is the tail, whose white space at the end is dropped. -/
def scan (stops : List Char) : Bool → List Char → List Char → List Char → List Char × List Char
  | _, kept, tail, [] => (kept ++ trimEnd tail, [])
  | true, kept, tail, c :: rest =>
    if c = '\'' then scan stops false (kept ++ tail) [] rest
    else scan stops true kept (tail ++ [c]) rest
  | false, kept, tail, c :: rest =>
    if c ∈ stops then (kept ++ trimEnd tail, c :: rest)
    else if c = '\'' then scan stops true kept tail rest
    else if c = '\\' then
      match rest with
      | [] => (kept ++ trimEnd (tail ++ [c]), [])
      | next :: others => scan stops false (kept ++ tail ++ [next]) [] others
    else scan stops false kept (tail ++ [c]) rest

/-- The next token and what stands behind it. -/
def token (stops input : List Char) : List Char × List Char :=
  scan stops false [] [] (input.dropWhile isSpace)

theorem length_scan_le (stops : List Char) (quoted : Bool) (kept tail input : List Char) :
    (scan stops quoted kept tail input).2.length ≤ input.length := by
  fun_induction scan stops quoted kept tail input <;> simp only [List.length_cons] at * <;> omega

private theorem length_dropWhile_le (p : Char → Bool) (cs : List Char) :
    (cs.dropWhile p).length ≤ cs.length :=
  (List.dropWhile_sublist p).length_le

theorem length_token_le (stops input : List Char) :
    (token stops input).2.length ≤ input.length :=
  Nat.le_trans (length_scan_le ..) (length_dropWhile_le ..)

/-- A filter as the graph level reads it: its name and the text of its options. -/
structure FilterText where
  name : String
  options : String
deriving DecidableEq

/-- A stage as the graph level reads it. -/
structure StageText where
  inputs : List String
  filters : List FilterText
  outputs : List String
deriving DecidableEq

/-- Reads the labels at the start of a text, with the part of a label that has been read so far.
A label that is not closed cannot be read. -/
def labels : Option (List Char) → List Char → Option (List String × List Char)
  | none, [] => some ([], [])
  | none, c :: rest =>
    if isSpace c then labels none rest
    else if c = '[' then labels (some []) rest
    else some ([], c :: rest)
  | some _, [] => none
  | some label, c :: rest =>
    if c = ']' then (labels none rest).map fun p ↦ (String.ofList label :: p.1, p.2)
    else labels (some (label ++ [c])) rest

/-- The stops of the name of a filter. -/
def nameStops : List Char := ['=', ',', ';', '[']

/-- The stops of the text of options. -/
def optionStops : List Char := ['[', ']', ',', ';']

/-- Reads a filter: its name, and its options if an equals sign follows. -/
def filter (input : List Char) : FilterText × List Char :=
  let name := token nameStops input
  match name.2 with
  | '=' :: rest =>
    let options := token optionStops rest
    (⟨String.ofList name.1, String.ofList options.1⟩, options.2)
  | rest => (⟨String.ofList name.1, ""⟩, rest)

theorem filter_of_equals {input name rest : List Char}
    (h : token nameStops input = (name, '=' :: rest)) :
    filter input = (⟨String.ofList name, String.ofList (token optionStops rest).1⟩,
      (token optionStops rest).2) := by
  rw [filter, h]
  rfl

theorem filter_of_stop {input name rest : List Char} (h : token nameStops input = (name, rest))
    (hr : '=' ∉ rest.head?) : filter input = (⟨String.ofList name, ""⟩, rest) := by
  rw [filter, h]
  dsimp only
  split
  · exact absurd rfl hr
  · rfl

theorem length_filter_le (input : List Char) : (filter input).2.length ≤ input.length := by
  have hname := length_token_le nameStops input
  unfold filter
  dsimp only
  split
  · next rest h =>
    have hoptions := length_token_le optionStops rest
    rw [h, List.length_cons] at hname
    exact Nat.le_trans hoptions (Nat.le_of_succ_le hname)
  · exact hname

private theorem length_labels_le {label : Option (List Char)} {input : List Char}
    {found : List String × List Char} (h : labels label input = some found) :
    found.2.length ≤ input.length := by
  induction input generalizing label found with
  | nil =>
    cases label with
    | none =>
      obtain rfl := Option.some.inj h
      exact Nat.le_refl _
    | some label => cases h
  | cons c rest ih =>
    cases label with
    | none =>
      rw [labels] at h
      split at h
      · exact Nat.le_succ_of_le (ih h)
      · split at h
        · exact Nat.le_succ_of_le (ih h)
        · obtain rfl := Option.some.inj h
          exact Nat.le_refl _
    | some label =>
      rw [labels] at h
      split at h
      · obtain ⟨others, ho, he⟩ := Option.map_eq_some_iff.mp h
        have hlen := ih ho
        rw [← he]
        exact Nat.le_succ_of_le hlen
      · exact Nat.le_succ_of_le (ih h)

/-- Reads filters for as long as commas follow. -/
def filters (input : List Char) : List FilterText × List Char :=
  match h : (filter input).2 with
  | ',' :: rest =>
    have : rest.length < input.length := by
      have hl := length_filter_le input
      rw [h, List.length_cons] at hl
      omega
    let others := filters rest
    ((filter input).1 :: others.1, others.2)
  | rest => ([(filter input).1], rest)
termination_by input.length

theorem filters_of_comma {input rest : List Char} {text : FilterText}
    (h : filter input = (text, ',' :: rest)) :
    filters input = (text :: (filters rest).1, (filters rest).2) := by
  rw [filters]
  split
  · next rest' hr =>
    rw [h] at hr
    obtain rfl : rest = rest' := (List.cons.inj hr).2
    dsimp only
    rw [h]
  · next hne => exact absurd (congrArg Prod.snd h) (hne rest)

theorem filters_of_stop {input rest : List Char} {text : FilterText}
    (h : filter input = (text, rest)) (hr : ',' ∉ rest.head?) : filters input = ([text], rest) := by
  rw [filters]
  split
  · next rest' hc =>
    rw [h] at hc
    obtain rfl : rest = ',' :: rest' := hc
    exact absurd rfl hr
  · rw [h]

theorem length_filters_le (input : List Char) : (filters input).2.length ≤ input.length := by
  fun_induction filters input with
  | case1 input rest h hlt others ih => exact Nat.le_of_lt (Nat.lt_of_le_of_lt ih hlt)
  | case2 input rest => exact length_filter_le input

/-- Reads a stage. -/
def stage (input : List Char) : Option (StageText × List Char) :=
  (labels none input).bind fun inputs ↦
    let chain := filters inputs.2
    (labels none chain.2).map fun outputs ↦ (⟨inputs.1, chain.1, outputs.1⟩, outputs.2)

theorem length_le_of_stage {input rest : List Char} {text : StageText}
    (h : stage input = some (text, rest)) : rest.length ≤ input.length := by
  obtain ⟨inputs, hi, ho⟩ := Option.bind_eq_some_iff.mp h
  obtain ⟨outputs, hl, he⟩ := Option.map_eq_some_iff.mp ho
  have hin := length_labels_le hi
  have hout := length_labels_le hl
  have hfilters := length_filters_le inputs.2
  have hrest : outputs.2 = rest := congrArg Prod.snd he
  rw [← hrest]
  omega

/-- Reads stages for as long as semicolons follow; nothing else may be left. -/
def stages (input : List Char) : Option (List StageText) :=
  match h : stage input with
  | none => none
  | some (first, ';' :: rest) =>
    have : rest.length < input.length := by
      have hl := length_le_of_stage h
      rw [List.length_cons] at hl
      omega
    (stages rest).map (first :: ·)
  | some (first, rest) => if rest.all Text.isBlank then some [first] else none
termination_by input.length

theorem stages_of_semicolon {input rest : List Char} {text : StageText}
    (h : stage input = some (text, ';' :: rest)) :
    stages input = (stages rest).map (text :: ·) := by
  rw [stages]
  split
  · next hn =>
    rw [h] at hn
    cases hn
  · next first rest' hs =>
    rw [h] at hs
    obtain ⟨rfl, hr⟩ := Prod.mk.inj (Option.some.inj hs)
    rw [(List.cons.inj hr).2]
  · next first rest' hne hs =>
    rw [h] at hs
    obtain ⟨rfl, rfl⟩ := Prod.mk.inj (Option.some.inj hs)
    exact absurd rfl (hne rest)

theorem stages_of_end {input : List Char} {text : StageText} (h : stage input = some (text, [])) :
    stages input = some [text] := by
  rw [stages]
  split
  · next hn =>
    rw [h] at hn
    cases hn
  · next first rest' hs =>
    rw [h] at hs
    cases hs
  · next first rest' hne hs =>
    rw [h] at hs
    obtain ⟨rfl, rfl⟩ := Prod.mk.inj (Option.some.inj hs)
    rfl

/-- The characters of keys. -/
def isKeyChar (c : Char) : Bool :=
  c.isAlphanum || c == '-' || c == '_' || c == '/' || c == '.'

/-- The key at the start of an option, if an equals sign follows it, and what stands behind. -/
def key (input : List Char) : Option String × List Char :=
  match input.span isKeyChar with
  | (c :: cs, '=' :: rest) => (some (String.ofList (c :: cs)), rest)
  | _ => (none, input)

theorem length_key_le (input : List Char) : (key input).2.length ≤ input.length := by
  unfold key
  split
  · next c cs rest h =>
    have hspan : c :: cs ++ '=' :: rest = input := by
      rw [List.span_eq_takeWhile_dropWhile, Prod.mk.injEq] at h
      rw [← h.1, ← h.2, List.takeWhile_append_dropWhile]
    rw [← hspan, List.length_append, List.length_cons]
    exact Nat.le_trans (Nat.le_succ _) (Nat.le_add_left _ _)
  · exact Nat.le_refl _

/-- Reads options with their keys, separated by colons. -/
def options (input : List Char) : List (Option String × String) :=
  match input with
  | [] => []
  | c :: cs =>
    let option := key (c :: cs)
    match h : (token [':'] option.2).2 with
    | ':' :: rest =>
      have : rest.length < (c :: cs).length := by
        have hl := Nat.le_trans (length_token_le [':'] option.2) (length_key_le (c :: cs))
        rw [h, List.length_cons] at hl
        omega
      (option.1, String.ofList (token [':'] option.2).1) :: options rest
    | _ => [(option.1, String.ofList (token [':'] option.2).1)]
termination_by input.length
decreasing_by exact this

/-- The structure of a stage: the names of its labels and filters, and the keys of its options. -/
structure Outline where
  inputs : List String
  filters : List (String × List (Option String))
  outputs : List String
deriving DecidableEq

/-- The structure of a stage that was read. -/
def StageText.outline (text : StageText) : Outline where
  inputs := text.inputs
  filters := text.filters.map fun f ↦ (f.name, (options f.options.toList).map (·.1))
  outputs := text.outputs

/-- The structure of a program that is read from its text. -/
def outlines (graph : String) : Option (List Outline) :=
  (stages graph.toList).map fun texts ↦ texts.map (·.outline)

/-- A stage with the values of its options. -/
structure Reading where
  inputs : List String
  filters : List (String × List (Option String × String))
  outputs : List String
deriving DecidableEq

/-- The structure of a stage, without the values. -/
def Reading.outline (reading : Reading) : Outline where
  inputs := reading.inputs
  filters := reading.filters.map fun f ↦ (f.1, f.2.map (·.1))
  outputs := reading.outputs

/-- A stage that was read, with its options taken from their text. -/
def StageText.reading (text : StageText) : Reading where
  inputs := text.inputs
  filters := text.filters.map fun f ↦ (f.name, options f.options.toList)
  outputs := text.outputs

theorem StageText.outline_reading (text : StageText) : text.reading.outline = text.outline := by
  simp only [reading, Reading.outline, List.map_map]
  rfl

/-- A program that is read from its text. -/
def readings (graph : String) : Option (List Reading) :=
  (stages graph.toList).map fun texts ↦ texts.map (·.reading)

theorem outlines_eq (graph : String) :
    outlines graph = (readings graph).map fun found ↦ found.map (·.outline) := by
  simp only [outlines, readings, Option.map_map, Function.comp_def, List.map_map,
    StageText.outline_reading]

end Reader

/-- The options that are read from the text of an option alone. -/
def FilterOption.found (option : FilterOption) : List (Option String × String) :=
  Reader.options (Reader.token Reader.optionStops option.render.toList).1

/-- A stage with its options as they are read from their own texts. -/
def Stage.reading (stage : Stage) : Reader.Reading where
  inputs := stage.inputs.map (·.text)
  filters := stage.filters.map fun f ↦ (f.name, f.options.flatMap (·.found))
  outputs := stage.outputs.map (·.text)

/-- The structure of a stage. -/
def Stage.outline (stage : Stage) : Reader.Outline where
  inputs := stage.inputs.map (·.text)
  filters := stage.filters.map fun f ↦ (f.name, f.options.map (·.key))
  outputs := stage.outputs.map (·.text)

end Montage.Graph
