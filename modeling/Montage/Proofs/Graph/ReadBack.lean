import Montage.Proofs.Graph.LabelText
import Montage.Proofs.Graph.Tokens

/-!
# Reading programs back

A program whose values are bare or quoted and protected is read back from its text as it is: with
its stages, labels and filters and with its options, each of them as it is read alone.
-/

namespace Montage.Graph

open Reader

/-! ### What can be read back -/

/-- A character that means nothing at either level. -/
def isBareChar (c : Char) : Bool :=
  !isSpace c && !(['\\', '\'', '[', ']', ',', ';', ':', '='].contains c)

/-- A text that needs no protection. -/
def Bare (text : String) : Prop := ∀ c ∈ text.toList, isBareChar c = true

instance (text : String) : Decidable (Bare text) :=
  List.decidableBAll (fun c ↦ isBareChar c = true) text.toList

/-- A text that can be a key. -/
def IsKey (key : String) : Prop := key ≠ "" ∧ ∀ c ∈ key.toList, isKeyChar c = true

instance (key : String) : Decidable (IsKey key) :=
  @instDecidableAnd _ _ _ (List.decidableBAll (fun c ↦ isKeyChar c = true) key.toList)

/-- The graph level reads the value as the text, which is protected. -/
structure ValueOf (value : String) (text : List Char) : Prop where
  reads : Reads optionStops value.toList text
  guarded : Protected text

/-- The option is read back: it has a key and a protected value, or a bare value by position. -/
inductive FilterOption.Readable : FilterOption → Prop
  | keyed {key value : String} {text : List Char} :
      IsKey key → ValueOf value text → FilterOption.Readable (opt key value)
  | positional {value : String} : value ≠ "" → Bare value → FilterOption.Readable (pos value)

/-- The filter is read back. -/
structure Filter.Readable (filter : Filter) : Prop where
  name_ne : filter.name ≠ ""
  name_bare : Bare filter.name
  options : ∀ o ∈ filter.options, o.Readable

/-- The stage is read back. -/
structure Stage.Readable (stage : Stage) : Prop where
  filters_ne : stage.filters ≠ []
  filters : ∀ f ∈ stage.filters, f.Readable

/-! ### Bare text -/

theorem isBareChar_iff {c : Char} :
    isBareChar c = true ↔ isSpace c = false ∧
      c ∉ ['\\', '\'', '[', ']', ',', ';', ':', '='] := by
  simp [isBareChar]

private theorem reads_of_forall {stops : List Char}
    (hs : stops ⊆ ['[', ']', ',', ';', ':', '=']) {cs : List Char}
    (h : ∀ c ∈ cs, isBareChar c = true) : Reads stops cs cs := by
  induction cs with
  | nil => exact .nil
  | cons c cs ih =>
    obtain ⟨hc, hcs⟩ := List.forall_mem_cons.mp h
    obtain ⟨hw, hn⟩ := isBareChar_iff.mp hc
    have hstop : c ∉ stops := fun hm ↦ hn (by simpa using Or.inr (Or.inr (by simpa using hs hm)))
    have hfirst :=
      reads_singleton hstop (fun he ↦ hn (by simp [he])) (fun he ↦ hn (by simp [he])) hw
    exact hfirst.append (ih hcs)

private theorem protected_of_bare {cs : List Char} (h : ∀ c ∈ cs, isBareChar c = true) :
    Protected cs := by
  induction cs with
  | nil => exact .nil
  | cons c cs ih =>
    obtain ⟨hc, hcs⟩ := List.forall_mem_cons.mp h
    have hn := (isBareChar_iff.mp hc).2
    exact .plain (fun he ↦ hn (by simp [he])) (fun he ↦ hn (by simp [he]))
      (fun he ↦ hn (by simp [he])) (ih hcs)

/-- A bare value is read as itself. -/
theorem Bare.valueOf {value : String} (h : Bare value) : ValueOf value value.toList where
  reads := reads_of_forall (by decide) h
  guarded := protected_of_bare h

/-- A quoted value is read as the protected text between the quotes. -/
theorem valueOf_quoted {value : String} (h : Protected value.toList) :
    ValueOf (quoted value) value.toList where
  reads := by
    have hr : Reads optionStops (quoted value).toList (quoteText value.toList) :=
      reads_quoted (by decide) (by decide) value
    rw [h.quoteText_eq] at hr
    exact hr
  guarded := h

/-! ### Options -/

theorem isBareChar_of_isKeyChar {c : Char} (h : isKeyChar c = true) :
    isBareChar c = true := by
  have hw : isSpace c = false := by
    rw [Bool.eq_false_iff]
    intro hs
    simp only [isSpace, Bool.or_eq_true, beq_iff_eq] at hs
    rcases hs with ((rfl | rfl) | rfl) | rfl <;> exact absurd h (by decide)
  have hn : c ∉ ['\\', '\'', '[', ']', ',', ';', ':', '='] := by
    intro hm
    simp only [List.mem_cons, List.not_mem_nil, or_false] at hm
    rcases hm with rfl | rfl | rfl | rfl | rfl | rfl | rfl | rfl <;> exact absurd h (by decide)
  exact isBareChar_iff.mpr ⟨hw, hn⟩

private theorem ne_equals_of_isBareChar {c : Char} (h : isBareChar c = true) : c ≠ '=' :=
  fun he ↦ (isBareChar_iff.mp h).2 (by simp [he])

/-- A key is read up to its equals sign. -/
private theorem key_of_equals {k rest : List Char} (hn : k ≠ [])
    (hk : ∀ c ∈ k, isKeyChar c = true) :
    key (k ++ '=' :: rest) = (some (String.ofList k), rest) := by
  have hspan : (k ++ '=' :: rest).span isKeyChar = (k, '=' :: rest) := by
    rw [List.span_eq_takeWhile_dropWhile, List.takeWhile_append_of_pos hk,
      List.dropWhile_append_of_pos hk]
    simp [isKeyChar]
  obtain ⟨c, cs, rfl⟩ := List.exists_cons_of_ne_nil hn
  rw [key, hspan]
  rfl

private theorem dropWhile_isKeyChar_ne {text rest : List Char}
    (ht : ∀ c ∈ text, isBareChar c = true) (hr : ∀ c ∈ rest.head?, c = ':') (others : List Char) :
    (text ++ rest).dropWhile isKeyChar ≠ '=' :: others := by
  induction text with
  | nil =>
    cases rest with
    | nil => exact fun h ↦ nomatch h
    | cons c cs =>
      obtain rfl := hr c rfl
      intro h
      have hcolon : ':' :: cs = '=' :: others := h
      cases hcolon
  | cons c cs ih =>
    obtain ⟨hc, hcs⟩ := List.forall_mem_cons.mp ht
    rw [List.cons_append, List.dropWhile_cons]
    split
    · exact ih hcs
    · intro h
      exact ne_equals_of_isBareChar hc (List.cons.inj h).1

/-- Text without an equals sign before the next colon has no key. -/
private theorem key_of_bare {text rest : List Char} (ht : ∀ c ∈ text, isBareChar c = true)
    (hr : ∀ c ∈ rest.head?, c = ':') : key (text ++ rest) = (none, text ++ rest) := by
  rw [key, List.span_eq_takeWhile_dropWhile]
  split
  · next h => exact absurd (Prod.mk.inj h).2 (dropWhile_isKeyChar_ne ht hr _)
  · rfl

/-- What the graph level reads of options: text that does not begin with white space, from which
the option level takes these options. -/
structure OptionsOf (rendered : List Char) (found : List (Option String × String))
    (text : List Char) : Prop where
  reads : Reads optionStops rendered text
  head : ∃ c cs, rendered = c :: cs ∧ isSpace c = false
  options_eq : ∀ rest, (∀ c ∈ rest.head?, c = ':') →
    options (text ++ rest) = found ++ options (rest.drop 1)

theorem options_nil : options [] = [] := by
  rw [options]

/-- The option level takes one option up to the next colon. -/
private theorem options_append {text value rest : List Char} {k : Option String}
    (hn : text ≠ []) (hv : Protected value) (hr : ∀ c ∈ rest.head?, c = ':')
    (hk : key (text ++ rest) = (k, value ++ rest)) :
    options (text ++ rest) =
      (k, String.ofList (optionValue value)) :: options (rest.drop 1) := by
  obtain ⟨c, cs, rfl⟩ := List.exists_cons_of_ne_nil hn
  rw [List.cons_append] at hk ⊢
  have ht := token_protected hv hr
  rw [options]
  split
  · next more hmore =>
    rw [hk, ht] at hmore
    obtain rfl : rest = ':' :: more := hmore
    dsimp only
    rw [hk, ht]
    rfl
  · next hne =>
    rw [hk, ht] at hne
    obtain rfl : rest = [] := by
      cases rest with
      | nil => rfl
      | cons d ds =>
        obtain rfl := hr d rfl
        exact absurd rfl (hne ds)
    rw [hk, ht, List.drop_nil, options_nil]

/-- A keyed option is read with its key. -/
theorem optionsOf_keyed {k value : String} {text : List Char} (hk : IsKey k)
    (hv : ValueOf value text) :
    OptionsOf (opt k value).render.toList [(some k, String.ofList (optionValue text))]
      (k.toList ++ '=' :: text) where
  reads := by
    have hkey : Reads optionStops k.toList k.toList :=
      reads_of_forall (by decide) fun c hc ↦ isBareChar_of_isKeyChar (hk.2 c hc)
    have hequals : Reads optionStops ['='] ['='] :=
      reads_singleton (by decide) (by decide) (by decide) (by decide)
    have h := hkey.append (hequals.append hv.reads)
    simpa [opt, FilterOption.render, String.toList_append] using h
  head := by
    obtain ⟨c, cs, hc⟩ := List.exists_cons_of_ne_nil (mt String.toList_eq_nil_iff.mp hk.1)
    refine ⟨c, cs ++ '=' :: value.toList, ?_, ?_⟩
    · simp [opt, FilterOption.render, String.toList_append, hc]
    · exact (isBareChar_iff.mp (isBareChar_of_isKeyChar (hk.2 c (hc ▸ List.mem_cons_self)))).1
  options_eq rest hr := by
    have hkn : k.toList ≠ [] := mt String.toList_eq_nil_iff.mp hk.1
    have hkey : key (k.toList ++ '=' :: (text ++ rest)) = (some k, text ++ rest) := by
      rw [key_of_equals hkn hk.2, String.ofList_toList]
    refine options_append (by simp) hv.guarded hr ?_
    rw [List.append_assoc, List.cons_append, hkey]

private theorem optionsOf_positional {value : String} (hn : value ≠ "") (hv : Bare value) :
    OptionsOf (pos value).render.toList [(none, String.ofList (optionValue value.toList))]
      value.toList where
  reads := hv.valueOf.reads
  head := by
    obtain ⟨c, cs, hc⟩ := List.exists_cons_of_ne_nil (mt String.toList_eq_nil_iff.mp hn)
    exact ⟨c, cs, hc, (isBareChar_iff.mp (hv c (hc ▸ List.mem_cons_self))).1⟩
  options_eq rest hr :=
    options_append (mt String.toList_eq_nil_iff.mp hn) hv.valueOf.guarded hr (key_of_bare hv hr)

theorem OptionsOf.isSpace_head {rendered text : List Char}
    {found : List (Option String × String)} (h : OptionsOf rendered found text)
    (rest : List Char) : ∀ c ∈ (rendered ++ rest).head?, isSpace c = false := by
  obtain ⟨c, cs, hc, hw⟩ := h.head
  rw [hc]
  simpa using hw

/-- What is read in place is what is read of the text alone. -/
theorem OptionsOf.eq_options_token {rendered text : List Char}
    {found : List (Option String × String)} (h : OptionsOf rendered found text) :
    options (token optionStops rendered).1 = found := by
  have htoken := token_of_reads h.reads (h.isSpace_head []) (fun d hd ↦ nomatch hd)
  have hoptions := h.options_eq [] (fun d hd ↦ nomatch hd)
  rw [List.append_nil] at htoken hoptions
  rw [htoken, hoptions, List.drop_nil, options_nil, List.append_nil]

/-- A readable option is one option, with its own key. -/
theorem FilterOption.Readable.exists_optionsOf {o : FilterOption} (h : o.Readable) :
    ∃ text, OptionsOf o.render.toList o.found text ∧ o.found.map (·.1) = [o.key] := by
  cases h with
  | keyed hk hv =>
    have ho := optionsOf_keyed hk hv
    rw [found, ho.eq_options_token]
    exact ⟨_, ho, rfl⟩
  | positional hn hv =>
    have ho := optionsOf_positional hn hv
    rw [found, ho.eq_options_token]
    exact ⟨_, ho, rfl⟩

/-- A colon between options separates them. -/
theorem OptionsOf.colon {first others text more : List Char}
    {found found' : List (Option String × String)}
    (h : OptionsOf first found text) (hm : OptionsOf others found' more) :
    OptionsOf (first ++ ':' :: others) (found ++ found') (text ++ ':' :: more) where
  reads := by
    have hcolon : Reads optionStops [':'] [':'] :=
      reads_singleton (by decide) (by decide) (by decide) (by decide)
    exact h.reads.append (hcolon.append hm.reads)
  head := by
    obtain ⟨c, cs, hc, hw⟩ := h.head
    exact ⟨c, cs ++ ':' :: others, by rw [hc]; rfl, hw⟩
  options_eq rest hr := by
    have hfirst := h.options_eq (':' :: (more ++ rest)) (by simp)
    rw [List.append_assoc, List.cons_append, hfirst, List.drop_succ_cons, List.drop_zero,
      hm.options_eq rest hr, List.append_assoc]

/-- Readable options are read one by one. -/
theorem exists_optionsOf_intercalate {os : List FilterOption} (hn : os ≠ [])
    (h : ∀ o ∈ os, o.Readable) :
    ∃ text, OptionsOf (":".intercalate (os.map (·.render))).toList (os.flatMap (·.found)) text := by
  induction os with
  | nil => exact absurd rfl hn
  | cons o os ih =>
    obtain ⟨ho, hos⟩ := List.forall_mem_cons.mp h
    obtain ⟨text, ht, -⟩ := ho.exists_optionsOf
    cases os with
    | nil => exact ⟨text, by simpa using ht⟩
    | cons o' os =>
      obtain ⟨more, hm⟩ := ih (List.cons_ne_nil _ _) hos
      refine ⟨text ++ ':' :: more, ?_⟩
      have hc := ht.colon hm
      rw [List.map_cons, List.map_cons, String.intercalate_cons_cons, String.toList_append,
        String.toList_append]
      simpa using hc

/-- Readable options have their own keys. -/
theorem map_fst_flatMap_found {os : List FilterOption} (h : ∀ o ∈ os, o.Readable) :
    (os.flatMap (·.found)).map (·.1) = os.map (·.key) := by
  induction os with
  | nil => rfl
  | cons o os ih =>
    obtain ⟨ho, hos⟩ := List.forall_mem_cons.mp h
    obtain ⟨-, -, hkey⟩ := ho.exists_optionsOf
    rw [List.flatMap_cons, List.map_append, hkey, ih hos]
    rfl

/-! ### Filters and stages -/

/-- What the graph level reads of a filter has its name, and its options as they are read alone. -/
private def Matches (text : FilterText) (f : Filter) : Prop :=
  (text.name, options text.options.toList) = (f.name, f.options.flatMap (·.found))

private theorem map_eq_of_matches {texts : List FilterText} {fs : List Filter}
    (h : List.Forall₂ Matches texts fs) :
    texts.map (fun f ↦ (f.name, options f.options.toList)) =
      fs.map fun f ↦ (f.name, f.options.flatMap (·.found)) := by
  induction h with
  | nil => rfl
  | cons hm _ ih => rw [List.map_cons, List.map_cons, hm, ih]

private theorem reads_name {f : Filter} (h : f.Readable) :
    Reads nameStops f.name.toList f.name.toList :=
  reads_of_forall (by decide) h.name_bare

private theorem isSpace_head_name {f : Filter} (h : f.Readable) (rest : List Char) :
    ∀ c ∈ (f.name.toList ++ rest).head?, isSpace c = false := by
  obtain ⟨c, cs, hc⟩ := List.exists_cons_of_ne_nil (mt String.toList_eq_nil_iff.mp h.name_ne)
  intro d hd
  rw [hc] at hd
  obtain rfl : c = d := Option.some.inj hd
  exact (isBareChar_iff.mp (h.name_bare c (hc ▸ List.mem_cons_self))).1

/-- A filter without options is read up to the next stop. -/
private theorem filter_of_options_nil {f : Filter} (h : f.Readable) (ho : f.options = [])
    {rest : List Char} (hr : ∀ c ∈ rest.head?, c ∈ [',', ';', '[']) :
    filter (f.render.toList ++ rest) = (⟨f.name, ""⟩, rest) := by
  have hrender : f.render = f.name := by
    simp [Filter.render, ho]
  have hstop : ∀ c ∈ rest.head?, c ∈ nameStops :=
    fun d hd ↦ List.mem_cons_of_mem _ (hr d hd)
  have hname := token_of_reads (reads_name h) (isSpace_head_name h rest) hstop
  rw [hrender, filter_of_stop hname, String.ofList_toList]
  intro hc
  exact absurd (hr '=' hc) (by decide)

/-- The text of the options of a filter. -/
def Filter.optionsText (f : Filter) : List Char :=
  (":".intercalate (f.options.map (·.render))).toList

/-- Behind its name, a filter with options is read as the text of its options. -/
theorem Filter.Readable.filter_eq {f : Filter} (h : f.Readable) (ho : f.options ≠ [])
    (rest : List Char) :
    filter (f.render.toList ++ rest) =
      (⟨f.name, String.ofList (token optionStops (f.optionsText ++ rest)).1⟩,
        (token optionStops (f.optionsText ++ rest)).2) := by
  have hrender : f.render.toList = f.name.toList ++ '=' :: f.optionsText := by
    simp [Filter.render, Filter.optionsText, ho, String.toList_append]
  have hequals : ∀ d ∈ ('=' :: (f.optionsText ++ rest)).head?, d ∈ nameStops := by
    intro d hd
    obtain rfl : '=' = d := Option.some.inj hd
    decide
  have hname := token_of_reads (reads_name h)
    (isSpace_head_name h ('=' :: (f.optionsText ++ rest))) hequals
  rw [hrender, List.append_assoc, List.cons_append, filter_of_equals hname, String.ofList_toList]

/-- The text of options is read up to the next stop. -/
private theorem filter_of_optionsOf {f : Filter} (h : f.Readable) (ho : f.options ≠ [])
    {text rest : List Char} {found : List (Option String × String)}
    (ht : OptionsOf f.optionsText found text) (hr : ∀ c ∈ rest.head?, c ∈ [',', ';', '[']) :
    filter (f.render.toList ++ rest) = (⟨f.name, String.ofList text⟩, rest) := by
  have hstop : ∀ c ∈ rest.head?, c ∈ optionStops := by
    intro d hd
    have hm := hr d hd
    simp only [List.mem_cons, List.not_mem_nil, or_false] at hm
    rcases hm with rfl | rfl | rfl <;> decide
  rw [h.filter_eq ho, token_of_reads ht.reads (ht.isSpace_head rest) hstop]

/-- A readable filter is read with its name and its options. -/
private theorem exists_filter_eq {f : Filter} (h : f.Readable) {rest : List Char}
    (hr : ∀ c ∈ rest.head?, c ∈ [',', ';', '[']) :
    ∃ text, filter (f.render.toList ++ rest) = (text, rest) ∧ Matches text f := by
  by_cases ho : f.options = []
  · refine ⟨_, filter_of_options_nil h ho hr, ?_⟩
    simp [Matches, ho, options_nil]
  · obtain ⟨text, ht⟩ := exists_optionsOf_intercalate ho h.options
    refine ⟨_, filter_of_optionsOf h ho ht hr, ?_⟩
    have hoptions := ht.options_eq [] (fun c hc ↦ nomatch hc)
    rw [List.append_nil, List.drop_nil, options_nil, List.append_nil] at hoptions
    rw [Matches, String.toList_ofList, hoptions]

/-- Readable filters are read one after the other. -/
private theorem exists_filters_eq {fs : List Filter} (hn : fs ≠ []) (h : ∀ f ∈ fs, f.Readable)
    {rest : List Char} (hr : ∀ c ∈ rest.head?, c ∈ [';', '[']) :
    ∃ texts, filters ((",".intercalate (fs.map (·.render))).toList ++ rest) = (texts, rest) ∧
      List.Forall₂ Matches texts fs := by
  induction fs with
  | nil => exact absurd rfl hn
  | cons f fs ih =>
    obtain ⟨hf, hfs⟩ := List.forall_mem_cons.mp h
    cases fs with
    | nil =>
      obtain ⟨text, ht, hm⟩ := exists_filter_eq hf fun c hc ↦ List.mem_cons_of_mem _ (hr c hc)
      refine ⟨[text], ?_, .cons hm .nil⟩
      rw [List.map_cons, List.map_nil, String.intercalate_singleton]
      refine filters_of_stop ht fun hc ↦ ?_
      exact absurd (hr ',' hc) (by decide)
    | cons f' fs =>
      obtain ⟨texts, hts, hms⟩ := ih (List.cons_ne_nil _ _) hfs
      have hcomma : ∀ others, ∀ c ∈ (',' :: others).head?, c ∈ [',', ';', '['] := by
        intro others c hc
        obtain rfl : ',' = c := Option.some.inj hc
        decide
      obtain ⟨text, ht, hm⟩ := exists_filter_eq hf
        (hcomma ((",".intercalate ((f' :: fs).map (·.render))).toList ++ rest))
      refine ⟨text :: texts, ?_, .cons hm hms⟩
      rw [List.map_cons, List.map_cons, String.intercalate_cons_cons, String.toList_append,
        String.toList_append, List.append_assoc, List.append_assoc]
      refine (filters_of_comma ht).trans ?_
      rw [hts]

private theorem labels_inside {text : List Char} (h : ∀ c ∈ text, c ≠ ']')
    (label rest : List Char) :
    labels (some label) (text ++ ']' :: rest) =
      (labels none rest).map fun p ↦ (String.ofList (label ++ text) :: p.1, p.2) := by
  induction text generalizing label with
  | nil => rw [List.nil_append, labels, if_pos rfl, List.append_nil]
  | cons c text ih =>
    obtain ⟨hc, ht⟩ := List.forall_mem_cons.mp h
    rw [List.cons_append, labels, if_neg hc, ih ht, List.append_assoc]
    rfl

/-- Labels are read up to what is not a label. -/
private theorem labels_eq (ls : List Label) {rest : List Char}
    (hr : ∀ c ∈ rest.head?, isSpace c = false ∧ c ≠ '[') :
    labels none ((String.join (ls.map (·.bracketed))).toList ++ rest) =
      some (ls.map (·.text), rest) := by
  induction ls with
  | nil =>
    cases rest with
    | nil => rfl
    | cons c cs =>
      obtain ⟨hw, hn⟩ := hr c rfl
      rw [List.map_nil, String.join_nil, String.toList_empty, List.nil_append, labels,
        if_neg (by simp [hw]), if_neg hn]
      rfl
  | cons l ls ih =>
    have hl : l.bracketed.toList = '[' :: (l.text.toList ++ [']']) := by
      simp [Label.bracketed, String.toList_append]
    rw [List.map_cons, String.join_cons, String.toList_append, hl, List.append_assoc,
      List.cons_append, List.append_assoc, labels, if_neg (by decide), if_pos rfl]
    refine (labels_inside (fun c ↦ Label.ne_of_mem_text) [] _).trans ?_
    rw [List.nil_append, String.ofList_toList]
    exact congrArg (Option.map _) ih

/-- The text of labels begins with a bracket. -/
private theorem head_join (ls : List Label) {rest : List Char} {P : Char → Prop} (hb : P '[')
    (hr : ∀ c ∈ rest.head?, P c) :
    ∀ c ∈ ((String.join (ls.map (·.bracketed))).toList ++ rest).head?, P c := by
  cases ls with
  | nil =>
    rw [List.map_nil, String.join_nil, String.toList_empty, List.nil_append]
    exact hr
  | cons l ls =>
    intro c hc
    have hl : (String.join ((l :: ls).map (·.bracketed))).toList =
        '[' :: (l.text.toList ++ ']' :: (String.join (ls.map (·.bracketed))).toList) := by
      simp [String.join_cons, Label.bracketed, String.toList_append]
    rw [hl] at hc
    obtain rfl : '[' = c := Option.some.inj hc
    exact hb

/-- The text of readable filters begins with the name of the first. -/
private theorem head_intercalate {fs : List Filter} (hn : fs ≠ []) (h : ∀ f ∈ fs, f.Readable)
    (rest : List Char) :
    ∀ c ∈ ((",".intercalate (fs.map (·.render))).toList ++ rest).head?, isBareChar c = true := by
  obtain ⟨f, fs, rfl⟩ := List.exists_cons_of_ne_nil hn
  have hf := h f List.mem_cons_self
  obtain ⟨c, cs, hc⟩ := List.exists_cons_of_ne_nil (mt String.toList_eq_nil_iff.mp hf.name_ne)
  have hrender : ∃ others, f.render.toList = c :: others := by
    unfold Filter.render
    split
    · exact ⟨cs, hc⟩
    · exact ⟨_, by rw [String.toList_append, String.toList_append, hc]; rfl⟩
  obtain ⟨others, ho⟩ := hrender
  have hhead : ∃ more, (",".intercalate ((f :: fs).map (·.render))).toList = c :: more := by
    cases fs with
    | nil => exact ⟨others, by simpa using ho⟩
    | cons f' fs =>
      refine ⟨others ++ (",".toList ++ (",".intercalate ((f' :: fs).map (·.render))).toList), ?_⟩
      rw [List.map_cons, List.map_cons, String.intercalate_cons_cons, String.toList_append,
        String.toList_append, ho]
      simp
  obtain ⟨more, hm⟩ := hhead
  intro d hd
  rw [hm] at hd
  obtain rfl : c = d := Option.some.inj hd
  exact hf.name_bare c (hc ▸ List.mem_cons_self)

/-- A readable stage is read as it is. -/
private theorem exists_stage_eq {stage : Stage} (h : stage.Readable) {rest : List Char}
    (hr : ∀ c ∈ rest.head?, c = ';') :
    ∃ text, Reader.stage (stage.render.toList ++ rest) = some (text, rest) ∧
      text.reading = stage.reading := by
  have hout : ∀ c ∈ ((String.join (stage.outputs.map (·.bracketed))).toList ++ rest).head?,
      c ∈ [';', '['] := by
    refine head_join stage.outputs (by decide) fun c hc ↦ ?_
    rw [hr c hc]
    decide
  obtain ⟨texts, hf, hm⟩ := exists_filters_eq h.filters_ne h.filters hout
  have hin := labels_eq stage.inputs fun c hc ↦ by
    obtain ⟨hw, hn⟩ := isBareChar_iff.mp (head_intercalate h.filters_ne h.filters
      ((String.join (stage.outputs.map (·.bracketed))).toList ++ rest) c hc)
    exact ⟨hw, fun he ↦ hn (by simp [he])⟩
  have hrest : ∀ c ∈ rest.head?, isSpace c = false ∧ c ≠ '[' := by
    intro c hc
    rw [hr c hc]
    decide
  refine ⟨⟨stage.inputs.map (·.text), texts, stage.outputs.map (·.text)⟩, ?_, ?_⟩
  · rw [Stage.render, String.toList_append, String.toList_append, List.append_assoc,
      List.append_assoc, Reader.stage, hin, Option.bind_some, hf]
    dsimp only
    rw [labels_eq stage.outputs hrest]
    rfl
  · rw [StageText.reading, Stage.reading, map_eq_of_matches hm]

/-- Readable stages are read as they are. -/
private theorem exists_stages_eq {ss : List Stage} (hn : ss ≠ []) (h : ∀ s ∈ ss, s.Readable) :
    ∃ texts, stages (";".intercalate (ss.map (·.render))).toList = some texts ∧
      texts.map (·.reading) = ss.map (·.reading) := by
  induction ss with
  | nil => exact absurd rfl hn
  | cons s ss ih =>
    obtain ⟨hs, hss⟩ := List.forall_mem_cons.mp h
    cases ss with
    | nil =>
      have hend : ∀ c ∈ ([] : List Char).head?, c = ';' := fun c hc ↦ nomatch hc
      obtain ⟨text, ht, ho⟩ := exists_stage_eq hs hend
      refine ⟨[text], ?_, by simp [ho]⟩
      rw [List.append_nil] at ht
      rw [List.map_cons, List.map_nil, String.intercalate_singleton]
      exact stages_of_end ht
    | cons s' ss =>
      obtain ⟨texts, hts, hos⟩ := ih (List.cons_ne_nil _ _) hss
      have hsemicolon : ∀ others, ∀ c ∈ (';' :: others).head?, c = ';' :=
        fun others c hc ↦ (Option.some.inj hc).symm
      obtain ⟨text, ht, ho⟩ := exists_stage_eq hs
        (hsemicolon (";".intercalate ((s' :: ss).map (·.render))).toList)
      refine ⟨text :: texts, ?_, ?_⟩
      · rw [List.map_cons, List.map_cons, String.intercalate_cons_cons, String.toList_append,
          String.toList_append, List.append_assoc]
        refine (stages_of_semicolon ht).trans ?_
        rw [hts]
        rfl
      · rw [List.map_cons, ho, hos]
        rfl

/-- The options of a readable stage have their own keys. -/
theorem Stage.Readable.outline_reading {stage : Stage} (h : stage.Readable) :
    stage.reading.outline = stage.outline := by
  have hkeys : ∀ f ∈ stage.filters, (f.name, (f.options.flatMap (·.found)).map (·.1)) =
      (f.name, f.options.map (·.key)) :=
    fun f hf ↦ congrArg _ (map_fst_flatMap_found (h.filters f hf).options)
  rw [reading, Reading.outline, List.map_map, outline, ← List.map_congr_left hkeys]
  rfl

/-- A program whose stages can be read back is read back from its text, with each option as it is
read alone. -/
theorem Program.readings_filterGraph {program : Program} (hn : program.stages ≠ [])
    (h : ∀ stage ∈ program.stages, stage.Readable) :
    readings program.filterGraph = some (program.stages.map (·.reading)) := by
  obtain ⟨texts, ht, hr⟩ := exists_stages_eq hn h
  rw [readings, filterGraph, ht, Option.map_some, hr]

/-- The structure of such a program is read back from its text. -/
theorem Program.outlines_filterGraph {program : Program} (hn : program.stages ≠ [])
    (h : ∀ stage ∈ program.stages, stage.Readable) :
    outlines program.filterGraph = some (program.stages.map (·.outline)) := by
  rw [outlines_eq, program.readings_filterGraph hn h, Option.map_some, List.map_map]
  exact congrArg some (List.map_congr_left fun stage hs ↦ (h stage hs).outline_reading)

end Montage.Graph
