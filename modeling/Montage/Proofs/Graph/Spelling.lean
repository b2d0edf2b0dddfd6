import Montage.Decoration.Basic
import Montage.Proofs.Graph.Protection

/-!
# Spelling

What the options of a graph are written with. An option is a word, a whole number, a color, a
decimal number, an expression or the gate of a window, or it is text of a user between quotes. A
vocabulary tells which numbers, lengths, divisors, windows and sizes may occur. An option that is
spelled in some vocabulary is read back as it is, and what it holds is told by its key.
-/

namespace Montage.Graph

open Montage.Numeric (Binary64 num)
open Reader

/-! ### Words for what is not finite -/

/-- The text holds neither the word for infinity nor that for not-a-number. -/
def Definite (text : String) : Prop :=
  ∀ word ∈ ["inf", "NaN"], ¬ word.toList <:+: text.toList

instance (text : String) : Decidable (Definite text) :=
  inferInstanceAs (Decidable (∀ word ∈ ["inf", "NaN"], ¬ word.toList <:+: text.toList))

/-- A character that neither word holds. -/
def isApart (c : Char) : Bool := !("infNa".toList.contains c)

private theorem infix_of_infix_append {α : Type} {word front rest : List α} {c : α}
    (hc : c ∉ word) (h : word <:+: front ++ c :: rest) : word <:+: front ∨ word <:+: rest := by
  obtain ⟨before, after, h⟩ := h
  rw [List.append_assoc] at h
  rcases List.append_eq_append_iff.mp h with ⟨gap, hfront, hword⟩ | ⟨gap, hbefore, hrest⟩
  · rcases List.append_eq_append_iff.mp hword with ⟨more, hgap, -⟩ | ⟨more, hmore, hcons⟩
    · exact .inl ⟨before, more, by rw [hfront, hgap, List.append_assoc]⟩
    · cases more with
      | nil => exact .inl ⟨before, [], by rw [hfront, hmore, List.append_nil, List.append_nil]⟩
      | cons d more =>
        obtain ⟨rfl, -⟩ := List.cons.inj hcons
        exact absurd (hmore ▸ List.mem_append_right _ List.mem_cons_self) hc
  · cases gap with
    | nil =>
      cases word with
      | nil => exact .inl List.nil_infix
      | cons d word =>
        obtain ⟨rfl, -⟩ := List.cons.inj hrest
        exact absurd List.mem_cons_self hc
    | cons d gap =>
      have htail : rest = gap ++ (word ++ after) := (List.cons.inj hrest).2
      exact .inr ⟨gap, after, by rw [htail, List.append_assoc]⟩

private theorem notMem_of_isApart {c : Char} (h : isApart c = true) :
    ∀ word ∈ ["inf", "NaN"], c ∉ word.toList := by
  intro word hw hc
  have hletters : ∀ d ∈ word.toList, isApart d = false := by
    simp only [List.mem_cons, List.not_mem_nil, or_false] at hw
    rcases hw with rfl | rfl <;> simp [isApart]
  exact Bool.noConfusion (h.symm.trans (hletters c hc))

/-- A character that neither word holds keeps the texts around it apart. -/
theorem Definite.around {a b sign : String} {c : Char} (hs : sign.toList = [c])
    (hc : isApart c = true) (ha : Definite a) (hb : Definite b) : Definite (a ++ sign ++ b) := by
  intro word hw h
  rw [String.toList_append, String.toList_append, hs, List.append_assoc, List.singleton_append] at h
  rcases infix_of_infix_append (notMem_of_isApart hc word hw) h with h | h
  · exact ha word hw h
  · exact hb word hw h

private theorem definite_empty : Definite "" := by
  decide

theorem Definite.before {a sign : String} {c : Char} (hs : sign.toList = [c])
    (hc : isApart c = true) (ha : Definite a) : Definite (a ++ sign) := by
  have h := ha.around hs hc definite_empty
  rwa [String.append_empty] at h

theorem Definite.behind {b sign : String} {c : Char} (hs : sign.toList = [c])
    (hc : isApart c = true) (hb : Definite b) : Definite (sign ++ b) := by
  have h := definite_empty.around hs hc hb
  rwa [String.empty_append] at h

/-- Without the letters of the words there is no word. -/
theorem definite_of_forall {text : String} (h : ∀ c ∈ text.toList, c ∉ ['n', 'N']) :
    Definite text := by
  intro word hw hm
  obtain ⟨c, hc, hn⟩ : ∃ c ∈ word.toList, c ∈ ['n', 'N'] := by
    simp only [List.mem_cons, List.not_mem_nil, or_false] at hw
    rcases hw with rfl | rfl
    · exact ⟨'n', by decide, by decide⟩
    · exact ⟨'N', by decide, by decide⟩
  exact h c (hm.subset hc) hn

theorem IsNumeral.definite {text : String} (h : IsNumeral text) : Definite text := by
  refine definite_of_forall fun c hc hn ↦ ?_
  simp only [List.mem_cons, List.not_mem_nil, or_false] at hn
  rcases h.forall_mem c hc with rfl | rfl | hdigit
  · exact absurd hn (by decide)
  · exact absurd hn (by decide)
  · rcases hn with rfl | rfl <;> exact absurd hdigit (by decide)

/-! ### Vocabularies -/

/-- What may occur in the options of a graph: which numbers are written, which of them as lengths
and as divisors, which windows have gates, and which sizes letters and boxes have. -/
structure Vocabulary where
  number : Binary64 → Prop
  length : Binary64 → Prop
  divisor : Binary64 → Prop
  gate : TimeWindow → Prop
  size : Int → Prop

/-- The vocabulary of all numbers, lengths and windows, and of the sizes with a property. -/
def Vocabulary.ofSizes (P : Int → Prop) : Vocabulary where
  number _ := True
  length _ := True
  divisor _ := True
  gate _ := True
  size := P

namespace Expression

/-- The decimal numbers of an expression. -/
def decimals : Expression → List Binary64
  | .name _ | .whole _ => []
  | .decimal value => [value]
  | .neg a | .group a | .call1 _ a => a.decimals
  | .add a b | .sub a b | .mul a b | .div a b | .call2 _ a b => a.decimals ++ b.decimals
  | .call3 _ a b c => a.decimals ++ b.decimals ++ c.decimals

/-- What an expression divides by. -/
def divisors : Expression → List Expression
  | .name _ | .decimal _ | .whole _ => []
  | .neg a | .group a | .call1 _ a => a.divisors
  | .add a b | .sub a b | .mul a b | .call2 _ a b => a.divisors ++ b.divisors
  | .div a b => b :: (a.divisors ++ b.divisors)
  | .call3 _ a b c => a.divisors ++ b.divisors ++ c.divisors

/-- The quantities and functions of the engine that expressions of a graph use. -/
def engineNames : List String :=
  ["t", "w", "W", "iw", "ih", "ow", "oh", "text_w", "text_h", "PI", "if", "gte", "gt", "lt", "min"]

end Expression

/-- A divisor is a decimal number that may be one, or a positive whole number. -/
def Vocabulary.Divides (v : Vocabulary) : Expression → Prop
  | .decimal x => v.divisor x
  | .whole n => 0 < n
  | _ => False

/-- The expression uses what the engine knows and what is in the vocabulary. -/
structure Expression.SpelledIn (v : Vocabulary) (e : Expression) : Prop where
  names : ∀ n ∈ e.names, n ∈ engineNames
  decimals : ∀ x ∈ e.decimals, v.number x
  divisors : ∀ d ∈ e.divisors, v.Divides d

/-- The keys of the options that hold text of a user or name a font. -/
def textKeys : List String := ["text", "font", "fontfile"]

/-- The keys of the options that hold lengths of time. -/
def lengthKeys : List String := ["duration", "d"]

/-- The keys of the options that hold sizes of letters and boxes. -/
def sizeKeys : List String := ["fontsize", "w", "h"]

/-- A key that tells nothing about the value. -/
def IsFree (key : String) : Prop :=
  IsKey key ∧ key ∉ textKeys ++ lengthKeys ++ sizeKeys ++ ["enable"]

instance (key : String) : Decidable (IsFree key) :=
  inferInstanceAs (Decidable (IsKey key ∧ key ∉ textKeys ++ lengthKeys ++ sizeKeys ++ ["enable"]))

/-- A value that is neither text nor an expression and means something finite. -/
def IsWord (value : String) : Prop := Bare value ∧ Definite value ∧ '/' ∉ value.toList

instance (value : String) : Decidable (IsWord value) :=
  inferInstanceAs (Decidable (Bare value ∧ Definite value ∧ '/' ∉ value.toList))

/-- How an option is written. -/
inductive FilterOption.SpelledIn (v : Vocabulary) : FilterOption → Prop
  | word {key value : String} : IsFree key → IsWord value → SpelledIn v (opt key value)
  | atom {value : String} : value ≠ "" → IsWord value → SpelledIn v (pos value)
  | number {key : String} {x : Binary64} : IsFree key → v.number x → SpelledIn v (opt key (num x))
  | amount {x : Binary64} : v.number x → SpelledIn v (pos (num x))
  | length {key : String} {x : Binary64} :
      key ∈ lengthKeys → v.number x → v.length x → SpelledIn v (opt key (num x))
  | size {key : String} {n : Int} : key ∈ sizeKeys → v.size n → SpelledIn v (opt key (toString n))
  | frameWidth : SpelledIn v (opt "w" "iw")
  | gate {window : TimeWindow} :
      v.number window.start → v.number window.stop → v.gate window →
      SpelledIn v (Decoration.enable window)
  | expression {key : String} {e : Expression} :
      IsFree key → e.SpelledIn v → SpelledIn v (opt key (quoted e.render))
  | arithmetic {key : String} {e : Expression} :
      IsFree key → e.isArithmetic = true → e.SpelledIn v → SpelledIn v (opt key e.render)
  | placement {e : Expression} :
      e.render ≠ "" → e.isArithmetic = true → e.SpelledIn v → SpelledIn v (pos e.render)
  | text {key value : String} :
      key ∈ textKeys → Protected value.toList → SpelledIn v (opt key (quoted value))

/-- The options of the filters of a stage, in order. -/
def Stage.options (stage : Stage) : List FilterOption := stage.filters.flatMap (·.options)

/-- The options of all stages, in order. -/
def Program.options (program : Program) : List FilterOption :=
  program.stages.flatMap (·.options)

/-- The options of a filter with a proper name are spelled in the vocabulary. -/
structure Filter.SpelledIn (v : Vocabulary) (filter : Filter) : Prop where
  name : filter.name ≠ "" ∧ Bare filter.name
  options : ∀ o ∈ filter.options, o.SpelledIn v

structure Stage.SpelledIn (v : Vocabulary) (stage : Stage) : Prop where
  filters_ne : stage.filters ≠ []
  filters : ∀ f ∈ stage.filters, f.SpelledIn v

/-! ### Reading back -/

section Readable

variable {v : Vocabulary}

theorem IsWord.of_numeral {value : String} (h : IsNumeral value) : IsWord value := by
  refine ⟨h.bare, h.definite, fun hm ↦ ?_⟩
  exact absurd (h.forall_mem '/' hm) (by decide)

/-- A character that means nothing keeps two words apart. -/
theorem IsWord.around {a b sign : String} {c : Char} (ha : IsWord a) (hs : sign.toList = [c])
    (hc : isApart c = true) (hw : IsWord sign) (hb : IsWord b) : IsWord (a ++ sign ++ b) := by
  refine ⟨(ha.1.append hw.1).append hb.1, ha.2.1.around hs hc hb.2.1, ?_⟩
  rw [String.toList_append, String.toList_append, List.mem_append, List.mem_append]
  rintro ((hm | hm) | hm)
  · exact ha.2.2 hm
  · exact hw.2.2 hm
  · exact hb.2.2 hm

/-- The text of a size is a word. -/
theorem isWord_size {a b : String} (ha : IsWord a) (hb : IsWord b) : IsWord (a ++ "x" ++ b) :=
  ha.around (c := 'x') rfl (by decide) (by decide +kernel) hb

theorem isWord_toString_nat (n : Nat) : IsWord (toString n) :=
  .of_numeral (unsigned_toString n).isNumeral

theorem isWord_toString_int (n : Int) : IsWord (toString n) := .of_numeral (numeral_toString_int n)

private theorem harmless_of_engineNames {e : Expression}
    (hn : ∀ n ∈ e.names, n ∈ Expression.engineNames) : Harmless e.render := by
  have hall : ∀ n ∈ Expression.engineNames, Harmless n := by decide
  exact harmless_render fun n hm ↦ hall n (hn n hm)

theorem Expression.SpelledIn.harmless {e : Expression} (h : e.SpelledIn v) : Harmless e.render :=
  harmless_of_engineNames h.names

theorem Expression.SpelledIn.bare {e : Expression} (h : e.SpelledIn v)
    (ha : e.isArithmetic = true) : Bare e.render := by
  have hall : ∀ n ∈ engineNames, Bare n := by decide
  exact bare_render ha fun n hn ↦ hall n (h.names n hn)

private theorem isKey_of_mem {key : String} (h : key ∈ textKeys ++ lengthKeys ++ sizeKeys) :
    IsKey key := by
  have hall : ∀ key ∈ textKeys ++ lengthKeys ++ sizeKeys, IsKey key := by decide
  exact hall key h

/-- The text of a gate. -/
theorem render_gate (window : TimeWindow) :
    window.gate.render =
      "gte(t," ++ num window.start ++ ")*lt(t," ++ num window.stop ++ ")" := by
  have hparts : window.gate.render = "gte(" ++ "t" ++ "," ++ num window.start ++ ")" ++ "*" ++
      ("lt(" ++ "t" ++ "," ++ num window.stop ++ ")") := rfl
  rw [hparts, ← String.toList_inj]
  simp

private theorem names_gate (window : TimeWindow) :
    ∀ n ∈ window.gate.names, n ∈ Expression.engineNames := by
  show ∀ n ∈ ["gte", "t", "lt", "t"], n ∈ Expression.engineNames
  decide

/-- A gate stands between quotes as it is. -/
theorem value_enable (window : TimeWindow) :
    (Decoration.enable window).value = "'" ++ window.gate.render ++ "'" :=
  (harmless_of_engineNames (names_gate window)).quoted_eq

/-- What is spelled is read back. -/
theorem FilterOption.SpelledIn.readable {o : FilterOption} (h : o.SpelledIn v) : o.Readable := by
  cases h with
  | word hk hv => exact readable_opt hk.1 hv.1
  | atom hn hv => exact readable_pos ⟨hn, hv.1⟩
  | number hk => exact readable_opt hk.1 (bare_num _)
  | amount => exact readable_num _
  | length hk => exact readable_opt (isKey_of_mem (by simp [hk])) (bare_num _)
  | size hk => exact readable_opt (isKey_of_mem (by simp [hk])) (bare_toString_int _)
  | frameWidth => exact readable_opt (by decide) (by decide)
  | @gate window =>
    exact readable_quoted (by decide) (harmless_of_engineNames (names_gate window)).guarded
  | expression hk he => exact readable_quoted hk.1 he.harmless.guarded
  | arithmetic hk ha he => exact readable_opt hk.1 (he.bare ha)
  | placement hn ha he => exact readable_pos ⟨hn, he.bare ha⟩
  | text hk hv => exact readable_quoted (isKey_of_mem (by simp [hk])) hv

/-! ### What is definite -/

/-- An expression is definite if its names are and its numbers are finite. -/
theorem definite_render {e : Expression} (hn : ∀ n ∈ e.names, Definite n)
    (hd : ∀ x ∈ e.decimals, x.isFinite = true) : Definite e.render := by
  induction e with
  | name text => exact hn text List.mem_cons_self
  | decimal value => exact (numeral_num (hd value List.mem_cons_self)).definite
  | whole value => exact (numeral_toString_int value).definite
  | neg a ih => exact (ih hn hd).behind (c := '-') rfl (by decide)
  | add a b iha ihb | sub a b iha ihb | mul a b iha ihb | div a b iha ihb =>
    obtain ⟨hna, hnb⟩ := List.forall_mem_append.mp hn
    obtain ⟨hda, hdb⟩ := List.forall_mem_append.mp hd
    exact (iha hna hda).around rfl (by decide) (ihb hnb hdb)
  | group a ih =>
    exact ((ih hn hd).behind (c := '(') rfl (by decide)).before (c := ')') rfl (by decide)
  | call1 f a ih =>
    obtain ⟨hf, hna⟩ := List.forall_mem_cons.mp hn
    exact (hf.around (c := '(') rfl (by decide) (ih hna hd)).before (c := ')') rfl (by decide)
  | call2 f a b iha ihb =>
    obtain ⟨hf, hnab⟩ := List.forall_mem_cons.mp hn
    obtain ⟨hna, hnb⟩ := List.forall_mem_append.mp hnab
    obtain ⟨hda, hdb⟩ := List.forall_mem_append.mp hd
    exact ((hf.around (c := '(') rfl (by decide) (iha hna hda)).around (c := ',') rfl (by decide)
      (ihb hnb hdb)).before (c := ')') rfl (by decide)
  | call3 f a b d iha ihb ihc =>
    obtain ⟨hf, hnabc⟩ := List.forall_mem_cons.mp hn
    obtain ⟨hnab, hnc⟩ := List.forall_mem_append.mp hnabc
    obtain ⟨hna, hnb⟩ := List.forall_mem_append.mp hnab
    obtain ⟨hdab, hdc⟩ := List.forall_mem_append.mp hd
    obtain ⟨hda, hdb⟩ := List.forall_mem_append.mp hdab
    exact (((hf.around (c := '(') rfl (by decide) (iha hna hda)).around (c := ',') rfl (by decide)
      (ihb hnb hdb)).around (c := ',') rfl (by decide) (ihc hnc hdc)).before (c := ')') rfl
      (by decide)

private theorem definite_of_engineNames {e : Expression}
    (hn : ∀ n ∈ e.names, n ∈ Expression.engineNames) (hd : ∀ x ∈ e.decimals, x.isFinite = true) :
    Definite e.render := by
  have hnames : ∀ n ∈ Expression.engineNames, Definite n := by decide +kernel
  exact definite_render (fun n hm ↦ hnames n (hn n hm)) hd

/-- Between quotes an expression is as definite as it is without them. -/
private theorem definite_quoted {e : Expression} (hn : ∀ n ∈ e.names, n ∈ Expression.engineNames)
    (hd : ∀ x ∈ e.decimals, x.isFinite = true) : Definite (quoted e.render) := by
  rw [(harmless_of_engineNames hn).quoted_eq]
  exact ((definite_of_engineNames hn hd).behind (c := '\'') rfl (by decide)).before (c := '\'') rfl
    (by decide)

/-- When only finite numbers are written, every option is definite that does not hold text. -/
theorem FilterOption.SpelledIn.definite (hv : ∀ x, v.number x → x.isFinite = true)
    {o : FilterOption} (h : o.SpelledIn v) (hk : ∀ key ∈ o.key, key ∉ textKeys) :
    Definite o.value := by
  cases h with
  | word _ hw => exact hw.2.1
  | atom _ hw => exact hw.2.1
  | number _ hx => exact (numeral_num (hv _ hx)).definite
  | amount hx => exact (numeral_num (hv _ hx)).definite
  | length _ hx => exact (numeral_num (hv _ hx)).definite
  | size => exact (numeral_toString_int _).definite
  | frameWidth => decide
  | @gate window hstart hstop =>
    exact definite_quoted (names_gate window) (List.forall_mem_cons.mpr
      ⟨hv _ hstart, List.forall_mem_singleton.mpr (hv _ hstop)⟩)
  | expression _ he => exact definite_quoted he.names fun x hx ↦ hv x (he.decimals x hx)
  | arithmetic _ _ he => exact definite_of_engineNames he.names fun x hx ↦ hv x (he.decimals x hx)
  | placement _ _ he => exact definite_of_engineNames he.names fun x hx ↦ hv x (he.decimals x hx)
  | text hkey => exact absurd hkey (hk _ rfl)

/-! ### Filters and stages -/

theorem spelled_nil : ∀ o ∈ ([] : List FilterOption), o.SpelledIn v :=
  List.forall_mem_nil _

theorem spelled_cons {o : FilterOption} {os : List FilterOption} (h : o.SpelledIn v)
    (hs : ∀ o ∈ os, o.SpelledIn v) : ∀ o' ∈ o :: os, o'.SpelledIn v :=
  List.forall_mem_cons.mpr ⟨h, hs⟩

theorem spelled_filter {name : String} {options : List FilterOption}
    (hn : name ≠ "" ∧ Bare name) (ho : ∀ o ∈ options, o.SpelledIn v) :
    (Filter.mk name options).SpelledIn v :=
  ⟨hn, ho⟩

theorem spelled_chain {input output : Label} {filters : List Filter} (hn : filters ≠ [])
    (h : ∀ f ∈ filters, f.SpelledIn v) : (Stage.chain input filters output).SpelledIn v :=
  ⟨hn, h⟩

theorem spelled_single {inputs outputs : List Label} {filter : Filter}
    (h : filter.SpelledIn v) : (Stage.mk inputs [filter] outputs).SpelledIn v :=
  ⟨List.cons_ne_nil _ _, List.forall_mem_singleton.mpr h⟩

/-- A generated frame of this color, size and length. -/
theorem spelled_colorSource {color size : String} (hc : IsWord color) (hs : IsWord size)
    {duration : Binary64} (hn : v.number duration) (hl : v.length duration) :
    (Filter.mk "color"
      [opt "c" color, opt "s" size, opt "r" "30", opt "d" (num duration)]).SpelledIn v :=
  spelled_filter (by decide) <| spelled_cons (.word (by decide) hc) <|
    spelled_cons (.word (by decide) hs) <|
    spelled_cons (.word (by decide) (by decide +kernel)) <|
    spelled_cons (.length (by decide) hn hl) spelled_nil

theorem Stage.SpelledIn.options {stage : Stage} (h : stage.SpelledIn v) :
    ∀ o ∈ stage.options, o.SpelledIn v :=
  List.forall_mem_flatMap.mpr fun f hf ↦ (h.filters f hf).options

theorem Stage.SpelledIn.readable {stage : Stage} (h : stage.SpelledIn v) : stage.Readable where
  filters_ne := h.filters_ne
  filters f hf :=
    ⟨(h.filters f hf).name.1, (h.filters f hf).name.2,
      fun o ho ↦ ((h.filters f hf).options o ho).readable⟩

end Readable

end Montage.Graph
