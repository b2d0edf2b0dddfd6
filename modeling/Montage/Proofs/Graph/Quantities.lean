import Mathlib.Data.List.TakeWhile
import Montage.Proofs.Graph.Spelling

/-!
# Quantities in the text of a graph

The times of a gate and the divisors of an expression, as they are read off the text of an option.
They are the ones that the option was written with, so that the key of an option tells what its
vocabulary promises of the text.
-/

namespace Montage.Graph

open Montage.Numeric (Binary64 num)

namespace Reader

/-- A gate with this text for its beginning and this one for its end. -/
def gateOf (start stop : List Char) : List Char :=
  "'gte(t,".toList ++ (start ++ (")*lt(t,".toList ++ (stop ++ ")'".toList)))

/-- The texts between which a gate is open. -/
def gateTimes? (value : String) : Option (String × String) :=
  let start := (value.toList.drop 7).takeWhile (· != ')')
  let stop := ((value.toList.drop 7).drop (start.length + 7)).takeWhile (· != ')')
  if value.toList = gateOf start stop then some (String.ofList start, String.ofList stop) else none

/-- What stands behind each sign of division, as far as it is digits and points. -/
def divisors : List Char → List (List Char)
  | [] => []
  | c :: rest =>
    if c = '/' then rest.takeWhile isNumeralChar :: divisors rest else divisors rest

/-- What is taken from a text does not depend on what follows it if that is not taken. -/
theorem takeWhile_append_of_head {p : Char → Bool} {text rest : List Char}
    (h : ∀ c ∈ rest.head?, p c = false) : (text ++ rest).takeWhile p = text.takeWhile p := by
  have hrest : rest.takeWhile p = [] := by
    cases rest with
    | nil => rfl
    | cons c rest => rw [List.takeWhile_cons, h c rfl, if_neg Bool.false_ne_true]
  rw [List.takeWhile_append, hrest, List.append_nil]
  split
  · next hlength => exact ((List.takeWhile_prefix p).eq_of_length hlength).symm
  · rfl

/-! ### Gates -/

private theorem takeWhile_before_parenthesis {text rest : List Char} (h : ')' ∉ text)
    (hr : rest.head? = some ')') : (text ++ rest).takeWhile (· != ')') = text := by
  have hstop : ∀ c ∈ rest.head?, (c != ')') = false := by
    rw [hr]
    rintro c ⟨⟩
    rfl
  rw [takeWhile_append_of_head hstop, List.takeWhile_eq_self_iff]
  exact fun c hc ↦ bne_iff_ne.mpr (ne_of_mem_of_not_mem hc h)

private theorem times_between {front start middle stop back : List Char}
    (hf : front.length = 7) (hm : middle.length = 7) (hmiddle : middle.head? = some ')')
    (hback : back.head? = some ')') (hstart : ')' ∉ start) (hstop : ')' ∉ stop) :
    ((front ++ (start ++ (middle ++ (stop ++ back)))).drop 7).takeWhile (· != ')') = start ∧
      (((front ++ (start ++ (middle ++ (stop ++ back)))).drop 7).drop
        (start.length + 7)).takeWhile (· != ')') = stop := by
  have hhead : (middle ++ (stop ++ back)).head? = some ')' := by
    rw [List.head?_append, hmiddle, Option.some_or]
  rw [List.drop_left' hf]
  refine ⟨takeWhile_before_parenthesis hstart hhead, ?_⟩
  rw [← List.drop_drop, List.drop_left, List.drop_left' hm]
  exact takeWhile_before_parenthesis hstop hback

/-- A gate is read back if its times hold no parenthesis. -/
theorem gateTimes?_of_toList_eq {value start stop : String}
    (h : value.toList = gateOf start.toList stop.toList) (hstart : ')' ∉ start.toList)
    (hstop : ')' ∉ stop.toList) : gateTimes? value = some (start, stop) := by
  have hfront : "'gte(t,".toList.length = 7 := by decide
  have hmiddle : ")*lt(t,".toList.length = 7 ∧ ")*lt(t,".toList.head? = some ')' := by decide
  have hback : ")'".toList.head? = some ')' := by decide
  have htimes := times_between hfront hmiddle.1 hmiddle.2 hback hstart hstop
  have hvalue := h
  unfold gateOf at hvalue
  rw [← hvalue] at htimes
  unfold gateTimes?
  simp only [htimes.1, htimes.2]
  rw [if_pos h, String.ofList_toList, String.ofList_toList]

/-! ### Divisors -/

theorem divisors_append_of_notMem {front : List Char} (h : '/' ∉ front) (rest : List Char) :
    divisors (front ++ rest) = divisors rest := by
  induction front with
  | nil => rfl
  | cons c front ih =>
    obtain ⟨hc, hfront⟩ := not_or.mp (mt List.mem_cons.mpr h)
    rw [List.cons_append, divisors, if_neg (Ne.symm hc), ih hfront]

theorem divisors_eq_nil {text : List Char} (h : '/' ∉ text) : divisors text = [] := by
  have hdivisors := divisors_append_of_notMem h []
  rwa [List.append_nil] at hdivisors

end Reader

open Reader

/-- No numeral and no word holds a sign of division or a parenthesis. -/
theorem notMem_num {c : Char} (hc : c ∈ ['/', ')']) (x : Binary64) : c ∉ (num x).toList := by
  intro hm
  rcases num_cases x with h | h
  · have hchars : ∀ c ∈ ['/', ')'], ¬ (c = '-' ∨ c = '.' ∨ c.isDigit = true) := by simp
    exact hchars c hc (h.forall_mem c hm)
  · have hwords : ∀ c ∈ ['/', ')'], ∀ word ∈ ["NaN", "inf", "-inf"], c ∉ word.toList := by simp
    exact hwords c hc _ h hm

/-! ### Divisors of expressions -/

/-- The text divides by nothing else than what has the property, if something follows it that is
no part of a numeral. -/
def DividesBy (p : List Char → Prop) (text : String) : Prop :=
  ∀ rest : List Char, (∀ c ∈ rest.head?, isNumeralChar c = false) → (∀ d ∈ divisors rest, p d) →
    ∀ d ∈ divisors (text.toList ++ rest), p d

namespace DividesBy

variable {p : List Char → Prop} {a b sign : String} {c : Char}

theorem of_notMem (h : '/' ∉ a.toList) : DividesBy p a := by
  intro rest _ hrest
  rwa [divisors_append_of_notMem h]

/-- A sign that does not divide keeps the divisors of the texts around it apart. -/
theorem around (hs : sign.toList = [c]) (hc : isNumeralChar c = false ∧ c ≠ '/')
    (ha : DividesBy p a) (hb : DividesBy p b) : DividesBy p (a ++ sign ++ b) := by
  intro rest hr hrest
  rw [String.toList_append, String.toList_append, hs, List.append_assoc, List.append_assoc,
    List.singleton_append]
  refine ha _ (by rintro d ⟨⟩; exact hc.1) ?_
  rw [divisors, if_neg hc.2]
  exact hb rest hr hrest

theorem before (hs : sign.toList = [c]) (hc : isNumeralChar c = false ∧ c ≠ '/')
    (ha : DividesBy p a) : DividesBy p (a ++ sign) := by
  have h := ha.around hs hc (of_notMem (a := "") List.not_mem_nil)
  rwa [String.append_empty] at h

theorem behind (hs : sign.toList = [c]) (hc : isNumeralChar c = false ∧ c ≠ '/')
    (hb : DividesBy p b) : DividesBy p (sign ++ b) := by
  have h := (of_notMem (a := "") List.not_mem_nil).around hs hc hb
  rwa [String.empty_append] at h

/-- A quotient divides by what stands behind its sign. -/
theorem quotient (ha : DividesBy p a) (hb : DividesBy p b)
    (h : p (b.toList.takeWhile isNumeralChar)) : DividesBy p (a ++ "/" ++ b) := by
  intro rest hr hrest
  have hsign : "/".toList = ['/'] := rfl
  rw [String.toList_append, String.toList_append, hsign, List.append_assoc, List.append_assoc,
    List.singleton_append]
  refine ha _ (by rintro d ⟨⟩; rfl) ?_
  rw [divisors, if_pos rfl, takeWhile_append_of_head hr]
  exact List.forall_mem_cons.mpr ⟨h, hb rest hr hrest⟩

/-- The text of an expression divides by its divisors. -/
theorem render {e : Expression} (hn : ∀ n ∈ e.names, '/' ∉ n.toList)
    (hd : ∀ d ∈ e.divisors, p (d.render.toList.takeWhile isNumeralChar)) :
    DividesBy p e.render := by
  induction e with
  | name text => exact of_notMem (hn text List.mem_cons_self)
  | decimal value => exact of_notMem (notMem_num (by decide) value)
  | whole value => exact of_notMem (isWord_toString_int value).2.2
  | neg a ih => exact (ih hn hd).behind (c := '-') rfl (by decide)
  | add a b iha ihb | sub a b iha ihb | mul a b iha ihb =>
    obtain ⟨hna, hnb⟩ := List.forall_mem_append.mp hn
    obtain ⟨hda, hdb⟩ := List.forall_mem_append.mp hd
    exact (iha hna hda).around rfl (by decide) (ihb hnb hdb)
  | div a b iha ihb =>
    obtain ⟨hna, hnb⟩ := List.forall_mem_append.mp hn
    obtain ⟨hdivisor, hdab⟩ := List.forall_mem_cons.mp hd
    obtain ⟨hda, hdb⟩ := List.forall_mem_append.mp hdab
    exact (iha hna hda).quotient (ihb hnb hdb) hdivisor
  | group a ih =>
    exact ((ih hn hd).behind (c := '(') rfl (by decide)).before (c := ')') rfl (by decide)
  | call1 f a ih =>
    obtain ⟨hf, hna⟩ := List.forall_mem_cons.mp hn
    exact ((of_notMem hf).around (c := '(') rfl (by decide) (ih hna hd)).before (c := ')') rfl
      (by decide)
  | call2 f a b iha ihb =>
    obtain ⟨hf, hnab⟩ := List.forall_mem_cons.mp hn
    obtain ⟨hna, hnb⟩ := List.forall_mem_append.mp hnab
    obtain ⟨hda, hdb⟩ := List.forall_mem_append.mp hd
    exact (((of_notMem hf).around (c := '(') rfl (by decide) (iha hna hda)).around (c := ',') rfl
      (by decide) (ihb hnb hdb)).before (c := ')') rfl (by decide)
  | call3 f a b d iha ihb ihc =>
    obtain ⟨hf, hnabc⟩ := List.forall_mem_cons.mp hn
    obtain ⟨hnab, hnc⟩ := List.forall_mem_append.mp hnabc
    obtain ⟨hna, hnb⟩ := List.forall_mem_append.mp hnab
    obtain ⟨hdab, hdc⟩ := List.forall_mem_append.mp hd
    obtain ⟨hda, hdb⟩ := List.forall_mem_append.mp hdab
    exact ((((of_notMem hf).around (c := '(') rfl (by decide) (iha hna hda)).around (c := ',') rfl
      (by decide) (ihb hnb hdb)).around (c := ',') rfl (by decide) (ihc hnc hdc)).before (c := ')')
      rfl (by decide)

/-- What a text divides by. -/
theorem forall_divisors (h : DividesBy p a) : ∀ d ∈ divisors a.toList, p d := by
  have hall := h [] (by rintro c ⟨⟩) (List.forall_mem_nil _)
  rwa [List.append_nil] at hall

/-- Quotes do not change what a text divides by. -/
theorem within_quotes (h : DividesBy p a) : DividesBy p ("'" ++ a ++ "'") :=
  (h.behind (c := '\'') rfl (by decide)).before (c := '\'') rfl (by decide)

end DividesBy

/-! ### What the key of an option tells -/

variable {v : Vocabulary} {o : FilterOption}

/-- The text that a divisor is read as. -/
theorem Vocabulary.Divides.takeWhile_render {e : Expression} (h : v.Divides e)
    (hv : ∀ x, v.divisor x → IsUnsigned (num x)) :
    e.render.toList.takeWhile isNumeralChar = e.render.toList := by
  rw [List.takeWhile_eq_self_iff]
  cases e with
  | decimal x => exact hv x h
  | whole n =>
    obtain ⟨m, rfl⟩ := Int.eq_ofNat_of_zero_le (Int.le_of_lt h)
    exact unsigned_toString m
  | _ => cases h

/-- Every divisor in an option that does not hold text is one of the vocabulary. -/
theorem FilterOption.SpelledIn.divisors (h : o.SpelledIn v)
    (hv : ∀ x, v.divisor x → IsUnsigned (num x)) (hk : ∀ key ∈ o.key, key ∉ textKeys) :
    ∀ d ∈ divisors o.value.toList, ∃ e, v.Divides e ∧ d = e.render.toList := by
  have hword : ∀ {value : String}, '/' ∉ value.toList → ∀ d ∈ Reader.divisors value.toList,
      ∃ e, v.Divides e ∧ d = e.render.toList := by
    intro value hvalue
    rw [divisors_eq_nil hvalue]
    exact List.forall_mem_nil _
  have hexpression : ∀ {e : Expression}, e.SpelledIn v →
      DividesBy (fun d ↦ ∃ e, v.Divides e ∧ d = e.render.toList) e.render := by
    intro e he
    have hnames : ∀ n ∈ Expression.engineNames, '/' ∉ n.toList := by decide
    exact .render (fun n hn ↦ hnames n (he.names n hn)) fun d hd ↦
      ⟨d, he.divisors d hd, (he.divisors d hd).takeWhile_render hv⟩
  cases h with
  | word _ hw => exact hword hw.2.2
  | atom _ hw => exact hword hw.2.2
  | number => exact hword (notMem_num (by decide) _)
  | amount => exact hword (notMem_num (by decide) _)
  | length => exact hword (notMem_num (by decide) _)
  | size => exact hword (isWord_toString_int _).2.2
  | frameWidth => exact hword (by decide)
  | @gate window =>
    rw [value_enable]
    have hnames : ∀ n ∈ window.gate.names, '/' ∉ n.toList := by
      show ∀ n ∈ ["gte", "t", "lt", "t"], '/' ∉ n.toList
      decide
    exact (DividesBy.render hnames (List.forall_mem_nil _)).within_quotes.forall_divisors
  | @expression key e _ he =>
    have hvalue : quoted e.render = "'" ++ e.render ++ "'" := he.harmless.quoted_eq
    rw [opt, hvalue]
    exact (hexpression he).within_quotes.forall_divisors
  | arithmetic _ _ he => exact (hexpression he).forall_divisors
  | placement _ _ he => exact (hexpression he).forall_divisors
  | text hkey => exact absurd hkey (hk _ rfl)

/-- The times of a gate are those of its window. -/
theorem gateTimes?_enable (window : TimeWindow) :
    gateTimes? (Decoration.enable window).value = some (num window.start, num window.stop) := by
  have hvalue : (Decoration.enable window).value.toList =
      gateOf (num window.start).toList (num window.stop).toList := by
    have hfront : "'gte(t,".toList = "'".toList ++ "gte(t,".toList := by decide
    have hback : ")'".toList = ")".toList ++ "'".toList := by decide
    unfold gateOf
    rw [value_enable, render_gate, hfront, hback]
    simp only [String.toList_append, List.append_assoc]
  exact gateTimes?_of_toList_eq hvalue (notMem_num (by decide) _) (notMem_num (by decide) _)

/-- A key that tells something about the value tells of a length, a size, a gate or a text. -/
private theorem kind_of_key (h : o.SpelledIn v) {key : String} (hk : o.key = some key)
    (hkey : key ∈ textKeys ++ lengthKeys ++ sizeKeys ++ ["enable"]) :
    key ∈ textKeys ∨ (key ∈ lengthKeys ∧ ∃ x, v.length x ∧ o.value = num x) ∨
      (key ∈ sizeKeys ∧ (key = "w" ∧ o.value = "iw" ∨ ∃ n, v.size n ∧ o.value = toString n)) ∨
      (key = "enable" ∧ ∃ window, v.gate window ∧ o = Decoration.enable window) := by
  cases h with
  | word hfree | number hfree | expression hfree | arithmetic hfree =>
    obtain rfl := Option.some.inj hk
    exact absurd hkey hfree.2
  | atom | amount | placement => cases hk
  | text ht =>
    obtain rfl := Option.some.inj hk
    exact .inl ht
  | length hl _ hx =>
    obtain rfl := Option.some.inj hk
    exact .inr (.inl ⟨hl, _, hx, rfl⟩)
  | size hs hn =>
    obtain rfl := Option.some.inj hk
    exact .inr (.inr (.inl ⟨hs, .inr ⟨_, hn, rfl⟩⟩))
  | frameWidth =>
    obtain rfl := Option.some.inj hk
    exact .inr (.inr (.inl ⟨by decide, .inl ⟨rfl, rfl⟩⟩))
  | gate _ _ hw =>
    obtain rfl := Option.some.inj hk
    exact .inr (.inr (.inr ⟨rfl, _, hw, rfl⟩))

/-- Behind the key of a length stands a length of the vocabulary. -/
theorem FilterOption.SpelledIn.length_of_key (h : o.SpelledIn v) {key : String}
    (hk : o.key = some key) (hkey : key ∈ lengthKeys) : ∃ x, v.length x ∧ o.value = num x := by
  have hapart : ∀ key ∈ lengthKeys, key ∉ textKeys ∧ key ∉ sizeKeys ∧ key ≠ "enable" := by decide
  obtain ⟨htext, hsize, henable⟩ := hapart key hkey
  rcases kind_of_key h hk (by simp [hkey]) with ht | ⟨-, hlength⟩ | ⟨hs, -⟩ | ⟨he, -⟩
  · exact absurd ht htext
  · exact hlength
  · exact absurd hs hsize
  · exact absurd he henable

/-- Behind the key of a size stands a size of the vocabulary. A box may be as wide as the frame. -/
theorem FilterOption.SpelledIn.size_of_key (h : o.SpelledIn v) {key : String}
    (hk : o.key = some key) (hkey : key ∈ sizeKeys) :
    key = "w" ∧ o.value = "iw" ∨ ∃ n, v.size n ∧ o.value = toString n := by
  have hapart : ∀ key ∈ sizeKeys, key ∉ textKeys ∧ key ∉ lengthKeys ∧ key ≠ "enable" := by decide
  obtain ⟨htext, hlength, henable⟩ := hapart key hkey
  rcases kind_of_key h hk (by simp [hkey]) with ht | ⟨hl, -⟩ | ⟨-, hsize⟩ | ⟨he, -⟩
  · exact absurd ht htext
  · exact absurd hl hlength
  · exact hsize
  · exact absurd he henable

/-- Behind the key of a gate stands the gate of a window of the vocabulary. -/
theorem FilterOption.SpelledIn.gate_of_key (h : o.SpelledIn v) (hk : o.key = some "enable") :
    ∃ window, v.gate window ∧ o = Decoration.enable window := by
  have hapart : "enable" ∉ textKeys ∧ "enable" ∉ lengthKeys ∧ "enable" ∉ sizeKeys := by decide
  obtain ⟨htext, hlength, hsize⟩ := hapart
  rcases kind_of_key h hk (by simp) with ht | ⟨hl, -⟩ | ⟨hs, -⟩ | ⟨-, hgate⟩
  · exact absurd ht htext
  · exact absurd hl hlength
  · exact absurd hs hsize
  · exact hgate

end Montage.Graph
