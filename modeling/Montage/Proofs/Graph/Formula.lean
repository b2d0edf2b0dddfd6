import Mathlib.Data.EReal.Inv
import Montage.Proofs.Graph.Protection
import Montage.Proofs.Numeric.Instants

/-!
# Expressions as they are evaluated

How the engine reads the text of an expression and what it makes of it at an instant. Signs, commas
and parentheses separate words; factors are signed words, groups and calls; products bind tighter
than sums, and both are taken from the left. A well-grouped expression is read back as it was built.
-/

namespace Montage.Graph

open Montage.Numeric (Binary64 instant? num)

/-- An expression as the engine understands it. Groups are only a way of writing. -/
inductive Formula where
  | word (text : String)
  | negative (a : Formula)
  | sum (a b : Formula)
  | difference (a b : Formula)
  | product (a b : Formula)
  | quotient (a b : Formula)
  | call1 (function : String) (a : Formula)
  | call2 (function : String) (a b : Formula)
  | call3 (function : String) (a b c : Formula)
deriving DecidableEq

namespace Formula

/-! ### Words and signs -/

/-- What an expression is written with. An opening parenthesis comes with the word in front of it,
the name of a function, or with no word if it opens a group. -/
inductive Token where
  | word (text : String)
  | opening (function : String)
  | closing
  | comma
  | plus
  | minus
  | times
  | divide
deriving DecidableEq

/-- The signs that end a word. -/
def sign? : Char → Option Token
  | ')' => some .closing
  | ',' => some .comma
  | '+' => some .plus
  | '-' => some .minus
  | '*' => some .times
  | '/' => some .divide
  | _ => none

/-- The word that has been read, if any. -/
def wordRead : List Char → List Token
  | [] => []
  | c :: cs => [.word (String.ofList (c :: cs))]

/-- Splits a text, with the part of a word that has been read so far. -/
def tokens : List Char → List Char → List Token
  | read, [] => wordRead read
  | read, c :: rest =>
    if c = '(' then .opening (String.ofList read) :: tokens [] rest
    else
      match sign? c with
      | some sign => wordRead read ++ sign :: tokens [] rest
      | none => tokens (read ++ [c]) rest

/-! ### Reading -/

/-- What waits for the next factor: the product that it belongs to, and the sum that the product
belongs to. -/
structure Pending where
  sum : Formula → Formula
  product : Formula → Formula

/-- Nothing waits. -/
def Pending.none : Pending := ⟨id, id⟩

/-- A parenthesis that is open, the arguments of it that are complete, and what waits for its
value. -/
structure Opened where
  function : String
  arguments : List Formula
  pending : Pending

/-- Either a factor must come next, or a product is there that may go on. -/
inductive Position where
  | operand (pending : Pending)
  | operator (sum : Formula → Formula) (product : Formula)

structure Parse where
  opened : List Opened
  position : Position

/-- The value of a parenthesis: what stands in a group, or a call. -/
def ofArguments? (function : String) : List Formula → Option Formula
  | [a] => some (if function = "" then a else call1 function a)
  | [a, b] => if function = "" then none else some (call2 function a b)
  | [a, b, c] => if function = "" then none else some (call3 function a b c)
  | _ => none

def Opened.close? (opened : Opened) (last : Formula) : Option Position :=
  (ofArguments? opened.function (opened.arguments ++ [last])).map fun value ↦
    .operator opened.pending.sum (opened.pending.product value)

def Parse.step? : Parse → Token → Option Parse
  | ⟨opened, .operand pending⟩, .word text =>
    some ⟨opened, .operator pending.sum (pending.product (.word text))⟩
  | ⟨opened, .operand pending⟩, .minus =>
    some ⟨opened, .operand ⟨pending.sum, fun a ↦ pending.product (.negative a)⟩⟩
  | ⟨opened, .operand pending⟩, .opening function =>
    some ⟨⟨function, [], pending⟩ :: opened, .operand .none⟩
  | ⟨opened, .operator s a⟩, .plus => some ⟨opened, .operand ⟨.sum (s a), id⟩⟩
  | ⟨opened, .operator s a⟩, .minus => some ⟨opened, .operand ⟨.difference (s a), id⟩⟩
  | ⟨opened, .operator s a⟩, .times => some ⟨opened, .operand ⟨s, .product a⟩⟩
  | ⟨opened, .operator s a⟩, .divide => some ⟨opened, .operand ⟨s, .quotient a⟩⟩
  | ⟨first :: opened, .operator s a⟩, .comma =>
    some ⟨{ first with arguments := first.arguments ++ [s a] } :: opened, .operand .none⟩
  | ⟨first :: opened, .operator s a⟩, .closing =>
    (first.close? (s a)).map fun position ↦ ⟨opened, position⟩
  | _, _ => none

def Parse.run? : Parse → List Token → Option Parse
  | parse, [] => some parse
  | parse, token :: rest => (parse.step? token).bind (·.run? rest)

theorem Parse.run?_append (parse : Parse) (xs ys : List Token) :
    parse.run? (xs ++ ys) = (parse.run? xs).bind (·.run? ys) := by
  induction xs generalizing parse with
  | nil => rfl
  | cons token xs ih =>
    rw [List.cons_append, run?, run?, Option.bind_assoc]
    exact Option.bind_congr fun next _ ↦ ih next

def Parse.start : Parse := ⟨[], .operand .none⟩

/-- What has been read, if nothing is left open. -/
def Parse.result? : Parse → Option Formula
  | ⟨[], .operator s a⟩ => some (s a)
  | _ => none

/-- The formula that a text is read as. -/
def read? (text : String) : Option Formula :=
  (Parse.start.run? (tokens [] text.toList)).bind (·.result?)

example : read? "if(lt(t,2+0.5),(t-2)/0.5,1-2*-t)" = some (.call3 "if"
    (.call2 "lt" (.word "t") (.sum (.word "2") (.word "0.5")))
    (.quotient (.difference (.word "t") (.word "2")) (.word "0.5"))
    (.difference (.word "1") (.product (.word "2") (.negative (.word "t"))))) := by
  decide +kernel

/-! ### Splitting what was put together -/

/-- A text that is one word wherever it stands. -/
def IsGlued (text : String) : Prop :=
  text ≠ "" ∧ ∀ c ∈ text.toList, c ≠ '(' ∧ sign? c = none

instance (text : String) : Decidable (IsGlued text) :=
  @instDecidableAnd _ _ _ (List.decidableBAll (fun c ↦ c ≠ '(' ∧ sign? c = none) text.toList)

/-- Nothing stands here, or a sign that ends a word. -/
def EndsWord (rest : List Char) : Prop := ∀ c ∈ rest.head?, (sign? c).isSome = true

/-- The text is split into these tokens in front of any sign. -/
def SplitsInto (text : String) (found : List Token) : Prop :=
  ∀ rest, EndsWord rest → tokens [] (text.toList ++ rest) = found ++ tokens [] rest

theorem tokens_sign {c : Char} {sign : Token} (h : sign? c = some sign) (read rest : List Char) :
    tokens read (c :: rest) = wordRead read ++ sign :: tokens [] rest := by
  have hopen : c ≠ '(' := by
    rintro rfl
    cases h
  rw [tokens, if_neg hopen, h]

theorem tokens_glued {text : List Char} (h : ∀ c ∈ text, c ≠ '(' ∧ sign? c = none)
    (read rest : List Char) : tokens read (text ++ rest) = tokens (read ++ text) rest := by
  induction text generalizing read with
  | nil => rw [List.nil_append, List.append_nil]
  | cons c text ih =>
    obtain ⟨⟨hopen, hsign⟩, htext⟩ := List.forall_mem_cons.mp h
    rw [List.cons_append, tokens, if_neg hopen, hsign, List.append_cons read c text]
    exact ih htext (read ++ [c])

theorem endsWord_sign {sign : Char} (h : (sign? sign).isSome = true) (rest : List Char) :
    EndsWord (sign :: rest) := by
  intro c hc
  obtain rfl := Option.some.inj hc
  exact h

namespace SplitsInto

variable {a b text : String} {found others : List Token}

theorem word (h : IsGlued text) : SplitsInto text [.word text] := by
  intro rest hrest
  have hword : wordRead text.toList = [.word text] := by
    obtain ⟨c, cs, hc⟩ := List.exists_cons_of_ne_nil (mt String.toList_eq_nil_iff.mp h.1)
    rw [hc, wordRead, ← hc, String.ofList_toList]
  rw [tokens_glued h.2, List.nil_append]
  cases rest with
  | nil => rw [tokens, hword]; rfl
  | cons c rest =>
    obtain ⟨sign, hsign⟩ := Option.isSome_iff_exists.mp (hrest c rfl)
    rw [tokens_sign hsign, tokens_sign hsign, hword]
    rfl

theorem signed {sign : String} {c : Char} {token : Token} (hs : sign.toList = [c])
    (hc : sign? c = some token) (h : SplitsInto a found) :
    SplitsInto (sign ++ a) (token :: found) := by
  intro rest hrest
  rw [String.toList_append, hs, List.append_assoc, List.singleton_append, tokens_sign hc,
    h rest hrest]
  rfl

theorem around {sign : String} {c : Char} {token : Token} (hs : sign.toList = [c])
    (hc : sign? c = some token) (ha : SplitsInto a found) (hb : SplitsInto b others) :
    SplitsInto (a ++ sign ++ b) (found ++ token :: others) := by
  intro rest hrest
  have hsign : EndsWord (c :: (b.toList ++ rest)) := endsWord_sign (by rw [hc]; rfl) _
  rw [String.toList_append, String.toList_append, hs, List.append_assoc, List.append_assoc,
    List.singleton_append, ha _ hsign, tokens_sign hc, hb rest hrest, List.append_assoc]
  rfl

theorem closed (h : SplitsInto a found) : SplitsInto (a ++ ")") (found ++ [.closing]) := by
  intro rest _
  have hsign : EndsWord (')' :: rest) := endsWord_sign rfl rest
  rw [String.toList_append, List.append_assoc]
  refine (h _ hsign).trans ?_
  rw [List.append_assoc, tokens_sign rfl]
  rfl

theorem opened {function : String} (hf : ∀ c ∈ function.toList, c ≠ '(' ∧ sign? c = none)
    (h : SplitsInto a found) : SplitsInto (function ++ "(" ++ a) (.opening function :: found) := by
  intro rest hrest
  have hopen : "(".toList = ['('] := rfl
  rw [String.toList_append, String.toList_append, hopen, List.append_assoc, List.append_assoc,
    tokens_glued hf, List.nil_append, List.singleton_append, tokens, if_pos rfl, h rest hrest,
    String.ofList_toList]
  rfl

end SplitsInto

end Formula

namespace Expression

open Formula

/-! ### Well-grouped expressions -/

/-- How loosely an expression binds: factors, products, sums. -/
def rank : Expression → Nat
  | add .. | sub .. => 2
  | mul .. | div .. => 1
  | _ => 0

/-- Where a sign needs a factor or a product, there is one, and names and numbers are words. -/
def WellGrouped : Expression → Prop
  | name text => IsGlued text
  | decimal value => IsGlued (num value)
  | whole value => IsGlued (toString value)
  | neg a => a.WellGrouped ∧ a.rank = 0
  | add a b | sub a b => a.WellGrouped ∧ b.WellGrouped ∧ b.rank ≤ 1
  | mul a b | div a b => a.WellGrouped ∧ a.rank ≤ 1 ∧ b.WellGrouped ∧ b.rank = 0
  | group a => a.WellGrouped
  | call1 function a => IsGlued function ∧ a.WellGrouped
  | call2 function a b => IsGlued function ∧ a.WellGrouped ∧ b.WellGrouped
  | call3 function a b c => IsGlued function ∧ a.WellGrouped ∧ b.WellGrouped ∧ c.WellGrouped

/-- What an expression is written with. -/
def tokens : Expression → List Token
  | name text => [.word text]
  | decimal value => [.word (num value)]
  | whole value => [.word (toString value)]
  | neg a => .minus :: a.tokens
  | add a b => a.tokens ++ .plus :: b.tokens
  | sub a b => a.tokens ++ .minus :: b.tokens
  | mul a b => a.tokens ++ .times :: b.tokens
  | div a b => a.tokens ++ .divide :: b.tokens
  | group a => .opening "" :: (a.tokens ++ [.closing])
  | call1 function a => .opening function :: a.tokens ++ [.closing]
  | call2 function a b => .opening function :: a.tokens ++ .comma :: b.tokens ++ [.closing]
  | call3 function a b c =>
    .opening function :: a.tokens ++ .comma :: b.tokens ++ .comma :: c.tokens ++ [.closing]

/-- What an expression means. -/
def formula : Expression → Formula
  | name text => .word text
  | decimal value => .word (num value)
  | whole value => .word (toString value)
  | neg a => .negative a.formula
  | add a b => .sum a.formula b.formula
  | sub a b => .difference a.formula b.formula
  | mul a b => .product a.formula b.formula
  | div a b => .quotient a.formula b.formula
  | group a => a.formula
  | call1 function a => .call1 function a.formula
  | call2 function a b => .call2 function a.formula b.formula
  | call3 function a b c => .call3 function a.formula b.formula c.formula

theorem WellGrouped.splitsInto {e : Expression} (h : e.WellGrouped) :
    SplitsInto e.render e.tokens := by
  induction e with
  | name text => exact .word h
  | decimal value => exact .word h
  | whole value => exact .word h
  | neg a ih => exact (ih h.1).signed (c := '-') rfl rfl
  | add a b iha ihb => exact (iha h.1).around (c := '+') rfl rfl (ihb h.2.1)
  | sub a b iha ihb => exact (iha h.1).around (c := '-') rfl rfl (ihb h.2.1)
  | mul a b iha ihb => exact (iha h.1).around (c := '*') rfl rfl (ihb h.2.2.1)
  | div a b iha ihb => exact (iha h.1).around (c := '/') rfl rfl (ihb h.2.2.1)
  | group a ih =>
    have hopen : SplitsInto ("" ++ "(" ++ a.render) (.opening "" :: a.tokens) :=
      (ih h).opened (List.forall_mem_nil _)
    rw [String.empty_append] at hopen
    exact hopen.closed
  | call1 function a ih =>
    obtain ⟨hf, ha⟩ := h
    exact ((ih ha).opened hf.2).closed
  | call2 function a b iha ihb =>
    obtain ⟨hf, ha, hb⟩ := h
    exact (((iha ha).opened hf.2).around (c := ',') rfl rfl (ihb hb)).closed
  | call3 function a b c iha ihb ihc =>
    obtain ⟨hf, ha, hb, hc⟩ := h
    exact ((((iha ha).opened hf.2).around (c := ',') rfl rfl (ihb hb)).around (c := ',') rfl rfl
      (ihc hc)).closed

/-! ### Reading what was put together -/

/-- Where a factor must come next, the tokens of an expression are read as what it means. Only as a
factor does it go into a product that waits, and only as a product into a sum that waits. -/
structure ReadBack (e : Expression) : Prop where
  factor : e.rank = 0 → ∀ opened pending, Parse.run? ⟨opened, .operand pending⟩ e.tokens =
    some ⟨opened, .operator pending.sum (pending.product e.formula)⟩
  product : e.rank ≤ 1 → ∀ opened sum, Parse.run? ⟨opened, .operand ⟨sum, id⟩⟩ e.tokens =
    some ⟨opened, .operator sum e.formula⟩
  sum : ∀ opened, ∃ sum product, sum product = e.formula ∧
    Parse.run? ⟨opened, .operand .none⟩ e.tokens = some ⟨opened, .operator sum product⟩

namespace ReadBack

variable {e a b c : Expression}

theorem of_factor (h : ∀ opened pending, Parse.run? ⟨opened, .operand pending⟩ e.tokens =
    some ⟨opened, .operator pending.sum (pending.product e.formula)⟩) : e.ReadBack where
  factor _ := h
  product _ opened sum := h opened ⟨sum, id⟩
  sum opened := ⟨id, e.formula, rfl, h opened .none⟩

theorem of_product (hr : e.rank = 1)
    (h : ∀ opened sum, Parse.run? ⟨opened, .operand ⟨sum, id⟩⟩ e.tokens =
      some ⟨opened, .operator sum e.formula⟩) : e.ReadBack where
  factor h0 := by omega
  product _ := h
  sum opened := ⟨id, e.formula, rfl, h opened id⟩

theorem of_sum (hr : e.rank = 2)
    (h : ∀ opened, ∃ sum product, sum product = e.formula ∧
      Parse.run? ⟨opened, .operand .none⟩ e.tokens = some ⟨opened, .operator sum product⟩) :
    e.ReadBack where
  factor h0 := by omega
  product h1 := by omega
  sum := h

theorem neg (h : a.ReadBack) (hr : a.rank = 0) : (neg a).ReadBack := by
  apply of_factor
  intro opened pending
  exact h.factor hr opened ⟨pending.sum, fun a ↦ pending.product (.negative a)⟩

/-- A sign between a product and a factor. -/
theorem joinsProduct {sign : Token} {meaning : Formula → Formula → Formula}
    (hs : ∀ opened sum first, Parse.step? ⟨opened, .operator sum first⟩ sign =
      some ⟨opened, .operand ⟨sum, meaning first⟩⟩)
    (ha : a.ReadBack) (har : a.rank ≤ 1) (hb : b.ReadBack) (hbr : b.rank = 0) (opened : List Opened)
    (sum : Formula → Formula) :
    Parse.run? ⟨opened, .operand ⟨sum, id⟩⟩ (a.tokens ++ sign :: b.tokens) =
      some ⟨opened, .operator sum (meaning a.formula b.formula)⟩ := by
  rw [Parse.run?_append, ha.product har, Option.bind_some, Parse.run?, hs, Option.bind_some,
    hb.factor hbr]

/-- A sign between a sum and a product. -/
theorem joinsSum {sign : Token} {meaning : Formula → Formula → Formula}
    (hs : ∀ opened sum last, Parse.step? ⟨opened, .operator sum last⟩ sign =
      some ⟨opened, .operand ⟨meaning (sum last), id⟩⟩)
    (ha : a.ReadBack) (hb : b.ReadBack) (hbr : b.rank ≤ 1) (opened : List Opened) :
    ∃ sum product, sum product = meaning a.formula b.formula ∧
      Parse.run? ⟨opened, .operand .none⟩ (a.tokens ++ sign :: b.tokens) =
        some ⟨opened, .operator sum product⟩ := by
  obtain ⟨sum, product, hvalue, hrun⟩ := ha.sum opened
  refine ⟨meaning a.formula, b.formula, rfl, ?_⟩
  rw [Parse.run?_append, hrun, Option.bind_some, Parse.run?, hs, Option.bind_some, hvalue,
    hb.product hbr]

/-- An argument with a comma behind it is one more argument. -/
theorem argument (h : a.ReadBack) (opened : Opened) (others : List Opened) (rest : List Token) :
    Parse.run? ⟨opened :: others, .operand .none⟩ (a.tokens ++ .comma :: rest) =
      Parse.run? ⟨{ opened with arguments := opened.arguments ++ [a.formula] } :: others,
        .operand .none⟩ rest := by
  obtain ⟨sum, product, hvalue, hrun⟩ := h.sum (opened :: others)
  rw [Parse.run?_append, hrun, Option.bind_some, Parse.run?, Parse.step?, Option.bind_some, hvalue]

/-- A last argument gives the parenthesis its value. -/
theorem lastArgument (h : a.ReadBack) {function : String} {arguments : List Formula}
    {pending : Pending} {value : Formula}
    (hv : ofArguments? function (arguments ++ [a.formula]) = some value) (others : List Opened) :
    Parse.run? ⟨⟨function, arguments, pending⟩ :: others, .operand .none⟩
      (a.tokens ++ [.closing]) = some ⟨others, .operator pending.sum (pending.product value)⟩ := by
  obtain ⟨sum, product, hvalue, hrun⟩ := h.sum (⟨function, arguments, pending⟩ :: others)
  rw [Parse.run?_append, hrun, Option.bind_some, Parse.run?, Parse.step?, Opened.close?, hvalue, hv]
  rfl

end ReadBack

/-- The tokens of a well-grouped expression are read as what it means, by the ways in which
expressions are put together. -/
theorem WellGrouped.readBack {e : Expression} (h : e.WellGrouped) : e.ReadBack := by
  induction e with
  | name text => exact .of_factor fun _ _ ↦ rfl
  | decimal value => exact .of_factor fun _ _ ↦ rfl
  | whole value => exact .of_factor fun _ _ ↦ rfl
  | neg a ih => exact (ih h.1).neg h.2
  | add a b iha ihb | sub a b iha ihb =>
    exact .of_sum rfl (ReadBack.joinsSum (fun _ _ _ ↦ rfl) (iha h.1) (ihb h.2.1) h.2.2)
  | mul a b iha ihb | div a b iha ihb =>
    obtain ⟨ha, har, hb, hbr⟩ := h
    exact .of_product rfl (ReadBack.joinsProduct (fun _ _ _ ↦ rfl) (iha ha) har (ihb hb) hbr)
  | group a ih => exact .of_factor fun opened pending ↦ (ih h).lastArgument rfl opened
  | call1 function a ih =>
    obtain ⟨hf, ha⟩ := h
    apply ReadBack.of_factor
    intro opened pending
    have hvalue : ofArguments? function [a.formula] = some (.call1 function a.formula) := by
      simp [ofArguments?, hf.1]
    exact (ih ha).lastArgument hvalue opened
  | call2 function a b iha ihb =>
    obtain ⟨hf, ha, hb⟩ := h
    have hvalue : ofArguments? function [a.formula, b.formula] =
        some (.call2 function a.formula b.formula) := if_neg hf.1
    apply ReadBack.of_factor
    intro opened pending
    rw [tokens, List.append_assoc, List.cons_append, Parse.run?, Parse.step?, Option.bind_some,
      List.cons_append, (iha ha).argument, (ihb hb).lastArgument hvalue]
    rfl
  | call3 function a b c iha ihb ihc =>
    obtain ⟨hf, ha, hb, hc⟩ := h
    have hvalue : ofArguments? function [a.formula, b.formula, c.formula] =
        some (.call3 function a.formula b.formula c.formula) := if_neg hf.1
    apply ReadBack.of_factor
    intro opened pending
    rw [tokens, List.append_assoc, List.append_assoc, List.cons_append, Parse.run?, Parse.step?,
      Option.bind_some, List.cons_append, (iha ha).argument, List.cons_append, (ihb hb).argument,
      (ihc hc).lastArgument hvalue]
    rfl

/-- A well-grouped expression is read back from its text. -/
theorem WellGrouped.read?_render {e : Expression} (h : e.WellGrouped) :
    Formula.read? e.render = some e.formula := by
  have htokens := h.splitsInto [] (by rintro c ⟨⟩)
  obtain ⟨sum, product, hvalue, hrun⟩ := h.readBack.sum []
  rw [List.append_nil, Formula.tokens, wordRead, List.append_nil] at htokens
  rw [Formula.read?, htokens, Parse.start, hrun, Option.bind_some, Parse.result?, hvalue]

end Expression

/-! ### Evaluation -/

namespace Formula

/-- A point in time as an amount. -/
def amount (time : WithTop ℝ) : EReal := (time : WithBot (WithTop ℝ))

/-- A sum; opposite infinities have none. -/
noncomputable def plus? (x y : EReal) : Option EReal :=
  if x = ⊤ ∧ y = ⊥ ∨ x = ⊥ ∧ y = ⊤ then none else some (x + y)

/-- A product; zero and an infinity have none. -/
noncomputable def times? (x y : EReal) : Option EReal :=
  if x = 0 ∧ (y = ⊤ ∨ y = ⊥) ∨ (x = ⊤ ∨ x = ⊥) ∧ y = 0 then none else some (x * y)

/-- A quotient; there is none by zero. -/
noncomputable def over? (x y : EReal) : Option EReal := if y = 0 then none else times? x y⁻¹

/-- A comparison is one if it holds and zero otherwise. -/
noncomputable def compare? (function : String) (x y : EReal) : Option EReal :=
  if function = "lt" then some (if x < y then 1 else 0)
  else if function = "gt" then some (if y < x then 1 else 0)
  else if function = "gte" then some (if y ≤ x then 1 else 0)
  else none

/-- The value of a formula at an instant, in exact arithmetic. A choice has the value of the part
that its condition selects. -/
noncomputable def value? (t : ℝ) : Formula → Option EReal
  | word text => if text = "t" then some t else (instant? text).map amount
  | negative a => (a.value? t).map (-·)
  | sum a b => (a.value? t).bind fun x ↦ (b.value? t).bind fun y ↦ plus? x y
  | difference a b => (a.value? t).bind fun x ↦ (b.value? t).bind fun y ↦ plus? x (-y)
  | product a b => (a.value? t).bind fun x ↦ (b.value? t).bind fun y ↦ times? x y
  | quotient a b => (a.value? t).bind fun x ↦ (b.value? t).bind fun y ↦ over? x y
  | call1 .. => none
  | call2 function a b =>
    (a.value? t).bind fun x ↦ (b.value? t).bind fun y ↦ compare? function x y
  | call3 function a b c =>
    if function = "if" then
      (a.value? t).bind fun condition ↦ if condition = 0 then c.value? t else b.value? t
    else none

variable {t : ℝ} {a b c : Formula} {x : EReal} {y : ℝ}

theorem value?_sum (ha : a.value? t = some x) (hb : b.value? t = some (y : EReal)) :
    (sum a b).value? t = some (x + y) := by
  simp [value?, ha, hb, plus?]

theorem value?_difference (ha : a.value? t = some x) (hb : b.value? t = some (y : EReal)) :
    (difference a b).value? t = some (x - y) := by
  have hfinite : (-(y : EReal)) = ((-y : ℝ) : EReal) := rfl
  rw [sub_eq_add_neg, hfinite]
  simp [value?, ha, hb, plus?]

theorem value?_quotient (ha : a.value? t = some x) (hb : b.value? t = some (y : EReal))
    (hy : y ≠ 0) : (quotient a b).value? t = some (x / y) := by
  have hfinite : ((y : EReal))⁻¹ = ((y⁻¹ : ℝ) : EReal) := rfl
  rw [EReal.div_eq_inv_mul, mul_comm, hfinite]
  simp [value?, ha, hb, over?, times?, hfinite, hy]

theorem value?_lessThan {x y : EReal} (ha : a.value? t = some x) (hb : b.value? t = some y) :
    (call2 "lt" a b).value? t = some (if x < y then 1 else 0) := by
  simp [value?, ha, hb, compare?]

theorem value?_greaterThan {x y : EReal} (ha : a.value? t = some x) (hb : b.value? t = some y) :
    (call2 "gt" a b).value? t = some (if y < x then 1 else 0) := by
  simp [value?, ha, hb, compare?]

theorem value?_ifElse {p : Prop} [Decidable p] (ha : a.value? t = some (if p then 1 else 0)) :
    (call3 "if" a b c).value? t = if p then b.value? t else c.value? t := by
  by_cases hp : p <;> simp [value?, ha, hp]

end Formula

end Montage.Graph
