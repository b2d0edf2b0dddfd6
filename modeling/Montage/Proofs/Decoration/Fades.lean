import Montage.Proofs.Decoration.Gates
import Montage.Proofs.Graph.Formula
import Montage.Proofs.Graph.UserText

/-!
# Fades

The opacity of a text that fades in and out at the edges of its window. It is the lesser of two
ramps, capped at one, as long as the fade in is over or the middle of the window has not passed. So
a window that lasts as long as both ramps is faded at both edges; in a shorter one the fade in goes
on when the end is already nearer.
-/

namespace Montage

open Montage.Graph
open Montage.Graph.Formula (amount)
open Montage.Numeric (Binary64 instant? num)

namespace Decoration

/-! ### Two ramps -/

/-- The first ramp for as long as it rises, then the second one, at most one. -/
noncomputable def ramped (rise fall : EReal) : EReal :=
  if rise < 1 then rise else if fall < 1 then fall else 1

section Ramps

variable {rise fall : EReal}

theorem ramped_nonneg (hr : 0 ≤ rise) (hf : 0 ≤ fall) : 0 ≤ ramped rise fall := by
  unfold ramped
  split_ifs
  · exact hr
  · exact hf
  · exact zero_le_one

theorem ramped_le_one (rise fall : EReal) : ramped rise fall ≤ 1 := by
  unfold ramped
  split_ifs with hrise hfall
  · exact hrise.le
  · exact hfall.le
  · exact le_rfl

/-- It is the lesser ramp once the first has risen, and before that unless the second is lower. -/
theorem ramped_eq_min_iff : ramped rise fall = min 1 (min rise fall) ↔ 1 ≤ rise ∨ rise ≤ fall := by
  unfold ramped
  by_cases hrise : rise < 1
  · by_cases hfall : rise ≤ fall
    · simp [hrise, hfall, hrise.le]
    · have hless : fall < rise := lt_of_not_ge hfall
      simp [hrise, hfall, hless.le, (hless.trans hrise).le, hless.ne']
  · have hone : 1 ≤ rise := le_of_not_gt hrise
    by_cases hfall : fall < 1
    · simp [hrise, hone, hfall, hfall.le, (hfall.le.trans hone)]
    · have hfull : 1 ≤ fall := le_of_not_gt hfall
      simp [hrise, hone, hfall, hfull]

end Ramps

/-! ### The edges of a window -/

/-- How much of half a second has passed since the start. -/
noncomputable def rise (start : WithTop ℝ) (t : ℝ) : EReal := (t - amount start) / (1 / 2 : ℝ)

/-- How much of half a second is left until the end. -/
noncomputable def fall (stop : WithTop ℝ) (t : ℝ) : EReal := (amount stop - t) / (1 / 2 : ℝ)

/-- The opacity of a text that fades linearly over half a second at each edge of its window. -/
noncomputable def edgeOpacity (start stop : WithTop ℝ) (t : ℝ) : EReal :=
  min 1 (min (rise start t) (fall stop t))

section Edges

variable {s t : ℝ} {stop : WithTop ℝ}

theorem rise_coe (s t : ℝ) : rise s t = (((t - s) / (1 / 2) : ℝ) : EReal) := rfl

theorem fall_coe (e t : ℝ) : fall e t = (((e - t) / (1 / 2) : ℝ) : EReal) := rfl

theorem fall_top (t : ℝ) : fall ⊤ t = ⊤ := by
  have htop : amount ⊤ = ⊤ := rfl
  rw [fall, htop, EReal.top_sub_coe, EReal.top_div_of_pos_ne_top]
  · exact EReal.coe_pos.mpr (by norm_num)
  · exact EReal.coe_ne_top _

theorem rise_lt_one_iff : rise s t < 1 ↔ (t : EReal) < amount s + (1 / 2 : ℝ) := by
  have hsum : amount s + (1 / 2 : ℝ) = ((s + 1 / 2 : ℝ) : EReal) := rfl
  rw [rise_coe, hsum, ← EReal.coe_one, EReal.coe_lt_coe_iff, EReal.coe_lt_coe_iff]
  constructor <;> intro h <;> linarith

theorem fall_lt_one_iff : fall stop t < 1 ↔ amount stop - (1 / 2 : ℝ) < t := by
  cases stop with
  | top =>
    have htop : amount ⊤ = ⊤ := rfl
    simp [fall_top, htop]
  | coe e =>
    have hdifference : amount e - (1 / 2 : ℝ) = ((e - 1 / 2 : ℝ) : EReal) := rfl
    rw [fall_coe, hdifference, ← EReal.coe_one, EReal.coe_lt_coe_iff, EReal.coe_lt_coe_iff]
    constructor <;> intro h <;> linarith

theorem rise_nonneg (h : s ≤ t) : 0 ≤ rise s t := by
  rw [rise_coe]
  exact EReal.coe_nonneg.mpr (by linarith)

theorem fall_nonneg (h : t < stop) : 0 ≤ fall stop t := by
  cases stop with
  | top => simp [fall_top]
  | coe e =>
    have hlt : t < e := WithTop.coe_lt_coe.mp h
    rw [fall_coe]
    exact EReal.coe_nonneg.mpr (by linarith)

/-- The second ramp is not the lower one before the middle of the window. -/
theorem rise_le_fall_iff : rise s t ≤ fall stop t ↔ ((t + t : ℝ) : WithTop ℝ) ≤ s + stop := by
  cases stop with
  | top => simp [fall_top]
  | coe e =>
    rw [rise_coe, fall_coe, EReal.coe_le_coe_iff, ← WithTop.coe_add, WithTop.coe_le_coe]
    constructor <;> intro h <;> linarith

theorem one_le_rise_iff : 1 ≤ rise s t ↔ (s : WithTop ℝ) + (1 / 2 : ℝ) ≤ t := by
  rw [rise_coe, ← EReal.coe_one, EReal.coe_le_coe_iff, ← WithTop.coe_add, WithTop.coe_le_coe]
  constructor <;> intro h <;> linarith

end Edges

/-- How a formula for an opacity relates to ramps at both edges of a window. -/
structure FadesIn (formula : Formula) (start stop : WithTop ℝ) : Prop where
  within : ∀ t : ℝ, start ≤ t → t < stop →
    ∃ opacity, formula.value? t = some opacity ∧ 0 ≤ opacity ∧ opacity ≤ 1
  /-- Both edges count at an instant if half a second has passed since the start, or the middle of
  the window has not passed. -/
  at_iff : ∀ t : ℝ, start ≤ t → t < stop →
    (formula.value? t = some (edgeOpacity start stop t) ↔
      start + (1 / 2 : ℝ) ≤ t ∨ ((t + t : ℝ) : WithTop ℝ) ≤ start + stop)
  /-- Both edges count in all of the window if it lasts a second. -/
  always_iff : (∀ t : ℝ, start ≤ t → t < stop →
      formula.value? t = some (edgeOpacity start stop t)) ↔ stop ≤ start ∨ start + (1 : ℝ) ≤ stop

section Windows

variable {start stop : WithTop ℝ}

/-- A window of less than a second passes its middle before half a second has passed. -/
theorem exists_past_middle (h : start < stop) (hshort : stop < start + (1 : ℝ)) :
    ∃ t : ℝ, start ≤ t ∧ t < stop ∧
      ¬ (start + (1 / 2 : ℝ) ≤ t ∨ ((t + t : ℝ) : WithTop ℝ) ≤ start + stop) := by
  obtain ⟨s, rfl⟩ := WithTop.ne_top_iff_exists.mp h.ne_top
  obtain ⟨e, rfl⟩ := WithTop.ne_top_iff_exists.mp hshort.ne_top
  have hse : s < e := WithTop.coe_lt_coe.mp h
  have hes : e < s + 1 := WithTop.coe_lt_coe.mp hshort
  obtain ⟨t, hmiddle, hend⟩ : ∃ t, (s + e) / 2 < t ∧ t < min e (s + 1 / 2) :=
    exists_between (lt_min (by linarith) (by linarith))
  obtain ⟨hstop, hhalf⟩ := lt_min_iff.mp hend
  refine ⟨t, WithTop.coe_le_coe.mpr (by linarith), WithTop.coe_lt_coe.mpr hstop, ?_⟩
  rw [← WithTop.coe_add, ← WithTop.coe_add, WithTop.coe_le_coe, WithTop.coe_le_coe]
  rintro (hrisen | hbefore)
  · linarith
  · linarith

theorem risen_or_before_middle (h : start + (1 : ℝ) ≤ stop) {t : ℝ} (ht : start ≤ t) :
    start + (1 / 2 : ℝ) ≤ t ∨ ((t + t : ℝ) : WithTop ℝ) ≤ start + stop := by
  obtain ⟨s, rfl⟩ := WithTop.ne_top_iff_exists.mp (ht.trans_lt (WithTop.coe_lt_top t)).ne
  cases stop with
  | top => simp
  | coe e =>
    rw [← WithTop.coe_add] at h
    have hse : s + 1 ≤ e := WithTop.coe_le_coe.mp h
    rw [← WithTop.coe_add, ← WithTop.coe_add, WithTop.coe_le_coe, WithTop.coe_le_coe]
    by_cases hrisen : s + 1 / 2 ≤ t
    · exact Or.inl hrisen
    · right
      linarith

/-- What a formula of two ramps comes to. -/
theorem fadesIn_of_ramped {formula : Formula}
    (h : ∀ t : ℝ, start ≤ t → t < stop →
      formula.value? t = some (ramped (rise start t) (fall stop t))) :
    FadesIn formula start stop := by
  have hat : ∀ t : ℝ, start ≤ t → t < stop →
      (formula.value? t = some (edgeOpacity start stop t) ↔
        start + (1 / 2 : ℝ) ≤ t ∨ ((t + t : ℝ) : WithTop ℝ) ≤ start + stop) := by
    intro t hs he
    obtain ⟨s, rfl⟩ := WithTop.ne_top_iff_exists.mp (hs.trans_lt (WithTop.coe_lt_top t)).ne
    rw [h t hs he, Option.some.injEq, edgeOpacity, ramped_eq_min_iff, one_le_rise_iff,
      rise_le_fall_iff]
  refine ⟨?_, hat, ?_⟩
  · intro t hs he
    obtain ⟨s, rfl⟩ := WithTop.ne_top_iff_exists.mp (hs.trans_lt (WithTop.coe_lt_top t)).ne
    exact ⟨_, h t hs he,
      ramped_nonneg (rise_nonneg (WithTop.coe_le_coe.mp hs)) (fall_nonneg he), ramped_le_one _ _⟩
  · constructor
    · intro hall
      by_contra hshort
      obtain ⟨hempty, hsecond⟩ := not_or.mp hshort
      obtain ⟨t, hs, he, hpast⟩ := exists_past_middle (not_le.mp hempty) (not_le.mp hsecond)
      exact hpast ((hat t hs he).mp (hall t hs he))
    · rintro (hempty | hsecond) t hs he
      · exact absurd (hempty.trans hs) (not_le.mpr he)
      · exact (hat t hs he).mpr (risen_or_before_middle hsecond hs)

end Windows

/-! ### The formula of a fade -/

/-- The formula of the opacity of a text that fades in a window between these words. -/
def fadeFormula (start stop : String) : Formula :=
  .call3 "if" (.call2 "lt" (.word "t") (.sum (.word start) (.word "0.5")))
    (.quotient (.difference (.word "t") (.word start)) (.word "0.5"))
    (.call3 "if" (.call2 "gt" (.word "t") (.difference (.word stop) (.word "0.5")))
      (.quotient (.difference (.word stop) (.word "t")) (.word "0.5")) (.word "1"))

theorem num_rampLength : num rampLength = "0.5" := by
  decide +kernel

theorem formula_fade (window : TimeWindow) :
    (fade window).formula = fadeFormula (num window.start) (num window.stop) := by
  rw [fadeFormula, ← num_rampLength]
  rfl

private theorem glued_of_isNumeralChar {c : Char} (h : isNumeralChar c = true) :
    c ≠ '(' ∧ Formula.sign? c = none := by
  constructor
  · rintro rfl
    cases h
  · unfold Formula.sign?
    split <;> first | rfl | cases h

/-- The numeral of a length is one word. -/
theorem isGlued_num {x : Binary64} (hx : x.IsLength) : Formula.IsGlued (num x) := by
  by_cases hf : x.isFinite = true
  · refine ⟨num_ne_empty x, fun c hc ↦ ?_⟩
    exact glued_of_isNumeralChar (unsigned_num hf hx.thousandths_nonneg c hc)
  · rw [Binary64.num_of_infinite hx (Bool.not_eq_true _ ▸ hf)]
    decide

theorem wellGrouped_fade {window : TimeWindow} (hs : window.start.IsLength)
    (he : window.stop.IsLength) : (fade window).WellGrouped := by
  have hstart := isGlued_num hs
  have hstop := isGlued_num he
  have htime : Formula.IsGlued "t" := by decide
  have hramp : Formula.IsGlued (num rampLength) := by
    rw [num_rampLength]
    decide
  have hrise : (rampIn window).WellGrouped :=
    ⟨⟨htime, hstart, Nat.zero_le 1⟩, Nat.zero_le 1, hramp, rfl⟩
  have hrisen : (rampInEnd window).WellGrouped := ⟨hstart, hramp, Nat.zero_le 1⟩
  have hfall : (Expression.div (.group (.sub (.decimal window.stop) .time))
      (.decimal rampLength)).WellGrouped :=
    ⟨⟨hstop, htime, Nat.zero_le 1⟩, Nat.zero_le 1, hramp, rfl⟩
  have hfalling : (Expression.sub (.decimal window.stop) (.decimal rampLength)).WellGrouped :=
    ⟨hstop, hramp, Nat.zero_le 1⟩
  have hone : Formula.IsGlued (toString (1 : Int)) := by decide
  exact ⟨by decide, ⟨by decide, htime, hrisen⟩, hrise, by decide, ⟨by decide, htime, hfalling⟩,
    hfall, hone⟩

/-- The number of a point in time is its value, whatever the instant. -/
theorem value?_word {text : String} {time : WithTop ℝ} (h : instant? text = some time) (t : ℝ) :
    (Formula.word text).value? t = some (amount time) := by
  have hword : text ≠ "t" := by
    rintro rfl
    have hnone : Numeric.decimalValue? "t" = none := by decide +kernel
    rw [instant?, hnone] at h
    cases h
  rw [Formula.value?, if_neg hword, h, Option.map_some]

private theorem decimalValue?_half : Numeric.decimalValue? "0.5" = some (1 / 2) := by
  decide +kernel

private theorem decimalValue?_one : Numeric.decimalValue? "1" = some 1 := by
  decide +kernel

theorem value?_fadeFormula {start stop : String} {s : ℝ} {e : WithTop ℝ}
    (hs : instant? start = some (s : WithTop ℝ)) (he : instant? stop = some e) (t : ℝ) :
    (fadeFormula start stop).value? t = some (ramped (rise s t) (fall e t)) := by
  have htime : (Formula.word "t").value? t = some ((t : ℝ) : EReal) := if_pos rfl
  have hhalf : (Formula.word "0.5").value? t = some ((1 / 2 : ℝ) : EReal) := by
    have hvalue := value?_word (Numeric.instant?_of_decimalValue? decimalValue?_half) t
    rwa [Rat.cast_div, Rat.cast_one, Rat.cast_ofNat] at hvalue
  have hone : (Formula.word "1").value? t = some 1 := by
    have hvalue := value?_word (Numeric.instant?_of_decimalValue? decimalValue?_one) t
    rwa [Rat.cast_one] at hvalue
  have hstart := value?_word hs t
  have hstop := value?_word he t
  have hhalfne : (1 / 2 : ℝ) ≠ 0 := by norm_num
  rw [fadeFormula, Formula.value?_ifElse
      (Formula.value?_lessThan htime (Formula.value?_sum hstart hhalf)),
    Formula.value?_ifElse
      (Formula.value?_greaterThan htime (Formula.value?_difference hstop hhalf)),
    Formula.value?_quotient (Formula.value?_difference htime (y := s) hstart) hhalf hhalfne,
    Formula.value?_quotient (Formula.value?_difference hstop htime) hhalf hhalfne, hone, ramped]
  simp only [rise_lt_one_iff, fall_lt_one_iff]
  split_ifs <;> rfl

/-! ### The opacity of a caption -/

/-- The opacity of a text that fades in a window between these words, as it is written. -/
def fadeText (start stop : String) : String :=
  String.join ["if(lt(t,", start, "+0.5),(t-", start, ")/0.5,if(gt(t,", stop, "-0.5),(", stop,
    "-t)/0.5,1))"]

theorem render_fade (window : TimeWindow) :
    (fade window).render = fadeText (num window.start) (num window.stop) := by
  have hone : toString (1 : Int) = "1" := rfl
  simp only [fade, rampIn, rampInEnd, Expression.render, Expression.ifElse, Expression.lessThan,
    Expression.greaterThan, Expression.time, num_rampLength, hone]
  rw [fadeText, ← String.toList_inj]
  simp [String.join]

theorem tight_fadeText (start stop : String) : Reader.Tight (fadeText start stop).toList := by
  have hlast : (fadeText start stop).toList.getLast? = some ')' := by
    rw [fadeText, String.join]
    simp only [List.foldl_cons, List.foldl_nil, String.toList_append, List.getLast?_append]
    rfl
  constructor
  · simp [fadeText, String.join, Reader.isSpace]
  · rw [hlast]
    rintro c ⟨⟩
    rfl

theorem harmless_fade (window : TimeWindow) : Harmless (fade window).render := by
  apply harmless_render
  show ∀ n ∈ ["if", "lt", "t", "t", "if", "gt", "t", "t"], Harmless n
  decide

/-- The opacity is read from between its quotes. -/
theorem found_fade (window : TimeWindow) :
    (opt "alpha" (quotedExpression (fade window))).found =
      [(some "alpha", fadeText (num window.start) (num window.stop))] := by
  have hharmless := harmless_fade window
  rw [render_fade] at hharmless
  rw [quotedExpression, render_fade]
  exact found_quoted_of_harmless (by decide) hharmless (tight_fadeText _ _)

variable {scene : Scene} {caption : Caption} {window : TimeWindow} {filter : Filter}

/-- A caption that fades has one opacity, any other has none. -/
theorem opacity_captionFilter (h : captionFilter scene caption window = .ok filter) :
    filter.values "alpha" =
      if caption.animation = .fade then [quotedExpression (fade window)] else [] := by
  obtain ⟨color, boxColor, -, -, rfl⟩ := exists_of_captionFilter h
  rw [values_drawText (by decide)]
  unfold captionFade
  split <;> simp [opt, enable]

end Decoration

namespace Graph

/-- The values that are read of all options with this key, filter by filter. -/
def Reader.Reading.values (key : String) (reading : Reader.Reading) : List (List String) :=
  reading.filters.map fun filter ↦ (filter.2.filter (·.1 == some key)).map (·.2)

/-- What is read of an option counts for its own key only. -/
theorem FilterOption.Readable.filter_found {o : FilterOption} (h : o.Readable) (key : String) :
    o.found.filter (·.1 == some key) =
      if o.key = some key then (opt key o.value).found else [] := by
  obtain ⟨text, -, hkey⟩ := h.exists_optionsOf
  obtain ⟨found, hfound, hfirst⟩ := List.map_eq_singleton_iff.mp hkey
  rw [hfound, List.filter_cons, List.filter_nil, hfirst]
  by_cases hk : o.key = some key
  · have ho : opt key o.value = o := by
      rw [opt, ← hk]
    rw [if_pos hk, ho, hfound, if_pos (beq_iff_eq.mpr hk)]
  · rw [if_neg hk, if_neg (mt beq_iff_eq.mp hk)]

/-- What is read for a key of a readable filter are its values for that key, as each is read. -/
theorem Filter.Readable.filter_found {filter : Filter} (h : filter.Readable) (key : String) :
    (filter.options.flatMap (·.found)).filter (·.1 == some key) =
      (filter.values key).flatMap fun value ↦ (opt key value).found := by
  have hoptions := h.options
  rw [Filter.values]
  generalize filter.options = options at hoptions ⊢
  induction options with
  | nil => rfl
  | cons o os ih =>
    obtain ⟨ho, hos⟩ := List.forall_mem_cons.mp hoptions
    rw [List.flatMap_cons, List.filter_append, ho.filter_found, ih hos, List.filter_cons]
    by_cases hk : o.key = some key
    · rw [if_pos hk, if_pos (beq_iff_eq.mpr hk), List.map_cons, List.flatMap_cons]
    · rw [if_neg hk, if_neg (mt beq_iff_eq.mp hk), List.nil_append]

theorem Stage.Readable.values_reading {stage : Stage} (h : stage.Readable) (key : String) :
    stage.reading.values key = stage.filters.map fun filter ↦
      (filter.values key).flatMap fun value ↦ (opt key value).found.map (·.2) := by
  rw [Stage.reading, Reader.Reading.values, List.map_map]
  apply List.map_congr_left
  intro filter hf
  rw [Function.comp_apply, (h.filters filter hf).filter_found, List.map_flatMap]

end Graph

end Montage
