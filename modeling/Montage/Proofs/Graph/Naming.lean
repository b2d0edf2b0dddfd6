import Mathlib.Data.List.Nodup
import Montage.Proofs.Graph.LabelText

/-!
# Names for labels

A supply of names looks for a free one among the base of a request and its suffixed forms. What was
handed out before are the texts of labels, so a name is taken exactly if the same request was
answered with it: the search ends, at the suffix that counts the earlier answers. The pool of labels
gives the same names without a search.
-/

namespace Montage.Graph

open Montage.Numeric (twoTo)

theorem text_signal_eq (request : LabelRequest) (copy : Nat) :
    (Label.signal request copy).text = request.name ++ copySuffix copy := rfl

/-- The characters of names. -/
def isNameChar (c : Char) : Bool := c.isLower || c.isDigit || c == '_'

/-- Every signal is named by lower-case letters, digits and underscores. -/
theorem isNameChar_of_mem_text {request : LabelRequest} {copy : Nat} {c : Char}
    (h : c ∈ (Label.signal request copy).text.toList) : isNameChar c = true := by
  obtain ⟨role, index⟩ := request
  rw [text_signal] at h
  have hdigit : ∀ n : Nat, c ∈ (toString n).toList → isNameChar c = true := by
    intro n hc
    simp [isNameChar, isDigit_of_mem_toString hc]
  have hrole : ∀ c ∈ role.name.toList, isNameChar c = true := by
    apply List.all_eq_true.mp
    cases role <;> decide
  rcases List.mem_append.mp h with h | h
  · exact hrole c h
  · rcases List.mem_append.mp h with h | h
    · simp [isNameChar, isDigit_of_mem_indexText h]
    · unfold copyText at h
      split at h
      · cases h
      · rcases List.mem_cons.mp h with rfl | h
        · rfl
        · exact hdigit copy h

/-! ### Reading pads back -/

/-- Only pads have a colon in their text. -/
theorem isPadText_text (l : Label) : Label.isPadText l.text = l.isPad := by
  cases l with
  | pad input track => cases track <;> simp [Label.isPadText, Label.text, Label.isPad]
  | signal request copy =>
    have hno : ':' ∉ (Label.signal request copy).text.toList := by
      intro hm
      exact absurd (isNameChar_of_mem_text hm) (by decide)
    simp [Label.isPadText, hno, Label.isPad]

/-- A number of 64 bits is what its digits say. -/
theorem word?_digits {n : Nat} (h : n < twoTo 64) : Label.word? (toString n).toList = some n := by
  have hplus : (toString n).toList.head? ≠ some '+' := by
    intro hhead
    exact absurd (isDigit_of_mem_toString (List.mem_of_head? hhead)) (by decide)
  have hdigits : (toString n).toList.all Char.isDigit = true :=
    List.all_eq_true.mpr fun _ hc ↦ isDigit_of_mem_toString hc
  have hvalue : Nat.ofDigitChars 10 (toString n).toList 0 = n := by
    rw [Nat.toString_eq_repr, Nat.toList_repr, Nat.ofDigitChars_ten_toDigits]
  simp only [Label.word?, if_neg hplus, hvalue]
  rw [if_pos ⟨toString_ne_nil n, hdigits, h⟩]

/-- The file of a pad can be read back from its text. -/
theorem inputOfText?_text_pad {input : Nat} (track : Track) (h : input < twoTo 64) :
    Label.inputOfText? (Label.pad input track).text = some input := by
  have hfront : (Label.pad input track).text.toList.takeWhile (· != ':') =
      (toString input).toList := by
    have hcolon : (trackText track).takeWhile (· != ':') = [] := by cases track <;> rfl
    rw [text_pad, List.takeWhile_append_of_pos, hcolon, List.append_nil]
    intro c hc
    rw [bne_iff_ne]
    rintro rfl
    exact absurd (isDigit_of_mem_toString hc) (by decide)
  rw [Label.inputOfText?, isPadText_text, hfront, word?_digits h]
  rfl

/-! ### Names of a supply -/

namespace NameSupply

/-- The names are the texts of the labels that answered these requests. -/
def Records (supply : NameSupply) (answered : List LabelRequest) : Prop :=
  ∀ name, name ∈ supply.issued ↔
    ∃ request copy, copy < answered.count request ∧ name = (Label.signal request copy).text

variable {supply : NameSupply} {answered : List LabelRequest} {request : LabelRequest}

theorem records_nil : Records {} [] := by
  intro name
  simp

/-- A copy is taken if the request was answered more often than that. -/
theorem Records.mem_iff (h : supply.Records answered) {copy : Nat} :
    (Label.signal request copy).text ∈ supply.issued ↔ copy < answered.count request := by
  rw [h]
  constructor
  · rintro ⟨r, c, hc, he⟩
    obtain ⟨rfl, rfl⟩ := Label.signal.inj (Label.text_injective he)
    exact hc
  · intro hc
    exact ⟨request, copy, hc, rfl⟩

/-- From any copy on, the search goes up to the first that is free. -/
theorem Records.search_eq (h : supply.Records answered) (request : LabelRequest) {copy : Nat}
    (hc : copy ≤ answered.count request) :
    search supply.issued request.name copy =
      (Label.signal request (answered.count request)).text := by
  induction hk : answered.count request - copy generalizing copy with
  | zero =>
    obtain rfl : copy = answered.count request := by omega
    rw [search, ← text_signal_eq, if_neg (mt h.mem_iff.mp (Nat.lt_irrefl _))]
  | succ k ih =>
    rw [search, ← text_signal_eq, if_pos (h.mem_iff.mpr (by omega))]
    exact ih (by omega) (by omega)

/-- A request is answered with the name that counts its earlier answers. -/
theorem Records.reserve_eq (h : supply.Records answered) :
    supply.reserve request.name =
      ((Label.signal request (answered.count request)).text,
        ⟨(Label.signal request (answered.count request)).text :: supply.issued⟩) := by
  rw [reserve, h.search_eq request (Nat.zero_le _)]

/-- Then one more name is recorded. -/
theorem Records.cons (h : supply.Records answered) (request : LabelRequest) :
    Records ⟨(Label.signal request (answered.count request)).text :: supply.issued⟩
      (request :: answered) := by
  intro name
  simp only [List.mem_cons, h name, List.count_cons, beq_iff_eq]
  constructor
  · rintro (rfl | ⟨r, c, hc, rfl⟩)
    · exact ⟨request, _, by simp, rfl⟩
    · exact ⟨r, c, by omega, rfl⟩
  · rintro ⟨r, c, hc, rfl⟩
    by_cases hr : request = r
    · subst hr
      by_cases hlast : c = answered.count request
      · exact Or.inl (by rw [hlast])
      · exact Or.inr ⟨request, c, by simp at hc; omega, rfl⟩
    · exact Or.inr ⟨r, c, by simpa [hr] using hc, rfl⟩

/-- A supply that recorded what a pool answered answers every list of requests, with the texts of
the labels of the pool, and records these answers too. -/
theorem Records.exists_reserveAll (requests : List LabelRequest) {pool : LabelPool}
    (h : supply.Records pool.issued) :
    ∃ after, reserveAll requests supply = ((pool.takeAll requests).1.map Label.text, after) ∧
      after.Records (pool.takeAll requests).2.issued ∧
      after.issued = ((pool.takeAll requests).1.map Label.text).reverse ++ supply.issued := by
  induction requests generalizing supply pool with
  | nil => exact ⟨supply, rfl, h, rfl⟩
  | cons request rest ih =>
    obtain ⟨after, hrest, hrecords, hissued⟩ :=
      ih (show Records _ (pool.take request).2.issued from h.cons request)
    refine ⟨after, ?_, hrecords, ?_⟩
    · rw [reserveAll, h.reserve_eq]
      dsimp only
      rw [hrest]
      rfl
    · rw [hissued]
      simp [LabelPool.takeAll, LabelPool.take]

end NameSupply

namespace LabelPool

variable {pool : LabelPool} {requests : List LabelRequest}

/-- Each request is answered with the label that counts its earlier answers. -/
theorem getElem?_takeAll (requests : List LabelRequest) (pool : LabelPool) (i : Nat) :
    (pool.takeAll requests).1[i]? = requests[i]?.map fun request ↦
      .signal request ((requests.take i).count request + pool.issued.count request) := by
  induction requests generalizing pool i with
  | nil => rfl
  | cons first rest ih =>
    cases i with
    | zero => simp [takeAll, take]
    | succ i =>
      have hrest : (pool.takeAll (first :: rest)).1[i + 1]? =
        ((pool.take first).2.takeAll rest).1[i]? := rfl
      rw [hrest, ih]
      simp only [take, List.getElem?_cons_succ, List.take_succ_cons, List.count_cons]
      congr 1
      funext request
      congr 1
      omega

theorem length_takeAll (requests : List LabelRequest) (pool : LabelPool) :
    (pool.takeAll requests).1.length = requests.length := by
  induction requests generalizing pool with
  | nil => rfl
  | cons first rest ih => simp [takeAll, ih]

theorem size_takeAll (requests : List LabelRequest) (pool : LabelPool) :
    (pool.takeAll requests).2.size = requests.length + pool.size := by
  induction requests generalizing pool with
  | nil => simp [takeAll]
  | cons first rest ih =>
    simp [takeAll, ih, size_take]
    omega

/-- The labels are copies that the pool did not hand out before. -/
theorem exists_of_mem_takeAll {l : Label} (h : l ∈ (pool.takeAll requests).1) :
    ∃ request copy, l = .signal request copy ∧ pool.issued.count request ≤ copy := by
  obtain ⟨i, hi⟩ := List.mem_iff_getElem?.mp h
  rw [getElem?_takeAll] at hi
  obtain ⟨request, -, rfl⟩ := Option.map_eq_some_iff.mp hi
  exact ⟨request, _, rfl, by omega⟩

theorem nodup_takeAll (requests : List LabelRequest) (pool : LabelPool) :
    (pool.takeAll requests).1.Nodup := by
  induction requests generalizing pool with
  | nil => exact .nil
  | cons first rest ih =>
    refine List.nodup_cons.mpr ⟨fun hm ↦ ?_, ih _⟩
    obtain ⟨request, copy, he, hc⟩ := exists_of_mem_takeAll hm
    obtain ⟨rfl, rfl⟩ := Label.signal.inj he
    simp only [List.count_cons_self] at hc
    omega

end LabelPool

/-- What names are like that answer requests in order. -/
structure NameSupply.Answers (requests : List LabelRequest) (names : List String) : Prop where
  /-- The first answer to a request is its name, and behind `k` earlier answers it has the suffix
  `_k`. Nothing else that was requested matters. -/
  named : ∀ (i : Nat) (request : LabelRequest), requests[i]? = some request →
    names[i]? = some (request.name ++ copySuffix ((requests.take i).count request))
  length : names.length = requests.length
  nodup : names.Nodup
  characters : ∀ name ∈ names, ∀ c ∈ name.toList, isNameChar c = true
  /-- No name is that of a pad. -/
  no_pad : ∀ name ∈ names, ∀ n, name ≠ (Label.ofVideo n).text ∧ name ≠ (Label.ofAudio n).text

/-- What a pool answers, as text. -/
theorem LabelPool.answers_takeAll (requests : List LabelRequest) :
    NameSupply.Answers requests ((takeAll requests {}).1.map Label.text) where
  named i request hi := by
    rw [List.getElem?_map, getElem?_takeAll, hi]
    rfl
  length := by rw [List.length_map, length_takeAll]
  nodup := (nodup_takeAll requests {}).map Label.text_injective
  characters name hname c hc := by
    obtain ⟨l, hl, rfl⟩ := List.mem_map.mp hname
    obtain ⟨request, copy, rfl, -⟩ := exists_of_mem_takeAll hl
    exact isNameChar_of_mem_text hc
  no_pad name hname n := by
    obtain ⟨l, hl, rfl⟩ := List.mem_map.mp hname
    obtain ⟨request, copy, rfl, -⟩ := exists_of_mem_takeAll hl
    constructor <;> exact fun he ↦ Label.noConfusion (Label.text_injective he)

/-- Every list of requests is answered, by names that never collide and by the labels of a pool with
these names. Pads are read back. -/
theorem names_never_collide (requests : List LabelRequest) :
    (∃ names supply, NameSupply.reserveAll requests {} = (names, supply) ∧
      NameSupply.Answers requests names ∧ supply.size = requests.length ∧
      (LabelPool.takeAll requests {}).1.map Label.text = names ∧
      (LabelPool.takeAll requests {}).2.size = requests.length) ∧
    ∀ n < twoTo 64, Label.inputOfText? (Label.ofVideo n).text = some n ∧
      Label.inputOfText? (Label.ofAudio n).text = some n := by
  constructor
  · obtain ⟨supply, hrun, -, hissued⟩ := NameSupply.records_nil.exists_reserveAll requests
    refine ⟨_, supply, hrun, LabelPool.answers_takeAll requests, ?_, rfl, ?_⟩
    · simp [NameSupply.size, hissued, LabelPool.length_takeAll]
    · rw [LabelPool.size_takeAll]
      rfl
  · intro n hn
    exact ⟨inputOfText?_text_pad .video hn, inputOfText?_text_pad .audio hn⟩

/-- Overlays and their sources, whose names begin alike, one of them requested twice. -/
theorem names_never_collide_overlays :
    ∃ supply, NameSupply.reserveAll
      [⟨.overlay, some 1⟩, ⟨.overlaySource, some 1⟩, ⟨.source, none⟩, ⟨.overlay, some 1⟩] {} =
        (["ovl1", "ovlsrc1", "src", "ovl1_1"], supply) ∧ supply.size = 4 ∧
      7 < twoTo 64 ∧ Label.inputOfText? "7:v" = some 7 := by
  obtain ⟨⟨names, supply, hrun, hanswers, hsize, -, -⟩, hpads⟩ := names_never_collide
    [⟨.overlay, some 1⟩, ⟨.overlaySource, some 1⟩, ⟨.source, none⟩, ⟨.overlay, some 1⟩]
  have hnames : names = ["ovl1", "ovlsrc1", "src", "ovl1_1"] := by
    apply List.ext_getElem?
    intro i
    match i with
    | 0 => exact hanswers.named 0 _ rfl
    | 1 => exact hanswers.named 1 _ rfl
    | 2 => exact hanswers.named 2 _ rfl
    | 3 => exact hanswers.named 3 _ rfl
    | i + 4 => rw [List.getElem?_eq_none (by rw [hanswers.length]; simp)]; rfl
  rw [hnames] at hrun
  exact ⟨supply, hrun, hsize, by decide, (hpads 7 (by decide)).1⟩

end Montage.Graph
