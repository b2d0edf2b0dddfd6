import Mathlib.Logic.Function.Basic
import Montage.Graph.Label
import Std.Data.String.ToNat

/-!
# The texts of labels

A label can be read back from its text: a pad begins with the number of its file, a signal with the
letters of its role, and its number and its copy follow. So different labels have different texts.
-/

namespace Montage.Graph

/-- A text splits in one way into characters of a kind and a rest that begins with another. -/
private theorem append_inj_of_kind {p : Char → Bool} {xs xs' ys ys' : List Char}
    (hx : ∀ c ∈ xs, p c = true) (hx' : ∀ c ∈ xs', p c = true)
    (hy : ∀ c ∈ ys.head?, p c = false) (hy' : ∀ c ∈ ys'.head?, p c = false)
    (h : xs ++ ys = xs' ++ ys') : xs = xs' ∧ ys = ys' := by
  have hnil : ∀ zs : List Char, (∀ c ∈ zs.head?, p c = false) → zs.takeWhile p = [] := by
    intro zs hz
    cases zs with
    | nil => rfl
    | cons c rest => simp [hz c rfl]
  have ht := congrArg (List.takeWhile p) h
  rw [List.takeWhile_append_of_pos hx, List.takeWhile_append_of_pos hx', hnil ys hy, hnil ys' hy',
    List.append_nil, List.append_nil] at ht
  subst ht
  exact ⟨rfl, List.append_cancel_left h⟩

theorem isDigit_of_mem_toString {n : Nat} {c : Char} (h : c ∈ (toString n).toList) :
    c.isDigit = true := by
  rw [Nat.toString_eq_repr, Nat.toList_repr] at h
  exact Nat.isDigit_of_mem_toDigits (by decide) (by decide) h

theorem toString_ne_nil (n : Nat) : (toString n).toList ≠ [] := by
  rw [Nat.toString_eq_repr, Nat.toList_repr]
  exact Nat.toDigits_ne_nil

private theorem toString_toList_inj {m n : Nat} (h : (toString m).toList = (toString n).toList) :
    m = n :=
  Nat.repr_injective (String.toList_injective h)

/-- The number of a signal in its text. -/
def indexText : Option Nat → List Char
  | some i => (toString i).toList
  | none => []

/-- The copy of a signal in its text. -/
def copyText (copy : Nat) : List Char :=
  if copy = 0 then [] else '_' :: (toString copy).toList

theorem text_signal (role : Role) (index : Option Nat) (copy : Nat) :
    (Label.signal ⟨role, index⟩ copy).text.toList =
      role.name.toList ++ (indexText index ++ copyText copy) := by
  cases index <;> by_cases hc : copy = 0 <;>
    simp [Label.text, indexText, copyText, hc, String.toList_append]

theorem isDigit_of_mem_indexText {index : Option Nat} {c : Char}
    (h : c ∈ indexText index) : c.isDigit = true := by
  cases index with
  | none => exact absurd h List.not_mem_nil
  | some i => exact isDigit_of_mem_toString h

private theorem indexText_inj {a b : Option Nat} (h : indexText a = indexText b) : a = b := by
  cases a with
  | none =>
    cases b with
    | none => rfl
    | some j => exact absurd h.symm (toString_ne_nil j)
  | some i =>
    cases b with
    | none => exact absurd h (toString_ne_nil i)
    | some j => exact congrArg some (toString_toList_inj h)

/-- The text of a copy begins with an underscore, if there is one. -/
private theorem eq_of_mem_head_copyText {copy : Nat} {c : Char} (h : c ∈ (copyText copy).head?) :
    c = '_' := by
  unfold copyText at h
  split at h
  · cases h
  · exact (Option.some.inj h).symm

private theorem isDigit_head_copyText {copy : Nat} {c : Char} (h : c ∈ (copyText copy).head?) :
    c.isDigit = false := by
  rw [eq_of_mem_head_copyText h]
  rfl

private theorem copyText_inj {m n : Nat} (h : copyText m = copyText n) : m = n := by
  unfold copyText at h
  split at h
  · next hm =>
    split at h
    · next hn => rw [hm, hn]
    · cases h
  · split at h
    · cases h
    · exact toString_toList_inj (List.cons.inj h).2

/-- The characters that the number and the copy of a signal do not begin with. -/
private def isRoleChar (c : Char) : Bool := !c.isDigit && c != '_'

private theorem isRoleChar_of_mem_name (role : Role) :
    ∀ c ∈ role.name.toList, isRoleChar c = true := by
  apply List.all_eq_true.mp
  cases role <;> decide

private theorem name_ne_nil (role : Role) : role.name.toList ≠ [] := by
  cases role <;> decide

private theorem name_inj {a b : Role} (h : a.name.toList = b.name.toList) : a = b := by
  cases a <;> cases b <;> first | rfl | exact absurd h (by decide)

private theorem isRoleChar_head (index : Option Nat) (copy : Nat) :
    ∀ c ∈ (indexText index ++ copyText copy).head?, isRoleChar c = false := by
  intro c hc
  cases hi : indexText index with
  | nil =>
    rw [hi, List.nil_append] at hc
    rw [eq_of_mem_head_copyText hc]
    rfl
  | cons d rest =>
    rw [hi] at hc
    obtain rfl : d = c := Option.some.inj hc
    have hd : d.isDigit = true := isDigit_of_mem_indexText (hi ▸ List.mem_cons_self)
    simp [isRoleChar, hd]

private theorem text_signal_inj {a b : LabelRequest} {m n : Nat}
    (h : (Label.signal a m).text = (Label.signal b n).text) :
    Label.signal a m = .signal b n := by
  obtain ⟨r, i⟩ := a
  obtain ⟨s, j⟩ := b
  have ht := congrArg String.toList h
  rw [text_signal, text_signal] at ht
  obtain ⟨hname, hrest⟩ := append_inj_of_kind (isRoleChar_of_mem_name r)
    (isRoleChar_of_mem_name s) (isRoleChar_head i m) (isRoleChar_head j n) ht
  obtain ⟨hindex, hcopy⟩ := append_inj_of_kind (fun _ ↦ isDigit_of_mem_indexText)
    (fun _ ↦ isDigit_of_mem_indexText) (fun _ ↦ isDigit_head_copyText)
    (fun _ ↦ isDigit_head_copyText) hrest
  rw [name_inj hname, indexText_inj hindex, copyText_inj hcopy]

/-- The track of a pad in its text. -/
def trackText : Track → List Char
  | .video => [':', 'v']
  | .audio => [':', 'a']

theorem text_pad (input : Nat) (track : Track) :
    (Label.pad input track).text.toList = (toString input).toList ++ trackText track := by
  cases track <;> simp [Label.text, trackText, String.toList_append]

private theorem text_pad_inj {i j : Nat} {s t : Track}
    (h : (Label.pad i s).text = (Label.pad j t).text) : Label.pad i s = .pad j t := by
  have ht := congrArg String.toList h
  rw [text_pad, text_pad] at ht
  have htrack : ∀ t, ∀ c ∈ (trackText t).head?, c.isDigit = false := by
    intro t c hc
    cases t <;> (obtain rfl : ':' = c := Option.some.inj hc) <;> rfl
  obtain ⟨hi, hs⟩ := append_inj_of_kind (fun _ ↦ isDigit_of_mem_toString)
    (fun _ ↦ isDigit_of_mem_toString) (htrack s) (htrack t) ht
  rw [toString_toList_inj hi]
  cases s <;> cases t <;> first | rfl | exact absurd hs (by decide)

/-- A pad begins with a digit and a signal does not. -/
private theorem text_pad_ne_text_signal (input : Nat) (track : Track) (request : LabelRequest)
    (copy : Nat) : (Label.pad input track).text ≠ (Label.signal request copy).text := by
  obtain ⟨role, index⟩ := request
  intro h
  have ht := congrArg String.toList h
  rw [text_pad, text_signal] at ht
  obtain ⟨d, ds, hd⟩ := List.exists_cons_of_ne_nil (toString_ne_nil input)
  obtain ⟨c, cs, hc⟩ := List.exists_cons_of_ne_nil (name_ne_nil role)
  rw [hd, hc] at ht
  have hdc : d = c := (List.cons.inj ht).1
  have hdigit : d.isDigit = true := isDigit_of_mem_toString (hd ▸ List.mem_cons_self)
  have hrole := isRoleChar_of_mem_name role c (hc ▸ List.mem_cons_self)
  simp [isRoleChar, ← hdc, hdigit] at hrole

/-- Different labels have different texts. -/
theorem Label.text_injective : Function.Injective Label.text := by
  intro a b h
  cases a with
  | pad i s =>
    cases b with
    | pad j t => exact text_pad_inj h
    | signal request copy => exact absurd h (text_pad_ne_text_signal i s request copy)
  | signal request copy =>
    cases b with
    | pad j t => exact absurd h.symm (text_pad_ne_text_signal j t request copy)
    | signal request' copy' => exact text_signal_inj h

/-- No label closes the brackets it stands in. -/
theorem Label.ne_of_mem_text {l : Label} {c : Char} (h : c ∈ l.text.toList) : c ≠ ']' := by
  rintro rfl
  have hdigit : Char.isDigit ']' ≠ true := by decide
  cases l with
  | pad input track =>
    rw [text_pad] at h
    rcases List.mem_append.mp h with h | h
    · exact hdigit (isDigit_of_mem_toString h)
    · cases track <;> exact absurd h (by decide)
  | signal request copy =>
    obtain ⟨role, index⟩ := request
    rw [text_signal] at h
    rcases List.mem_append.mp h with h | h
    · cases role <;> exact absurd h (by decide)
    · rcases List.mem_append.mp h with h | h
      · exact hdigit (isDigit_of_mem_indexText h)
      · unfold copyText at h
        split at h
        · cases h
        · rcases List.mem_cons.mp h with h | h
          · exact absurd h (by decide)
          · exact hdigit (isDigit_of_mem_toString h)

end Montage.Graph
