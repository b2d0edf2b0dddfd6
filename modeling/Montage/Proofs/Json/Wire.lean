import Mathlib.Tactic.Simps.Basic
import Montage.Attempt
import Montage.Proofs.Json.Change
import Montage.Proofs.Numeric.Order

/-!
# Wire forms

A wire form is a way to write values of a type as documents and to read them back, together with the
laws that make the two agree. Wire forms are made from those of the parts, and so are their laws.
-/

namespace Montage.Json

open Montage.Numeric (Binary64 twoTo)

/-- How values of a type are written and read. What is written of a representable value is read as
that value, what is read from a valid document is representable, and no change to the objects of a
document changes what is read from it. -/
structure Wire (α : Type) where
  encode : α → Json
  decode : Decoder α
  layout : Layout
  Representable : α → Prop
  decode_encode : ∀ {a}, Representable a → decode (encode a) = .ok a
  representable_of_decode : ∀ {document a}, document.Valid → decode document = .ok a →
    Representable a
  decode_of_change : ∀ {document other a}, Change layout document other →
    decode document = .ok a → decode other = .ok a

variable {α β : Type}

/-- However many changes are made, the same value is read. -/
theorem Wire.decode_of_changed (wire : Wire α) {document other : Json} {a : α}
    (h : Changed wire.layout document other) (hd : wire.decode document = .ok a) :
    wire.decode other = .ok a := by
  induction h with
  | refl => exact hd
  | tail _ hc ih => exact wire.decode_of_change hc ih

/-- The writer and the reader of a wire form agree. -/
theorem Wire.interchange (wire : Wire α) :
    Interchange wire.encode wire.decode wire.layout wire.Representable where
  decode_encode := wire.decode_encode
  decode_of_changed ha hc := wire.decode_of_changed hc (wire.decode_encode ha)
  idempotent hv hd := by
    obtain ⟨a, ha, rfl⟩ := exists_of_map_eq_ok hd
    rw [wire.decode_encode (wire.representable_of_decode hv ha)]
    rfl

namespace Wire

/-! ### Scalars -/

@[simps]
def string : Wire String where
  encode := .string
  decode := decodeString
  layout := .scalar
  Representable _ := True
  decode_encode _ := rfl
  representable_of_decode _ _ := trivial
  decode_of_change := nofun

theorem string_ne_null (text : String) (_ : string.Representable text) :
    string.encode text ≠ .null :=
  Json.noConfusion

@[simps]
def bool : Wire Bool where
  encode := .bool
  decode := decodeBool
  layout := .scalar
  Representable _ := True
  decode_encode _ := rfl
  representable_of_decode _ _ := trivial
  decode_of_change := nofun

theorem bool_ne_null (value : Bool) (_ : bool.Representable value) : bool.encode value ≠ .null :=
  Json.noConfusion

private theorem isFinite_of_decodeReal {document : Json} {x : Binary64} (h : document.Valid)
    (hd : decodeReal document = .ok x) : x.isFinite = true := by
  cases h with
  | real hfinite =>
    obtain rfl := Except.ok.inj hd
    exact hfinite
  | integer hlow hhigh =>
    obtain rfl := Except.ok.inj hd
    have hword : (twoTo 63 : Int) ≤ twoTo 64 := Int.ofNat_le.mpr (by decide)
    exact Binary64.isFinite_ofInt_word (by omega)
  | null => cases hd
  | bool => cases hd
  | string => cases hd
  | array => cases hd
  | object => cases hd

theorem ofReal_of_isFinite {x : Binary64} (h : x.isFinite = true) : ofReal x = .real x := if_pos h

/-- Doubles, if they are finite. -/
@[simps]
def real : Wire Binary64 where
  encode := .ofReal
  decode := decodeReal
  layout := .scalar
  Representable x := x.isFinite = true
  decode_encode h := by
    rw [ofReal_of_isFinite h]
    rfl
  representable_of_decode := isFinite_of_decodeReal
  decode_of_change := nofun

theorem real_ne_null (x : Binary64) (h : real.Representable x) : real.encode x ≠ .null := by
  rw [real_encode, ofReal_of_isFinite h]
  exact Json.noConfusion

/-- Natural numbers below a bound. -/
@[simps]
def nat (bound : Nat) : Wire Nat where
  encode n := .integer n
  decode := decodeNat bound
  layout := .scalar
  Representable n := n < bound
  decode_encode {n} h := by
    rw [decodeNat, if_pos ⟨Int.natCast_nonneg n, h⟩]
    rfl
  representable_of_decode {document n} _ hd := by
    unfold decodeNat at hd
    split at hd
    · split at hd
      · next hn =>
        obtain rfl := Except.ok.inj hd
        exact hn.2
      · cases hd
    · cases hd
  decode_of_change := nofun

/-- Values with names of their own. -/
@[simps]
def choice (choices : List (String × α)) (name : α → String)
    (h : ∀ a, choices.lookup (name a) = some a) : Wire α where
  encode a := .string (name a)
  decode := decodeChoice choices
  layout := .scalar
  Representable _ := True
  decode_encode {a} _ := by
    rw [decodeChoice, decodeChoice.find, h]
  representable_of_decode _ _ := trivial
  decode_of_change := nofun

/-! ### Wire forms from others -/

/-- Values written and read as those of another type. -/
@[simps]
def map (wire : Wire α) (f : α → β) (g : β → α) (hfg : ∀ b, f (g b) = b)
    (hgf : ∀ a, wire.Representable a → wire.Representable (g (f a))) : Wire β where
  encode b := wire.encode (g b)
  decode document := f <$> wire.decode document
  layout := wire.layout
  Representable b := wire.Representable (g b)
  decode_encode {b} h := by
    rw [wire.decode_encode h]
    exact congrArg Except.ok (hfg b)
  representable_of_decode hv hd := by
    obtain ⟨a, ha, rfl⟩ := exists_of_map_eq_ok hd
    exact hgf a (wire.representable_of_decode hv ha)
  decode_of_change hc hd := by
    obtain ⟨a, ha, rfl⟩ := exists_of_map_eq_ok hd
    rw [wire.decode_of_change hc ha]
    rfl

theorem decodeOption_of_ne_null (decode : Decoder α) {document : Json} (h : document ≠ .null) :
    decodeOption decode document = some <$> decode document := by
  unfold decodeOption
  split
  · exact absurd rfl h
  · rfl

/-- The same values, written with changes. -/
def rewrite (wire : Wire α) (encode : α → Json)
    (h : ∀ a, wire.Representable a → Changed wire.layout (wire.encode a) (encode a)) : Wire α where
  encode := encode
  decode := wire.decode
  layout := wire.layout
  Representable := wire.Representable
  decode_encode ha := wire.decode_of_changed (h _ ha) (wire.decode_encode ha)
  representable_of_decode := wire.representable_of_decode
  decode_of_change := wire.decode_of_change

/-- Values that may be missing, where what is written of a value is never `null`. -/
@[simps]
def option (wire : Wire α) (h : ∀ a, wire.Representable a → wire.encode a ≠ .null) :
    Wire (Option α) where
  encode := .ofOption wire.encode
  decode := decodeOption wire.decode
  layout := .optional wire.layout
  Representable a := ∀ value ∈ a, wire.Representable value
  decode_encode {a} ha := by
    cases a with
    | none => rfl
    | some value =>
      show decodeOption wire.decode (wire.encode value) = _
      rw [decodeOption_of_ne_null _ (h value (ha value rfl)), wire.decode_encode (ha value rfl)]
      rfl
  representable_of_decode {document a} hv hd := by
    by_cases hn : document = .null
    · rw [hn] at hd
      obtain rfl := Except.ok.inj hd
      exact fun _ ↦ nofun
    · rw [decodeOption_of_ne_null _ hn] at hd
      obtain ⟨value, hvalue, rfl⟩ := exists_of_map_eq_ok hd
      rintro _ ⟨⟩
      exact wire.representable_of_decode hv hvalue
  decode_of_change {document other a} hc hd := by
    cases hc with
    | present hc =>
      obtain ⟨hn, hn'⟩ := hc.ne_null
      rw [decodeOption_of_ne_null _ hn] at hd
      obtain ⟨value, hvalue, rfl⟩ := exists_of_map_eq_ok hd
      rw [decodeOption_of_ne_null _ hn', wire.decode_of_change hc hvalue]
      rfl

/-! ### Lists -/

theorem mapM_eq_ok_iff {ε : Type} {f : α → Except ε β} {xs : List α} {ys : List β} :
    xs.mapM f = .ok ys ↔ List.Forall₂ (fun x y ↦ f x = .ok y) xs ys := by
  induction xs generalizing ys with
  | nil =>
    rw [List.mapM_nil]
    constructor
    · rintro ⟨⟩
      exact .nil
    · rintro ⟨⟩
      rfl
  | cons x xs ih =>
    rw [List.mapM_cons]
    constructor
    · intro h
      obtain ⟨y, hy, h⟩ := exists_of_bind_eq_ok h
      obtain ⟨rest, hrest, h⟩ := exists_of_bind_eq_ok h
      obtain rfl := Except.ok.inj h
      exact .cons hy (ih.mp hrest)
    · rintro (_ | ⟨hy, hrest⟩)
      rw [hy, ih.mpr hrest]
      rfl

theorem decodeList_eq_ok_iff {decode : Decoder α} {items : List Json} {values : List α} :
    decodeList decode (.array items true) = .ok values ↔
      List.Forall₂ (fun item value ↦ decode item = .ok value) items values := by
  rw [← mapM_eq_ok_iff]
  constructor
  · intro h
    obtain ⟨read, hread, h⟩ := exists_of_bind_eq_ok h
    obtain rfl := Except.ok.inj h
    exact hread
  · intro h
    rw [decodeList, h]
    rfl

/-- Lists of values. -/
@[simps]
def list (wire : Wire α) : Wire (List α) where
  encode values := .list (values.map wire.encode)
  decode := decodeList wire.decode
  layout := .list wire.layout
  Representable values := ∀ value ∈ values, wire.Representable value
  decode_encode {values} h := by
    refine decodeList_eq_ok_iff.mpr ?_
    induction values with
    | nil => exact .nil
    | cons value rest ih =>
      obtain ⟨hvalue, hrest⟩ := List.forall_mem_cons.mp h
      exact .cons (wire.decode_encode hvalue) (ih hrest)
  representable_of_decode {document values} hv hd := by
    cases hv with
    | array hitems =>
      have hread := decodeList_eq_ok_iff.mp hd
      clear hd
      induction hread with
      | nil => exact List.forall_mem_nil _
      | cons hvalue _ ih =>
        obtain ⟨hitem, hrest⟩ := List.forall_mem_cons.mp hitems
        exact List.forall_mem_cons.mpr
          ⟨wire.representable_of_decode hitem hvalue, ih hrest⟩
    | null => cases hd
    | bool => cases hd
    | integer => cases hd
    | real => cases hd
    | string => cases hd
    | object => cases hd
  decode_of_change {document other values} hc hd := by
    cases hc with
    | item before after hc =>
      have hread := decodeList_eq_ok_iff.mp hd
      refine decodeList_eq_ok_iff.mpr ?_
      clear hd
      induction before generalizing values with
      | nil =>
        cases hread with
        | cons hvalue hrest => exact .cons (wire.decode_of_change hc hvalue) hrest
      | cons item before ih =>
        cases hread with
        | cons hitem hrest => exact .cons hitem (ih hrest)

end Wire

end Montage.Json
