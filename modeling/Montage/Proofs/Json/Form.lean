import Mathlib.Data.List.Nodup
import Mathlib.Data.List.Pairwise
import Mathlib.Tactic.Simps.Basic
import Montage.Proofs.Json.Wire

/-!
# Forms

A form is a record type on the wire: a blank record and slots that are filled in one by one. What
is read from an object is settled slot by slot, by the one member with its name or by the blank, so
it depends neither on the order of the members nor on members that belong to no slot.
-/

namespace Montage.Json

/-- A field of a record, with the wire form of its values. -/
structure Slot (α : Type) where
  name : String
  required : Bool
  {Value : Type}
  wire : Wire Value
  get : α → Value
  set : Value → α → α

/-- A record type on the wire. Its slots have names of their own, do not get in each other's way,
and make up the record. -/
structure Form (α : Type) where
  blank : α
  slots : List (Slot α)
  names_nodup : (slots.map (·.name)).Nodup := by decide
  get_set : ∀ slot ∈ slots, ∀ value record, slot.get (slot.set value record) = value := by
    simp only [List.forall_mem_cons, List.not_mem_nil, IsEmpty.forall_iff, implies_true, and_self]
  frame : slots.Pairwise fun slot other ↦
    (∀ value record, other.get (slot.set value record) = other.get record) ∧
      ∀ value record, slot.get (other.set value record) = slot.get record := by
    simp only [List.pairwise_cons, List.forall_mem_cons, List.not_mem_nil, IsEmpty.forall_iff,
      List.Pairwise.nil, implies_true, and_self]
  ext : ∀ {record other}, (∀ slot ∈ slots, slot.get record = slot.get other) → record = other := by
    rintro ⟨⟩ ⟨⟩ h
    simpa using h
  blank_representable : ∀ slot ∈ slots, slot.wire.Representable (slot.get blank)

namespace Slot

variable {α : Type}

/-- The slot as readers of records know it. -/
def field (slot : Slot α) : RecordField α where
  name := slot.name
  presence := bif slot.required then .required else .defaulted
  put value record := (slot.set · record) <$> slot.wire.decode value

/-- The members that belong to a slot. -/
def own (slot : Slot α) (members : List (Option String × Json)) : List (Option String × Json) :=
  members.filter (·.1 == some slot.name)

/-- How an object with these members fills a slot of `result`: with the value of the only member
that belongs to it and is not seen before, or as it was in `record` if there is none. -/
inductive Fills (slot : Slot α) (members : List (Option String × Json)) (seen : List String)
    (record result : α) : Prop
  | absent : slot.own members = [] → slot.get result = slot.get record →
      Fills slot members seen record result
  | present {value : Json} : slot.own members = [(some slot.name, value)] → slot.name ∉ seen →
      slot.wire.decode value = .ok (slot.get result) → Fills slot members seen record result

variable {slot : Slot α} {members others before after : List (Option String × Json)}
  {seen : List String} {record other result : α} {name : String} {value : Json}

theorem own_append (slot : Slot α) (before after : List (Option String × Json)) :
    slot.own (before ++ after) = slot.own before ++ slot.own after := List.filter_append ..

theorem own_cons_self (slot : Slot α) (value : Json) (after : List (Option String × Json)) :
    slot.own ((some slot.name, value) :: after) = (some slot.name, value) :: slot.own after :=
  List.filter_cons_of_pos (beq_self_eq_true _)

theorem own_cons_of_ne (h : slot.name ≠ name) :
    slot.own ((some name, value) :: after) = slot.own after := by
  refine List.filter_cons_of_neg ?_
  rw [beq_iff_eq]
  exact fun heq ↦ h (Option.some.inj heq).symm

theorem own_insert_of_ne (h : slot.name ≠ name) :
    slot.own (before ++ (some name, value) :: after) = slot.own (before ++ after) := by
  rw [own_append, own_append, own_cons_of_ne h]

theorem own_eq_nil (h : ∀ member ∈ members, member.1 ≠ some slot.name) : slot.own members = [] :=
  List.filter_eq_nil_iff.mpr fun member hm ↦ by simpa using h member hm

/-- A slot with a member of its own is filled from it. -/
theorem Fills.of_own
    (h : slot.Fills (before ++ (some slot.name, value) :: after) seen record result) :
    slot.own before = [] ∧ slot.own after = [] ∧ slot.name ∉ seen ∧
      slot.wire.decode value = .ok (slot.get result) := by
  cases h with
  | absent hown =>
    rw [own_append, own_cons_self, List.append_eq_nil_iff] at hown
    exact absurd hown.2 (List.cons_ne_nil _ _)
  | present hown hseen hd =>
    rw [own_append, own_cons_self, List.append_eq_singleton_iff] at hown
    rcases hown with ⟨hbefore, hrest⟩ | ⟨-, hrest⟩
    · obtain ⟨hvalue, hafter⟩ := List.cons.inj hrest
      obtain ⟨-, rfl⟩ := Prod.mk.inj hvalue
      exact ⟨hbefore, hafter, hseen, hd⟩
    · exact absurd hrest (List.cons_ne_nil _ _)

theorem Fills.of_own_cons (h : slot.Fills ((some slot.name, value) :: after) seen record result) :
    slot.own after = [] ∧ slot.name ∉ seen ∧ slot.wire.decode value = .ok (slot.get result) :=
  (of_own (List.nil_append _ ▸ h : slot.Fills ([] ++ _) seen record result)).2

/-- Only the members that belong to the slot count. -/
theorem Fills.congr (h : slot.Fills members seen record result)
    (hown : slot.own others = slot.own members) : slot.Fills others seen record result := by
  cases h with
  | absent hnone hr => exact .absent (hown.trans hnone) hr
  | present hone hs hd => exact .present (hown.trans hone) hs hd

/-- In a slot that is filled, the order of the members does not matter. -/
theorem Fills.own_eq_of_perm (h : slot.Fills members seen record result)
    (hp : members.Perm others) : slot.own others = slot.own members := by
  have hown : (slot.own members).Perm (slot.own others) := hp.filter _
  cases h with
  | absent hnone =>
    rw [hnone] at hown ⊢
    exact List.nil_perm.mp hown
  | present hone =>
    rw [hone] at hown ⊢
    exact List.singleton_perm.mp hown |>.symm

/-- What belongs to another slot changes nothing. -/
theorem fills_cons_of_ne (h : slot.name ≠ name) :
    slot.Fills ((some name, value) :: after) seen record result ↔
      slot.Fills after seen record result := by
  have hown : slot.own ((some name, value) :: after) = slot.own after := own_cons_of_ne h
  constructor
  · rintro (⟨hnone, hr⟩ | ⟨hone, hs, hd⟩)
    · exact .absent (hown ▸ hnone) hr
    · exact .present (hown ▸ hone) hs hd
  · rintro (⟨hnone, hr⟩ | ⟨hone, hs, hd⟩)
    · exact .absent (hown ▸ hnone) hr
    · exact .present (hown ▸ hone) hs hd

/-- Another slot may have been filled before. -/
theorem fills_seen_of_ne (h : slot.name ≠ name) (hget : slot.get other = slot.get record) :
    slot.Fills members (name :: seen) other result ↔ slot.Fills members seen record result := by
  have hseen : slot.name ∉ name :: seen ↔ slot.name ∉ seen := by
    rw [List.mem_cons, not_or]
    exact and_iff_right h
  constructor
  · rintro (⟨hown, hr⟩ | ⟨hown, hs, hd⟩)
    · exact .absent hown (hr.trans hget)
    · exact .present hown (hseen.mp hs) hd
  · rintro (⟨hown, hr⟩ | ⟨hown, hs, hd⟩)
    · exact .absent hown (hr.trans hget.symm)
    · exact .present hown (hseen.mpr hs) hd

/-- What belongs to the slot fills it for good. -/
theorem fills_cons_self (hs : slot.name ∉ seen)
    (hd : slot.wire.decode value = .ok (slot.get other)) :
    slot.Fills ((some slot.name, value) :: after) seen record result ↔
      slot.Fills after (slot.name :: seen) other result := by
  constructor
  · intro h
    obtain ⟨hafter, -, hd'⟩ := h.of_own_cons
    exact .absent hafter (Except.ok.inj (hd'.symm.trans hd))
  · rintro (⟨hown, hr⟩ | ⟨-, hseen, -⟩)
    · exact .present ((own_cons_self ..).trans (congrArg _ hown)) hs (hr ▸ hd)
    · exact absurd List.mem_cons_self hseen

end Slot

namespace Form

variable {α : Type} (form : Form α) {slot other : Slot α} {seen : List String} {name : String}
  {value : Json} {members rest : List (Option String × Json)} {record result : α}

/-- Slots are told apart by their names. -/
theorem eq_of_name_eq (hs : slot ∈ form.slots) (ho : other ∈ form.slots)
    (h : slot.name = other.name) : slot = other :=
  List.inj_on_of_nodup_map form.names_nodup hs ho h

/-- Filling in one slot leaves the others as they are. -/
theorem get_set_of_ne (hs : slot ∈ form.slots) (ho : other ∈ form.slots)
    (h : other.name ≠ slot.name) (value : slot.Value) (record : α) :
    other.get (slot.set value record) = other.get record := by
  have hsymm : Std.Symm fun slot other : Slot α ↦
      (∀ value record, other.get (slot.set value record) = other.get record) ∧
        ∀ value record, slot.get (other.set value record) = slot.get record :=
    ⟨fun _ _ h ↦ ⟨h.2, h.1⟩⟩
  have hne : slot ≠ other := fun heq ↦ h (congrArg Slot.name heq).symm
  exact (form.frame.forall hs ho hne).1 value record

def fields : List (RecordField α) := form.slots.map Slot.field

/-! ### Members of objects -/

/-- All members have names, and those that belong to no slot are well formed. -/
def Admits (members : List (Option String × Json)) : Prop :=
  ∀ member ∈ members, ∃ name, member.1 = some name ∧
    ((∀ slot ∈ form.slots, slot.name ≠ name) → member.2.isComplete = true)

private theorem find?_fields (name : String) :
    form.fields.find? (·.name == name) = (form.slots.find? (·.name == name)).map Slot.field :=
  List.find?_map ..

/-- A member that belongs to a slot is put into it. -/
private theorem putMembers_cons_of_slot (hs : slot ∈ form.slots) (value : Json)
    (rest : List (Option String × Json)) (seen : List String) (record : α) :
    putMembers form.fields ((some slot.name, value) :: rest) seen record =
      if slot.name ∈ seen then .error .mismatched
      else slot.wire.decode value >>= fun read ↦
        putMembers form.fields rest (slot.name :: seen) (slot.set read record) := by
  have hfind : form.slots.find? (·.name == slot.name) = some slot := by
    cases hf : form.slots.find? (·.name == slot.name) with
    | none => exact absurd (beq_self_eq_true _) (List.find?_eq_none.mp hf slot hs)
    | some found =>
      have hname := List.find?_some hf
      rw [form.eq_of_name_eq (List.mem_of_find?_eq_some hf) hs (eq_of_beq hname)]
  rw [putMembers, find?_fields, hfind]
  show (if slot.name ∈ seen then _ else ((slot.set · record) <$> slot.wire.decode value) >>= _) = _
  cases slot.wire.decode value <;> rfl

/-- A member that belongs to no slot is passed over if it is well formed. -/
private theorem putMembers_cons_of_unknown (h : ∀ slot ∈ form.slots, slot.name ≠ name)
    (value : Json) (rest : List (Option String × Json)) (seen : List String) (record : α) :
    putMembers form.fields ((some name, value) :: rest) seen record =
      if value.isComplete then putMembers form.fields rest seen record else .error .malformed := by
  have hfind : form.slots.find? (·.name == name) = none :=
    List.find?_eq_none.mpr fun slot hs ↦ by simpa using h slot hs
  rw [putMembers, find?_fields, hfind]
  rfl

private theorem slot_or_unknown (name : String) :
    (∃ slot ∈ form.slots, slot.name = name) ∨ ∀ slot ∈ form.slots, slot.name ≠ name := by
  by_cases h : ∃ slot ∈ form.slots, slot.name = name
  · exact .inl h
  · exact .inr fun slot hs heq ↦ h ⟨slot, hs, heq⟩

private theorem admits_cons_iff :
    form.Admits ((some name, value) :: rest) ↔
      ((∀ slot ∈ form.slots, slot.name ≠ name) → value.isComplete = true) ∧ form.Admits rest := by
  rw [Admits, List.forall_mem_cons]
  refine and_congr_left' ⟨?_, fun h ↦ ⟨name, rfl, h⟩⟩
  rintro ⟨_, ⟨⟩, h⟩
  exact h

/-- Members are put into a record if they are admitted and fill each slot. -/
theorem exists_putMembers_iff :
    (∃ seen', putMembers form.fields members seen record = .ok (seen', result)) ↔
      form.Admits members ∧ ∀ slot ∈ form.slots, slot.Fills members seen record result := by
  induction members generalizing seen record with
  | nil =>
    constructor
    · rintro ⟨seen', h⟩
      obtain ⟨-, rfl⟩ := Prod.mk.inj (Except.ok.inj h)
      exact ⟨List.forall_mem_nil _, fun slot _ ↦ .absent rfl rfl⟩
    · rintro ⟨-, h⟩
      have hresult : record = result := form.ext fun slot hs ↦ by
        cases h slot hs with
        | absent _ hr => exact hr.symm
        | present hown => cases hown
      exact ⟨seen, congrArg (fun r ↦ Except.ok (seen, r)) hresult⟩
  | cons member rest ih =>
    obtain ⟨_ | name, value⟩ := member
    · constructor
      · rintro ⟨seen', h⟩
        cases h
      · rintro ⟨h, -⟩
        obtain ⟨name, hname, -⟩ := h _ List.mem_cons_self
        cases hname
    rw [admits_cons_iff]
    rcases form.slot_or_unknown name with ⟨slot, hs, rfl⟩ | hunknown
    · -- a slot that the member fills: it must not have been seen, and its value must be readable
      rw [putMembers_cons_of_slot form hs]
      by_cases hseen : slot.name ∈ seen
      · rw [if_pos hseen]
        exact ⟨nofun, fun h ↦ absurd hseen (h.2 slot hs).of_own_cons.2.1⟩
      rw [if_neg hseen]
      cases hd : slot.wire.decode value with
      | error fault =>
        refine ⟨nofun, fun h ↦ ?_⟩
        cases hd.symm.trans (h.2 slot hs).of_own_cons.2.2
      | ok read =>
        refine ih.trans (and_congr ?_ (forall₂_congr fun other ho ↦ ?_))
        · exact (and_iff_right fun h ↦ absurd rfl (h slot hs)).symm
        · by_cases hname : other.name = slot.name
          · obtain rfl := form.eq_of_name_eq ho hs hname
            exact (Slot.fills_cons_self hseen (by rw [form.get_set other ho, hd])).symm
          · rw [Slot.fills_cons_of_ne hname,
              Slot.fills_seen_of_ne hname (form.get_set_of_ne hs ho hname read record)]
    · rw [putMembers_cons_of_unknown form hunknown]
      by_cases hc : value.isComplete = true
      · rw [if_pos hc, ih]
        refine and_congr (and_iff_right fun _ ↦ hc).symm (forall₂_congr fun slot hs ↦ ?_)
        exact (Slot.fills_cons_of_ne (hunknown slot hs)).symm
      · rw [if_neg hc]
        exact ⟨nofun, fun h ↦ absurd (h.1.1 hunknown) hc⟩

/-- A slot counts as seen if a member belongs to it. -/
private theorem mem_seen_iff {seen' : List String} (hs : slot ∈ form.slots)
    (h : putMembers form.fields members seen record = .ok (seen', result)) :
    slot.name ∈ seen' ↔ slot.name ∈ seen ∨ slot.own members ≠ [] := by
  induction members generalizing seen record with
  | nil =>
    obtain ⟨rfl, -⟩ := Prod.mk.inj (Except.ok.inj h)
    exact (or_iff_left fun h ↦ h rfl).symm
  | cons member rest ih =>
    obtain ⟨_ | name, value⟩ := member
    · cases h
    rcases form.slot_or_unknown name with ⟨found, hf, rfl⟩ | hunknown
    · rw [putMembers_cons_of_slot form hf] at h
      split at h
      · cases h
      obtain ⟨read, -, h⟩ := exists_of_bind_eq_ok h
      rw [ih h]
      by_cases hname : slot.name = found.name
      · rw [← hname, Slot.own_cons_self]
        exact iff_of_true (.inl List.mem_cons_self) (.inr (List.cons_ne_nil _ _))
      · rw [Slot.own_cons_of_ne hname, List.mem_cons, or_iff_right hname]
    · rw [putMembers_cons_of_unknown form hunknown] at h
      split at h
      · rw [ih h, Slot.own_cons_of_ne (hunknown slot hs)]
      · cases h

/-- No required field is missing among those seen. -/
private theorem all_fields_iff :
    (form.fields.all fun field ↦ field.presence ≠ .required || field.name ∈ seen) = true ↔
      ∀ slot ∈ form.slots, slot.required = true → slot.name ∈ seen := by
  rw [fields, List.all_map, List.all_eq_true]
  refine forall₂_congr fun slot _ ↦ ?_
  cases h : slot.required <;> simp [Slot.field, h]

/-- An object with these members means the record `result`: each slot is filled from them or, if it
need not be given, from the blank. -/
def Reads (members : List (Option String × Json)) (result : α) : Prop :=
  form.Admits members ∧ ∀ slot ∈ form.slots, slot.Fills members [] form.blank result ∧
    (slot.required = true → slot.own members ≠ [])

/-- An object is read as the record that it means. -/
theorem decodeRecord_object_iff :
    decodeRecord form.blank form.fields (.object members true) = .ok result ↔
      form.Reads members result := by
  have hseen {seen} (hput : putMembers form.fields members [] form.blank = .ok (seen, result)) :
      (∀ slot ∈ form.slots, slot.required = true → slot.name ∈ seen) ↔
        ∀ slot ∈ form.slots, slot.required = true → slot.own members ≠ [] :=
    forall₂_congr fun slot hs ↦ imp_congr_right fun _ ↦
      (form.mem_seen_iff hs hput).trans (or_iff_right List.not_mem_nil)
  constructor
  · intro h
    obtain ⟨⟨seen, record⟩, hput, h⟩ := exists_of_bind_eq_ok h
    simp only [Bool.not_true, Bool.false_eq_true, if_false] at h
    split at h
    · next hall =>
      obtain rfl := Except.ok.inj h
      obtain ⟨hadmits, hfills⟩ := form.exists_putMembers_iff.mp ⟨seen, hput⟩
      have hrequired := (hseen hput).mp (form.all_fields_iff.mp hall)
      exact ⟨hadmits, fun slot hs ↦ ⟨hfills slot hs, hrequired slot hs⟩⟩
    · cases h
  · rintro ⟨hadmits, h⟩
    obtain ⟨seen, hput⟩ := form.exists_putMembers_iff.mpr ⟨hadmits, fun slot hs ↦ (h slot hs).1⟩
    have hrequired := (hseen hput).mpr fun slot hs ↦ (h slot hs).2
    rw [decodeRecord, hput]
    exact if_pos (form.all_fields_iff.mpr hrequired)

/-! ### Changes to objects -/

variable {form} {others before after : List (Option String × Json)} {value' : Json}

private theorem Admits.subset (h : form.Admits members) (hsub : others ⊆ members) :
    form.Admits others :=
  fun member hm ↦ h member (hsub hm)

private theorem Admits.erase (h : form.Admits (before ++ (some name, value) :: after)) :
    form.Admits (before ++ after) :=
  h.subset (List.Sublist.append_left (List.sublist_cons_self ..) before).subset

private theorem Admits.insert (h : form.Admits (before ++ after))
    (hv : (∀ slot ∈ form.slots, slot.name ≠ name) → value.isComplete = true) :
    form.Admits (before ++ (some name, value) :: after) := by
  intro member hm
  rw [List.mem_append, List.mem_cons, or_left_comm, ← List.mem_append] at hm
  rcases hm with rfl | hm
  · exact ⟨name, rfl, hv⟩
  · exact h member hm

/-- A member that holds what the blank holds may be left out. -/
theorem Reads.remove (hs : slot ∈ form.slots) (hr : slot.required = false)
    (hd : slot.wire.decode value = .ok (slot.get form.blank))
    (h : form.Reads (before ++ (some slot.name, value) :: after) result) :
    form.Reads (before ++ after) result := by
  refine ⟨h.1.erase, fun other ho ↦ ?_⟩
  by_cases hname : other.name = slot.name
  · obtain rfl := form.eq_of_name_eq ho hs hname
    obtain ⟨hbefore, hafter, -, hd'⟩ := (h.2 other ho).1.of_own
    refine ⟨.absent ?_ (Except.ok.inj (hd'.symm.trans hd)), fun htrue ↦ ?_⟩
    · rw [Slot.own_append, hbefore, hafter]
      rfl
    · cases hr.symm.trans htrue
  · obtain ⟨hfills, hown⟩ := h.2 other ho
    rw [Slot.own_insert_of_ne hname] at hown
    exact ⟨hfills.congr (Slot.own_insert_of_ne hname).symm, hown⟩

/-- The order of the members does not matter. -/
theorem Reads.reorder (hp : members.Perm others) (h : form.Reads members result) :
    form.Reads others result := by
  refine ⟨h.1.subset hp.symm.subset, fun slot hs ↦ ?_⟩
  obtain ⟨hfills, hrequired⟩ := h.2 slot hs
  have hown := hfills.own_eq_of_perm hp
  exact ⟨hfills.congr hown, hown ▸ hrequired⟩

/-- A member that belongs to no slot may be added. -/
theorem Reads.add (hname : ∀ slot ∈ form.slots, slot.name ≠ name) (hc : value.isComplete = true)
    (h : form.Reads (before ++ after) result) :
    form.Reads (before ++ (some name, value) :: after) result := by
  refine ⟨h.1.insert fun _ ↦ hc, fun slot hs ↦ ?_⟩
  have hown : slot.own (before ++ (some name, value) :: after) = slot.own (before ++ after) :=
    Slot.own_insert_of_ne (hname slot hs)
  exact ⟨(h.2 slot hs).1.congr hown, hown ▸ (h.2 slot hs).2⟩

/-- The value of a slot may be written in another way. -/
theorem Reads.field (hs : slot ∈ form.slots)
    (hd : ∀ read, slot.wire.decode value = .ok read → slot.wire.decode value' = .ok read)
    (h : form.Reads (before ++ (some slot.name, value) :: after) result) :
    form.Reads (before ++ (some slot.name, value') :: after) result := by
  refine ⟨h.1.erase.insert fun hne ↦ absurd rfl (hne slot hs), fun other ho ↦ ?_⟩
  by_cases hname : other.name = slot.name
  · obtain rfl := form.eq_of_name_eq ho hs hname
    obtain ⟨hbefore, hafter, hseen, hread⟩ := (h.2 other ho).1.of_own
    have hown : other.own (before ++ (some other.name, value') :: after) =
        [(some other.name, value')] := by
      rw [Slot.own_append, Slot.own_cons_self, hbefore, hafter]
      rfl
    exact ⟨.present hown hseen (hd _ hread), fun _ ↦ hown ▸ List.cons_ne_nil _ _⟩
  · obtain ⟨hfills, hrequired⟩ := h.2 other ho
    have hown : other.own (before ++ (some slot.name, value') :: after) =
        other.own (before ++ (some slot.name, value) :: after) := by
      rw [Slot.own_insert_of_ne hname, Slot.own_insert_of_ne hname]
    exact ⟨hfills.congr hown, hown ▸ hrequired⟩

variable (form)

/-- The fields of the form as documents show them: what need not be given holds by default what the
blank does. -/
def layout : Layout :=
  .record <| form.slots.map fun slot ↦
    (slot.name, bif slot.required then none else some (slot.wire.encode (slot.get form.blank)),
      slot.wire.layout)

private theorem exists_slot_of_mem_layout {default? : Option Json} {layout : Layout}
    (h : (name, default?, layout) ∈ form.slots.map fun slot ↦
      (slot.name, bif slot.required then none else some (slot.wire.encode (slot.get form.blank)),
        slot.wire.layout)) :
    ∃ slot ∈ form.slots, slot.name = name ∧ slot.wire.layout = layout ∧
      ∀ value ∈ default?,
        slot.required = false ∧ slot.wire.encode (slot.get form.blank) = value := by
  obtain ⟨slot, hs, heq⟩ := List.mem_map.mp h
  simp only [Prod.mk.injEq] at heq
  obtain ⟨hname, rfl, hlayout⟩ := heq
  refine ⟨slot, hs, hname, hlayout, fun value hvalue ↦ ?_⟩
  cases hr : slot.required with
  | true => rw [hr] at hvalue; cases hvalue
  | false => rw [hr] at hvalue; exact ⟨rfl, Option.some.inj hvalue⟩

variable {form}

/-- Changes to an object do not change the record it is read as. -/
theorem decodeRecord_of_change {document other : Json} (hc : Change form.layout document other)
    (hd : decodeRecord form.blank form.fields document = .ok result) :
    decodeRecord form.blank form.fields other = .ok result := by
  unfold layout at hc
  cases hc with
  | remove before after hfield =>
    obtain ⟨slot, hs, rfl, -, hdefault⟩ := form.exists_slot_of_mem_layout hfield
    obtain ⟨hr, rfl⟩ := hdefault _ rfl
    have hblank := slot.wire.decode_encode (form.blank_representable slot hs)
    exact form.decodeRecord_object_iff.mpr
      ((form.decodeRecord_object_iff.mp hd).remove hs hr hblank)
  | reorder hp =>
    exact form.decodeRecord_object_iff.mpr ((form.decodeRecord_object_iff.mp hd).reorder hp)
  | add before after hname hcomplete =>
    refine form.decodeRecord_object_iff.mpr ((form.decodeRecord_object_iff.mp hd).add ?_ hcomplete)
    exact fun slot hs heq ↦
      hname (heq ▸ List.mem_map_of_mem (List.mem_map_of_mem hs))
  | field before after hfield hc =>
    obtain ⟨slot, hs, rfl, rfl, -⟩ := form.exists_slot_of_mem_layout hfield
    exact form.decodeRecord_object_iff.mpr
      ((form.decodeRecord_object_iff.mp hd).field hs fun _ ↦ slot.wire.decode_of_change hc)

/-! ### Writing and reading -/

variable (form)

/-- The members that are written of a record: one for each slot. -/
def written (a : α) : List (Option String × Json) :=
  form.slots.map fun slot ↦ (some slot.name, slot.wire.encode (slot.get a))

theorem own_written (hs : slot ∈ form.slots) (a : α) :
    slot.own (form.written a) = [(some slot.name, slot.wire.encode (slot.get a))] := by
  obtain ⟨first, last, hslots⟩ := List.append_of_mem hs
  have hnames := form.names_nodup
  rw [hslots, List.map_append, List.map_cons, List.nodup_middle, List.nodup_cons,
    ← List.map_append, List.mem_map] at hnames
  have hother (slots : List (Slot α)) (hsub : slots ⊆ first ++ last) :
      slot.own (slots.map fun slot ↦ (some slot.name, slot.wire.encode (slot.get a))) = [] := by
    refine Slot.own_eq_nil fun member hm heq ↦ ?_
    obtain ⟨other, ho, rfl⟩ := List.mem_map.mp hm
    exact hnames.1 ⟨other, hsub ho, Option.some.inj heq⟩
  rw [written, hslots, List.map_append, List.map_cons, Slot.own_append, Slot.own_cons_self,
    hother first (List.subset_append_left ..), hother last (List.subset_append_right ..)]
  rfl

/-- A record is read from what is written of it. -/
theorem decodeRecord_written {a : α}
    (h : ∀ slot ∈ form.slots, slot.wire.Representable (slot.get a)) :
    decodeRecord form.blank form.fields (.object (form.written a) true) = .ok a := by
  refine form.decodeRecord_object_iff.mpr ⟨?_, fun slot hs ↦ ?_⟩
  · intro member hm
    obtain ⟨slot, hs, rfl⟩ := List.mem_map.mp hm
    exact ⟨slot.name, rfl, fun hne ↦ absurd rfl (hne slot hs)⟩
  · have hown := form.own_written hs a
    exact ⟨.present hown List.not_mem_nil (slot.wire.decode_encode (h slot hs)),
      fun _ ↦ hown ▸ List.cons_ne_nil _ _⟩

/-- What is put into a slot from a valid document is representable, and the rest stays so. -/
private theorem representable_put (hs : slot ∈ form.slots) (hv : value.Valid)
    (h : ∀ slot ∈ form.slots, slot.wire.Representable (slot.get record))
    (hput : slot.field.put value record = .ok result) :
    ∀ slot ∈ form.slots, slot.wire.Representable (slot.get result) := by
  obtain ⟨read, hread, rfl⟩ := exists_of_map_eq_ok hput
  intro other ho
  by_cases hname : other.name = slot.name
  · obtain rfl := form.eq_of_name_eq ho hs hname
    rw [form.get_set other ho]
    exact other.wire.representable_of_decode hv hread
  · rw [form.get_set_of_ne hs ho hname]
    exact h other ho

private theorem representable_putItems {slots : List (Slot α)} {items : List Json}
    (hslots : slots ⊆ form.slots) (hv : ∀ item ∈ items, item.Valid)
    (h : ∀ slot ∈ form.slots, slot.wire.Representable (slot.get record))
    (hput : putItems (slots.map Slot.field) items true record = .ok result) :
    ∀ slot ∈ form.slots, slot.wire.Representable (slot.get result) := by
  induction slots generalizing items record with
  | nil =>
    cases items with
    | nil =>
      obtain rfl := Except.ok.inj hput
      exact h
    | cons item items => cases hput
  | cons slot slots ih =>
    obtain ⟨hs, hslots⟩ := List.cons_subset.mp hslots
    cases items with
    | nil =>
      rw [List.map_cons, putItems] at hput
      split at hput
      · cases hput
      split at hput
      · exact ih hslots hv h hput
      · cases hput
    | cons item items =>
      obtain ⟨hitem, hitems⟩ := List.forall_mem_cons.mp hv
      obtain ⟨next, hnext, hput⟩ := exists_of_bind_eq_ok hput
      exact ih hslots hitems (form.representable_put hs hitem h hnext) hput

/-- What is read from a valid document, object or array, is representable. -/
theorem representable_of_decodeRecord {document : Json} (hv : document.Valid)
    (hd : decodeRecord form.blank form.fields document = .ok result) :
    ∀ slot ∈ form.slots, slot.wire.Representable (slot.get result) := by
  cases hv with
  | object _ hmembers =>
    intro slot hs
    obtain ⟨⟨hown, hr⟩ | ⟨hown, -, hread⟩, -⟩ := (form.decodeRecord_object_iff.mp hd).2 slot hs
    · rw [hr]
      exact form.blank_representable slot hs
    · have hmem := List.mem_of_mem_filter (hown ▸ List.mem_singleton_self _)
      exact slot.wire.representable_of_decode (hmembers _ hmem) hread
  | array hitems =>
    exact form.representable_putItems (List.Subset.refl _) hitems form.blank_representable hd
  | null => cases hd
  | bool => cases hd
  | integer => cases hd
  | real => cases hd
  | string => cases hd

/-- Records are written and read slot by slot. They are representable if each of their slots is. -/
@[simps]
def wire (Representable : α → Prop)
    (h : ∀ a, Representable a ↔ ∀ slot ∈ form.slots, slot.wire.Representable (slot.get a)) :
    Wire α where
  encode a := .object (form.written a) true
  decode := decodeRecord form.blank form.fields
  layout := form.layout
  Representable := Representable
  decode_encode ha := form.decodeRecord_written ((h _).mp ha)
  representable_of_decode hv hd := (h _).mpr (form.representable_of_decodeRecord hv hd)
  decode_of_change hc := decodeRecord_of_change hc

theorem wire_ne_null {Representable : α → Prop}
    {h : ∀ a, Representable a ↔ ∀ slot ∈ form.slots, slot.wire.Representable (slot.get a)}
    (a : α) (_ : (form.wire Representable h).Representable a) :
    (form.wire Representable h).encode a ≠ .null :=
  Json.noConfusion

end Form

end Montage.Json
