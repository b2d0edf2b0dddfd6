import Mathlib.Data.Set.Lattice
import Mathlib.Order.CompletePartialOrder
import Montage.Graph.Builder

/-!
# What builders yield

A builder asks its pool for labels. On a pool that has answered none of its requests it gets the
first label of each, so what it yields does not depend on the pool. Builders in sequence yield
their results in sequence as long as no request is made twice, and halt where one of them halts.
-/

namespace Montage.Graph

/-- The first label of a numbered signal. -/
def Label.numbered (role : Role) (index : Nat) : Label := .signal ⟨role, some index⟩ 0

/-- The first label of the only signal of a role. -/
def Label.named (role : Role) : Label := .signal ⟨role, none⟩ 0

@[simp] theorem Label.isPad_signal (request : LabelRequest) (copy : Nat) :
    (Label.signal request copy).isPad = false := rfl

@[simp] theorem Label.isPad_numbered (role : Role) (index : Nat) :
    (Label.numbered role index).isPad = false := rfl

@[simp] theorem Label.isPad_named (role : Role) : (Label.named role).isPad = false := rfl

@[simp] theorem Label.isPad_ofVideo (input : Nat) : (Label.ofVideo input).isPad = true := rfl

@[simp] theorem Label.isPad_ofAudio (input : Nat) : (Label.ofAudio input).isPad = true := rfl

/-- All requests for these roles. -/
def requestsFor (roles : List Role) : Set LabelRequest := {r | r.role ∈ roles}

/-- The requests for these roles with this number. -/
def requestsOf (roles : List Role) (index : Nat) : Set LabelRequest :=
  {r | r.role ∈ roles ∧ r.index = some index}

/-- The requests of this number or a later one. -/
def requestsFrom (requests : Nat → Set LabelRequest) (index : Nat) : Set LabelRequest :=
  {r | ∃ i, index ≤ i ∧ r ∈ requests i}

/-- Requests for different roles differ. -/
theorem disjoint_requestsFor {xs ys : List Role} (h : ∀ role ∈ xs, role ∉ ys) :
    Disjoint (requestsFor xs) (requestsFor ys) := by
  rw [Set.disjoint_left]
  exact fun r hx hy ↦ h r.role hx hy

theorem requestsFor_append (xs ys : List Role) :
    requestsFor (xs ++ ys) = requestsFor xs ∪ requestsFor ys :=
  Set.ext fun _ ↦ List.mem_append

/-- Requests with different numbers differ. -/
theorem disjoint_requestsOf (roles : List Role) {i j : Nat} (h : i < j) :
    Disjoint (requestsOf roles i) (requestsOf roles j) := by
  rw [Set.disjoint_left]
  rintro r ⟨-, hi⟩ ⟨-, hj⟩
  rw [hi] at hj
  exact absurd (Option.some.inj hj) (Nat.ne_of_lt h)

theorem requestsFrom_subset {requests : Nat → Set LabelRequest} {roles : List Role}
    (h : ∀ i, requests i ⊆ requestsFor roles) (index : Nat) :
    requestsFrom requests index ⊆ requestsFor roles := by
  rintro r ⟨i, -, hr⟩
  exact h i hr

theorem requestsOf_singleton (role : Role) (index : Nat) :
    requestsOf [role] index = {⟨role, some index⟩} := by
  apply Set.eq_of_subset_of_subset
  · rintro ⟨role', index'⟩ ⟨hr, hi⟩
    obtain rfl : role' = role := List.mem_singleton.mp hr
    obtain rfl : index' = some index := hi
    rfl
  · rintro r rfl
    exact ⟨List.mem_singleton.mpr rfl, rfl⟩

theorem requestsOf_subset (roles : List Role) (index : Nat) :
    requestsOf roles index ⊆ requestsFor roles := fun _ hr ↦ hr.1

theorem disjoint_requestsFrom {requests : Nat → Set LabelRequest}
    (hd : ∀ i j, i < j → Disjoint (requests i) (requests j)) (index : Nat) :
    Disjoint (requests index) (requestsFrom requests (index + 1)) := by
  rw [Set.disjoint_left]
  rintro r hr ⟨i, hi, hm⟩
  exact Set.disjoint_left.mp (hd index i hi) hr hm

theorem union_requestsFrom_subset (requests : Nat → Set LabelRequest) (index : Nat) :
    requests index ∪ requestsFrom requests (index + 1) ⊆ requestsFrom requests index := by
  rintro r (hr | ⟨i, hi, hr⟩)
  · exact ⟨index, Nat.le_refl _, hr⟩
  · exact ⟨i, Nat.le_of_succ_le hi, hr⟩

namespace LabelPool

/-- The pool has answered none of these requests. -/
def Spares (pool : LabelPool) (requests : Set LabelRequest) : Prop :=
  ∀ r ∈ pool.issued, r ∉ requests

variable {pool : LabelPool} {S T : Set LabelRequest}

theorem spares_empty : Spares {} S := fun _ h ↦ absurd h List.not_mem_nil

theorem Spares.mono (h : pool.Spares T) (hs : S ⊆ T) : pool.Spares S :=
  fun r hr hm ↦ h r hr (hs hm)

/-- Answering requests spares every set without them. -/
theorem Spares.append {issued : List LabelRequest} (h : pool.Spares T)
    (hs : ∀ r ∈ issued, r ∈ S) (hd : Disjoint S T) : Spares ⟨issued ++ pool.issued⟩ T := by
  intro r hr hm
  rcases List.mem_append.mp hr with hi | hp
  · exact Set.disjoint_left.mp hd (hs r hi) hm
  · exact h r hp hm

/-- The label of a request that was never answered is its first. -/
theorem take_of_spares {r : LabelRequest} (h : pool.Spares {r}) :
    pool.take r = (.signal r 0, ⟨r :: pool.issued⟩) := by
  have hc : pool.issued.count r = 0 := List.count_eq_zero.mpr fun hm ↦ h r hm rfl
  rw [take, hc]

end LabelPool

/-- On every pool that spares the requests the builder yields `a`, and it makes no other
requests. -/
def Builder.Yields {α : Type} (builder : Builder α) (requests : Set LabelRequest) (a : α) : Prop :=
  ∀ pool : LabelPool, pool.Spares requests →
    ∃ issued, builder.run pool = .ok (a, ⟨issued ++ pool.issued⟩) ∧ ∀ r ∈ issued, r ∈ requests

namespace Builder

variable {α β γ : Type} {S T : Set LabelRequest} {a : α}

theorem Yields.mono {builder : Builder α} (h : builder.Yields S a) (hs : S ⊆ T) :
    builder.Yields T a := by
  intro pool hp
  obtain ⟨issued, hr, hi⟩ := h pool (hp.mono hs)
  exact ⟨issued, hr, fun r hm ↦ hs (hi r hm)⟩

theorem yields_pure (a : α) (S : Set LabelRequest) : Yields (pure a) S a :=
  fun _ _ ↦ ⟨[], rfl, by simp⟩

/-- A computation without labels yields its value. -/
theorem yields_lift {x : Except CompileError α} (h : x = .ok a) (S : Set LabelRequest) :
    Yields (liftM x) S a := by
  subst h
  exact fun _ _ ↦ ⟨[], rfl, by simp⟩

theorem yields_numbered (role : Role) (index : Nat) :
    Yields (Graph.numbered role index) {⟨role, some index⟩} (.numbered role index) := by
  intro pool hp
  refine ⟨[⟨role, some index⟩], ?_, fun r hr ↦ List.mem_singleton.mp hr⟩
  show Except.ok (pool.take ⟨role, some index⟩) = _
  rw [LabelPool.take_of_spares hp]
  rfl

theorem yields_named (role : Role) : Yields (named role) {⟨role, none⟩} (.named role) := by
  intro pool hp
  refine ⟨[⟨role, none⟩], ?_, fun r hr ↦ List.mem_singleton.mp hr⟩
  show Except.ok (pool.take ⟨role, none⟩) = _
  rw [LabelPool.take_of_spares hp]
  rfl

/-- Builders that share no request yield one after the other. -/
theorem Yields.bind {builder : Builder α} {next : α → Builder β} {b : β}
    (h : builder.Yields S a) (hn : (next a).Yields T b) (hd : Disjoint S T) :
    Yields (builder >>= next) (S ∪ T) b := by
  intro pool hp
  obtain ⟨xs, hx, hxs⟩ := h pool (hp.mono Set.subset_union_left)
  obtain ⟨ys, hy, hys⟩ := hn _ ((hp.mono Set.subset_union_right).append hxs hd)
  refine ⟨ys ++ xs, ?_, ?_⟩
  · rw [StateT.run_bind, hx, List.append_assoc]
    exact hy
  · intro r hr
    rcases List.mem_append.mp hr with hr | hr
    · exact Or.inr (hys r hr)
    · exact Or.inl (hxs r hr)

/-- Builders for different roles yield one after the other. -/
theorem Yields.bind_roles {xs ys : List Role} {builder : Builder α} {next : α → Builder β} {b : β}
    (h : builder.Yields (requestsFor xs) a) (hn : (next a).Yields (requestsFor ys) b)
    (hd : ∀ role ∈ xs, role ∉ ys) : Yields (builder >>= next) (requestsFor (xs ++ ys)) b := by
  rw [requestsFor_append]
  exact h.bind hn (disjoint_requestsFor hd)

/-- A first step that takes a numbered label. -/
theorem Yields.numbered_bind {role : Role} {index : Nat} {next : Label → Builder β} {b : β}
    (hn : (next (.numbered role index)).Yields T b) (hr : ⟨role, some index⟩ ∉ T) :
    Yields (Graph.numbered role index >>= next) (insert ⟨role, some index⟩ T) b :=
  Yields.mono ((yields_numbered role index).bind hn (Set.disjoint_singleton_left.mpr hr))
    (Set.insert_eq _ _).superset

/-- A first step that takes the only label of a role. -/
theorem Yields.named_bind {role : Role} {next : Label → Builder β} {b : β}
    (hn : (next (.named role)).Yields T b) (hr : ⟨role, none⟩ ∉ T) :
    Yields (Graph.named role >>= next) (insert ⟨role, none⟩ T) b :=
  Yields.mono ((yields_named role).bind hn (Set.disjoint_singleton_left.mpr hr))
    (Set.insert_eq _ _).superset

/-- A last step that makes no request. -/
theorem Yields.bind_pure {builder : Builder α} (h : builder.Yields S a) (f : α → β) :
    Yields (builder >>= fun x ↦ pure (f x)) S (f a) :=
  (h.bind (yields_pure (f a) ∅) (Set.disjoint_empty S)).mono (by simp)

theorem Yields.map {builder : Builder α} (h : builder.Yields S a) (f : α → β) :
    Yields (f <$> builder) S (f a) := by
  rw [map_eq_pure_bind]
  exact h.bind_pure f

/-- A first step that only computes. -/
theorem Yields.lift_bind {x : Except CompileError α} {next : α → Builder β} {b : β}
    (h : x = .ok a) (hn : (next a).Yields T b) : Yields (liftM x >>= next) T b :=
  ((yields_lift h ∅).bind hn (Set.empty_disjoint T)).mono (by simp)

/-- A label followed by a computation. -/
theorem Yields.bind_lift {builder : Builder β} {b : β} {x : Except CompileError α}
    (hb : builder.Yields S b) (h : x = .ok a) (f : β → α → γ) :
    Yields (builder >>= fun y ↦ liftM x >>= fun z ↦ pure (f y z)) S (f b a) := by
  have hn : Yields (liftM x >>= fun z ↦ pure (f b z)) ∅ (f b a) :=
    Yields.lift_bind h (yields_pure (f b a) ∅)
  exact Yields.mono (hb.bind hn (Set.disjoint_empty S)) (by simp)

/-- On every pool that spares the requests the builder halts, for this reason. -/
def Halts (builder : Builder α) (requests : Set LabelRequest) (halt : Halt CompileError) : Prop :=
  ∀ pool : LabelPool, pool.Spares requests → builder.run pool = .error halt

variable {halt : Halt CompileError}

theorem halts_throw (halt : Halt CompileError) (S : Set LabelRequest) :
    Halts (throw halt : Builder α) S halt := fun _ _ ↦ rfl

/-- What follows a builder that halts does not matter. -/
theorem Halts.bind {builder : Builder α} (h : builder.Halts S halt) (next : α → Builder β) :
    Halts (builder >>= next) S halt := by
  intro pool hp
  rw [StateT.run_bind, h pool hp]
  rfl

/-- A builder for other roles comes before one that halts. -/
theorem Yields.halts_roles {xs ys : List Role} {builder : Builder α} {next : α → Builder β}
    (h : builder.Yields (requestsFor xs) a) (hn : (next a).Halts (requestsFor ys) halt)
    (hd : ∀ role ∈ xs, role ∉ ys) : Halts (builder >>= next) (requestsFor (xs ++ ys)) halt := by
  intro pool hp
  rw [requestsFor_append] at hp
  obtain ⟨issued, hr, hi⟩ := h pool (hp.mono Set.subset_union_left)
  rw [StateT.run_bind, hr]
  exact hn _ ((hp.mono Set.subset_union_right).append hi (disjoint_requestsFor hd))

/-- A first step that only computes comes before one that halts. -/
theorem Halts.lift_bind {x : Except CompileError α} {next : α → Builder β} (h : x = .ok a)
    (hn : (next a).Halts S halt) : Halts (liftM x >>= next) S halt := by
  subst h
  exact hn

/-- A builder that halts does so on the empty pool. -/
theorem Halts.run' {builder : Builder α} (h : builder.Halts S halt) :
    StateT.run' builder {} = .error halt := by
  show (·.1) <$> builder.run {} = _
  rw [h {} LabelPool.spares_empty]
  rfl

/-- A builder on the empty pool yields its result. -/
theorem Yields.run' {builder : Builder α} (h : builder.Yields S a) :
    StateT.run' builder {} = .ok a := by
  obtain ⟨issued, hr, -⟩ := h {} LabelPool.spares_empty
  show (·.1) <$> builder.run {} = _
  rw [hr]
  rfl

end Builder

namespace Fragment

variable {α : Type} {shape : Nat → α → Label → Fragment → Prop}

/-- Fragments end to end, one for each item: the fragment of an item starts from the result of the
one before it. -/
inductive Threads (shape : Nat → α → Label → Fragment → Prop) :
    Nat → List α → Label → Fragment → Prop
  | nil {index : Nat} {input : Label} : Threads shape index [] input (.passthrough input)
  | cons {index : Nat} {item : α} {rest : List α} {input : Label} {first others : Fragment} :
      shape index item input first →
      Threads shape (index + 1) rest first.output others →
      Threads shape index (item :: rest) input ⟨first.stages ++ others.stages, others.output⟩

/-- What holds of the stages of each item holds of all stages. -/
theorem Threads.forall_stages {P : Stage → Prop}
    (hs : ∀ {index item input fragment}, shape index item input fragment →
      ∀ stage ∈ fragment.stages, P stage)
    {index : Nat} {items : List α} {input : Label} {fragment : Fragment}
    (h : Threads shape index items input fragment) : ∀ stage ∈ fragment.stages, P stage := by
  induction h with
  | nil => exact List.forall_mem_nil _
  | cons hf _ ih => exact List.forall_mem_append.mpr ⟨hs hf, ih⟩

/-- The stages of each item are among all stages. -/
theorem Threads.exists_of_getElem? {index : Nat} {items : List α} {input : Label}
    {fragment : Fragment} (h : Threads shape index items input fragment) {i : Nat} {item : α}
    (hi : items[i]? = some item) :
    ∃ before own, shape (index + i) item before own ∧
      ∀ stage ∈ own.stages, stage ∈ fragment.stages := by
  induction h generalizing i with
  | nil => cases hi
  | @cons index _ _ _ first _ hf _ ih =>
    cases i with
    | zero =>
      obtain rfl := Option.some.inj hi
      exact ⟨_, first, hf, fun stage hs ↦ List.mem_append_left _ hs⟩
    | succ i =>
      obtain ⟨before, own, hown, hs⟩ := ih hi
      rw [Nat.add_right_comm] at hown
      exact ⟨before, own, hown, fun stage hm ↦ List.mem_append_right _ (hs stage hm)⟩

/-- Threading yields fragments end to end if each step yields a fragment and no two steps share a
request. -/
theorem thread_yields {step : Nat → α → Label → Builder Fragment}
    {requests : Nat → Set LabelRequest}
    (hd : ∀ i j, i < j → Disjoint (requests i) (requests j)) (items : List α)
    (hs : ∀ index, ∀ item ∈ items, ∀ input, ∃ fragment,
      (step index item input).Yields (requests index) fragment ∧ shape index item input fragment)
    (index : Nat) (input : Label) :
    ∃ fragment, (thread step index items input).Yields (requestsFrom requests index) fragment ∧
      Threads shape index items input fragment := by
  induction items generalizing index input with
  | nil => exact ⟨_, Builder.yields_pure _ _, .nil⟩
  | cons item rest ih =>
    obtain ⟨first, hf, hfs⟩ := hs index item List.mem_cons_self input
    have hrest : ∀ index, ∀ item ∈ rest, ∀ input, ∃ fragment,
        (step index item input).Yields (requests index) fragment ∧
          shape index item input fragment :=
      fun i item hm ↦ hs i item (List.mem_cons_of_mem _ hm)
    obtain ⟨others, ho, hos⟩ := ih hrest (index + 1) first.output
    refine ⟨_, ?_, .cons hfs hos⟩
    exact (hf.bind (ho.bind_pure _) (disjoint_requestsFrom hd index)).mono
      (union_requestsFrom_subset requests index)

end Fragment

end Montage.Graph
