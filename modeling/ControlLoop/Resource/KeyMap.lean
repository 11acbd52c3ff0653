import ControlLoop.Resource.Key
/-!
# Maps from object keys

A finite map whose entries are kept in increasing order of keys, so that a map is determined by what
it answers for each key.
-/
namespace ControlLoop

/-- A finite map from object keys. -/
structure KeyMap (α : Type) where
  entries : List (ObjectKey × α)
  ordered : entries.Pairwise fun a b => a.1 < b.1

namespace KeyMap

variable {α : Type}

instance [Repr α] : Repr (KeyMap α) := ⟨fun m n => reprPrec m.entries n⟩

instance [DecidableEq α] : DecidableEq (KeyMap α) := fun a b =>
  if h : a.entries = b.entries then
    .isTrue (by cases a; cases b; simp_all)
  else .isFalse fun e => h (e ▸ rfl)

instance : EmptyCollection (KeyMap α) := ⟨⟨[], .nil⟩⟩

instance : Inhabited (KeyMap α) := ⟨∅⟩

def size (m : KeyMap α) : Nat := m.entries.length

def isEmpty (m : KeyMap α) : Bool := m.entries.isEmpty

def keys (m : KeyMap α) : List ObjectKey := m.entries.map (·.1)

def values (m : KeyMap α) : List α := m.entries.map (·.2)

/-! ## Looking up -/

def lookup (k : ObjectKey) : List (ObjectKey × α) → Option α
  | [] => none
  | (l, a) :: rest => if l = k then some a else lookup k rest

def get? (m : KeyMap α) (k : ObjectKey) : Option α := lookup k m.entries

def contains (m : KeyMap α) (k : ObjectKey) : Bool := (m.get? k).isSome

@[simp] theorem get?_empty (k : ObjectKey) : (∅ : KeyMap α).get? k = none := rfl

/-! ## Changing -/

def insertEntry (k : ObjectKey) (a : α) : List (ObjectKey × α) → List (ObjectKey × α)
  | [] => [(k, a)]
  | (l, b) :: rest =>
    if k < l then (k, a) :: (l, b) :: rest
    else if l = k then (k, a) :: rest
    else (l, b) :: insertEntry k a rest

theorem mem_insertEntry {k : ObjectKey} {a : α} {l : List (ObjectKey × α)} {e : ObjectKey × α}
    (h : e ∈ insertEntry k a l) : e = (k, a) ∨ e ∈ l := by
  induction l with
  | nil => simp_all [insertEntry]
  | cons x rest ih =>
    simp only [insertEntry] at h
    split at h
    · simpa using h
    · split at h <;> simp only [List.mem_cons] at h ⊢
      · exact h.imp id .inr
      · exact h.elim (fun h => .inr (.inl h)) fun h => (ih h).imp id .inr

theorem insertEntry_ordered (k : ObjectKey) (a : α) {l : List (ObjectKey × α)}
    (h : l.Pairwise fun a b => a.1 < b.1) :
    (insertEntry k a l).Pairwise fun a b => a.1 < b.1 := by
  induction l with
  | nil => simp [insertEntry]
  | cons x rest ih =>
    obtain ⟨j, b⟩ := x
    rw [List.pairwise_cons] at h
    simp only [insertEntry]
    split
    · rename_i hk
      refine .cons (fun e he => ?_) (.cons h.1 h.2)
      rcases List.mem_cons.1 he with rfl | he
      · exact hk
      · exact ObjectKey.lt_trans hk (h.1 e he)
    · split
      · rename_i hk
        exact .cons (fun e he => hk ▸ h.1 e he) h.2
      · rename_i hlt hne
        refine .cons (fun e he => ?_) (ih h.2)
        rcases mem_insertEntry he with rfl | he
        · rcases ObjectKey.lt_trichotomy j k with g | g | g
          · exact g
          · exact absurd g hne
          · exact absurd g hlt
        · exact h.1 e he

/-- Sets the value of a key. -/
def insert (m : KeyMap α) (k : ObjectKey) (a : α) : KeyMap α :=
  ⟨insertEntry k a m.entries, insertEntry_ordered k a m.ordered⟩

/-- Removes a key. -/
def erase (m : KeyMap α) (k : ObjectKey) : KeyMap α :=
  ⟨m.entries.filter fun e => e.1 ≠ k, m.ordered.filter _⟩

/-- Keeps the entries whose keys satisfy `p`. -/
def filterKeys (p : ObjectKey → Bool) (m : KeyMap α) : KeyMap α :=
  ⟨m.entries.filter fun e => p e.1, m.ordered.filter _⟩

theorem lookup_insertEntry (k k' : ObjectKey) (a : α) (l : List (ObjectKey × α)) :
    lookup k' (insertEntry k a l) = if k = k' then some a else lookup k' l := by
  induction l with
  | nil => simp [insertEntry, lookup]
  | cons x rest ih =>
    obtain ⟨j, b⟩ := x
    simp only [insertEntry]
    split
    · simp [lookup]
    · split
      · rename_i hj
        subst hj
        by_cases hk : j = k' <;> simp [lookup, hk]
      · rename_i hj
        simp only [lookup, ih]
        by_cases hk : j = k'
        · subst hk
          simp [Ne.symm hj]
        · simp [hk]

@[simp] theorem get?_insert (m : KeyMap α) (k k' : ObjectKey) (a : α) :
    (m.insert k a).get? k' = if k = k' then some a else m.get? k' :=
  lookup_insertEntry k k' a m.entries

theorem lookup_filter (p : ObjectKey → Bool) (k : ObjectKey) (l : List (ObjectKey × α)) :
    lookup k (l.filter fun e => p e.1) = if p k then lookup k l else none := by
  induction l with
  | nil => simp [lookup]
  | cons x rest ih =>
    obtain ⟨j, b⟩ := x
    by_cases hj : j = k
    · subst hj
      by_cases hp : p j <;> simp_all [lookup]
    · by_cases hp : p j <;> simp_all [lookup]

@[simp] theorem get?_erase (m : KeyMap α) (k k' : ObjectKey) :
    (m.erase k).get? k' = if k = k' then none else m.get? k' := by
  have h := lookup_filter (fun x => decide (x ≠ k)) k' m.entries
  simp only [get?, erase]
  rw [h]
  by_cases hk : k = k' <;> simp [hk, eq_comm]

@[simp] theorem get?_filterKeys (p : ObjectKey → Bool) (m : KeyMap α) (k : ObjectKey) :
    (m.filterKeys p).get? k = if p k then m.get? k else none :=
  lookup_filter p k m.entries

/-- The map of a list of pairs; a later pair replaces an earlier one of its key. -/
def ofList (l : List (ObjectKey × α)) : KeyMap α :=
  l.foldl (fun m e => m.insert e.1 e.2) ∅

/-! ## Extensionality -/

theorem lookup_eq_some_iff {l : List (ObjectKey × α)} (h : l.Pairwise fun a b => a.1 < b.1)
    {k : ObjectKey} {a : α} : lookup k l = some a ↔ (k, a) ∈ l := by
  induction l with
  | nil => simp [lookup]
  | cons x rest ih =>
    obtain ⟨j, b⟩ := x
    rw [List.pairwise_cons] at h
    by_cases hj : j = k
    · subst hj
      simp only [lookup, if_true, Option.some.injEq, List.mem_cons, Prod.mk.injEq, true_and]
      refine ⟨fun g => .inl g.symm, fun g => g.elim Eq.symm fun g => ?_⟩
      exact absurd (h.1 _ g) (ObjectKey.lt_irrefl j)
    · simp [lookup, hj, ih h.2, Ne.symm hj]

/-- Lists in order with the same members are equal. -/
theorem eq_of_mem_iff : ∀ {l l' : List (ObjectKey × α)},
    l.Pairwise (fun a b => a.1 < b.1) → l'.Pairwise (fun a b => a.1 < b.1) →
    (∀ e, e ∈ l ↔ e ∈ l') → l = l'
  | [], [], _, _, _ => rfl
  | [], e :: _, _, _, h => absurd ((h e).2 (by simp)) (by simp)
  | e :: _, [], _, _, h => absurd ((h e).1 (by simp)) (by simp)
  | e :: l, e' :: l', o, o', h => by
    rw [List.pairwise_cons] at o o'
    have hee : e = e' := by
      rcases List.mem_cons.1 ((h e).1 (by simp)) with g | g
      · exact g
      · rcases List.mem_cons.1 ((h e').2 (by simp)) with g' | g'
        · exact g'.symm
        · exact absurd (ObjectKey.lt_trans (o.1 _ g') (o'.1 _ g)) (ObjectKey.lt_irrefl _)
    subst hee
    refine congrArg (e :: ·) (eq_of_mem_iff o.2 o'.2 fun x => ?_)
    have hx := h x
    simp only [List.mem_cons] at hx
    constructor
    · intro g
      rcases hx.1 (.inr g) with rfl | g'
      · exact absurd (o.1 _ g) (ObjectKey.lt_irrefl _)
      · exact g'
    · intro g
      rcases hx.2 (.inr g) with rfl | g'
      · exact absurd (o'.1 _ g) (ObjectKey.lt_irrefl _)
      · exact g'

/-- Maps that answer alike are equal. -/
@[ext] theorem ext {m n : KeyMap α} (h : ∀ k, m.get? k = n.get? k) : m = n := by
  obtain ⟨l, o⟩ := m
  obtain ⟨l', o'⟩ := n
  have : l = l' := eq_of_mem_iff o o' fun e => by
    rw [← lookup_eq_some_iff o, ← lookup_eq_some_iff o']
    exact ⟨fun g => (h e.1).symm.trans g, fun g => (h e.1).trans g⟩
  subst this
  rfl

end KeyMap

end ControlLoop
