/-!
# Object keys

An object is addressed by its name and, unless it belongs to the whole cluster, its namespace. Keys
are ordered: those without a namespace first, then by namespace, then by name.
-/
namespace ControlLoop

/-- The address of an object: its namespace, if it has one, and its name. -/
structure ObjectKey where
  ns : Option String
  name : String
  deriving DecidableEq, Repr, Hashable

namespace ObjectKey

/-- The key as one text: the namespace, a slash and the name. -/
def text (k : ObjectKey) : String :=
  match k.ns with
  | none => k.name
  | some ns => ns ++ "/" ++ k.name

/-- Order of namespaces: none comes first. -/
def spaceLt : Option String → Option String → Prop
  | none, some _ => True
  | some a, some b => a < b
  | _, none => False

instance : (a b : Option String) → Decidable (spaceLt a b)
  | none, some _ => .isTrue trivial
  | some a, some b => inferInstanceAs (Decidable (a < b))
  | none, none => .isFalse id
  | some _, none => .isFalse id

theorem spaceLt_irrefl : ∀ a : Option String, ¬ spaceLt a a
  | none => id
  | some a => String.lt_irrefl a

theorem spaceLt_trans {a b c : Option String} (h : spaceLt a b) (g : spaceLt b c) :
    spaceLt a c :=
  match a, b, c, h, g with
  | none, some _, some _, _, _ => trivial
  | some _, some _, some _, h, g => String.lt_trans h g

theorem spaceLt_trichotomy (a b : Option String) : spaceLt a b ∨ a = b ∨ spaceLt b a := by
  cases a with
  | none => cases b <;> simp [spaceLt]
  | some a =>
    cases b with
    | none => simp [spaceLt]
    | some b =>
      by_cases h : a < b
      · exact .inl h
      · by_cases g : b < a
        · exact .inr (.inr g)
        · exact .inr (.inl (congrArg some
            (String.le_antisymm (String.not_lt.1 g) (String.not_lt.1 h))))

instance : LT ObjectKey where
  lt a b := spaceLt a.ns b.ns ∨ a.ns = b.ns ∧ a.name < b.name

instance (a b : ObjectKey) : Decidable (a < b) :=
  inferInstanceAs (Decidable
    (spaceLt a.ns b.ns ∨ a.ns = b.ns ∧ a.name < b.name))

theorem lt_iff {a b : ObjectKey} :
    a < b ↔ spaceLt a.ns b.ns ∨ a.ns = b.ns ∧ a.name < b.name :=
  Iff.rfl

theorem lt_irrefl (a : ObjectKey) : ¬ a < a :=
  fun h => h.elim (spaceLt_irrefl a.ns) fun h => String.lt_irrefl a.name h.2

theorem lt_trans {a b c : ObjectKey} (h : a < b) (g : b < c) : a < c := by
  rw [lt_iff] at h g ⊢
  rcases h with h | ⟨h, h'⟩ <;> rcases g with g | ⟨g, g'⟩
  · exact .inl (spaceLt_trans h g)
  · exact .inl (g ▸ h)
  · exact .inl (h ▸ g)
  · exact .inr ⟨h.trans g, String.lt_trans h' g'⟩

theorem lt_trichotomy (a b : ObjectKey) : a < b ∨ a = b ∨ b < a := by
  obtain ⟨s, n⟩ := a
  obtain ⟨t, m⟩ := b
  rcases spaceLt_trichotomy s t with h | rfl | h
  · exact .inl (.inl h)
  · by_cases h : n < m
    · exact .inl (.inr ⟨rfl, h⟩)
    · by_cases g : m < n
      · exact .inr (.inr (.inr ⟨rfl, g⟩))
      · exact .inr (.inl (by rw [String.le_antisymm (String.not_lt.1 g) (String.not_lt.1 h)]))
  · exact .inr (.inr (.inl h))

/-- Whether the key lies in the scope: a namespace, or everything. -/
def inScope (scope : Option String) (k : ObjectKey) : Bool :=
  match scope with
  | none => true
  | some ns => k.ns = some ns

end ObjectKey

end ControlLoop
