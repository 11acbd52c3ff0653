/-!
# JSON values

A value keeps the members of an object as they were written, so a reader can see their order and
their repetitions. `sorted` gives the form in which two values are equal exactly when they hold the
same data: members in increasing order of their names, the last of several with one name.
-/
namespace ControlLoop

/-- A JSON number: an integer that fits a word of 64 bits, signed or unsigned, or else the bits of a
binary fraction. -/
inductive Number where
  | int (value : Int)
  | real (bits : UInt64)
  deriving DecidableEq, Repr

/-- The number with a zero that has no sign. -/
def Number.unsigned : Number → Number
  | real 0x8000000000000000 => real 0
  | n => n

/-- A JSON value. -/
inductive Json where
  | null
  | bool (value : Bool)
  | num (value : Number)
  | str (value : String)
  | arr (items : List Json)
  | obj (members : List (String × Json))
  deriving Repr, Inhabited

namespace Json

mutual

/-- Equality of values, by recursion. -/
def beq : Json → Json → Bool
  | null, null => true
  | bool a, bool b => a == b
  | num a, num b => a == b
  | str a, str b => a == b
  | arr a, arr b => beqItems a b
  | obj a, obj b => beqMembers a b
  | _, _ => false

/-- Equality of lists of values. -/
def beqItems : List Json → List Json → Bool
  | [], [] => true
  | a :: as, b :: bs => beq a b && beqItems as bs
  | _, _ => false

/-- Equality of lists of members. -/
def beqMembers : List (String × Json) → List (String × Json) → Bool
  | [], [] => true
  | (k, a) :: as, (l, b) :: bs => k == l && beq a b && beqMembers as bs
  | _, _ => false

end

mutual

theorem eq_of_beq : ∀ {a b : Json}, beq a b = true → a = b
  | null, b, h => by cases b <;> simp_all [beq]
  | bool _, b, h => by cases b <;> simp_all [beq]
  | num _, b, h => by cases b <;> simp_all [beq]
  | str _, b, h => by cases b <;> simp_all [beq]
  | arr _, b, h => by
    cases b <;> simp only [beq, Bool.false_eq_true] at h
    exact congrArg arr (eq_of_beqItems h)
  | obj _, b, h => by
    cases b <;> simp only [beq, Bool.false_eq_true] at h
    exact congrArg obj (eq_of_beqMembers h)

theorem eq_of_beqItems : ∀ {a b : List Json}, beqItems a b = true → a = b
  | [], b, h => by cases b <;> simp_all [beqItems]
  | _ :: _, b, h => by
    cases b <;> simp only [beqItems, Bool.and_eq_true, Bool.false_eq_true] at h
    rw [eq_of_beq h.1, eq_of_beqItems h.2]

theorem eq_of_beqMembers : ∀ {a b : List (String × Json)}, beqMembers a b = true → a = b
  | [], b, h => by cases b <;> simp_all [beqMembers]
  | (_, _) :: _, b, h => by
    cases b <;> simp only [beqMembers, Bool.and_eq_true, beq_iff_eq, Bool.false_eq_true] at h
    rw [h.1.1, eq_of_beq h.1.2, eq_of_beqMembers h.2]

end

mutual

theorem beq_refl : ∀ a : Json, beq a a = true
  | null => rfl
  | bool _ => by simp [beq]
  | num _ => by simp [beq]
  | str _ => by simp [beq]
  | arr items => by simpa [beq] using beqItems_refl items
  | obj members => by simpa [beq] using beqMembers_refl members

theorem beqItems_refl : ∀ a : List Json, beqItems a a = true
  | [] => rfl
  | a :: as => by simp [beqItems, beq_refl a, beqItems_refl as]

theorem beqMembers_refl : ∀ a : List (String × Json), beqMembers a a = true
  | [] => rfl
  | (_, a) :: as => by simp [beqMembers, beq_refl a, beqMembers_refl as]

end

theorem beq_iff_eq {a b : Json} : beq a b = true ↔ a = b :=
  ⟨eq_of_beq, fun h => h ▸ beq_refl a⟩

instance : DecidableEq Json := fun _ _ => decidable_of_iff _ beq_iff_eq

/-- An integer. -/
def int (n : Int) : Json := num (.int n)

/-- A natural number. -/
def nat (n : Nat) : Json := int n

/-- A string, or null. -/
def ofString? : Option String → Json
  | none => null
  | some s => str s

/-- The first member of that name in a list of members. -/
def find? (name : String) : List (String × Json) → Option Json
  | [] => none
  | (k, v) :: rest => if k = name then some v else find? name rest

/-- The member of that name, if the value is an object that has it. -/
def get? (name : String) : Json → Option Json
  | obj members => find? name members
  | _ => none

/-- Follows member names from the top. -/
def at? : List String → Json → Option Json
  | [], v => some v
  | name :: rest, v => (v.get? name).bind (at? rest)

/-- Puts a member into a list in increasing order of names, in the place of one of that name. -/
def insertMember (name : String) (value : Json) : List (String × Json) → List (String × Json)
  | [] => [(name, value)]
  | (k, v) :: rest =>
    if name < k then (name, value) :: (k, v) :: rest
    else if k = name then (name, value) :: rest
    else (k, v) :: insertMember name value rest

/-- Drops the members of that name. -/
def eraseMember (name : String) (members : List (String × Json)) : List (String × Json) :=
  members.filter fun m => m.1 ≠ name

mutual

/-- Members in increasing order of their names, the last of several with one name, all the way
down. -/
def sorted : Json → Json
  | arr items => arr (sortedItems items)
  | obj members => obj (sortedMembers members [])
  | v => v

/-- The items of an array, each in sorted form. -/
def sortedItems : List Json → List Json
  | [] => []
  | v :: rest => sorted v :: sortedItems rest

/-- Adds members in sorted form to members in increasing order. -/
def sortedMembers : List (String × Json) → List (String × Json) → List (String × Json)
  | [], done => done
  | (k, v) :: rest, done => sortedMembers rest (insertMember k (sorted v) done)

end

mutual

/-- The value with zeros that have no sign. Two values hold the same data when these are equal. -/
def unsigned : Json → Json
  | num n => num n.unsigned
  | arr items => arr (unsignedItems items)
  | obj members => obj (unsignedMembers members)
  | v => v

def unsignedItems : List Json → List Json
  | [] => []
  | v :: rest => unsigned v :: unsignedItems rest

def unsignedMembers : List (String × Json) → List (String × Json)
  | [] => []
  | (k, v) :: rest => (k, unsigned v) :: unsignedMembers rest

end

/-- The members that have a value, in the order given. -/
def members : List (String × Option Json) → List (String × Json)
  | [] => []
  | (k, some v) :: rest => (k, v) :: members rest
  | (_, none) :: rest => members rest

/-- An object of the members that have a value. -/
def ofMembers (fields : List (String × Option Json)) : Json := obj (members fields)

end Json

end ControlLoop
