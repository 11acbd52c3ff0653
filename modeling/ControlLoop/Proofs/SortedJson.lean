import ControlLoop.Json.MergePatch
import Mathlib.Tactic

/-!
# JSON values in sorted form

The members of a sorted object stand in increasing order of their names, so no name stands twice, and a
value that has been sorted stays as it is when it is sorted again.
-/
namespace ControlLoop

namespace Json

lemma mem_insertMember {name : String} {value : Json} {l : List (String × Json)}
    {m : String × Json} (h : m ∈ insertMember name value l) : m = (name, value) ∨ m ∈ l := by
  induction l with
  | nil => simpa [insertMember] using h
  | cons x l ih =>
    simp only [insertMember] at h
    split at h
    · simpa using h
    · split at h <;> simp only [List.mem_cons] at h ⊢
      · exact h.imp id .inr
      · exact h.elim (fun h => .inr (.inl h)) fun h => (ih h).imp id .inr

lemma find?_insertMember (name k : String) (v : Json) (l : List (String × Json)) :
    find? name (insertMember k v l) = if k = name then some v else find? name l := by
  induction l with
  | nil => simp [insertMember, find?]
  | cons x l ih =>
    obtain ⟨j, w⟩ := x
    simp only [insertMember]
    split
    · simp [find?]
    · split
      next hj =>
        subst hj
        by_cases hk : j = name <;> simp [find?, hk]
      next hj =>
        simp only [find?, ih]
        by_cases hk : j = name
        · subst hk
          simp [Ne.symm hj]
        · simp [hk]

lemma find?_eraseMember (name k : String) (l : List (String × Json)) :
    find? name (eraseMember k l) = if k = name then none else find? name l := by
  induction l with
  | nil => simp [eraseMember, find?]
  | cons x l ih =>
    obtain ⟨j, v⟩ := x
    have hcons : eraseMember k ((j, v) :: l) =
        if j = k then eraseMember k l else (j, v) :: eraseMember k l := by
      by_cases hj : j = k <;> simp [eraseMember, hj]
    rw [hcons]
    by_cases hj : j = k
    · subst hj
      rw [if_pos rfl, ih]
      by_cases hname : j = name <;> simp [hname, find?]
    · by_cases hname : j = name
      · subst hname
        simp [hj, find?, Ne.symm hj]
      · simp [hj, find?, hname, ih]

/-- Members in increasing order of their names. -/
def Increasing (l : List (String × Json)) : Prop := l.Pairwise fun m n => m.1 < n.1

lemma Increasing.insertMember {l : List (String × Json)} (h : Increasing l) (name : String)
    (value : Json) : Increasing (insertMember name value l) := by
  induction l with
  | nil => simp [Json.insertMember, Increasing]
  | cons x l ih =>
    obtain ⟨k, v⟩ := x
    obtain ⟨hfirst, hrest⟩ := List.pairwise_cons.mp h
    simp only [Json.insertMember]
    split
    next hlt =>
      refine List.pairwise_cons.mpr ⟨fun m hm => ?_, h⟩
      rcases List.mem_cons.mp hm with rfl | hm
      · exact hlt
      · exact String.lt_trans hlt (hfirst m hm)
    next hlt =>
      split
      next heq =>
        subst heq
        exact List.pairwise_cons.mpr ⟨hfirst, hrest⟩
      next hne =>
        refine List.pairwise_cons.mpr ⟨fun m hm => ?_, ih hrest⟩
        rcases mem_insertMember hm with rfl | hm
        · by_contra hge
          exact hne (String.le_antisymm (String.not_lt.mp hlt) (String.not_lt.mp hge))
        · exact hfirst m hm

lemma Increasing.eraseMember {l : List (String × Json)} (h : Increasing l) (name : String) :
    Increasing (eraseMember name l) :=
  List.Pairwise.filter _ h

lemma sortedMembers_increasing (l : List (String × Json)) {done : List (String × Json)}
    (h : Increasing done) : Increasing (sortedMembers l done) := by
  induction l generalizing done with
  | nil => simpa [sortedMembers] using h
  | cons x l ih =>
    obtain ⟨k, v⟩ := x
    rw [sortedMembers]
    exact ih (h.insertMember k v.sorted)

/-! ## The sorted form of a sorted value -/

lemma insertMember_concat {name : String} {value : Json} {l : List (String × Json)}
    (h : ∀ m ∈ l, m.1 < name) : insertMember name value l = l ++ [(name, value)] := by
  induction l with
  | nil => rfl
  | cons x l ih =>
    obtain ⟨k, v⟩ := x
    have hlt : k < name := h (k, v) List.mem_cons_self
    have hrest := ih fun m hm => h m (List.mem_cons_of_mem _ hm)
    rw [insertMember, if_neg (String.lt_asymm hlt), if_neg (String.ne_of_lt hlt), hrest]
    rfl

/-- Members in increasing order whose values are in sorted form are taken as they are. -/
lemma sortedMembers_of_increasing {l done : List (String × Json)} (h : Increasing (done ++ l))
    (hl : ∀ m ∈ l, m.2.sorted = m.2) : sortedMembers l done = done ++ l := by
  induction l generalizing done with
  | nil => simp [sortedMembers]
  | cons x l ih =>
    obtain ⟨k, v⟩ := x
    have hlast : ∀ m ∈ done, m.1 < k := fun m hm =>
      (List.pairwise_append.mp h).2.2 m hm (k, v) List.mem_cons_self
    rw [sortedMembers, hl (k, v) List.mem_cons_self, insertMember_concat hlast,
      ih (by simpa using h) fun m hm => hl m (List.mem_cons_of_mem _ hm), List.append_assoc]
    rfl

mutual

lemma sorted_sorted : ∀ v : Json, v.sorted.sorted = v.sorted
  | null | bool _ | num _ | str _ => by simp [sorted]
  | arr items => by
    rw [sorted, sorted, sortedItems_sortedItems items]
  | obj members => by
    have hvalues := sorted_of_mem_sortedMembers members [] (by simp)
    have hincreasing := sortedMembers_increasing members List.Pairwise.nil
    rw [sorted, sorted, sortedMembers_of_increasing hincreasing hvalues, List.nil_append]

lemma sortedItems_sortedItems : ∀ l : List Json, sortedItems (sortedItems l) = sortedItems l
  | [] => rfl
  | v :: rest => by
    rw [sortedItems, sortedItems, sorted_sorted v, sortedItems_sortedItems rest]

lemma sorted_of_mem_sortedMembers : ∀ l done : List (String × Json),
    (∀ m ∈ done, m.2.sorted = m.2) → ∀ m ∈ sortedMembers l done, m.2.sorted = m.2
  | [], done, hdone => by simpa [sortedMembers] using hdone
  | (k, v) :: rest, done, hdone => by
    rw [sortedMembers]
    refine sorted_of_mem_sortedMembers rest _ fun m hm => ?_
    rcases mem_insertMember hm with rfl | hm
    · exact sorted_sorted v
    · exact hdone m hm

end

lemma sortedMembers_map_sorted (l done : List (String × Json)) :
    sortedMembers (l.map fun m => (m.1, m.2.sorted)) done = sortedMembers l done := by
  induction l generalizing done with
  | nil => rfl
  | cons m l ih =>
    rw [List.map_cons, sortedMembers, sorted_sorted, ih]
    rfl

lemma mem_sortedMembers {l done : List (String × Json)} {m : String × Json}
    (h : m ∈ sortedMembers l done) : m ∈ done ∨ ∃ v, (m.1, v) ∈ l ∧ m.2 = v.sorted := by
  induction l generalizing done with
  | nil => exact .inl h
  | cons x l ih =>
    obtain ⟨k, v⟩ := x
    rw [sortedMembers] at h
    rcases ih h with hdone | ⟨w, hw, hsorted⟩
    · rcases mem_insertMember hdone with rfl | hdone
      · exact .inr ⟨v, List.mem_cons_self, rfl⟩
      · exact .inl hdone
    · exact .inr ⟨w, List.mem_cons_of_mem _ hw, hsorted⟩

lemma sorted_arr (l : List Json) : (arr l).sorted = arr (l.map sorted) := by
  rw [sorted]
  congr 1
  induction l with
  | nil => rfl
  | cons v l ih => rw [sortedItems, ih, List.map_cons]

lemma sorted_ne_null {v : Json} (h : v ≠ null) : v.sorted ≠ null := by
  cases v <;> first | exact absurd rfl h | simp [sorted]

/-! ## Members of a sorted value -/

lemma find?_eq_none {name : String} {l : List (String × Json)} (h : name ∉ l.map (·.1)) :
    find? name l = none := by
  induction l with
  | nil => rfl
  | cons x l ih =>
    rw [List.map_cons, List.mem_cons, not_or] at h
    rw [find?, if_neg (Ne.symm h.1), ih h.2]

lemma find?_of_lt {name : String} {l : List (String × Json)} (h : ∀ m ∈ l, name < m.1) :
    find? name l = none := by
  refine find?_eq_none fun hmem => ?_
  obtain ⟨m, hm, rfl⟩ := List.mem_map.mp hmem
  exact String.lt_irrefl _ (h m hm)

lemma mem_of_find? {name : String} {v : Json} {l : List (String × Json)}
    (h : find? name l = some v) : (name, v) ∈ l := by
  induction l with
  | nil => cases h
  | cons m l ih =>
    obtain ⟨k, w⟩ := m
    rw [find?] at h
    split at h
    next hk =>
      rw [hk, Option.some.inj h]
      exact List.mem_cons_self
    · exact List.mem_cons_of_mem _ (ih h)

/-- Members in increasing order are determined by what is found under each name. -/
lemma Increasing.ext {l l' : List (String × Json)} (h : Increasing l) (h' : Increasing l')
    (hfind : ∀ name, find? name l = find? name l') : l = l' := by
  induction l generalizing l' with
  | nil =>
    cases l' with
    | nil => rfl
    | cons m l' => simpa [find?] using hfind m.1
  | cons m l ih =>
    obtain ⟨k, v⟩ := m
    obtain ⟨hfirst, hrest⟩ := List.pairwise_cons.mp h
    cases l' with
    | nil => simpa [find?] using hfind k
    | cons m' l' =>
      obtain ⟨k', v'⟩ := m'
      obtain ⟨hfirst', hrest'⟩ := List.pairwise_cons.mp h'
      have hkey : k = k' := by
        by_contra hne
        have hk := hfind k
        have hk' := hfind k'
        rw [find?, if_pos rfl, find?, if_neg (Ne.symm hne)] at hk
        rw [find?, if_neg hne, find?, if_pos rfl] at hk'
        -- Each name stands behind the other one.
        exact String.lt_asymm (hfirst _ (mem_of_find? hk')) (hfirst' _ (mem_of_find? hk.symm))
      subst hkey
      have hvalue : v = v' := by simpa [find?] using hfind k
      rw [hvalue, ih hrest hrest' fun name => ?_]
      by_cases hname : k = name
      · subst hname
        rw [find?_of_lt hfirst, find?_of_lt hfirst']
      · simpa [find?, hname] using hfind name

lemma find?_sortedMembers (name : String) {l : List (String × Json)} (hl : (l.map (·.1)).Nodup)
    (done : List (String × Json)) :
    find? name (sortedMembers l done) = ((find? name l).map sorted).or (find? name done) := by
  induction l generalizing done with
  | nil => simp [sortedMembers, find?]
  | cons x l ih =>
    obtain ⟨k, v⟩ := x
    rw [List.map_cons, List.nodup_cons] at hl
    rw [sortedMembers, ih hl.2, find?_insertMember, find?]
    split
    next hk =>
      subst hk
      simp [find?_eq_none hl.1]
    · rfl

lemma map_fst_members (fields : List (String × Option Json)) :
    ((members fields).map (·.1)).Sublist (fields.map (·.1)) := by
  induction fields with
  | nil => exact List.Sublist.slnil
  | cons x fields ih =>
    obtain ⟨k, _ | v⟩ := x
    · exact ih.cons k
    · exact ih.cons_cons k

lemma mem_members {fields : List (String × Option Json)} {m : String × Json}
    (h : m ∈ members fields) : (m.1, some m.2) ∈ fields := by
  induction fields with
  | nil => cases h
  | cons x fields ih =>
    obtain ⟨k, _ | v⟩ := x
    · exact List.mem_cons_of_mem _ (ih h)
    · rcases List.mem_cons.mp h with rfl | h
      · exact List.mem_cons_self
      · exact List.mem_cons_of_mem _ (ih h)

lemma find?_members {name : String} {value : Option Json} {fields : List (String × Option Json)}
    (hfields : (fields.map (·.1)).Nodup) (h : (name, value) ∈ fields) :
    find? name (members fields) = value := by
  induction fields with
  | nil => simp at h
  | cons x fields ih =>
    obtain ⟨k, o⟩ := x
    rw [List.map_cons, List.nodup_cons] at hfields
    rcases List.mem_cons.mp h with heq | h
    · obtain ⟨rfl, rfl⟩ := Prod.mk.inj heq
      have hrest : find? name (members fields) = none :=
        find?_eq_none fun hmem => hfields.1 ((map_fst_members fields).subset hmem)
      cases value <;> simp [members, find?, hrest]
    · have hk : k ≠ name := fun hk =>
        hfields.1 (hk ▸ List.mem_map.mpr ⟨(name, value), h, rfl⟩)
      have hrest := ih hfields.2 h
      cases o <;> simp [members, find?, hk, hrest]

/-- The member of the sorted form of an object that is given by its fields. -/
lemma get?_sorted_ofMembers {name : String} {value : Option Json}
    {fields : List (String × Option Json)} (hfields : (fields.map (·.1)).Nodup)
    (h : (name, value) ∈ fields) : (ofMembers fields).sorted.get? name = value.map sorted := by
  have hmembers : ((members fields).map (·.1)).Nodup := hfields.sublist (map_fst_members fields)
  rw [ofMembers, sorted, get?, find?_sortedMembers name hmembers, find?_members hfields h]
  simp [find?]

lemma get?_sorted_ofMembers_of_not_mem {name : String} {fields : List (String × Option Json)}
    (hfields : (fields.map (·.1)).Nodup) (h : name ∉ fields.map (·.1)) :
    (ofMembers fields).sorted.get? name = none := by
  have hmembers : ((members fields).map (·.1)).Nodup := hfields.sublist (map_fst_members fields)
  rw [ofMembers, sorted, get?, find?_sortedMembers name hmembers,
    find?_eq_none fun hmem => h ((map_fst_members fields).subset hmem)]
  rfl

/-! ## Names that stand once -/

/-- No name stands twice among the members of the value. -/
def Distinct (v : Json) : Prop := (v.membersOf.map (·.1)).Nodup

lemma Increasing.distinct {l : List (String × Json)} (h : Increasing l) : Distinct (obj l) := by
  rw [Distinct, membersOf, List.Nodup, List.pairwise_map]
  exact List.Pairwise.imp (fun hlt => String.ne_of_lt hlt) h

lemma increasing_of_sorted {v : Json} {l : List (String × Json)} (h : v.sorted = obj l) :
    Increasing l := by
  cases v with
  | obj members =>
    obtain rfl := obj.inj (sorted.eq_2 members ▸ h)
    exact sortedMembers_increasing members List.Pairwise.nil
  | null | bool | num | str | arr => simp [sorted] at h

lemma distinct_sorted (v : Json) : Distinct v.sorted := by
  cases h : v.sorted with
  | obj l => exact (increasing_of_sorted h).distinct
  | null | bool | num | str | arr => exact List.nodup_nil

end Json

end ControlLoop
