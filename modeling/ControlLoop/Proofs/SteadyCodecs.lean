import ControlLoop.Resource.Deployment
import ControlLoop.Resource.Namespace
import ControlLoop.Proofs.SortedJson
import ControlLoop.Proofs.TimeTexts

/-!
# Data that stay when they are written and read

What is decoded from the sorted JSON form of a value has that form. The value itself need not come back:
a map that is read has its entries in order, and a leap second is read as its text shows it. This is said
here of simple data, of lists and of maps.
-/
namespace ControlLoop

namespace Json.Node

mutual

/-- A value without faults is read as it is. -/
lemma read_ofJson : ∀ v : Json, (ofJson v).read = .ok v
  | .null | .bool _ | .num _ | .str _ => rfl
  | .arr items => by
    rw [ofJson, read, readItems_ofItems items]
    rfl
  | .obj members => by
    rw [ofJson, read, readMembers_ofMembers members]
    rfl

lemma readItems_ofItems : ∀ l : List Json, readItems (ofItems l) = .ok l
  | [] => rfl
  | v :: rest => by
    rw [ofItems, readItems, read_ofJson v, readItems_ofItems rest]
    rfl

lemma readMembers_ofMembers : ∀ l : List (String × Json), readMembers (ofMembers l) = .ok l
  | [] => rfl
  | (k, v) :: rest => by
    rw [ofMembers, readMembers, read_ofJson v, readMembers_ofMembers rest]
    rfl

end

end Json.Node

namespace Source

/-- An entry of a map is a member of its JSON form. -/
lemma map_insertEntry {α : Type} (encode : α → Json) (k : String) (a : α) (l : List (String × α)) :
    (insertEntry k a l).map (fun e => (e.1, encode e.2)) =
      Json.insertMember k (encode a) (l.map fun e => (e.1, encode e.2)) := by
  fun_induction insertEntry k a l <;> simp_all [Json.insertMember]

end Source

/-- What is decoded from the sorted form of a value has that form, which is never null. -/
structure Steady {α : Type} (encode : α → Json) (decode : Source → Decoded α) : Prop where
  same : ∀ a b, decode (Source.ofJson (encode a).sorted) = .ok b →
    (encode b).sorted = (encode a).sorted
  given : ∀ a, (encode a).sorted ≠ .null

namespace Steady

variable {α : Type} {encode : α → Json} {decode : Source → Decoded α}

/-! ## Simple values -/

lemma string : Steady Json.str Source.decodeString where
  same a b h := by
    simp only [Json.sorted] at h ⊢
    obtain rfl : a = b := Except.ok.inj h
    rfl
  given a := by simp [Json.sorted]

lemma bool : Steady Json.bool Source.decodeBool where
  same a b h := by
    simp only [Json.sorted] at h ⊢
    obtain rfl : a = b := Except.ok.inj h
    rfl
  given a := by simp [Json.sorted]

lemma int (low high : Int) (expected : String) :
    Steady Json.int (Source.decodeInt low high expected) where
  same a b h := by
    simp only [Json.int, Json.sorted] at h ⊢
    simp only [Source.decodeInt, Source.ofJson, Json.Node.ofJson] at h
    split at h
    · obtain rfl : a = b := Except.ok.inj h
      rfl
    · cases h
  given a := by simp [Json.int, Json.sorted]

lemma time : Steady Json.ofTime Source.decodeTime where
  same a b h := by
    simp only [Json.ofTime, Json.sorted] at h ⊢
    simp only [Source.decodeTime, Source.ofJson, Json.Node.ofJson] at h
    cases hparse : Timestamp.parse a.render with
    | error e => rw [hparse] at h; cases h
    | ok t =>
      rw [hparse] at h
      obtain rfl : t = b := Except.ok.inj h
      rw [Timestamp.render_of_parse_render hparse]
  given a := by simp [Json.ofTime, Json.sorted]

lemma amount : Steady Amount.encode Amount.decode where
  same a b h := by
    cases a with
    | count n =>
      simp only [Amount.encode, Json.int, Json.sorted] at h ⊢
      simp only [Amount.decode, Source.decodeInt, Source.ofJson, Json.Node.ofJson] at h
      split at h
      · obtain rfl : Amount.count n = b := Except.ok.inj h
        rfl
      · cases h
    | text s =>
      simp only [Amount.encode, Json.sorted] at h ⊢
      obtain rfl : Amount.text s = b := Except.ok.inj h
      rfl
  given a := by cases a <;> simp [Amount.encode, Json.int, Json.sorted]

/-! ## Lists and maps -/

lemma list (h : Steady encode decode) :
    Steady (fun l => .arr (l.map encode)) (Source.decodeList decode) where
  same a b hab := by
    simp only [Json.sorted, Json.arr.injEq] at hab ⊢
    simp only [Source.decodeList, Source.ofJson, Json.Node.ofJson] at hab
    induction a generalizing b with
    | nil =>
      obtain rfl : [] = b := Except.ok.inj hab
      rfl
    | cons x a ih =>
      obtain ⟨y, hy, hab⟩ := Store.bind_eq_ok hab
      obtain ⟨l, hl, hab⟩ := Store.bind_eq_ok hab
      obtain rfl : y :: l = b := Except.ok.inj hab
      simp only [List.map_cons, Json.sortedItems]
      rw [h.same x y hy, ih l hl]
  given a := by simp [Json.sorted]

/-- A map is read with its entries in order, whatever the order of the members. -/
lemma map_of_visit (h : Steady encode decode) {members : List (String × Json)}
    (hmembers : ∀ m ∈ members, ∃ a, m.2 = (encode a).sorted) {done l : List (String × α)}
    (hvisit : Source.visit (fun done k v => do return Source.insertEntry k (← decode v) done)
      .memory none done (Json.Node.ofMembers members) = .ok l) :
    l.map (fun e => (e.1, (encode e.2).sorted)) =
      Json.sortedMembers members (done.map fun e => (e.1, (encode e.2).sorted)) := by
  induction members generalizing done with
  | nil =>
    obtain rfl : done = l := Except.ok.inj hvisit
    rfl
  | cons x members ih =>
    obtain ⟨k, v⟩ := x
    obtain ⟨⟨a, rfl⟩, hrest⟩ := List.forall_mem_cons.mp hmembers
    obtain ⟨next, hnext, hvisit⟩ := Store.bind_eq_ok hvisit
    obtain ⟨b, hb, hnext⟩ := Store.bind_eq_ok hnext
    obtain rfl : Source.insertEntry k b done = next := Except.ok.inj hnext
    have hinsert := Source.map_insertEntry (fun a => (encode a).sorted) k b done
    rw [ih hrest hvisit, hinsert, h.same a b hb, Json.sortedMembers, Json.sorted_sorted]

lemma map (h : Steady encode decode) :
    Steady (fun l => .obj (l.map fun e => (e.1, encode e.2))) (Source.decodeMap decode) where
  same a b hab := by
    have hmembers : ∀ m ∈ Json.sortedMembers (a.map fun e => (e.1, encode e.2)) [],
        ∃ a, m.2 = (encode a).sorted := by
      intro m hm
      obtain hnil | ⟨v, hv, hsorted⟩ := Json.mem_sortedMembers hm
      · cases hnil
      · obtain ⟨e, -, he⟩ := List.mem_map.mp hv
        exact ⟨e.2, by rw [hsorted, ← (Prod.mk.inj he).2]⟩
    have hb : Json.obj (b.map fun e => (e.1, (encode e.2).sorted)) =
        (Json.obj (a.map fun e => (e.1, encode e.2))).sorted.sorted := by
      simp only [Json.sorted, Source.decodeMap, Source.decodeMembers, Source.ofJson,
        Json.Node.ofJson] at hab ⊢
      rw [h.map_of_visit hmembers hab]
      rfl
    have hsorted : (Json.obj (b.map fun e => (e.1, encode e.2))).sorted =
        (Json.obj (b.map fun e => (e.1, (encode e.2).sorted))).sorted := by
      rw [Json.sorted, Json.sorted, ← Json.sortedMembers_map_sorted, List.map_map]
      rfl
    rw [hsorted, hb, Json.sorted_sorted, Json.sorted_sorted]
  given a := by simp [Json.sorted]

/-- A value that is written is not taken for an absent one. -/
lemma option (h : Steady encode decode) {a : α} {o : Option α}
    (hread : Source.decodeOption decode (Source.ofJson (encode a).sorted) = .ok o) :
    ∃ b, o = some b ∧ (encode b).sorted = (encode a).sorted := by
  have hgiven := h.given a
  have hsame := h.same a
  generalize (encode a).sorted = v at *
  have hdecode : (decode (Source.ofJson v)).map some = .ok o := by
    cases v <;> first | exact absurd rfl hgiven | exact hread
  obtain ⟨b, hb, rfl⟩ := Store.map_eq_ok hdecode
  exact ⟨b, rfl, hsame b hb⟩

end Steady

end ControlLoop
