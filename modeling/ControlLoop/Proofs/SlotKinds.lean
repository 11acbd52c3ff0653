import ControlLoop.Proofs.RecordSlots

/-!
# What the kinds of slots keep

Simple data, lists and maps come back as they were decoded, and so do slots that are made of them: fields
that may be absent, that have a value of their own, that must be there, or that are always the same.
Records that are gathered before they are finished come back if what is gathered does. Texts, integers
and what is made of them alone have a form of their own each.
-/
namespace ControlLoop

/-! ## Simple data -/

lemma Json.Node.eq_null_of_read {n : Json.Node} (h : n.read = .ok .null) : n = .null := by
  cases n with
  | null => rfl
  | arr items fault =>
    obtain ⟨l, -, h⟩ := Store.bind_eq_ok h
    cases fault <;> cases h
  | obj members fault =>
    obtain ⟨l, -, h⟩ := Store.bind_eq_ok h
    cases fault <;> cases h
  | bool | num | str | nameless | broken | unreadable => simp [Json.Node.read] at h

namespace Source

variable {low high : Int} {expected : String} {medium : Medium}

/-- An integer that is read is in its range, and one in its range is read. -/
lemma decodeInt_range {v : Source} {n : Int} (h : decodeInt low high expected v = .ok n) :
    low ≤ n ∧ n ≤ high := by
  unfold decodeInt at h
  split at h
  · split at h
    next hrange =>
      obtain rfl := Except.ok.inj h
      exact hrange
    · cases h
  next hnode =>
    cases hv : v.node <;> simp [unexpected, hv] at h hnode

lemma decodeInt_ofJson {n : Int} (h : low ≤ n ∧ n ≤ high) (medium : Medium) :
    decodeInt low high expected ⟨medium, .ofJson (.int n)⟩ = .ok n := by
  simp only [decodeInt, Json.int, Json.Node.ofJson, if_pos h]

lemma decodeOption_ok {α : Type} {decode : Source → Decoded α} {v : Source} {o : Option α}
    (h : decodeOption decode v = .ok o) : o = none ∨ ∃ a, o = some a ∧ decode v = .ok a := by
  unfold decodeOption at h
  split at h
  · exact .inl (Except.ok.inj h).symm
  · obtain ⟨a, ha, rfl⟩ := Store.map_eq_ok h
    exact .inr ⟨a, rfl, ha⟩

lemma decodeOption_of_ne_null {α : Type} (decode : Source → Decoded α) {v : Json} (hv : v ≠ .null) :
    decodeOption decode (ofJson v) = (decode (ofJson v)).map some := by
  cases v <;> first | exact absurd rfl hv | rfl

lemma decodeOption_eq_some {α : Type} {decode : Source → Decoded α} {v : Json} (hv : v ≠ .null)
    {a : α} (h : decode ⟨medium, .ofJson v⟩ = .ok a) :
    decodeOption decode ⟨medium, .ofJson v⟩ = .ok (some a) := by
  have hmap : decodeOption decode ⟨medium, .ofJson v⟩ = (decode ⟨medium, .ofJson v⟩).map some := by
    cases v <;> first | exact absurd rfl hv | rfl
  rw [hmap, h]
  rfl

lemma decodeOption_getD {α : Type} {decode : Source → Decoded α} {v : Json} (hv : v ≠ .null)
    {a default : α} (h : decode ⟨medium, .ofJson v⟩ = .ok a) :
    (decodeOption decode ⟨medium, .ofJson v⟩).map (·.getD default) = .ok a := by
  rw [decodeOption_eq_some hv h]
  rfl

lemma decodeDocument_ofJson (v : Json) : decodeDocument ⟨medium, .ofJson v⟩ = .ok v.sorted := by
  simp only [decodeDocument, decodeAny, Json.Node.read_ofJson]
  rfl

/-- A document that is not read from null is in order, and is not null. -/
lemma decodeOption_document {v : Source} {d : Json}
    (h : decodeOption decodeDocument v = .ok (some d)) : d.sorted = d ∧ d ≠ .null := by
  unfold decodeOption at h
  split at h
  · cases h
  next hnode =>
    obtain ⟨_, hd, hsome⟩ := Store.map_eq_ok h
    obtain rfl := Option.some.inj hsome
    obtain ⟨u, hu, hd⟩ := Store.bind_eq_ok hd
    obtain rfl := Except.ok.inj hd
    refine ⟨Json.sorted_sorted u, Json.sorted_ne_null ?_⟩
    rintro rfl
    cases hread : v.node.read with
    | error e =>
      rw [decodeAny, hread] at hu
      cases hu
    | ok u =>
      rw [decodeAny, hread] at hu
      obtain rfl := Except.ok.inj hu
      exact hnode (Json.Node.eq_null_of_read hread)

end Source

namespace Lossless

variable {α : Type} {encode : α → Json} {decode : Source → Decoded α}

lemma string : Lossless Json.str Source.decodeString where
  toSteady := .string
  again _ _ _ := rfl

lemma bool : Lossless Json.bool Source.decodeBool where
  toSteady := .bool
  again _ _ _ := rfl

lemma int (low high : Int) (expected : String) :
    Lossless Json.int (Source.decodeInt low high expected) where
  toSteady := .int _ _ _
  again _ _ h := Source.decodeInt_ofJson (Source.decodeInt_range h) .memory

lemma int32 : Lossless Json.int Source.decodeInt32 := int _ _ _

lemma int64 : Lossless Json.int Source.decodeInt64 := int _ _ _

/-- A point in time that can be read is decoded from its text. -/
lemma decodeTime_ofTime {t : Timestamp} (h : t.Readable) (medium : Medium) :
    Source.decodeTime ⟨medium, .ofJson (.ofTime t)⟩ = .ok t := by
  simp only [Source.decodeTime, Json.ofTime, Json.Node.ofJson, Timestamp.parse_render h]
  rfl

lemma readable_of_decodeTime {v : Source} {t : Timestamp} (h : Source.decodeTime v = .ok t) :
    t.Readable := by
  unfold Source.decodeTime at h
  split at h
  next text _ =>
    cases hparse : Timestamp.parse text with
    | error e => rw [hparse] at h; cases h
    | ok u =>
      rw [hparse] at h
      obtain rfl : u = t := Except.ok.inj h
      exact Timestamp.readable_of_parse hparse
  next hnode =>
    cases hv : v.node <;> simp [Source.unexpected, hv] at h hnode

lemma time : Lossless Json.ofTime Source.decodeTime where
  toSteady := .time
  again _ _ h := decodeTime_ofTime (readable_of_decodeTime h) .memory

/-! ## Lists and maps -/

lemma decodeItems_again (h : Lossless encode decode) {medium : Medium} {fault : Option _}
    {nodes : List Json.Node} {l : List α}
    (hread : Source.decodeItems decode medium fault nodes = .ok l) :
    Source.decodeItems decode .memory none
      (Json.Node.ofItems (Json.sortedItems (l.map encode))) = .ok l := by
  induction nodes generalizing l with
  | nil =>
    cases fault with
    | some e => cases hread
    | none =>
      obtain rfl : [] = l := Except.ok.inj hread
      rfl
  | cons n nodes ih =>
    obtain ⟨a, ha, hread⟩ := Store.bind_eq_ok hread
    obtain ⟨as, has, hread⟩ := Store.bind_eq_ok hread
    obtain rfl : a :: as = l := Except.ok.inj hread
    have hfirst : decode ⟨.memory, .ofJson (encode a).sorted⟩ = .ok a := h.again _ a ha
    simp only [List.map_cons, Json.sortedItems, Json.Node.ofItems, Source.decodeItems, hfirst, ih has]
    rfl

lemma list (h : Lossless encode decode) :
    Lossless (fun l => .arr (l.map encode)) (Source.decodeList decode) where
  toSteady := h.toSteady.list
  again v l hread := by
    unfold Source.decodeList at hread
    split at hread
    · simp only [Json.sorted, Source.decodeList, Source.ofJson, Json.Node.ofJson]
      exact h.decodeItems_again hread
    next hnode =>
      cases hv : v.node <;> simp [Source.unexpected, hv] at hread hnode

lemma strings : Lossless Json.ofStrings (Source.decodeList Source.decodeString) := string.list

/-- Entries in increasing order of keys. -/
def Ascending (m : List (String × α)) : Prop := m.Pairwise fun e f => e.1 < f.1

lemma increasing_map (f : α → Json) {m : List (String × α)} :
    Json.Increasing (m.map fun e => (e.1, f e.2)) ↔ Ascending m := by
  rw [Json.Increasing, List.pairwise_map]
  rfl

lemma Ascending.insertEntry {m : List (String × α)} (h : Ascending m) (k : String) (a : α) :
    Ascending (Source.insertEntry k a m) := by
  rw [← increasing_map fun _ => Json.null, Source.map_insertEntry fun _ => Json.null]
  exact ((increasing_map fun _ => Json.null).mpr h).insertMember k _

lemma mem_insertEntry {k : String} {a : α} {m : List (String × α)} {e : String × α}
    (h : e ∈ Source.insertEntry k a m) : e = (k, a) ∨ e ∈ m := by
  fun_induction Source.insertEntry k a m <;> grind

lemma insertEntry_concat {k : String} {a : α} {m : List (String × α)} (h : ∀ e ∈ m, e.1 < k) :
    Source.insertEntry k a m = m ++ [(k, a)] := by
  induction m with
  | nil => rfl
  | cons e m ih =>
    have hlt : e.1 < k := h e List.mem_cons_self
    rw [Source.insertEntry, if_neg (String.lt_asymm hlt), if_neg (String.ne_of_lt hlt),
      ih fun e he => h e (List.mem_cons_of_mem _ he)]
    rfl

/-- A member is read as an entry of a map. -/
def Entry (decode : Source → Decoded α) (m : String × Json) (e : String × α) : Prop :=
  m.1 = e.1 ∧ decode (Source.ofJson m.2) = .ok e.2

lemma visit_entry (done : List (String × α)) (k : String) (v : Json) (members : List (String × Json)) :
    Source.visit (fun done k v => do return Source.insertEntry k (← decode v) done) .memory none done
        (Json.Node.ofMembers ((k, v) :: members)) =
      (decode (Source.ofJson v)).bind fun a =>
        Source.visit (fun done k v => do return Source.insertEntry k (← decode v) done) .memory none
          (Source.insertEntry k a done) (Json.Node.ofMembers members) := by
  rw [Json.Node.ofMembers, Source.visit, Source.ofJson]
  cases decode ⟨.memory, .ofJson v⟩ <;> rfl

/-- Members in increasing order are read one by one. -/
lemma decodeMap_iff {members : List (String × Json)} (hmembers : Json.Increasing members)
    {m : List (String × α)} : Source.decodeMap decode (Source.ofJson (.obj members)) = .ok m ↔
      List.Forall₂ (Entry decode) members m := by
  -- The members that are left stand behind the entries that are done.
  have hvisit (done : List (String × α)) (hdone : ∀ e ∈ done, ∀ n ∈ members, e.1 < n.1) :
      Source.visit (fun done k v => do return Source.insertEntry k (← decode v) done)
        .memory none done (Json.Node.ofMembers members) = .ok m ↔
      ∃ l, m = done ++ l ∧ List.Forall₂ (Entry decode) members l := by
    induction members generalizing done with
    | nil => simp [Json.Node.ofMembers, Source.visit, Source.endMembers, eq_comm]
    | cons n members ih =>
      obtain ⟨k, v⟩ := n
      obtain ⟨hfirst, hrest⟩ := List.pairwise_cons.mp hmembers
      rw [visit_entry]
      cases hread : decode (Source.ofJson v) with
      | error e => simp [Except.bind, List.forall₂_cons_left_iff, Entry, hread]
      | ok a =>
        rw [Except.bind, insertEntry_concat fun e he => hdone e he (k, v) List.mem_cons_self, ih hrest]
        · simp [List.forall₂_cons_left_iff, Entry, hread]
        · intro e he n hn
          rcases List.mem_append.mp he with he | he
          · exact hdone e he n (List.mem_cons_of_mem _ hn)
          · obtain rfl := List.mem_singleton.mp he
            exact hfirst n hn
  exact (hvisit [] (by simp)).trans (by simp)

/-- The sorted form of a map whose entries are in order. -/
lemma sorted_map {m : List (String × α)} (h : Ascending m) :
    (Json.obj (m.map fun e => (e.1, encode e.2))).sorted =
      .obj (m.map fun e => (e.1, (encode e.2).sorted)) := by
  rw [Json.sorted, ← Json.sortedMembers_map_sorted, List.map_map,
    Json.sortedMembers_of_increasing, List.nil_append]
  · rfl
  · exact (increasing_map fun a => (encode a).sorted).mpr h
  · intro n hn
    obtain ⟨e, -, rfl⟩ := List.mem_map.mp hn
    exact Json.sorted_sorted _

/-- A map that is read has its entries in order, and they are read again. -/
lemma ascending_of_decodeMap (h : Lossless encode decode) {v : Source} {m : List (String × α)}
    (hread : Source.decodeMap decode v = .ok m) :
    Ascending m ∧ ∀ e ∈ m, decode (Source.ofJson (encode e.2).sorted) = .ok e.2 := by
  refine Source.decodeMembers_invariant (P := fun m => Ascending m ∧
    ∀ e ∈ m, decode (Source.ofJson (encode e.2).sorted) = .ok e.2) ?_ ⟨List.Pairwise.nil, by simp⟩ hread
  rintro m k v m' ⟨hm, hitems⟩ hstep
  obtain ⟨a, ha, hstep⟩ := Store.bind_eq_ok hstep
  obtain rfl := Except.ok.inj hstep
  refine ⟨hm.insertEntry k a, fun e he => ?_⟩
  rcases mem_insertEntry he with rfl | he
  · exact h.again v a ha
  · exact hitems e he

lemma map (h : Lossless encode decode) :
    Lossless (fun m => .obj (m.map fun e => (e.1, encode e.2))) (Source.decodeMap decode) where
  toSteady := h.toSteady.map
  again v m hread := by
    obtain ⟨hm, hitems⟩ := h.ascending_of_decodeMap hread
    rw [sorted_map hm, decodeMap_iff ((increasing_map fun a => (encode a).sorted).mpr hm),
      List.forall₂_map_left_iff, List.forall₂_same]
    exact fun e he => ⟨rfl, hitems e he⟩

lemma stringMap : Lossless Json.ofStringMap (Source.decodeMap Source.decodeString) := string.map

end Lossless

/-! ## Data that are gathered first -/

namespace Source

variable {α β : Type} (name : String) (a : α)

@[simp] lemma require_none_bind (f : α → Decoded β) :
    (require name none >>= f) = .error (.missingField name) := rfl

@[simp] lemma require_some_bind (f : α → Decoded β) : (require name (some a) >>= f) = f a := rfl

@[simp] lemma map_require_none (f : α → β) :
    f <$> require name none = .error (.missingField name) := rfl

@[simp] lemma map_require_some (f : α → β) : f <$> require name (some a) = .ok (f a) := rfl

end Source

section

variable {α σ : Type} {encode : α → Json} {decode : Source → Decoded α} {record : σ → Json}
  {gather : Source → Decoded σ}

/-- What has been gathered is all that is decoded. -/
lemma Source.finish_iff {finish : σ → Decoded α} {embed : α → σ}
    (hfinish : ∀ g a, finish g = .ok a ↔ g = embed a) (v : Source) (a : α) :
    (gather v >>= finish) = .ok a ↔ gather v = .ok (embed a) := by
  cases hv : gather v with
  | error e => exact ⟨nofun, nofun⟩
  | ok g => exact (hfinish g a).trans ⟨congrArg Except.ok, Except.ok.inj⟩

/-- Data come back if what is gathered of them does. -/
lemma Recovers.through (h : Recovers record gather) (embed : α → σ)
    (hencode : ∀ a, encode a = record (embed a))
    (hdecode : ∀ v a, decode v = .ok a ↔ gather v = .ok (embed a)) : Recovers encode decode where
  again v a ha := by
    rw [hdecode, hencode]
    exact h.again v (embed a) ((hdecode v a).mp ha)
  given a := by
    rw [hencode]
    exact h.given (embed a)

lemma Lossless.through (h : Lossless record gather) (embed : α → σ)
    (hencode : ∀ a, encode a = record (embed a))
    (hdecode : ∀ v a, decode v = .ok a ↔ gather v = .ok (embed a)) : Lossless encode decode where
  toRecovers := h.toRecovers.through embed hencode hdecode
  same a b hb := by
    rw [hdecode, hencode] at hb
    rw [hencode, hencode]
    exact h.same (embed a) (embed b) hb

end

/-! ## Kinds of slots -/

namespace Slot

variable {σ ι : Type} {start : σ} {name : String} {encode : ι → Json} {decode : Source → Decoded ι}

lemma restored_optional (hgiven : ∀ a, (encode a).sorted ≠ .null) {get : σ → Option ι}
    (hstart : get start = none) {o : Option ι} : (optional name get encode decode).Restored start o ↔
      ∀ a ∈ o, decode (Source.ofJson (encode a).sorted) = .ok a := by
  cases o with
  | none => simp [Restored, Given, hstart]
  | some a =>
    simp only [Restored, Given, optional, Option.map_some, Option.mem_some_iff, forall_eq']
    refine ⟨fun hread => ?_, Source.decodeOption_eq_some (hgiven a)⟩
    obtain hnone | ⟨b, hb, hdecode⟩ := Source.decodeOption_ok hread
    · cases hnone
    · obtain rfl := Option.some.inj hb
      exact hdecode

lemma restored_plain (hgiven : ∀ a, (encode a).sorted ≠ .null) {get : σ → ι} {default a : ι} :
    (plain name get encode decode default).Restored start a ↔
      decode (Source.ofJson (encode a).sorted) = .ok a := by
  simp only [Restored, Given, plain, Option.map_some]
  refine ⟨fun hread => ?_, Source.decodeOption_getD (hgiven a)⟩
  obtain ⟨o, ho, rfl⟩ := Store.map_eq_ok hread
  obtain ⟨b, hb, rfl⟩ := Store.map_eq_ok
    ((Source.decodeOption_of_ne_null decode (hgiven (o.getD default))).symm.trans ho)
  exact hb

lemma restored_required {get : σ → Option ι} (hstart : get start = none) {o : Option ι} :
    (required name get encode decode).Restored start o ↔
      ∀ a ∈ o, decode (Source.ofJson (encode a).sorted) = .ok a := by
  cases o with
  | none => simp [Restored, Given, hstart]
  | some a =>
    simp only [Restored, Given, required, Option.map_some, Option.mem_some_iff, forall_eq']
    refine ⟨fun hread => ?_, fun hread => congrArg (Except.map some) hread⟩
    obtain ⟨b, hb, hsome⟩ := Store.map_eq_ok hread
    obtain rfl := Option.some.inj hsome
    exact hb

lemma restores_optional (h : Recovers encode decode) {get : σ → Option ι} (hstart : get start = none) :
    (optional name get encode decode).Restores start where
  again v o hread := by
    refine (restored_optional h.given hstart).mpr ?_
    rintro a rfl
    obtain hnone | ⟨b, hb, hdecode⟩ := Source.decodeOption_ok hread
    · cases hnone
    · exact h.again v a (Option.some.inj hb ▸ hdecode)
  initial := by
    refine (restored_optional h.given hstart).mpr ?_
    simp [hstart]

lemma restores_defaulted (h : Recovers encode decode) {get : σ → ι}
    (hstart : decode (Source.ofJson (encode (get start)).sorted) = .ok (get start)) :
    (defaulted name get encode decode).Restores start where
  again := h.again
  initial := hstart

lemma restores_document {get : σ → Option Json} (hstart : get start = none) :
    (document name get).Restores start where
  again v o hread := by
    cases o with
    | none => exact hstart
    | some d =>
      obtain ⟨hsorted, hgiven⟩ := Source.decodeOption_document hread
      have hagain : Source.decodeDocument (Source.ofJson d) = .ok d :=
        (Source.decodeDocument_ofJson d).trans (congrArg Except.ok hsorted)
      simp only [Restored, Given, document, Option.map_some, hsorted]
      exact Source.decodeOption_eq_some hgiven hagain
  initial := by simp [Restored, Given, hstart]

lemma restores_required (h : Recovers encode decode) {get : σ → Option ι} (hstart : get start = none) :
    (required name get encode decode).Restores start where
  again v o hread := by
    refine (restored_required hstart).mpr ?_
    obtain ⟨a, ha, rfl⟩ := Store.map_eq_ok hread
    rintro b hb
    obtain rfl := Option.some.inj hb
    exact h.again v a ha
  initial := by
    refine (restored_required hstart).mpr ?_
    simp [hstart]

lemma keeps_optional (h : Lossless encode decode) {get : σ → Option ι} (hstart : get start = none) :
    (optional name get encode decode).Keeps start where
  toRestores := restores_optional h.toRecovers hstart
  same o v o' hwrite hread := by
    obtain ⟨a, -, rfl⟩ := Option.map_eq_some_iff.mp hwrite
    obtain ⟨b, rfl, hb⟩ := h.option hread
    exact congrArg some hb
  absent _ _ := by simp [hstart]

lemma keeps_plain (h : Lossless encode decode) {get : σ → ι} {default : ι}
    (hdefault : decode (Source.ofJson (encode default).sorted) = .ok default)
    (hstart : get start = default) : (plain name get encode decode default).Keeps start where
  same a v b hwrite hread := by
    obtain rfl := Option.some.inj hwrite
    obtain ⟨o, ho, rfl⟩ := Store.map_eq_ok hread
    obtain ⟨b, rfl, hb⟩ := h.option ho
    exact congrArg some hb
  absent _ hwrite := by cases hwrite
  again v a hread := by
    refine (restored_plain h.given).mpr ?_
    obtain ⟨o, ho, rfl⟩ := Store.map_eq_ok hread
    obtain rfl | ⟨a, rfl, ha⟩ := Source.decodeOption_ok ho
    · exact hdefault
    · exact h.again v a ha
  initial := by
    refine (restored_plain h.given).mpr ?_
    simpa [hstart] using hdefault

lemma keeps_defaulted (h : Lossless encode decode) {get : σ → ι}
    (hstart : decode (Source.ofJson (encode (get start)).sorted) = .ok (get start)) :
    (defaulted name get encode decode).Keeps start where
  toRestores := restores_defaulted h.toRecovers hstart
  same a v b hwrite hread := by
    obtain rfl := Option.some.inj hwrite
    exact congrArg some (h.same a b hread)
  absent _ hwrite := by cases hwrite

lemma keeps_required (h : Lossless encode decode) {get : σ → Option ι} (hstart : get start = none) :
    (required name get encode decode).Keeps start where
  toRestores := restores_required h.toRecovers hstart
  same o v o' hwrite hread := by
    obtain ⟨a, -, rfl⟩ := Option.map_eq_some_iff.mp hwrite
    obtain ⟨b, hb, rfl⟩ := Store.map_eq_ok hread
    exact congrArg some (h.same a b hb)
  absent _ _ := by simp [hstart]

lemma keeps_fixed {value : Json} {read : Source → Decoded Unit}
    (h : read (Source.ofJson value.sorted) = .ok ()) :
    (fixed name value read : Slot σ).Keeps start where
  same _ v _ hwrite _ := by
    obtain rfl := Option.some.inj hwrite
    rfl
  absent _ hwrite := by cases hwrite
  again _ _ _ := h
  initial := h

end Slot

/-! ## Data with a form of their own -/

/-- Different data have different forms, so what is decoded from the form of a value is the value. -/
structure Exact {α : Type} (encode : α → Json) (decode : Source → Decoded α) : Prop extends
    Lossless encode decode where
  injective : ∀ a b, (encode a).sorted = (encode b).sorted → a = b

namespace Exact

variable {α : Type} {encode : α → Json} {decode : Source → Decoded α} {a b : α} {o o' : Option α}

lemma eq_of_decode (h : Exact encode decode)
    (hab : decode (Source.ofJson (encode a).sorted) = .ok b) : b = a :=
  h.injective b a (h.same a b hab)

lemma eq_of_map (h : Exact encode decode)
    (hoo : (o.map encode).map Json.sorted = (o'.map encode).map Json.sorted) : o = o' := by
  rw [Option.map_map, Option.map_map] at hoo
  exact Option.map_injective (fun a b => h.injective a b) hoo

/-- A value that is written is read. -/
lemma eq_of_decodeOption (h : Exact encode decode)
    (hread : Source.decodeOption decode (Source.ofJson (encode a).sorted) = .ok o) : o = some a := by
  obtain ⟨b, rfl, hb⟩ := h.option hread
  rw [h.injective b a hb]

lemma string : Exact Json.str Source.decodeString where
  toLossless := .string
  injective a b h := by simpa [Json.sorted] using h

lemma int (low high : Int) (expected : String) :
    Exact Json.int (Source.decodeInt low high expected) where
  toLossless := .int _ _ _
  injective a b h := by simpa [Json.int, Json.sorted] using h

lemma int32 : Exact Json.int Source.decodeInt32 := int _ _ _

lemma int64 : Exact Json.int Source.decodeInt64 := int _ _ _

lemma list (h : Exact encode decode) :
    Exact (fun l => .arr (l.map encode)) (Source.decodeList decode) where
  toLossless := h.toLossless.list
  injective a b hab := by
    simp only [Json.sorted, Json.arr.injEq] at hab
    induction a generalizing b with
    | nil => cases b <;> simp [Json.sortedItems] at hab ⊢
    | cons x a ih =>
      cases b with
      | nil => simp [Json.sortedItems] at hab
      | cons y b =>
        obtain ⟨hfirst, hrest⟩ := List.cons.inj hab
        rw [h.injective x y hfirst, ih b hrest]

lemma strings : Exact Json.ofStrings (Source.decodeList Source.decodeString) := string.list

end Exact

namespace Slot

variable {σ ι : Type} {member : σ → String → Source → Decoded σ} {slots : List (Slot σ)}

/-- Different values of the slot have different forms. -/
def Shows (p : Slot σ) : Prop :=
  ∀ t t', (p.write t).map Json.sorted = (p.write t').map Json.sorted → t = t'

/-- Different records have different forms if different values of their slots have. -/
lemma Reads.encode_injective (h : Reads member slots) (hnames : (slots.map (·.name)).Nodup)
    (hshows : ∀ p ∈ slots, p.Shows) (s t : σ)
    (hform : (encode slots s).sorted = (encode slots t).sorted) : s = t :=
  h.determined s t fun p hp => hshows p hp _ _ (write_of_encode_eq hnames hform hp)

variable {name : String} {get : σ → Option ι} {encode : ι → Json} {decode : Source → Decoded ι}

lemma shows_optional (h : Exact encode decode) : (optional name get encode decode).Shows :=
  fun _ _ => h.eq_of_map

lemma shows_required (h : Exact encode decode) : (required name get encode decode).Shows :=
  fun _ _ => h.eq_of_map

end Slot

end ControlLoop
