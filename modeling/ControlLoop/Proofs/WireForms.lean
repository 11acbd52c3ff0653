import ControlLoop.Proofs.LosslessCodecs

/-!
# Forms of written data

A form tells of any JSON value whether it stands for data of a certain kind, and in which one way such
data are written. It is put together from forms of texts, numbers, times, lists, maps and records, and
speaks of no decoder. It describes a decoder and an encoder if a value is decoded exactly if it has the
form, and what has been decoded is written in the way that the form tells.
-/
namespace ControlLoop

/-- How a value is written that has the form. -/
abbrev Form := Json → Option Json

/-- What comes of a member that is absent. -/
inductive Absence where
  | refused
  | omitted
  | filled (value : Json)

/-- What comes of one member of a record. -/
structure Rule where
  name : String
  absent : Absence
  /-- Whether null is the same as absence. -/
  orNull : Bool
  form : Form

namespace Absence

/-- What is written, if anything is. -/
def outcome : Absence → Option (Option Json)
  | refused => none
  | omitted => some none
  | filled value => some (some value)

end Absence

namespace Rule

/-- What is written for what is found under the name. -/
def outcome (r : Rule) : Option Json → Option (Option Json)
  | none => r.absent.outcome
  | some v => if r.orNull ∧ v = .null then r.absent.outcome else (r.form v).map some

/-- A member that is left out if it is absent or null. -/
@[simp] def optional (name : String) (form : Form) : Rule := ⟨name, .omitted, true, form⟩

/-- A member that has to be there. -/
@[simp] def required (name : String) (form : Form) : Rule := ⟨name, .refused, false, form⟩

/-- A member that is always written. -/
@[simp] def defaulted (name : String) (default : Json) (form : Form) : Rule :=
  ⟨name, .filled default, false, form⟩

/-- A member that is always written, also in the place of null. -/
@[simp] def lenient (name : String) (default : Json) (form : Form) : Rule :=
  ⟨name, .filled default, true, form⟩

/-- A member that is always the same. -/
@[simp] def constant (name : String) (value : Json) : Rule :=
  ⟨name, .filled value, false, fun _ => some value⟩

end Rule

namespace Form

def text : Form
  | .str s => some (.str s)
  | _ => none

def flag : Form
  | .bool b => some (.bool b)
  | _ => none

def integer (low high : Int) : Form
  | .num (.int n) => if low ≤ n ∧ n ≤ high then some (.int n) else none
  | _ => none

def int32 : Form := integer (-2147483648) 2147483647

def int64 : Form := integer (-9223372036854775808) 9223372036854775807

/-- A point in time, which is written to the second. -/
def time : Form
  | .str s => (Timestamp.parse s).toOption.map .ofTime
  | _ => none

/-- One of several names. It may be that of the only member of an object, which is null. -/
def oneOf (names : List String) : Form
  | .str s => if s ∈ names then some (.str s) else none
  | .obj [(s, .null)] => if s ∈ names then some (.str s) else none
  | _ => none

/-- Any value, as it is. -/
def document : Form := some

def list (item : Form) : Form
  | .arr items => (items.mapM item).map .arr
  | _ => none

def map (item : Form) : Form
  | .obj members => (members.mapM fun m => (item m.2).map (m.1, ·)).map .obj
  | _ => none

/-- The members that the rules tell of, and no others. -/
def ofRules (rules : List Rule) (members : List (String × Json)) : Option Json :=
  (rules.mapM fun r : Rule => (r.outcome (Json.find? r.name members)).map (r.name, ·)).map
    fun fields => (Json.ofMembers fields).sorted

/-- An object. -/
def struct (rules : List Rule) : Form
  | .obj members => ofRules rules members
  | _ => none

/-- An object, or a list of the members in the order in which they are known. The last ones may be
left out of the list if they are spare. -/
def record (known spare : List String) (rules : List Rule) : Form
  | .obj members => ofRules rules members
  | .arr items =>
    if items.length ≤ known.length ∧ ∀ name ∈ known.drop items.length, name ∈ spare then
      ofRules rules (known.zip items)
    else none
  | _ => none

/-! ## Lists that are gone through -/

section Each

variable {α β γ : Type*} {f : α → Option β} {l : List α} {m : List β}

lemma mapM_eq_some_iff : l.mapM f = some m ↔ List.Forall₂ (fun a b => f a = some b) l m := by
  induction l generalizing m with
  | nil => simp [eq_comm]
  | cons a l ih =>
    cases m with
    | nil => simp [Option.bind_eq_some_iff]
    | cons b m => simp [Option.bind_eq_some_iff, ih]

/-- Steps that each come through some intermediate value come through a list of them. -/
lemma forall₂_through {R : α → β → Prop} {S : α → γ → Prop} {f : γ → β}
    (h : ∀ a ∈ l, ∀ b, R a b ↔ ∃ c, S a c ∧ f c = b) :
    List.Forall₂ R l m ↔ ∃ k, List.Forall₂ S l k ∧ k.map f = m := by
  induction l generalizing m with
  | nil => simp [eq_comm]
  | cons a l ih =>
    rw [List.forall_mem_cons] at h
    simp only [List.forall₂_cons_left_iff, h.1, ih h.2]
    constructor
    · rintro ⟨b, m, ⟨c, hc, rfl⟩, ⟨k, hk, rfl⟩, rfl⟩
      exact ⟨c :: k, ⟨c, k, hc, hk, rfl⟩, rfl⟩
    · rintro ⟨_, ⟨c, k, hc, hk, rfl⟩, rfl⟩
      exact ⟨f c, k.map f, ⟨c, hc, rfl⟩, ⟨k, hk, rfl⟩, rfl⟩

lemma exists_of_forall₂ {R : α → β → Prop} (h : List.Forall₂ R l m) {a : α} (ha : a ∈ l) :
    ∃ b, R a b := by
  induction h with
  | nil => cases ha
  | cons hfirst _ ih =>
    rcases List.mem_cons.mp ha with rfl | ha
    · exact ⟨_, hfirst⟩
    · exact ih ha

lemma forall₂_imp_of_mem {R S : α → β → Prop} (h : List.Forall₂ R l m)
    (himp : ∀ a ∈ l, ∀ b, R a b → S a b) : List.Forall₂ S l m := by
  induction h with
  | nil => exact .nil
  | cons hfirst _ ih =>
    rw [List.forall_mem_cons] at himp
    exact .cons (himp.1 _ hfirst) (ih himp.2)

lemma map_fst_zip_eq_take (l : List α) (m : List β) : (l.zip m).map (·.1) = l.take m.length := by
  induction l generalizing m with
  | nil => simp
  | cons a l ih => cases m <;> simp [ih]

end Each

/-- A value in order is decoded exactly if it has the form, and this is how the result is written. -/
def Describes {α : Type} (form : Form) (encode : α → Json) (decode : Source → Decoded α) : Prop :=
  ∀ v w, v.sorted = v →
    (form v = some w ↔ ∃ a, decode (Source.ofJson v) = .ok a ∧ (encode a).sorted = w)

/-! ## Simple data -/

namespace Describes

lemma text : Describes text .str Source.decodeString := by
  intro v w _
  cases v <;> simp [Form.text, Source.decodeString, Source.unexpected, Source.ofJson,
    Json.Node.ofJson, Json.sorted]

lemma flag : Describes flag .bool Source.decodeBool := by
  intro v w _
  cases v <;> simp [Form.flag, Source.decodeBool, Source.unexpected, Source.ofJson,
    Json.Node.ofJson, Json.sorted]

lemma integer (low high : Int) (expected : String) :
    Describes (integer low high) .int (Source.decodeInt low high expected) := by
  intro v w _
  cases v with
  | num n =>
    cases n with
    | int n =>
      simp only [Form.integer, Source.decodeInt, Source.ofJson, Json.Node.ofJson]
      split <;> simp [Json.int, Json.sorted]
    | real x => simp [Form.integer, Source.decodeInt, Source.unexpected, Source.ofJson, Json.Node.ofJson]
  | null | bool | str | arr | obj =>
    simp [Form.integer, Source.decodeInt, Source.unexpected, Source.ofJson, Json.Node.ofJson]

lemma int32 : Describes int32 .int Source.decodeInt32 := integer _ _ _

lemma int64 : Describes int64 .int Source.decodeInt64 := integer _ _ _

lemma nat16 : Describes (Form.integer 0 65535) .nat Source.decodeNat16 := by
  intro v w hv
  rw [integer 0 65535 "u16" v w hv]
  constructor
  · rintro ⟨n, hn, rfl⟩
    refine ⟨n.toNat, by rw [Source.decodeNat16, hn]; rfl, ?_⟩
    rw [Json.nat, Int.toNat_of_nonneg (Source.decodeInt_range hn).1]
  · rintro ⟨n, hn, rfl⟩
    obtain ⟨i, hi, rfl⟩ := Store.map_eq_ok hn
    refine ⟨i, hi, ?_⟩
    rw [Json.nat, Int.toNat_of_nonneg (Source.decodeInt_range hi).1]

lemma time : Describes time .ofTime Source.decodeTime := by
  intro v w _
  cases v with
  | str s =>
    simp only [Form.time, Source.decodeTime, Source.ofJson, Json.Node.ofJson]
    cases Timestamp.parse s <;> simp [Except.toOption, Except.mapError, Json.ofTime, Json.sorted]
  | null | bool | num | arr | obj =>
    simp [Form.time, Source.decodeTime, Source.unexpected, Source.ofJson, Json.Node.ofJson]

lemma document : Describes document id Source.decodeDocument := by
  intro v w hv
  simp [Form.document, Source.ofJson, Source.decodeDocument_ofJson, hv]

lemma oneOf {α : Type} {encode : α → Json} {names : List (String × α)}
    (hencode : ∀ n ∈ names, encode n.2 = .str n.1) :
    Describes (oneOf (names.map (·.1))) encode (Source.decodeVariant names) := by
  -- A name that is read is written as it stands.
  have hname (s : String) (w : Json) :
      (if s ∈ names.map (·.1) then some (Json.str s) else none) = some w ↔
        ∃ a, Source.readName names s = .ok a ∧ (encode a).sorted = w := by
    unfold Source.readName
    cases hfind : names.find? fun n => n.1 = s with
    | none =>
      have hs : s ∉ names.map (·.1) := by
        rintro hs
        obtain ⟨n, hn, rfl⟩ := List.mem_map.mp hs
        simpa using List.find?_eq_none.mp hfind n hn
      simp [hs]
    | some n =>
      have hmem := List.mem_of_find?_eq_some hfind
      obtain rfl : n.1 = s := by simpa using List.find?_some hfind
      rw [if_pos (List.mem_map.mpr ⟨n, hmem, rfl⟩)]
      simp [hencode n hmem, Json.sorted]
  intro v w _
  cases v with
  | str s => exact hname s w
  | obj members =>
    rcases members with _ | ⟨⟨s, v⟩, _ | ⟨m, members⟩⟩
    · simp [Form.oneOf, Source.decodeVariant, Source.decodeVariantValue, Source.ofJson,
        Json.Node.ofJson, Json.Node.ofMembers]
    · have hvalue : Source.decodeVariant names (Source.ofJson (.obj [(s, v)])) =
          (Source.readName names s).bind fun a =>
            (Source.decodeNull (Source.ofJson v)).bind fun _ => .ok a := rfl
      rw [hvalue]
      cases v with
      | null =>
        refine (hname s w).trans ?_
        cases Source.readName names s <;>
          simp [Except.bind, Source.decodeNull, Source.ofJson, Json.Node.ofJson]
      | bool | num | str | arr | obj =>
        cases Source.readName names s <;>
          simp [Form.oneOf, Except.bind, Source.decodeNull, Source.unexpected, Source.ofJson,
            Json.Node.ofJson]
    · simp [Form.oneOf, Source.decodeVariant, Source.decodeVariantValue, Source.ofJson,
        Json.Node.ofJson, Json.Node.ofMembers]
  | null | bool | num | arr =>
    simp [Form.oneOf, Source.decodeVariant, Source.decodeVariantValue, Source.unexpected,
      Source.ofJson, Json.Node.ofJson]

/-! ## Lists and maps -/

variable {α : Type} {form : Form} {encode : α → Json} {decode : Source → Decoded α}

lemma decodeItems_iff {items : List Json} {l : List α} :
    Source.decodeItems decode .memory none (Json.Node.ofItems items) = .ok l ↔
      List.Forall₂ (fun v a => decode (Source.ofJson v) = .ok a) items l := by
  induction items generalizing l with
  | nil => simp [Json.Node.ofItems, Source.decodeItems, Source.endItems, eq_comm]
  | cons v items ih =>
    have hcons : Source.decodeItems decode .memory none (Json.Node.ofItems (v :: items)) =
        (decode (Source.ofJson v)).bind fun a =>
          (Source.decodeItems decode .memory none (Json.Node.ofItems items)).bind fun as =>
            .ok (a :: as) := rfl
    simp only [hcons, List.forall₂_cons_left_iff, ← ih]
    cases decode (Source.ofJson v) <;>
      cases Source.decodeItems decode .memory none (Json.Node.ofItems items) <;>
      simp [Except.bind, eq_comm]

lemma items_in_order {items : List Json} (h : (Json.arr items).sorted = .arr items) :
    ∀ v ∈ items, v.sorted = v := by
  rw [Json.sorted_arr, Json.arr.injEq] at h
  exact List.map_inj_left.mp (h.trans (List.map_id items).symm)

lemma list (h : Describes form encode decode) :
    Describes (list form) (fun l => .arr (l.map encode)) (Source.decodeList decode) := by
  intro v w hv
  cases v with
  | arr items =>
    have hitems := items_in_order hv
    have hread (l : List α) : Source.decodeList decode (Source.ofJson (.arr items)) = .ok l ↔ _ :=
      decodeItems_iff
    simp only [Form.list, Option.map_eq_some_iff, mapM_eq_some_iff, hread, Json.sorted_arr,
      forall₂_through fun x hx w => h x w (hitems x hx), List.map_map]
    constructor
    · rintro ⟨_, ⟨l, hl, rfl⟩, rfl⟩
      exact ⟨l, hl, rfl⟩
    · rintro ⟨l, hl, rfl⟩
      exact ⟨_, ⟨l, hl, rfl⟩, rfl⟩
  | null | bool | num | str | obj =>
    simp [Form.list, Source.decodeList, Source.unexpected, Source.ofJson, Json.Node.ofJson]

/-- The members of an object in order are in increasing order, and so are theirs. -/
lemma members_in_order {members : List (String × Json)} (h : (Json.obj members).sorted = .obj members) :
    Json.Increasing members ∧ ∀ m ∈ members, m.2.sorted = m.2 := by
  refine ⟨Json.increasing_of_sorted h, ?_⟩
  have hmembers : Json.sortedMembers members [] = members := by simpa [Json.sorted] using h
  have hvalues := Json.sorted_of_mem_sortedMembers members [] (by simp)
  rwa [hmembers] at hvalues

/-- Entries are in order if the members that they are read from are. -/
lemma ascending_of_entries {members : List (String × Json)} (hmembers : Json.Increasing members)
    {m : List (String × α)} (h : List.Forall₂ (Lossless.Entry decode) members m) :
    Lossless.Ascending m := by
  have hkeys : members.map (·.1) = m.map (·.1) := by
    clear hmembers
    induction h with
    | nil => rfl
    | cons hentry _ ih => rw [List.map_cons, List.map_cons, hentry.1, ih]
  rw [Json.Increasing, ← List.pairwise_map, hkeys, List.pairwise_map] at hmembers
  exact hmembers

lemma map (h : Describes form encode decode) :
    Describes (map form) (fun m => .obj (m.map fun e => (e.1, encode e.2)))
      (Source.decodeMap decode) := by
  intro v w hv
  cases v with
  | obj members =>
    obtain ⟨hincreasing, hvalues⟩ := members_in_order hv
    have hentry : ∀ m ∈ members, ∀ n : String × Json, (form m.2).map (m.1, ·) = some n ↔
        ∃ e, Lossless.Entry decode m e ∧ (e.1, (encode e.2).sorted) = n := by
      rintro ⟨k, v⟩ hm n
      simp only [Option.map_eq_some_iff, h v _ (hvalues _ hm), Lossless.Entry]
      constructor
      · rintro ⟨_, ⟨a, ha, rfl⟩, rfl⟩
        exact ⟨(k, a), ⟨rfl, ha⟩, rfl⟩
      · rintro ⟨⟨_, a⟩, ⟨rfl, ha⟩, rfl⟩
        exact ⟨_, ⟨a, ha, rfl⟩, rfl⟩
    rw [Form.map, Option.map_eq_some_iff]
    simp only [mapM_eq_some_iff, forall₂_through hentry, Lossless.decodeMap_iff hincreasing]
    constructor
    · rintro ⟨_, ⟨m, hm, rfl⟩, rfl⟩
      exact ⟨m, hm, Lossless.sorted_map (ascending_of_entries hincreasing hm)⟩
    · rintro ⟨m, hm, rfl⟩
      exact ⟨_, ⟨m, hm, rfl⟩, (Lossless.sorted_map (ascending_of_entries hincreasing hm)).symm⟩
  | null | bool | num | str | arr =>
    simp [Form.map, Source.decodeMap, Source.decodeMembers, Source.unexpected, Source.ofJson,
      Json.Node.ofJson]

end Describes

end Form

/-! ## Slots that obey rules -/

lemma Json.sorted_ofMembers_map (fields : List (String × Option Json)) :
    (ofMembers (fields.map fun f => (f.1, f.2.map sorted))).sorted = (ofMembers fields).sorted := by
  have hmembers : members (fields.map fun f => (f.1, f.2.map sorted)) =
      (members fields).map fun m => (m.1, m.2.sorted) := by
    induction fields with
    | nil => rfl
    | cons f fields ih => obtain ⟨k, _ | v⟩ := f <;> simp [members, ih]
  rw [ofMembers, ofMembers, sorted, sorted, hmembers, sortedMembers_map_sorted]

namespace Slot

variable {σ : Type} {member : σ → String → Source → Decoded σ} {start s : σ} {slots : List (Slot σ)}
  {rules : List Rule} {members : List (String × Json)} {p : Slot σ} {r : Rule}

/-- There is something to be written if the rule refuses absence. -/
def Filled (p : Slot σ) (r : Rule) (t : p.τ) : Prop := r.absent = .refused → (p.write t).isSome

/-- The rule tells what is written for the value that the slot takes. -/
structure Obeys (start : σ) (p : Slot σ) (r : Rule) : Prop where
  name : r.name = p.name
  outcome : ∀ found, (∀ v ∈ found, v.sorted = v) → ∀ w, r.outcome found = some w ↔
    ∃ t, p.Given .memory start found t ∧ p.Filled r t ∧ (p.write t).map Json.sorted = w

lemma Given.unique {found : Option Json} {t u : p.τ} (ht : p.Given .memory start found t)
    (hu : p.Given .memory start found u) : t = u := by
  cases found with
  | none => exact ht.symm.trans hu
  | some v => exact Except.ok.inj (ht.symm.trans hu)

/-- Members that can all be read are read. -/
lemma Reads.exists_visit (h : Reads member slots) (hnames : (members.map (·.1)).Nodup)
    (hread : ∀ p ∈ slots, ∃ t, p.Given .memory start (Json.find? p.name members) t) :
    ∃ s, Source.visit member .memory none start (Json.Node.ofMembers members) = .ok s := by
  induction members generalizing start with
  | nil => exact ⟨start, rfl⟩
  | cons m members ih =>
    obtain ⟨k, v⟩ := m
    rw [List.map_cons, List.nodup_cons] at hnames
    obtain ⟨next, hnext⟩ : ∃ next, member start k (Source.ofJson v) = .ok next := by
      by_cases hk : k ∈ slots.map (·.name)
      · obtain ⟨p, hp, rfl⟩ := List.mem_map.mp hk
        obtain ⟨t, ht⟩ := hread p hp
        rw [Json.find?, if_pos rfl, Given, ← h.taken p hp start] at ht
        obtain ⟨next, hnext, -⟩ := Store.map_eq_ok ht
        exact ⟨next, hnext⟩
      · exact ⟨start, h.unknown start k _ hk⟩
    obtain ⟨s, hs⟩ : ∃ s, Source.visit member .memory none next (Json.Node.ofMembers members) = .ok s := by
      refine ih hnames.2 fun p hp => ?_
      cases hfind : Json.find? p.name members with
      | none => exact ⟨p.get next, rfl⟩
      | some u =>
        have hk : k ≠ p.name := by
          rintro rfl
          rw [Json.find?_eq_none hnames.1] at hfind
          cases hfind
        obtain ⟨t, ht⟩ := hread p hp
        rw [Json.find?, if_neg hk, hfind] at ht
        exact ⟨t, ht⟩
    refine ⟨s, ?_⟩
    rw [Json.Node.ofMembers, Source.visit, ← Source.ofJson, hnext]
    exact hs

lemma Obeys.outcome_iff (h : p.Obeys start r) (horder : ∀ m ∈ members, m.2.sorted = m.2)
    (w : Option Json) : r.outcome (Json.find? r.name members) = some w ↔
      ∃ t, p.Given .memory start (Json.find? p.name members) t ∧ p.Filled r t ∧
        (p.write t).map Json.sorted = w := by
  rw [h.name]
  refine h.outcome _ (fun v hv => ?_) w
  exact horder _ (Json.mem_of_find? hv)

/-- What is written for a record is what the rules tell. -/
lemma ofRules_of_give (hobeys : List.Forall₂ (Obeys start) slots rules)
    (horder : ∀ m ∈ members, m.2.sorted = m.2) (hgive : Give slots .memory members start s)
    (hfilled : List.Forall₂ (fun p r => p.Filled r (p.get s)) slots rules) :
    Form.ofRules rules members = some (encode slots s).sorted := by
  have hfields : rules.mapM (fun r : Rule => (r.outcome (Json.find? r.name members)).map (r.name, ·)) =
      some (slots.map fun p => (p.name, (p.write (p.get s)).map Json.sorted)) := by
    unfold Give at hgive
    rw [Form.mapM_eq_some_iff, List.forall₂_map_right_iff]
    induction hobeys with
    | nil => exact .nil
    | cons hobey _ ih =>
      rw [List.forall_mem_cons] at hgive
      obtain ⟨hfirst, hrest⟩ := List.forall₂_cons.mp hfilled
      refine .cons ?_ (ih hgive.2 hrest)
      rw [(hobey.outcome_iff horder _).mpr ⟨_, hgive.1, hfirst, rfl⟩, hobey.name]
      rfl
  rw [Form.ofRules, hfields, encode, ← Json.sorted_ofMembers_map, List.map_map]
  rfl

/-- Members that the rules accept give the slots of some record their values. -/
lemma Reads.exists_give (h : Reads member slots) (hobeys : List.Forall₂ (Obeys start) slots rules)
    (hnames : (members.map (·.1)).Nodup) (horder : ∀ m ∈ members, m.2.sorted = m.2) {w : Json}
    (hform : Form.ofRules rules members = some w) :
    ∃ s, Give slots .memory members start s ∧
      List.Forall₂ (fun p r => p.Filled r (p.get s)) slots rules := by
  obtain ⟨fields, hfields, -⟩ := Option.map_eq_some_iff.mp hform
  rw [Form.mapM_eq_some_iff] at hfields
  have hgiven : List.Forall₂ (fun p r => ∃ t, p.Given .memory start (Json.find? p.name members) t ∧
      p.Filled r t) slots rules := by
    clear h hform
    induction hobeys generalizing fields with
    | nil => exact .nil
    | cons hobey _ ih =>
      obtain ⟨field, fields, hfield, hrest, rfl⟩ := List.forall₂_cons_left_iff.mp hfields
      obtain ⟨w, hw, -⟩ := Option.map_eq_some_iff.mp hfield
      obtain ⟨t, ht, hfilled, -⟩ := (hobey.outcome_iff horder w).mp hw
      exact .cons ⟨t, ht, hfilled⟩ (ih fields hrest)
  obtain ⟨s, hs⟩ := h.exists_visit hnames fun p hp => by
    obtain ⟨r, t, ht, -⟩ := Form.exists_of_forall₂ hgiven hp
    exact ⟨t, ht⟩
  have hgive := h.give hnames hs
  refine ⟨s, hgive, Form.forall₂_imp_of_mem hgiven fun p hp r => ?_⟩
  rintro ⟨t, ht, hfilled⟩
  rwa [← ht.unique (hgive p hp)]

lemma Reads.ofRules_iff (h : Reads member slots) (hobeys : List.Forall₂ (Obeys start) slots rules)
    (hnames : (members.map (·.1)).Nodup) (horder : ∀ m ∈ members, m.2.sorted = m.2) {w : Json} :
    Form.ofRules rules members = some w ↔ ∃ s, Give slots .memory members start s ∧
      List.Forall₂ (fun p r => p.Filled r (p.get s)) slots rules ∧ (encode slots s).sorted = w := by
  constructor
  · intro hform
    obtain ⟨s, hgive, hfilled⟩ := h.exists_give hobeys hnames horder hform
    rw [ofRules_of_give hobeys horder hgive hfilled] at hform
    exact ⟨s, hgive, hfilled, Option.some.inj hform⟩
  · rintro ⟨s, hgive, hfilled, rfl⟩
    exact ofRules_of_give hobeys horder hgive hfilled

end Slot

/-! ## Records -/

/-- A list is taken for the members of a record if it has none too many, and none too few. -/
lemma Source.visitItems_iff {σ : Type} {step : σ → String → Source → Decoded σ} {shape : String}
    {spare names : List String} {items : List Json} {index : Nat} {g s : σ} :
    visitItems shape spare step .memory none index g names (Json.Node.ofItems items) = .ok s ↔
      (items.length ≤ names.length ∧ ∀ name ∈ names.drop items.length, name ∈ spare) ∧
        visit step .memory none g (Json.Node.ofMembers (names.zip items)) = .ok s := by
  induction names generalizing items index g with
  | nil =>
    cases items with
    | nil => simp [visitItems, endList, visit, endMembers, Json.Node.ofItems, Json.Node.ofMembers]
    | cons v items => simp [visitItems, endList, Json.Node.ofItems]
  | cons name names ih =>
    cases items with
    | nil =>
      have hrest := @ih [] (index + 1) g
      simp only [Json.Node.ofItems] at hrest ⊢
      rw [visitItems]
      by_cases hname : name ∈ spare
      · simpa [hname, endItems, bind, Except.bind] using hrest
      · simp [hname, endItems, bind, Except.bind]
    | cons v items =>
      rw [Json.Node.ofItems, visitItems, List.zip_cons_cons, Json.Node.ofMembers, visit]
      cases step g name ⟨.memory, .ofJson v⟩ with
      | error e => simp [bind, Except.bind]
      | ok next => simpa [bind, Except.bind] using ih

namespace Slot.Reads

variable {σ α : Type} {member : σ → String → Source → Decoded σ} {start : σ} {slots : List (Slot σ)}
  {rules : List Rule} {encode : α → Json} {decode : Source → Decoded α}

/-- Objects of members that follow rules. -/
lemma describes_struct (h : Reads member slots) (hobeys : List.Forall₂ (Obeys start) slots rules)
    (shape : String) (hfilled : ∀ s, List.Forall₂ (fun p r => p.Filled r (p.get s)) slots rules) :
    Form.Describes (.struct rules) (Slot.encode slots)
      (Source.decodeMembers shape member start) := by
  intro v w hv
  cases v with
  | obj members =>
    obtain ⟨hincreasing, horder⟩ := Form.Describes.members_in_order hv
    have hnames : (members.map (·.1)).Nodup := hincreasing.distinct
    rw [Form.struct, h.ofRules_iff hobeys hnames horder]
    simp only [Source.ofJson, h.decodeMembers_iff shape hnames, hfilled, true_and]
  | null | bool | num | str | arr =>
    simp [Form.struct, Source.decodeMembers, Source.unexpected, Source.ofJson, Json.Node.ofJson]

/-- Records whose members are known. They may be gathered first. -/
lemma describes_record (h : Reads member slots) (hobeys : List.Forall₂ (Obeys start) slots rules)
    {shape : String} {known spare : List String} (hknown : known.Nodup)
    (hunknown : ∀ g n v, n ∉ known → member g n v = .ok g) (embed : α → σ)
    (hencode : ∀ a, encode a = Slot.encode slots (embed a))
    (hdecode : ∀ v a, decode v = .ok a ↔
      Source.decodeSpared shape known spare member start v = .ok (embed a))
    (hfilled : ∀ s, List.Forall₂ (fun p r => p.Filled r (p.get s)) slots rules ↔ ∃ a, embed a = s) :
    Form.Describes (.record known spare rules) encode decode := by
  intro v w hv
  have hgathered : Form.record known spare rules v = some w ↔
      ∃ s, Source.decodeSpared shape known spare member start (Source.ofJson v) = .ok s ∧
        List.Forall₂ (fun p r => p.Filled r (p.get s)) slots rules ∧
        (Slot.encode slots s).sorted = w := by
    cases v with
    | obj members =>
      obtain ⟨hincreasing, horder⟩ := Form.Describes.members_in_order hv
      have hnames : (members.map (·.1)).Nodup := hincreasing.distinct
      rw [Form.record, h.ofRules_iff hobeys hnames horder]
      simp only [Source.ofJson, h.decodeSpared_iff shape spare hunknown hnames]
    | arr items =>
      have hitems := Form.Describes.items_in_order hv
      have hnames : ((known.zip items).map (·.1)).Nodup := by
        rw [Form.map_fst_zip_eq_take]
        exact hknown.sublist (List.take_sublist _ _)
      have horder : ∀ m ∈ known.zip items, m.2.sorted = m.2 := fun m hm =>
        hitems m.2 (List.of_mem_zip hm).2
      have hread (s : σ) : Source.decodeSpared shape known spare member start (Source.ofJson (.arr items)) =
          .ok s ↔ _ := Source.visitItems_iff
      have hgive (s : σ) : Source.visit member .memory none start
          (Json.Node.ofMembers (known.zip items)) = .ok s ↔ _ := ⟨h.give hnames, h.visit hnames⟩
      rw [Form.record]
      split
      next hfits => simp only [h.ofRules_iff hobeys hnames horder, hread, hgive,
        and_iff_right hfits]
      next hfits => simp [hread, hfits]
    | null | bool | num | str =>
      simp [Form.record, Source.decodeSpared, Source.decodeMembers, Source.unexpected, Source.ofJson,
        Json.Node.ofJson, bind, Except.bind]
  rw [hgathered]
  constructor
  · rintro ⟨s, hs, hfill, rfl⟩
    obtain ⟨a, rfl⟩ := (hfilled s).mp hfill
    exact ⟨a, (hdecode _ a).mpr hs, by rw [hencode]⟩
  · rintro ⟨a, ha, rfl⟩
    exact ⟨embed a, (hdecode _ a).mp ha, (hfilled _).mpr ⟨a, rfl⟩, by rw [hencode]⟩

end Slot.Reads

/-! ## Kinds of slots -/

namespace Slot

variable {σ ι : Type} {start : σ} {name : String} {form : Form} {encode : ι → Json}
  {decode : Source → Decoded ι}

/-- A slot obeys a rule if it keeps its value where the rule sees absence, and elsewhere takes a value that
is written as the form tells. -/
lemma Obeys.of_parts {p : Slot σ} {r : Rule} (hname : r.name = p.name)
    (habsent : ∀ w, r.absent.outcome = some w ↔
      p.Filled r (p.get start) ∧ (p.write (p.get start)).map Json.sorted = w)
    (hnull : r.orNull → p.read (Source.ofJson .null) = .ok (p.get start))
    (hgiven : ∀ v, v.sorted = v → ¬ (r.orNull ∧ v = .null) →
      (∀ w, r.form v = some w ↔
        ∃ t, p.read (Source.ofJson v) = .ok t ∧ (p.write t).map Json.sorted = some w) ∧
      ∀ t, p.read (Source.ofJson v) = .ok t → (p.write t).isSome) : p.Obeys start r where
  name := hname
  outcome found hfound w := by
    cases found with
    | none => simp [Rule.outcome, Given, habsent]
    | some v =>
      rw [Rule.outcome]
      split
      next hv =>
        obtain ⟨hor, rfl⟩ := hv
        have hread : p.read ⟨.memory, .ofJson .null⟩ = .ok (p.get start) := hnull hor
        simp [Given, hread, habsent]
      next hv =>
        obtain ⟨hform, hsome⟩ := hgiven v (hfound v rfl) hv
        rw [Option.map_eq_some_iff]
        simp only [hform, Given]
        constructor
        · rintro ⟨u, ⟨t, ht, hu⟩, rfl⟩
          exact ⟨t, ht, fun _ => hsome t ht, hu⟩
        · rintro ⟨t, ht, -, rfl⟩
          obtain ⟨u, hu⟩ := Option.isSome_iff_exists.mp (hsome t ht)
          exact ⟨u.sorted, ⟨t, ht, by rw [hu]; rfl⟩, by rw [hu]; rfl⟩

lemma obeys_optional (h : form.Describes encode decode) {get : σ → Option ι} (hstart : get start = none) :
    (optional name get encode decode).Obeys start (.optional name form) := by
  refine .of_parts rfl (by simp [Absence.outcome, Filled, hstart]) (fun _ => ?_) fun v hv hgiven => ?_
  · simp [Source.decodeOption, Source.ofJson, Json.Node.ofJson, hstart]
  · have hnull : v ≠ .null := by simpa using hgiven
    simp only [optional, Rule.optional, Source.decodeOption_of_ne_null decode hnull, h v _ hv]
    cases decode (Source.ofJson v) <;> simp [Except.map]

lemma obeys_plain (h : form.Describes encode decode) {get : σ → ι} {default : ι}
    (hstart : get start = default) :
    (plain name get encode decode default).Obeys start (.lenient name (encode default).sorted form) := by
  refine .of_parts rfl (by simp [Absence.outcome, Filled, hstart]) (fun _ => ?_) fun v hv hgiven => ?_
  · simp [Source.decodeOption, Source.ofJson, Json.Node.ofJson, hstart, Except.map]
  · have hnull : v ≠ .null := by simpa using hgiven
    simp only [plain, Rule.lenient, Source.decodeOption_of_ne_null decode hnull, h v _ hv]
    cases decode (Source.ofJson v) <;> simp [Except.map]

lemma obeys_defaulted (h : form.Describes encode decode) {get : σ → ι} {default : ι}
    (hstart : get start = default) :
    (defaulted name get encode decode).Obeys start (.defaulted name (encode default).sorted form) := by
  refine .of_parts rfl (by simp [Absence.outcome, Filled, hstart]) (by simp) fun v hv _ => ?_
  simp [h v _ hv]

lemma obeys_required (h : form.Describes encode decode) {get : σ → Option ι} (hstart : get start = none) :
    (required name get encode decode).Obeys start (.required name form) := by
  refine .of_parts rfl (by simp [Absence.outcome, Filled, hstart]) (by simp) fun v hv _ => ?_
  simp only [required, Rule.required, h v _ hv]
  cases decode (Source.ofJson v) <;> simp [Except.map]

lemma obeys_fixed {value : Json} (hvalue : value.sorted = value) :
    (fixed name value fun _ => .ok () : Slot σ).Obeys start (.constant name value) := by
  refine .of_parts rfl (by simp [Absence.outcome, Filled, hvalue]) (by simp) fun v hv _ => ?_
  simp [hvalue]

lemma obeys_document {get : σ → Option Json} (hstart : get start = none) :
    (document name get).Obeys start (.optional name .document) := by
  refine .of_parts rfl (by simp [Absence.outcome, Filled, hstart]) (fun _ => ?_) fun v hv hgiven => ?_
  · simp [Source.decodeOption, Source.ofJson, Json.Node.ofJson, hstart]
  · have hnull : v ≠ .null := by simpa using hgiven
    simp only [document, Rule.optional, Source.decodeOption_of_ne_null _ hnull,
      Form.Describes.document v _ hv]
    cases Source.decodeDocument (Source.ofJson v) <;> simp [Except.map]

end Slot

end ControlLoop
