import ControlLoop.Proofs.SteadyCodecs

/-!
# Records that come back

A record has slots: each has a name, a value in the record, a JSON form of the value, and a way to read
it. If the members of an object give the slots of a record their values, and no other member matters,
then the object is read as that record, in whatever order the members stand. So data that have been
decoded are decoded again from the form that they are written in, if this is true of the slots. And what
is decoded from the form of any record has that form, if this is true of the slots.
-/
namespace ControlLoop

/-- What has been decoded is decoded again from its sorted JSON form, which is never null. -/
structure Recovers {α : Type} (encode : α → Json) (decode : Source → Decoded α) : Prop where
  again : ∀ v a, decode v = .ok a → decode (Source.ofJson (encode a).sorted) = .ok a
  given : ∀ a, (encode a).sorted ≠ .null

/-- Data that have been decoded come back, and the form of all others stays. -/
structure Lossless {α : Type} (encode : α → Json) (decode : Source → Decoded α) : Prop extends
    Steady encode decode, Recovers encode decode

/-- A slot of a record. -/
structure Slot (σ : Type) where
  {τ : Type}
  name : String
  get : σ → τ
  write : τ → Option Json
  read : Source → Decoded τ

/-! ## Kinds of slots -/

namespace Slot

variable {σ ι : Type}

/-- A field that may be absent. -/
@[simp] def optional (name : String) (get : σ → Option ι) (encode : ι → Json)
    (decode : Source → Decoded ι) : Slot σ where
  name := name
  get := get
  write := Option.map encode
  read := Source.decodeOption decode

/-- A field that is always written, and has a value of its own if it is not read. -/
@[simp] def plain (name : String) (get : σ → ι) (encode : ι → Json) (decode : Source → Decoded ι)
    (default : ι) : Slot σ where
  name := name
  get := get
  write a := some (encode a)
  read v := (v.decodeOption decode).map (·.getD default)

/-- A field that is always written, and has a value of its own if it is absent. -/
@[simp] def defaulted (name : String) (get : σ → ι) (encode : ι → Json) (decode : Source → Decoded ι) :
    Slot σ where
  name := name
  get := get
  write a := some (encode a)
  read := decode

/-- Any value but null, in order. -/
@[simp] def document (name : String) (get : σ → Option Json) : Slot σ where
  name := name
  get := get
  write o := o
  read := Source.decodeOption Source.decodeDocument

/-- A field that must be met. -/
@[simp] def required (name : String) (get : σ → Option ι) (encode : ι → Json)
    (decode : Source → Decoded ι) : Slot σ where
  name := name
  get := get
  write := Option.map encode
  read v := (decode v).map some

/-- A member that is always the same. -/
@[simp] def fixed (name : String) (value : Json) (read : Source → Decoded Unit) : Slot σ where
  name := name
  get _ := ()
  write _ := some value
  read := read

end Slot

/-! ## Visits -/

namespace Source

variable {σ : Type} {step : σ → String → Source → Decoded σ} {medium : Medium} {P : σ → Prop}

/-- What no step breaks holds after a visit. -/
lemma visit_invariant (hstep : ∀ g n v g', P g → step g n v = .ok g' → P g') {fault : Option _}
    {members : List (String × Json.Node)} {g g' : σ} (hg : P g)
    (h : visit step medium fault g members = .ok g') : P g' := by
  induction members generalizing g with
  | nil =>
    cases fault with
    | none => exact Except.ok.inj h ▸ hg
    | some e => cases h
  | cons m members ih =>
    obtain ⟨next, hnext, h⟩ := Store.bind_eq_ok h
    exact ih (hstep g m.1 _ next hg hnext) h

lemma visitItems_invariant (hstep : ∀ g n v g', P g → step g n v = .ok g' → P g') {shape : String}
    {spare : List String} {fault : Option _} {names : List String} {nodes : List Json.Node}
    {index : Nat} {g g' : σ} (hg : P g)
    (h : visitItems shape spare step medium fault index g names nodes = .ok g') : P g' := by
  induction names generalizing nodes index g with
  | nil =>
    rw [visitItems] at h
    unfold endList at h
    split at h
    · exact Except.ok.inj h ▸ hg
    · cases h
    · cases h
  | cons name names ih =>
    cases nodes with
    | nil =>
      obtain ⟨-, -, h⟩ := Store.bind_eq_ok h
      split at h
      · exact ih hg h
      · cases h
    | cons n nodes =>
      obtain ⟨next, hnext, h⟩ := Store.bind_eq_ok h
      exact ih (hstep g name _ next hg hnext) h

lemma decodeMembers_invariant (hstep : ∀ g n v g', P g → step g n v = .ok g' → P g') {shape : String}
    {start g : σ} {v : Source} (hstart : P start)
    (h : decodeMembers shape step start v = .ok g) : P g := by
  unfold decodeMembers at h
  split at h
  · exact visit_invariant hstep hstart h
  · cases h
  next hnode _ =>
    cases hv : v.node <;> simp [unexpected, hv] at h hnode

lemma decodeSpared_invariant (hstep : ∀ g n v g', P g → step g n v = .ok g' → P g') {shape : String}
    {known spare : List String} {start g : σ} {v : Source} (hstart : P start)
    (h : decodeSpared shape known spare step start v = .ok g) : P g := by
  unfold decodeSpared at h
  split at h
  · exact visitItems_invariant hstep hstart h
  · obtain ⟨result, hresult, h⟩ := Store.bind_eq_ok h
    obtain rfl := Except.ok.inj h
    refine decodeMembers_invariant (P := fun r : List String × σ => P r.2) ?_ hstart hresult
    rintro ⟨taken, g⟩ n v ⟨taken', g'⟩ hg honce
    unfold once at honce
    split at honce
    · split at honce
      · cases honce
      · obtain ⟨next, hnext, honce⟩ := Store.bind_eq_ok honce
        obtain ⟨-, rfl⟩ := Prod.mk.inj (Except.ok.inj honce)
        exact hstep g n v next hg hnext
    · obtain ⟨-, rfl⟩ := Prod.mk.inj (Except.ok.inj honce)
      exact hg

/-- A visit that takes every member takes each known one once, if no name stands twice and others are
passed over anyway. -/
lemma visit_once_of_visit {known : List String} (hunknown : ∀ g n v, n ∉ known → step g n v = .ok g)
    {members : List (String × Json.Node)} (hnames : (members.map (·.1)).Nodup) (taken : List String)
    (htaken : ∀ m ∈ members, m.1 ∉ taken) {g g' : σ}
    (h : visit step medium none g members = .ok g') :
    ∃ names, visit (once known step) medium none (taken, g) members = .ok (names, g') := by
  induction members generalizing taken g with
  | nil =>
    obtain rfl : g = g' := Except.ok.inj h
    exact ⟨taken, rfl⟩
  | cons m members ih =>
    obtain ⟨k, n⟩ := m
    obtain ⟨next, hnext, h⟩ := Store.bind_eq_ok h
    rw [List.map_cons, List.nodup_cons] at hnames
    by_cases hk : k ∈ known
    · obtain ⟨names, hrest⟩ := ih hnames.2 (k :: taken) (fun m hm hmem => by
        rcases List.mem_cons.mp hmem with heq | hmem
        · exact hnames.1 (List.mem_map.mpr ⟨m, hm, heq⟩)
        · exact htaken m (List.mem_cons_of_mem _ hm) hmem) h
      refine ⟨names, ?_⟩
      simp only [visit, once, if_pos hk, if_neg (htaken (k, n) List.mem_cons_self), hnext]
      exact hrest
    · obtain rfl : g = next := Except.ok.inj ((hunknown g k _ hk).symm.trans hnext)
      obtain ⟨names, hrest⟩ := ih hnames.2 taken (fun m hm => htaken m (List.mem_cons_of_mem _ hm)) h
      refine ⟨names, ?_⟩
      simp only [visit, once, if_neg hk]
      exact hrest

/-- Taking each known member once is taking every member, if others are passed over anyway. -/
lemma visit_of_once {known : List String} (hunknown : ∀ g n v, n ∉ known → step g n v = .ok g)
    {members : List (String × Json.Node)} {fault : Option _} {taken : List String} {g : σ}
    {result : List String × σ}
    (h : visit (once known step) medium fault (taken, g) members = .ok result) :
    visit step medium fault g members = .ok result.2 := by
  induction members generalizing taken g with
  | nil =>
    cases fault with
    | none =>
      obtain rfl : (taken, g) = result := Except.ok.inj h
      rfl
    | some e => cases h
  | cons m members ih =>
    obtain ⟨k, n⟩ := m
    obtain ⟨⟨taken', g'⟩, hnext, hrest⟩ := Store.bind_eq_ok h
    have hstep : step g k ⟨medium, n⟩ = .ok g' := by
      unfold once at hnext
      split at hnext
      · split at hnext
        · cases hnext
        · obtain ⟨g'', hg'', hpair⟩ := Store.bind_eq_ok hnext
          rw [hg'', ← (Prod.mk.inj (Except.ok.inj hpair)).2]
      next hk =>
        rw [hunknown g k _ hk, ← (Prod.mk.inj (Except.ok.inj hnext)).2]
    simp only [visit, hstep]
    exact ih hrest

end Source

lemma Json.Node.map_fst_ofMembers (l : List (String × Json)) :
    (ofMembers l).map (·.1) = l.map (·.1) := by
  induction l with
  | nil => rfl
  | cons m l ih => rw [ofMembers, List.map_cons, List.map_cons, ih]

namespace Slot

variable {σ : Type} {member : σ → String → Source → Decoded σ} {start s : σ} {slots : List (Slot σ)}
  {medium : Medium} {members : List (String × Json)}

/-- What is seen of a record after a change of it. -/
@[simp] lemma map_put {τ υ : Type} (x : Decoded τ) (put : τ → σ) (get : σ → υ) :
    (put <$> x).map get = x.map fun a => get (put a) := by
  cases x <;> rfl

@[simp] lemma map_pure {τ : Type} (s : σ) (get : σ → τ) :
    (pure s : Decoded σ).map get = .ok (get s) := rfl

@[simp] lemma map_self {τ : Type} (x : Decoded τ) : (x.map fun a => a) = x := by cases x <;> rfl

/-- A decoder that takes one member of a record reads its slots: each comes from the member of its name
alone, other members are passed over, and there is no more to a record than its slots. -/
class Reads (member : σ → String → Source → Decoded σ) (slots : List (Slot σ)) : Prop where
  -- A decoder is a match on the name, and its slots are of the kinds above. The proofs are the same for
  -- all records that call the one `member` and the others `slots`.
  taken : ∀ p ∈ slots, ∀ g v, (member g p.name v).map p.get = p.read v := by
    intro p hp g v
    fin_cases hp <;> unfold member <;> simp
  kept : ∀ g n v, ∀ p ∈ slots, p.name ≠ n →
    (member g n v).map p.get = (member g n v).map fun _ => p.get g := by
      intro g n v
      unfold member
      split <;> simp only [slots, List.forall_mem_cons, List.not_mem_nil, ne_eq, not_true_eq_false,
        false_implies, implies_true, and_true, bind_pure_comp, Slot.map_put, Slot.map_pure,
        Slot.optional, Slot.plain, Slot.defaulted, Slot.document, Slot.required, Slot.fixed]
  unknown : ∀ g n v, n ∉ slots.map (·.name) → member g n v = .ok g := by
    intro g n v hn
    unfold member
    split <;> first | rfl | simp [slots] at hn
  determined : ∀ s t : σ, (∀ p ∈ slots, p.get s = p.get t) → s = t := by
    rintro ⟨⟩ ⟨⟩ h
    simp_all [slots]

/-- One slot comes from the member of its name alone. -/
structure Taken (member : σ → String → Source → Decoded σ) (p : Slot σ) : Prop where
  read : ∀ g v, (member g p.name v).map p.get = p.read v
  kept : ∀ g n v, p.name ≠ n → (member g n v).map p.get = (member g n v).map fun _ => p.get g

lemma Reads.slot (h : Reads member slots) {p : Slot σ} (hp : p ∈ slots) : Taken member p :=
  ⟨h.taken p hp, fun g n v => h.kept g n v p hp⟩

/-- A member or its absence gives a slot its value. -/
def Given (medium : Medium) (start : σ) (p : Slot σ) (o : Option Json) (t : p.τ) : Prop :=
  match o with
  | some v => p.read ⟨medium, .ofJson v⟩ = .ok t
  | none => p.get start = t

/-- The members give the slots of the record their values. -/
def Give (slots : List (Slot σ)) (medium : Medium) (members : List (String × Json))
    (start s : σ) : Prop :=
  ∀ p ∈ slots, p.Given medium start (Json.find? p.name members) (p.get s)

variable {p : Slot σ}

/-- What a member does to a slot of the record. -/
lemma Taken.get_of_member (h : Taken member p) {g g' : σ} {n : String} {v : Source}
    (hstep : member g n v = .ok g') :
    if p.name = n then p.read v = .ok (p.get g') else p.get g' = p.get g := by
  split
  next hn =>
    subst hn
    rw [← h.read g v, hstep]
    rfl
  next hn =>
    have hkept := h.kept g n v hn
    rw [hstep] at hkept
    exact Except.ok.inj hkept

/-- A slot that is read is given by the members. -/
lemma Taken.given (h : Taken member p) (hnames : (members.map (·.1)).Nodup)
    (hvisit : Source.visit member medium none start (Json.Node.ofMembers members) = .ok s) :
    p.Given medium start (Json.find? p.name members) (p.get s) := by
  induction members generalizing start with
  | nil =>
    obtain rfl : start = s := Except.ok.inj hvisit
    exact rfl
  | cons m members ih =>
    obtain ⟨k, v⟩ := m
    rw [List.map_cons, List.nodup_cons] at hnames
    obtain ⟨next, hnext, hvisit⟩ := Store.bind_eq_ok hvisit
    have hrest := ih hnames.2 hvisit
    have hget := h.get_of_member hnext
    simp only [Json.find?]
    by_cases hk : k = p.name
    · subst hk
      rw [if_pos rfl] at hget ⊢
      rw [Json.find?_eq_none hnames.1] at hrest
      exact hget.trans (congrArg Except.ok hrest)
    · rw [if_neg hk]
      rw [if_neg (Ne.symm hk)] at hget
      unfold Given at hrest ⊢
      split at hrest
      · exact hrest
      · exact hget.symm.trans hrest

lemma Taken.given_of_decodeMembers (h : Taken member p) {shape : String} {v : Json} (hv : v.Distinct)
    (hdecode : Source.decodeMembers shape member start (Source.ofJson v) = .ok s) {o : Option Json}
    (ho : v.get? p.name = o) : p.Given .memory start o (p.get s) := by
  subst ho
  cases v with
  | obj members => exact h.given hv hdecode
  | null | bool | num | str | arr => cases hdecode

/-- So is one whose name may be met only once, whatever the members are. -/
lemma Taken.given_of_once (h : Taken member p) {known taken : List String} (hknown : p.name ∈ known)
    {fault : Option _} {result : List String × σ}
    (hvisit : Source.visit (Source.once known member) medium fault (taken, start)
      (Json.Node.ofMembers members) = .ok result) :
    (p.name ∈ taken → p.get start = p.get result.2) ∧
    (p.name ∉ taken → p.Given medium start (Json.find? p.name members) (p.get result.2)) := by
  induction members generalizing taken start with
  | nil =>
    cases fault with
    | none =>
      obtain rfl : (taken, start) = result := Except.ok.inj hvisit
      exact ⟨fun _ => rfl, fun _ => rfl⟩
    | some e => cases hvisit
  | cons m members ih =>
    obtain ⟨k, v⟩ := m
    obtain ⟨⟨taken', next⟩, hnext, hvisit⟩ := Store.bind_eq_ok hvisit
    obtain ⟨hmet, hleft⟩ := ih hvisit
    unfold Source.once at hnext
    simp only [Json.find?]
    by_cases hk : k = p.name
    · subst hk
      rw [if_pos hknown] at hnext
      split at hnext
      · cases hnext
      next hfirst =>
        obtain ⟨g, hstep, hnext⟩ := Store.bind_eq_ok hnext
        obtain ⟨rfl, rfl⟩ := Prod.mk.inj (Except.ok.inj hnext)
        have hget := h.get_of_member hstep
        rw [if_pos rfl, hmet List.mem_cons_self] at hget
        rw [if_pos rfl]
        exact ⟨fun hmem => absurd hmem hfirst, fun _ => hget⟩
    · have hsame : (p.name ∈ taken' ↔ p.name ∈ taken) ∧ p.get start = p.get next := by
        split at hnext
        · split at hnext
          · cases hnext
          · obtain ⟨g, hstep, hnext⟩ := Store.bind_eq_ok hnext
            obtain ⟨rfl, rfl⟩ := Prod.mk.inj (Except.ok.inj hnext)
            have hget := h.get_of_member hstep
            rw [if_neg (Ne.symm hk)] at hget
            exact ⟨by simp [Ne.symm hk], hget.symm⟩
        · obtain ⟨rfl, rfl⟩ := Prod.mk.inj (Except.ok.inj hnext)
          exact ⟨Iff.rfl, rfl⟩
      rw [if_neg hk]
      unfold Given at hleft ⊢
      rw [← hsame.1, hsame.2]
      exact ⟨hmet, hleft⟩

/-- A slot of a record whose fields are fixed is given by the members. -/
lemma Taken.given_of_decodeSpared (h : Taken member p) (shape : String) {known : List String}
    (spare : List String) (hknown : p.name ∈ known)
    (hdecode : Source.decodeSpared shape known spare member start ⟨medium, .ofJson (.obj members)⟩ =
      .ok s) {o : Option Json} (ho : Json.find? p.name members = o) :
    p.Given medium start o (p.get s) := by
  subst ho
  obtain ⟨result, hvisit, hs⟩ := Store.bind_eq_ok hdecode
  obtain rfl := Except.ok.inj hs
  exact (h.given_of_once hknown hvisit).2 (by simp)

/-- Members that give the slots of a record their values are read as that record. -/
lemma Reads.visit (h : Reads member slots) (hnames : (members.map (·.1)).Nodup)
    (hgive : Give slots medium members start s) :
    Source.visit member medium none start (Json.Node.ofMembers members) = .ok s := by
  induction members generalizing start with
  | nil => exact congrArg Except.ok (h.determined start s fun p hp => hgive p hp)
  | cons m members ih =>
    obtain ⟨k, v⟩ := m
    rw [List.map_cons, List.nodup_cons] at hnames
    obtain ⟨next, hnext⟩ : ∃ next, member start k ⟨medium, .ofJson v⟩ = .ok next := by
      by_cases hk : k ∈ slots.map (·.name)
      · obtain ⟨p, hp, rfl⟩ := List.mem_map.mp hk
        have hread := hgive p hp
        simp only [Given, Json.find?, if_true] at hread
        rw [← h.taken p hp start] at hread
        obtain ⟨next, hnext, -⟩ := Store.map_eq_ok hread
        exact ⟨next, hnext⟩
      · exact ⟨start, h.unknown start k _ hk⟩
    rw [Json.Node.ofMembers, Source.visit, hnext]
    refine ih hnames.2 fun p hp => ?_
    have hp' := hgive p hp
    have hget := (h.slot hp).get_of_member hnext
    simp only [Given, Json.find?] at hp' ⊢
    by_cases hk : k = p.name
    · subst hk
      rw [if_pos rfl] at hp' hget
      rw [Json.find?_eq_none hnames.1]
      exact Except.ok.inj (hget.symm.trans hp')
    · rw [if_neg hk] at hp'
      rw [if_neg (Ne.symm hk)] at hget
      split at hp'
      · exact hp'
      · exact hget.trans hp'

/-- And what is read is given by the members. -/
lemma Reads.give (h : Reads member slots) (hnames : (members.map (·.1)).Nodup)
    (hvisit : Source.visit member medium none start (Json.Node.ofMembers members) = .ok s) :
    Give slots medium members start s :=
  fun _ hp => (h.slot hp).given hnames hvisit

lemma Reads.decodeMembers (h : Reads member slots) (shape : String)
    (hnames : (members.map (·.1)).Nodup) (hgive : Give slots medium members start s) :
    Source.decodeMembers shape member start ⟨medium, .ofJson (.obj members)⟩ = .ok s :=
  h.visit hnames hgive

lemma Reads.decodeSpared (h : Reads member slots) (shape : String) {known : List String}
    (spare : List String) (hknown : ∀ g n v, n ∉ known → member g n v = .ok g)
    (hnames : (members.map (·.1)).Nodup) (hgive : Give slots medium members start s) :
    Source.decodeSpared shape known spare member start ⟨medium, .ofJson (.obj members)⟩ = .ok s := by
  obtain ⟨names, honce⟩ := Source.visit_once_of_visit hknown
    (by rw [Json.Node.map_fst_ofMembers]; exact hnames) [] (by simp) (h.visit hnames hgive)
  simp only [Source.decodeSpared, Source.decodeMembers, Json.Node.ofJson, honce]
  rfl

/-- An object is read as a record exactly if its members give the slots their values. -/
lemma Reads.decodeMembers_iff (h : Reads member slots) (shape : String)
    (hnames : (members.map (·.1)).Nodup) :
    Source.decodeMembers shape member start ⟨medium, .ofJson (.obj members)⟩ = .ok s ↔
      Give slots medium members start s :=
  ⟨h.give hnames, h.decodeMembers shape hnames⟩

lemma Reads.decodeSpared_iff (h : Reads member slots) (shape : String) {known : List String}
    (spare : List String) (hknown : ∀ g n v, n ∉ known → member g n v = .ok g)
    (hnames : (members.map (·.1)).Nodup) :
    Source.decodeSpared shape known spare member start ⟨medium, .ofJson (.obj members)⟩ = .ok s ↔
      Give slots medium members start s := by
  refine ⟨fun hdecode => ?_, h.decodeSpared shape spare hknown hnames⟩
  obtain ⟨result, hresult, hs⟩ := Store.bind_eq_ok hdecode
  obtain rfl := Except.ok.inj hs
  exact h.give hnames (Source.visit_of_once hknown hresult)

/-! ## Records that are written -/

/-- The JSON form of a record. -/
def encode (slots : List (Slot σ)) (s : σ) : Json :=
  .ofMembers (slots.map fun p => (p.name, p.write (p.get s)))

/-- What is found under the name of a slot in the form of a record. -/
lemma find?_encode (hnames : (slots.map (·.name)).Nodup) (hp : p ∈ slots) (s : σ) :
    Json.find? p.name (encode slots s).sorted.membersOf = (p.write (p.get s)).map Json.sorted :=
  Json.get?_sorted_ofMembers (by rw [List.map_map]; exact hnames) (List.mem_map.mpr ⟨p, hp, rfl⟩)

lemma get?_encode (hnames : (slots.map (·.name)).Nodup) (hp : p ∈ slots) (s : σ) :
    (encode slots s).sorted.get? p.name = (p.write (p.get s)).map Json.sorted :=
  find?_encode hnames hp s

/-- Records whose slot of a name has one form are written alike there. -/
lemma get?_encode_congr (slots : List (Slot σ)) (hnames : (slots.map (·.name)).Nodup) (s t : σ)
    {name : String} (h : ∀ p ∈ slots, p.name = name →
      (p.write (p.get s)).map Json.sorted = (p.write (p.get t)).map Json.sorted) :
    (encode slots s).sorted.get? name = (encode slots t).sorted.get? name := by
  by_cases hname : name ∈ slots.map (·.name)
  · obtain ⟨p, hp, rfl⟩ := List.mem_map.mp hname
    rw [get?_encode hnames hp, get?_encode hnames hp, h p hp rfl]
  · have hnone (s : σ) : (encode slots s).sorted.get? name = none :=
      Json.get?_sorted_ofMembers_of_not_mem (by rw [List.map_map]; exact hnames)
        (by rw [List.map_map]; exact hname)
    rw [hnone, hnone]

lemma sorted_encode_congr {s t : σ} (h : ∀ p ∈ slots,
    (p.write (p.get t)).map Json.sorted = (p.write (p.get s)).map Json.sorted) :
    (encode slots t).sorted = (encode slots s).sorted := by
  simp only [encode, Json.ofMembers, Json.sorted, Json.obj.injEq]
  generalize ([] : List (String × Json)) = done
  induction slots generalizing done with
  | nil => rfl
  | cons p slots ih =>
    have hrest := ih fun p hp => h p (List.mem_cons_of_mem _ hp)
    have hfirst := h p List.mem_cons_self
    simp only [List.map_cons]
    cases hs : p.write (p.get s) with
    | none =>
      rw [hs, Option.map_none, Option.map_eq_none_iff] at hfirst
      rw [hfirst]
      exact hrest done
    | some v =>
      rw [hs] at hfirst
      obtain ⟨w, hw, hsorted⟩ := Option.map_eq_some_iff.mp hfirst
      rw [hw]
      simp only [Json.members, Json.sortedMembers, hsorted]
      exact hrest _

/-- Records that are written alike have slots that are. -/
lemma write_of_encode_eq (hnames : (slots.map (·.name)).Nodup) {s t : σ}
    (h : (encode slots s).sorted = (encode slots t).sorted) (hp : p ∈ slots) :
    (p.write (p.get s)).map Json.sorted = (p.write (p.get t)).map Json.sorted := by
  rw [← get?_encode hnames hp s, ← get?_encode hnames hp t, h]

/-- The form of a record has members, each of another name. -/
lemma exists_members (slots : List (Slot σ)) (s : σ) :
    ∃ members, (encode slots s).sorted = .obj members ∧ (members.map (·.1)).Nodup := by
  obtain ⟨members, hmembers⟩ : ∃ members, (encode slots s).sorted = .obj members := by
    rw [encode, Json.ofMembers, Json.sorted]
    exact ⟨_, rfl⟩
  have hdistinct := Json.distinct_sorted (encode slots s)
  rw [hmembers] at hdistinct
  exact ⟨members, hmembers, hdistinct⟩

/-! ## Slots that are read again -/

/-- The value is read again where it is written, and is that of an empty record where it is not. -/
def Restored (start : σ) (p : Slot σ) (t : p.τ) : Prop :=
  p.Given .memory start ((p.write t).map Json.sorted) t

/-- Whatever is read is read again. -/
structure Restores (start : σ) (p : Slot σ) : Prop where
  again : ∀ v t, p.read v = .ok t → p.Restored start t
  initial : p.Restored start (p.get start)

/-- The slots of a record are read again after a member has been taken, if they were before. -/
lemma Reads.restored_of_member (h : Reads member slots) (hrestores : ∀ p ∈ slots, p.Restores start)
    {g g' : σ} {n : String} {v : Source} (hg : ∀ p ∈ slots, p.Restored start (p.get g))
    (hstep : member g n v = .ok g') : ∀ p ∈ slots, p.Restored start (p.get g') := by
  intro p hp
  have hget := (h.slot hp).get_of_member hstep
  split at hget
  · exact (hrestores p hp).again v _ hget
  · exact hget ▸ hg p hp

/-- A record is given by its form exactly if its slots are read again. -/
lemma give_iff (hnames : (slots.map (·.name)).Nodup)
    (hmembers : (encode slots s).sorted = .obj members) :
    Give slots .memory members start s ↔ ∀ p ∈ slots, p.Restored start (p.get s) := by
  refine forall₂_congr fun p hp => ?_
  rw [Restored, ← find?_encode hnames hp, hmembers]
  rfl

/-- A record is read as it is written exactly if its slots are. -/
lemma Reads.legible_iff (h : Reads member slots) (shape : String) (hnames : (slots.map (·.name)).Nodup)
    (start s : σ) :
    Source.decodeMembers shape member start (Source.ofJson (encode slots s).sorted) = .ok s ↔
      ∀ p ∈ slots, p.Restored start (p.get s) := by
  obtain ⟨members, hmembers, hdistinct⟩ := exists_members slots s
  rw [← give_iff hnames hmembers, hmembers]
  exact h.decodeMembers_iff shape hdistinct

lemma Reads.legible_spared_iff (h : Reads member slots) (shape : String) {known : List String}
    (spare : List String) (hnames : (slots.map (·.name)).Nodup)
    (hknown : ∀ g n v, n ∉ known → member g n v = .ok g) (start s : σ) :
    Source.decodeSpared shape known spare member start (Source.ofJson (encode slots s).sorted) =
      .ok s ↔ ∀ p ∈ slots, p.Restored start (p.get s) := by
  obtain ⟨members, hmembers, hdistinct⟩ := exists_members slots s
  rw [← give_iff hnames hmembers, hmembers]
  exact h.decodeSpared_iff shape spare hknown hdistinct

/-! ## Slots whose form stays -/

/-- What is read from the form of a value has that form, and an empty record has a slot that is left out
if any has. Besides, whatever is read is read again. -/
structure Keeps (start : σ) (p : Slot σ) : Prop extends p.Restores start where
  same : ∀ t v t', p.write t = some v → p.read (Source.ofJson v.sorted) = .ok t' →
    (p.write t').map Json.sorted = some v.sorted
  absent : ∀ t, p.write t = none → p.write (p.get start) = none

/-- A slot that is given its value by the form of another one has that form. -/
lemma Keeps.write_of_given (h : p.Keeps start) {t t' : p.τ}
    (hgiven : p.Given .memory start ((p.write t).map Json.sorted) t') :
    (p.write t').map Json.sorted = (p.write t).map Json.sorted := by
  cases hwrite : p.write t with
  | none =>
    rw [hwrite] at hgiven
    obtain rfl : p.get start = t' := hgiven
    rw [h.absent t hwrite]
  | some v =>
    rw [hwrite] at hgiven
    exact h.same t v t' hwrite hgiven

/-- Where the members say what another record is written as, so does the record that they give. -/
lemma get?_encode_of_give (hnames : (slots.map (·.name)).Nodup) (hkeeps : ∀ p ∈ slots, p.Keeps start)
    {a b : σ} (hgive : Give slots .memory members start a) {name : String}
    (hname : Json.find? name members = (encode slots b).sorted.get? name) :
    (encode slots a).sorted.get? name = (encode slots b).sorted.get? name := by
  refine get?_encode_congr slots hnames a b fun p hp heq => ?_
  subst heq
  have hgiven := hgive p hp
  rw [hname, get?_encode hnames hp] at hgiven
  exact (hkeeps p hp).write_of_given hgiven

/-- Where a document says what another record is written as, so does the record that is decoded. -/
lemma Reads.get?_of_decode (h : Reads member slots) (shape : String)
    (hnames : (slots.map (·.name)).Nodup) (hkeeps : ∀ p ∈ slots, p.Keeps start) {v : Json}
    (hv : v.Distinct) {a b : σ}
    (hdecode : Source.decodeMembers shape member start (Source.ofJson v) = .ok a) {name : String}
    (hname : v.get? name = (encode slots b).sorted.get? name) :
    (encode slots a).sorted.get? name = (encode slots b).sorted.get? name := by
  cases v with
  | obj members =>
    exact get?_encode_of_give hnames hkeeps ((h.decodeMembers_iff shape hv).mp hdecode) hname
  | null | bool | num | str | arr => cases hdecode

lemma sorted_encode_of_give (hnames : (slots.map (·.name)).Nodup)
    (hkeeps : ∀ p ∈ slots, p.Keeps start) {a b : σ} (hb : (encode slots b).sorted = .obj members)
    (hgive : Give slots .memory members start a) :
    (encode slots a).sorted = (encode slots b).sorted := by
  refine sorted_encode_congr fun p hp => (hkeeps p hp).write_of_given ?_
  rw [← find?_encode hnames hp b, hb]
  exact hgive p hp

/-! ## Laws of records -/

lemma given_encode (slots : List (Slot σ)) (s : σ) : (encode slots s).sorted ≠ .null := by
  simp [encode, Json.ofMembers, Json.sorted]

/-- The law of a record. -/
lemma Reads.lossless (h : Reads member slots) (shape : String) (hnames : (slots.map (·.name)).Nodup)
    (hkeeps : ∀ p ∈ slots, p.Keeps start) :
    Lossless (encode slots) (Source.decodeMembers shape member start) where
  same a b hdecode := by
    obtain ⟨members, hmembers, hdistinct⟩ := exists_members slots a
    rw [hmembers] at hdecode
    exact sorted_encode_of_give hnames hkeeps hmembers
      ((h.decodeMembers_iff shape hdistinct).mp hdecode)
  again v s hdecode := by
    have hrestored : ∀ p ∈ slots, p.Restored start (p.get s) :=
      Source.decodeMembers_invariant (P := fun g => ∀ p ∈ slots, p.Restored start (p.get g))
        (fun g n v g' => h.restored_of_member fun p hp => (hkeeps p hp).toRestores)
        (fun p hp => (hkeeps p hp).initial) hdecode
    exact (h.legible_iff shape hnames start s).mpr hrestored
  given := given_encode slots

/-- The laws of a record whose fields are fixed. -/
lemma Reads.recovers_spared (h : Reads member slots) (shape : String) {known : List String}
    (spare : List String) (hnames : (slots.map (·.name)).Nodup)
    (hrestores : ∀ p ∈ slots, p.Restores start)
    (hknown : ∀ g n v, n ∉ known → member g n v = .ok g) :
    Recovers (encode slots) (Source.decodeSpared shape known spare member start) where
  again v s hdecode := by
    have hrestored : ∀ p ∈ slots, p.Restored start (p.get s) :=
      Source.decodeSpared_invariant (P := fun g => ∀ p ∈ slots, p.Restored start (p.get g))
        (fun g n v g' => h.restored_of_member hrestores) (fun p hp => (hrestores p hp).initial)
        hdecode
    exact (h.legible_spared_iff shape spare hnames hknown start s).mpr hrestored
  given := given_encode slots

lemma Reads.lossless_spared (h : Reads member slots) (shape : String) {known : List String}
    (spare : List String) (hnames : (slots.map (·.name)).Nodup)
    (hkeeps : ∀ p ∈ slots, p.Keeps start)
    (hknown : ∀ g n v, n ∉ known → member g n v = .ok g) :
    Lossless (encode slots) (Source.decodeSpared shape known spare member start) where
  toRecovers := h.recovers_spared shape spare hnames (fun p hp => (hkeeps p hp).toRestores) hknown
  same a b hdecode := by
    obtain ⟨members, hmembers, hdistinct⟩ := exists_members slots a
    rw [hmembers] at hdecode
    exact sorted_encode_of_give hnames hkeeps hmembers
      ((h.decodeSpared_iff shape spare hknown hdistinct).mp hdecode)

end Slot

end ControlLoop
