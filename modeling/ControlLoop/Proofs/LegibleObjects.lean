import ControlLoop.Proofs.KeyLifecycle
import ControlLoop.Proofs.LosslessCodecs
import ControlLoop.Proofs.WrittenParts

/-!
# Stored objects that can be read

A store decodes the JSON form of an object to change it, so a request that is made in good order can
still fail on an object that is not decoded from its own form. If the objects that are created are, then
those that are stored are too, as long as their generations fit a word of 64 bits. What a write leaves
is then known exactly.
-/
namespace ControlLoop

namespace Json

variable {name : String} {v : Json} {l : List (String × Json)}

lemma find?_eq_map (name : String) (l : List (String × Json)) :
    find? name l = (l.find? fun m => m.1 = name).map (·.2) := by
  induction l with
  | nil => rfl
  | cons m l ih =>
    rw [find?, List.find?_cons]
    by_cases hm : m.1 = name <;> simp [hm, ih]

/-- A member that is there already is put in its place. -/
lemma insertMember_of_find? (h : Increasing l) (hv : find? name l = some v) :
    insertMember name v l = l := by
  refine (h.insertMember name v).ext h fun n => ?_
  rw [find?_insertMember]
  split
  next hn => rw [← hn, hv]
  · rfl

lemma eraseMember_of_find? (h : find? name l = none) : eraseMember name l = l := by
  rw [find?_eq_map, Option.map_eq_none_iff, List.find?_eq_none] at h
  exact List.filter_eq_self.mpr fun m hm => by simpa using h m hm

end Json

/-! ## Metadata -/

namespace Metadata

variable {m : Metadata}

/-- The metadata are decoded from their own form. -/
def Legible (m : Metadata) : Prop := decode m.encode.sorted = .ok m

lemma legible_iff : m.Legible ↔ ∀ p ∈ slots, p.Restored {} (p.get m) :=
  reads.legible_iff "ObjectMeta" (by decide) {} m

/-- Their times have a text, and their generation fits a word of 64 bits. -/
lemma Legible.ranges (h : m.Legible) :
    (∀ t ∈ m.creationTimestamp, t.Readable) ∧ (∀ t ∈ m.deletionTimestamp, t.Readable) ∧
      ∀ g ∈ m.generation, -9223372036854775808 ≤ g ∧ g ≤ 9223372036854775807 := by
  rw [legible_iff] at h
  simp only [slots, List.forall_mem_cons] at h
  obtain ⟨-, hcreated, -, hdeleted, -, -, hgeneration, -⟩ := h
  have hread {o : Option Timestamp} {name : String} {get : Metadata → Option Timestamp}
      (hstart : get {} = none)
      (h : (Slot.optional name get .ofTime Source.decodeTime).Restored {} o) :
      ∀ t ∈ o, t.Readable :=
    fun t ht =>
      Lossless.readable_of_decodeTime ((Slot.restored_optional Lossless.time.given hstart).mp h t ht)
  exact ⟨hread rfl hcreated, hread rfl hdeleted, fun g hg =>
    Source.decodeInt_range ((Slot.restored_optional Lossless.int64.given rfl).mp hgeneration g hg)⟩

/-- What a store writes into metadata leaves them legible. -/
lemma Legible.owned (h : m.Legible) (name ns uid version : Option String)
    {created deleted : Option Timestamp} {generation : Option Int}
    (hcreated : ∀ t ∈ created, t.Readable) (hdeleted : ∀ t ∈ deleted, t.Readable)
    (hgeneration : ∀ g ∈ generation, -9223372036854775808 ≤ g ∧ g ≤ 9223372036854775807) :
    Legible { m with
      name := name, ns := ns, uid := uid, resourceVersion := version, creationTimestamp := created,
      deletionTimestamp := deleted, generation := generation } := by
  have htext (o : Option String) {name : String} {get : Metadata → Option String}
      (hstart : get {} = none) :
      (Slot.optional name get .str Source.decodeString).Restored {} o :=
    (Slot.restored_optional Lossless.string.given hstart).mpr fun _ _ => rfl
  rw [legible_iff] at h ⊢
  simp only [slots, List.forall_mem_cons, List.not_mem_nil, false_implies, implies_true,
    and_true] at h ⊢
  obtain ⟨hannotations, -, hgrace, -, hfinalizers, hgenerateName, -, hlabels, hmanagedFields, -, -,
    howners, -, hselfLink, -⟩ := h
  refine ⟨hannotations, (Slot.restored_optional Lossless.time.given rfl).mpr ?_, hgrace,
    (Slot.restored_optional Lossless.time.given rfl).mpr ?_, hfinalizers, hgenerateName,
    (Slot.restored_optional Lossless.int64.given rfl).mpr ?_, hlabels, hmanagedFields, htext name rfl,
    htext ns rfl, howners, htext version rfl, hselfLink, htext uid rfl⟩
  · exact fun t ht => Lossless.decodeTime_ofTime (hcreated t ht) .memory
  · exact fun t ht => Lossless.decodeTime_ofTime (hdeleted t ht) .memory
  · exact fun g hg => Source.decodeInt_ofJson (hgeneration g hg) .memory

end Metadata

/-! ## Objects -/

namespace Resource

variable {α : Type} [Resource α]

/-- The object is decoded from its own form. -/
def Legible (a : α) : Prop := decode (toJson a) = .ok a

/-- The object without a generation. -/
def unnumbered (a : α) : α := setMetadata a { metadata a with generation := none }

end Resource

open Resource (specOf statusOf Legible unnumbered)

/-- What has been decoded is legible, and whether an object is legible is a matter of its metadata and of
the rest of it. -/
class LegibleResource (α : Type) [Resource α] : Prop where
  lossless : Lossless (Resource.encode (α := α)) Resource.decode
  metadata_legible : ∀ a : α, Legible a → (Resource.metadata a).Legible
  setMetadata_legible : ∀ (a : α) (m : Metadata), Legible a → m.Legible →
    Legible (Resource.setMetadata a m)
  setMetadata_setMetadata : ∀ (a : α) (m n : Metadata),
    Resource.setMetadata (Resource.setMetadata a m) n = Resource.setMetadata a n
  setMetadata_metadata : ∀ a : α, Resource.setMetadata a (Resource.metadata a) = a

namespace Widget

lemma legible_iff {w : Widget} : Legible w ↔ ∀ p ∈ slots, p.Restored {} (p.get w.gathered) :=
  (decode_iff _ w).trans
    (reads.legible_spared_iff "Widget" [] (by decide) member_unknown {} w.gathered)

instance : LegibleResource Widget where
  lossless := lossless
  metadata_legible w h := by
    rw [legible_iff] at h
    simp only [slots, List.forall_mem_cons] at h
    exact (Slot.restored_required rfl).mp h.2.2.1 _ rfl
  setMetadata_legible w m h hm := by
    rw [legible_iff] at h ⊢
    simp only [slots, List.forall_mem_cons, List.not_mem_nil, false_implies, implies_true,
      and_true] at h ⊢
    obtain ⟨hversion, hkind, -, hrest⟩ := h
    refine ⟨hversion, hkind, (Slot.restored_required rfl).mpr ?_, hrest⟩
    rintro _ ⟨⟩
    exact hm
  setMetadata_setMetadata _ _ _ := rfl
  setMetadata_metadata _ := rfl

end Widget

namespace Deployment

lemma legible_iff {d : Deployment} : Legible d ↔ ∀ p ∈ slots, p.Restored {} (p.get d) :=
  reads.legible_iff "Deployment" (by decide) {} d

instance : LegibleResource Deployment where
  lossless := lossless
  metadata_legible d h := by
    rw [legible_iff] at h
    simp only [slots, List.forall_mem_cons] at h
    exact (Slot.restored_plain Metadata.lossless.given).mp h.2.2.1
  setMetadata_legible d m h hm := by
    rw [legible_iff] at h ⊢
    simp only [slots, List.forall_mem_cons, List.not_mem_nil, false_implies, implies_true,
      and_true] at h ⊢
    obtain ⟨hversion, hkind, -, hrest⟩ := h
    exact ⟨hversion, hkind, (Slot.restored_plain Metadata.lossless.given).mpr hm, hrest⟩
  setMetadata_setMetadata _ _ _ := rfl
  setMetadata_metadata _ := rfl

end Deployment

namespace ConfigMap

lemma legible_iff {c : ConfigMap} : Legible c ↔ ∀ p ∈ slots, p.Restored {} (p.get c) :=
  reads.legible_iff "ConfigMap" (by decide) {} c

instance : LegibleResource ConfigMap where
  lossless := lossless
  metadata_legible c h := by
    rw [legible_iff] at h
    simp only [slots, List.forall_mem_cons] at h
    exact (Slot.restored_plain Metadata.lossless.given).mp h.2.2.2.2.2.1
  setMetadata_legible c m h hm := by
    rw [legible_iff] at h ⊢
    simp only [slots, List.forall_mem_cons, List.not_mem_nil, false_implies, implies_true,
      and_true] at h ⊢
    obtain ⟨hversion, hkind, hoctets, hdata, himmutable, -⟩ := h
    exact ⟨hversion, hkind, hoctets, hdata, himmutable,
      (Slot.restored_plain Metadata.lossless.given).mpr hm⟩
  setMetadata_setMetadata _ _ _ := rfl
  setMetadata_metadata _ := rfl

end ConfigMap

namespace Store

section

variable {α : Type} [Resource α] [LegibleResource α] {a : α}

lemma legible_of_decode {v : Source} (h : Resource.decode v = .ok a) : Legible a :=
  LegibleResource.lossless.again v a h

/-- A legible object stays legible with other metadata that a store writes. -/
lemma legible_owned {m : Metadata} (h : Legible a) (hm : m.Legible)
    (name ns uid version : Option String) {created deleted : Option Timestamp}
    {generation : Option Int} (hcreated : ∀ t ∈ created, t.Readable)
    (hdeleted : ∀ t ∈ deleted, t.Readable)
    (hgeneration : ∀ g ∈ generation, -9223372036854775808 ≤ g ∧ g ≤ 9223372036854775807) :
    Legible (Resource.setMetadata a { m with
      name := name, ns := ns, uid := uid, resourceVersion := version, creationTimestamp := created,
      deletionTimestamp := deleted, generation := generation }) :=
  LegibleResource.setMetadata_legible _ _ h (hm.owned name ns uid version hcreated hdeleted hgeneration)

lemma legible_versioned (h : Legible a) (n : Nat) : Legible (versioned n a) := by
  have hmetadata := LegibleResource.metadata_legible a h
  obtain ⟨hcreated, hdeleted, hgeneration⟩ := hmetadata.ranges
  exact legible_owned h hmetadata _ _ _ _ hcreated hdeleted hgeneration

end

variable {α : Type} [Resource α] [LawfulResource α] [LegibleResource α] {s t : Store α}
  {k : ObjectKey} {x : Action α} {a b next : α} {keepStatus : Bool}

lemma metadata_of_unnumbered (h : Legible (unnumbered a)) :
    Metadata.Legible { Resource.metadata a with generation := none } := by
  have hmetadata := LegibleResource.metadata_legible _ h
  rwa [unnumbered, LawfulResource.metadata_setMetadata] at hmetadata

lemma unnumbered_versioned (n : Nat) (a : α) (m : Metadata) :
    unnumbered (versioned n (Resource.setMetadata a m)) =
      Resource.setMetadata a { m with resourceVersion := some (toString n), generation := none } := by
  rw [unnumbered, metadata_versioned, versioned, LegibleResource.setMetadata_setMetadata,
    LegibleResource.setMetadata_setMetadata, LawfulResource.metadata_setMetadata]

/-- An object is legible if it is but for its generation, which is in range. -/
lemma legible_of_unnumbered (h : Legible (unnumbered a))
    (hgeneration : ∀ g ∈ Resource.generation a,
      -9223372036854775808 ≤ g ∧ g ≤ 9223372036854775807) : Legible a := by
  have hmetadata := metadata_of_unnumbered h
  obtain ⟨hcreated, hdeleted, -⟩ := hmetadata.ranges
  have hall := legible_owned h hmetadata (Resource.metadata a).name (Resource.metadata a).ns
    (Resource.metadata a).uid (Resource.metadata a).resourceVersion hcreated hdeleted hgeneration
  rw [unnumbered, LegibleResource.setMetadata_setMetadata] at hall
  exact LegibleResource.setMetadata_metadata a ▸ hall

/-! ## Objects that are stored -/

/-- What takes the place of an object is legible but for its generation. -/
lemma legible_of_replace (h : s.replace k a next keepStatus = .ok (b, t))
    (ha : Legible (unnumbered a)) : Legible (unnumbered b) := by
  obtain ⟨c, hc, hwrite⟩ := replace_ok h
  obtain rfl : versioned (s.revision + 1) c = b := by
    rcases hwrite with ⟨-, hremove⟩ | ⟨-, hput⟩
    · exact congrArg Prod.fst hremove
    · exact congrArg Prod.fst hput
  obtain ⟨d, hd, hresult⟩ := bind_eq_ok hc
  obtain rfl := Except.ok.inj hresult
  have hread := legible_of_decode (decode_of_decodeObject hd)
  obtain ⟨hcreated, hdeleted, -⟩ := (metadata_of_unnumbered ha).ranges
  rw [unnumbered_versioned]
  exact legible_owned hread (LegibleResource.metadata_legible _ hread) _ _ _ _ hcreated hdeleted
    (by simp)

lemma legible_of_create {stamp : Stamp} (ns : Option String) (n : Nat) (hnow : stamp.now.Readable)
    (h : Legible a) : Legible (unnumbered (versioned n
      (Resource.setMetadata a (firstMetadata stamp ns (Resource.metadata a))))) := by
  rw [unnumbered_versioned]
  refine legible_owned h (LegibleResource.metadata_legible _ h) _ _ _ _ ?_ ?_ (by simp)
  · rintro _ ⟨⟩
    exact hnow
  · rintro _ ⟨⟩

lemma legible_of_mark {now : Timestamp} (n : Nat) (hnow : now.Readable)
    (h : Legible (unnumbered a)) : Legible (unnumbered (versioned n
      (Resource.setMetadata a { Resource.metadata a with deletionTimestamp := some now }))) := by
  have hmetadata := metadata_of_unnumbered h
  rw [unnumbered_versioned,
    ← LegibleResource.setMetadata_setMetadata a { Resource.metadata a with generation := none }]
  refine legible_owned h hmetadata _ _ _ _ hmetadata.ranges.1 ?_ (by simp)
  rintro _ ⟨⟩
  exact hnow

/-- The objects and times that an action brings can be read. Every object that has been decoded can. -/
def Action.Legible : Action α → Prop
  | .create stamp _ a => stamp.now.Readable ∧ Resource.Legible a
  | .delete now _ => now.Readable
  | _ => True

lemma Faithful.legible_act (hs : s.Faithful) (hx : x.Legible)
    (hstored : ∀ a, s.objects.get? k = some a → Legible (unnumbered a))
    (hb : (s.act x).objects.get? k = some b) : Legible (unnumbered b) := by
  by_cases hk : x.target = some k
  · cases hanswer : (x.request s).1 with
    | error e =>
      rw [act_of_refused hanswer] at hb
      exact hstored b hb
    | ok answer =>
      cases granted_of_answer hk hanswer with
      | @created stamp ns object _ asked address done =>
        obtain ⟨name, hname, -, hput⟩ := create_ok done
        rw [← show _ = s.act x from congrArg Prod.snd hput, get?_put, address, hname,
          Option.getD_some, if_pos rfl] at hb
        obtain rfl := Option.some.inj hb
        subst asked
        exact legible_of_create ns _ hx.1 hx.2
      | replaced new before done =>
        rw [get?_of_replace_self done] at hb
        split at hb
        · cases hb
        · obtain rfl := Option.some.inj hb
          exact legible_of_replace done (hstored _ before)
      | @deleted now asked done =>
        subst asked
        obtain ⟨current, hcurrent, ⟨-, ht⟩ | ⟨-, ⟨-, ht⟩ | ⟨-, ht⟩⟩⟩ := delete_ok done
        · rw [ht, get?_remove, if_pos rfl] at hb
          cases hb
        · exact hstored b (ht ▸ hb)
        · rw [ht, get?_put, if_pos rfl] at hb
          obtain rfl := Option.some.inj hb
          exact legible_of_mark _ hx (hstored current hcurrent)
  · rw [hs.get?_act_of_ne hk] at hb
    exact hstored b hb

/-- If what the actions bring can be read, then what is stored can, but for its generation. -/
lemma run_unnumbered (limit : Nat) {actions : List (Action α)} (hactions : ∀ x ∈ actions, x.Legible)
    (ha : (run limit actions).objects.get? k = some a) : Legible (unnumbered a) := by
  induction actions using List.reverseRecOn generalizing a with
  | nil => simp [run, empty] at ha
  | append_singleton actions x ih =>
    rw [run_concat] at ha
    exact (run_chronicled limit actions).faithful.legible_act (hactions x (by simp))
      (fun a => ih fun x hx => hactions x (by simp [hx])) ha

variable [StableSpec α]

omit [LegibleResource α] in
/-- A stored object has an identity, and there have been as many actions as its generation says. -/
lemma run_issued (limit : Nat) (actions : List (Action α))
    (ha : (run limit actions).objects.get? k = some a) :
    (Resource.uid a).isSome ∧ ∀ g ∈ Resource.generation a, g ≤ actions.length := by
  induction actions using List.reverseRecOn generalizing a with
  | nil => simp [run, empty] at ha
  | append_singleton actions x ih =>
    rw [run_concat] at ha
    rw [List.length_append, List.length_singleton, Nat.cast_add, Nat.cast_one]
    cases (run_chronicled limit actions).faithful.fate x k with
    | kept same =>
      obtain ⟨huid, hgeneration⟩ := ih (same ▸ ha)
      exact ⟨huid, fun g hg => by have := hgeneration g hg; omega⟩
    | created b _ stored request _ _ first _ =>
      obtain rfl := Option.some.inj (ha.symm.trans stored)
      obtain ⟨stamp, object, -, huid, -⟩ := request
      refine ⟨by rw [huid]; rfl, fun g hg => ?_⟩
      obtain rfl := Option.some.inj (hg.symm.trans first)
      omega
    | changed before b hbefore stored succeeds =>
      obtain rfl := Option.some.inj (ha.symm.trans stored)
      obtain ⟨huid, hgeneration⟩ := ih hbefore
      refine ⟨succeeds.uid_eq ▸ huid, fun g hg => ?_⟩
      rw [succeeds.generation_eq] at hg
      split at hg
      · have := hgeneration g hg
        omega
      · obtain ⟨previous, hprevious, rfl⟩ := Option.map_eq_some_iff.mp hg
        have := hgeneration previous hprevious
        omega
    | removed _ _ _ free => simp [free] at ha

/-- Stored objects are legible, unless there have been so many actions that generations are out of
range. -/
lemma run_legible (limit : Nat) {actions : List (Action α)} (hactions : ∀ x ∈ actions, x.Legible)
    (hlength : actions.length ≤ 9223372036854775807)
    (ha : (run limit actions).objects.get? k = some a) : Legible a := by
  refine legible_of_unnumbered (run_unnumbered limit hactions ha) fun g hg => ?_
  obtain ⟨first, hfirst, hgeneration⟩ := (run_standing limit actions ha).generation_pos
  obtain rfl := Option.some.inj (hg.symm.trans hgeneration)
  have hmost := (run_issued limit actions ha).2 g hg
  omega

/-- What a store can come to by actions that bring data that can be read, fewer than a generation can
count. -/
def Reachable (s : Store α) : Prop :=
  ∃ limit actions, s = run limit actions ∧ (∀ x ∈ actions, x.Legible) ∧
    actions.length ≤ 9223372036854775807

/-- An object of such a store. -/
structure Sound (k : ObjectKey) (a : α) : Prop where
  legible : Legible a
  standing : Standing k a
  held : (Resource.metadata a).isTerminating = true → (Resource.metadata a).finalizerList ≠ []
  issued : (Resource.uid a).isSome

lemma Reachable.sound (h : s.Reachable) (ha : s.objects.get? k = some a) : Sound k a := by
  obtain ⟨limit, actions, rfl, hactions, hlength⟩ := h
  exact ⟨run_legible limit hactions hlength ha, run_standing limit actions ha,
    run_held limit actions ha, (run_issued limit actions ha).1⟩

/-! ## What a write leaves -/

section

variable {α : Type} [Resource α] {s : Store α} {k : ObjectKey} {a : α}

lemma create_eq (stamp : Stamp) {ns : Option String} {name : String}
    (hname : (Resource.metadata a).name = some name) (hfree : s.objects.get? ⟨ns, name⟩ = none) :
    s.create stamp ns a = .ok (s.put ⟨ns, name⟩ .added
      (Resource.setMetadata a (firstMetadata stamp ns (Resource.metadata a)))) := by
  have hcheck : s.checkFree ⟨ns, name⟩ = .ok () := by
    rw [checkFree, if_neg]
    rw [KeyMap.contains, hfree]
    simp
  rw [create, Edit.create, outcome_check]
  simp only [requireName, hname, Except.bind]
  rw [outcome_look, hcheck]
  rfl

lemma decodeObject_eq {v : Json} (h : Resource.decode v = .ok a) : decodeObject v = .ok a := by
  rw [decodeObject, h]

/-- What takes the place of an object is put there, unless it is marked and nobody holds it back. -/
lemma replace_of_replacement {next b : α} {keepStatus : Bool}
    (h : replacement a next keepStatus = .ok b)
    (hheld : ¬ ((Resource.metadata b).isTerminating = true ∧ (Resource.metadata b).finalizerList = [])) :
    s.replace k a next keepStatus = .ok (s.put k .modified b) := by
  rw [replace, Edit.replace, outcome_check, h]
  simp only [Except.bind]
  rw [if_neg hheld]
  rfl

/-- A patch that can be read is a write in the place of the object. -/
lemma patch_eq_replace {p : Json} {next : α} (ha : s.objects.get? k = some a)
    (hversion : checkVersion k a (requestedVersion p) = .ok ())
    (hnext : Resource.decode ((Resource.toJson a).merge p) = .ok next) :
    s.patch k p = s.replace k a next true := by
  have hget : s.get k = .ok a := by rw [get, ha]
  rw [patch, Edit.patch, outcome_look, hget]
  simp only [Except.bind]
  rw [outcome_check, hversion]
  simp only [Except.bind]
  rw [outcome_check, decodeObject_eq hnext]
  rfl

variable [StableParts α] {next : α}

/-- The status of the object before is put in the place of the same status. -/
lemma withStatusOf_eq (h : statusOf a = statusOf next) :
    withStatusOf (Resource.toJson a) (Resource.toJson next) = Resource.toJson next := by
  obtain ⟨members, hmembers, hincreasing⟩ := exists_members next
  rw [statusOf, statusOf] at h
  rw [hmembers] at h ⊢
  unfold withStatusOf
  split
  next status hstatus hnew =>
    obtain rfl := Json.obj.inj hnew
    rw [Json.insertMember_of_find? hincreasing (h.symm.trans hstatus)]
  next hstatus hnew =>
    obtain rfl := Json.obj.inj hnew
    rw [Json.eraseMember_of_find? (h.symm.trans hstatus)]
  · rfl

variable [LawfulResource α] [LegibleResource α] {keepStatus : Bool}

omit [LawfulResource α] [LegibleResource α] in
/-- What takes the place of an object, if it is legible and its status is in order. -/
lemma replacement_eq (hnext : Legible next) (hstatus : keepStatus = true → statusOf a = statusOf next) :
    replacement a next keepStatus = .ok (Resource.setMetadata next (ownedMetadata
      (Resource.metadata a) (Resource.metadata next) (specOf a ≠ specOf next))) := by
  have hnew : (if keepStatus = true then withStatusOf (Resource.toJson a) (Resource.toJson next)
      else Resource.toJson next) = Resource.toJson next := by
    split
    next hkeep => exact withStatusOf_eq (hstatus hkeep)
    · rfl
  simp only [replacement, hnew, decodeObject_eq hnext]
  rfl

omit [LegibleResource α] in
lemma replace_eq (hnext : Legible next) (hstatus : keepStatus = true → statusOf a = statusOf next)
    (hheld : (Resource.metadata a).isTerminating = true →
      (Resource.metadata next).finalizerList ≠ []) :
    s.replace k a next keepStatus = .ok (s.put k .modified (Resource.setMetadata next
      (ownedMetadata (Resource.metadata a) (Resource.metadata next) (specOf a ≠ specOf next)))) := by
  refine replace_of_replacement (replacement_eq hnext hstatus) ?_
  rw [LawfulResource.metadata_setMetadata]
  rintro ⟨hmarked, hnone⟩
  exact hheld hmarked hnone

/-- A change of the status that can be read is stored as it is. -/
lemma updateStatus_eq {status : Json} {version : Option String} (ha : s.objects.get? k = some a)
    (hversion : checkVersion k a version = .ok ())
    (hnext : Resource.decode ((Resource.toJson a).merge (.obj [("status", status)])) = .ok next)
    (hmetadata : Resource.metadata next = Resource.metadata a) (hspec : specOf a = specOf next)
    (hheld : (Resource.metadata a).isTerminating = true →
      (Resource.metadata a).finalizerList ≠ []) :
    s.updateStatus k status version = .ok (s.put k .modified next) := by
  have hget : s.get k = .ok a := by rw [get, ha]
  rw [updateStatus, Edit.updateStatus, outcome_look, hget]
  simp only [Except.bind]
  rw [outcome_check, hversion]
  simp only [Except.bind]
  rw [outcome_check, decodeObject_eq hnext]
  simp only [Except.bind]
  rw [← replace, replace_eq (legible_of_decode hnext) (by simp) (by rwa [hmetadata])]
  have hsame : ownedMetadata (Resource.metadata a) (Resource.metadata next)
      (specOf a ≠ specOf next) = Resource.metadata next := by
    simp [ownedMetadata, hspec, hmetadata]
  rw [hsame, LegibleResource.setMetadata_metadata]

/-- So is a patch that leaves the metadata and the status alone, but for the generation. -/
lemma patch_eq {p : Json} (ha : s.objects.get? k = some a)
    (hversion : checkVersion k a (requestedVersion p) = .ok ())
    (hnext : Resource.decode ((Resource.toJson a).merge p) = .ok next)
    (hmetadata : Resource.metadata next = Resource.metadata a) (hstatus : statusOf a = statusOf next)
    (hheld : (Resource.metadata a).isTerminating = true →
      (Resource.metadata a).finalizerList ≠ []) :
    ∃ generation, s.patch k p = .ok (s.put k .modified (Resource.setMetadata next
      { Resource.metadata a with generation := generation })) := by
  rw [patch_eq_replace ha hversion hnext, replace_eq (legible_of_decode hnext) (fun _ => hstatus)
    (by rwa [hmetadata]), hmetadata]
  exact ⟨_, rfl⟩

end

end Store

end ControlLoop
