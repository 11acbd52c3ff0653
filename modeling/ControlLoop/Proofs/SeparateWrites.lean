import ControlLoop.Proofs.ForeignDeployments
import ControlLoop.Proofs.KeyLifecycle
import ControlLoop.Proofs.WrittenParts

/-!
# Spec and status are written separately

An object is encoded, changed and decoded, with some of its metadata put back, whenever it is written.
What a document says of the members of an object is what the object says that is decoded from it. So a
request for the status of an object leaves the rest of its JSON form as it was, but for its version,
and removes nothing, since an object that is marked for removal has finalizers and keeps them. A
request for the rest leaves the status as it was, whatever it says of it.
-/
namespace ControlLoop

namespace Json

variable {l l' : List (String × Json)}

/-- The value without what stands at a path. -/
def without : List String → Json → Json
  | [name], obj members => obj (eraseMember name members)
  | name :: next :: path, obj members =>
    obj (members.map fun m => (m.1, if m.1 = name then without (next :: path) m.2 else m.2))
  | _, v => v

lemma find?_map (f : String → Json → Json) (name : String) (l : List (String × Json)) :
    find? name (l.map fun m => (m.1, f m.1 m.2)) = (find? name l).map (f name) := by
  induction l with
  | nil => rfl
  | cons m l ih =>
    obtain ⟨k, v⟩ := m
    simp only [List.map_cons, find?, ih]
    split
    next hk => simp [hk]
    · rfl

lemma Increasing.map (h : Increasing l) (f : String → Json → Json) :
    Increasing (l.map fun m => (m.1, f m.1 m.2)) :=
  List.pairwise_map.mpr h

/-- Two objects that differ in a member of a member only. -/
lemma without_nested_congr {outer inner : String} (h : Increasing l) (h' : Increasing l')
    (houter : (find? outer l).map (without [inner]) = (find? outer l').map (without [inner]))
    (hother : ∀ n, n ≠ outer → find? n l = find? n l') :
    (obj l).without [outer, inner] = (obj l').without [outer, inner] := by
  simp only [without, obj.injEq]
  set f : String → Json → Json := fun n v => if n = outer then v.without [inner] else v
  refine (h.map f).ext (h'.map f) fun n => ?_
  rw [find?_map f, find?_map f]
  by_cases hn : n = outer
  · subst hn
    simpa [f] using houter
  · rw [hother n hn]

lemma without_member_congr {inner : String} (h : Increasing l) (h' : Increasing l')
    (hinner : ∀ n, n ≠ inner → find? n l = find? n l') :
    (obj l).without [inner] = (obj l').without [inner] := by
  simp only [without, obj.injEq]
  refine (h.eraseMember inner).ext (h'.eraseMember inner) fun n => ?_
  rw [find?_eraseMember, find?_eraseMember]
  split
  · rfl
  next hn => exact hinner n (Ne.symm hn)

/-- Two objects that differ in two places only, of which one is a member of a member. -/
lemma without_congr {name outer inner : String} {members members' : List (String × Json)}
    (h : Increasing l) (h' : Increasing l')
    (hmembers : find? outer l = some (obj members)) (hmembers' : find? outer l' = some (obj members'))
    (hi : Increasing members) (hi' : Increasing members')
    (hinner : ∀ n, n ≠ inner → find? n members = find? n members')
    (hother : ∀ n, n ≠ name → n ≠ outer → find? n l = find? n l') :
    ((obj l).without [name]).without [outer, inner] =
      ((obj l').without [name]).without [outer, inner] := by
  refine without_nested_congr (h.eraseMember name) (h'.eraseMember name) ?_ fun n hn => ?_
  · rw [find?_eraseMember, find?_eraseMember, hmembers, hmembers']
    split
    · rfl
    · rw [Option.map_some, Option.map_some, without_member_congr hi hi' hinner]
  · rw [find?_eraseMember, find?_eraseMember]
    split
    · rfl
    next hname => exact hother n (Ne.symm hname) hn

/-- A patch of one member leaves the others. -/
lemma exists_merge_member (h : Increasing l) (name : String) (change : Json) :
    ∃ merged, (obj l).merge (obj [(name, change)]) = obj merged ∧ Increasing merged ∧
      ∀ n, n ≠ name → find? n merged = find? n l := by
  cases change with
  | null =>
    refine ⟨eraseMember name l, rfl, h.eraseMember name, fun n hn => ?_⟩
    rw [find?_eraseMember, if_neg hn.symm]
  | bool | num | str | arr | obj =>
    refine ⟨insertMember name _ l, rfl, h.insertMember name _, fun n hn => ?_⟩
    rw [find?_insertMember, if_neg hn.symm]

end Json

/-! ## Members of objects -/

/-- The members of the JSON form of an object other than its metadata do not depend on these, and an
object that is decoded from a document with a member of another one has that member. -/
class StableMembers (α : Type) [Resource α] : Prop extends StableParts α where
  get?_setMetadata : ∀ (a : α) (m : Metadata) (name : String), name ≠ "metadata" →
    (Resource.toJson (Resource.setMetadata a m)).get? name = (Resource.toJson a).get? name
  get?_decode : ∀ (members : List (String × Json)) (a b : α) (name : String),
    (Json.obj members).Distinct → Resource.decode (Json.obj members) = .ok a →
    Json.find? name members = (Resource.toJson b).get? name →
    (Resource.toJson a).get? name = (Resource.toJson b).get? name

namespace Deployment

instance : StableMembers Deployment where
  get?_setMetadata a m name hname := by
    refine Slot.get?_encode_congr slots (by decide) { a with metadata := m } a ?_
    simp [slots, hname.symm]
  get?_decode members a b name hmembers h hname :=
    reads.get?_of_decode "Deployment" (by decide) keeps hmembers h hname

end Deployment

namespace ConfigMap

instance : StableMembers ConfigMap where
  get?_setMetadata a m name hname := by
    refine Slot.get?_encode_congr slots (by decide) { a with metadata := m } a ?_
    simp [slots, hname.symm]
  get?_decode members a b name hmembers h hname :=
    reads.get?_of_decode "ConfigMap" (by decide) keeps hmembers h hname

end ConfigMap

namespace Widget

instance : StableMembers Widget where
  get?_setMetadata a m name hname := by
    refine Slot.get?_encode_congr slots (by decide) (gathered { a with metadata := m }) a.gathered ?_
    simp [slots, gathered, hname.symm]
  get?_decode members a b name hmembers h hname :=
    Slot.get?_encode_of_give (b := b.gathered) (by decide) keeps
      ((reads.decodeSpared_iff "Widget" [] member_unknown hmembers).mp ((decode_iff _ a).mp h)) hname

end Widget

/-! ## Metadata -/

namespace Metadata

/-- Metadata that the store puts in the place of others of the same form, but for their version. -/
lemma get?_owned {previous m : Metadata} (h : m.encode.sorted = previous.encode.sorted)
    (version : Option String) {name : String} (hname : name ≠ "resourceVersion") :
    { Store.ownedMetadata previous m false with resourceVersion := version }.encode.sorted.get? name =
      previous.encode.sorted.get? name := by
  change (Slot.encode slots m).sorted = (Slot.encode slots previous).sorted at h
  have hwrite : ∀ p ∈ slots,
      (p.write (p.get m)).map Json.sorted = (p.write (p.get previous)).map Json.sorted :=
    fun p hp => Slot.write_of_encode_eq (by decide) h hp
  refine Slot.get?_encode_congr slots (by decide)
    { Store.ownedMetadata previous m false with resourceVersion := version } previous ?_
  simp only [slots, List.forall_mem_cons, Slot.optional] at hwrite ⊢
  simp [hwrite, Store.ownedMetadata, hname.symm]

end Metadata

/-! ## Requests -/

namespace Store

open Resource (specOf statusOf)

variable {α : Type} [Resource α]

/-- The JSON form of an object without its status and its version. -/
def remainder (a : α) : Json :=
  ((Resource.toJson a).without ["status"]).without ["metadata", "resourceVersion"]

/-- A request for the status of the object `a` has put `b` in its place: the status is what is read from
the change merged into the object, and besides it only the version is another one. -/
structure StatusWritten (s t : Store α) (k : ObjectKey) (status : Json) (a b : α) : Prop where
  before : s.objects.get? k = some a
  after : t.objects.get? k = some b
  remainder_eq : remainder b = remainder a
  generation_eq : Resource.generation b = Resource.generation a
  read : ∃ next : α,
    Resource.decode ((Resource.toJson a).merge (.obj [("status", status)])) = .ok next ∧
      statusOf b = statusOf next
  others : ∀ j, j ≠ k → t.objects.get? j = s.objects.get? j

/-- A request for all of the object `a` but its status has put `b` in its place or removed it: `b` has
the spec of the object that was sent, and the status of `a`. -/
structure StatusKept (s t : Store α) (k : ObjectKey) (sent a b : α) : Prop where
  before : s.objects.get? k = some a
  /-- The object is removed if it was terminating and has no finalizer left. -/
  after : t.objects.get? k =
    if (Resource.metadata a).isTerminating = true ∧ (Resource.metadata b).finalizerList = [] then none
    else some b
  specOf_eq : specOf b = specOf sent
  statusOf_eq : statusOf b = statusOf a
  others : ∀ j, j ≠ k → t.objects.get? j = s.objects.get? j

variable [StableMembers α] {a b next : α}

/-- What is decoded from the form of an object has the form that the store compares. -/
lemma get?_of_decode_toJson (h : Resource.decode (Resource.toJson next) = .ok b) (name : String) :
    (Resource.toJson b).get? name = (Resource.toJson next).get? name := by
  obtain ⟨members, hmembers, hincreasing⟩ := exists_members next
  rw [hmembers] at h
  refine StableMembers.get?_decode members b next name hincreasing.distinct h ?_
  rw [hmembers, Json.get?]

/-- An object with another status is the same in all other members. -/
lemma get?_of_decode_status {status : Json}
    (h : Resource.decode ((Resource.toJson a).merge (.obj [("status", status)])) = .ok next)
    {name : String} (hname : name ≠ "status") :
    (Resource.toJson next).get? name = (Resource.toJson a).get? name := by
  obtain ⟨members, hmembers, hincreasing⟩ := exists_members a
  obtain ⟨merged, hmerged, hdistinct, hfind⟩ := Json.exists_merge_member hincreasing "status" status
  rw [hmembers, hmerged] at h
  refine StableMembers.get?_decode merged next a name hdistinct.distinct h ?_
  rw [hmembers, Json.get?, hfind name hname]

lemma get?_versioned (n : Nat) (a : α) {name : String} (hname : name ≠ "metadata") :
    (Resource.toJson (versioned n a)).get? name = (Resource.toJson a).get? name :=
  StableMembers.get?_setMetadata a _ name hname

lemma encode_metadata_congr
    (h : (Resource.toJson b).get? "metadata" = (Resource.toJson a).get? "metadata") :
    (Resource.metadata b).encode.sorted = (Resource.metadata a).encode.sorted := by
  rw [StableParts.metadata_toJson, StableParts.metadata_toJson] at h
  exact Option.some.inj h

/-- Objects are the same in all but status and version if their members are, and the members of their
metadata. -/
lemma remainder_congr
    (hmembers : ∀ name, name ≠ "status" → name ≠ "metadata" →
      (Resource.toJson b).get? name = (Resource.toJson a).get? name)
    (hmetadata : ∀ name, name ≠ "resourceVersion" →
      (Resource.metadata b).encode.sorted.get? name = (Resource.metadata a).encode.sorted.get? name) :
    remainder b = remainder a := by
  obtain ⟨l, hl, hincreasing⟩ := exists_members b
  obtain ⟨l', hl', hincreasing'⟩ := exists_members a
  obtain ⟨m, hm⟩ : ∃ m, (Resource.metadata b).encode.sorted = .obj m := ⟨_, rfl⟩
  obtain ⟨m', hm'⟩ : ∃ m', (Resource.metadata a).encode.sorted = .obj m' := ⟨_, rfl⟩
  have hfind := StableParts.metadata_toJson b
  have hfind' := StableParts.metadata_toJson a
  rw [hm, hm'] at hmetadata
  rw [hl, hm] at hfind
  rw [hl', hm'] at hfind'
  rw [hl, hl'] at hmembers
  rw [remainder, remainder, hl, hl']
  exact Json.without_congr hincreasing hincreasing' hfind hfind'
    (Json.increasing_of_sorted hm) (Json.increasing_of_sorted hm') hmetadata hmembers

variable [LawfulResource α]

/-- An object that is written with another status is the same in all but status and version. -/
lemma remainder_of_replacement {status : Json}
    (hnext : Resource.decode ((Resource.toJson a).merge (.obj [("status", status)])) = .ok next)
    (h : replacement a next false = .ok b) (n : Nat) : remainder (versioned n b) = remainder a := by
  obtain ⟨c, hc, hb⟩ := bind_eq_ok h
  have hsame : ∀ name, name ≠ "status" →
      (Resource.toJson c).get? name = (Resource.toJson a).get? name := fun name hname =>
    (get?_of_decode_toJson (decode_of_decodeObject hc) name).trans (get?_of_decode_status hnext hname)
  have hspec : (Resource.toJson a).get? "spec" = (Resource.toJson next).get? "spec" :=
    (get?_of_decode_status hnext (by decide)).symm
  obtain rfl : Resource.setMetadata c
      (ownedMetadata (Resource.metadata a) (Resource.metadata c) false) = b := by
    simpa [hspec] using Except.ok.inj hb
  refine remainder_congr (fun name hstatus hmetadata => ?_) fun name hname => ?_
  · rw [get?_versioned n _ hmetadata, StableMembers.get?_setMetadata c _ name hmetadata,
      hsame name hstatus]
  · have hform := encode_metadata_congr (hsame "metadata" (by decide))
    rw [metadata_versioned, LawfulResource.metadata_setMetadata]
    exact Metadata.get?_owned hform _ hname

variable {s t : Store α} {k : ObjectKey}

/-- A request for the status that is granted. -/
lemma statusWritten {limit : Nat} {actions : List (Action α)} {status : Json}
    {version : Option String}
    (h : (run limit actions).updateStatus k status version = .ok (b, t)) :
    ∃ a, StatusWritten (run limit actions) t k status a b := by
  obtain ⟨a, next, ha, -, hnext, hreplace⟩ := updateStatus_ok h
  replace hnext := decode_of_decodeObject hnext
  have hspec : specOf next = specOf a := get?_of_decode_status hnext (by decide)
  have hheld : (Resource.metadata next).finalizers = (Resource.metadata a).finalizers :=
    Metadata.finalizers_congr (encode_metadata_congr (get?_of_decode_status hnext (by decide)))
  obtain ⟨-, hstatus, hfinalizers, -, -, hgeneration⟩ := replace_parts hreplace
  refine ⟨a, ha, ?_, ?_, hgeneration hspec, ⟨next, hnext, hstatus⟩, fun _ hj =>
    get?_of_replace hreplace hj.symm⟩
  · -- An object that is marked for removal has finalizers, and the request does not change them.
    rw [get?_of_replace_self hreplace, if_neg]
    rintro ⟨hmarked, hnone⟩
    refine run_held limit actions ha hmarked ?_
    rwa [Metadata.finalizerList, ← hheld, ← hfinalizers]
  · obtain ⟨c, hc, ⟨-, hwrite⟩ | ⟨-, hwrite⟩⟩ := replace_ok hreplace
    all_goals
      obtain rfl : versioned _ c = b := congrArg Prod.fst hwrite
      exact remainder_of_replacement hnext hc _

/-- A request for the rest that is granted. -/
lemma statusKept {sent : α} (ha : s.objects.get? k = some a)
    (h : s.replace k a sent true = .ok (b, t)) : StatusKept s t k sent a b where
  before := ha
  after := get?_of_replace_self h
  specOf_eq := (replace_parts h).1
  statusOf_eq := (replace_parts h).2.1
  others _ hj := get?_of_replace h hj.symm

/-- Whatever has happened to a store, a request for the status of an object that is granted changes its
status and its version only, and one for the rest leaves its status. -/
def WritesApart (α : Type) [Resource α] : Prop :=
  ∀ (limit : Nat) (actions : List (Action α)) (b : α) (t : Store α),
    (∀ k status version, (run limit actions).updateStatus k status version = .ok (b, t) →
      ∃ a, StatusWritten (run limit actions) t k status a b) ∧
    (∀ ns sent, (run limit actions).update ns sent = .ok (b, t) →
      ∃ a, StatusKept (run limit actions) t ⟨ns, (Resource.metadata sent).name.getD ""⟩ sent a b) ∧
    ∀ k patch, (run limit actions).patch k patch = .ok (b, t) →
      ∃ a sent, Resource.decode ((Resource.toJson a).merge patch) = .ok sent ∧
        StatusKept (run limit actions) t k sent a b

lemma writesApart : WritesApart α := by
  intro limit actions b t
  refine ⟨fun k status version h => statusWritten h, fun ns sent h => ?_, fun k patch h => ?_⟩
  · obtain ⟨_, a, rfl, ha, -, hreplace⟩ := update_ok h
    exact ⟨a, statusKept ha hreplace⟩
  · obtain ⟨a, sent, ha, -, hsent, hreplace⟩ := patch_ok h
    exact ⟨a, sent, decode_of_decodeObject hsent, statusKept ha hreplace⟩

/-- Spec and status of widgets, configuration maps and deployments are written through requests of their
own. -/
theorem spec_and_status_written_apart :
    WritesApart Widget ∧ WritesApart ConfigMap ∧ WritesApart Deployment :=
  ⟨writesApart, writesApart, writesApart⟩

/-- A widget with a finalizer and a status is created and marked for removal. -/
def marking : List (Action Widget) :=
  [.create ⟨{ seconds := 0 }, "1"⟩ (some "default")
    { metadata := { name := some "a", finalizers := some ["guard"] }
      spec := { replicas := 1 }
      status := some { phase := some "Pending", observedGeneration := some 1 } },
   .delete { seconds := 1 } ⟨some "default", "a"⟩]

def markedKey : ObjectKey := ⟨some "default", "a"⟩

/-- A change of the status that takes a member away and has one that is unknown. -/
def statusChange : Json :=
  .obj [("phase", .str "Running"), ("observedGeneration", .null), ("spec", .obj [("x", .null)])]

/-- A patch that speaks of the spec and of the status. -/
def broadPatch : Json := .obj [("spec", .obj [("replicas", .int 3)]), ("status", .null)]

theorem spec_and_status_written_apart_marked :
    (∃ a b t, (run 1 marking).updateStatus markedKey statusChange none = .ok (b, t) ∧
      StatusWritten (run 1 marking) t markedKey statusChange a b ∧
      b.status = some { phase := some "Running" }) ∧
    ∃ a b t sent, (run 1 marking).patch markedKey broadPatch = .ok (b, t) ∧
      StatusKept (run 1 marking) t markedKey sent a b ∧ b.spec.replicas = 3 ∧
      b.status = some { phase := some "Pending", observedGeneration := some 1 } := by
  have hwritten : ((run 1 marking).updateStatus markedKey statusChange none).toOption.map
      (·.1.status) = some (some { phase := some "Running" }) := by
    decide +kernel
  have hpatched : ((run 1 marking).patch markedKey broadPatch).toOption.map
      (fun p => (p.1.spec.replicas, p.1.status)) =
        some (3, some { phase := some "Pending", observedGeneration := some 1 }) := by
    decide +kernel
  have hapart := spec_and_status_written_apart.1 1 marking
  constructor
  · cases h : (run 1 marking).updateStatus markedKey statusChange none with
    | error e => simp [h, Except.toOption] at hwritten
    | ok p =>
      obtain ⟨a, hstatus⟩ := (hapart p.1 p.2).1 markedKey statusChange none h
      rw [h] at hwritten
      exact ⟨a, p.1, p.2, rfl, hstatus, Option.some.inj hwritten⟩
  · cases h : (run 1 marking).patch markedKey broadPatch with
    | error e => simp [h, Except.toOption] at hpatched
    | ok p =>
      obtain ⟨a, sent, -, hkept⟩ := (hapart p.1 p.2).2.2 markedKey broadPatch h
      rw [h] at hpatched
      obtain ⟨hspec, hstatus⟩ := Prod.mk.inj (Option.some.inj hpatched)
      exact ⟨a, p.1, p.2, sent, rfl, hkept, hspec, hstatus⟩

end Store

end ControlLoop
