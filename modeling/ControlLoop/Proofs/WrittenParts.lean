import ControlLoop.Cluster.Session
import ControlLoop.Proofs.Collections
import ControlLoop.Proofs.OwnedMetadata
import ControlLoop.Proofs.StableParts

/-!
# What a write leaves of an object

A write decodes the object that it leaves from the JSON form of what was asked for, with the status of
the object before if it is not the status that is written. So the parts of an object that a request does
not name are in the end what they were: spec and status as far as their JSON form goes, and finalizers
exactly.
-/
namespace ControlLoop

/-! ## Finalizers among the metadata -/

namespace Metadata

variable {m n : Metadata} {v : Json}

lemma finalizers_mem : Slot.optional "finalizers" finalizers .ofStrings
    (Source.decodeList Source.decodeString) ∈ slots := by
  simp [slots]

lemma finalizers_of_decode (hv : v.Distinct) (h : decode v = .ok m) {w : Json}
    (hw : v.get? "finalizers" = some w) :
    Source.decodeOption (Source.decodeList Source.decodeString) w = .ok m.finalizers :=
  (reads.slot finalizers_mem).given_of_decodeMembers hv h hw

/-- Metadata of the same form have the same finalizers. -/
lemma finalizers_congr (h : m.encode.sorted = n.encode.sorted) : m.finalizers = n.finalizers := by
  change (Slot.encode slots m).sorted = (Slot.encode slots n).sorted at h
  exact Exact.strings.eq_of_map (Slot.write_of_encode_eq (by decide) h finalizers_mem)

/-- Metadata that are decoded from the form of others have their finalizers. -/
lemma finalizers_of_decode_encode (h : decode n.encode.sorted = .ok m) :
    m.finalizers = n.finalizers :=
  finalizers_congr (lossless.same n m h)

lemma encode_ne_null (m : Metadata) : m.encode.sorted ≠ .null := lossless.given m

end Metadata

/-! ## Parts of what is stored -/

namespace Store

open Resource (specOf statusOf)

variable {α : Type} [Resource α] [LawfulResource α] [StableParts α] {a b : α}

omit [LawfulResource α] in
/-- The JSON form of an object is an object. -/
lemma exists_members (a : α) :
    ∃ members, Resource.toJson a = .obj members ∧ Json.Increasing members := by
  have hmetadata := StableParts.metadata_toJson a
  cases hjson : Resource.toJson a with
  | obj members => exact ⟨members, rfl, Json.increasing_of_sorted hjson⟩
  | null | bool | num | str | arr => simp [hjson, Json.get?] at hmetadata

omit [LawfulResource α] in
lemma get?_withStatusOf_status (a next : α) :
    (withStatusOf (Resource.toJson a) (Resource.toJson next)).get? "status" = statusOf a := by
  obtain ⟨members, hmembers, -⟩ := exists_members next
  rw [hmembers, statusOf]
  unfold withStatusOf
  split
  next status hstatus hnew =>
    rw [Json.get?, Json.find?_insertMember, if_pos rfl, hstatus]
  next hstatus hnew =>
    rw [Json.get?, Json.find?_eraseMember, if_pos rfl, hstatus]
  next hsome hnone =>
    cases hstatus : (Resource.toJson a).get? "status" with
    | none => exact absurd rfl (hnone members hstatus)
    | some status => exact absurd rfl (hsome status members hstatus)

omit [LawfulResource α] in
/-- What takes the place of an object is decoded from a document with the spec and the metadata that
were sent, and with one of the two statuses. -/
lemma replacement_document {next : α} {keepStatus : Bool}
    (h : replacement a next keepStatus = .ok b) :
    ∃ members c changed, (Json.obj members).Distinct ∧ Resource.decode (Json.obj members) = .ok c ∧
      b = Resource.setMetadata c
        (ownedMetadata (Resource.metadata a) (Resource.metadata c) changed) ∧
      Json.find? "spec" members = specOf next ∧
      Json.find? "status" members = statusOf (if keepStatus then a else next) ∧
      Json.find? "metadata" members = some (Resource.metadata next).encode.sorted := by
  rw [replacement] at h
  generalize hnew : (if keepStatus = true then
    withStatusOf (Resource.toJson a) (Resource.toJson next) else Resource.toJson next) = new at h
  obtain ⟨c, hc, hb⟩ := bind_eq_ok h
  have hsent : new.Distinct ∧ new.get? "spec" = specOf next ∧
      new.get? "status" = statusOf (if keepStatus then a else next) ∧
      new.get? "metadata" = some (Resource.metadata next).encode.sorted := by
    rw [← hnew, ← StableParts.metadata_toJson]
    split
    · exact ⟨distinct_withStatusOf _ _, get?_withStatusOf _ _ (by decide),
        get?_withStatusOf_status a next, get?_withStatusOf _ _ (by decide)⟩
    · exact ⟨Json.distinct_sorted _, rfl, rfl, rfl⟩
  cases new with
  | obj members =>
    exact ⟨members, c, _, hsent.1, decode_of_decodeObject hc, (Except.ok.inj hb).symm, hsent.2⟩
  | null | bool | num | str | arr => cases hsent.2.2.2

/-- The parts of what takes the place of an object. -/
lemma replacement_parts {next : α} {keepStatus : Bool} (h : replacement a next keepStatus = .ok b) :
    specOf b = specOf next ∧ statusOf b = statusOf (if keepStatus then a else next) ∧
      (Resource.metadata b).finalizers = (Resource.metadata next).finalizers := by
  obtain ⟨members, c, changed, hdistinct, hdecode, rfl, hspec, hstatus, hmetadata⟩ :=
    replacement_document h
  rw [StableSpec.specOf_setMetadata, StableParts.statusOf_setMetadata,
    LawfulResource.metadata_setMetadata]
  refine ⟨StableSpec.specOf_decode _ c next hdistinct hdecode hspec,
    StableParts.statusOf_decode _ _ c _ hdistinct hdecode hmetadata hstatus, ?_⟩
  have hc := StableParts.metadata_decode _ _ c hdistinct hdecode hmetadata
    (Metadata.encode_ne_null _)
  change (Resource.metadata c).finalizers = _
  exact Metadata.finalizers_of_decode_encode hc

/-- What a write answers with has the parts of what takes the place of the object, and the address, the
mark for removal and, if it has the same spec, the generation of the object before. -/
lemma replace_parts {s t : Store α} {k : ObjectKey} {next : α} {keepStatus : Bool}
    (h : s.replace k a next keepStatus = .ok (b, t)) :
    specOf b = specOf next ∧ statusOf b = statusOf (if keepStatus then a else next) ∧
      (Resource.metadata b).finalizers = (Resource.metadata next).finalizers ∧
      Resource.key b = Resource.key a ∧
      (Resource.metadata b).isTerminating = (Resource.metadata a).isTerminating ∧
      (specOf next = specOf a → Resource.generation b = Resource.generation a) := by
  obtain ⟨c, hc, hwrite⟩ := replace_ok h
  obtain ⟨hspec, hstatus, hfinalizers⟩ := replacement_parts hc
  obtain ⟨m, hm⟩ := replacement_owned hc
  obtain rfl : versioned (s.revision + 1) c = b := by
    rcases hwrite with ⟨-, hremove⟩ | ⟨-, hput⟩
    · exact congrArg Prod.fst hremove
    · exact congrArg Prod.fst hput
  rw [key_versioned, versioned, StableSpec.specOf_setMetadata, StableParts.statusOf_setMetadata,
    Resource.generation, LawfulResource.metadata_setMetadata]
  refine ⟨hspec, hstatus, hfinalizers, ?_, by rw [hm]; rfl, fun hsame => ?_⟩
  · rw [Resource.key, Resource.key, hm]
    rfl
  rw [hm, hspec, hsame]
  simp [ownedMetadata, Resource.generation]

end Store

/-! ## Requests of a client -/

namespace Session

variable {α β : Type} [Resource α] [Collection α] {c : Cluster}

/-- What comes of a request of a client, by what comes of it at the store: it fails and leaves the store
as it is, or it is granted there. It fails without reaching the store only if a failure is set, and sets
none. -/
inductive Reply (c : Cluster) (answer : Except ClientError β × Cluster)
    (there : Except ClientError (β × Store α)) : Prop
  | refused (e : ClientError) (error : answer.1 = .error e)
      (same : (Collection.store answer.2 : Store α) = Collection.store c)
      (reason : c.faults = [] → there = .error e) (calm : c.faults = [] → answer.2.faults = [])
  | granted (b : β) (t : Store α) (ok : there = .ok (b, t)) (value : answer.1 = .ok b)
      (stored : Collection.store answer.2 = t) (calm : c.faults = [] → answer.2.faults = [])

variable [LawfulCollection α]

lemma call_reply {method : Method} {key : ObjectKey} {argument : Option Json}
    {version : β → String} {act : Cluster → Except ClientError (β × Cluster)}
    {f : Store α → Except ClientError (β × Store α)}
    (hact : ∀ c, act c = (f (Collection.store c)).map fun p => (p.1, Collection.setStore c p.2))
    (c : Cluster) : Reply c (call α method key argument version act c) (f (Collection.store c)) := by
  have hfault (d : Cluster) (hd : d = (c.takeFault (Collection.name α) method).2) :
      (Collection.store d : Store α) = Collection.store c ∧ (c.faults = [] → d.faults = []) := by
    refine ⟨?_, fun hnone => ?_⟩
    · rw [hd]
      exact LawfulCollection.store_aside c _ c.journal
    · simp [hd, Cluster.takeFault, hnone, Cluster.splitFault]
  have hnote (d : Cluster) (note : Call) :
      (Collection.store (d.noteCall note) : Store α) = Collection.store d :=
    LawfulCollection.store_aside d d.faults _
  simp only [call, hact]
  rcases htake : c.takeFault (Collection.name α) method with ⟨_ | e, d⟩
  · obtain ⟨hd, hcalm⟩ := hfault d (by rw [htake])
    simp only [hd]
    cases hf : f (Collection.store c) with
    | error e => exact .refused e rfl ((hnote d _).trans hd) (fun _ => rfl) hcalm
    | ok p =>
      obtain ⟨b, t⟩ := p
      refine .granted b t rfl rfl ((hnote _ _).trans (LawfulCollection.store_setStore d t)) ?_
      exact fun hnone => (LawfulCollection.faults_setStore d t).trans (hcalm hnone)
  · obtain ⟨hd, hcalm⟩ := hfault d (by rw [htake])
    refine .refused e rfl ((hnote d _).trans hd) (fun hnone => ?_) hcalm
    simp [Cluster.takeFault, hnone, Cluster.splitFault] at htake

lemma patch_reply (k : ObjectKey) (p : Json) (c : Cluster) :
    Reply c (Session.patch α k p c) ((Collection.store c : Store α).patch k p) := by
  refine call_reply (f := fun s => s.patch k p) (fun d => ?_) c
  rw [Cluster.patch]
  cases (Collection.store d : Store α).patch k p <;> rfl

lemma updateStatus_reply (k : ObjectKey) (status : Json) (version : Option String) (c : Cluster) :
    Reply c (Session.updateStatus α k status version c)
      ((Collection.store c : Store α).updateStatus k status version) := by
  refine call_reply (f := fun s => s.updateStatus k status version) (fun d => ?_) c
  rw [Cluster.updateStatus]
  cases (Collection.store d : Store α).updateStatus k status version <;> rfl

/-- A widget is read as it is stored. -/
lemma get_reply (k : ObjectKey) (c : Cluster) :
    Reply c (Session.get Widget k c) ((c.widgets.get k).map fun w => (w, c.widgets)) := by
  refine call_reply (f := fun s => (s.get k).map fun w => (w, s)) (fun d => ?_) c
  cases (Collection.store d : Store Widget).get k <;> rfl

end Session

end ControlLoop
