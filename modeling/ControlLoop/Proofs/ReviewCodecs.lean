import ControlLoop.Admission.Review
import ControlLoop.Proofs.LosslessCodecs

/-!
# Reviews that come back

Reviews that have been decoded are decoded again from the form that they are written in, and so are
the requests and responses in them. A request that has been made otherwise may have null in the place of
an object, which is read as none: its form does not stay.
-/
namespace ControlLoop.Admission

open Slot (optional required defaulted document keeps_optional keeps_required keeps_defaulted
  restores_optional restores_document)

/-! ## Requests -/

namespace GroupKind

/-- The members that a kind is written with. -/
def gathered (k : GroupKind) : Gathered where
  group := k.group
  version := some k.version
  kind := some k.kind

def slots : List (Slot Gathered) :=
  [defaulted "group" Gathered.group .str Source.decodeString,
   required "version" Gathered.version .str Source.decodeString,
   required "kind" Gathered.kind .str Source.decodeString]

instance reads : Slot.Reads member slots := {}

lemma decode_iff (v : Source) (k : GroupKind) : decode v = .ok k ↔
    Source.decodeSpared "AdmissionKind" ["group", "version", "kind"] ["group"] member {} v =
      .ok k.gathered := by
  refine Source.finish_iff ?_ v k
  rintro ⟨_, _ | version, _ | kind⟩ ⟨⟩ <;> simp [gathered]

lemma lossless : Lossless encode decode := by
  refine Lossless.through (reads.lossless_spared "AdmissionKind" ["group"] (by decide) ?_ reads.unknown)
    gathered (fun _ => rfl) decode_iff
  simp only [slots, List.forall_mem_cons]
  exact ⟨keeps_defaulted .string rfl, keeps_required .string rfl, keeps_required .string rfl,
    by simp⟩

end GroupKind

namespace GroupResource

/-- The members that a collection is written with. -/
def gathered (r : GroupResource) : Gathered where
  group := r.group
  version := some r.version
  resource := some r.resource

def slots : List (Slot Gathered) :=
  [defaulted "group" Gathered.group .str Source.decodeString,
   required "version" Gathered.version .str Source.decodeString,
   required "resource" Gathered.resource .str Source.decodeString]

instance reads : Slot.Reads member slots := {}

lemma decode_iff (v : Source) (r : GroupResource) : decode v = .ok r ↔
    Source.decodeSpared "AdmissionResource" ["group", "version", "resource"] ["group"] member {} v =
      .ok r.gathered := by
  refine Source.finish_iff ?_ v r
  rintro ⟨_, _ | version, _ | resource⟩ ⟨⟩ <;> simp [gathered]

lemma lossless : Lossless encode decode := by
  refine Lossless.through
    (reads.lossless_spared "AdmissionResource" ["group"] (by decide) ?_ reads.unknown) gathered
    (fun _ => rfl) decode_iff
  simp only [slots, List.forall_mem_cons]
  exact ⟨keeps_defaulted .string rfl, keeps_required .string rfl, keeps_required .string rfl,
    by simp⟩

end GroupResource

lemma Operation.lossless : Lossless encode decode where
  same a b h := by cases a <;> cases b <;> first | rfl | cases h
  again _ o _ := by cases o <;> rfl
  given o := by simp [encode, Json.sorted]

namespace User

def slots : List (Slot User) :=
  [optional "username" username .str Source.decodeString,
   optional "uid" uid .str Source.decodeString,
   optional "groups" groups .ofStrings (Source.decodeList Source.decodeString)]

instance reads : Slot.Reads member slots := {}

lemma lossless : Lossless encode decode := by
  refine reads.lossless_spared "UserInfo" fields (by decide) ?_ reads.unknown
  simp only [slots, List.forall_mem_cons]
  exact ⟨keeps_optional .string rfl, keeps_optional .string rfl, keeps_optional .strings rfl,
    by simp⟩

end User

namespace Request

/-- The members that a request is written with. -/
def gathered (r : Request) : Gathered where
  uid := some r.uid
  kind := some r.kind
  resource := some r.resource
  operation := some r.operation
  object := r.object
  oldObject := r.oldObject
  ns := r.ns
  name := r.name
  user := r.user
  dryRun := r.dryRun

def slots : List (Slot Gathered) :=
  [Slot.required "uid" Gathered.uid .str Source.decodeString,
   Slot.required "kind" Gathered.kind GroupKind.encode GroupKind.decode,
   Slot.required "resource" Gathered.resource GroupResource.encode GroupResource.decode,
   Slot.required "operation" Gathered.operation Operation.encode Operation.decode,
   document "object" Gathered.object,
   document "oldObject" Gathered.oldObject,
   optional "namespace" Gathered.ns .str Source.decodeString,
   optional "name" Gathered.name .str Source.decodeString,
   defaulted "userInfo" Gathered.user User.encode User.decode,
   optional "dryRun" Gathered.dryRun .bool Source.decodeBool]

instance reads : Slot.Reads member slots := {}

lemma decode_iff (v : Source) (r : Request) : decode v = .ok r ↔
    Source.decodeSpared "AdmissionRequest" (required ++ spare) spare member {} v = .ok r.gathered := by
  refine Source.finish_iff ?_ v r
  rintro ⟨_ | uid, _ | kind, _ | resource, _ | operation, _⟩ ⟨⟩ <;> simp [gathered]

lemma recovers : Recovers encode decode := by
  refine Recovers.through (reads.recovers_spared "AdmissionRequest" spare (by decide) ?_ reads.unknown)
    gathered (fun _ => rfl) decode_iff
  simp only [slots, List.forall_mem_cons]
  exact ⟨(keeps_required .string rfl).toRestores, (keeps_required GroupKind.lossless rfl).toRestores,
    (keeps_required GroupResource.lossless rfl).toRestores,
    (keeps_required Operation.lossless rfl).toRestores, restores_document rfl, restores_document rfl,
    (keeps_optional .string rfl).toRestores, (keeps_optional .string rfl).toRestores,
    (keeps_defaulted User.lossless rfl).toRestores, (keeps_optional .bool rfl).toRestores, by simp⟩

end Request

/-! ## Responses -/

lemma lossless_nat16 : Lossless Json.nat Source.decodeNat16 where
  same a b h := by
    obtain ⟨i, hi, rfl⟩ := Store.map_eq_ok h
    obtain rfl : i = a := (Exact.int _ _ _).eq_of_decode hi
    rfl
  again v n h := by
    obtain ⟨i, hi, rfl⟩ := Store.map_eq_ok h
    have hrange := Source.decodeInt_range hi
    have hnat : (i.toNat : Int) = i := Int.toNat_of_nonneg hrange.1
    change (Source.decodeInt _ _ _ ⟨.memory, .ofJson (.int i.toNat)⟩).map Int.toNat = _
    rw [hnat, Source.decodeInt_ofJson hrange]
    rfl
  given n := by simp [Json.nat, Json.int, Json.sorted]

namespace Status

def slots : List (Slot Status) :=
  [optional "code" code .nat Source.decodeNat16,
   optional "message" text .str Source.decodeString]

instance reads : Slot.Reads member slots := {}

lemma lossless : Lossless encode decode := by
  refine reads.lossless_spared "AdmissionStatus" fields (by decide) ?_ reads.unknown
  simp only [slots, List.forall_mem_cons]
  exact ⟨keeps_optional lossless_nat16 rfl, keeps_optional .string rfl, by simp⟩

end Status

namespace Response

/-- The members that a response is written with. -/
def gathered (r : Response) : Gathered where
  uid := some r.uid
  allowed := some r.allowed
  status := r.status
  patch := r.patch
  patchType := r.patchType

def slots : List (Slot Gathered) :=
  [Slot.required "uid" Gathered.uid .str Source.decodeString,
   Slot.required "allowed" Gathered.allowed .bool Source.decodeBool,
   optional "status" Gathered.status Status.encode Status.decode,
   optional "patch" Gathered.patch .str Source.decodeString,
   optional "patchType" Gathered.patchType .str Source.decodeString]

instance reads : Slot.Reads member slots := {}

lemma decode_iff (v : Source) (r : Response) : decode v = .ok r ↔
    Source.decodeSpared "AdmissionResponse" (required ++ spare) spare member {} v = .ok r.gathered := by
  refine Source.finish_iff ?_ v r
  rintro ⟨_ | uid, _ | allowed, _⟩ ⟨⟩ <;> simp [gathered]

lemma lossless : Lossless encode decode := by
  refine Lossless.through (reads.lossless_spared "AdmissionResponse" spare (by decide) ?_ reads.unknown)
    gathered (fun _ => rfl) decode_iff
  simp only [slots, List.forall_mem_cons]
  exact ⟨keeps_required .string rfl, keeps_required .bool rfl,
    keeps_optional Status.lossless rfl, keeps_optional .string rfl, keeps_optional .string rfl,
    by simp⟩

end Response

/-! ## Reviews -/

namespace Review

def slots : List (Slot Review) :=
  [defaulted "apiVersion" apiVersion .str Source.decodeString,
   defaulted "kind" kind .str Source.decodeString,
   optional "request" request Request.encode Request.decode,
   optional "response" response Response.encode Response.decode]

instance reads : Slot.Reads member slots := {}

lemma recovers : Recovers encode decode := by
  refine reads.recovers_spared "AdmissionReview" ["apiVersion", "kind"] (by decide) ?_ reads.unknown
  simp only [slots, List.forall_mem_cons]
  exact ⟨(keeps_defaulted .string rfl).toRestores, (keeps_defaulted .string rfl).toRestores,
    restores_optional Request.recovers rfl, (keeps_optional Response.lossless rfl).toRestores, by simp⟩

end Review

end ControlLoop.Admission
