import ControlLoop.Proofs.ReviewCodecs
import ControlLoop.Proofs.WireForms

/-!
# Stable wire forms

Widgets, their conditions and admission reviews each have a form, which tells for every JSON value
whether it can be decoded and what is written for it then. Members that are optional are left out if they
are absent or null, and whatever else they hold is kept, also if it is empty. What has been written is
decoded to the same data, and is written again as it is.
-/
namespace ControlLoop

open Slot (obeys_optional obeys_plain obeys_defaulted obeys_required obeys_fixed obeys_document)

/-- Data can be written and read any number of times, and the form tells in which way they are written. -/
structure Form.Stable {α : Type} (form : Form) (encode : α → Json) (decode : Source → Decoded α) :
    Prop where
  /-- What has been decoded, from wherever, is decoded again from what it is written as. -/
  again : ∀ (v : Source) (a : α), decode v = .ok a → decode (Source.ofJson (encode a).sorted) = .ok a
  /-- The values that are decoded are those of the form, and are written as it tells. -/
  written : ∀ v w : Json, form v.sorted = some w ↔
    ∃ a, decode (Source.ofJson v.sorted) = .ok a ∧ (encode a).sorted = w
  /-- What is written is in its form already. -/
  settled : ∀ v w : Json, form v.sorted = some w → form w = some w

lemma Form.Describes.stable {α : Type} {form : Form} {encode : α → Json} {decode : Source → Decoded α}
    (h : form.Describes encode decode) (hrecovers : Recovers encode decode) :
    form.Stable encode decode where
  again := hrecovers.again
  written v w := h _ w (Json.sorted_sorted v)
  settled v w hw := by
    obtain ⟨a, ha, rfl⟩ := (h _ w (Json.sorted_sorted v)).mp hw
    exact (h _ _ (Json.sorted_sorted _)).mpr ⟨a, hrecovers.again _ a ha, rfl⟩

/-! ## Metadata -/

namespace OwnerReference

def form : Form := .struct
  [.lenient "apiVersion" (.str "") .text,
   .optional "blockOwnerDeletion" .flag,
   .optional "controller" .flag,
   .lenient "kind" (.str "") .text,
   .lenient "name" (.str "") .text,
   .lenient "uid" (.str "") .text]

lemma describes : form.Describes encode decode := by
  refine reads.describes_struct ?_ "OwnerReference" (by simp [slots, Slot.Filled])
  exact .cons (obeys_plain .text rfl) <| .cons (obeys_optional .flag rfl) <|
    .cons (obeys_optional .flag rfl) <| .cons (obeys_plain .text rfl) <|
    .cons (obeys_plain .text rfl) <| .cons (obeys_plain .text rfl) .nil

end OwnerReference

namespace ManagedFields

def form : Form := .struct
  [.optional "apiVersion" .text,
   .optional "fieldsType" .text,
   .optional "fieldsV1" .document,
   .optional "manager" .text,
   .optional "operation" .text,
   .optional "subresource" .text,
   .optional "time" .time]

lemma obeys_fieldSlot : fieldSlot.Obeys {} (.optional "fieldsV1" .document) := by
  refine .of_parts rfl (by simp [Absence.outcome, Slot.Filled]) (fun _ => rfl) fun v hv hgiven => ?_
  have hnull : v ≠ .null := by simpa using hgiven
  simp [Form.document, Source.ofJson, Source.decodeDocument_ofJson, Except.map, FieldSet.ofJson?, hv, hnull]

lemma describes : form.Describes encode decode := by
  refine reads.describes_struct ?_ "ManagedFieldsEntry" (by simp [slots, Slot.Filled])
  exact .cons (obeys_optional .text rfl) <| .cons (obeys_optional .text rfl) <|
    .cons obeys_fieldSlot <| .cons (obeys_optional .text rfl) <| .cons (obeys_optional .text rfl) <|
    .cons (obeys_optional .text rfl) <| .cons (obeys_optional .time rfl) .nil

end ManagedFields

namespace Metadata

def form : Form := .struct
  [.optional "annotations" (.map .text),
   .optional "creationTimestamp" .time,
   .optional "deletionGracePeriodSeconds" .int64,
   .optional "deletionTimestamp" .time,
   .optional "finalizers" (.list .text),
   .optional "generateName" .text,
   .optional "generation" .int64,
   .optional "labels" (.map .text),
   .optional "managedFields" (.list ManagedFields.form),
   .optional "name" .text,
   .optional "namespace" .text,
   .optional "ownerReferences" (.list OwnerReference.form),
   .optional "resourceVersion" .text,
   .optional "selfLink" .text,
   .optional "uid" .text]

lemma describes : form.Describes encode decode := by
  refine reads.describes_struct ?_ "ObjectMeta" (by simp [slots, Slot.Filled])
  exact .cons (obeys_optional Form.Describes.text.map rfl) <| .cons (obeys_optional .time rfl) <|
    .cons (obeys_optional .int64 rfl) <| .cons (obeys_optional .time rfl) <|
    .cons (obeys_optional Form.Describes.text.list rfl) <| .cons (obeys_optional .text rfl) <|
    .cons (obeys_optional .int64 rfl) <| .cons (obeys_optional Form.Describes.text.map rfl) <|
    .cons (obeys_optional ManagedFields.describes.list rfl) <| .cons (obeys_optional .text rfl) <|
    .cons (obeys_optional .text rfl) <| .cons (obeys_optional OwnerReference.describes.list rfl) <|
    .cons (obeys_optional .text rfl) <| .cons (obeys_optional .text rfl) <|
    .cons (obeys_optional .text rfl) .nil

end Metadata

/-! ## Widgets -/

namespace Condition

def form : Form := .record fields []
  [.required "type" .text,
   .required "status" .text,
   .optional "reason" .text,
   .optional "message" .text,
   .optional "lastTransitionTime" .text,
   .optional "observedGeneration" .int64]

lemma describes : form.Describes encode decode := by
  refine reads.describes_record ?_ (by decide) reads.unknown gathered (fun _ => rfl) decode_iff ?_
  · exact .cons (obeys_required .text rfl) <| .cons (obeys_required .text rfl) <|
      .cons (obeys_optional .text rfl) <| .cons (obeys_optional .text rfl) <|
      .cons (obeys_optional .text rfl) <| .cons (obeys_optional .int64 rfl) .nil
  · rintro ⟨_ | type, _ | status, reason, message, time, generation⟩ <;>
      simp [slots, Slot.Filled, gathered]
    exact ⟨⟨type, status, reason, message, time, generation⟩, rfl, rfl, rfl, rfl, rfl, rfl⟩

end Condition

namespace WidgetSpec

def form : Form := .record ["replicas", "image"] []
  [.required "replicas" .int32,
   .optional "image" .text]

lemma describes : form.Describes encode decode := by
  refine reads.describes_record ?_ (by decide) reads.unknown gathered (fun _ => rfl) decode_iff ?_
  · exact .cons (obeys_required .int32 rfl) <| .cons (obeys_optional .text rfl) .nil
  · rintro ⟨_ | replicas, image⟩ <;> simp [slots, Slot.Filled, gathered]
    exact ⟨⟨replicas, image⟩, rfl, rfl⟩

end WidgetSpec

namespace WidgetStatus

def form : Form := .record ["phase", "observedGeneration", "conditions"] []
  [.optional "phase" .text,
   .optional "observedGeneration" .int64,
   .optional "conditions" (.list Condition.form)]

lemma describes : form.Describes encode decode := by
  refine reads.describes_record ?_ (by decide) reads.unknown id (fun _ => rfl) (fun _ _ => Iff.rfl) ?_
  · exact .cons (obeys_optional .text rfl) <| .cons (obeys_optional .int64 rfl) <|
      .cons (obeys_optional Condition.describes.list rfl) .nil
  · simp [slots, Slot.Filled]

end WidgetStatus

namespace Widget

/-- What names the kind is written whatever is found in its place. -/
def form : Form := .record ["metadata", "spec", "status"] []
  [.constant "apiVersion" (.str (group ++ "/" ++ version)),
   .constant "kind" (.str kind),
   .required "metadata" Metadata.form,
   .required "spec" WidgetSpec.form,
   .optional "status" WidgetStatus.form]

lemma describes : form.Describes encode decode := by
  refine reads.describes_record ?_ (by decide) member_unknown gathered (fun _ => rfl) decode_iff ?_
  · exact .cons (obeys_fixed rfl) <| .cons (obeys_fixed rfl) <|
      .cons (obeys_required Metadata.describes rfl) <| .cons (obeys_required WidgetSpec.describes rfl) <|
      .cons (obeys_optional WidgetStatus.describes rfl) .nil
  · rintro ⟨_ | metadata, _ | spec, status⟩ <;> simp [slots, Slot.Filled, gathered]
    exact ⟨⟨metadata, spec, status⟩, rfl, rfl, rfl⟩

end Widget

/-! ## Reviews -/

namespace Admission

namespace GroupKind

def form : Form := .record ["group", "version", "kind"] ["group"]
  [.defaulted "group" (.str "") .text,
   .required "version" .text,
   .required "kind" .text]

lemma describes : form.Describes encode decode := by
  refine reads.describes_record ?_ (by decide) reads.unknown gathered (fun _ => rfl) decode_iff ?_
  · exact .cons (obeys_defaulted .text rfl) <| .cons (obeys_required .text rfl) <|
      .cons (obeys_required .text rfl) .nil
  · rintro ⟨group, _ | version, _ | kind⟩ <;> simp [slots, Slot.Filled, gathered]
    exact ⟨⟨group, version, kind⟩, rfl, rfl, rfl⟩

end GroupKind

namespace GroupResource

def form : Form := .record ["group", "version", "resource"] ["group"]
  [.defaulted "group" (.str "") .text,
   .required "version" .text,
   .required "resource" .text]

lemma describes : form.Describes encode decode := by
  refine reads.describes_record ?_ (by decide) reads.unknown gathered (fun _ => rfl) decode_iff ?_
  · exact .cons (obeys_defaulted .text rfl) <| .cons (obeys_required .text rfl) <|
      .cons (obeys_required .text rfl) .nil
  · rintro ⟨group, _ | version, _ | resource⟩ <;> simp [slots, Slot.Filled, gathered]
    exact ⟨⟨group, version, resource⟩, rfl, rfl, rfl⟩

end GroupResource

namespace Operation

def form : Form := .oneOf ["CREATE", "UPDATE", "DELETE", "CONNECT"]

lemma describes : form.Describes encode decode :=
  @Form.Describes.oneOf _ encode (all.map fun o : Operation => (o.text, o)) (by decide)

end Operation

namespace User

def form : Form := .record fields fields
  [.optional "username" .text,
   .optional "uid" .text,
   .optional "groups" (.list .text)]

lemma describes : form.Describes encode decode := by
  refine reads.describes_record ?_ (by decide) reads.unknown id (fun _ => rfl) (fun _ _ => Iff.rfl) ?_
  · exact .cons (obeys_optional .text rfl) <| .cons (obeys_optional .text rfl) <|
      .cons (obeys_optional Form.Describes.text.list rfl) .nil
  · simp [slots, Slot.Filled]

end User

namespace Request

def form : Form := .record (required ++ spare) spare
  [.required "uid" .text,
   .required "kind" GroupKind.form,
   .required "resource" GroupResource.form,
   .required "operation" Operation.form,
   .optional "object" .document,
   .optional "oldObject" .document,
   .optional "namespace" .text,
   .optional "name" .text,
   .defaulted "userInfo" (.obj []) User.form,
   .optional "dryRun" .flag]

lemma describes : form.Describes encode decode := by
  refine reads.describes_record ?_ (by decide) reads.unknown gathered (fun _ => rfl) decode_iff ?_
  · exact .cons (obeys_required .text rfl) <| .cons (obeys_required GroupKind.describes rfl) <|
      .cons (obeys_required GroupResource.describes rfl) <|
      .cons (obeys_required Operation.describes rfl) <| .cons (obeys_document rfl) <|
      .cons (obeys_document rfl) <| .cons (obeys_optional .text rfl) <|
      .cons (obeys_optional .text rfl) <| .cons (obeys_defaulted User.describes rfl) <|
      .cons (obeys_optional .flag rfl) .nil
  · rintro ⟨_ | uid, _ | kind, _ | resource, _ | operation, object, oldObject, ns, name, user, dryRun⟩ <;>
      simp [slots, Slot.Filled, gathered]
    exact ⟨⟨uid, kind, resource, operation, object, oldObject, ns, name, user, dryRun⟩, rfl, rfl, rfl, rfl,
      rfl, rfl, rfl, rfl, rfl, rfl⟩

end Request

namespace Status

def form : Form := .record fields fields
  [.optional "code" (.integer 0 65535),
   .optional "message" .text]

lemma describes : form.Describes encode decode := by
  refine reads.describes_record ?_ (by decide) reads.unknown id (fun _ => rfl) (fun _ _ => Iff.rfl) ?_
  · exact .cons (obeys_optional .nat16 rfl) <| .cons (obeys_optional .text rfl) .nil
  · simp [slots, Slot.Filled]

end Status

namespace Response

def form : Form := .record (required ++ spare) spare
  [.required "uid" .text,
   .required "allowed" .flag,
   .optional "status" Status.form,
   .optional "patch" .text,
   .optional "patchType" .text]

lemma describes : form.Describes encode decode := by
  refine reads.describes_record ?_ (by decide) reads.unknown gathered (fun _ => rfl) decode_iff ?_
  · exact .cons (obeys_required .text rfl) <| .cons (obeys_required .flag rfl) <|
      .cons (obeys_optional Status.describes rfl) <| .cons (obeys_optional .text rfl) <|
      .cons (obeys_optional .text rfl) .nil
  · rintro ⟨_ | uid, _ | allowed, status, patch, patchType⟩ <;> simp [slots, Slot.Filled, gathered]
    exact ⟨⟨uid, allowed, status, patch, patchType⟩, rfl, rfl, rfl, rfl, rfl⟩

end Response

namespace Review

def form : Form := .record fields ["apiVersion", "kind"]
  [.defaulted "apiVersion" (.str Admission.apiVersion) .text,
   .defaulted "kind" (.str reviewKind) .text,
   .optional "request" Request.form,
   .optional "response" Response.form]

lemma describes : form.Describes encode decode := by
  refine reads.describes_record ?_ (by decide) reads.unknown id (fun _ => rfl) (fun _ _ => Iff.rfl) ?_
  · exact .cons (obeys_defaulted .text rfl) <| .cons (obeys_defaulted .text rfl) <|
      .cons (obeys_optional Request.describes rfl) <| .cons (obeys_optional Response.describes rfl) .nil
  · simp [slots, Slot.Filled]

end Review

end Admission

/-- Widgets, conditions and reviews keep their data and their form however often they are written and
read. By their forms (`Rule.optional`) optional members are left out if they are absent or null, and any
other text, list or map is written as it was found, empty or not (`Form.text`, `Form.list`, `Form.map`). -/
theorem wire_forms_stable :
    Widget.form.Stable Widget.encode Widget.decode ∧
    Condition.form.Stable Condition.encode Condition.decode ∧
    Admission.Review.form.Stable Admission.Review.encode Admission.Review.decode :=
  ⟨Widget.describes.stable Widget.lossless.toRecovers,
    Condition.describes.stable Condition.exact_codec.toRecovers,
    Admission.Review.describes.stable Admission.Review.recovers⟩

/-- A widget with an image that is null, an empty name, no labels, finalizers and conditions, a time that is
not at a full second, and a status that is given as a list. -/
def sparseWidget : Json :=
  .obj
    [("kind", .null),
     ("metadata", .obj
       [("creationTimestamp", .str "2024-01-02T03:04:05.678+01:00"), ("finalizers", .arr []),
        ("labels", .obj []), ("name", .str ""), ("namespace", .null), ("other", .bool true)]),
     ("spec", .obj [("image", .null), ("replicas", .int 1)]),
     ("status", .arr [.null, .null, .arr []])]

/-- What is written for that widget. -/
def sparseWidgetWritten : Json :=
  .obj
    [("apiVersion", .str "example.com/v1"),
     ("kind", .str "Widget"),
     ("metadata", .obj
       [("creationTimestamp", .str "2024-01-02T02:04:05Z"), ("finalizers", .arr []),
        ("labels", .obj []), ("name", .str "")]),
     ("spec", .obj [("replicas", .int 1)]),
     ("status", .obj [("conditions", .arr [])])]

/-- Of that widget the members that are null are left out and those that are empty are kept, and it is
decoded again as it was. -/
theorem wire_forms_stable_sparse :
    Widget.form sparseWidget.sorted = some sparseWidgetWritten ∧
    ∃ w, Widget.decode (Source.ofJson sparseWidget.sorted) = .ok w ∧
      w.encode.sorted = sparseWidgetWritten ∧
      Widget.decode (Source.ofJson w.encode.sorted) = .ok w := by
  have hform : Widget.form sparseWidget.sorted = some sparseWidgetWritten := by decide +kernel
  obtain ⟨w, hw, hwritten⟩ := (wire_forms_stable.1.written sparseWidget sparseWidgetWritten).mp hform
  exact ⟨hform, w, hw, hwritten, wire_forms_stable.1.again _ w hw⟩

end ControlLoop
