import ControlLoop.Proofs.Base64Texts
import ControlLoop.Proofs.SlotKinds

/-!
# Objects that come back

Widgets, deployments, namespaces and configuration maps that have been decoded are decoded again from the
form that they are written in: their numbers are in range, their maps are in order and their times have a
text. So are their parts. What is read from the form of any other object has that form. Conditions and
specs of widgets are made of texts and numbers only, so they come back as they were, and with them the
status of a widget.
-/
namespace ControlLoop

open Slot (optional plain required fixed keeps_optional keeps_plain keeps_required keeps_fixed
  shows_optional shows_required)

/-! ## Metadata -/

namespace OwnerReference

def slots : List (Slot OwnerReference) :=
  [plain "apiVersion" apiVersion .str Source.decodeString "",
   optional "blockOwnerDeletion" blockOwnerDeletion .bool Source.decodeBool,
   optional "controller" controller .bool Source.decodeBool,
   plain "kind" kind .str Source.decodeString "",
   plain "name" name .str Source.decodeString "",
   plain "uid" uid .str Source.decodeString ""]

instance reads : Slot.Reads member slots := {}

lemma lossless : Lossless encode decode := by
  refine reads.lossless "OwnerReference" (by decide) ?_
  simp only [slots, List.forall_mem_cons]
  exact ⟨keeps_plain .string rfl rfl, keeps_optional .bool rfl, keeps_optional .bool rfl,
    keeps_plain .string rfl rfl, keeps_plain .string rfl rfl, keeps_plain .string rfl rfl, by simp⟩

end OwnerReference

namespace ManagedFields

/-- The set of fields is any document but null. -/
@[simp] def fieldSlot : Slot ManagedFields where
  name := "fieldsV1"
  get := fields
  write := Option.map FieldSet.document
  read v := v.decodeDocument.map FieldSet.ofJson?

lemma keeps_fieldSlot : fieldSlot.Keeps {} where
  same o v o' hwrite hread := by
    obtain ⟨⟨document, hgiven⟩, -, rfl⟩ := Option.map_eq_some_iff.mp hwrite
    obtain ⟨d, hd, rfl⟩ := Store.map_eq_ok hread
    obtain rfl := Except.ok.inj ((Source.decodeDocument_ofJson document.sorted).symm.trans hd)
    simp [FieldSet.ofJson?, Json.sorted_ne_null hgiven, Json.sorted_sorted]
  absent _ _ := rfl
  again v o h := by
    obtain ⟨document, hdocument, rfl⟩ := Store.map_eq_ok h
    obtain ⟨u, -, hu⟩ := Store.bind_eq_ok hdocument
    obtain rfl := Except.ok.inj hu
    unfold Slot.Restored Slot.Given
    by_cases hnull : u.sorted = .null
    · simp [FieldSet.ofJson?, hnull]
    · simp [FieldSet.ofJson?, hnull, Source.decodeDocument_ofJson, Json.sorted_sorted, Except.map]
  initial := rfl

def slots : List (Slot ManagedFields) :=
  [optional "apiVersion" apiVersion .str Source.decodeString,
   optional "fieldsType" fieldsType .str Source.decodeString,
   fieldSlot,
   optional "manager" manager .str Source.decodeString,
   optional "operation" operation .str Source.decodeString,
   optional "subresource" subresource .str Source.decodeString,
   optional "time" time .ofTime Source.decodeTime]

instance reads : Slot.Reads member slots where
  kept g n v := by
    unfold member
    split <;> simp [slots]

lemma lossless : Lossless encode decode := by
  refine reads.lossless "ManagedFieldsEntry" (by decide) ?_
  simp only [slots, List.forall_mem_cons]
  exact ⟨keeps_optional .string rfl, keeps_optional .string rfl, keeps_fieldSlot,
    keeps_optional .string rfl, keeps_optional .string rfl, keeps_optional .string rfl,
    keeps_optional .time rfl, by simp⟩

end ManagedFields

namespace Metadata

def slots : List (Slot Metadata) :=
  [optional "annotations" annotations .ofStringMap (Source.decodeMap Source.decodeString),
   optional "creationTimestamp" creationTimestamp .ofTime Source.decodeTime,
   optional "deletionGracePeriodSeconds" deletionGracePeriodSeconds .int Source.decodeInt64,
   optional "deletionTimestamp" deletionTimestamp .ofTime Source.decodeTime,
   optional "finalizers" finalizers .ofStrings (Source.decodeList Source.decodeString),
   optional "generateName" generateName .str Source.decodeString,
   optional "generation" generation .int Source.decodeInt64,
   optional "labels" labels .ofStringMap (Source.decodeMap Source.decodeString),
   optional "managedFields" managedFields (fun l => .arr (l.map ManagedFields.encode))
     (Source.decodeList ManagedFields.decode),
   optional "name" name .str Source.decodeString,
   optional "namespace" ns .str Source.decodeString,
   optional "ownerReferences" ownerReferences (fun l => .arr (l.map OwnerReference.encode))
     (Source.decodeList OwnerReference.decode),
   optional "resourceVersion" resourceVersion .str Source.decodeString,
   optional "selfLink" selfLink .str Source.decodeString,
   optional "uid" uid .str Source.decodeString]

instance reads : Slot.Reads member slots := {}

lemma lossless : Lossless encode decode := by
  refine reads.lossless "ObjectMeta" (by decide) ?_
  simp only [slots, List.forall_mem_cons]
  exact ⟨keeps_optional .stringMap rfl, keeps_optional .time rfl, keeps_optional .int64 rfl,
    keeps_optional .time rfl, keeps_optional .strings rfl, keeps_optional .string rfl,
    keeps_optional .int64 rfl, keeps_optional .stringMap rfl,
    keeps_optional ManagedFields.lossless.list rfl, keeps_optional .string rfl,
    keeps_optional .string rfl, keeps_optional OwnerReference.lossless.list rfl,
    keeps_optional .string rfl, keeps_optional .string rfl, keeps_optional .string rfl, by simp⟩

end Metadata

/-! ## Deployments -/

namespace Container

def slots : List (Slot Container) :=
  [optional "image" image .str Source.decodeString,
   plain "name" name .str Source.decodeString ""]

instance reads : Slot.Reads member slots := {}

lemma lossless : Lossless encode decode := by
  refine reads.lossless "Container" (by decide) ?_
  simp only [slots, List.forall_mem_cons]
  exact ⟨keeps_optional .string rfl, keeps_plain .string rfl rfl, by simp⟩

end Container

namespace PodSpec

def slots : List (Slot PodSpec) :=
  [plain "containers" containers (fun l => .arr (l.map Container.encode))
     (Source.decodeList Container.decode) []]

instance reads : Slot.Reads member slots := {}

lemma lossless : Lossless encode decode := by
  refine reads.lossless "PodSpec" (by decide) ?_
  simp only [slots, List.forall_mem_cons]
  exact ⟨keeps_plain Container.lossless.list rfl rfl, by simp⟩

end PodSpec

namespace PodTemplate

def slots : List (Slot PodTemplate) :=
  [optional "metadata" metadata Metadata.encode Metadata.decode,
   optional "spec" spec PodSpec.encode PodSpec.decode]

instance reads : Slot.Reads member slots := {}

lemma lossless : Lossless encode decode := by
  refine reads.lossless "PodTemplateSpec" (by decide) ?_
  simp only [slots, List.forall_mem_cons]
  exact ⟨keeps_optional Metadata.lossless rfl, keeps_optional PodSpec.lossless rfl, by simp⟩

end PodTemplate

namespace LabelRequirement

def slots : List (Slot LabelRequirement) :=
  [plain "key" key .str Source.decodeString "",
   plain "operator" operator .str Source.decodeString "",
   optional "values" values .ofStrings (Source.decodeList Source.decodeString)]

instance reads : Slot.Reads member slots := {}

lemma lossless : Lossless encode decode := by
  refine reads.lossless "LabelSelectorRequirement" (by decide) ?_
  simp only [slots, List.forall_mem_cons]
  exact ⟨keeps_plain .string rfl rfl, keeps_plain .string rfl rfl, keeps_optional .strings rfl,
    by simp⟩

end LabelRequirement

namespace LabelSelector

def slots : List (Slot LabelSelector) :=
  [optional "matchExpressions" matchExpressions (fun l => .arr (l.map LabelRequirement.encode))
     (Source.decodeList LabelRequirement.decode),
   optional "matchLabels" matchLabels .ofStringMap (Source.decodeMap Source.decodeString)]

instance reads : Slot.Reads member slots := {}

lemma lossless : Lossless encode decode := by
  refine reads.lossless "LabelSelector" (by decide) ?_
  simp only [slots, List.forall_mem_cons]
  exact ⟨keeps_optional LabelRequirement.lossless.list rfl, keeps_optional .stringMap rfl, by simp⟩

end LabelSelector

lemma Amount.lossless : Lossless encode decode where
  toSteady := .amount
  again v a h := by
    unfold decode at h
    split at h
    · obtain ⟨n, hn, rfl⟩ := Store.map_eq_ok h
      change (Source.decodeInt _ _ _ ⟨.memory, .ofJson (.int n)⟩).map count = _
      rw [Source.decodeInt_ofJson (Source.decodeInt_range hn)]
      rfl
    · obtain rfl := Except.ok.inj h
      rfl
    next hnode =>
      cases hv : v.node <;> simp [Source.unexpected, hv] at h hnode

namespace RollingUpdate

def slots : List (Slot RollingUpdate) :=
  [optional "maxSurge" maxSurge Amount.encode Amount.decode,
   optional "maxUnavailable" maxUnavailable Amount.encode Amount.decode]

instance reads : Slot.Reads member slots := {}

lemma lossless : Lossless encode decode := by
  refine reads.lossless "RollingUpdateDeployment" (by decide) ?_
  simp only [slots, List.forall_mem_cons]
  exact ⟨keeps_optional Amount.lossless rfl, keeps_optional Amount.lossless rfl, by simp⟩

end RollingUpdate

namespace DeploymentStrategy

def slots : List (Slot DeploymentStrategy) :=
  [optional "rollingUpdate" rollingUpdate RollingUpdate.encode RollingUpdate.decode,
   optional "type" type .str Source.decodeString]

instance reads : Slot.Reads member slots := {}

lemma lossless : Lossless encode decode := by
  refine reads.lossless "DeploymentStrategy" (by decide) ?_
  simp only [slots, List.forall_mem_cons]
  exact ⟨keeps_optional RollingUpdate.lossless rfl, keeps_optional .string rfl, by simp⟩

end DeploymentStrategy

namespace DeploymentSpec

def slots : List (Slot DeploymentSpec) :=
  [optional "minReadySeconds" minReadySeconds .int Source.decodeInt32,
   optional "paused" paused .bool Source.decodeBool,
   optional "progressDeadlineSeconds" progressDeadlineSeconds .int Source.decodeInt32,
   optional "replicas" replicas .int Source.decodeInt32,
   optional "revisionHistoryLimit" revisionHistoryLimit .int Source.decodeInt32,
   plain "selector" selector LabelSelector.encode LabelSelector.decode {},
   optional "strategy" strategy DeploymentStrategy.encode DeploymentStrategy.decode,
   plain "template" template PodTemplate.encode PodTemplate.decode {}]

instance reads : Slot.Reads member slots := {}

lemma lossless : Lossless encode decode := by
  refine reads.lossless "DeploymentSpec" (by decide) ?_
  simp only [slots, List.forall_mem_cons]
  exact ⟨keeps_optional .int32 rfl, keeps_optional .bool rfl, keeps_optional .int32 rfl,
    keeps_optional .int32 rfl, keeps_optional .int32 rfl,
    keeps_plain LabelSelector.lossless rfl rfl, keeps_optional DeploymentStrategy.lossless rfl,
    keeps_plain PodTemplate.lossless rfl rfl, by simp⟩

end DeploymentSpec

namespace DeploymentCondition

def slots : List (Slot DeploymentCondition) :=
  [optional "lastTransitionTime" lastTransitionTime .ofTime Source.decodeTime,
   optional "lastUpdateTime" lastUpdateTime .ofTime Source.decodeTime,
   optional "message" message .str Source.decodeString,
   optional "reason" reason .str Source.decodeString,
   plain "status" status .str Source.decodeString "",
   plain "type" type .str Source.decodeString ""]

instance reads : Slot.Reads member slots := {}

lemma lossless : Lossless encode decode := by
  refine reads.lossless "DeploymentCondition" (by decide) ?_
  simp only [slots, List.forall_mem_cons]
  exact ⟨keeps_optional .time rfl, keeps_optional .time rfl, keeps_optional .string rfl,
    keeps_optional .string rfl, keeps_plain .string rfl rfl, keeps_plain .string rfl rfl, by simp⟩

end DeploymentCondition

namespace DeploymentStatus

def slots : List (Slot DeploymentStatus) :=
  [optional "availableReplicas" availableReplicas .int Source.decodeInt32,
   optional "collisionCount" collisionCount .int Source.decodeInt32,
   optional "conditions" conditions (fun l => .arr (l.map DeploymentCondition.encode))
     (Source.decodeList DeploymentCondition.decode),
   optional "observedGeneration" observedGeneration .int Source.decodeInt64,
   optional "readyReplicas" readyReplicas .int Source.decodeInt32,
   optional "replicas" replicas .int Source.decodeInt32,
   optional "unavailableReplicas" unavailableReplicas .int Source.decodeInt32,
   optional "updatedReplicas" updatedReplicas .int Source.decodeInt32]

instance reads : Slot.Reads member slots := {}

lemma lossless : Lossless encode decode := by
  refine reads.lossless "DeploymentStatus" (by decide) ?_
  simp only [slots, List.forall_mem_cons]
  exact ⟨keeps_optional .int32 rfl, keeps_optional .int32 rfl,
    keeps_optional DeploymentCondition.lossless.list rfl, keeps_optional .int64 rfl,
    keeps_optional .int32 rfl, keeps_optional .int32 rfl, keeps_optional .int32 rfl,
    keeps_optional .int32 rfl, by simp⟩

end DeploymentStatus

namespace Deployment

def slots : List (Slot Deployment) :=
  [fixed "apiVersion" (.str "apps/v1") (·.decodeExactly "apps/v1"),
   fixed "kind" (.str "Deployment") (·.decodeExactly "Deployment"),
   plain "metadata" metadata Metadata.encode Metadata.decode {},
   optional "spec" spec DeploymentSpec.encode DeploymentSpec.decode,
   optional "status" status DeploymentStatus.encode DeploymentStatus.decode]

instance reads : Slot.Reads member slots := {}

lemma keeps : ∀ p ∈ slots, p.Keeps {} := by
  simp only [slots, List.forall_mem_cons]
  exact ⟨keeps_fixed rfl, keeps_fixed rfl, keeps_plain Metadata.lossless rfl rfl,
    keeps_optional DeploymentSpec.lossless rfl, keeps_optional DeploymentStatus.lossless rfl, by simp⟩

lemma lossless : Lossless encode decode := reads.lossless "Deployment" (by decide) keeps

end Deployment

/-! ## Namespaces -/

namespace NamespaceSpec

def slots : List (Slot NamespaceSpec) :=
  [optional "finalizers" finalizers .ofStrings (Source.decodeList Source.decodeString)]

instance reads : Slot.Reads member slots := {}

lemma lossless : Lossless encode decode := by
  refine reads.lossless "NamespaceSpec" (by decide) ?_
  simp only [slots, List.forall_mem_cons]
  exact ⟨keeps_optional .strings rfl, by simp⟩

end NamespaceSpec

namespace NamespaceCondition

def slots : List (Slot NamespaceCondition) :=
  [optional "lastTransitionTime" lastTransitionTime .ofTime Source.decodeTime,
   optional "message" message .str Source.decodeString,
   optional "reason" reason .str Source.decodeString,
   plain "status" status .str Source.decodeString "",
   plain "type" type .str Source.decodeString ""]

instance reads : Slot.Reads member slots := {}

lemma lossless : Lossless encode decode := by
  refine reads.lossless "NamespaceCondition" (by decide) ?_
  simp only [slots, List.forall_mem_cons]
  exact ⟨keeps_optional .time rfl, keeps_optional .string rfl, keeps_optional .string rfl,
    keeps_plain .string rfl rfl, keeps_plain .string rfl rfl, by simp⟩

end NamespaceCondition

namespace NamespaceStatus

def slots : List (Slot NamespaceStatus) :=
  [optional "conditions" conditions (fun l => .arr (l.map NamespaceCondition.encode))
     (Source.decodeList NamespaceCondition.decode),
   optional "phase" phase .str Source.decodeString]

instance reads : Slot.Reads member slots := {}

lemma lossless : Lossless encode decode := by
  refine reads.lossless "NamespaceStatus" (by decide) ?_
  simp only [slots, List.forall_mem_cons]
  exact ⟨keeps_optional NamespaceCondition.lossless.list rfl, keeps_optional .string rfl, by simp⟩

end NamespaceStatus

namespace NamespaceObject

def slots : List (Slot NamespaceObject) :=
  [fixed "apiVersion" (.str "v1") (·.decodeExactly "v1"),
   fixed "kind" (.str "Namespace") (·.decodeExactly "Namespace"),
   plain "metadata" metadata Metadata.encode Metadata.decode {},
   optional "spec" spec NamespaceSpec.encode NamespaceSpec.decode,
   optional "status" status NamespaceStatus.encode NamespaceStatus.decode]

instance reads : Slot.Reads member slots := {}

lemma keeps : ∀ p ∈ slots, p.Keeps {} := by
  simp only [slots, List.forall_mem_cons]
  exact ⟨keeps_fixed rfl, keeps_fixed rfl, keeps_plain Metadata.lossless rfl rfl,
    keeps_optional NamespaceSpec.lossless rfl, keeps_optional NamespaceStatus.lossless rfl, by simp⟩

end NamespaceObject

/-! ## Configuration maps -/

namespace ConfigMap

lemma octets_lossless : Lossless (fun l => .str (Text.Base64.encode l)) Source.decodeOctets where
  same a b h := by
    simp only [Json.sorted] at h ⊢
    simp only [Source.decodeOctets, Source.ofJson, Json.Node.ofJson, Text.Base64.decode_encode] at h
    rw [Except.ok.inj h]
  again v l _ := by
    simp only [Json.sorted, Source.decodeOctets, Source.ofJson, Json.Node.ofJson,
      Text.Base64.decode_encode]
    rfl
  given l := by simp [Json.sorted]

def slots : List (Slot ConfigMap) :=
  [fixed "apiVersion" (.str "v1") (·.decodeExactly "v1"),
   fixed "kind" (.str "ConfigMap") (·.decodeExactly "ConfigMap"),
   optional "binaryData" binaryData
     (fun m => .obj (m.map fun e => (e.1, .str (Text.Base64.encode e.2))))
     (Source.decodeMap Source.decodeOctets),
   optional "data" data .ofStringMap (Source.decodeMap Source.decodeString),
   optional "immutable" immutable .bool Source.decodeBool,
   plain "metadata" metadata Metadata.encode Metadata.decode {}]

instance reads : Slot.Reads member slots := {}

lemma keeps : ∀ p ∈ slots, p.Keeps {} := by
  simp only [slots, List.forall_mem_cons]
  exact ⟨keeps_fixed rfl, keeps_fixed rfl, keeps_optional octets_lossless.map rfl,
    keeps_optional .stringMap rfl, keeps_optional .bool rfl,
    keeps_plain Metadata.lossless rfl rfl, by simp⟩

lemma lossless : Lossless encode decode := reads.lossless "ConfigMap" (by decide) keeps

end ConfigMap

/-! ## Widgets -/

namespace Condition

/-- The members that a condition is written with. -/
def gathered (c : Condition) : Gathered where
  type := some c.type
  status := some c.status
  reason := c.reason
  message := c.message
  lastTransitionTime := c.lastTransitionTime
  observedGeneration := c.observedGeneration

def slots : List (Slot Gathered) :=
  [required "type" Gathered.type .str Source.decodeString,
   required "status" Gathered.status .str Source.decodeString,
   optional "reason" Gathered.reason .str Source.decodeString,
   optional "message" Gathered.message .str Source.decodeString,
   optional "lastTransitionTime" Gathered.lastTransitionTime .str Source.decodeString,
   optional "observedGeneration" Gathered.observedGeneration .int Source.decodeInt64]

instance reads : Slot.Reads member slots := {}

lemma decode_iff (v : Source) (c : Condition) :
    decode v = .ok c ↔ Source.decodeRecord "Condition" fields member {} v = .ok c.gathered := by
  refine Source.finish_iff ?_ v c
  rintro ⟨_ | type, _ | status, _⟩ ⟨⟩ <;> simp [gathered]

lemma exact_codec : Exact encode decode where
  toLossless := by
    refine Lossless.through (reads.lossless_spared "Condition" [] (by decide) ?_ reads.unknown) gathered
      (fun _ => rfl) decode_iff
    simp only [slots, List.forall_mem_cons]
    exact ⟨keeps_required .string rfl, keeps_required .string rfl, keeps_optional .string rfl,
      keeps_optional .string rfl, keeps_optional .string rfl, keeps_optional .int64 rfl, by simp⟩
  injective := by
    have hshows : ∀ p ∈ slots, p.Shows := by
      simp only [slots, List.forall_mem_cons]
      exact ⟨shows_required .string, shows_required .string, shows_optional .string,
        shows_optional .string, shows_optional .string, shows_optional .int64, by simp⟩
    rintro ⟨⟩ ⟨⟩ h
    simpa [gathered] using reads.encode_injective (by decide) hshows (gathered _) (gathered _) h

end Condition

namespace WidgetStatus

def slots : List (Slot WidgetStatus) :=
  [optional "phase" phase .str Source.decodeString,
   optional "observedGeneration" observedGeneration .int Source.decodeInt64,
   optional "conditions" conditions (fun l => .arr (l.map Condition.encode))
     (Source.decodeList Condition.decode)]

instance reads : Slot.Reads member slots := {}

lemma exact_codec : Exact encode decode where
  toLossless := by
    refine reads.lossless_spared "WidgetStatus" [] (by decide) ?_ reads.unknown
    simp only [slots, List.forall_mem_cons]
    exact ⟨keeps_optional .string rfl, keeps_optional .int64 rfl,
      keeps_optional Condition.exact_codec.toLossless.list rfl, by simp⟩
  injective := by
    refine reads.encode_injective (by decide) ?_
    simp only [slots, List.forall_mem_cons]
    exact ⟨shows_optional .string, shows_optional .int64, shows_optional Condition.exact_codec.list,
      by simp⟩

end WidgetStatus

namespace WidgetSpec

/-- The members that a spec is written with. -/
def gathered (s : WidgetSpec) : Gathered where
  replicas := some s.replicas
  image := s.image

def slots : List (Slot Gathered) :=
  [required "replicas" Gathered.replicas .int Source.decodeInt32,
   optional "image" Gathered.image .str Source.decodeString]

instance reads : Slot.Reads member slots := {}

lemma decode_iff (v : Source) (s : WidgetSpec) : decode v = .ok s ↔
    Source.decodeRecord "WidgetSpec" ["replicas", "image"] member {} v = .ok s.gathered := by
  refine Source.finish_iff ?_ v s
  rintro ⟨_ | replicas, _⟩ ⟨⟩ <;> simp [gathered]

lemma exact_codec : Exact encode decode where
  toLossless := by
    refine Lossless.through (reads.lossless_spared "WidgetSpec" [] (by decide) ?_ reads.unknown)
      gathered (fun _ => rfl) decode_iff
    simp only [slots, List.forall_mem_cons]
    exact ⟨keeps_required .int32 rfl, keeps_optional .string rfl, by simp⟩
  injective := by
    have hshows : ∀ p ∈ slots, p.Shows := by
      simp only [slots, List.forall_mem_cons]
      exact ⟨shows_required .int32, shows_optional .string, by simp⟩
    rintro ⟨⟩ ⟨⟩ h
    simpa [gathered] using reads.encode_injective (by decide) hshows (gathered _) (gathered _) h

end WidgetSpec

namespace Widget

/-- The members that a widget is written with. -/
def gathered (w : Widget) : Gathered where
  metadata := some w.metadata
  spec := some w.spec
  status := w.status

/-- What names the kind is written and not looked at. -/
def slots : List (Slot Gathered) :=
  [fixed "apiVersion" (.str (group ++ "/" ++ version)) fun _ => .ok (),
   fixed "kind" (.str kind) fun _ => .ok (),
   required "metadata" Gathered.metadata Metadata.encode Metadata.decode,
   required "spec" Gathered.spec WidgetSpec.encode WidgetSpec.decode,
   optional "status" Gathered.status WidgetStatus.encode WidgetStatus.decode]

lemma member_unknown (g : Gathered) (n : String) (v : Source)
    (hn : n ∉ ["metadata", "spec", "status"]) : member g n v = .ok g := by
  unfold member
  split <;> first | rfl | simp at hn

instance reads : Slot.Reads member slots := {}

lemma keeps : ∀ p ∈ slots, p.Keeps {} := by
  simp only [slots, List.forall_mem_cons]
  exact ⟨keeps_fixed rfl, keeps_fixed rfl, keeps_required Metadata.lossless rfl,
    keeps_required WidgetSpec.exact_codec.toLossless rfl,
    keeps_optional WidgetStatus.exact_codec.toLossless rfl, by simp⟩

lemma decode_iff (v : Source) (w : Widget) : decode v = .ok w ↔
    Source.decodeRecord "Widget" ["metadata", "spec", "status"] member {} v = .ok w.gathered := by
  refine Source.finish_iff ?_ v w
  rintro ⟨_ | metadata, _ | spec, _⟩ ⟨⟩ <;> simp [gathered]

/-- What the members of a document make of a widget that is decoded from it. -/
lemma given_of_decode {members : List (String × Json)} {w : Widget}
    (h : decode (Source.ofJson (.obj members)) = .ok w) {p : Slot Gathered} (hp : p ∈ slots)
    (hname : p.name ∈ ["metadata", "spec", "status"]) {o : Option Json}
    (ho : Json.find? p.name members = o) : p.Given .memory {} o (p.get w.gathered) :=
  (reads.slot hp).given_of_decodeSpared "Widget" [] hname ((decode_iff _ w).mp h) ho

lemma lossless : Lossless encode decode :=
  (reads.lossless_spared "Widget" [] (by decide) keeps member_unknown).through gathered (fun _ => rfl)
    decode_iff

end Widget

end ControlLoop
