import ControlLoop.Proofs.SpecChanges
import ControlLoop.Resource.Event

/-!
# Parts of objects that stay when they are written and read

A store decodes what it is sent, so the spec that it keeps is one that has been encoded, decoded, and is
encoded again when it is looked at. For every kind of object that is the spec that was sent, and the same
is true of its status; configuration maps and events have neither. The metadata of an object are decoded
from the member that they are encoded as.
-/
namespace ControlLoop

open Resource (specOf)

/-- The spec of an object does not depend on its metadata, and an object that is decoded from a document
with the spec of another one has that spec, if the document names nothing twice. -/
class StableSpec (α : Type) [Resource α] : Prop where
  specOf_setMetadata : ∀ (a : α) (m : Metadata), specOf (Resource.setMetadata a m) = specOf a
  specOf_decode : ∀ (v : Json) (a b : α), v.Distinct → Resource.decode v = .ok a →
    v.get? "spec" = specOf b → specOf a = specOf b

instance (priority := low) {α : Type} [Resource α] [SteadySpec α] : StableSpec α where
  specOf_setMetadata := SteadySpec.specOf_setMetadata
  specOf_decode v a b _ := SteadySpec.specOf_decode v a b

/-- The status in the JSON form of an object. -/
def Resource.statusOf {α : Type} [Resource α] (a : α) : Option Json :=
  (Resource.toJson a).get? "status"

open Resource (statusOf)

/-- Besides its spec, an object keeps its status, and its metadata are what a document says where it has
them. -/
class StableParts (α : Type) [Resource α] : Prop extends StableSpec α where
  metadata_toJson : ∀ a : α,
    (Resource.toJson a).get? "metadata" = some (Resource.metadata a).encode.sorted
  metadata_decode : ∀ (v m : Json) (a : α), v.Distinct → Resource.decode v = .ok a →
    v.get? "metadata" = some m → m ≠ .null → Metadata.decode m = .ok (Resource.metadata a)
  statusOf_setMetadata : ∀ (a : α) (m : Metadata), statusOf (Resource.setMetadata a m) = statusOf a
  statusOf_decode : ∀ (v m : Json) (a b : α), v.Distinct → Resource.decode v = .ok a →
    v.get? "metadata" = some m → v.get? "status" = statusOf b → statusOf a = statusOf b

/-- Metadata that are read as part of a record are what their member says. -/
lemma Metadata.of_decodeMembers {σ : Type} {member : σ → String → Source → Decoded σ} {start a : σ}
    {get : σ → Metadata} {shape : String} {v m : Json}
    (htaken : Slot.Taken member (.plain "metadata" get encode decode {})) (hv : v.Distinct)
    (h : Source.decodeMembers shape member start (Source.ofJson v) = .ok a)
    (hm : v.get? "metadata" = some m) (hgiven : m ≠ .null) : decode m = .ok (get a) := by
  obtain ⟨o, ho, hdefault⟩ := Store.map_eq_ok (htaken.given_of_decodeMembers hv h hm)
  obtain ⟨metadata, hdecode, rfl⟩ :=
    Store.map_eq_ok ((Source.decodeOption_of_ne_null decode hgiven).symm.trans ho)
  obtain rfl : metadata = get a := hdefault
  exact hdecode

/-! ## Kinds of objects -/

namespace Deployment

lemma specOf_eq (d : Deployment) : specOf d = (d.spec.map DeploymentSpec.encode).map Json.sorted :=
  Json.get?_sorted_ofMembers (by simp) (by simp)

lemma statusOf_eq (d : Deployment) :
    statusOf d = (d.status.map DeploymentStatus.encode).map Json.sorted :=
  Json.get?_sorted_ofMembers (by simp) (by simp)

lemma taken_metadata :
    Slot.Taken member (.plain "metadata" metadata Metadata.encode Metadata.decode {}) :=
  reads.slot (by simp [slots])

instance : StableParts Deployment where
  specOf_setMetadata a m := by rw [specOf_eq, specOf_eq]; rfl
  specOf_decode _ _ _ hv h hspec :=
    reads.get?_of_decode "Deployment" (by decide) keeps hv h hspec
  metadata_toJson d := show _ = (some d.metadata.encode).map Json.sorted from
    Json.get?_sorted_ofMembers (by simp) (by simp)
  metadata_decode _ _ _ hv h := Metadata.of_decodeMembers taken_metadata hv h
  statusOf_setMetadata a m := by rw [statusOf_eq, statusOf_eq]; rfl
  statusOf_decode _ _ _ _ hv h _ hstatus :=
    reads.get?_of_decode "Deployment" (by decide) keeps hv h hstatus

end Deployment

namespace NamespaceObject

lemma specOf_eq (n : NamespaceObject) :
    specOf n = (n.spec.map NamespaceSpec.encode).map Json.sorted :=
  Json.get?_sorted_ofMembers (by simp) (by simp)

lemma statusOf_eq (n : NamespaceObject) :
    statusOf n = (n.status.map NamespaceStatus.encode).map Json.sorted :=
  Json.get?_sorted_ofMembers (by simp) (by simp)

lemma taken_metadata :
    Slot.Taken member (.plain "metadata" metadata Metadata.encode Metadata.decode {}) :=
  reads.slot (by simp [slots])

instance : StableParts NamespaceObject where
  specOf_setMetadata a m := by rw [specOf_eq, specOf_eq]; rfl
  specOf_decode _ _ _ hv h hspec :=
    reads.get?_of_decode "Namespace" (by decide) keeps hv h hspec
  metadata_toJson n := show _ = (some n.metadata.encode).map Json.sorted from
    Json.get?_sorted_ofMembers (by simp) (by simp)
  metadata_decode _ _ _ hv h := Metadata.of_decodeMembers taken_metadata hv h
  statusOf_setMetadata a m := by rw [statusOf_eq, statusOf_eq]; rfl
  statusOf_decode _ _ _ _ hv h _ hstatus :=
    reads.get?_of_decode "Namespace" (by decide) keeps hv h hstatus

end NamespaceObject

namespace ConfigMap

/-- Configuration maps have no status. -/
lemma statusOf_eq (c : ConfigMap) : statusOf c = none :=
  Json.get?_sorted_ofMembers_of_not_mem (by simp) (by simp)

lemma taken_metadata :
    Slot.Taken member (.plain "metadata" metadata Metadata.encode Metadata.decode {}) :=
  reads.slot (by simp [slots])

instance : StableParts ConfigMap where
  metadata_toJson c := show _ = (some c.metadata.encode).map Json.sorted from
    Json.get?_sorted_ofMembers (by simp) (by simp)
  metadata_decode _ _ _ hv h := Metadata.of_decodeMembers taken_metadata hv h
  statusOf_setMetadata a m := by rw [statusOf_eq, statusOf_eq]
  statusOf_decode v m a b _ _ _ _ := by rw [statusOf_eq, statusOf_eq]

end ConfigMap

namespace Event

/-- Events have neither spec nor status. -/
lemma specOf_eq (e : Event) : specOf e = none :=
  Json.get?_sorted_ofMembers_of_not_mem (by simp) (by simp)

lemma statusOf_eq (e : Event) : statusOf e = none :=
  Json.get?_sorted_ofMembers_of_not_mem (by simp) (by simp)

lemma taken_metadata :
    Slot.Taken member (.plain "metadata" metadata Metadata.encode Metadata.decode {}) where
  read g v := by simp [member]
  kept g n v hn := by
    unfold member
    split <;> simp at hn ⊢

instance : StableParts Event where
  specOf_setMetadata a m := by rw [specOf_eq, specOf_eq]
  specOf_decode v a b _ _ _ := by rw [specOf_eq, specOf_eq]
  metadata_toJson e := show _ = (some e.metadata.encode).map Json.sorted from
    Json.get?_sorted_ofMembers (by simp) (by simp)
  metadata_decode _ _ _ hv h := Metadata.of_decodeMembers taken_metadata hv h
  statusOf_setMetadata a m := by rw [statusOf_eq, statusOf_eq]
  statusOf_decode v m a b _ _ _ _ := by rw [statusOf_eq, statusOf_eq]

end Event

namespace Widget

/-- The metadata and the status of a widget that is decoded from an object. -/
lemma parts_of_decode {members : List (String × Json)} {w : Widget}
    (h : Widget.decode (Json.obj members) = .ok w) :
    (∀ m, Json.find? "metadata" members = some m → Metadata.decode m = .ok w.metadata) ∧
    (Json.find? "status" members = none → w.status = none) ∧
    ∀ v, Json.find? "status" members = some v →
      Source.decodeOption WidgetStatus.decode v = .ok w.status := by
  have hmetadata : Slot.required "metadata" Gathered.metadata Metadata.encode Metadata.decode ∈
      slots := by
    simp [slots]
  have hstatus : Slot.optional "status" Gathered.status WidgetStatus.encode WidgetStatus.decode ∈
      slots := by
    simp [slots]
  refine ⟨fun m hm => ?_, fun hnone => ?_, fun v hv => given_of_decode h hstatus (by decide) hv⟩
  · obtain ⟨metadata, hdecode, hsome⟩ := Store.map_eq_ok (given_of_decode h hmetadata (by decide) hm)
    obtain rfl : metadata = w.metadata := Option.some.inj hsome
    exact hdecode
  · have hgiven : none = w.status := given_of_decode h hstatus (by decide) hnone
    exact hgiven.symm

lemma statusOf_eq (w : Widget) : statusOf w = (w.status.map WidgetStatus.encode).map Json.sorted :=
  Json.get?_sorted_ofMembers (by simp) (by simp)

/-- A widget that is decoded from an object with the status of another one has that status. -/
lemma status_of_decode {members : List (String × Json)} {w v : Widget}
    (h : Widget.decode (Json.obj members) = .ok w)
    (hstatus : Json.find? "status" members = statusOf v) : w.status = v.status := by
  obtain ⟨-, hnone, hsome⟩ := parts_of_decode h
  rw [statusOf_eq] at hstatus
  cases hv : v.status with
  | none =>
    rw [hv] at hstatus
    exact hnone hstatus
  | some status =>
    rw [hv] at hstatus
    exact WidgetStatus.exact_codec.eq_of_decodeOption (hsome _ hstatus)

instance : StableParts Widget where
  metadata_toJson w := show _ = (some w.metadata.encode).map Json.sorted from
    Json.get?_sorted_ofMembers (by simp) (by simp)
  metadata_decode v m a _ h hm _ := by
    cases v with
    | obj members => exact (parts_of_decode h).1 m hm
    | null | bool | num | str | arr => simp [Json.get?] at hm
  statusOf_setMetadata a m := by rw [statusOf_eq, statusOf_eq]; rfl
  statusOf_decode v m a b _ h hm hstatus := by
    cases v with
    | obj members => rw [statusOf_eq, statusOf_eq, status_of_decode h hstatus]
    | null | bool | num | str | arr => simp [Json.get?] at hm

end Widget

end ControlLoop
