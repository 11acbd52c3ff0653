import ControlLoop.Proofs.RepeatedMerges

/-!
# Patches that are sent again

A patch that has been granted can be sent again, as by a client that has not heard of its success: it is
granted again and changes nothing but the version of the object. The object is read from its form with
the patch merged into it, and written with metadata and a status that the store has put back. What the
patch has made of the rest it makes of it again, what the store owns is what it was, and the spec is the
one that is there already.
-/
namespace ControlLoop

open Slot (repeats_optional repeats_plain repeats_required repeats_fixed)

/-! ## Metadata -/

namespace Metadata

variable {previous m n : Metadata}

/-- The metadata `n` are those that have been read or those before, slot by slot, but for generation and
version. -/
def Mixes (previous m n : Metadata) : Prop :=
  ∀ p ∈ slots, p.name ≠ "generation" → p.name ≠ "resourceVersion" →
    p.get n = p.get m ∨ p.get n = p.get previous

lemma mixes_owned (previous m : Metadata) (changed : Bool) (version : Option String) :
    Mixes previous m { Store.ownedMetadata previous m changed with resourceVersion := version } := by
  simp [Mixes, slots, Store.ownedMetadata]

/-- The metadata `n` are `m` but for generation and version. -/
def Renumbers (m n : Metadata) : Prop :=
  ∃ generation version, n = { m with generation := generation, resourceVersion := version }

lemma names_nodup : (slots.map (·.name)).Nodup := by decide

lemma find?_encode {p : Slot Metadata} (hp : p ∈ slots) (m : Metadata) :
    Json.find? p.name m.encode.sorted.membersOf = (p.write (p.get m)).map Json.sorted :=
  Slot.find?_encode names_nodup hp m

/-- Changes of metadata that are made again come to the same, but for generation and version. -/
lemma exists_decode_merge (hmixes : Mixes previous m n)
    (hgeneration : ∀ g ∈ n.generation, -9223372036854775808 ≤ g ∧ g ≤ 9223372036854775807)
    {changes : List (String × Json)}
    (h : decode (previous.encode.sorted.merge (.obj changes)) = .ok m) :
    ∃ m', decode (n.encode.sorted.merge (.obj changes)) = .ok m' ∧ m.Renumbers m' := by
  have hgive := Slot.give_merged_iff.mp
    (reads.give (Slot.nodup_merged (Json.sorted_sorted previous.encode) changes) h)
  have hkept : ∀ p ∈ slots, p.name ≠ "generation" → p.name ≠ "resourceVersion" → p.Given .memory {}
      (Json.editAt p.name changes (Json.find? p.name n.encode.sorted.membersOf)) (p.get m) := by
    intro p hp hgeneration hversion
    have hold := hgive p hp
    -- What has been read is read again, and what the store owns is changed from where it was changed from.
    rcases hmixes p hp hgeneration hversion with hsame | hsame
    · rw [find?_encode hp, hsame]
      exact (repeats p hp).given_again (Json.change_editAt p.name changes)
        (Json.sorted_of_find? (Json.sorted_sorted _)) hold
    · rwa [find?_encode hp, hsame, ← find?_encode hp]
  have hcounted : Slot.optional "generation" generation .int Source.decodeInt64 ∈ slots := by
    simp [slots]
  have hnumbered : Slot.optional "resourceVersion" resourceVersion .str Source.decodeString ∈ slots := by
    simp [slots]
  obtain ⟨g, hg⟩ := Slot.exists_given (s := n) names_nodup hcounted .int64 (.int _ _ _) rfl
    (hgive _ hcounted) fun g hg => Source.decodeInt_ofJson (hgeneration g hg) .memory
  obtain ⟨version, hversion⟩ := Slot.exists_given (s := n) names_nodup hnumbered .string .string rfl
    (hgive _ hnumbered) fun _ _ => rfl
  have hother : ∀ p ∈ slots, p.name ≠ "generation" → p.name ≠ "resourceVersion" →
      p.get { m with generation := g, resourceVersion := version } = p.get m := by
    simp [slots]
  refine ⟨{ m with generation := g, resourceVersion := version }, ?_, g, version, rfl⟩
  refine reads.decodeMembers "ObjectMeta" (Slot.nodup_merged (Json.sorted_sorted n.encode) changes)
    (Slot.give_merged_iff.mpr fun p hp => ?_)
  by_cases hisGeneration : p.name = "generation"
  · obtain rfl := List.inj_on_of_nodup_map names_nodup hp hcounted hisGeneration
    exact hg
  by_cases hisVersion : p.name = "resourceVersion"
  · obtain rfl := List.inj_on_of_nodup_map names_nodup hp hnumbered hisVersion
    exact hversion
  rw [hother p hp hisGeneration hisVersion]
  exact hkept p hp hisGeneration hisVersion

/-- What a patch makes of metadata, and makes of them again: it is the same document, or one that is read
as the same but for generation and version. -/
lemma exists_decode_change (hmixes : Mixes previous m n)
    (hgeneration : ∀ g ∈ n.generation, -9223372036854775808 ≤ g ∧ g ≤ 9223372036854775807)
    {f : Option Json → Option Json} (hf : Json.Change f)
    (h : ∀ v, v ≠ .null → f (some previous.encode.sorted) = some v → decode v = .ok m) :
    f (some n.encode.sorted) = f (some previous.encode.sorted) ∨
      ∃ v m', f (some n.encode.sorted) = some v ∧ v ≠ .null ∧ decode v = .ok m' ∧ m.Renumbers m' := by
  cases hf with
  | kept same =>
    have hread : decode (previous.encode.sorted.merge (.obj [])) = .ok m :=
      h _ (encode_ne_null previous) (same _)
    obtain ⟨m', hm', hsame⟩ := exists_decode_merge hmixes hgeneration hread
    exact .inr ⟨_, m', same _, encode_ne_null n, hm', hsame⟩
  | given result eq => exact .inl ((eq _).trans (eq _).symm)
  | merged changes eq =>
    obtain ⟨m', hm', hsame⟩ := exists_decode_merge hmixes hgeneration
      (h _ (by simp [Json.merge]) (eq _))
    exact .inr ⟨_, m', eq _, by simp [Json.merge], hm', hsame⟩

/-- Metadata with another version have the same form without it. -/
lemma without_version (m : Metadata) (version : Option String) :
    { m with resourceVersion := version }.encode.sorted.without ["resourceVersion"] =
      m.encode.sorted.without ["resourceVersion"] := by
  obtain ⟨l, hl⟩ : ∃ l, { m with resourceVersion := version }.encode.sorted = .obj l := ⟨_, rfl⟩
  obtain ⟨l', hl'⟩ : ∃ l', m.encode.sorted = .obj l' := ⟨_, rfl⟩
  have hfind : ∀ n, n ≠ "resourceVersion" →
      { m with resourceVersion := version }.encode.sorted.get? n = m.encode.sorted.get? n := by
    intro n hn
    refine Slot.get?_encode_congr slots names_nodup { m with resourceVersion := version } m ?_
    simp [slots, hn.symm]
  rw [hl, hl'] at hfind ⊢
  exact Json.without_member_congr (Json.increasing_of_sorted hl) (Json.increasing_of_sorted hl') hfind

end Metadata

/-! ## Objects -/

/-- The slots that the objects of a kind are read into and written from. -/
structure Layout (α : Type) [Resource α] where
  {σ : Type}
  slots : List (Slot σ)
  start : σ
  embed : α → σ
  names : (slots.map (·.name)).Nodup
  toJson_eq : ∀ a, Resource.toJson a = (Slot.encode slots (embed a)).sorted
  decode_iff : ∀ (members : List (String × Json)) (a : α), (members.map (·.1)).Nodup →
    (Resource.decode (Json.obj members) = .ok a ↔ Slot.Give slots .memory members start (embed a))
  get_setMetadata : ∀ p ∈ slots, p.name ≠ "metadata" → ∀ (a : α) (m : Metadata),
    p.get (embed (Resource.setMetadata a m)) = p.get (embed a)
  read_metadata : ∀ p ∈ slots, p.name = "metadata" → ∀ (a : α) (m : Metadata) (v : Json),
    v ≠ .null → Metadata.decode v = .ok m → p.read v = .ok (p.get (embed (Resource.setMetadata a m)))
  repeats : ∀ p ∈ slots, p.name ≠ "metadata" → p.name ≠ "status" → p.Repeats start

def Widget.layout : Layout Widget where
  slots := slots
  start := {}
  embed := gathered
  names := by decide
  toJson_eq _ := rfl
  decode_iff members w hmembers := (decode_iff _ w).trans
    (reads.decodeSpared_iff "Widget" [] member_unknown hmembers)
  get_setMetadata := by simp [slots, gathered, Resource.setMetadata]
  read_metadata := by
    simp only [slots, List.forall_mem_cons]
    exact ⟨by simp, by simp, fun _ _ _ _ _ hread => congrArg (Except.map some) hread, by simp, by simp,
      by simp⟩
  repeats := by
    simp only [slots, List.forall_mem_cons]
    exact ⟨fun _ _ => repeats_fixed rfl fun _ _ _ => rfl, fun _ _ => repeats_fixed rfl fun _ _ _ => rfl,
      by simp, fun _ _ => repeats_required WidgetSpec.repeatable rfl, by simp, by simp⟩

def Deployment.layout : Layout Deployment where
  slots := slots
  start := {}
  embed := id
  names := by decide
  toJson_eq _ := rfl
  decode_iff members d hmembers := reads.decodeMembers_iff "Deployment" hmembers
  get_setMetadata := by simp [slots, Resource.setMetadata]
  read_metadata := by
    simp only [slots, List.forall_mem_cons]
    exact ⟨by simp, by simp, fun _ _ _ _ hv hread => Source.decodeOption_getD hv hread, by simp,
      by simp, by simp⟩
  repeats := by
    simp only [slots, List.forall_mem_cons]
    exact ⟨fun _ _ => repeats_fixed rfl nofun, fun _ _ => repeats_fixed rfl nofun, by simp,
      fun _ _ => repeats_optional DeploymentSpec.repeatable rfl, by simp, by simp⟩

def ConfigMap.layout : Layout ConfigMap where
  slots := slots
  start := {}
  embed := id
  names := by decide
  toJson_eq _ := rfl
  decode_iff members c hmembers := reads.decodeMembers_iff "ConfigMap" hmembers
  get_setMetadata := by simp [slots, Resource.setMetadata]
  read_metadata := by
    simp only [slots, List.forall_mem_cons]
    exact ⟨by simp, by simp, by simp, by simp, by simp,
      fun _ _ _ _ hv hread => Source.decodeOption_getD hv hread, by simp⟩
  repeats := by
    simp only [slots, List.forall_mem_cons]
    exact ⟨fun _ _ => repeats_fixed rfl nofun, fun _ _ => repeats_fixed rfl nofun,
      fun _ _ => repeats_optional (.map octets_lossless nofun) rfl,
      fun _ _ => repeats_optional .stringMap rfl, fun _ _ => repeats_optional .bool rfl, by simp,
      by simp⟩

namespace Store

open Resource (specOf statusOf Legible)

variable {α : Type} [Resource α]

/-- A member of a document, and in another one, that an object is read from: it is the same, or it is
what the object is written with and the same change makes of it. -/
inductive Rewritten (a : α) (name : String) : Option Json → Option Json → Prop
  | same (o : Option Json) : Rewritten a name o o
  | again {f : Option Json → Option Json} {o : Option Json} (hname : name ≠ "status")
      (hf : Json.Change f) (ho : ∀ v ∈ o, v.sorted = v) :
      Rewritten a name (f o) (f ((Resource.toJson a).get? name))

/-- An object is read again from members that are rewritten, with other metadata if there are others. -/
lemma decode_rewritten (layout : Layout α) {members members' : List (String × Json)} {a : α}
    {m : Metadata} (hdistinct : (Json.obj members).Distinct) (hdistinct' : (Json.obj members').Distinct)
    (h : Resource.decode (Json.obj members) = .ok a)
    (hmembers : ∀ name, name ≠ "metadata" →
      Rewritten a name (Json.find? name members) (Json.find? name members'))
    (hmetadata : Json.find? "metadata" members' = Json.find? "metadata" members ∧
        Resource.setMetadata a m = a ∨
      ∃ v, Json.find? "metadata" members' = some v ∧ v ≠ .null ∧ Metadata.decode v = .ok m) :
    Resource.decode (Json.obj members') = .ok (Resource.setMetadata a m) := by
  have hgive := (layout.decode_iff members a hdistinct).mp h
  refine (layout.decode_iff members' _ hdistinct').mpr fun p hp => ?_
  have hp' : p.Given .memory layout.start (Json.find? p.name members) (p.get (layout.embed a)) :=
    hgive p hp
  change p.Given .memory layout.start (Json.find? p.name members') _
  by_cases hname : p.name = "metadata"
  · rcases hmetadata with ⟨hsame, ha⟩ | ⟨v, hv, hnull, hread⟩
    · rwa [ha, hname, hsame, ← hname]
    · rw [hname, hv]
      exact layout.read_metadata p hp hname a m v hnull hread
  · rw [layout.get_setMetadata p hp hname]
    have hwritten : (Resource.toJson a).get? p.name =
        (p.write (p.get (layout.embed a))).map Json.sorted := by
      rw [layout.toJson_eq]
      exact Slot.find?_encode layout.names hp _
    have hrewritten := hmembers p.name hname
    generalize Json.find? p.name members = o, Json.find? p.name members' = o' at hp' hrewritten ⊢
    cases hrewritten with
    | same => exact hp'
    | again hstatus hf ho =>
      rw [hwritten]
      exact (layout.repeats p hp hname hstatus).given_again hf ho hp'

/-- `b` is what a write has left in the place of `a`, where `next` was sent: it has the status of `a`,
metadata of both and all else of `next`. -/
structure Leaves (a next b : α) : Prop where
  member_eq : ∀ name, name ≠ "metadata" → name ≠ "status" →
    (Resource.toJson b).get? name = (Resource.toJson next).get? name
  status_eq : statusOf b = statusOf a
  mixes : Metadata.Mixes (Resource.metadata a) (Resource.metadata next) (Resource.metadata b)

variable [StableMembers α] {a b next : α}

/-- The document that a write is read from: it has the status of the object before, and all else of the
object that is sent. -/
lemma exists_withStatusOf (a next : α) :
    ∃ members, withStatusOf (Resource.toJson a) (Resource.toJson next) = .obj members ∧
      (Json.obj members).Distinct ∧ Json.find? "status" members = statusOf a ∧
      ∀ name, name ≠ "status" → Json.find? name members = (Resource.toJson next).get? name := by
  have hdistinct := distinct_withStatusOf (Resource.toJson a) (Resource.encode next)
  have hstatus := get?_withStatusOf_status a next
  have hother := fun name (hname : name ≠ "status") =>
    get?_withStatusOf (Resource.toJson a) (Resource.toJson next) hname
  change (withStatusOf (Resource.toJson a) (Resource.toJson next)).Distinct at hdistinct
  cases hnew : withStatusOf (Resource.toJson a) (Resource.toJson next) with
  | obj members =>
    rw [hnew] at hdistinct hstatus hother
    exact ⟨members, rfl, hdistinct, hstatus, hother⟩
  | null | bool | num | str | arr =>
    have hmetadata := hother "metadata" (by decide)
    rw [hnew, StableParts.metadata_toJson] at hmetadata
    cases hmetadata

omit [StableMembers α] in
/-- The members that a patch makes of what a write has left. -/
lemma Leaves.rewritten_merge (h : Leaves a next b) {l l' : List (String × Json)}
    (hl : Resource.toJson a = .obj l) (hl' : Resource.toJson b = .obj l')
    (changes : List (String × Json)) {name : String} (hname : name ≠ "metadata") :
    Rewritten next name (Json.find? name (Json.mergeMembers l changes))
      (Json.find? name (Json.mergeMembers l' changes)) := by
  rw [Json.find?_merged, Json.find?_merged]
  by_cases hs : name = "status"
  · have hfind : Json.find? name l' = Json.find? name l := by
      have hstatus := h.status_eq
      rw [statusOf, statusOf, hl, hl'] at hstatus
      rw [hs]
      exact hstatus
    rw [hfind]
    exact .same _
  · have hfind : Json.find? name l' = (Resource.toJson next).get? name := by
      rw [← h.member_eq name hname hs, hl', Json.get?]
    rw [hfind]
    refine .again hs (Json.change_editAt name changes) fun v hv => ?_
    have hsorted : (Resource.toJson a).sorted = Resource.toJson a := Json.sorted_sorted _
    rw [hl] at hsorted
    exact Json.sorted_of_find? hsorted v hv

variable [LegibleResource α]

/-- A patch that is merged into what a write has left is read as what was sent, but for generation and
version. -/
lemma Leaves.exists_decode_merge (h : Leaves a next b) (layout : Layout α) {p : Json}
    (hnext : Resource.decode ((Resource.toJson a).merge p) = .ok next)
    (hgeneration : ∀ g ∈ Resource.generation b,
      -9223372036854775808 ≤ g ∧ g ≤ 9223372036854775807) :
    ∃ m, (Resource.metadata next).Renumbers m ∧
      Resource.decode ((Resource.toJson b).merge p) = .ok (Resource.setMetadata next m) := by
  have hsame : (Resource.metadata next).Renumbers (Resource.metadata next) := ⟨_, _, rfl⟩
  cases p with
  | obj changes =>
    obtain ⟨l, hl, hincreasing⟩ := exists_members a
    obtain ⟨l', hl', hincreasing'⟩ := exists_members b
    have hmetadata := StableParts.metadata_toJson a
    have hmetadata' := StableParts.metadata_toJson b
    rw [hl, Json.get?] at hmetadata
    rw [hl', Json.get?] at hmetadata'
    rw [hl, Json.merge, Json.membersOf] at hnext
    rw [hl', Json.merge, Json.membersOf]
    have hdistinct := (hincreasing.mergeMembers changes).distinct
    have hdistinct' := (hincreasing'.mergeMembers changes).distinct
    have hrewritten : ∀ name, name ≠ "metadata" → Rewritten next name
        (Json.find? name (Json.mergeMembers l changes))
        (Json.find? name (Json.mergeMembers l' changes)) :=
      fun name hname => h.rewritten_merge hl hl' changes hname
    have hread : ∀ v, v ≠ .null →
        Json.editAt "metadata" changes (some (Resource.metadata a).encode.sorted) = some v →
        Metadata.decode v = .ok (Resource.metadata next) := by
      intro v hv hedit
      refine StableParts.metadata_decode _ v next hdistinct hnext ?_ hv
      rw [Json.get?, Json.find?_merged, hmetadata, hedit]
    rcases Metadata.exists_decode_change h.mixes hgeneration (Json.change_editAt "metadata" changes)
      hread with hdocument | ⟨v, m, hv, hnull, hm, hrenumbers⟩
    · refine ⟨_, hsame, decode_rewritten layout hdistinct hdistinct' hnext hrewritten
        (.inl ⟨?_, LegibleResource.setMetadata_metadata next⟩)⟩
      rw [Json.find?_merged, Json.find?_merged, hmetadata, hmetadata', hdocument]
    · refine ⟨m, hrenumbers, decode_rewritten layout hdistinct hdistinct' hnext hrewritten
        (.inr ⟨v, ?_, hnull, hm⟩)⟩
      rw [Json.find?_merged, hmetadata', hv]
  | null | bool | num | str | arr =>
    -- The patch takes the place of the whole object.
    refine ⟨_, hsame, ?_⟩
    rw [LegibleResource.setMetadata_metadata]
    simpa only [Json.merge] using hnext

/-- What a write has left, by the object that was read for it. -/
lemma exists_read (hnext : Legible next) (h : replacement a next true = .ok b) :
    ∃ members c changed, (Json.obj members).Distinct ∧ Resource.decode (Json.obj members) = .ok c ∧
      b = Resource.setMetadata c
        (ownedMetadata (Resource.metadata a) (Resource.metadata next) changed) ∧
      Json.find? "status" members = statusOf a ∧
      ∀ name, name ≠ "status" → Json.find? name members = (Resource.toJson next).get? name := by
  obtain ⟨members, hmembers, hdistinct, hstatus, hother⟩ := exists_withStatusOf a next
  rw [replacement, if_pos rfl, hmembers] at h
  obtain ⟨c, hc, hb⟩ := bind_eq_ok h
  replace hc := decode_of_decodeObject hc
  have hmetadata : Resource.metadata c = Resource.metadata next := by
    have hread := StableParts.metadata_decode _ _ c hdistinct hc
      ((hother "metadata" (by decide)).trans (StableParts.metadata_toJson next))
      (Metadata.encode_ne_null _)
    rw [LegibleResource.metadata_legible next hnext] at hread
    exact (Except.ok.inj hread).symm
  rw [hmetadata] at hb
  exact ⟨members, c, _, hdistinct, hc, (Except.ok.inj hb).symm, hstatus, hother⟩

variable [LawfulResource α]

lemma leaves_of_replacement (hnext : Legible next) (h : replacement a next true = .ok b) (n : Nat) :
    Leaves a next (versioned n b) := by
  obtain ⟨members, c, changed, hdistinct, hc, rfl, -, hother⟩ := exists_read hnext h
  refine ⟨fun name hname hs => ?_, ?_, ?_⟩
  · rw [get?_versioned n _ hname, StableMembers.get?_setMetadata _ _ _ hname]
    exact StableMembers.get?_decode members c next name hdistinct hc (hother name hs)
  · rw [versioned, StableParts.statusOf_setMetadata, (replacement_parts h).2.1, if_pos rfl]
  · rw [metadata_versioned, LawfulResource.metadata_setMetadata]
    exact Metadata.mixes_owned _ _ changed _

/-- What is sent again with another generation and version leaves what is there, but for the version. -/
lemma replacement_again (layout : Layout α) (hnext : Legible next)
    (h : replacement a next true = .ok b) (n : Nat) {m : Metadata} (hm : m.Legible)
    (hrenumbers : (Resource.metadata next).Renumbers m) :
    ∃ version, replacement (versioned n b) (Resource.setMetadata next m) true =
      .ok (Resource.setMetadata b { Resource.metadata b with resourceVersion := version }) := by
  obtain ⟨hspec, hstatus, -⟩ := replacement_parts h
  obtain ⟨members, c, changed, hdistinct, hc, hb, hbefore, hother⟩ := exists_read hnext h
  obtain ⟨members', hmembers', hdistinct', hbefore', hagain⟩ :=
    exists_withStatusOf (versioned n b) (Resource.setMetadata next m)
  have hsame : ∀ name, name ≠ "metadata" → Json.find? name members' = Json.find? name members := by
    intro name hname
    by_cases hs : name = "status"
    · rw [hs, hbefore, hbefore', versioned, StableParts.statusOf_setMetadata, hstatus, if_pos rfl]
    · rw [hother name hs, hagain name hs, StableMembers.get?_setMetadata next m name hname]
  have hread : Resource.decode (Json.obj members') = .ok (Resource.setMetadata c m) := by
    refine decode_rewritten layout hdistinct hdistinct' hc (fun name hname => ?_)
      (.inr ⟨m.encode.sorted, ?_, m.encode_ne_null, hm⟩)
    · rw [hsame name hname]
      exact .same _
    · rw [hagain "metadata" (by decide), StableParts.metadata_toJson,
        LawfulResource.metadata_setMetadata]
  -- The spec is there already, so the generation is not counted up.
  have hkept : (Resource.toJson (versioned n b)).get? "spec" = (Json.obj members').get? "spec" := by
    change specOf (versioned n b) = _
    rw [versioned, StableSpec.specOf_setMetadata, hspec, Json.get?, hsame "spec" (by decide),
      hother "spec" (by decide), specOf]
  obtain ⟨generation, version, rfl⟩ := hrenumbers
  refine ⟨version, ?_⟩
  rw [replacement, if_pos rfl, hmembers', decodeObject_eq hread, hkept]
  subst hb
  change Except.ok (Resource.setMetadata (Resource.setMetadata c _) (ownedMetadata _
    (Resource.metadata (Resource.setMetadata c _)) _)) = _
  simp only [metadata_versioned, LawfulResource.metadata_setMetadata,
    LegibleResource.setMetadata_setMetadata, ownedMetadata]
  simp

/-! ## Requests -/

omit [StableMembers α] in
/-- What is put under a key has a new version whatever its version was. -/
lemma put_of_version (s : Store α) (k : ObjectKey) (event : α → WatchEvent α) (a : α)
    (version : Option String) :
    s.put k event (Resource.setMetadata a { Resource.metadata a with resourceVersion := version }) =
      s.put k event a := by
  have hversioned (n : Nat) : versioned n (Resource.setMetadata a
      { Resource.metadata a with resourceVersion := version }) = versioned n a := by
    rw [versioned, versioned, LawfulResource.metadata_setMetadata,
      LegibleResource.setMetadata_setMetadata]
  simp only [put, hversioned]

variable {s t : Store α} {k : ObjectKey} {p : Json}

/-- A patch that has been granted and has left the object in the store is granted again, and puts the
object where it is. -/
lemma patch_again (layout : Layout α) (hversion : requestedVersion p = none)
    (h : s.patch k p = .ok (b, t)) (hb : t.objects.get? k = some b)
    (hgeneration : ∀ g ∈ Resource.generation b,
      -9223372036854775808 ≤ g ∧ g ≤ 9223372036854775807) :
    t.patch k p = .ok (t.put k .modified b) := by
  obtain ⟨a, next, ha, -, hsent, hreplace⟩ := patch_ok h
  have hnext := decode_of_decodeObject hsent
  have hlegible := legible_of_decode hnext
  obtain ⟨c, hc, ⟨-, hremove⟩ | ⟨hheld, hput⟩⟩ := replace_ok hreplace
  · rw [← show (s.remove k c).2 = t from congrArg Prod.snd hremove, get?_remove, if_pos rfl] at hb
    cases hb
  obtain rfl : versioned (s.revision + 1) c = b := congrArg Prod.fst hput
  obtain ⟨m, hrenumbers, hread⟩ :=
    (leaves_of_replacement hlegible hc (s.revision + 1)).exists_decode_merge layout hnext hgeneration
  have hm : m.Legible := by
    have hmetadata := LegibleResource.metadata_legible _ (legible_of_decode hread)
    rwa [LawfulResource.metadata_setMetadata] at hmetadata
  obtain ⟨version, hreplacement⟩ := replacement_again layout hlegible hc (s.revision + 1) hm hrenumbers
  rw [patch_eq_replace hb (by rw [hversion]; rfl) hread, replace_of_replacement hreplacement,
    put_of_version, versioned, put_of_version]
  rw [LawfulResource.metadata_setMetadata]
  exact hheld

omit [LegibleResource α] in
/-- Objects that differ in their versions have the same form without it. -/
lemma without_version (n : Nat) (a : α) :
    (Resource.toJson (versioned n a)).without ["metadata", "resourceVersion"] =
      (Resource.toJson a).without ["metadata", "resourceVersion"] := by
  obtain ⟨l, hl, hincreasing⟩ := exists_members (versioned n a)
  obtain ⟨l', hl', hincreasing'⟩ := exists_members a
  have hmetadata := StableParts.metadata_toJson (versioned n a)
  have hmetadata' := StableParts.metadata_toJson a
  have hother := fun name (hname : name ≠ "metadata") => get?_versioned n a hname
  rw [metadata_versioned] at hmetadata
  rw [hl, hl'] at hother
  rw [hl] at hmetadata ⊢
  rw [hl'] at hmetadata' ⊢
  refine Json.without_nested_congr hincreasing hincreasing' ?_ hother
  rw [show Json.find? "metadata" l = _ from hmetadata, show Json.find? "metadata" l' = _ from hmetadata',
    Option.map_some, Option.map_some, Metadata.without_version]

/-- The object `c` is `b` with a new version, and nothing else in the store has changed. -/
structure Renewed (t u : Store α) (k : ObjectKey) (b c : α) : Prop where
  eq_versioned : c = versioned (t.revision + 1) b
  form_eq : (Resource.toJson c).without ["metadata", "resourceVersion"] =
    (Resource.toJson b).without ["metadata", "resourceVersion"]
  generation_eq : Resource.generation c = Resource.generation b
  objects_eq : u.objects = t.objects.insert k c

/-- A patch that asks for no version can be sent again: if it is granted and leaves the object in the
store, it is granted again, and the object has a new version and is the same otherwise. Generations are
words of 64 bits. -/
def RetrySafe (α : Type) [Resource α] : Prop :=
  ∀ (s t : Store α) (k : ObjectKey) (p : Json) (b : α), requestedVersion p = none →
    s.patch k p = .ok (b, t) → t.objects.get? k = some b →
    (∀ g ∈ Resource.generation b, -9223372036854775808 ≤ g ∧ g ≤ 9223372036854775807) →
    ∃ c u, t.patch k p = .ok (c, u) ∧ Renewed t u k b c

lemma retrySafe (layout : Layout α) : RetrySafe α := by
  intro s t k p b hversion h hb hgeneration
  refine ⟨_, _, patch_again layout hversion h hb hgeneration, rfl, without_version _ b, ?_, rfl⟩
  change (Resource.metadata (versioned _ b)).generation = _
  rw [metadata_versioned]
  rfl

/-- Patches of widgets, configuration maps and deployments can be sent again, whatever the store holds. -/
theorem patches_retry_safe : RetrySafe Widget ∧ RetrySafe ConfigMap ∧ RetrySafe Deployment :=
  ⟨retrySafe Widget.layout, retrySafe ConfigMap.layout, retrySafe Deployment.layout⟩

/-- A patch that sets, merges and takes away members, some of which belong to the store, are unknown or
are part of the status. -/
def retriedPatch : Json :=
  .obj [("metadata", .obj [("labels", .obj [("tier", .str "web"), ("old", .null)]),
      ("generation", .int 7), ("name", .str "b"), ("resourceVersion", .null)]),
    ("spec", .obj [("replicas", .int 3), ("image", .null), ("x", .obj [("y", .null)])]),
    ("status", .null)]

theorem patches_retry_safe_marked :
    ∃ b t c u, (run 1 marking).patch markedKey retriedPatch = .ok (b, t) ∧
      b.metadata.labels = some [("tier", "web")] ∧ b.spec.replicas = 3 ∧
      Resource.generation b = some 2 ∧ t.patch markedKey retriedPatch = .ok (c, u) ∧
      Renewed t u markedKey b c := by
  have hpatched : ((run 1 marking).patch markedKey retriedPatch).toOption.map (fun p =>
      (p.1.metadata.labels, p.1.spec.replicas, Resource.generation p.1,
        decide (p.2.objects.get? markedKey = some p.1))) =
        some (some [("tier", "web")], 3, some 2, true) := by
    decide +kernel
  cases h : (run 1 marking).patch markedKey retriedPatch with
  | error e => simp [h, Except.toOption] at hpatched
  | ok p =>
    obtain ⟨b, t⟩ := p
    rw [h] at hpatched
    obtain ⟨hlabels, hreplicas, hgeneration, hstored⟩ : b.metadata.labels = some [("tier", "web")] ∧
        b.spec.replicas = 3 ∧ Resource.generation b = some 2 ∧ t.objects.get? markedKey = some b := by
      simpa [Except.toOption] using hpatched
    obtain ⟨c, u, hagain, hrenewed⟩ := patches_retry_safe.1 (run 1 marking) t markedKey retriedPatch b
      (by decide) h hstored (by simp [hgeneration])
    exact ⟨b, t, c, u, rfl, hlabels, hreplicas, hgeneration, hagain, hrenewed⟩

end Store

end ControlLoop
