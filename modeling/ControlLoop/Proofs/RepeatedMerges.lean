import ControlLoop.Proofs.PatchedRecords
import ControlLoop.Proofs.SeparateWrites

/-!
# Patches that are merged again

A patch does one of three things to a member of an object: it leaves it, it puts something in its place
or takes it away, or it merges changes into it. Data that have been decoded from the result are decoded
again from their own form with the same patch merged into it: what was left is read as it is written,
what was put there is there again, and changes are merged all the way down to members that are replaced.
-/
namespace ControlLoop

namespace Json

variable {f : Option Json → Option Json} {name : String} {l : List (String × Json)} {v : Json}

/-- What becomes of a member that a patch names. -/
def edit : Json → Option Json → Option Json
  | null, _ => none
  | change, o => some ((o.getD null).merge change)

/-- What becomes of the member of the name. -/
def editAt (name : String) : List (String × Json) → Option Json → Option Json
  | [], o => o
  | (k, change) :: rest, o => editAt name rest (if k = name then edit change o else o)

lemma find?_merged (name : String) (l changes : List (String × Json)) :
    find? name (mergeMembers l changes) = editAt name changes (find? name l) := by
  induction changes generalizing l with
  | nil => rfl
  | cons c changes ih =>
    obtain ⟨k, change⟩ := c
    rw [editAt]
    by_cases hnull : change = null
    · subst hnull
      rw [mergeMembers, ih, find?_eraseMember, edit]
    · have hedit (o : Option Json) : edit change o = some ((o.getD null).merge change) := by
        cases change <;> first | exact absurd rfl hnull | rfl
      rw [mergeMembers_cons hnull, ih, find?_insertMember, hedit]
      split
      next hk => rw [hk]
      · rfl

lemma mergeMembers_append (l changes rest : List (String × Json)) :
    mergeMembers l (changes ++ rest) = mergeMembers (mergeMembers l changes) rest := by
  induction changes generalizing l with
  | nil => rfl
  | cons c changes ih =>
    obtain ⟨k, change⟩ := c
    cases change <;> exact ih _

/-- What a patch does to a member. -/
inductive Change (f : Option Json → Option Json) : Prop
  | kept (same : ∀ o, f o = o)
  | given (result : Option Json) (eq : ∀ o, f o = result)
  | merged (changes : List (String × Json)) (eq : ∀ o, f o = some ((o.getD null).merge (obj changes)))

lemma change_edit (change : Json) : Change (edit change) := by
  cases change with
  | null => exact .given none fun _ => rfl
  | obj changes => exact .merged changes fun _ => rfl
  | bool | num | str | arr => exact .given (some _) fun _ => rfl

/-- A change after another one is a change. -/
lemma Change.comp {g : Option Json → Option Json} (hf : Change f) (hg : Change g) :
    Change fun o => g (f o) := by
  cases hg with
  | kept same => simpa only [same] using hf
  | given result eq => exact .given result fun o => eq _
  | merged changes eq =>
    cases hf with
    | kept same => exact .merged changes fun o => by rw [same, eq]
    | given result eq' => exact .given _ fun o => by rw [eq', eq]
    | merged earlier eq' =>
      refine .merged (earlier ++ changes) fun o => ?_
      rw [eq', eq, Option.getD_some, merge, merge, merge, membersOf, mergeMembers_append]

lemma change_editAt (name : String) (changes : List (String × Json)) : Change (editAt name changes) := by
  induction changes with
  | nil => exact .kept fun _ => rfl
  | cons c changes ih =>
    obtain ⟨k, change⟩ := c
    by_cases hk : k = name
    · simpa only [editAt, if_pos hk] using (change_edit change).comp ih
    · simpa only [editAt, if_neg hk] using ih

/-! ## Members of sorted values -/

lemma increasing_membersOf (h : v.sorted = v) : Increasing v.membersOf := by
  cases v with
  | obj l => exact increasing_of_sorted h
  | null | bool | num | str | arr => exact List.Pairwise.nil

lemma sorted_of_find? (h : v.sorted = v) : ∀ w ∈ find? name v.membersOf, w.sorted = w := by
  intro w hw
  cases v with
  | obj l =>
    rw [sorted, obj.injEq] at h
    have hmem := mem_of_find? hw
    rw [membersOf, ← h] at hmem
    exact sorted_of_mem_sortedMembers l [] (by simp) _ hmem
  | null | bool | num | str | arr => cases hw

end Json

/-- What has been decoded from a document with changes merged into it is decoded again from its own form
with the changes merged into it. -/
structure Repeatable {ι : Type} (encode : ι → Json) (decode : Source → Decoded ι) : Prop
    extends Lossless encode decode where
  merged : ∀ (v : Json) (changes : List (String × Json)) (a : ι), v.sorted = v →
    decode (v.merge (.obj changes)) = .ok a → decode ((encode a).sorted.merge (.obj changes)) = .ok a

/-! ## Records -/

namespace Slot

variable {σ ι : Type} {member : σ → String → Source → Decoded σ} {start s : σ} {slots : List (Slot σ)}
  {p : Slot σ} {changes : List (String × Json)}

/-- Whatever is read is read again, also with changes merged into it. -/
structure Repeats (start : σ) (p : Slot σ) : Prop extends p.Keeps start where
  merged : ∀ (v : Json) (changes : List (String × Json)) (t : p.τ), v.sorted = v →
    p.read (v.merge (.obj changes)) = .ok t →
    p.read ((((p.write t).map Json.sorted).getD .null).merge (.obj changes)) = .ok t

/-- The slot has its value again if it is written and changed again. -/
lemma Repeats.given_again (h : p.Repeats start) {f : Option Json → Option Json} (hf : Json.Change f)
    {o : Option Json} (ho : ∀ v ∈ o, v.sorted = v) {t : p.τ} (hgiven : p.Given .memory start (f o) t) :
    p.Given .memory start (f ((p.write t).map Json.sorted)) t := by
  cases hf with
  | kept same =>
    rw [same] at hgiven ⊢
    cases o with
    | some v => exact h.again v t hgiven
    | none =>
      obtain rfl : p.get start = t := hgiven
      exact h.initial
  | given result eq =>
    rw [eq] at hgiven ⊢
    exact hgiven
  | merged changes eq =>
    rw [eq] at hgiven ⊢
    refine h.merged (o.getD .null) changes t ?_ hgiven
    cases o with
    | some v => exact ho v rfl
    | none => rfl

/-- Members that a patch is merged into give the slots of a record what it makes of them. -/
lemma give_merged_iff {l : List (String × Json)} :
    Give slots .memory (Json.mergeMembers l changes) start s ↔ ∀ p ∈ slots,
      p.Given .memory start (Json.editAt p.name changes (Json.find? p.name l)) (p.get s) := by
  simp only [← Json.find?_merged]
  rfl

/-- The slots of a record have their values again. -/
lemma give_again (hslots : (slots.map (·.name)).Nodup) (hrepeats : ∀ p ∈ slots, p.Repeats start)
    {v : Json} (hv : v.sorted = v)
    (hgive : Give slots .memory (Json.mergeMembers v.membersOf changes) start s) :
    Give slots .memory (Json.mergeMembers (encode slots s).sorted.membersOf changes) start s := by
  rw [give_merged_iff] at hgive ⊢
  intro p hp
  rw [find?_encode hslots hp]
  exact (hrepeats p hp).given_again (Json.change_editAt p.name changes) (Json.sorted_of_find? hv)
    (hgive p hp)

lemma nodup_merged {v : Json} (hv : v.sorted = v) (changes : List (String × Json)) :
    ((Json.mergeMembers v.membersOf changes).map (·.1)).Nodup :=
  ((Json.increasing_membersOf hv).mergeMembers changes).distinct

/-- The law of a record. -/
lemma Reads.repeatable (h : Reads member slots) (shape : String) (hslots : (slots.map (·.name)).Nodup)
    (hrepeats : ∀ p ∈ slots, p.Repeats start) :
    Repeatable (encode slots) (Source.decodeMembers shape member start) where
  toLossless := h.lossless shape hslots fun p hp => (hrepeats p hp).toKeeps
  merged v changes s hv hdecode := by
    refine (h.decodeMembers_iff shape (nodup_merged (Json.sorted_sorted _) changes)).mpr ?_
    exact give_again hslots hrepeats hv
      ((h.decodeMembers_iff shape (nodup_merged hv changes)).mp hdecode)

/-- The law of a record whose fields are fixed. -/
lemma Reads.repeatable_spared (h : Reads member slots) (shape : String) {known : List String}
    (spare : List String) (hslots : (slots.map (·.name)).Nodup)
    (hrepeats : ∀ p ∈ slots, p.Repeats start)
    (hknown : ∀ g n v, n ∉ known → member g n v = .ok g) :
    Repeatable (encode slots) (Source.decodeSpared shape known spare member start) where
  toLossless := h.lossless_spared shape spare hslots (fun p hp => (hrepeats p hp).toKeeps) hknown
  merged v changes s hv hdecode := by
    refine (h.decodeSpared_iff shape spare hknown
      (nodup_merged (Json.sorted_sorted _) changes)).mpr ?_
    exact give_again hslots hrepeats hv
      ((h.decodeSpared_iff shape spare hknown (nodup_merged hv changes)).mp hdecode)

/-! ## Kinds of slots -/

variable {name : String} {encode : ι → Json} {decode : Source → Decoded ι}

lemma repeats_optional (h : Repeatable encode decode) {get : σ → Option ι} (hstart : get start = none) :
    (optional name get encode decode).Repeats start where
  toKeeps := keeps_optional h.toLossless hstart
  merged v changes t hv hread := by
    obtain ⟨a, ha, rfl⟩ := Store.map_eq_ok hread
    exact Source.decodeOption_eq_some (by simp [Json.merge]) (h.merged v changes a hv ha)

lemma repeats_plain (h : Repeatable encode decode) {get : σ → ι} {default : ι}
    (hdefault : decode (Source.ofJson (encode default).sorted) = .ok default)
    (hstart : get start = default) : (plain name get encode decode default).Repeats start where
  toKeeps := keeps_plain h.toLossless hdefault hstart
  merged v changes t hv hread := by
    obtain ⟨o, ho, rfl⟩ := Store.map_eq_ok hread
    obtain ⟨a, ha, rfl⟩ := Store.map_eq_ok ho
    exact Source.decodeOption_getD (by simp [Json.merge]) (h.merged v changes a hv ha)

lemma repeats_required (h : Repeatable encode decode) {get : σ → Option ι} (hstart : get start = none) :
    (required name get encode decode).Repeats start where
  toKeeps := keeps_required h.toLossless hstart
  merged v changes t hv hread := by
    obtain ⟨a, ha, rfl⟩ := Store.map_eq_ok hread
    exact congrArg (Except.map some) (h.merged v changes a hv ha)

/-- A member that is always the same takes every object or none. -/
lemma repeats_fixed {value : Json} {read : Source → Decoded Unit}
    (h : read (Source.ofJson value.sorted) = .ok ())
    (hread : ∀ l l', read (Json.obj l) = .ok () → read (Json.obj l') = .ok ()) :
    (fixed name value read : Slot σ).Repeats start where
  toKeeps := keeps_fixed h
  merged _ _ _ _ hobject := hread _ _ hobject

end Slot

/-! ## Simple data, lists and maps -/

/-- The decoder takes no object. -/
def Flat {ι : Type} (decode : Source → Decoded ι) : Prop :=
  ∀ (members : List (String × Json)) (a : ι), decode (Json.obj members) ≠ .ok a

lemma Flat.string : Flat Source.decodeString := nofun

lemma Flat.int (low high : Int) (expected : String) : Flat (Source.decodeInt low high expected) := nofun

/-- A field that takes no object is read after changes from whatever is written there, if it has been
read after the same changes before. -/
lemma Slot.exists_given {σ ι : Type} {slots : List (Slot σ)} {start s : σ} {name : String}
    {get : σ → Option ι} {encode : ι → Json} {decode : Source → Decoded ι}
    (hslots : (slots.map (·.name)).Nodup) (hp : optional name get encode decode ∈ slots)
    (h : Lossless encode decode) (hflat : Flat decode) (hstart : get start = none)
    {changes : List (String × Json)} {o : Option Json} {t : Option ι}
    (hgiven : (optional name get encode decode).Given .memory start (Json.editAt name changes o) t)
    (hs : ∀ a ∈ get s, decode (encode a).sorted = .ok a) :
    ∃ u, (optional name get encode decode).Given .memory start (Json.editAt name changes
      (Json.find? name (Slot.encode slots s).sorted.membersOf)) u := by
  have hfind : Json.find? name (Slot.encode slots s).sorted.membersOf =
      ((get s).map encode).map Json.sorted := find?_encode hslots hp s
  rw [hfind]
  cases Json.change_editAt name changes with
  | kept same =>
    rw [same]
    exact ⟨get s, (restored_optional h.given hstart).mpr hs⟩
  | given result eq =>
    rw [eq] at hgiven ⊢
    exact ⟨t, hgiven⟩
  | merged changes eq =>
    rw [eq] at hgiven
    obtain ⟨a, ha, -⟩ := Store.map_eq_ok hgiven
    exact absurd ha (hflat _ a)

namespace Repeatable

variable {ι : Type} {encode : ι → Json} {decode : Source → Decoded ι}

/-- Nothing is merged into data that are no objects. -/
lemma of_flat (h : Lossless encode decode) (hflat : Flat decode) : Repeatable encode decode where
  toLossless := h
  merged _ _ a _ hdecode := absurd hdecode (hflat _ a)

lemma string : Repeatable Json.str Source.decodeString := .of_flat .string .string

lemma bool : Repeatable Json.bool Source.decodeBool := .of_flat .bool nofun

lemma int32 : Repeatable Json.int Source.decodeInt32 := .of_flat .int32 (.int _ _ _)

lemma int64 : Repeatable Json.int Source.decodeInt64 := .of_flat .int64 (.int _ _ _)

lemma time : Repeatable Json.ofTime Source.decodeTime := .of_flat .time nofun

lemma list (h : Lossless encode decode) :
    Repeatable (fun l => .arr (l.map encode)) (Source.decodeList decode) := .of_flat h.list nofun

lemma strings : Repeatable Json.ofStrings (Source.decodeList Source.decodeString) := .list .string

/-- The form of what a value is read as. -/
def normal (encode : ι → Json) (decode : Source → Decoded ι) (v : Json) : Json :=
  match decode v with
  | .ok a => (encode a).sorted
  | .error _ => v

lemma normal_of_decode {v : Json} {a : ι} (h : decode v = .ok a) :
    normal encode decode v = (encode a).sorted := by
  rw [normal, h]

lemma decode_of_normal (h : Lossless encode decode) {v : Json} {a : ι}
    (ha : decode (encode a).sorted = .ok a) (hv : normal encode decode v = (encode a).sorted) :
    decode v = .ok a := by
  unfold normal at hv
  split at hv
  next b hb =>
    have hagain := h.again v b hb
    rw [hv, ha] at hagain
    rw [hb, Except.ok.inj hagain]
  · rw [hv, ha]

/-- Members are read as a map if they have its form. -/
lemma entries_iff (h : Lossless encode decode) {members : List (String × Json)}
    {m : List (String × ι)} (hm : ∀ e ∈ m, decode (encode e.2).sorted = .ok e.2) :
    List.Forall₂ (Lossless.Entry decode) members m ↔
      members.map (fun n => (n.1, normal encode decode n.2)) =
        m.map fun e => (e.1, (encode e.2).sorted) := by
  rw [← List.forall₂_eq_eq_eq, List.forall₂_map_left_iff, List.forall₂_map_right_iff]
  refine ⟨fun hentries => hentries.imp fun n e hentry => ?_, fun hforms => ?_⟩
  · rw [hentry.1, normal_of_decode hentry.2]
  · refine (((List.forall₂_and_left m members).mpr ⟨hm, hforms.flip⟩).imp fun e n hentry => ?_).flip
    obtain ⟨hname, hform⟩ := Prod.mk.inj hentry.2
    exact ⟨hname, decode_of_normal h hentry.1 hform⟩

/-- Maps of items that are no objects. -/
lemma map (h : Lossless encode decode) (hflat : Flat decode) :
    Repeatable (fun m => .obj (m.map fun e => (e.1, encode e.2))) (Source.decodeMap decode) := by
  refine ⟨h.map, fun v changes m hv hread => ?_⟩
  obtain ⟨hm, hitems⟩ := h.ascending_of_decodeMap hread
  have hbefore := (Json.increasing_membersOf hv).mergeMembers changes
  have hwritten := (Lossless.increasing_map fun a => (encode a).sorted).mpr hm
  have hentries := (Lossless.decodeMap_iff hbefore).mp hread
  have hforms := (entries_iff h hitems).mp hentries
  rw [Lossless.sorted_map hm]
  refine (Lossless.decodeMap_iff (hwritten.mergeMembers changes)).mpr ((entries_iff h hitems).mpr ?_)
  refine ((hwritten.mergeMembers changes).map fun _ => normal encode decode).ext hwritten fun name => ?_
  have hitem : ∀ w, Json.find? name (m.map fun e => (e.1, (encode e.2).sorted)) = some w →
      ∃ a, decode (encode a).sorted = .ok a ∧ w = (encode a).sorted := by
    intro w hw
    obtain ⟨e, he, heq⟩ := List.mem_map.mp (Json.mem_of_find? hw)
    exact ⟨e.2, hitems e he, (Prod.mk.inj heq).2.symm⟩
  have hfind := congrArg (Json.find? name) hforms
  rw [Json.find?_map fun _ => normal encode decode, Json.find?_merged] at hfind ⊢
  cases Json.change_editAt name changes with
  | kept same =>
    rw [same]
    cases hw : Json.find? name (m.map fun e => (e.1, (encode e.2).sorted)) with
    | none => rfl
    | some w =>
      obtain ⟨a, ha, rfl⟩ := hitem w hw
      rw [Option.map_some, normal_of_decode ha]
  | given result eq =>
    rw [eq] at hfind ⊢
    exact hfind
  | merged changes eq =>
    -- An object has been read as an item.
    rw [eq] at hfind
    obtain ⟨a, ha, hform⟩ := hitem _ hfind.symm
    exact absurd (decode_of_normal h ha hform) (hflat _ a)

lemma stringMap : Repeatable Json.ofStringMap (Source.decodeMap Source.decodeString) :=
  map .string .string

/-- Data that are read through a record of what has been met so far. -/
lemma through {σ : Type} {record : σ → Json} {gather : Source → Decoded σ}
    (h : Repeatable record gather) (embed : ι → σ) (hencode : ∀ a, encode a = record (embed a))
    (hdecode : ∀ v a, decode v = .ok a ↔ gather v = .ok (embed a)) : Repeatable encode decode where
  toLossless := h.toLossless.through embed hencode hdecode
  merged v changes a hv ha := by
    rw [hdecode, hencode]
    exact h.merged v changes (embed a) hv ((hdecode _ a).mp ha)

end Repeatable

/-! ## Records of objects -/

open Slot (repeats_optional repeats_plain repeats_required)

lemma Metadata.repeats : ∀ p ∈ slots, p.Repeats {} := by
  simp only [slots, List.forall_mem_cons]
  exact ⟨repeats_optional .stringMap rfl, repeats_optional .time rfl, repeats_optional .int64 rfl,
    repeats_optional .time rfl, repeats_optional .strings rfl, repeats_optional .string rfl,
    repeats_optional .int64 rfl, repeats_optional .stringMap rfl,
    repeats_optional (.list ManagedFields.lossless) rfl, repeats_optional .string rfl,
    repeats_optional .string rfl, repeats_optional (.list OwnerReference.lossless) rfl,
    repeats_optional .string rfl, repeats_optional .string rfl, repeats_optional .string rfl, by simp⟩

lemma Metadata.repeatable : Repeatable encode decode :=
  reads.repeatable "ObjectMeta" (by decide) repeats

lemma PodSpec.repeatable : Repeatable encode decode := by
  refine reads.repeatable "PodSpec" (by decide) ?_
  simp only [slots, List.forall_mem_cons]
  exact ⟨repeats_plain (.list Container.lossless) rfl rfl, by simp⟩

lemma PodTemplate.repeatable : Repeatable encode decode := by
  refine reads.repeatable "PodTemplateSpec" (by decide) ?_
  simp only [slots, List.forall_mem_cons]
  exact ⟨repeats_optional Metadata.repeatable rfl, repeats_optional PodSpec.repeatable rfl, by simp⟩

lemma LabelSelector.repeatable : Repeatable encode decode := by
  refine reads.repeatable "LabelSelector" (by decide) ?_
  simp only [slots, List.forall_mem_cons]
  exact ⟨repeats_optional (.list LabelRequirement.lossless) rfl, repeats_optional .stringMap rfl,
    by simp⟩

lemma RollingUpdate.repeatable : Repeatable encode decode := by
  have hamount : Repeatable Amount.encode Amount.decode := .of_flat Amount.lossless nofun
  refine reads.repeatable "RollingUpdateDeployment" (by decide) ?_
  simp only [slots, List.forall_mem_cons]
  exact ⟨repeats_optional hamount rfl, repeats_optional hamount rfl, by simp⟩

lemma DeploymentStrategy.repeatable : Repeatable encode decode := by
  refine reads.repeatable "DeploymentStrategy" (by decide) ?_
  simp only [slots, List.forall_mem_cons]
  exact ⟨repeats_optional RollingUpdate.repeatable rfl, repeats_optional .string rfl, by simp⟩

lemma DeploymentSpec.repeatable : Repeatable encode decode := by
  refine reads.repeatable "DeploymentSpec" (by decide) ?_
  simp only [slots, List.forall_mem_cons]
  exact ⟨repeats_optional .int32 rfl, repeats_optional .bool rfl, repeats_optional .int32 rfl,
    repeats_optional .int32 rfl, repeats_optional .int32 rfl,
    repeats_plain LabelSelector.repeatable rfl rfl, repeats_optional DeploymentStrategy.repeatable rfl,
    repeats_plain PodTemplate.repeatable rfl rfl, by simp⟩

lemma WidgetSpec.repeatable : Repeatable encode decode := by
  refine Repeatable.through (reads.repeatable_spared "WidgetSpec" [] (by decide) ?_ reads.unknown)
    gathered (fun _ => rfl) decode_iff
  simp only [slots, List.forall_mem_cons]
  exact ⟨repeats_required .int32 rfl, repeats_optional .string rfl, by simp⟩

end ControlLoop
