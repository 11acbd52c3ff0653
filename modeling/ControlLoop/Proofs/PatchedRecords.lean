import ControlLoop.Controller.WidgetReconciler
import ControlLoop.Proofs.LegibleObjects
import ControlLoop.Proofs.StoredConditions

/-!
# Records that a patch is merged into

A patch is merged into the JSON form of a record, and what comes of it is decoded. The slots that the
patch does not name are what they were, and those that it names are read from what they were written as
with the change merged into it. So the report on a widget changes its status alone, and the correction
of a deployment its replicas and its containers.
-/
namespace ControlLoop

namespace Json

variable {members changes : List (String × Json)}

lemma mergeMembers_cons {name : String} {change : Json} (h : change ≠ .null)
    (members rest : List (String × Json)) :
    mergeMembers members ((name, change) :: rest) =
      mergeMembers (insertMember name (((find? name members).getD .null).merge change) members)
        rest := by
  cases change <;> first | exact absurd rfl h | rfl

/-- Members that a patch names have the change merged into them, others stay. -/
lemma find?_mergeMembers (hnames : (changes.map (·.1)).Nodup) (hchanges : ∀ c ∈ changes, c.2 ≠ .null)
    (name : String) (members : List (String × Json)) :
    find? name (mergeMembers members changes) =
      (find? name changes).elim (find? name members)
        fun c => some (((find? name members).getD .null).merge c) := by
  induction changes generalizing members with
  | nil => rfl
  | cons c changes ih =>
    obtain ⟨k, change⟩ := c
    rw [List.map_cons, List.nodup_cons] at hnames
    rw [List.forall_mem_cons] at hchanges
    rw [mergeMembers_cons hchanges.1, ih hnames.2 hchanges.2, find?_insertMember, find?]
    by_cases hk : k = name
    · subst hk
      simp [find?_eq_none hnames.1]
    · simp [hk]

lemma Increasing.mergeMembers (h : Increasing members) (changes : List (String × Json)) :
    Increasing (mergeMembers members changes) := by
  induction changes generalizing members with
  | nil => exact h
  | cons c changes ih =>
    obtain ⟨k, change⟩ := c
    by_cases hchange : change = .null
    · subst hchange
      exact ih (h.eraseMember k)
    · rw [mergeMembers_cons hchange]
      exact ih (h.insertMember k _)

end Json

namespace Slot

variable {σ : Type} {member : σ → String → Source → Decoded σ} {start s : σ} {slots : List (Slot σ)}
  {changes : List (String × Json)}

/-- The form of a record that may be absent. -/
def written (slots : List (Slot σ)) (o : Option σ) : Json :=
  ((o.map (encode slots)).map Json.sorted).getD .null

/-- What a slot of it is written as. -/
def writtenAt (p : Slot σ) (o : Option σ) : Json :=
  ((o.bind fun s => p.write (p.get s)).map Json.sorted).getD .null

/-- A slot of a record after a change. -/
def Changed (start : σ) (o : Option σ) (changes : List (String × Json)) (s : σ) (p : Slot σ) : Prop :=
  (Json.find? p.name changes).elim (p.get s = p.get (o.getD start)) fun c =>
    p.read (Source.ofJson ((p.writtenAt o).merge c)) = .ok (p.get s)

/-- The members that result from a patch give the slots what they are after the change. -/
lemma exists_merged (hslots : (slots.map (·.name)).Nodup) {o : Option σ}
    (ho : ∀ s ∈ o, ∀ p ∈ slots, p.Restored start (p.get s)) (hnames : (changes.map (·.1)).Nodup)
    (hchanges : ∀ c ∈ changes, c.2 ≠ .null) (hs : ∀ p ∈ slots, Changed start o changes s p) :
    ∃ members, (written slots o).merge (.obj changes) = .obj members ∧
      (members.map (·.1)).Nodup ∧ Give slots .memory members start s := by
  obtain ⟨before, hbefore, hincreasing, hfound, hgive⟩ : ∃ before, (written slots o).membersOf = before ∧
      Json.Increasing before ∧
      (∀ p ∈ slots, (Json.find? p.name before).getD .null = p.writtenAt o) ∧
      Give slots .memory before start (o.getD start) := by
    cases o with
    | none => exact ⟨[], rfl, List.Pairwise.nil, fun _ _ => rfl, fun _ _ => rfl⟩
    | some s =>
      obtain ⟨members, hmembers, -⟩ := exists_members slots s
      refine ⟨members, ?_, Json.increasing_of_sorted hmembers, fun p hp => ?_,
        (give_iff hslots hmembers).mpr (ho s rfl)⟩
      · rw [written, Option.map_some, Option.map_some, Option.getD_some, hmembers]
        rfl
      · rw [writtenAt, Option.bind_some, ← find?_encode hslots hp, hmembers]
        rfl
  refine ⟨Json.mergeMembers before changes, by rw [Json.merge, hbefore],
    (hincreasing.mergeMembers changes).distinct, fun p hp => ?_⟩
  have hp' := hgive p hp
  have hchanged := hs p hp
  rw [Changed] at hchanged
  rw [Json.find?_mergeMembers hnames hchanges, hfound p hp]
  cases hc : Json.find? p.name changes with
  | none =>
    rw [hc] at hchanged
    simp only [Option.elim_none] at hchanged ⊢
    rw [hchanged]
    exact hp'
  | some c =>
    rw [hc] at hchanged
    exact hchanged

variable {o : Option σ}

/-- A record is read from what it was written as with the changes merged into it. -/
lemma Reads.decodeMembers_merge (h : Reads member slots) (shape : String)
    (hslots : (slots.map (·.name)).Nodup) (ho : ∀ s ∈ o, ∀ p ∈ slots, p.Restored start (p.get s))
    (hnames : (changes.map (·.1)).Nodup) (hchanges : ∀ c ∈ changes, c.2 ≠ .null)
    (hs : ∀ p ∈ slots, Changed start o changes s p) :
    Source.decodeMembers shape member start
      (Source.ofJson ((written slots o).merge (.obj changes))) = .ok s := by
  obtain ⟨members, hmembers, hdistinct, hgive⟩ := exists_merged hslots ho hnames hchanges hs
  rw [hmembers]
  exact h.decodeMembers shape hdistinct hgive

lemma Reads.decodeSpared_merge (h : Reads member slots) (shape : String) {known : List String}
    (spare : List String) (hknown : ∀ g n v, n ∉ known → member g n v = .ok g)
    (hslots : (slots.map (·.name)).Nodup) (ho : ∀ s ∈ o, ∀ p ∈ slots, p.Restored start (p.get s))
    (hnames : (changes.map (·.1)).Nodup) (hchanges : ∀ c ∈ changes, c.2 ≠ .null)
    (hs : ∀ p ∈ slots, Changed start o changes s p) :
    Source.decodeSpared shape known spare member start
      (Source.ofJson ((written slots o).merge (.obj changes))) = .ok s := by
  obtain ⟨members, hmembers, hdistinct, hgive⟩ := exists_merged hslots ho hnames hchanges hs
  rw [hmembers]
  exact h.decodeSpared shape spare hknown hdistinct hgive

end Slot

open Slot (written)

/-! ## Reports on widgets -/

namespace WidgetStatus

variable {o : Option WidgetStatus}

lemma legible_iff {s : WidgetStatus} : decode s.encode.sorted = .ok s ↔
    ∀ p ∈ slots, p.Restored {} (p.get s) :=
  reads.legible_spared_iff "WidgetStatus" [] (by decide) reads.unknown {} s

/-- A status with other conditions. -/
lemma decode_conditions (ho : ∀ s ∈ o, decode s.encode.sorted = .ok s) {l : List Condition}
    (hl : ∀ c ∈ l, c.Fits) : decode ((written slots o).merge (Status.ofConditions l)) =
      .ok { o.getD {} with conditions := some l } := by
  have hread : Source.decodeOption (Source.decodeList Condition.decode)
      (Json.arr (l.map fun c => c.encode.sorted)) = .ok (some l) := by
    refine Source.decodeOption_eq_some (by simp) ?_
    rw [← Condition.decodeList_encode hl, Json.sorted_arr, List.map_map]
    rfl
  refine reads.decodeSpared_merge "WidgetStatus" [] reads.unknown (by decide)
    (fun s hs => legible_iff.mp (ho s hs)) (by simp) (by simp) ?_
  simp only [slots, List.forall_mem_cons, List.not_mem_nil, false_implies, implies_true, and_true]
  exact ⟨rfl, rfl, hread⟩

/-- A status with another phase and generation. -/
lemma decode_phase (ho : ∀ s ∈ o, decode s.encode.sorted = .ok s) (phase : String) {g : Int}
    (hg : -9223372036854775808 ≤ g ∧ g ≤ 9223372036854775807) :
    decode ((written slots o).merge
      ({ phase := some phase, observedGeneration := some g } : WidgetStatus).encode) =
      .ok { o.getD {} with phase := some phase, observedGeneration := some g } := by
  have hread : Source.decodeOption Source.decodeInt64 (Json.int g) = .ok (some g) :=
    Source.decodeOption_eq_some (by simp [Json.int]) (Source.decodeInt_ofJson hg .memory)
  have hencode : ({ phase := some phase, observedGeneration := some g } : WidgetStatus).encode =
      .obj [("phase", .str phase), ("observedGeneration", .int g)] := rfl
  rw [hencode]
  refine reads.decodeSpared_merge "WidgetStatus" [] reads.unknown (by decide)
    (fun s hs => legible_iff.mp (ho s hs)) (by simp) (by simp [Json.int]) ?_
  simp only [slots, List.forall_mem_cons, List.not_mem_nil, false_implies, implies_true, and_true]
  exact ⟨rfl, hread, rfl⟩

end WidgetStatus

namespace Widget

open Resource (Legible)

variable {w : Widget}

lemma status_legible (hw : Legible w) : ∀ s ∈ w.status, WidgetStatus.decode s.encode.sorted = .ok s := by
  rw [legible_iff] at hw
  simp only [slots, List.forall_mem_cons] at hw
  exact (Slot.restored_optional WidgetStatus.exact_codec.given rfl).mp hw.2.2.2.2.1

/-- A widget with another status. -/
lemma decode_status (hw : Legible w) {changes : List (String × Json)} {s : WidgetStatus}
    (hs : WidgetStatus.decode ((written WidgetStatus.slots w.status).merge (.obj changes)) = .ok s) :
    Resource.decode ((Resource.toJson w).merge (.obj [("status", .obj changes)])) =
      .ok { w with status := some s } := by
  have hread : Source.decodeOption WidgetStatus.decode
      (Source.ofJson ((written WidgetStatus.slots w.status).merge (.obj changes))) = .ok (some s) :=
    Source.decodeOption_eq_some (by simp [Json.merge]) hs
  refine (decode_iff _ _).mpr ?_
  refine reads.decodeSpared_merge (o := some w.gathered) "Widget" [] member_unknown (by decide)
    ?_ (by simp) (by simp) ?_
  · rintro _ ⟨⟩
    exact legible_iff.mp hw
  · simp only [slots, List.forall_mem_cons, List.not_mem_nil, false_implies, implies_true, and_true]
    exact ⟨rfl, rfl, rfl, rfl, hread⟩

end Widget

/-! ## Corrections of deployments -/

namespace PodSpec

/-- A template with other containers. -/
lemma decode_containers {o : Option PodSpec} (ho : ∀ s ∈ o, decode s.encode.sorted = .ok s)
    {items : List Json} {l : List Container}
    (hl : Source.decodeList Container.decode (Json.arr items) = .ok l) :
    decode ((written slots o).merge (.obj [("containers", .arr items)])) =
      .ok { o.getD {} with containers := l } := by
  refine reads.decodeMembers_merge "PodSpec" (by decide)
    (fun s hs => (reads.legible_iff "PodSpec" (by decide) {} s).mp (ho s hs)) (by simp) (by simp) ?_
  simp only [slots, List.forall_mem_cons, List.not_mem_nil, false_implies, implies_true, and_true]
  exact Source.decodeOption_getD (by simp [Json.merge]) hl

end PodSpec

namespace PodTemplate

lemma legible_iff {t : PodTemplate} : decode t.encode.sorted = .ok t ↔
    ∀ p ∈ slots, p.Restored {} (p.get t) :=
  reads.legible_iff "PodTemplateSpec" (by decide) {} t

/-- A template with other contents. -/
lemma decode_spec {o : Option PodTemplate} (ho : ∀ t ∈ o, decode t.encode.sorted = .ok t)
    {changes : List (String × Json)} {s : PodSpec}
    (hs : PodSpec.decode ((written PodSpec.slots (o.bind spec)).merge (.obj changes)) = .ok s) :
    decode ((written slots o).merge (.obj [("spec", .obj changes)])) =
      .ok { o.getD {} with spec := some s } := by
  have hread : Source.decodeOption PodSpec.decode (Source.ofJson
      (((Slot.optional "spec" spec PodSpec.encode PodSpec.decode).writtenAt o).merge
        (.obj changes))) = .ok (some s) := by
    refine Source.decodeOption_eq_some (by simp [Json.merge]) (Eq.trans ?_ hs)
    cases o <;> rfl
  refine reads.decodeMembers_merge "PodTemplateSpec" (by decide)
    (fun t ht => legible_iff.mp (ho t ht)) (by simp) (by simp) ?_
  simp only [slots, List.forall_mem_cons, List.not_mem_nil, false_implies, implies_true, and_true]
  exact ⟨rfl, hread⟩

lemma spec_legible {o : Option PodTemplate} (ho : ∀ t ∈ o, decode t.encode.sorted = .ok t) :
    ∀ s ∈ o.bind spec, PodSpec.decode s.encode.sorted = .ok s := by
  intro s hs
  obtain ⟨t, ht, hs⟩ := Option.bind_eq_some_iff.mp hs
  have hslots := legible_iff.mp (ho t ht)
  simp only [slots, List.forall_mem_cons] at hslots
  exact (Slot.restored_optional PodSpec.lossless.given rfl).mp hslots.2.1 s hs

end PodTemplate

namespace DeploymentSpec

lemma legible_iff {s : DeploymentSpec} : decode s.encode.sorted = .ok s ↔
    ∀ p ∈ slots, p.Restored {} (p.get s) :=
  reads.legible_iff "DeploymentSpec" (by decide) {} s

/-- A spec with another number of replicas and another template. -/
lemma decode_template {o : Option DeploymentSpec} (ho : ∀ s ∈ o, decode s.encode.sorted = .ok s)
    {n : Int} (hn : -2147483648 ≤ n ∧ n ≤ 2147483647) {changes : List (String × Json)}
    {t : PodTemplate}
    (ht : PodTemplate.decode ((written PodTemplate.slots (o.map template)).merge (.obj changes)) =
      .ok t) :
    decode ((written slots o).merge (.obj [("replicas", .int n), ("template", .obj changes)])) =
      .ok { o.getD {} with replicas := some n, template := t } := by
  have hreplicas : Source.decodeOption Source.decodeInt32 (Json.int n) = .ok (some n) :=
    Source.decodeOption_eq_some (by simp [Json.int]) (Source.decodeInt_ofJson hn .memory)
  have htemplate : (Source.decodeOption PodTemplate.decode (Source.ofJson
      (((Slot.plain "template" template PodTemplate.encode PodTemplate.decode {}).writtenAt o).merge
        (.obj changes)))).map (·.getD {}) = .ok t := by
    refine Source.decodeOption_getD (by simp [Json.merge]) (Eq.trans ?_ ht)
    cases o <;> rfl
  refine reads.decodeMembers_merge "DeploymentSpec" (by decide)
    (fun s hs => legible_iff.mp (ho s hs)) (by simp) (by simp [Json.int]) ?_
  simp only [slots, List.forall_mem_cons, List.not_mem_nil, false_implies, implies_true, and_true]
  exact ⟨rfl, rfl, rfl, hreplicas, rfl, rfl, rfl, htemplate⟩

lemma template_legible {o : Option DeploymentSpec} (ho : ∀ s ∈ o, decode s.encode.sorted = .ok s) :
    ∀ t ∈ o.map template, PodTemplate.decode t.encode.sorted = .ok t := by
  intro t ht
  obtain ⟨s, hs, rfl⟩ := Option.map_eq_some_iff.mp ht
  have hslots := legible_iff.mp (ho s hs)
  simp only [slots, List.forall_mem_cons] at hslots
  exact (Slot.restored_plain PodTemplate.lossless.given).mp hslots.2.2.2.2.2.2.2.1

end DeploymentSpec

namespace WidgetReconciler

open Resource (Legible)

/-- The deployment after its correction. -/
def corrected (w : Widget) (d : Deployment) : Deployment :=
  let spec := d.spec.getD {}
  { d with
    spec := some { spec with
      replicas := some w.spec.replicas
      template := { spec.template with spec := some { containers := [container w] } } } }

lemma isCurrent_corrected (w : Widget) (d : Deployment) : isCurrent w (corrected w d) = true := by
  simp [isCurrent, corrected, Deployment.firstImage, container]

/-- The number of replicas of a widget that can be read fits a word of 32 bits. -/
lemma replicas_range {w : Widget} (hw : Legible w) :
    -2147483648 ≤ w.spec.replicas ∧ w.spec.replicas ≤ 2147483647 := by
  rw [Widget.legible_iff] at hw
  simp only [Widget.slots, List.forall_mem_cons] at hw
  have hspec := (Slot.restored_required rfl).mp hw.2.2.2.1 w.spec rfl
  have hslots := (WidgetSpec.reads.legible_spared_iff "WidgetSpec" [] (by decide)
    WidgetSpec.reads.unknown {} w.spec.gathered).mp ((WidgetSpec.decode_iff _ _).mp hspec)
  simp only [WidgetSpec.slots, List.forall_mem_cons] at hslots
  exact Source.decodeInt_range ((Slot.restored_required rfl).mp hslots.1 w.spec.replicas rfl)

/-- The correction of a deployment is read as the corrected deployment. -/
lemma decode_correction {w : Widget} {d : Deployment} (hw : Legible w) (hd : Legible d) :
    Resource.decode ((Resource.toJson d).merge (correction w)) = .ok (corrected w d) := by
  have hspec : ∀ s ∈ d.spec, DeploymentSpec.decode s.encode.sorted = .ok s := by
    rw [Deployment.legible_iff] at hd
    simp only [Deployment.slots, List.forall_mem_cons] at hd
    exact (Slot.restored_optional DeploymentSpec.lossless.given rfl).mp hd.2.2.2.1
  have htemplate := DeploymentSpec.template_legible hspec
  have hcontainers : Source.decodeList Container.decode (Json.arr [(container w).encode]) =
      .ok [container w] := rfl
  have hread := DeploymentSpec.decode_template hspec (replicas_range hw) (PodTemplate.decode_spec
    htemplate (PodSpec.decode_containers (PodTemplate.spec_legible htemplate) hcontainers))
  refine Deployment.reads.decodeMembers_merge (o := some d) "Deployment" (by decide) ?_ (by simp)
    (by simp) ?_
  · rintro _ ⟨⟩
    exact Deployment.legible_iff.mp hd
  · simp only [Deployment.slots, List.forall_mem_cons, List.not_mem_nil, false_implies, implies_true,
      and_true]
    refine ⟨rfl, rfl, rfl, (Source.decodeOption_eq_some (by simp [Json.merge]) hread).trans ?_, rfl⟩
    cases hd' : d.spec <;> simp [corrected, hd']

end WidgetReconciler

end ControlLoop
