import ControlLoop.Proofs.ConditionWriters
import ControlLoop.Proofs.PatchedRecords
import ControlLoop.Proofs.ReconcilerSteps

/-!
# What comes of a widget

A run of the reconciler on a stored widget either refuses, and then writes nothing, or ends well. Then
the deployment of the widget is there and runs what is asked for, and the status of the widget says so.
Everything that a run checks before it writes is so after it has written, so that a second run writes
nothing.
-/
namespace ControlLoop

open Resource (Legible specOf statusOf)

/-! ## Requests that meet no failure -/

namespace WidgetReconciler

variable {c c' : Cluster} {k : ObjectKey} {w w' : Widget} {d : Deployment} {ws : Store Widget}
  {ds : Store Deployment} {phase : String} {ready : Condition}

/-- What the stores of a cluster hold in which no failure is set. -/
structure Holds (c : Cluster) (ws : Store Widget) (ds : Store Deployment) : Prop where
  widgets_eq : c.widgets = ws
  deployments_eq : c.deployments = ds
  calm : c.faults = []

section

variable {α β : Type} [Resource α] [Collection α] {method : Method} {key : ObjectKey}
  {argument : Option Json} {version : β → String} {act : Cluster → Except ClientError (β × Cluster)}

lemma Holds.takeFault (h : Holds c ws ds) (collection : CollectionName) (method : Method) :
    c.takeFault collection method = (none, c) := by
  simp only [Cluster.takeFault, h.calm, Cluster.splitFault, Option.bind_none]
  rw [← h.calm]

lemma Holds.call_ok (h : Holds c ws ds) {e : Cluster} {b : β} {ws' : Store Widget}
    {ds' : Store Deployment} (hact : act c = .ok (b, e)) (he : Holds e ws' ds') :
    ∃ c', Session.call α method key argument version act c = (.ok b, c') ∧ Holds c' ws' ds' := by
  simp only [Session.call, h.takeFault, hact]
  exact ⟨_, rfl, he.widgets_eq, he.deployments_eq, he.calm⟩

lemma Holds.call_error (h : Holds c ws ds) {e : ClientError} (hact : act c = .error e) :
    ∃ c', Session.call α method key argument version act c = (.error e, c') ∧ Holds c' ws ds := by
  simp only [Session.call, h.takeFault, hact]
  exact ⟨_, rfl, h.widgets_eq, h.deployments_eq, h.calm⟩

end

lemma Holds.updateStatus (h : Holds c ws ds) {status : Json} {version : Option String}
    {p : Widget × Store Widget} (hwrite : ws.updateStatus k status version = .ok p) :
    ∃ c', Session.updateStatus Widget k status version c = (.ok p.1, c') ∧ Holds c' p.2 ds := by
  refine h.call_ok (e := { c with widgets := p.2 }) ?_ ⟨rfl, h.deployments_eq, h.calm⟩
  simp only [Cluster.updateStatus, Collection.store, h.widgets_eq, hwrite]
  rfl

lemma Holds.patch (h : Holds c ws ds) {change : Json} {p : Deployment × Store Deployment}
    (hwrite : ds.patch k change = .ok p) :
    ∃ c', Session.patch Deployment k change c = (.ok p.1, c') ∧ Holds c' ws p.2 := by
  refine h.call_ok (e := { c with deployments := p.2 }) ?_ ⟨h.widgets_eq, rfl, h.calm⟩
  simp only [Cluster.patch, Collection.store, h.deployments_eq, hwrite]
  rfl

lemma Holds.create (h : Holds c ws ds) {ns : Option String} {p : Deployment × Store Deployment}
    (hwrite : ds.create ⟨c.date, c.nextUid (Resource.kind Deployment)⟩ ns d = .ok p) :
    ∃ c', Session.create ns d c = (.ok p.1, c') ∧ Holds c' ws p.2 := by
  refine h.call_ok (e := ({ c with deployments := p.2 } : Cluster).countIssued (Resource.kind Deployment)) ?_
    ⟨h.widgets_eq, rfl, h.calm⟩
  simp only [Cluster.create, Collection.store, h.deployments_eq, hwrite]
  rfl

lemma Holds.get (h : Holds c ws ds) (hd : ds.objects.get? k = some d) :
    ∃ c', Session.get Deployment k c = (.ok d, c') ∧ Holds c' ws ds := by
  refine h.call_ok (e := c) ?_ h
  simp only [Collection.store, h.deployments_eq, Store.get, hd]
  rfl

lemma Holds.get_none (h : Holds c ws ds) (hd : ds.objects.get? k = none) :
    ∃ c', Session.get Deployment k c = (.error (.notFound (Resource.kind Deployment) k.text), c') ∧
      Holds c' ws ds := by
  refine h.call_error ?_
  simp only [Collection.store, h.deployments_eq, Store.get, hd]
  rfl

/-! ## Reports -/

/-- The widget is stored in a cluster without failures, and can be read. -/
structure Keeps (c : Cluster) (ds : Store Deployment) (k : ObjectKey) (w : Widget) : Prop where
  holds : Holds c c.widgets ds
  stored : c.widgets.objects.get? k = some w
  sound : Store.Sound k w

lemma Keeps.target_eq (h : Keeps c ds k w) : Finalizer.target w = k := by
  have hname : w.metadata.name = some k.name := h.sound.standing.own_name
  have hns : w.metadata.ns = k.ns := h.sound.standing.own_ns
  simp [Finalizer.target, Metadata.displayName, Resource.metadata, hname, hns]

lemma checkVersion_self (k : ObjectKey) (w : Widget) :
    Store.checkVersion k w w.metadata.resourceVersion = .ok () := by
  unfold Store.checkVersion
  split
  · rfl
  next version hversion =>
    rw [if_pos]
    exact .inr (by simp [Resource.versionText, Resource.metadata, hversion])

/-- A change of the status that can be read is stored. -/
lemma Keeps.updateStatus (h : Keeps c ds k w) {changes : List (String × Json)}
    {version : Option String} {s : WidgetStatus} (hversion : Store.checkVersion k w version = .ok ())
    (hs : WidgetStatus.decode
      ((Slot.written WidgetStatus.slots w.status).merge (.obj changes)) = .ok s) :
    ∃ b c' n, Session.updateStatus Widget k (.obj changes) version c = (.ok b, c') ∧
      Keeps c' ds k (Store.versioned n { w with status := some s }) := by
  have hnext := Widget.decode_status h.sound.legible hs
  have hspec : specOf w = specOf { w with status := some s } := by
    rw [Widget.specOf_eq, Widget.specOf_eq]
  have hwrite := Store.updateStatus_eq h.stored hversion hnext rfl hspec h.sound.held
  obtain ⟨c', hcall, hholds⟩ := h.holds.updateStatus hwrite
  refine ⟨_, c', c.widgets.revision + 1, hcall, ?_, ?_, ?_⟩
  · rwa [hholds.widgets_eq]
  · rw [hholds.widgets_eq, Store.get?_put, if_pos rfl]
  · exact ⟨Store.legible_versioned (Store.legible_of_decode hnext) _,
      ⟨h.sound.standing.own_ns, h.sound.standing.own_name, h.sound.standing.generation_pos⟩,
      h.sound.held, h.sound.issued⟩

/-- The widgets differ in their statuses and versions alone. -/
structure SameTask (w w' : Widget) : Prop where
  spec_eq : w'.spec = w.spec
  metadata_eq : w'.metadata = { w.metadata with resourceVersion := w'.metadata.resourceVersion }

lemma SameTask.trans {w'' : Widget} (h : SameTask w w') (h' : SameTask w' w'') : SameTask w w'' where
  spec_eq := h'.spec_eq.trans h.spec_eq
  metadata_eq := by
    rw [h'.metadata_eq, h.metadata_eq]

lemma SameTask.apply_eq {β : Type} (h : SameTask w w') (f : Metadata → β)
    (hf : ∀ m v, f { m with resourceVersion := v } = f m) : f w'.metadata = f w.metadata := by
  rw [h.metadata_eq, hf]

lemma SameTask.target_eq (h : SameTask w w') : Finalizer.target w' = Finalizer.target w :=
  h.apply_eq (fun m => (⟨m.ns, m.displayName⟩ : ObjectKey)) fun _ _ => rfl

/-- The conditions have one that says what is to be reported, and other types are as before. -/
structure Conditions (w w' : Widget) (ready : Condition) : Prop where
  ready_mem : ∃ r ∈ w'.conditionList, r.type = ready.type ∧ r.status = ready.status ∧
    r.reason = ready.reason ∧ r.message = ready.message
  others_eq : w'.conditionList.filter (·.type ≠ ready.type) =
    w.conditionList.filter (·.type ≠ ready.type)

/-- The status reports the phase and the generation. -/
structure Observed (w : Widget) (phase : String) : Prop where
  phase_eq : w.status.bind WidgetStatus.phase = some phase
  observed_eq : w.status.bind WidgetStatus.observedGeneration = w.metadata.generation

lemma conditions_getD (w : Widget) : (w.status.getD {}).conditions.getD [] = w.conditionList := by
  unfold Widget.conditionList
  cases w.status <;> rfl

lemma fits_set (now : String) {l : List Condition} (hready : ready.Fits) (hl : ∀ r ∈ l, r.Fits) :
    ∀ r ∈ ready.set now l, r.Fits := by
  have hstamped (old : Option Condition) : (ready.stamped now old).Fits := by
    rw [Condition.Fits, (Condition.stamped_agrees now old ready).observedGeneration_eq]
    exact hready
  induction l with
  | nil => simpa [Condition.set] using hstamped none
  | cons o l ih =>
    rw [List.forall_mem_cons] at hl
    rw [Condition.set]
    split
    · exact List.forall_mem_cons.mpr ⟨hstamped _, hl.2⟩
    · exact List.forall_mem_cons.mpr ⟨hl.1, ih hl.2⟩

lemma any_agrees {l : List Condition} : l.any (agrees · ready) = true ↔
    ∃ r ∈ l, r.type = ready.type ∧ r.status = ready.status ∧ r.reason = ready.reason ∧
      r.message = ready.message := by
  simp [agrees, and_assoc]

/-- The conditions after one has been reported: the same ones if they say so already. -/
def conditionsAfter (now : String) (ready : Condition) (l : List Condition) : List Condition :=
  if l.any (agrees · ready) then l else ready.set now l

lemma conditions_of_after {now : String}
    (h : w'.conditionList = conditionsAfter now ready w.conditionList) : Conditions w w' ready := by
  unfold conditionsAfter at h
  split at h
  next hsaid => exact ⟨h ▸ any_agrees.mp hsaid, by rw [h]⟩
  · obtain ⟨r, hr, hagrees⟩ := Condition.find?_set_self now ready w.conditionList
    refine ⟨⟨r, h ▸ List.mem_of_find?_eq_some hr, hagrees.type_eq, hagrees.status_eq,
      hagrees.reason_eq, hagrees.message_eq⟩, ?_⟩
    rw [h]
    exact Condition.filter_set (p := fun type => type ≠ ready.type) (by simp)

lemma fits_of_legible (h : Legible w) : w.Fits := by
  obtain ⟨members, hmembers, -⟩ := Store.exists_members w
  rw [Legible, hmembers] at h
  refine Widget.fits_of_decode h ?_
  rw [statusOf, hmembers]
  rfl

/-- After the report of a condition the widget has it, and is else as it was. -/
lemma reportCondition_done (h : Keeps c ds k w) (hready : ready.Fits) :
    ∃ c' w', reportCondition w ready c = (.ok (), c') ∧ Keeps c' ds k w' ∧ SameTask w w' ∧
      w'.conditionList = conditionsAfter c.date.render ready w.conditionList ∧
      w'.status.bind WidgetStatus.phase = w.status.bind WidgetStatus.phase ∧
      w'.isObserved = w.isObserved := by
  unfold reportCondition conditionsAfter
  rw [conditions_getD]
  cases hsaid : w.conditionList.any (agrees · ready) with
  | true =>
    exact ⟨c, w, rfl, h, ⟨rfl, rfl⟩, rfl, rfl, rfl⟩
  | false =>
    have hfits := fits_of_legible h.sound.legible
    have hdecode := WidgetStatus.decode_conditions (Widget.status_legible h.sound.legible)
      (fits_set c.date.render hready hfits)
    obtain ⟨b, c', n, hcall, hkeeps⟩ := h.updateStatus (checkVersion_self k w) hdecode
    have hrequest : Status.updateCondition w ready c = (.ok b, c') := by
      rw [Status.updateCondition_eq hfits, h.target_eq]
      exact hcall
    refine ⟨c', _, step_ok _ (ofRequest_ok hrequest), hkeeps, ⟨rfl, rfl⟩, rfl, ?_, ?_⟩
    · cases hw : w.status <;> rfl
    · unfold Widget.isObserved
      cases hw : w.status <;> rfl

lemma observed_of_isObserved (h : w.isObserved = true) :
    w.status.bind WidgetStatus.observedGeneration = w.metadata.generation := by
  unfold Widget.isObserved at h
  split at h
  · cases h
  next g hg => rw [hg, of_decide_eq_true h]

/-- After the report of a phase the widget has it and its generation, and the same conditions. -/
lemma reportPhase_done {now : Widget} (h : Keeps c ds k now) (hsame : SameTask w now)
    (hphase : now.status.bind WidgetStatus.phase = w.status.bind WidgetStatus.phase)
    (hobserved : now.isObserved = w.isObserved) (phase : String) :
    ∃ c' w', reportPhase w phase c = (.ok (), c') ∧ Keeps c' ds k w' ∧ SameTask now w' ∧
      Observed w' phase ∧ w'.conditionList = now.conditionList := by
  unfold reportPhase
  have hgetD : (w.status.getD {}).phase = now.status.bind WidgetStatus.phase := by
    rw [hphase]
    cases w.status <;> rfl
  rw [hgetD, ← hobserved]
  split
  · obtain ⟨g, -, hg⟩ := h.sound.standing.generation_pos
    have hgeneration : now.metadata.generation = some g := hg
    have hrange := (LegibleResource.metadata_legible _ h.sound.legible).ranges.2.2 g hg
    have hdecode := WidgetStatus.decode_phase (Widget.status_legible h.sound.legible) phase hrange
    have hversion : Store.checkVersion k now none = .ok () := rfl
    obtain ⟨b, c', n, hcall, hkeeps⟩ := h.updateStatus hversion hdecode
    have hrequest : Status.update w
        ({ phase := some phase, observedGeneration := w.metadata.generation } : WidgetStatus).encode c =
          (.ok b, c') := by
      rw [Status.update, ← hsame.target_eq, h.target_eq, ← hsame.apply_eq Metadata.generation
        fun _ _ => rfl, hgeneration]
      exact hcall
    refine ⟨c', _, step_ok _ (ofRequest_ok hrequest), hkeeps, ⟨rfl, rfl⟩, ⟨rfl, hg.symm⟩, ?_⟩
    unfold Widget.conditionList
    cases hnow : now.status <;> rfl
  next hsaid =>
    simp only [not_or, not_not] at hsaid
    exact ⟨c, now, rfl, h, ⟨rfl, rfl⟩, ⟨hsaid.1, observed_of_isObserved hsaid.2⟩, rfl⟩

/-- What a report leaves. -/
structure Reported (w w' : Widget) (phase : String) (ready : Condition) : Prop extends
  SameTask w w', Conditions w w' ready, Observed w' phase

lemma report_done (h : Keeps c ds k w) (hready : ready.Fits) (phase : String) :
    ∃ c' w', report w phase ready c = (.ok (), c') ∧ Keeps c' ds k w' ∧ Reported w w' phase ready ∧
      w'.conditionList = conditionsAfter c.date.render ready w.conditionList := by
  obtain ⟨c₁, w₁, hfirst, hkeeps₁, hsame₁, hconditions, hphase, hobserved⟩ :=
    reportCondition_done h hready
  obtain ⟨c₂, w₂, hsecond, hkeeps₂, hsame₂, hreported, hlist⟩ :=
    reportPhase_done hkeeps₁ hsame₁ hphase hobserved phase
  have hafter := hlist.trans hconditions
  exact ⟨c₂, w₂, (step_ok _ hfirst).trans hsecond, hkeeps₂,
    ⟨hsame₁.trans hsame₂, conditions_of_after hafter, hreported⟩, hafter⟩

/-- A report that has been made is not made again. -/
lemma report_idle {previous : Widget} (h : Reported previous w phase ready)
    (hgeneration : w.metadata.generation.isSome) (c : Cluster) :
    report w phase ready c = (.ok (), c) := by
  have hfirst : reportCondition w ready c = (.ok (), c) := by
    unfold reportCondition
    rw [conditions_getD, any_agrees.mpr h.ready_mem]
    rfl
  have hphase : (w.status.getD {}).phase = some phase := by
    rw [← h.phase_eq]
    cases w.status <;> rfl
  have hobserved : w.isObserved = true := by
    obtain ⟨g, hg⟩ := Option.isSome_iff_exists.mp hgeneration
    simp [Widget.isObserved, h.observed_eq, hg]
  refine (step_ok _ hfirst).trans ?_
  unfold reportPhase
  rw [if_neg (by simp [hphase, hobserved])]
  rfl

/-! ## The deployment -/

/-- A deployment that belongs to someone else is a reason to refuse. -/
lemma ensureDeployment_foreign (h : Holds c ws ds) (hd : ds.objects.get? (deploymentKey w) = some d)
    (hforeign : Owner.isControlledBy d.metadata w = false) :
    ∃ c', ensureDeployment w c = (.error (.invalidResource
        (s!"deployment {w.deploymentName} exists and is not owned by widget " ++
          w.metadata.displayName)), c') ∧ Holds c' ws ds := by
  obtain ⟨c', hget, hholds⟩ := h.get hd
  refine ⟨c', ?_, hholds⟩
  rw [ensureDeployment_eq, step_ok _ (findDeployment_ok hget), settleDeployment,
    if_pos (by simp [hforeign])]
  rfl

/-- The deployment is there, belongs to the widget and runs what the widget asks for. -/
structure Deployed (ds : Store Deployment) (w : Widget) (d : Deployment) : Prop where
  stored : ds.objects.get? (deploymentKey w) = some d
  controlled : Owner.isControlledBy d.metadata w = true
  replicas_eq : d.spec.bind DeploymentSpec.replicas = some w.spec.replicas
  image_eq : d.firstImage = some (w.spec.image.getD Widget.defaultImage)

lemma isCurrent_iff : isCurrent w d = true ↔
    d.spec.bind DeploymentSpec.replicas = some w.spec.replicas ∧
      d.firstImage = some (w.spec.image.getD Widget.defaultImage) := by
  simp [isCurrent, Widget.image]

/-- A deployment that is as it should be is left alone. -/
lemma ensureDeployment_idle (h : Holds c ws ds) (hd : Deployed ds w d) :
    ∃ c', ensureDeployment w c = (.ok (), c') ∧ Holds c' ws ds := by
  obtain ⟨c', hget, hholds⟩ := h.get hd.stored
  refine ⟨c', ?_, hholds⟩
  rw [ensureDeployment_eq, step_ok _ (findDeployment_ok hget), settleDeployment,
    if_neg (by simp [hd.controlled]), if_pos (isCurrent_iff.mpr ⟨hd.replicas_eq, hd.image_eq⟩)]
  rfl

/-- A deployment that runs something else is corrected. -/
lemma ensureDeployment_corrects (h : Holds c ws ds) (hw : Legible w)
    (hd : ds.objects.get? (deploymentKey w) = some d) (hsound : Store.Sound (deploymentKey w) d)
    (howned : Owner.isControlledBy d.metadata w = true) (hother : isCurrent w d = false) :
    ∃ c' ds' d', ensureDeployment w c = (.ok (), c') ∧ Holds c' ws ds' ∧ Deployed ds' w d' := by
  obtain ⟨c₁, hget, hholds₁⟩ := h.get hd
  have hstatus : statusOf d = statusOf (corrected w d) := by
    rw [Deployment.statusOf_eq, Deployment.statusOf_eq]
    rfl
  obtain ⟨generation, hpatch⟩ := Store.patch_eq hd (p := correction w) rfl
    (decode_correction hw hsound.legible) rfl hstatus hsound.held
  obtain ⟨c₂, hcall, hholds₂⟩ := hholds₁.patch hpatch
  have hstored := Store.get?_put ds (deploymentKey w) (deploymentKey w) .modified
    (Resource.setMetadata (corrected w d) { Resource.metadata d with generation := generation })
  rw [if_pos rfl] at hstored
  obtain ⟨hreplicas, himage⟩ := isCurrent_iff.mp (isCurrent_corrected w d)
  refine ⟨c₂, _, _, ?_, hholds₂, hstored, howned, hreplicas, himage⟩
  rw [ensureDeployment_eq, step_ok _ (findDeployment_ok hget), settleDeployment]
  simp only [howned, hother, not_true_eq_false, if_false, Bool.false_eq_true]
  have hrequest : (do let _ ← Session.patch Deployment (deploymentKey w) (correction w) : Request Unit)
      c₁ = (.ok (), c₂) := step_ok _ hcall
  exact ofRequest_ok hrequest

/-- A deployment that is missing is made. -/
lemma ensureDeployment_creates (h : Holds c ws ds) (hw : Store.Sound k w)
    (hd : ds.objects.get? (deploymentKey w) = none) :
    ∃ c' ds' d', ensureDeployment w c = (.ok (), c') ∧ Holds c' ws ds' ∧ Deployed ds' w d' := by
  obtain ⟨c₁, hget, hholds₁⟩ := h.get_none hd
  have hname : w.metadata.name = some k.name := hw.standing.own_name
  obtain ⟨uid, huid⟩ := Option.isSome_iff_exists.mp hw.issued
  have huid : w.metadata.uid = some uid := huid
  obtain ⟨owner, howner, hreference⟩ : ∃ owner, Owner.reference w = .ok owner ∧
      owner.uid = uid ∧ owner.controller = some true := by
    simp [Owner.reference, Resource.metadata, hname, huid]
  have hcreate := Store.create_eq (a := desired w owner)
    ⟨c₁.date, c₁.nextUid (Resource.kind Deployment)⟩ rfl hd
  obtain ⟨c₂, hcall, hholds₂⟩ := hholds₁.create hcreate
  have hstored := Store.get?_put ds (deploymentKey w) (deploymentKey w) .added
    (Resource.setMetadata (desired w owner) (Store.firstMetadata
      ⟨c₁.date, c₁.nextUid (Resource.kind Deployment)⟩ w.metadata.ns (desired w owner).metadata))
  rw [if_pos rfl] at hstored
  refine ⟨c₂, _, _, ?_, hholds₂, hstored, ?_, ?_, ?_⟩
  · rw [ensureDeployment_eq, step_ok _ (findDeployment_notFound hget), settleDeployment,
      createDeployment, howner]
    exact step_ok _ (ofRequest_ok hcall)
  · simp [Owner.isControlledBy, Store.firstMetadata, desired, Resource.metadata,
      Resource.setMetadata, Store.versioned, huid, hreference]
  · rfl
  · rfl

/-- If there is no deployment that belongs to someone else, then the deployment is there in the end. -/
lemma ensureDeployment_done (h : Holds c ws ds) (hw : Store.Sound k w) (hds : ds.Reachable)
    (howned : ∀ d, ds.objects.get? (deploymentKey w) = some d →
      Owner.isControlledBy d.metadata w = true) :
    ∃ c' ds' d', ensureDeployment w c = (.ok (), c') ∧ Holds c' ws ds' ∧ Deployed ds' w d' := by
  cases hd : ds.objects.get? (deploymentKey w) with
  | none => exact ensureDeployment_creates h hw hd
  | some d =>
    cases hcurrent : isCurrent w d with
    | true =>
      obtain ⟨hreplicas, himage⟩ := isCurrent_iff.mp hcurrent
      have hdeployed : Deployed ds w d := ⟨hd, howned d hd, hreplicas, himage⟩
      obtain ⟨c', hensure, hholds⟩ := ensureDeployment_idle h hdeployed
      exact ⟨c', ds, d, hensure, hholds, hdeployed⟩
    | false =>
      exact ensureDeployment_corrects h hw.legible hd (hds.sound hd) (howned d hd) hcurrent

/-! ## Runs -/

lemma report_fits (hw : Legible w) (holds : Bool) (reason message : String) :
    (Condition.report Widget.readyType holds reason message w.metadata.generation).Fits :=
  (LegibleResource.metadata_legible w hw).ranges.2.2

/-- A run is refused, and leaves the stores as they are. -/
lemma reconcile_refused (h : Holds c ws ds) (hw : 0 ≤ w.spec.replicas)
    (hd : ds.objects.get? (deploymentKey w) = some d)
    (hforeign : Owner.isControlledBy d.metadata w = false) :
    ∃ c', reconcile w c = (.error (.invalidResource
        (s!"deployment {w.deploymentName} exists and is not owned by widget " ++
          w.metadata.displayName)), c') ∧ Holds c' ws ds := by
  obtain ⟨c', hensure, hholds⟩ := ensureDeployment_foreign h hd hforeign
  exact ⟨c', by rw [reconcile_of_nonneg hw]; exact step_error _ hensure, hholds⟩

/-- A run on a widget that cannot run. -/
lemma reconcile_pending (h : Keeps c ds k w) (hw : w.spec.replicas < 0) :
    ∃ c' w', reconcile w c = (.ok {}, c') ∧ Keeps c' ds k w' ∧
      Reported w w' pendingPhase (invalidCondition w) ∧
      ∃ now, w'.conditionList = conditionsAfter now (invalidCondition w) w.conditionList := by
  obtain ⟨c', w', hreport, hkeeps, hreported, hafter⟩ :=
    report_done h (report_fits h.sound.legible false _ _) pendingPhase
  exact ⟨c', w', by rw [reconcile_of_neg hw]; exact step_ok _ hreport, hkeeps, hreported, _, hafter⟩

/-- A run on a widget that can run. -/
lemma reconcile_running (h : Keeps c ds k w) (hds : ds.Reachable) (hw : 0 ≤ w.spec.replicas)
    (howned : ∀ d, ds.objects.get? (deploymentKey w) = some d →
      Owner.isControlledBy d.metadata w = true) :
    ∃ c' ds' w' d, reconcile w c = (.ok {}, c') ∧ Keeps c' ds' k w' ∧
      Reported w w' runningPhase (configuredCondition w) ∧ Deployed ds' w d ∧
      ∃ now, w'.conditionList = conditionsAfter now (configuredCondition w) w.conditionList := by
  obtain ⟨c₁, ds', d, hensure, hholds, hdeployed⟩ := ensureDeployment_done h.holds h.sound hds howned
  have hkeeps₁ : Keeps c₁ ds' k w :=
    ⟨hholds.widgets_eq ▸ hholds, hholds.widgets_eq ▸ h.stored, h.sound⟩
  obtain ⟨c₂, w', hreport, hkeeps₂, hreported, hafter⟩ :=
    report_done hkeeps₁ (report_fits h.sound.legible true _ _) runningPhase
  refine ⟨c₂, ds', w', d, ?_, hkeeps₂, hreported, hdeployed, _, hafter⟩
  rw [reconcile_of_nonneg hw]
  exact (step_ok _ hensure).trans (step_ok _ hreport)

/-- If a run on a widget that can run ends well, then no deployment of the name belongs to someone
else. -/
lemma owned_of_ok (h : Holds c ws ds) (hw : 0 ≤ w.spec.replicas) {outcome : Outcome}
    (hrun : reconcile w c = (.ok outcome, c')) (d : Deployment)
    (hd : ds.objects.get? (deploymentKey w) = some d) : Owner.isControlledBy d.metadata w = true := by
  by_contra hforeign
  obtain ⟨c₁, hrefused, -⟩ := reconcile_refused h hw hd (by simpa using hforeign)
  cases hrefused.symm.trans hrun

/-- **What comes of a run on a stored widget, if no failure is set.** A deployment of the name that
belongs to someone else is a reason to refuse, and then nothing is written. Otherwise the run ends well.
-/
theorem reconcile_outcome (hwidgets : c.widgets.Reachable) (hdeployments : c.deployments.Reachable)
    (hcalm : c.faults = []) (hw : c.widgets.objects.get? k = some w)
    {result : Except ReconcileError Outcome} (hrun : (reconcile w).run c = (result, c')) :
    (0 ≤ w.spec.replicas →
      (∃ d, c.deployments.objects.get? (deploymentKey w) = some d ∧
        Owner.isControlledBy d.metadata w = false) →
      (∃ text, result = .error (.invalidResource text)) ∧
        c'.widgets = c.widgets ∧ c'.deployments = c.deployments) ∧
    (0 ≤ w.spec.replicas →
      (∀ d, c.deployments.objects.get? (deploymentKey w) = some d →
        Owner.isControlledBy d.metadata w = true) →
      result = .ok {} ∧ (∃ d, Deployed c'.deployments w d) ∧
        ∃ w', c'.widgets.objects.get? k = some w' ∧
          Reported w w' "Running" (configuredCondition w)) ∧
    (w.spec.replicas < 0 →
      result = .ok {} ∧ c'.deployments = c.deployments ∧
        ∃ w', c'.widgets.objects.get? k = some w' ∧ Reported w w' "Pending" (invalidCondition w)) := by
  have hkeeps : Keeps c c.deployments k w := ⟨⟨rfl, rfl, hcalm⟩, hw, hwidgets.sound hw⟩
  refine ⟨fun hpos ⟨d, hd, hforeign⟩ => ?_, fun hpos howned => ?_, fun hneg => ?_⟩
  · obtain ⟨c₁, hrefused, hholds⟩ := reconcile_refused hkeeps.holds hpos hd hforeign
    obtain ⟨rfl, rfl⟩ := Prod.mk.inj (hrefused.symm.trans hrun)
    exact ⟨⟨_, rfl⟩, hholds.widgets_eq, hholds.deployments_eq⟩
  · obtain ⟨c₁, ds', w', d, hdone, hkeeps', hreported, hdeployed, -⟩ :=
      reconcile_running hkeeps hdeployments hpos howned
    obtain ⟨rfl, rfl⟩ := Prod.mk.inj (hdone.symm.trans hrun)
    exact ⟨rfl, ⟨d, hkeeps'.holds.deployments_eq ▸ hdeployed⟩, w', hkeeps'.stored, hreported⟩
  · obtain ⟨c₁, w', hdone, hkeeps', hreported, -⟩ := reconcile_pending hkeeps hneg
    obtain ⟨rfl, rfl⟩ := Prod.mk.inj (hdone.symm.trans hrun)
    exact ⟨rfl, hkeeps'.holds.deployments_eq, w', hkeeps'.stored, hreported⟩

/-- A widget whose status says that it cannot run. -/
def staleWidget : Widget where
  metadata := {
    name := some "a", ns := some "default", uid := some "u", generation := some 1
    creationTimestamp := some { seconds := 0 }, resourceVersion := some "1" }
  spec := { replicas := 2 }
  status := some { conditions := some [
    .report "Ready" false "InvalidSpec" "" none, .report "Synced" true "Created" "" (some 1)] }

/-- A deployment of the widget that has no spec. -/
def bareDeployment : Deployment where
  metadata := {
    name := some "a-widget"
    ownerReferences := some [{ uid := "u", controller := some true }] }

/-- A cluster with both of them. -/
def staleCluster : Cluster where
  date := { seconds := 0 }
  widgets := Store.run 1 [.create ⟨{ seconds := 0 }, "u"⟩ (some "default") staleWidget]
  deployments := Store.run 1 [.create ⟨{ seconds := 0 }, "v"⟩ (some "default") bareDeployment]

lemma staleCluster_reachable :
    staleCluster.widgets.Reachable ∧ staleCluster.deployments.Reachable := by
  have hwidget : Legible staleWidget := by
    unfold Legible
    decide +kernel
  have hdeployment : Legible bareDeployment := by
    unfold Legible
    decide +kernel
  refine ⟨⟨1, _, rfl, ?_, by decide⟩, ⟨1, _, rfl, ?_, by decide⟩⟩
  · simpa using ⟨by decide, hwidget⟩
  · simpa using ⟨by decide, hdeployment⟩

lemma staleWidget_stored :
    staleCluster.widgets.objects.get? ⟨some "default", "a"⟩ = some staleWidget := by
  decide +kernel

/-- The deployment is given a spec, and the status of the widget is put right. -/
theorem reconcile_outcome_stale :
    ∃ c' d w', (reconcile staleWidget).run staleCluster = (.ok {}, c') ∧
      Deployed c'.deployments staleWidget d ∧
      c'.widgets.objects.get? ⟨some "default", "a"⟩ = some w' ∧
      Reported staleWidget w' "Running" (configuredCondition staleWidget) := by
  obtain ⟨hwidgets, hdeployments⟩ := staleCluster_reachable
  have howned : (staleCluster.deployments.objects.get? (deploymentKey staleWidget)).all
      (fun d => Owner.isControlledBy d.metadata staleWidget) = true := by
    decide +kernel
  rw [Option.all_eq_true] at howned
  rcases hrun : (reconcile staleWidget).run staleCluster with ⟨result, c'⟩
  obtain ⟨-, hrunning, -⟩ := reconcile_outcome hwidgets hdeployments rfl staleWidget_stored hrun
  obtain ⟨rfl, ⟨d, hd⟩, w', hw', hreported⟩ := hrunning (by decide) howned
  exact ⟨c', d, w', rfl, hd, hw', hreported⟩

/-! ## Second runs -/

lemma SameTask.deploymentKey_eq (h : SameTask w w') : deploymentKey w' = deploymentKey w :=
  h.apply_eq (fun m => (⟨m.ns, m.displayName ++ "-widget"⟩ : ObjectKey)) fun _ _ => rfl

lemma SameTask.isControlledBy_eq (h : SameTask w w') (m : Metadata) :
    Owner.isControlledBy m w' = Owner.isControlledBy m w := by
  have huid : w'.metadata.uid = w.metadata.uid := h.apply_eq Metadata.uid fun _ _ => rfl
  simp only [Owner.isControlledBy, Resource.metadata, huid]

lemma Deployed.of_sameTask (h : Deployed ds w d) (hsame : SameTask w w') : Deployed ds w' d where
  stored := by rw [hsame.deploymentKey_eq, h.stored]
  controlled := by rw [hsame.isControlledBy_eq, h.controlled]
  replicas_eq := by rw [hsame.spec_eq, h.replicas_eq]
  image_eq := by rw [hsame.spec_eq, h.image_eq]

lemma SameTask.invalidCondition_eq (h : SameTask w w') : invalidCondition w' = invalidCondition w := by
  have hgeneration : w'.metadata.generation = w.metadata.generation :=
    h.apply_eq Metadata.generation fun _ _ => rfl
  rw [invalidCondition, invalidCondition, h.spec_eq, hgeneration]

lemma SameTask.configuredCondition_eq (h : SameTask w w') :
    configuredCondition w' = configuredCondition w := by
  have hgeneration : w'.metadata.generation = w.metadata.generation :=
    h.apply_eq Metadata.generation fun _ _ => rfl
  have hname : w'.deploymentName = w.deploymentName :=
    h.apply_eq (fun m => m.displayName ++ "-widget") fun _ _ => rfl
  rw [configuredCondition, configuredCondition, h.spec_eq, hgeneration, hname]

lemma reconcile_pending_again (h : Keeps c ds k w') (hw : w.spec.replicas < 0)
    (hreported : Reported w w' pendingPhase (invalidCondition w)) :
    reconcile w' c = (.ok {}, c) := by
  obtain ⟨g, -, hg⟩ := h.sound.standing.generation_pos
  have hsame : SameTask w w' := hreported.toSameTask
  rw [← hsame.invalidCondition_eq] at hreported
  rw [reconcile_of_neg (hsame.spec_eq ▸ hw)]
  exact step_ok _ (report_idle hreported (Option.isSome_of_mem hg) c)

lemma reconcile_running_again (h : Keeps c ds k w') (hw : 0 ≤ w.spec.replicas)
    (hreported : Reported w w' runningPhase (configuredCondition w)) (hd : Deployed ds w d) :
    ∃ c'', reconcile w' c = (.ok {}, c'') ∧ Holds c'' c.widgets ds := by
  obtain ⟨g, -, hg⟩ := h.sound.standing.generation_pos
  have hsame : SameTask w w' := hreported.toSameTask
  rw [← hsame.configuredCondition_eq] at hreported
  obtain ⟨c'', hensure, hholds⟩ := ensureDeployment_idle h.holds (hd.of_sameTask hsame)
  refine ⟨c'', ?_, hholds⟩
  rw [reconcile_of_nonneg (hsame.spec_eq ▸ hw)]
  exact (step_ok _ hensure).trans
    (step_ok _ (report_idle hreported (Option.isSome_of_mem hg) c''))

/-- **A second run writes nothing.** If a run on a stored widget ends well, then a run on the widget as
it is stored after that ends well, asks for no other run, and leaves both stores as they are. -/
theorem reconcile_idempotent (hwidgets : c.widgets.Reachable) (hdeployments : c.deployments.Reachable)
    (hcalm : c.faults = []) (hw : c.widgets.objects.get? k = some w) {outcome : Outcome}
    (hrun : (reconcile w).run c = (.ok outcome, c')) :
    ∃ w' c'', c'.widgets.get k = .ok w' ∧ (reconcile w').run c' = (.ok {}, c'') ∧
      c''.widgets = c'.widgets ∧ c''.deployments = c'.deployments := by
  have hkeeps : Keeps c c.deployments k w := ⟨⟨rfl, rfl, hcalm⟩, hw, hwidgets.sound hw⟩
  by_cases hneg : w.spec.replicas < 0
  · obtain ⟨c₁, w', hdone, hkeeps', hreported, -⟩ := reconcile_pending hkeeps hneg
    obtain ⟨-, rfl⟩ := Prod.mk.inj (hdone.symm.trans hrun)
    exact ⟨w', c₁, by rw [Store.get, hkeeps'.stored], reconcile_pending_again hkeeps' hneg hreported,
      rfl, rfl⟩
  · have hpos : 0 ≤ w.spec.replicas := by omega
    obtain ⟨c₁, ds', w', d, hdone, hkeeps', hreported, hdeployed, -⟩ :=
      reconcile_running hkeeps hdeployments hpos (owned_of_ok hkeeps.holds hpos hrun)
    obtain ⟨-, rfl⟩ := Prod.mk.inj (hdone.symm.trans hrun)
    obtain ⟨c'', hagain, hholds⟩ := reconcile_running_again hkeeps' hpos hreported hdeployed
    exact ⟨w', c'', by rw [Store.get, hkeeps'.stored], hagain, hholds.widgets_eq,
      hholds.deployments_eq.trans hkeeps'.holds.deployments_eq.symm⟩

theorem reconcile_idempotent_stale :
    ∃ c', (reconcile staleWidget).run staleCluster = (.ok {}, c') ∧ c'.widgets.revision = 3 ∧
      c'.deployments.revision = 2 ∧ ∃ w' c'', c'.widgets.get ⟨some "default", "a"⟩ = .ok w' ∧
        (reconcile w').run c' = (.ok {}, c'') ∧ c''.widgets = c'.widgets ∧
        c''.deployments = c'.deployments := by
  obtain ⟨hwidgets, hdeployments⟩ := staleCluster_reachable
  have heval : ((reconcile staleWidget).run staleCluster).1 = .ok {} ∧
      ((reconcile staleWidget).run staleCluster).2.widgets.revision = 3 ∧
      ((reconcile staleWidget).run staleCluster).2.deployments.revision = 2 := by
    decide +kernel
  rcases hrun : (reconcile staleWidget).run staleCluster with ⟨result, c'⟩
  rw [hrun] at heval
  obtain ⟨rfl, hwritten⟩ := heval
  exact ⟨c', rfl, hwritten.1, hwritten.2,
    reconcile_idempotent hwidgets hdeployments rfl staleWidget_stored hrun⟩

end WidgetReconciler

end ControlLoop
