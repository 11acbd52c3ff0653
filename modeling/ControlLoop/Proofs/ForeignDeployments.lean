import ControlLoop.Proofs.ReconcilerSteps

/-!
# Deployments that belong to someone else

The deployment of a widget has a name of its own, and an object of that name may have another owner.
Reconciliation looks at the owner before it writes, so it leaves such a deployment alone. Finalization
removes whatever has the name: it takes a foreign deployment away, or marks it, unless the request
fails or the deployment was marked and held already.
-/
namespace ControlLoop

namespace Store

variable {α : Type} [Resource α] {s t : Store α} {j k : ObjectKey} {a b : α}

/-- A write in the place of an object leaves the other keys alone. -/
lemma get?_of_replace {previous next : α} {keepStatus : Bool}
    (h : s.replace k previous next keepStatus = .ok (b, t)) (hj : k ≠ j) :
    t.objects.get? j = s.objects.get? j := by
  obtain ⟨a, -, ⟨-, hwrite⟩ | ⟨-, hwrite⟩⟩ := replace_ok h
  · have ht : t = (s.remove k a).2 := (congrArg Prod.snd hwrite).symm
    rw [ht, get?_remove, if_neg hj]
  · have ht : t = (s.put k .modified a).2 := (congrArg Prod.snd hwrite).symm
    rw [ht, get?_put, if_neg hj]

/-- A patch leaves the other keys alone. -/
lemma get?_of_patch {p : Json} (h : s.patch k p = .ok (b, t)) (hj : k ≠ j) :
    t.objects.get? j = s.objects.get? j := by
  obtain ⟨current, next, -, -, -, hreplace⟩ := patch_ok h
  exact get?_of_replace hreplace hj

/-- An object is added under a key that is free. -/
lemma get?_of_create {stamp : Stamp} {ns : Option String} {d : α}
    (h : s.create stamp ns a = .ok (b, t)) (hd : s.objects.get? k = some d) :
    t.objects.get? k = some d := by
  obtain ⟨name, -, hfree, hput⟩ := create_ok h
  have hk : (⟨ns, name⟩ : ObjectKey) ≠ k := by
    rintro rfl
    simp [hd] at hfree
  have ht := congrArg Prod.snd hput
  simp only at ht
  rw [← ht, get?_put, if_neg hk, hd]

/-- A request for the removal of an object leaves the other keys alone. -/
lemma get?_of_delete_ne {now : Timestamp} (h : s.delete now k = .ok t) (hj : k ≠ j) :
    t.objects.get? j = s.objects.get? j := by
  obtain ⟨current, -, ⟨-, rfl⟩ | ⟨-, ⟨-, rfl⟩ | ⟨-, rfl⟩⟩⟩ := delete_ok h
  · rw [get?_remove, if_neg hj]
  · rfl
  · rw [get?_put, if_neg hj]

/-- A request for the removal of an object that is there is granted. -/
lemma exists_delete (now : Timestamp) (h : s.objects.get? k = some a) :
    ∃ t, s.delete now k = .ok t := by
  have hget : s.get k = .ok a := by simp only [get, h]
  rw [delete, Edit.delete, outcome_look, hget]
  simp only [Except.bind]
  split
  · exact ⟨_, rfl⟩
  · split <;> exact ⟨_, rfl⟩

/-- A request for the removal of an object leaves it as it is only if it is marked and held. -/
lemma get?_of_delete [LawfulResource α] {now : Timestamp} (h : s.delete now k = .ok t)
    (ha : s.objects.get? k = some a) :
    t.objects.get? k = some a ↔
      (Resource.metadata a).isTerminating ∧ (Resource.metadata a).finalizerList ≠ [] := by
  obtain ⟨current, hcurrent, hcases⟩ := delete_ok h
  obtain rfl : current = a := Option.some.inj (hcurrent.symm.trans ha)
  obtain ⟨hfinalizers, rfl⟩ | ⟨hfinalizers, ⟨hmarked, rfl⟩ | ⟨hmarked, rfl⟩⟩ := hcases
  · simp [get?_remove, hfinalizers]
  · simp [ha, hmarked, hfinalizers]
  · rw [get?_put, if_pos rfl]
    -- The copy with the mark is another object, since this one has none.
    refine ⟨fun heq => absurd ?_ (Bool.eq_false_iff.mp hmarked), fun g => absurd g.1 (by simp [hmarked])⟩
    rw [← Option.some.inj heq, metadata_versioned, LawfulResource.metadata_setMetadata]
    rfl

end Store

namespace WidgetReconciler

open Session

/-- The deployment `d` is still under the key `k` if it was there. -/
def Spares (k : ObjectKey) (d : Deployment) (before after : Cluster) : Prop :=
  before.deployments.objects.get? k = some d → after.deployments.objects.get? k = some d

instance (k : ObjectKey) (d : Deployment) : Cluster.Frame (Spares k d) where
  aside _ _ _ := id
  trans h h' := h' ∘ h

variable {w : Widget} {k : ObjectKey} {d : Deployment}

lemma spares_updateStatus (j : ObjectKey) (status : Json) (version : Option String) :
    (Session.updateStatus Widget j status version).run.Within (Spares k d) :=
  within_write (g := id) fun _ _ _ _ => id

lemma spares_create (ns : Option String) (a : Deployment) :
    (Session.create ns a).run.Within (Spares k d) :=
  within_write (g := (·.countIssued (Resource.kind Deployment))) fun _ _ _ h =>
    Store.get?_of_create h

lemma spares_patch {j : ObjectKey} (p : Json) (hj : j ≠ k) :
    (Session.patch Deployment j p).run.Within (Spares k d) :=
  within_write (g := id) fun _ _ _ h => (Store.get?_of_patch h hj).trans

/-- A request for an object finds the one that is stored, or fails. -/
lemma get_ok {j : ObjectKey} {c e : Cluster} {a : Deployment}
    (h : Session.get Deployment j c = (.ok a, e)) : c.deployments.objects.get? j = some a := by
  have hstore : (c.takeFault .deployments .get).2.deployments = c.deployments := rfl
  have hresult := congrArg Prod.fst h
  simp only [Session.get, call, Collection.name] at hresult
  rw [← hstore]
  generalize c.takeFault .deployments .get = p at hresult ⊢
  rcases p with ⟨_ | fault, c⟩
  · simp only [Store.get, Collection.store, bind, Except.bind, pure, Except.pure] at hresult
    cases hget : c.deployments.objects.get? j with
    | none => simp [hget] at hresult
    | some b => simpa [hget] using hresult
  · simp at hresult

lemma findDeployment_some {c e : Cluster} {found : Deployment}
    (h : findDeployment w c = (.ok (some found), e)) :
    c.deployments.objects.get? (deploymentKey w) = some found := by
  unfold findDeployment at h
  split at h
  · cases h
  · cases h
  next hget =>
    cases h
    exact get_ok hget

/-- The deployment is patched only if it is controlled by the widget. -/
lemma spares_settleDeployment (hd : Owner.isControlledBy d.metadata w = false)
    {found : Option Deployment}
    (hfound : ∀ a, found = some a → k = deploymentKey w → a = d) :
    (settleDeployment w found).run.Within (Spares k d) := by
  unfold settleDeployment
  split
  · exact within_createDeployment w spares_create
  next a =>
    split
    · exact within_pure _
    next howned =>
      split
      · exact within_pure _
      · refine within_ofRequest (within_bind (spares_patch _ ?_) fun _ => within_pure _)
        -- Under the key of the widget's deployment stands one that it controls, which `d` is not.
        intro hk
        obtain rfl := hfound a rfl hk.symm
        simp [hd] at howned

lemma spares_ensureDeployment (hd : Owner.isControlledBy d.metadata w = false) :
    (ensureDeployment w).run.Within (Spares k d) := by
  intro c hk
  have hget := within_findDeployment (R := Spares k d) w c hk
  simp only [ExceptT.run, ensureDeployment_eq] at hget ⊢
  rcases hfind : findDeployment w c with ⟨e | found, c'⟩ <;> rw [hfind] at hget
  · rw [step_error _ hfind]
    exact hget
  · rw [step_ok _ hfind]
    refine spares_settleDeployment hd (fun a ha hkey => ?_) c' hget
    obtain rfl := ha
    rw [hkey, findDeployment_some hfind] at hk
    exact Option.some.inj hk

/-- Reconciliation leaves a foreign deployment alone. -/
lemma spares_reconcile (hd : Owner.isControlledBy d.metadata w = false) :
    (reconcile w).run.Within (Spares k d) := by
  rcases lt_or_ge w.spec.replicas 0 with hw | hw
  · rw [reconcile_of_neg hw]
    exact within_bind (within_report w _ _ spares_updateStatus) fun _ => within_pure _
  · rw [reconcile_of_nonneg hw]
    refine within_bind (spares_ensureDeployment hd) fun _ => ?_
    exact within_bind (within_report w _ _ spares_updateStatus) fun _ => within_pure _

/-! ## Finalization -/

lemma finalize_snd (w : Widget) (c : Cluster) :
    ((finalize w).run c).2 = ((Session.delete Deployment (deploymentKey w)).run c).2 := by
  simp only [ExceptT.run, finalize]
  split <;> simp_all

/-- The deployments after a request for the removal of one of them. -/
lemma deployments_delete (c : Cluster) (j : ObjectKey) :
    ((Session.delete Deployment j).run c).2.deployments =
      if (c.takeFault .deployments .delete).1.isSome then c.deployments
      else match c.deployments.delete c.date j with
        | .ok s => s
        | .error _ => c.deployments := by
  have hstore : (c.takeFault .deployments .delete).2.deployments = c.deployments := rfl
  have hdate : (c.takeFault .deployments .delete).2.date = c.date := rfl
  simp only [ExceptT.run, Session.delete, call, Collection.name]
  rw [← hstore, ← hdate]
  generalize c.takeFault .deployments .delete = p
  rcases p with ⟨_ | fault, c⟩
  · simp only [Cluster.delete, Collection.store, bind, Except.bind, pure, Except.pure]
    cases c.deployments.delete c.date j <;> rfl
  · rfl

/-- An object of the store outlives finalization only under another key, or if the request for its
removal fails, or if it is marked for removal and held by finalizers already. -/
lemma get?_finalize {c : Cluster} (hk : c.deployments.objects.get? k = some d) :
    ((finalize w).run c).2.deployments.objects.get? k = some d ↔
      k ≠ deploymentKey w ∨ (c.takeFault .deployments .delete).1.isSome ∨
        (d.metadata.isTerminating ∧ d.metadata.finalizerList ≠ []) := by
  rw [finalize_snd, deployments_delete]
  by_cases hfault : (c.takeFault .deployments .delete).1.isSome
  · simp [hfault, hk]
  simp only [hfault, Bool.false_eq_true, if_false, false_or]
  by_cases hkey : k = deploymentKey w
  · subst hkey
    obtain ⟨t, ht⟩ := Store.exists_delete c.date hk
    simp only [ht, ne_eq, not_true_eq_false, false_or]
    exact Store.get?_of_delete ht hk
  · refine iff_of_true ?_ (.inl hkey)
    split
    next s hs => rw [Store.get?_of_delete_ne hs (Ne.symm hkey), hk]
    next => exact hk

/-- Reconciliation leaves a deployment that the widget does not control alone, whatever the widget,
the state of the cluster and the failures that are set. Finalization does so exactly if the deployment
has another key than that of the widget, or the request for its removal fails, or it is marked for
removal and held by finalizers already. -/
theorem foreign_deployment_kept_iff (w : Widget) (c : Cluster) (k : ObjectKey) (d : Deployment)
    (hk : c.deployments.objects.get? k = some d)
    (hforeign : Owner.isControlledBy d.metadata w = false) :
    ((reconcile w).run c).2.deployments.objects.get? k = some d ∧
      (((finalize w).run c).2.deployments.objects.get? k = some d ↔
        k ≠ deploymentKey w ∨ (c.takeFault .deployments .delete).1.isSome ∨
          (d.metadata.isTerminating ∧ d.metadata.finalizerList ≠ [])) :=
  ⟨spares_reconcile hforeign c hk, get?_finalize hk⟩

/-- A widget, its identity known. -/
def sampleWidget : Widget where
  metadata := { name := some "a", ns := some "default", uid := some "u" }
  spec := { replicas := 1 }

/-- A deployment with the name of that of the widget, and no owner. -/
def strayDeployment : Deployment where
  metadata := { name := some "a-widget", ns := some "default" }

/-- A cluster with that deployment alone. -/
def strayCluster : Cluster where
  date := { seconds := 0 }
  deployments := { objects := KeyMap.ofList [(deploymentKey sampleWidget, strayDeployment)] }

theorem foreign_deployment_kept_iff_stray :
    let k := deploymentKey sampleWidget
    strayCluster.deployments.objects.get? k = some strayDeployment ∧
      Owner.isControlledBy strayDeployment.metadata sampleWidget = false ∧
      ((reconcile sampleWidget).run strayCluster).2.deployments.objects.get? k =
        some strayDeployment ∧
      ((finalize sampleWidget).run strayCluster).2.deployments.objects.get? k ≠
        some strayDeployment := by
  obtain ⟨hreconcile, hfinalize⟩ := foreign_deployment_kept_iff sampleWidget strayCluster
    (deploymentKey sampleWidget) strayDeployment rfl rfl
  exact ⟨rfl, rfl, hreconcile, fun h => absurd (hfinalize.mp h) (by decide)⟩

/-- Finalization removes a deployment of the widget's name that the widget does not control. -/
theorem finalize_removes_stray :
    strayCluster.deployments.objects.get? (deploymentKey sampleWidget) = some strayDeployment ∧
      Owner.isControlledBy strayDeployment.metadata sampleWidget = false ∧
      ((finalize sampleWidget).run strayCluster).2.deployments.objects.get?
        (deploymentKey sampleWidget) = none :=
  ⟨rfl, rfl, rfl⟩

end WidgetReconciler

end ControlLoop
