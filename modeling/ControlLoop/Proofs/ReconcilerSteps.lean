import ControlLoop.Controller.Scripted
import ControlLoop.Proofs.OrderlyWork

/-!
# The steps of a reconciler

The reconciler for widgets takes steps, each with at most one request, and others may come between them.
If nobody does, then its work is that of the steps one after the other. Whoever does, what the work makes
of a cluster is made by the requests of its steps.
-/
namespace ControlLoop

/-- A job that comes to its end goes on with what follows it. -/
lemma Job.advance_bind {σ β γ : Type} {j : Job σ β} {s t : σ} {b : β}
    (h : j.advance s = (.finished b, t)) (f : β → Job σ γ) :
    (j.bind f).advance s = (f b).advance t := by
  induction j generalizing s with
  | done b' =>
    obtain ⟨rfl, rfl⟩ : b' = b ∧ s = t := by simpa [Job.advance] using h
    rfl
  | act effect next ih => exact ih s h
  | sleep d next => simp [Job.advance] at h

namespace WidgetReconciler

open Session

/-! ## Steps one after the other -/

section Steps

variable {ε β γ : Type} {c d : Cluster} {w : Widget}

lemma step_ok {x : ExceptT ε Session β} {b : β} (f : β → ExceptT ε Session γ)
    (hx : x c = (.ok b, d)) : (x >>= f) c = f b d := by
  change StateT.bind x (ExceptT.bindCont f) c = _
  rw [StateT.bind, hx]
  rfl

lemma step_error {x : ExceptT ε Session β} {e : ε} (f : β → ExceptT ε Session γ)
    (hx : x c = (.error e, d)) : (x >>= f) c = (.error e, d) := by
  change StateT.bind x (ExceptT.bindCont f) c = _
  rw [StateT.bind, hx]
  rfl

lemma ofRequest_ok {r : Request β} {b : β} (hr : r c = (.ok b, d)) : ofRequest r c = (.ok b, d) := by
  rw [ofRequest, hr]

lemma findDeployment_ok {a : Deployment}
    (h : Session.get Deployment (deploymentKey w) c = (.ok a, d)) :
    findDeployment w c = (.ok (some a), d) := by
  rw [findDeployment, h]

lemma findDeployment_notFound {kind name : String}
    (h : Session.get Deployment (deploymentKey w) c = (.error (.notFound kind name), d)) :
    findDeployment w c = (.ok none, d) := by
  rw [findDeployment, h]

lemma ensureDeployment_eq (w : Widget) :
    ensureDeployment w = findDeployment w >>= settleDeployment w := rfl

lemma reconcile_of_neg (hw : w.spec.replicas < 0) : reconcile w =
    (do report w pendingPhase (invalidCondition w); return {}) := by
  rw [reconcile, reconcileIn, if_pos hw]
  rfl

lemma reconcile_of_nonneg (hw : 0 ≤ w.spec.replicas) : reconcile w = (do
    ensureDeployment w
    report w runningPhase (configuredCondition w)
    return {}) := by
  rw [reconcile, reconcileIn, if_neg (by omega)]
  rfl

end Steps

/-! ## Routines without a break -/

/-- A routine between whose steps nobody comes does what a step does. -/
def Routine.Performs {β : Type} (r : Routine β) (step : Step β) : Prop :=
  ∀ c : Cluster, r.run.advance c = (.finished (step c).1, (step c).2)

namespace Routine

variable {β γ : Type}

lemma performs_pure (b : β) : (pure b : Routine β).Performs (pure b) := fun _ => rfl

lemma performs_lift (step : Step β) : (liftM step : Routine β).Performs step := fun _ => rfl

lemma Performs.bind {r : Routine β} {step : Step β} (h : r.Performs step) {f : β → Routine γ}
    {g : β → Step γ} (hf : ∀ b, (f b).Performs (g b)) : (r >>= f).Performs (step >>= g) := by
  intro c
  have hc := h c
  change (Job.bind r.run (ExceptT.bindCont f)).advance c = _
  rw [Job.advance_bind hc]
  rcases hstep : step c with ⟨e | b, d⟩
  · rw [step_error g hstep]
    rfl
  · rw [step_ok g hstep]
    exact hf b d

lemma Performs.advance_task {r : Routine β} {step : Step β} (h : r.Performs step) (c : Cluster) :
    r.task.advance c = (.finished (.ofExcept (step c).1), (step c).2) :=
  Job.advance_bind (h c) _

end Routine

lemma performs_reconcile (w : Widget) : (reconcileIn Routine w).Performs (reconcile w) := by
  have hreport (phase : String) (ready : Condition) :
      (reportIn Routine w phase ready).Performs (report w phase ready) :=
    (Routine.performs_lift _).bind fun _ => Routine.performs_lift _
  rw [reconcileIn]
  split
  next hw =>
    rw [reconcile_of_neg hw]
    exact (hreport _ _).bind fun _ => Routine.performs_pure _
  next hw =>
    rw [reconcile_of_nonneg (by omega)]
    refine Routine.Performs.bind ?_ fun _ => (hreport _ _).bind fun _ => Routine.performs_pure _
    exact (Routine.performs_lift _).bind fun found => Routine.performs_lift _

/-- The work of a controller on a widget, if nobody comes between its requests. -/
theorem advance_reconciler {σ : Type} (w : Widget) (memory : σ) (c : Cluster) :
    (reconciler.reconcile w memory).1.advance c =
      (.finished (.ofExcept (reconcile w c).1), (reconcile w c).2) ∧
    (reconciler.finalize w memory).1.advance c =
      (.finished (.ofExcept (finalize w c).1), (finalize w c).2) :=
  ⟨(performs_reconcile w).advance_task c, (Routine.performs_lift (finalize w)).advance_task c⟩

/-! ## The requests of a step -/

section Within

variable {R : Cluster → Cluster → Prop} {β γ : Type}

lemma within_ofRequest {r : Request β} (h : r.run.Within R) : (ofRequest r).run.Within R := by
  intro c
  have hc := h c
  simp only [ExceptT.run, ofRequest] at hc ⊢
  split <;> simp_all

namespace Routine

lemma within_lift {step : Step β} (h : step.run.Within R) : (liftM step : Routine β).run.Within R :=
  Job.within_lift h

lemma within_pure (b : β) : (pure b : Routine β).run.Within R := trivial

lemma within_bind {r : Routine β} {f : β → Routine γ} (hr : r.run.Within R)
    (hf : ∀ b, (f b).run.Within R) : (r >>= f).run.Within R := by
  refine Job.Within.bind hr ?_
  rintro (e | b)
  · trivial
  · exact hf b

lemma within_task {r : Routine β} (h : r.run.Within R) : r.task.Within R := h.bind fun _ => trivial

end Routine

lemma within_finalize (w : Widget)
    (hdelete : ∀ k, (Session.delete Deployment k).run.Within R) :
    (finalize w).run.Within R := by
  intro c
  have hc := hdelete (deploymentKey w) c
  simp only [ExceptT.run, finalize] at hc ⊢
  split
  all_goals
    next hanswer =>
    rw [hanswer] at hc
    exact hc

variable [Cluster.Frame R] (w : Widget)

section Report

variable (ready : Condition) (phase : String)
  (h : ∀ k status version, (Session.updateStatus Widget k status version).run.Within R)

include h

lemma within_updateCondition : (ofRequest (Status.updateCondition w ready)).run.Within R := by
  refine within_ofRequest (within_bind (Cluster.Frame.refl R) fun c => ?_)
  split
  · exact within_pure _
  · exact h _ _ _

lemma within_reportCondition : (reportCondition w ready).run.Within R := by
  unfold reportCondition
  split
  · exact within_pure _
  · exact within_bind (within_updateCondition w ready h) fun _ => within_pure _

lemma within_reportPhase : (reportPhase w phase).run.Within R := by
  unfold reportPhase
  split
  · exact within_bind (within_ofRequest (h _ _ _)) fun _ => within_pure _
  · exact within_pure _

/-- A report only writes the status of widgets. -/
lemma within_report : (report w phase ready).run.Within R :=
  within_bind (within_reportCondition w ready h) fun _ => within_reportPhase w phase h

lemma within_reportIn : (reportIn Routine w phase ready).run.Within R :=
  Routine.within_bind (Routine.within_lift (within_reportCondition w ready h)) fun _ =>
    Routine.within_lift (within_reportPhase w phase h)

end Report

lemma within_findDeployment : (findDeployment w).run.Within R := by
  intro c
  have hget := within_get (R := R) (α := Deployment) (deploymentKey w) c
  simp only [ExceptT.run, findDeployment] at hget ⊢
  split
  all_goals
    next hfound =>
    rw [hfound] at hget
    exact hget

lemma within_createDeployment
    (hcreate : ∀ ns (d : Deployment), (Session.create ns d).run.Within R) :
    (createDeployment w).run.Within R := by
  unfold createDeployment
  split
  · exact within_pure _
  · exact within_bind (within_ofRequest (hcreate _ _)) fun _ => within_pure _

lemma within_settleDeployment
    (hcreate : ∀ ns (d : Deployment), (Session.create ns d).run.Within R)
    (hpatch : ∀ k p, (Session.patch Deployment k p).run.Within R) (found : Option Deployment) :
    (settleDeployment w found).run.Within R := by
  unfold settleDeployment
  split
  · exact within_createDeployment w hcreate
  · split
    · exact within_pure _
    · split
      · exact within_pure _
      · exact within_ofRequest (within_bind (hpatch _ _) fun _ => within_pure _)

/-- Whoever comes between the requests of a run on a widget, these are requests for the status of the
widget, for a new deployment and for a change of one. -/
lemma within_reconcileIn
    (hstatus : ∀ k status version, (Session.updateStatus Widget k status version).run.Within R)
    (hcreate : ∀ ns (d : Deployment), (Session.create ns d).run.Within R)
    (hpatch : ∀ k p, (Session.patch Deployment k p).run.Within R) :
    (reconcileIn Routine w).run.Within R := by
  unfold reconcileIn
  split
  · exact Routine.within_bind (within_reportIn w _ _ hstatus) fun _ => Routine.within_pure _
  · refine Routine.within_bind (Routine.within_bind ?_ fun found => ?_) fun _ => ?_
    · exact Routine.within_lift (within_findDeployment w)
    · exact Routine.within_lift (within_settleDeployment w hcreate hpatch found)
    · exact Routine.within_bind (within_reportIn w _ _ hstatus) fun _ => Routine.within_pure _

end Within

lemma reconciler_orderly {σ : Type} : (reconciler : Reconciler σ).Orderly := by
  intro w _
  have hreconcile : (reconcileIn Routine w).run.Orderly Widget :=
    within_reconcileIn w orderly_updateStatus orderly_create orderly_patch
  have hfinalize : (finalize w).run.Orderly Widget := within_finalize w orderly_delete
  exact ⟨Routine.within_task hreconcile, Routine.within_task (Routine.within_lift hfinalize)⟩

end WidgetReconciler

namespace Script

open Session WidgetReconciler

lemma orderly_perform (w : Widget) (e : Effect) : (perform w e).run.Orderly Widget := by
  cases e with
  | updateStatus status =>
    exact within_bind (within_ofRequest (orderly_updateStatus _ _ _)) fun _ => within_pure _
  | updateCondition v =>
    simp only [perform]
    split
    · exact within_pure _
    · exact within_bind (within_updateCondition w _ orderly_updateStatus) fun _ => within_pure _
  | event record =>
    intro c
    exact orderly_record w record c
  | patch p => exact within_bind (within_ofRequest (orderly_patch _ p)) fun _ => within_pure _
  | ownerReference =>
    simp only [perform]
    split
    · exact within_pure _
    · exact within_pure _

lemma orderly_performAll (w : Widget) (effects : List Effect) :
    (performAll w effects).run.Orderly Widget := by
  induction effects with
  | nil => exact Routine.within_pure _
  | cons e rest ih => exact Routine.within_bind (Routine.within_lift (orderly_perform w e)) fun _ => ih

lemma orderly_carryOut (w : Widget) (a : Action) : (carryOut w a).Orderly Widget := by
  have hattempt : (attempt w a).Orderly Widget := by
    refine (orderly_performAll w a.effects).bind ?_
    rintro (e | _) <;> trivial
  rw [carryOut]
  split
  · exact hattempt
  · exact hattempt

lemma reconciler_orderly : reconciler.Orderly := by
  intro w m
  refine ⟨orderly_carryOut w _, (orderly_carryOut w _).bind ?_⟩
  rintro (_ | _ | _) <;> trivial

end Script

end ControlLoop
